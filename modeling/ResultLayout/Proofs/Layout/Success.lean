import ResultLayout.Proofs.Layout.Level
import Mathlib.Data.Set.Insert
/-!
# When a layout succeeds

The levels of a layout are the root level and, below each field met at a level, the level of all
selection sets under its response name. A layout succeeds exactly if each of its levels is sound:
every name spread there is registered, every type met there can be read and every two occurrences of
one response name agree. A layout that fails names a fault of one of its levels. As a checked
registry is closed, an undefined name can only come from the selection that is laid out.
-/
namespace ResultLayout

/-- Everything selected on one object: its schema type and the selection sets made on it. -/
structure Level where
  schemaTypeName : String
  selections : Set SelectionSet

namespace Level

def root (schemaTypeName : String) (selection : SelectionSet) : Level :=
  ⟨schemaTypeName, {selection}⟩

def Selects (registry : FragmentRegistry) (level : Level) (occurrence : Occurrence) : Prop :=
  ∃ selection ∈ level.selections, registry.Selects selection occurrence

def Spreads (registry : FragmentRegistry) (level : Level) (name : String) : Prop :=
  ∃ selection ∈ level.selections, registry.SpreadsAtLevel selection name

/-- The level below a response name gathers the selection sets of all occurrences of the name. -/
def below (registry : FragmentRegistry) (level : Level) (responseName : String) (type : TypeRef) :
    Level where
  schemaTypeName := type.innermostName
  selections := {selection | ∃ occurrence, level.Selects registry occurrence ∧
    occurrence.responseName = responseName ∧ selection = occurrence.field.selection}

/-- The level itself and the levels below it, at any depth. -/
inductive Reaches (registry : FragmentRegistry) : Level → Level → Prop
  | here (level : Level) : Reaches registry level level
  | step {level deeper : Level} {occurrence : Occurrence} {type : TypeRef}
    (hselects : level.Selects registry occurrence) (htype : occurrence.type? = .ok type)
    (hreaches : Reaches registry (level.below registry occurrence.responseName type) deeper) :
    Reaches registry level deeper

/-- Nothing is wrong with what the level selects. -/
structure Sound (registry : FragmentRegistry) (level : Level) : Prop where
  defined : ∀ name, level.Spreads registry name → ∃ fragment, registry.find? name = some fragment
  readable : ∀ occurrence, level.Selects registry occurrence → ∃ type, occurrence.type? = .ok type
  agree : ∀ a b, level.Selects registry a → level.Selects registry b →
    a.responseName = b.responseName → a.Agrees level.schemaTypeName b

/-- What can be wrong with a level, as it is reported. -/
inductive Faults (registry : FragmentRegistry) (level : Level) : CompileError → Prop
  | undefined {name : String} (hspreads : level.Spreads registry name)
    (hnone : registry.find? name = none) : Faults registry level (.undefinedFragment name)
  | malformed {occurrence : Occurrence} {cause : TypeRefError}
    (hselects : level.Selects registry occurrence) (htype : occurrence.type? = .error cause) :
    Faults registry level (.malformedType occurrence.responseName cause)
  | conflict {a b : Occurrence} {s t : TypeRef} (ha : level.Selects registry a)
    (hb : level.Selects registry b) (hname : a.responseName = b.responseName)
    (hs : a.type? = .ok s) (ht : b.type? = .ok t) (hdisagree : ¬ a.Agrees level.schemaTypeName b) :
    Faults registry level (.conflictingShapes level.schemaTypeName a.responseName
      ⟨a.fieldName, s⟩ a.source ⟨b.fieldName, t⟩ b.source)

variable {registry : FragmentRegistry} {level : Level}

theorem Faults.not_sound {error : CompileError} (h : level.Faults registry error) :
    ¬ level.Sound registry := by
  intro hsound
  cases h with
  | undefined hspreads hnone =>
    obtain ⟨fragment, hfind⟩ := hsound.defined _ hspreads
    rw [hnone] at hfind
    cases hfind
  | malformed hselects htype =>
    obtain ⟨type, hread⟩ := hsound.readable _ hselects
    rw [htype] at hread
    cases hread
  | conflict ha hb hname _ _ hdisagree => exact hdisagree (hsound.agree _ _ ha hb hname)

private theorem not_selects_of_items_eq_nil
    (h : ∀ selection ∈ level.selections, selection.items = [])
    (occurrence : Occurrence) : ¬ level.Selects registry occurrence := by
  rintro ⟨selection, hselection, hselects⟩
  obtain ⟨item, hitem, -⟩ := FragmentRegistry.selects_iff_item.mp hselects
  rw [h selection hselection] at hitem
  cases hitem

private theorem not_spreads_of_items_eq_nil
    (h : ∀ selection ∈ level.selections, selection.items = [])
    (name : String) : ¬ level.Spreads registry name := by
  rintro ⟨selection, hselection, hspreads⟩
  have hitems := h selection hselection
  cases hspreads with
  | own hname => simpa [hitems] using SelectionSet.spread_mem_items.mpr hname
  | spread houter _ _ => simpa [hitems] using SelectionSet.spread_mem_items.mpr houter
  | inline hfragment _ => simpa [hitems] using SelectionSet.inline_mem_items.mpr hfragment

private theorem sound_of_items_eq_nil (h : ∀ selection ∈ level.selections, selection.items = [])
    {deeper : Level} (hreaches : level.Reaches registry deeper) : deeper.Sound registry := by
  cases hreaches with
  | here =>
    refine ⟨?_, ?_, ?_⟩
    · intro name hspreads
      exact absurd hspreads (not_spreads_of_items_eq_nil h name)
    · intro occurrence hselects
      exact absurd hselects (not_selects_of_items_eq_nil h occurrence)
    · intro a _ ha
      exact absurd ha (not_selects_of_items_eq_nil h a)
  | step hselects => exact absurd hselects (not_selects_of_items_eq_nil h _)

end Level

def Level.ofList (schemaTypeName : String) (selections : List SelectionSet) : Level :=
  ⟨schemaTypeName, {selection | selection ∈ selections}⟩

namespace Level

variable {registry : FragmentRegistry} {schemaTypeName : String} {selections : List SelectionSet}
  {occurrences : List Occurrence}

theorem root_eq_ofList (schemaTypeName : String) (selection : SelectionSet) :
    root schemaTypeName selection = ofList schemaTypeName [selection] := by
  rw [root, ofList, Level.mk.injEq]
  refine ⟨rfl, ?_⟩
  ext other
  simp

theorem selects_ofList_iff (hwalk : registry.Walks (selections.flatMap (·.items)) occurrences)
    (occurrence : Occurrence) :
    (ofList schemaTypeName selections).Selects registry occurrence ↔ occurrence ∈ occurrences :=
  hwalk.mem_iff_selects.symm

theorem below_ofList (hwalk : registry.Walks (selections.flatMap (·.items)) occurrences)
    (responseName : String) (type : TypeRef) :
    (ofList schemaTypeName selections).below registry responseName type =
      ofList type.innermostName
        ((occurrences.filter (·.responseName = responseName)).map (·.field.selection)) := by
  rw [below, ofList, ofList, Level.mk.injEq]
  refine ⟨rfl, ?_⟩
  ext selection
  simp only [Set.mem_ofPred_eq, List.mem_map, List.mem_filter, decide_eq_true_eq]
  constructor
  · rintro ⟨occurrence, hselects, hname, rfl⟩
    exact ⟨occurrence, ⟨(selects_ofList_iff hwalk occurrence).mp hselects, hname⟩, rfl⟩
  · rintro ⟨occurrence, ⟨hmem, hname⟩, rfl⟩
    exact ⟨occurrence, (selects_ofList_iff hwalk occurrence).mpr hmem, hname, rfl⟩

end Level

namespace FragmentRegistry.Safe

variable {registry : FragmentRegistry} {resolve : String → LeafKind} {schemaTypeName name : String}
  {selections : List SelectionSet} {names : NameAllocator}

private theorem sound_of_levelLayout {P : String → List SelectionSet → RecordType → Prop}
    {occurrences : List Occurrence} {record : RecordType}
    (hlevel : registry.LevelLayout resolve P schemaTypeName selections occurrences record) :
    (Level.ofList schemaTypeName selections).Sound registry := by
  refine ⟨?_, ?_, ?_⟩
  · rintro name ⟨selection, hselection, hspreads⟩
    exact hlevel.walk.defined
      (fun item hitem => List.mem_flatMap.mpr ⟨selection, hselection, hitem⟩) hspreads
  · intro occurrence hselects
    obtain ⟨member, hmember, -, hmine⟩ :=
      hlevel.exists_member ((Level.selects_ofList_iff hlevel.walk occurrence).mp hselects)
    exact ⟨_, (hlevel.members member hmember).type?_eq hmine⟩
  · intro a b ha hb hsame
    have hfirst := (Level.selects_ofList_iff hlevel.walk a).mp ha
    have hsecond := (Level.selects_ofList_iff hlevel.walk b).mp hb
    obtain ⟨member, hmember, hname, hmine⟩ := hlevel.exists_member hfirst
    apply (hlevel.members member hmember).agrees hmine
    rw [List.mem_filter]
    exact ⟨hsecond, decide_eq_true (hname.trans hsame).symm⟩

theorem sound_of_layout_ok (hsafe : registry.Safe) {record : RecordType}
    (h : (layoutRecord resolve name schemaTypeName (selections.flatMap registry.writeOut)
      names).1 = .ok record) :
    ∀ level, (Level.ofList schemaTypeName selections).Reaches registry level →
      level.Sound registry := by
  refine hsafe.layout_ok_induction (P := fun schemaTypeName selections _ =>
    ∀ level, (Level.ofList schemaTypeName selections).Reaches registry level →
      level.Sound registry) ?step h
  intro schemaTypeName selections occurrences record hlevel level hreaches
  cases hreaches with
  | here => exact sound_of_levelLayout hlevel
  | @step _ _ occurrence type hselects htype hreaches =>
    obtain ⟨member, hmember, hname, hmine⟩ :=
      hlevel.exists_member ((Level.selects_ofList_iff hlevel.walk occurrence).mp hselects)
    have hmemberType := (hlevel.members member hmember).type?_eq hmine
    rw [htype] at hmemberType
    rw [Level.below_ofList hlevel.walk, ← hname, Except.ok.inj hmemberType] at hreaches
    rcases (hlevel.members member hmember).nested_cases with ⟨-, hempty⟩ | ⟨nested, -, hnested⟩
    · refine Level.sound_of_items_eq_nil ?_ hreaches
      intro selection hselection
      obtain ⟨other, hother, rfl⟩ := List.mem_map.mp hselection
      exact hempty other hother
    · exact hnested level hreaches

/-- A layout that fails reports a fault of one of its levels. -/
theorem exists_fault_of_layout_error (hsafe : registry.Safe) {error : CompileError}
    (h : (layoutRecord resolve name schemaTypeName (selections.flatMap registry.writeOut)
      names).1 = .error error) :
    ∃ level, (Level.ofList schemaTypeName selections).Reaches registry level ∧
      level.Faults registry error := by
  refine hsafe.layout_error_induction (P := fun schemaTypeName selections error =>
    ∃ level, (Level.ofList schemaTypeName selections).Reaches registry level ∧
      level.Faults registry error) ?malformed ?undefined ?conflict ?nested h
  case malformed =>
    intro schemaTypeName selections selection hselection occurrence cause hselects hcause
    exact ⟨_, .here _, .malformed ⟨selection, hselection, hselects⟩ hcause⟩
  case undefined =>
    intro schemaTypeName selections selection hselection name hspreads hnone
    exact ⟨_, .here _, .undefined ⟨selection, hselection, hspreads⟩ hnone⟩
  case conflict =>
    intro schemaTypeName selections occurrences hwalk a ha b hb s t hname hs ht hdisagree
    exact ⟨_, .here _, .conflict ((Level.selects_ofList_iff hwalk a).mpr ha)
      ((Level.selects_ofList_iff hwalk b).mpr hb) hname hs ht hdisagree⟩
  case nested =>
    rintro schemaTypeName selections occurrences hwalk occurrence hoccurrence type error htype
      ⟨level, hreaches, hfault⟩
    have hselects : (Level.ofList schemaTypeName selections).Selects registry occurrence :=
      (Level.selects_ofList_iff hwalk occurrence).mpr hoccurrence
    refine ⟨level, .step hselects htype ?_, hfault⟩
    rw [Level.below_ofList hwalk]
    exact hreaches

end FragmentRegistry.Safe

section Undefined

variable {registry : FragmentRegistry} {name : String}

private theorem FragmentRegistry.Selects.spreads_of_undefined (hsafe : registry.Safe)
    (hnone : registry.find? name = none) {selection : SelectionSet} {occurrence : Occurrence}
    (hselects : registry.Selects selection occurrence)
    (h : occurrence.field.selection.Spreads name) : selection.Spreads name := by
  induction hselects with
  | own hfield => exact .inField hfield h
  | spread _ hfind _ ih => exact absurd (ih h) (hsafe.not_spreads_undefined hnone hfind)
  | inline hfragment _ ih => exact .inInline hfragment (ih h)

private theorem FragmentRegistry.SpreadsAtLevel.spreads_of_undefined (hsafe : registry.Safe)
    (hnone : registry.find? name = none) {selection : SelectionSet}
    (hspreads : registry.SpreadsAtLevel selection name) : selection.Spreads name := by
  induction hspreads with
  | own hname => exact .here hname
  | spread _ hfind _ ih => exact absurd (ih hnone) (hsafe.not_spreads_undefined hnone hfind)
  | inline hfragment _ ih => exact .inInline hfragment (ih hnone)

private theorem Level.Reaches.spreads_of_undefined (hsafe : registry.Safe)
    (hnone : registry.find? name = none) {level deeper : Level}
    (hreaches : level.Reaches registry deeper) (h : deeper.Spreads registry name) :
    ∃ selection ∈ level.selections, selection.Spreads name := by
  induction hreaches with
  | here =>
    obtain ⟨selection, hselection, hspreads⟩ := h
    exact ⟨selection, hselection, hspreads.spreads_of_undefined hsafe hnone⟩
  | step _ _ _ ih =>
    obtain ⟨_, ⟨occurrence, ⟨selection, hselection, hselects⟩, -, rfl⟩, hspreads⟩ := ih h
    exact ⟨selection, hselection, hselects.spreads_of_undefined hsafe hnone hspreads⟩

end Undefined

/-- A root record is laid out if and only if every level below it is sound. Otherwise the error is a
fault of one of the levels, and an undefined name is one that the selection itself spreads. -/
theorem layoutRoot_ok_iff_levels_sound {collection : FragmentCollection}
    {registry : FragmentRegistry} (hbuild : collection.build = .ok registry)
    (resolve : String → LeafKind) (name schemaTypeName : String) (selection : SelectionSet)
    (names : NameAllocator) :
    ((∃ record, (layoutRoot registry resolve name schemaTypeName selection names).1 = .ok record) ↔
      ∀ level, (Level.root schemaTypeName selection).Reaches registry level →
        level.Sound registry) ∧
    ∀ error, (layoutRoot registry resolve name schemaTypeName selection names).1 = .error error →
      (∃ level, (Level.root schemaTypeName selection).Reaches registry level ∧
        level.Faults registry error) ∧
      ∀ undefined, error = .undefinedFragment undefined →
        selection.Spreads undefined ∧ registry.find? undefined = none := by
  have hsafe := FragmentRegistry.safe_of_build hbuild
  rw [FragmentRegistry.layoutRoot_eq_layoutRecord, Level.root_eq_ofList]
  have hfault : ∀ error, (layoutRecord resolve name schemaTypeName
      ([selection].flatMap registry.writeOut) (names.reserve name)).1 = .error error →
      ∃ level, (Level.ofList schemaTypeName [selection]).Reaches registry level ∧
        level.Faults registry error :=
    fun error => hsafe.exists_fault_of_layout_error
  refine ⟨⟨?_, ?_⟩, ?_⟩
  · rintro ⟨record, hrecord⟩
    exact hsafe.sound_of_layout_ok hrecord
  · intro hsound
    cases hresult : (layoutRecord resolve name schemaTypeName
      ([selection].flatMap registry.writeOut) (names.reserve name)).1 with
    | ok record => exact ⟨record, rfl⟩
    | error error =>
      obtain ⟨level, hreaches, hfaults⟩ := hfault error hresult
      exact absurd (hsound level hreaches) hfaults.not_sound
  · intro error herror
    obtain ⟨level, hreaches, hfaults⟩ := hfault error herror
    refine ⟨⟨level, hreaches, hfaults⟩, ?_⟩
    rintro undefined rfl
    cases hfaults with
    | undefined hspreads hnone =>
      obtain ⟨other, hother, hspreads⟩ := hreaches.spreads_of_undefined hsafe hnone hspreads
      obtain rfl := List.mem_singleton.mp hother
      exact ⟨hspreads, hnone⟩

/-- A fragment that selects the name of a user as its label. -/
def labelFragments : FragmentCollection where
  fragments := [{
    name := "Label", typeCondition := "User", possibleTypes := ["User"]
    selection := ⟨[⟨{ responseName := "label", fieldName := "name", typeText := "String" },
      .empty⟩], [], []⟩ }]
  nodup_names := by decide

/-- A title as label, selected on the objects of one type. -/
def titleOn (typeCondition : String) : InlineFragment :=
  ⟨typeCondition, [typeCondition],
    [⟨{ responseName := "label", fieldName := "title", typeText := "String" }, .empty⟩], []⟩

theorem layoutRoot_label_ok_iff :
    labelFragments.build = .ok ⟨labelFragments.fragments⟩ ∧
    ((∃ record, (layoutRoot ⟨labelFragments.fragments⟩ (fun _ => .enum) "Data" "Node"
        ⟨[], ["Label"], [titleOn "Team", titleOn "User"]⟩ {}).1 = .ok record) ↔
      ∀ level, (Level.root "Node" ⟨[], ["Label"], [titleOn "Team", titleOn "User"]⟩).Reaches
        ⟨labelFragments.fragments⟩ level → level.Sound ⟨labelFragments.fragments⟩) ∧
    ∀ error, (layoutRoot ⟨labelFragments.fragments⟩ (fun _ => .enum) "Data" "Node"
        ⟨[], ["Label"], [titleOn "Team", titleOn "User"]⟩ {}).1 = .error error →
      (∃ level, (Level.root "Node" ⟨[], ["Label"], [titleOn "Team", titleOn "User"]⟩).Reaches
        ⟨labelFragments.fragments⟩ level ∧ level.Faults ⟨labelFragments.fragments⟩ error) ∧
      ∀ undefined, error = .undefinedFragment undefined →
        SelectionSet.Spreads ⟨[], ["Label"], [titleOn "Team", titleOn "User"]⟩ undefined ∧
          FragmentRegistry.find? ⟨labelFragments.fragments⟩ undefined = none := by
  have hbuild : labelFragments.build = .ok ⟨labelFragments.fragments⟩ :=
    FragmentCollection.build_eq_ok_iff.mpr ⟨rfl, by decide +kernel, by decide +kernel⟩
  exact ⟨hbuild, layoutRoot_ok_iff_levels_sound hbuild (fun _ => .enum) "Data" "Node"
    ⟨[], ["Label"], [titleOn "Team", titleOn "User"]⟩ {}⟩

end ResultLayout
