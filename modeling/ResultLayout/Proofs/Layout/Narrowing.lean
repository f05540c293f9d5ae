import ResultLayout.Proofs.Layout.Success
/-!
# Occurrences that are narrowed apart

Two occurrences of one response name may select different schema fields if they are narrowed to two
different types: the innermost fragments around them that narrow their level have different type
conditions. Only these two conditions are compared. The fragments farther out and the possible types
do not count, so that an object can be possible for every fragment around either occurrence. Nor do,
at a level below, the fragments around the fields on the way there.
-/
namespace ResultLayout

namespace Occurrence

/-- The innermost enclosing fragment that narrows the level's type. -/
def innermost? (schemaTypeName : String) (occurrence : Occurrence) : Option FragmentScope :=
  (occurrence.enclosing.filter (·.narrows schemaTypeName)).getLast?

/-- An occurrence can apply to objects of a type that is possible for every fragment around it that
narrows the level's type. -/
def CanApply (schemaTypeName : String) (occurrence : Occurrence) (objectType : String) : Prop :=
  ∀ scope ∈ occurrence.enclosing, scope.narrows schemaTypeName → objectType ∈ scope.possibleTypes

/-- Both occurrences are narrowed, to two different types. -/
def NarrowedApart (schemaTypeName : String) (a b : Occurrence) : Prop :=
  ∃ s t, a.narrowedTo schemaTypeName = some s ∧ b.narrowedTo schemaTypeName = some t ∧ s ≠ t

variable {schemaTypeName : String} {a b : Occurrence}

theorem agrees_iff (htype : a.type? = b.type?) :
    a.Agrees schemaTypeName b ↔ a.fieldName = b.fieldName ∨ a.NarrowedApart schemaTypeName b := by
  rw [Agrees, NarrowedApart]
  exact and_iff_right htype

private theorem CanApply.mem_possibleTypes {objectType : String} {scope : FragmentScope}
    (happly : a.CanApply schemaTypeName objectType) (h : a.innermost? schemaTypeName = some scope) :
    objectType ∈ scope.possibleTypes := by
  obtain ⟨hscope, hnarrows⟩ := List.mem_filter.mp (List.mem_of_getLast? h)
  exact happly scope hscope hnarrows

private theorem NarrowedApart.exists_innermost (h : a.NarrowedApart schemaTypeName b) :
    ∃ s t, a.innermost? schemaTypeName = some s ∧ b.innermost? schemaTypeName = some t ∧
      s.typeCondition ≠ t.typeCondition := by
  obtain ⟨_, _, ha, hb, hne⟩ := h
  obtain ⟨s, hs, rfl⟩ := Option.map_eq_some_iff.mp ha
  obtain ⟨t, ht, rfl⟩ := Option.map_eq_some_iff.mp hb
  exact ⟨s, t, hs, ht, hne⟩

end Occurrence

theorem Level.Reaches.trans {registry : FragmentRegistry} {first second third : Level}
    (hfirst : first.Reaches registry second) (hsecond : second.Reaches registry third) :
    first.Reaches registry third := by
  induction hfirst with
  | here => exact hsecond
  | step hselects htype _ ih => exact .step hselects htype (ih hsecond)

section Merged

variable {collection : FragmentCollection} {registry : FragmentRegistry}

private theorem FragmentCollection.sound_of_layoutRoot_ok (hbuild : collection.build = .ok registry)
    {resolve : String → LeafKind} {name schemaTypeName : String} {selection : SelectionSet}
    {names : NameAllocator} {record : RecordType}
    (hrecord : (layoutRoot registry resolve name schemaTypeName selection names).1 = .ok record)
    {level : Level} (hreaches : (Level.root schemaTypeName selection).Reaches registry level) :
    level.Sound registry := by
  rw [FragmentRegistry.layoutRoot_eq_layoutRecord] at hrecord
  rw [Level.root_eq_ofList] at hreaches
  exact (FragmentRegistry.safe_of_build hbuild).sound_of_layout_ok hrecord level hreaches

/-- Where a layout that succeeds merges two schema fields, the innermost fragments that narrow the
occurrences have different type conditions, and both occurrences can apply only to objects that are
possible for both of these fragments. -/
theorem merged_fields_apply_apart (hbuild : collection.build = .ok registry)
    {resolve : String → LeafKind} {name schemaTypeName : String} {selection : SelectionSet}
    {names : NameAllocator} {record : RecordType}
    (hrecord : (layoutRoot registry resolve name schemaTypeName selection names).1 = .ok record)
    {level : Level} (hreaches : (Level.root schemaTypeName selection).Reaches registry level)
    {a b : Occurrence} (ha : level.Selects registry a) (hb : level.Selects registry b)
    (hname : a.responseName = b.responseName) (hfield : a.fieldName ≠ b.fieldName) :
    ∃ s t, a.innermost? level.schemaTypeName = some s ∧
      b.innermost? level.schemaTypeName = some t ∧ s.typeCondition ≠ t.typeCondition ∧
      ∀ objectType, a.CanApply level.schemaTypeName objectType →
        b.CanApply level.schemaTypeName objectType →
        objectType ∈ s.possibleTypes ∧ objectType ∈ t.possibleTypes := by
  have hsound := collection.sound_of_layoutRoot_ok hbuild hrecord hreaches
  have hagree := hsound.agree a b ha hb hname
  have hapart : a.NarrowedApart level.schemaTypeName b :=
    ((Occurrence.agrees_iff hagree.1).mp hagree).resolve_left hfield
  obtain ⟨s, t, hs, ht, hne⟩ := hapart.exists_innermost
  refine ⟨s, t, hs, ht, hne, ?_⟩
  intro objectType happly happlyToo
  exact ⟨happly.mem_possibleTypes hs, happlyToo.mem_possibleTypes ht⟩

end Merged

section Pets

/-- A schema field selected as the name of a pet. -/
def namedField (fieldName : String) : Field :=
  ⟨{ responseName := "name", fieldName := fieldName, typeText := "String" }, .empty⟩

/-- A field on the objects of one type, with further fragments. -/
def fieldOn (typeCondition : String) (field : Field) (spreads : List String) : InlineFragment where
  typeCondition := typeCondition
  possibleTypes := [typeCondition]
  fields := [field]
  spreads := spreads

/-- Dogs and cats are nodes, and nodes have a name. -/
def nodeNameFragment : Fragment where
  name := "NodeName"
  typeCondition := "Node"
  possibleTypes := ["Dog", "Cat"]
  selection := ⟨[namedField "name"], [], []⟩

def nodeNameFragments : FragmentCollection where
  fragments := [nodeNameFragment]
  nodup_names := by decide

/-- The nickname of a dog or the name of a cat. -/
def dogOrCatName : SelectionSet :=
  ⟨[], [], [fieldOn "Dog" (namedField "nickname") [], fieldOn "Cat" (namedField "name") []]⟩

/-- The nickname of a dog and, in the same inline fragment, its name as a node. -/
def dogAndNodeName : SelectionSet :=
  ⟨[], [], [fieldOn "Dog" (namedField "nickname") ["NodeName"]]⟩

private theorem selects_inline {registry : FragmentRegistry} {selection : SelectionSet}
    (schemaTypeName : String) {fragment : InlineFragment}
    (hfragment : fragment ∈ selection.inlineFragments) {field : Field}
    (hfield : field ∈ fragment.fields) :
    (Level.root schemaTypeName selection).Selects registry ⟨[fragment.scope], field⟩ :=
  ⟨selection, rfl, .inline hfragment (.own hfield)⟩

theorem dog_or_cat_name_apart : ∃ record a b,
    FragmentCollection.empty.build = .ok ⟨[]⟩ ∧
    (layoutRoot ⟨[]⟩ (fun _ => .enum) "Data" "Pet" dogOrCatName .initial).1 = .ok record ∧
    (Level.root "Pet" dogOrCatName).Selects ⟨[]⟩ a ∧
    (Level.root "Pet" dogOrCatName).Selects ⟨[]⟩ b ∧
    a.responseName = b.responseName ∧ a.fieldName ≠ b.fieldName ∧
    ∃ s t, a.innermost? "Pet" = some s ∧ b.innermost? "Pet" = some t ∧
      s.typeCondition ≠ t.typeCondition ∧
      ∀ objectType, a.CanApply "Pet" objectType → b.CanApply "Pet" objectType →
        objectType ∈ s.possibleTypes ∧ objectType ∈ t.possibleTypes := by
  have hbuild : FragmentCollection.empty.build = .ok ⟨[]⟩ := rfl
  obtain ⟨record, hrecord⟩ : ∃ record,
      (layoutRoot ⟨[]⟩ (fun _ => .enum) "Data" "Pet" dogOrCatName .initial).1 = .ok record :=
    exists_record_of_isOk (by decide +kernel)
  have hdog : (Level.root "Pet" dogOrCatName).Selects ⟨[]⟩
      ⟨[(fieldOn "Dog" (namedField "nickname") []).scope], namedField "nickname"⟩ :=
    selects_inline "Pet" List.mem_cons_self List.mem_cons_self
  have hcat : (Level.root "Pet" dogOrCatName).Selects ⟨[]⟩
      ⟨[(fieldOn "Cat" (namedField "name") []).scope], namedField "name"⟩ :=
    selects_inline "Pet" (List.mem_cons_of_mem _ List.mem_cons_self) List.mem_cons_self
  have hfield : "nickname" ≠ "name" := by decide
  exact ⟨record, _, _, hbuild, hrecord, hdog, hcat, rfl, hfield,
    merged_fields_apply_apart hbuild hrecord (.here _) hdog hcat rfl hfield⟩

/-- Both fields are selected on dogs, and the layout keeps the nickname. -/
theorem dog_nickname_hides_name : ∃ record a b,
    nodeNameFragments.build = .ok ⟨[nodeNameFragment]⟩ ∧
    (layoutRoot ⟨[nodeNameFragment]⟩ (fun _ => .enum) "Data" "Pet" dogAndNodeName .initial).1 =
      .ok record ∧
    record.members.map (·.fieldName) = ["nickname"] ∧
    (Level.root "Pet" dogAndNodeName).Selects ⟨[nodeNameFragment]⟩ a ∧
    (Level.root "Pet" dogAndNodeName).Selects ⟨[nodeNameFragment]⟩ b ∧
    a.responseName = b.responseName ∧ a.fieldName = "nickname" ∧ b.fieldName = "name" ∧
    a.CanApply "Pet" "Dog" ∧ b.CanApply "Pet" "Dog" := by
  have hbuild : nodeNameFragments.build = .ok ⟨[nodeNameFragment]⟩ :=
    FragmentCollection.build_eq_ok_iff.mpr ⟨rfl, by decide +kernel, by decide +kernel⟩
  have hkept : (layoutRoot ⟨[nodeNameFragment]⟩ (fun _ => .enum) "Data" "Pet" dogAndNodeName
      .initial).1.toOption.map (·.members.map (·.fieldName)) = some ["nickname"] := by
    decide +kernel
  have hnickname : (Level.root "Pet" dogAndNodeName).Selects ⟨[nodeNameFragment]⟩
      ⟨[(fieldOn "Dog" (namedField "nickname") ["NodeName"]).scope], namedField "nickname"⟩ :=
    selects_inline "Pet" List.mem_cons_self List.mem_cons_self
  have hname : (Level.root "Pet" dogAndNodeName).Selects ⟨[nodeNameFragment]⟩
      ⟨[(fieldOn "Dog" (namedField "nickname") ["NodeName"]).scope, nodeNameFragment.spreadScope],
        namedField "name"⟩ :=
    ⟨dogAndNodeName, rfl, .inline List.mem_cons_self
      (.spread List.mem_cons_self rfl (.own List.mem_cons_self))⟩
  cases hrecord : (layoutRoot ⟨[nodeNameFragment]⟩ (fun _ => .enum) "Data" "Pet" dogAndNodeName
      .initial).1 with
  | error error =>
    rw [hrecord] at hkept
    cases hkept
  | ok record =>
    rw [hrecord] at hkept
    refine ⟨record, _, _, hbuild, rfl, Option.some.inj hkept, hnickname, hname, rfl, rfl, rfl,
      ?_, ?_⟩
    · rw [Occurrence.CanApply]
      decide
    · rw [Occurrence.CanApply]
      decide

end Pets

section Below

variable {registry : FragmentRegistry}

/-- An occurrence at a path of response names through a selection set on a type, with the type of
the level where it stands. -/
inductive FragmentRegistry.SelectsAlong (registry : FragmentRegistry) :
    String → SelectionSet → List String → String → Occurrence → Prop
  | here {schemaTypeName : String} {selection : SelectionSet} {occurrence : Occurrence}
    (hselects : registry.Selects selection occurrence) :
    SelectsAlong registry schemaTypeName selection [] schemaTypeName occurrence
  | deeper {schemaTypeName parent name : String} {selection : SelectionSet} {path : List String}
    {outer occurrence : Occurrence} {type : TypeRef} (houter : registry.Selects selection outer)
    (hname : outer.responseName = name) (htype : outer.type? = .ok type)
    (hbelow : SelectsAlong registry type.innermostName outer.field.selection path parent
      occurrence) :
    SelectsAlong registry schemaTypeName selection (name :: path) parent occurrence

private theorem Level.exists_reached_of_selectsAlong {level : Level}
    (hsound : ∀ deeper, level.Reaches registry deeper → deeper.Sound registry)
    {first second : SelectionSet} (hfirst : first ∈ level.selections)
    (hsecond : second ∈ level.selections) {path : List String} {parent other : String}
    {c d : Occurrence}
    (hc : registry.SelectsAlong level.schemaTypeName first path parent c)
    (hd : registry.SelectsAlong level.schemaTypeName second path other d) :
    ∃ deeper, level.Reaches registry deeper ∧ deeper.schemaTypeName = parent ∧
      deeper.Selects registry c ∧ deeper.Selects registry d := by
  -- The induction follows the first path. The occurrences on the other one have the same names, so
  -- that in a sound level they have the same types and lead to the same level below.
  generalize hlevelType : level.schemaTypeName = levelType at hc hd
  induction hc generalizing level second other with
  | here hselects =>
    cases hd with
    | here hselectsToo =>
      exact ⟨level, .here level, hlevelType, ⟨_, hfirst, hselects⟩, ⟨_, hsecond, hselectsToo⟩⟩
  | @deeper _ _ name _ _ outer _ type houter hname htype _ ih =>
    cases hd with
    | @deeper _ _ _ _ _ twin _ twinType htwin htwinName htwinType hbelow =>
      have hselects : level.Selects registry outer := ⟨_, hfirst, houter⟩
      have htwinSelects : level.Selects registry twin := ⟨second, hsecond, htwin⟩
      have hsame : twin.responseName = outer.responseName := htwinName.trans hname.symm
      have hagree := (hsound level (.here level)).agree twin outer htwinSelects hselects hsame
      have htypes : twinType = type := by
        have htypeEq := hagree.1
        rw [htwinType, htype] at htypeEq
        exact Except.ok.inj htypeEq
      rw [htypes] at hbelow
      have hstep (deeper : Level)
          (h : (level.below registry outer.responseName type).Reaches registry deeper) :
          level.Reaches registry deeper := .step hselects htype h
      have hmem : outer.field.selection ∈
          (level.below registry outer.responseName type).selections := ⟨outer, hselects, rfl, rfl⟩
      have htwinMem : twin.field.selection ∈
          (level.below registry outer.responseName type).selections :=
        ⟨twin, htwinSelects, hsame, rfl⟩
      obtain ⟨deeper, hreaches, hparent, hboth⟩ :=
        ih (fun deeper h => hsound deeper (hstep deeper h)) hmem htwinMem rfl hbelow
      exact ⟨deeper, hstep deeper hreaches, hparent, hboth⟩

/-- Occurrences of one type that are narrowed apart agree, whatever schema fields they select. At
the levels below only what narrows there counts: two occurrences at one path agree if they select
the same schema field or are narrowed apart at their own level; otherwise the layout fails. -/
theorem branches_merge_at_their_level {collection : FragmentCollection}
    (hbuild : collection.build = .ok registry) (resolve : String → LeafKind)
    (name schemaTypeName : String) (selection : SelectionSet) (names : NameAllocator)
    {level : Level} (hreaches : (Level.root schemaTypeName selection).Reaches registry level)
    {a b : Occurrence} (ha : level.Selects registry a) (hb : level.Selects registry b)
    (hname : a.responseName = b.responseName) {type : TypeRef} (htype : a.type? = .ok type)
    (htypeToo : b.type? = .ok type) (hapart : a.NarrowedApart level.schemaTypeName b) :
    a.Agrees level.schemaTypeName b ∧
    ∀ path parent other c d,
      registry.SelectsAlong type.innermostName a.field.selection path parent c →
      registry.SelectsAlong type.innermostName b.field.selection path other d →
      c.responseName = d.responseName → c.type? = d.type? →
      (c.Agrees parent d ↔ c.fieldName = d.fieldName ∨ c.NarrowedApart parent d) ∧
      (¬ c.Agrees parent d → ∃ error,
        (layoutRoot registry resolve name schemaTypeName selection names).1 = .error error) := by
  refine ⟨⟨htype.trans htypeToo.symm, Or.inr hapart⟩, ?_⟩
  intro path parent other c d hc hd hsame htypes
  refine ⟨Occurrence.agrees_iff htypes, ?_⟩
  intro hdisagree
  cases hresult : (layoutRoot registry resolve name schemaTypeName selection names).1 with
  | error error => exact ⟨error, rfl⟩
  | ok record =>
    have hstep : level.Reaches registry (level.below registry a.responseName type) :=
      .step ha htype (.here _)
    have hsound (deeper : Level)
        (h : (level.below registry a.responseName type).Reaches registry deeper) :
        deeper.Sound registry :=
      collection.sound_of_layoutRoot_ok hbuild hresult (hreaches.trans (hstep.trans h))
    have hmem : a.field.selection ∈ (level.below registry a.responseName type).selections :=
      ⟨a, ha, rfl, rfl⟩
    have hmemToo : b.field.selection ∈ (level.below registry a.responseName type).selections :=
      ⟨b, hb, hname.symm, rfl⟩
    obtain ⟨deeper, hdeeper, hparent, hselects, hselectsToo⟩ :=
      Level.exists_reached_of_selectsAlong hsound hmem hmemToo hc hd
    have hagree := (hsound deeper hdeeper).agree c d hselects hselectsToo hsame
    rw [hparent] at hagree
    exact absurd hagree hdisagree

end Below

section Owners

def ownerField (selection : SelectionSet) : Field :=
  ⟨{ responseName := "owner", fieldName := "owner", typeText := "Person" }, selection⟩

def dogOwner : Field := ownerField ⟨[namedField "firstName"], [], []⟩

def catOwner : Field := ownerField ⟨[namedField "lastName"], [], []⟩

/-- The first name of a dog's owner or the last name of a cat's. -/
def petOwnerName : SelectionSet where
  fields := []
  spreads := []
  inlineFragments := [fieldOn "Dog" dogOwner [], fieldOn "Cat" catOwner []]

theorem pet_owners_agree_names_do_not : ∃ a b c d,
    FragmentCollection.empty.build = .ok ⟨[]⟩ ∧
    (Level.root "Pet" petOwnerName).Selects ⟨[]⟩ a ∧
    (Level.root "Pet" petOwnerName).Selects ⟨[]⟩ b ∧ a.responseName = b.responseName ∧
    a.type? = .ok (.named "Person" true) ∧ b.type? = .ok (.named "Person" true) ∧
    a.NarrowedApart "Pet" b ∧ a.Agrees "Pet" b ∧
    FragmentRegistry.Selects ⟨[]⟩ a.field.selection c ∧
    FragmentRegistry.Selects ⟨[]⟩ b.field.selection d ∧ c.responseName = d.responseName ∧
    c.type? = d.type? ∧ ¬ c.Agrees "Person" d ∧ ∃ error,
      (layoutRoot ⟨[]⟩ (fun _ => .enum) "Data" "Pet" petOwnerName .initial).1 = .error error := by
  have hbuild : FragmentCollection.empty.build = .ok ⟨[]⟩ := rfl
  have hdog : (Level.root "Pet" petOwnerName).Selects ⟨[]⟩
      ⟨[(fieldOn "Dog" dogOwner []).scope], dogOwner⟩ :=
    selects_inline "Pet" List.mem_cons_self List.mem_cons_self
  have hcat : (Level.root "Pet" petOwnerName).Selects ⟨[]⟩
      ⟨[(fieldOn "Cat" catOwner []).scope], catOwner⟩ :=
    selects_inline "Pet" (List.mem_cons_of_mem _ List.mem_cons_self) List.mem_cons_self
  have hperson : TypeRef.parse "Person" = .ok (.named "Person" true) := by decide +kernel
  have hfirst : FragmentRegistry.Selects ⟨[]⟩ dogOwner.selection ⟨[], namedField "firstName"⟩ :=
    .own List.mem_cons_self
  have hlast : FragmentRegistry.Selects ⟨[]⟩ catOwner.selection ⟨[], namedField "lastName"⟩ :=
    .own List.mem_cons_self
  have hapart : Occurrence.NarrowedApart "Pet"
      ⟨[(fieldOn "Dog" dogOwner []).scope], dogOwner⟩
      ⟨[(fieldOn "Cat" catOwner []).scope], catOwner⟩ := ⟨"Dog", "Cat", rfl, rfl, by decide⟩
  obtain ⟨hagrees, hbelow⟩ := branches_merge_at_their_level hbuild (fun _ => .enum) "Data" "Pet"
    petOwnerName .initial (.here _) hdog hcat rfl hperson hperson hapart
  obtain ⟨hiff, hfails⟩ := hbelow [] "Person" "Person" _ _ (.here hfirst) (.here hlast) rfl rfl
  have hdisagree : ¬ Occurrence.Agrees "Person" ⟨[], namedField "firstName"⟩
      ⟨[], namedField "lastName"⟩ := by
    rw [hiff]
    rintro (hfield | ⟨s, t, hs, -, -⟩)
    · revert hfield
      decide
    · cases hs
  exact ⟨_, _, _, _, hbuild, hdog, hcat, rfl, hperson, hperson, hapart, hagrees, hfirst, hlast, rfl,
    rfl, hdisagree, hfails hdisagree⟩

/-- The same two names directly in the branches are one member. -/
theorem pet_owner_names_conflict :
    (layoutRoot ⟨[]⟩ (fun _ => .enum) "Data" "Pet" petOwnerName .initial).1 =
      .error (.conflictingShapes "Person" "name" ⟨"firstName", .named "String" true⟩ .direct
        ⟨"lastName", .named "String" true⟩ .direct) ∧
    ∃ record, (layoutRoot ⟨[]⟩ (fun _ => .enum) "Data" "Pet" ⟨[], [],
      [fieldOn "Dog" (namedField "firstName") [], fieldOn "Cat" (namedField "lastName") []]⟩
        .initial).1 = .ok record :=
  ⟨eq_error_of_error? (by decide +kernel), exists_record_of_isOk (by decide +kernel)⟩

end Owners

end ResultLayout
