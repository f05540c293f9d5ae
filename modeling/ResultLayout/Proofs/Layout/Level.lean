import ResultLayout.Proofs.Layout.Grouping
import ResultLayout.Proofs.Layout.Induction
import ResultLayout.Proofs.Layout.Visits
/-!
# Layout of one level, read off its selection sets

A level of several selection sets is laid out over the occurrences of its walk. In a layout that
succeeds every type is read, occurrences of one response name agree with each other, and each of
their members is formed from all of them; its nested record is laid out over their selection sets. A
layout that fails does so over a type that cannot be read, an undefined spread or two occurrences
that do not agree.
-/
namespace ResultLayout

section Lists

variable {α β : Type} {R : α → β → Prop} {left : List α} {right : List β}

theorem exists_right_of_mem (h : List.Forall₂ R left right) {a : α} (ha : a ∈ left) :
    ∃ b ∈ right, R a b := by
  induction h with
  | nil => cases ha
  | @cons c d _ _ hcd _ ih =>
    rcases List.mem_cons.mp ha with rfl | hrest
    · exact ⟨d, List.mem_cons_self, hcd⟩
    · obtain ⟨b, hb, hab⟩ := ih hrest
      exact ⟨b, List.mem_cons_of_mem d hb, hab⟩

theorem exists_left_of_mem (h : List.Forall₂ R left right) {b : β} (hb : b ∈ right) :
    ∃ a ∈ left, R a b := by
  obtain ⟨a, ha, hab⟩ := exists_right_of_mem h.flip hb
  exact ⟨a, ha, hab⟩

private theorem map_eq_map_of_forall₂ {γ : Type} {f : α → γ} {g : β → γ}
    (h : List.Forall₂ R left right) (hfg : ∀ a b, R a b → f a = g b) :
    left.map f = right.map g := by
  induction h with
  | nil => rfl
  | cons hab _ ih => rw [List.map_cons, List.map_cons, hfg _ _ hab, ih]

end Lists

section Contributions

theorem contributions_append (xs ys : List Visit) :
    contributions (xs ++ ys) =
      match contributions xs with
      | .error error => .error error
      | .ok first => (contributions ys).map (first ++ ·) := by
  induction xs with
  | nil =>
    cases hys : contributions ys <;> simp [contributions, hys, Except.map]
  | cons visit xs ih =>
    rw [List.cons_append, contributions, contributions, ih]
    cases visit.contribution with
    | error error => rfl
    | ok contribution =>
      cases contributions xs with
      | error error => rfl
      | ok first => cases contributions ys <;> rfl

theorem contributions_eq_ok {visits : List Visit} {result : List (Contribution (List Selected))}
    (h : contributions visits = .ok result) :
    List.Forall₂ (fun visit contribution => visit.contribution = .ok contribution)
      visits result := by
  induction visits generalizing result with
  | nil =>
    obtain rfl := Except.ok.inj h
    exact .nil
  | cons visit visits ih =>
    rw [contributions] at h
    split at h
    next => cases h
    next contribution hvisit =>
      obtain ⟨rest, hrest, rfl⟩ := map_eq_ok_iff.mp h
      exact .cons hvisit (ih hrest)

private theorem contributions_eq_error {visits : List Visit} {error : CompileError}
    (h : contributions visits = .error error) :
    ∃ visit ∈ visits, visit.contribution = .error error := by
  induction visits with
  | nil => cases h
  | cons visit visits ih =>
    rw [contributions] at h
    split at h
    next first hvisit =>
      exact ⟨visit, List.mem_cons_self, by rw [hvisit, Except.error.inj h]⟩
    next contribution hvisit =>
      obtain ⟨other, hother, hfault⟩ := ih (map_eq_error_iff.mp h)
      exact ⟨other, List.mem_cons_of_mem _ hother, hfault⟩

end Contributions

namespace Occurrence

/-- Two occurrences can be one member: their types agree and they select the same schema field, or
they are narrowed to two different types. -/
def Agrees (schemaTypeName : String) (a b : Occurrence) : Prop :=
  a.type? = b.type? ∧
    (a.fieldName = b.fieldName ∨
      ∃ s t, a.narrowedTo schemaTypeName = some s ∧ b.narrowedTo schemaTypeName = some t ∧ s ≠ t)

/-- What an occurrence of a known type contributes to its member. -/
def contribution (registry : FragmentRegistry) (schemaTypeName : String) (occurrence : Occurrence)
    (type : TypeRef) : Contribution (List Selected) where
  head := occurrence.field.head
  type := type
  below := registry.writeOut occurrence.field.selection
  conditional := occurrence.conditional schemaTypeName
  narrowedTo := occurrence.narrowedTo schemaTypeName
  source := occurrence.source

/-- The occurrence's type can be read, and this is its contribution. -/
def Contributes (registry : FragmentRegistry) (schemaTypeName : String) (occurrence : Occurrence)
    (result : Contribution (List Selected)) : Prop :=
  ∃ type, occurrence.type? = .ok type ∧
    result = occurrence.contribution registry schemaTypeName type

variable {registry : FragmentRegistry} {schemaTypeName : String}

private theorem contribution_visit (occurrence : Occurrence) :
    (occurrence.visit registry schemaTypeName {}).contribution =
      match occurrence.type? with
      | .error cause => .error (.malformedType occurrence.responseName cause)
      | .ok type => .ok (occurrence.contribution registry schemaTypeName type) := by
  rw [visit, Surroundings.enterAll_eq, Visit.contribution, Surroundings.contribution, type?]
  cases TypeRef.parse occurrence.field.head.typeText with
  | error cause => rfl
  | ok type => simp [contribution, conditional, narrowedTo, source]

theorem contributes_iff {occurrence : Occurrence} {result : Contribution (List Selected)} :
    occurrence.Contributes registry schemaTypeName result ↔
      (occurrence.visit registry schemaTypeName {}).contribution = .ok result := by
  rw [Contributes, contribution_visit]
  cases occurrence.type? with
  | error cause => simp
  | ok type => simp [eq_comm]

theorem Contributes.responseName_eq {occurrence : Occurrence}
    {result : Contribution (List Selected)}
    (h : occurrence.Contributes registry schemaTypeName result) :
    result.responseName = occurrence.responseName := by
  obtain ⟨type, -, rfl⟩ := h
  rfl

private theorem Contributes.mergesWith_iff {a b : Occurrence}
    {first second : Contribution (List Selected)} (ha : a.Contributes registry schemaTypeName first)
    (hb : b.Contributes registry schemaTypeName second) :
    first.mergesWith second = true ↔ a.Agrees schemaTypeName b := by
  obtain ⟨s, hs, rfl⟩ := ha
  obtain ⟨t, ht, rfl⟩ := hb
  have hnarrowed (x y : Option String) :
      (x.isSome = true ∧ y.isSome = true ∧ x ≠ y) ↔ ∃ s t, x = some s ∧ y = some t ∧ s ≠ t := by
    cases x <;> cases y <;> simp
  rw [Contribution.mergesWith, decide_eq_true_iff]
  simp only [contribution, Agrees, hs, ht, Except.ok.injEq, hnarrowed, fieldName]

end Occurrence

namespace FragmentRegistry

/-- The occurrences `mine` form a member; a nested record over their selection sets satisfies `P`. -/
def MemberOf (registry : FragmentRegistry) (resolve : String → LeafKind)
    (P : String → List SelectionSet → RecordType → Prop) (schemaTypeName : String)
    (mine : List Occurrence) (member : Member) : Prop :=
  ∃ group : Group (List Selected),
    List.Forall₂ (Occurrence.Contributes registry schemaTypeName) mine group.toList ∧
    MemberFrom resolve (fun nestedType _ nested => P nestedType (mine.map (·.field.selection)) nested)
      group member

/-- One level of a layout that succeeds. -/
structure LevelLayout (registry : FragmentRegistry) (resolve : String → LeafKind)
    (P : String → List SelectionSet → RecordType → Prop) (schemaTypeName : String)
    (selections : List SelectionSet) (occurrences : List Occurrence) (record : RecordType) : Prop where
  walk : registry.Walks (selections.flatMap (·.items)) occurrences
  schemaTypeName_eq : record.schemaTypeName = schemaTypeName
  fragmentRefs_eq : record.fragmentRefs =
    firstSeen (Selected.spreadsHere.spreadsOf (selections.flatMap registry.writeOut))
  responseNames : record.members.map (·.responseName) = firstSeen (occurrences.map (·.responseName))
  members : ∀ member ∈ record.members, registry.MemberOf resolve P schemaTypeName
    (occurrences.filter (·.responseName = member.responseName)) member

namespace Safe

variable {registry : FragmentRegistry}

theorem levelVisits_writeOut (registry : FragmentRegistry) (schemaTypeName : String)
    (selections : List SelectionSet) :
    levelVisits schemaTypeName (selections.flatMap registry.writeOut) =
      selections.flatMap fun selection =>
        Selected.visits.visitsOf schemaTypeName {} (registry.writeOut selection) := by
  rw [levelVisits, visitsOf_eq_flatMap, List.flatMap_assoc]
  simp only [visitsOf_eq_flatMap]

theorem defined_of_contributions (hsafe : registry.Safe) {schemaTypeName : String}
    {selections : List SelectionSet} {result : List (Contribution (List Selected))}
    (h : contributions (levelVisits schemaTypeName (selections.flatMap registry.writeOut)) =
      .ok result) :
    ∀ selection ∈ selections, ∀ name, registry.SpreadsAtLevel selection name →
      ∃ fragment, registry.find? name = some fragment := by
  intro selection hselection name hspreads
  rw [← Option.ne_none_iff_exists']
  intro hnone
  have hmark := hsafe.undefinedSpread_mem_visits hspreads hnone schemaTypeName {}
  rw [levelVisits_writeOut] at h
  obtain ⟨contribution, -, hcontribution⟩ := exists_right_of_mem (contributions_eq_ok h)
    (List.mem_flatMap.mpr ⟨selection, hselection, hmark⟩)
  cases hcontribution

private theorem contributions_error_cases (hsafe : registry.Safe) {schemaTypeName : String}
    {selections : List SelectionSet} {error : CompileError}
    (h : contributions (levelVisits schemaTypeName (selections.flatMap registry.writeOut)) =
      .error error) :
    ∃ selection ∈ selections,
      (∃ occurrence cause, registry.Selects selection occurrence ∧
        occurrence.type? = .error cause ∧ error = .malformedType occurrence.responseName cause) ∨
      ∃ name, registry.SpreadsAtLevel selection name ∧ registry.find? name = none ∧
        error = .undefinedFragment name := by
  obtain ⟨visit, hvisit, hfault⟩ := contributions_eq_error h
  rw [levelVisits_writeOut] at hvisit
  obtain ⟨selection, hselection, hvisit⟩ := List.mem_flatMap.mp hvisit
  refine ⟨selection, hselection, ?_⟩
  rcases hsafe.visit_cases hvisit with ⟨occurrence, hselects, rfl⟩ | ⟨name, hspreads, hnone, rfl⟩
  · rw [Occurrence.contribution_visit] at hfault
    split at hfault
    next cause hcause =>
      exact Or.inl ⟨occurrence, cause, hselects, hcause, (Except.error.inj hfault).symm⟩
    next => cases hfault
  · exact Or.inr ⟨name, hspreads, hnone, (Except.error.inj hfault).symm⟩

/-- If a level can be read, its walk comes to an end and every occurrence contributes. -/
theorem exists_contributing_walk (hsafe : registry.Safe) {schemaTypeName : String}
    {selections : List SelectionSet} {result : List (Contribution (List Selected))}
    (h : contributions (levelVisits schemaTypeName (selections.flatMap registry.writeOut)) =
      .ok result) :
    ∃ occurrences, registry.Walks (selections.flatMap (·.items)) occurrences ∧
      List.Forall₂ (Occurrence.Contributes registry schemaTypeName) occurrences result := by
  have hforall := contributions_eq_ok h
  have hdefined := hsafe.defined_of_contributions h
  have hwalks : ∃ occurrences, registry.Walks (selections.flatMap (·.items)) occurrences := by
    clear h hforall
    induction selections with
    | nil => exact ⟨[], .nil⟩
    | cons selection rest ih =>
      obtain ⟨left, hleft⟩ := hsafe.exists_walks (hdefined selection List.mem_cons_self)
      obtain ⟨right, hright⟩ := ih fun other hother => hdefined other (List.mem_cons_of_mem _ hother)
      exact ⟨left ++ right, hleft.append hright⟩
  obtain ⟨occurrences, hwalk⟩ := hwalks
  refine ⟨occurrences, hwalk, ?_⟩
  have hvisits : levelVisits schemaTypeName (selections.flatMap registry.writeOut) =
      occurrences.map (·.visit registry schemaTypeName {}) := by
    rw [levelVisits_writeOut, ← hsafe.visits_eq_of_walks hwalk, List.flatMap_assoc]
    simp only [visitsOf_writeOut]
  rw [hvisits, List.forall₂_map_left_iff] at hforall
  exact hforall.imp fun occurrence contribution => Occurrence.contributes_iff.mpr

end Safe

section Groups

variable {registry : FragmentRegistry} {schemaTypeName : String} {mine : List Occurrence}
  {group : Group (List Selected)}

private theorem contributes_group {occurrences : List Occurrence}
    {result : List (Contribution (List Selected))}
    (h : List.Forall₂ (Occurrence.Contributes registry schemaTypeName) occurrences result)
    (hgroup : group ∈ Group.ofContributions result) :
    List.Forall₂ (Occurrence.Contributes registry schemaTypeName)
      (occurrences.filter (·.responseName = group.responseName)) group.toList := by
  rw [Group.toList_of_mem_ofContributions hgroup]
  refine List.rel_filter ?_ h
  intro occurrence contribution hcontributes
  simp only [hcontributes.responseName_eq]

theorem below_eq_flatMap
    (h : List.Forall₂ (Occurrence.Contributes registry schemaTypeName) mine group.toList) :
    group.below = (mine.map (·.field.selection)).flatMap registry.writeOut := by
  have hbelow : mine.map (fun occurrence => registry.writeOut occurrence.field.selection) =
      group.toList.map (·.below) := by
    apply map_eq_map_of_forall₂ h
    rintro occurrence _ ⟨type, -, rfl⟩
    rfl
  rw [Group.below, List.flatMap_map, List.flatMap_def, List.flatMap_def, hbelow]

private theorem agrees_of_conflict?_eq_none
    (h : List.Forall₂ (Occurrence.Contributes registry schemaTypeName) mine group.toList)
    (hconflict : group.conflict? = none) {a b : Occurrence} (ha : a ∈ mine) (hb : b ∈ mine) :
    a.Agrees schemaTypeName b := by
  obtain ⟨first, hfirst, hac⟩ := exists_right_of_mem h ha
  obtain ⟨second, hsecond, hbc⟩ := exists_right_of_mem h hb
  rw [← hac.mergesWith_iff hbc]
  exact Group.conflict?_eq_none.mp hconflict first hfirst second hsecond

private theorem type?_of_conflict?_eq_none
    (h : List.Forall₂ (Occurrence.Contributes registry schemaTypeName) mine group.toList)
    (hconflict : group.conflict? = none) {occurrence : Occurrence} (hmem : occurrence ∈ mine) :
    occurrence.type? = .ok group.first.type := by
  have hfirst : group.first ∈ group.toList := List.mem_cons_self
  obtain ⟨other, hother, type, htype, heq⟩ := exists_left_of_mem h hfirst
  have hagrees := agrees_of_conflict?_eq_none h hconflict hmem hother
  rw [hagrees.1, htype, heq]
  rfl

private theorem exists_disagreement_of_conflict?
    (h : List.Forall₂ (Occurrence.Contributes registry schemaTypeName) mine group.toList)
    {first second : Contribution (List Selected)}
    (hconflict : group.conflict? = some (first, second)) :
    ∃ a ∈ mine, ∃ b ∈ mine, a.Contributes registry schemaTypeName first ∧
      b.Contributes registry schemaTypeName second ∧ ¬ a.Agrees schemaTypeName b := by
  obtain ⟨hfirst, hsecond, hclash⟩ := Group.conflict?_eq_some hconflict
  obtain ⟨a, ha, hac⟩ := exists_left_of_mem h hfirst
  obtain ⟨b, hb, hbc⟩ := exists_left_of_mem h hsecond
  refine ⟨a, ha, b, hb, hac, hbc, ?_⟩
  rw [← hac.mergesWith_iff hbc, hclash]
  exact Bool.false_ne_true

end Groups

namespace MemberOf

variable {registry : FragmentRegistry} {resolve : String → LeafKind}
  {P : String → List SelectionSet → RecordType → Prop} {schemaTypeName : String}
  {mine : List Occurrence} {member : Member}

theorem type?_eq (h : registry.MemberOf resolve P schemaTypeName mine member)
    {occurrence : Occurrence} (hmem : occurrence ∈ mine) : occurrence.type? = .ok member.type := by
  obtain ⟨group, hcontributes, hmember⟩ := h
  rw [hmember.type_eq]
  exact type?_of_conflict?_eq_none hcontributes hmember.conflict?_eq_none hmem

theorem agrees (h : registry.MemberOf resolve P schemaTypeName mine member) {a b : Occurrence}
    (ha : a ∈ mine) (hb : b ∈ mine) : a.Agrees schemaTypeName b := by
  obtain ⟨group, hcontributes, hmember⟩ := h
  exact agrees_of_conflict?_eq_none hcontributes hmember.conflict?_eq_none ha hb

theorem nested_cases (h : registry.MemberOf resolve P schemaTypeName mine member) :
    (member.nested = none ∧ ∀ occurrence ∈ mine, occurrence.field.selection.items = []) ∨
    ∃ nested, member.nested = some nested ∧
      P member.type.innermostName (mine.map (·.field.selection)) nested := by
  obtain ⟨group, hcontributes, hmember⟩ := h
  cases hmember with
  | leaf hconflict hbelow =>
    refine Or.inl ⟨rfl, ?_⟩
    intro occurrence hmem
    rw [below_eq_flatMap hcontributes, List.flatMap_eq_nil_iff] at hbelow
    have hnothing := hbelow occurrence.field.selection (List.mem_map_of_mem hmem)
    rw [writeOut_eq_map, List.map_eq_nil_iff] at hnothing
    exact hnothing
  | composite hconflict hbelow hnested => exact Or.inr ⟨_, rfl, hnested⟩

end MemberOf

theorem LevelLayout.mono {registry : FragmentRegistry} {resolve : String → LeafKind}
    {P Q : String → List SelectionSet → RecordType → Prop} {schemaTypeName : String}
    {selections : List SelectionSet} {occurrences : List Occurrence} {record : RecordType}
    (hPQ : ∀ nestedType nestedSelections nested,
      P nestedType nestedSelections nested → Q nestedType nestedSelections nested)
    (h : registry.LevelLayout resolve P schemaTypeName selections occurrences record) :
    registry.LevelLayout resolve Q schemaTypeName selections occurrences record := by
  refine ⟨h.walk, h.schemaTypeName_eq, h.fragmentRefs_eq, h.responseNames, ?_⟩
  intro member hmember
  obtain ⟨group, hcontributes, hfrom⟩ := h.members member hmember
  exact ⟨group, hcontributes, hfrom.mono (hPQ _ _)⟩

theorem LevelLayout.exists_member {registry : FragmentRegistry} {resolve : String → LeafKind}
    {P : String → List SelectionSet → RecordType → Prop} {schemaTypeName : String}
    {selections : List SelectionSet} {occurrences : List Occurrence} {record : RecordType}
    (h : registry.LevelLayout resolve P schemaTypeName selections occurrences record)
    {occurrence : Occurrence} (hoccurrence : occurrence ∈ occurrences) :
    ∃ member ∈ record.members, member.responseName = occurrence.responseName ∧
      occurrence ∈ occurrences.filter (·.responseName = member.responseName) := by
  have hname : occurrence.responseName ∈ record.members.map (·.responseName) := by
    rw [h.responseNames, mem_firstSeen]
    exact List.mem_map_of_mem hoccurrence
  obtain ⟨member, hmember, hname⟩ := List.mem_map.mp hname
  refine ⟨member, hmember, hname, ?_⟩
  rw [List.mem_filter]
  exact ⟨hoccurrence, decide_eq_true hname.symm⟩

theorem layoutRoot_eq_layoutRecord (registry : FragmentRegistry) (resolve : String → LeafKind)
    (name schemaTypeName : String) (selection : SelectionSet) (names : NameAllocator) :
    layoutRoot registry resolve name schemaTypeName selection names =
      layoutRecord resolve name schemaTypeName ([selection].flatMap registry.writeOut)
        (names.reserve name) := by
  rw [layoutRoot, List.flatMap_singleton]

namespace Safe

variable {registry : FragmentRegistry} {resolve : String → LeafKind}

/-- Induction along the levels of a layout that succeeds. -/
theorem layout_ok_induction (hsafe : registry.Safe)
    {P : String → List SelectionSet → RecordType → Prop}
    (step : ∀ schemaTypeName selections occurrences record,
      registry.LevelLayout resolve P schemaTypeName selections occurrences record →
      P schemaTypeName selections record)
    {name schemaTypeName : String} {selections : List SelectionSet} {names : NameAllocator}
    {record : RecordType}
    (h : (layoutRecord resolve name schemaTypeName (selections.flatMap registry.writeOut)
      names).1 = .ok record) : P schemaTypeName selections record := by
  -- Different selection sets can be written out alike, so the statement covers all of them.
  refine layoutRecord_ok_induction (P := fun nestedType written nested => ∀ selections,
    written = selections.flatMap registry.writeOut → P nestedType selections nested) ?step h _ rfl
  rintro schemaTypeName _ result record hresult hschemaType hrefs hmembers selections rfl
  obtain ⟨occurrences, hwalk, hcontributes⟩ := hsafe.exists_contributing_walk hresult
  apply step schemaTypeName selections occurrences
  refine ⟨hwalk, hschemaType, hrefs, ?_, ?_⟩
  · have hnames : (Group.ofContributions result).map (·.responseName) =
        record.members.map (·.responseName) :=
      map_eq_map_of_forall₂ hmembers fun _ _ hfrom => hfrom.responseName_eq.symm
    have hkeys : occurrences.map (·.responseName) = result.map (·.responseName) :=
      map_eq_map_of_forall₂ hcontributes fun _ _ hsame => hsame.responseName_eq.symm
    rw [← hnames, Group.responseNames_ofContributions, hkeys]
  · intro member hmember
    obtain ⟨group, hgroup, hfrom⟩ := exists_left_of_mem hmembers hmember
    have hmine := contributes_group hcontributes hgroup
    rw [← hfrom.responseName_eq] at hmine
    exact ⟨group, hmine, hfrom.mono fun nested hnested => hnested _ (below_eq_flatMap hmine)⟩

/-- Induction along the levels of a layout that fails, from the level that is at fault. -/
theorem layout_error_induction (hsafe : registry.Safe)
    {P : String → List SelectionSet → CompileError → Prop}
    (malformed : ∀ schemaTypeName selections, ∀ selection ∈ selections, ∀ occurrence cause,
      registry.Selects selection occurrence → occurrence.type? = .error cause →
      P schemaTypeName selections (.malformedType occurrence.responseName cause))
    (undefined : ∀ schemaTypeName selections, ∀ selection ∈ selections, ∀ name,
      registry.SpreadsAtLevel selection name → registry.find? name = none →
      P schemaTypeName selections (.undefinedFragment name))
    (conflict : ∀ schemaTypeName selections occurrences,
      registry.Walks (selections.flatMap (·.items)) occurrences →
      ∀ a ∈ occurrences, ∀ b ∈ occurrences, ∀ s t, a.responseName = b.responseName →
      a.type? = .ok s → b.type? = .ok t → ¬ a.Agrees schemaTypeName b →
      P schemaTypeName selections (conflictError schemaTypeName a.responseName
        (a.contribution registry schemaTypeName s) (b.contribution registry schemaTypeName t)))
    (nested : ∀ schemaTypeName selections occurrences,
      registry.Walks (selections.flatMap (·.items)) occurrences →
      ∀ occurrence ∈ occurrences, ∀ type error, occurrence.type? = .ok type →
      P type.innermostName ((occurrences.filter (·.responseName = occurrence.responseName)).map
        (·.field.selection)) error →
      P schemaTypeName selections error)
    {name schemaTypeName : String} {selections : List SelectionSet} {names : NameAllocator}
    {error : CompileError}
    (h : (layoutRecord resolve name schemaTypeName (selections.flatMap registry.writeOut)
      names).1 = .error error) : P schemaTypeName selections error := by
  refine layoutRecord_error_induction (P := fun levelType written error => ∀ selections,
    written = selections.flatMap registry.writeOut → P levelType selections error)
    ?atVisit ?atConflict ?atNested h _ rfl
  case atVisit =>
    rintro schemaTypeName _ error hresult selections rfl
    obtain ⟨selection, hselection, hfault⟩ := hsafe.contributions_error_cases hresult
    rcases hfault with ⟨occurrence, cause, hselects, hcause, rfl⟩ | ⟨name, hspreads, hnone, rfl⟩
    · exact malformed _ _ selection hselection occurrence cause hselects hcause
    · exact undefined _ _ selection hselection name hspreads hnone
  case atConflict =>
    rintro schemaTypeName _ result group hgroup first second hresult hconflict selections rfl
    obtain ⟨occurrences, hwalk, hcontributes⟩ := hsafe.exists_contributing_walk hresult
    have hmine := contributes_group hcontributes hgroup
    obtain ⟨a, ha, b, hb, ⟨s, hs, rfl⟩, ⟨t, ht, rfl⟩, hdisagree⟩ :=
      exists_disagreement_of_conflict? hmine hconflict
    obtain ⟨ha, hname⟩ := List.mem_filter.mp ha
    obtain ⟨hb, hsame⟩ := List.mem_filter.mp hb
    rw [← of_decide_eq_true hname]
    refine conflict _ _ occurrences hwalk a ha b hb s t ?_ hs ht hdisagree
    rw [of_decide_eq_true hname, of_decide_eq_true hsame]
  case atNested =>
    rintro schemaTypeName _ result group hgroup error hresult hconflict hnested selections rfl
    obtain ⟨occurrences, hwalk, hcontributes⟩ := hsafe.exists_contributing_walk hresult
    have hmine := contributes_group hcontributes hgroup
    have hfirst : group.first ∈ group.toList := List.mem_cons_self
    obtain ⟨occurrence, hmem, -⟩ := exists_left_of_mem hmine hfirst
    have htype := type?_of_conflict?_eq_none hmine hconflict hmem
    obtain ⟨hoccurrence, hname⟩ := List.mem_filter.mp hmem
    apply nested _ _ occurrences hwalk occurrence hoccurrence _ error htype
    rw [of_decide_eq_true hname]
    exact hnested _ (below_eq_flatMap hmine)

end Safe
end FragmentRegistry
end ResultLayout
