import ResultLayout.Layout.Record
import Mathlib.Data.List.Forall2
/-!
# Induction along a layout

A layout that succeeds has read every type of its level, found no conflict in any group and laid out
every nested record; a layout that fails has failed at one of these three places. What holds of a
record whenever it holds of its nested records holds of every record laid out, and what is true of a
failure at its own level and is handed up from nested levels is true of every failure.
-/
namespace ResultLayout

section Outcomes

variable {outcome : Except CompileError RecordType}

theorem exists_record_of_isOk (h : outcome.isOk = true) : ∃ record, outcome = .ok record := by
  cases outcome with
  | error error => cases h
  | ok record => exact ⟨record, rfl⟩

/-- Errors can be compared, results cannot. -/
theorem eq_error_of_error? {ε α : Type} {outcome : Except ε α} {error : ε}
    (h : (match outcome with | .error error => some error | .ok _ => none) = some error) :
    outcome = .error error := by
  cases outcome with
  | error other => rw [Option.some.inj h]
  | ok result => cases h

theorem map_eq_ok_iff {α β : Type} {outcome : Except CompileError α} {f : α → β} {result : β} :
    outcome.map f = .ok result ↔ ∃ first, outcome = .ok first ∧ f first = result := by
  cases outcome <;> simp [Except.map]

theorem map_eq_error_iff {α β : Type} {outcome : Except CompileError α} {f : α → β}
    {error : CompileError} : outcome.map f = .error error ↔ outcome = .error error := by
  cases outcome <;> simp [Except.map]

end Outcomes

section Equations

variable (resolve : String → LeafKind) {schemaTypeName : String}

theorem layoutRecord_of_error {selections : List Selected} {error : CompileError}
    (h : contributions (levelVisits schemaTypeName selections) = .error error) (name : String)
    (names : NameAllocator) :
    layoutRecord resolve name schemaTypeName selections names = (.error error, names) := by
  rw [layoutRecord]
  split
  next herror => rw [h] at herror; cases herror; rfl
  next hok => rw [h] at hok; cases hok

theorem layoutRecord_of_ok {selections : List Selected} {result : List (Contribution (List Selected))}
    (h : contributions (levelVisits schemaTypeName selections) = .ok result) (name : String)
    (names : NameAllocator) :
    layoutRecord resolve name schemaTypeName selections names =
      match layoutMembers resolve schemaTypeName (Group.ofContributions result) names with
      | (.error error, names) => (.error error, names)
      | (.ok members, names) =>
        (.ok {
          name, schemaTypeName, members
          fragmentRefs := firstSeen (Selected.spreadsHere.spreadsOf selections) }, names) := by
  rw [layoutRecord]
  split
  next herror => rw [h] at herror; cases herror
  next hok => rw [h] at hok; cases hok; rfl

variable {group : Group (List Selected)}

theorem layoutMembers_of_conflict {first second : Contribution (List Selected)}
    (h : group.conflict? = some (first, second)) (groups : List (Group (List Selected)))
    (names : NameAllocator) :
    layoutMembers resolve schemaTypeName (group :: groups) names =
      (.error (conflictError schemaTypeName group.responseName first second), names) := by
  rw [layoutMembers, h]

theorem layoutMembers_of_leaf (hconflict : group.conflict? = none) (hbelow : group.below = [])
    (groups : List (Group (List Selected))) (names : NameAllocator) :
    layoutMembers resolve schemaTypeName (group :: groups) names =
      let (members, names) := layoutMembers resolve schemaTypeName groups names
      (members.map (group.member (resolve group.schemaTypeName) none :: ·), names) := by
  rw [layoutMembers, hconflict, hbelow]
  rfl

theorem layoutMembers_of_composite (hconflict : group.conflict? = none) (hbelow : group.below ≠ [])
    (groups : List (Group (List Selected))) (names : NameAllocator) :
    layoutMembers resolve schemaTypeName (group :: groups) names =
      let (nestedName, names) := names.allocate (capitalize group.responseName)
      match layoutRecord resolve nestedName group.schemaTypeName group.below names with
      | (.error error, names) => (.error error, names)
      | (.ok nested, names) =>
        let (members, names) := layoutMembers resolve schemaTypeName groups names
        (members.map (group.member .composite (some nested) :: ·), names) := by
  have hsome : ¬ group.below.isEmpty = true := by simpa using hbelow
  rw [layoutMembers, hconflict]
  exact if_neg hsome

end Equations

section Inversion

variable {resolve : String → LeafKind} {schemaTypeName : String} {names : NameAllocator}

private theorem layoutRecord_ok_cases {name : String} {selections : List Selected}
    {record : RecordType}
    (h : (layoutRecord resolve name schemaTypeName selections names).1 = .ok record) :
    ∃ result members, contributions (levelVisits schemaTypeName selections) = .ok result ∧
      (layoutMembers resolve schemaTypeName (Group.ofContributions result) names).1 = .ok members ∧
      record = { name, schemaTypeName, members
                 fragmentRefs := firstSeen (Selected.spreadsHere.spreadsOf selections) } := by
  cases hresult : contributions (levelVisits schemaTypeName selections) with
  | error error =>
    rw [layoutRecord_of_error resolve hresult] at h
    cases h
  | ok result =>
    rw [layoutRecord_of_ok resolve hresult] at h
    split at h
    next => cases h
    next members after hmembers =>
      refine ⟨result, members, rfl, ?_, (Except.ok.inj h).symm⟩
      rw [hmembers]

theorem name_of_layoutRecord {name : String} {selections : List Selected} {record : RecordType}
    (h : (layoutRecord resolve name schemaTypeName selections names).1 = .ok record) :
    record.name = name := by
  obtain ⟨result, members, -, -, rfl⟩ := layoutRecord_ok_cases h
  rfl

private theorem layoutRecord_error_cases {name : String} {selections : List Selected}
    {error : CompileError}
    (h : (layoutRecord resolve name schemaTypeName selections names).1 = .error error) :
    contributions (levelVisits schemaTypeName selections) = .error error ∨
    ∃ result, contributions (levelVisits schemaTypeName selections) = .ok result ∧
      (layoutMembers resolve schemaTypeName (Group.ofContributions result) names).1 =
        .error error := by
  cases hresult : contributions (levelVisits schemaTypeName selections) with
  | error first =>
    rw [layoutRecord_of_error resolve hresult] at h
    exact Or.inl (congrArg _ (Except.error.inj h))
  | ok result =>
    rw [layoutRecord_of_ok resolve hresult] at h
    split at h
    next later after hmembers =>
      refine Or.inr ⟨result, rfl, ?_⟩
      rw [hmembers, Except.error.inj h]
    next => cases h

variable {group : Group (List Selected)} {groups : List (Group (List Selected))}

private theorem layoutMembers_ok_cases {members : List Member}
    (h : (layoutMembers resolve schemaTypeName (group :: groups) names).1 = .ok members) :
    group.conflict? = none ∧ ∃ member rest after, members = member :: rest ∧
      (layoutMembers resolve schemaTypeName groups after).1 = .ok rest ∧
      ((group.below = [] ∧
        member = group.member (resolve group.schemaTypeName) none) ∨
      (group.below ≠ [] ∧ ∃ nestedName before nested,
        (layoutRecord resolve nestedName group.schemaTypeName group.below before).1 = .ok nested ∧
        member = group.member .composite (some nested))) := by
  cases hconflict : group.conflict? with
  | some pair =>
    rw [layoutMembers_of_conflict resolve hconflict] at h
    cases h
  | none =>
    refine ⟨rfl, ?_⟩
    by_cases hbelow : group.below = []
    · rw [layoutMembers_of_leaf resolve hconflict hbelow] at h
      obtain ⟨rest, hrest, hmembers⟩ := map_eq_ok_iff.mp h
      exact ⟨_, rest, names, hmembers.symm, hrest, Or.inl ⟨hbelow, rfl⟩⟩
    · rw [layoutMembers_of_composite resolve hconflict hbelow] at h
      dsimp only at h
      split at h
      next => cases h
      next nested after hnested =>
        obtain ⟨rest, hrest, hmembers⟩ := map_eq_ok_iff.mp h
        exact ⟨_, rest, after, hmembers.symm, hrest,
          Or.inr ⟨hbelow, _, _, nested, congrArg Prod.fst hnested, rfl⟩⟩

private theorem layoutMembers_error_cases {error : CompileError}
    (h : (layoutMembers resolve schemaTypeName (group :: groups) names).1 = .error error) :
    (∃ first second, group.conflict? = some (first, second) ∧
      error = conflictError schemaTypeName group.responseName first second) ∨
    (group.conflict? = none ∧ group.below ≠ [] ∧ ∃ nestedName before,
      (layoutRecord resolve nestedName group.schemaTypeName group.below before).1 =
        .error error) ∨
    ∃ after, (layoutMembers resolve schemaTypeName groups after).1 = .error error := by
  cases hconflict : group.conflict? with
  | some pair =>
    rw [layoutMembers_of_conflict resolve hconflict] at h
    exact Or.inl ⟨pair.1, pair.2, rfl, (Except.error.inj h).symm⟩
  | none =>
    by_cases hbelow : group.below = []
    · rw [layoutMembers_of_leaf resolve hconflict hbelow] at h
      exact Or.inr (Or.inr ⟨names, map_eq_error_iff.mp h⟩)
    · rw [layoutMembers_of_composite resolve hconflict hbelow] at h
      dsimp only at h
      split at h
      next nestedError after hnested =>
        have hfirst := congrArg Prod.fst hnested
        rw [Except.error.inj h] at hfirst
        exact Or.inr (Or.inl ⟨rfl, hbelow, _, _, hfirst⟩)
      next nested after hnested => exact Or.inr (Or.inr ⟨after, map_eq_error_iff.mp h⟩)

end Inversion

/-- The member that a group without conflict becomes; a nested record satisfies `P`. -/
inductive MemberFrom (resolve : String → LeafKind) (P : String → List Selected → RecordType → Prop)
    (group : Group (List Selected)) : Member → Prop
  | leaf (hconflict : group.conflict? = none) (hbelow : group.below = []) :
    MemberFrom resolve P group (group.member (resolve group.schemaTypeName) none)
  | composite {nested : RecordType} (hconflict : group.conflict? = none)
    (hbelow : group.below ≠ []) (hnested : P group.schemaTypeName group.below nested) :
    MemberFrom resolve P group (group.member .composite (some nested))

namespace MemberFrom

variable {resolve : String → LeafKind} {P : String → List Selected → RecordType → Prop}
  {group : Group (List Selected)} {member : Member}

theorem responseName_eq (h : MemberFrom resolve P group member) :
    member.responseName = group.responseName := by
  cases h <;> rfl

theorem type_eq (h : MemberFrom resolve P group member) : member.type = group.first.type := by
  cases h <;> rfl

theorem conflict?_eq_none (h : MemberFrom resolve P group member) : group.conflict? = none := by
  cases h <;> assumption

theorem mono {Q : String → List Selected → RecordType → Prop}
    (hPQ : ∀ nested, P group.schemaTypeName group.below nested →
      Q group.schemaTypeName group.below nested)
    (h : MemberFrom resolve P group member) : MemberFrom resolve Q group member := by
  cases h with
  | leaf hconflict hbelow => exact .leaf hconflict hbelow
  | composite hconflict hbelow hnested => exact .composite hconflict hbelow (hPQ _ hnested)

end MemberFrom

theorem selectionSize_below_lt_level {schemaTypeName : String} {selections : List Selected}
    {result : List (Contribution (List Selected))}
    (hresult : contributions (levelVisits schemaTypeName selections) = .ok result)
    {group : Group (List Selected)} (hgroup : group ∈ Group.ofContributions result) :
    selectionSize group.below < selectionSize selections := by
  have hbelow := group.selectionSize_below_lt
  have hweight := weight_le_totalWeight Group.weight hgroup
  have hlevel := weight_groups_le hresult
  omega

section Success

variable {resolve : String → LeafKind} {P : String → List Selected → RecordType → Prop}

private theorem forall₂_memberFrom {schemaTypeName : String}
    {groups : List (Group (List Selected))} {names : NameAllocator} {members : List Member}
    (h : (layoutMembers resolve schemaTypeName groups names).1 = .ok members)
    (hnested : ∀ group ∈ groups, ∀ name names nested,
      (layoutRecord resolve name group.schemaTypeName group.below names).1 = .ok nested →
      P group.schemaTypeName group.below nested) :
    List.Forall₂ (MemberFrom resolve P) groups members := by
  induction groups generalizing names members with
  | nil =>
    rw [layoutMembers] at h
    obtain rfl := Except.ok.inj h
    exact .nil
  | cons group groups ih =>
    obtain ⟨hconflict, member, rest, after, rfl, hrest, hmember⟩ := layoutMembers_ok_cases h
    apply List.Forall₂.cons
    · rcases hmember with ⟨hbelow, rfl⟩ | ⟨hbelow, name, before, nested, hlayout, rfl⟩
      · exact .leaf hconflict hbelow
      · exact .composite hconflict hbelow (hnested group List.mem_cons_self _ _ _ hlayout)
    · exact ih hrest fun other hother => hnested other (List.mem_cons_of_mem _ hother)

/-- Induction along the records of a layout that succeeds. -/
theorem layoutRecord_ok_induction
    (step : ∀ schemaTypeName selections result record,
      contributions (levelVisits schemaTypeName selections) = .ok result →
      record.schemaTypeName = schemaTypeName →
      record.fragmentRefs = firstSeen (Selected.spreadsHere.spreadsOf selections) →
      List.Forall₂ (MemberFrom resolve P) (Group.ofContributions result) record.members →
      P schemaTypeName selections record)
    {name schemaTypeName : String} {selections : List Selected} {names : NameAllocator}
    {record : RecordType}
    (h : (layoutRecord resolve name schemaTypeName selections names).1 = .ok record) :
    P schemaTypeName selections record := by
  obtain ⟨result, members, hresult, hmembers, rfl⟩ := layoutRecord_ok_cases h
  apply step _ _ result _ hresult rfl rfl
  apply forall₂_memberFrom hmembers
  intro group hgroup _ _ nested hnested
  exact layoutRecord_ok_induction step hnested
termination_by selectionSize selections
decreasing_by exact selectionSize_below_lt_level hresult hgroup

end Success

section Failure

variable {resolve : String → LeafKind} {P : String → List Selected → CompileError → Prop}

private theorem exists_group_at_fault {schemaTypeName : String}
    {groups : List (Group (List Selected))} {names : NameAllocator} {error : CompileError}
    (h : (layoutMembers resolve schemaTypeName groups names).1 = .error error) :
    ∃ group ∈ groups,
      (∃ first second, group.conflict? = some (first, second) ∧
        error = conflictError schemaTypeName group.responseName first second) ∨
      (group.conflict? = none ∧ ∃ name before,
        (layoutRecord resolve name group.schemaTypeName group.below before).1 = .error error) := by
  induction groups generalizing names with
  | nil =>
    rw [layoutMembers] at h
    cases h
  | cons group groups ih =>
    rcases layoutMembers_error_cases h with
      hconflict | ⟨hconflict, -, name, before, hnested⟩ | ⟨after, hrest⟩
    · exact ⟨group, List.mem_cons_self, Or.inl hconflict⟩
    · exact ⟨group, List.mem_cons_self, Or.inr ⟨hconflict, name, before, hnested⟩⟩
    · obtain ⟨other, hother, hfault⟩ := ih hrest
      exact ⟨other, List.mem_cons_of_mem _ hother, hfault⟩

/-- Induction along the records of a layout that fails, from the one whose level is at fault. -/
theorem layoutRecord_error_induction
    (atVisit : ∀ schemaTypeName selections error,
      contributions (levelVisits schemaTypeName selections) = .error error →
      P schemaTypeName selections error)
    (atConflict : ∀ schemaTypeName selections result, ∀ group ∈ Group.ofContributions result,
      ∀ first second, contributions (levelVisits schemaTypeName selections) = .ok result →
      group.conflict? = some (first, second) →
      P schemaTypeName selections (conflictError schemaTypeName group.responseName first second))
    (atNested : ∀ schemaTypeName selections result, ∀ group ∈ Group.ofContributions result,
      ∀ error, contributions (levelVisits schemaTypeName selections) = .ok result →
      group.conflict? = none → P group.schemaTypeName group.below error →
      P schemaTypeName selections error)
    {name schemaTypeName : String} {selections : List Selected} {names : NameAllocator}
    {error : CompileError}
    (h : (layoutRecord resolve name schemaTypeName selections names).1 = .error error) :
    P schemaTypeName selections error := by
  rcases layoutRecord_error_cases h with hvisits | ⟨result, hresult, hmembers⟩
  · exact atVisit _ _ _ hvisits
  · obtain ⟨group, hgroup, hfault⟩ := exists_group_at_fault hmembers
    rcases hfault with ⟨first, second, hconflict, rfl⟩ | ⟨hconflict, name, before, hnested⟩
    · exact atConflict _ _ result group hgroup first second hresult hconflict
    · apply atNested _ _ result group hgroup error hresult hconflict
      exact layoutRecord_error_induction atVisit atConflict atNested hnested
termination_by selectionSize selections
decreasing_by exact selectionSize_below_lt_level hresult hgroup

end Failure

end ResultLayout
