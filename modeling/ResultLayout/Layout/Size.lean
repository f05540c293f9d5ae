import ResultLayout.Layout.Contribution
/-!
# Sizes of selections

The size of a selection counts its fields and fragments at all depths. The contributions to a level
carry disjoint parts of the level's selections, so that what lies below a group is smaller than the
level: this is why the layout of records comes to an end.
-/
namespace ResultLayout

/-- What the entries of a list weigh together. -/
def totalWeight {α : Type} (weight : α → Nat) : List α → Nat
  | [] => 0
  | a :: rest => weight a + totalWeight weight rest

private theorem totalWeight_append {α : Type} (weight : α → Nat) (xs ys : List α) :
    totalWeight weight (xs ++ ys) = totalWeight weight xs + totalWeight weight ys := by
  induction xs with
  | nil => simp [totalWeight]
  | cons x xs ih =>
    simp only [List.cons_append, totalWeight, ih]
    omega

theorem weight_le_totalWeight {α : Type} (weight : α → Nat) {xs : List α} {a : α} (h : a ∈ xs) :
    weight a ≤ totalWeight weight xs := by
  induction xs with
  | nil => simp at h
  | cons x xs ih =>
    simp only [totalWeight]
    rcases List.mem_cons.mp h with rfl | hrest
    · omega
    · have := ih hrest
      omega

private theorem totalWeight_filter_le {α : Type} (weight : α → Nat) (p : α → Bool) (xs : List α) :
    totalWeight weight (xs.filter p) ≤ totalWeight weight xs := by
  induction xs with
  | nil => exact Nat.le_refl _
  | cons x xs ih =>
    rw [List.filter_cons]
    split <;> simp only [totalWeight] <;> omega

theorem weight_add_totalWeight_filter_le {α : Type} (weight : α → Nat) {p : α → Bool} {xs : List α}
    {a : α} (h : a ∈ xs) (hp : p a = false) :
    weight a + totalWeight weight (xs.filter p) ≤ totalWeight weight xs := by
  induction xs with
  | nil => simp at h
  | cons x xs ih =>
    rcases List.mem_cons.mp h with rfl | hrest
    · have := totalWeight_filter_le weight p xs
      simp only [List.filter_cons, hp, Bool.false_eq_true, if_false, totalWeight]
      omega
    · have := ih hrest
      rw [List.filter_cons]
      split <;> simp only [totalWeight] <;> omega

/-- The number of fields, fragments and undefined spreads in a selection. -/
def Selected.size : Selected → Nat
  | .field _ below => sizeList below + 1
  | .within _ body => sizeList body + 1
  | .undefinedSpread _ => 1
where
  sizeList : List Selected → Nat
    | [] => 0
    | selected :: rest => selected.size + sizeList rest

/-- The number of fields, fragments and undefined spreads in some selections. -/
abbrev selectionSize (selections : List Selected) : Nat := Selected.size.sizeList selections

private theorem selectionSize_append (xs ys : List Selected) :
    selectionSize (xs ++ ys) = selectionSize xs + selectionSize ys := by
  induction xs with
  | nil => simp [selectionSize, Selected.size.sizeList]
  | cons x xs ih =>
    simp only [selectionSize, List.cons_append, Selected.size.sizeList] at ih ⊢
    omega

/-- The size of the selections below a visited field, and the field itself. -/
def Visit.weight : Visit → Nat
  | .field _ _ below => selectionSize below + 1
  | .undefinedSpread _ => 0

mutual

private theorem Selected.weight_visits_le (schemaTypeName : String) (around : Surroundings)
    (selected : Selected) :
    totalWeight Visit.weight (selected.visits schemaTypeName around) ≤ selected.size := by
  cases selected with
  | field head below => simp [Selected.visits, totalWeight, Visit.weight, Selected.size, selectionSize]
  | within scope body =>
    have h := weight_visitsOf_le schemaTypeName (around.enter schemaTypeName scope) body
    simp only [Selected.visits, Selected.size, selectionSize] at h ⊢
    omega
  | undefinedSpread name => simp [Selected.visits, totalWeight, Visit.weight]

private theorem weight_visitsOf_le (schemaTypeName : String) (around : Surroundings)
    (selections : List Selected) :
    totalWeight Visit.weight (Selected.visits.visitsOf schemaTypeName around selections) ≤
      selectionSize selections := by
  cases selections with
  | nil => simp [Selected.visits.visitsOf, totalWeight]
  | cons selected rest =>
    have h1 := selected.weight_visits_le schemaTypeName around
    have h2 := weight_visitsOf_le schemaTypeName around rest
    simp only [Selected.visits.visitsOf, totalWeight_append, selectionSize,
      Selected.size.sizeList] at h2 ⊢
    omega

end

/-- The size of the selections below a contribution, and its field itself. -/
def Contribution.weight (contribution : Contribution (List Selected)) : Nat :=
  selectionSize contribution.below + 1

private theorem weight_contribution {visit : Visit} {contribution : Contribution (List Selected)}
    (h : visit.contribution = .ok contribution) : contribution.weight = visit.weight := by
  cases visit with
  | field around head below =>
    simp only [Visit.contribution, Surroundings.contribution] at h
    split at h
    · cases h
    · cases h; rfl
  | undefinedSpread name => cases h

private theorem weight_contributions {visits : List Visit}
    {result : List (Contribution (List Selected))} (h : contributions visits = .ok result) :
    totalWeight Contribution.weight result = totalWeight Visit.weight visits := by
  induction visits generalizing result with
  | nil => cases h; rfl
  | cons visit visits ih =>
    simp only [contributions] at h
    split at h
    · cases h
    next contribution hvisit =>
      cases hrest : contributions visits with
      | error error => rw [hrest] at h; cases h
      | ok rest =>
        rw [hrest] at h
        cases h
        simp [totalWeight, ih hrest, weight_contribution hvisit]

namespace Group

def weight (group : Group (List Selected)) : Nat := totalWeight Contribution.weight group.toList

private theorem weight_eq (group : Group (List Selected)) :
    group.weight = selectionSize group.below + group.toList.length := by
  unfold weight below
  induction group.toList with
  | nil => simp [totalWeight, selectionSize, Selected.size.sizeList]
  | cons c cs ih =>
    simp only [totalWeight, List.flatMap_cons, selectionSize_append,
      List.length_cons, ih, Contribution.weight]
    omega

theorem selectionSize_below_lt (group : Group (List Selected)) :
    selectionSize group.below < group.weight := by
  rw [weight_eq]
  simp [toList]

private theorem weight_insert (contribution : Contribution (List Selected))
    (groups : List (Group (List Selected))) :
    totalWeight weight (insert contribution groups) =
      totalWeight weight groups + contribution.weight := by
  induction groups with
  | nil => simp [insert, totalWeight, weight, toList]
  | cons group groups ih =>
    simp only [insert]
    split
    · simp [totalWeight, totalWeight_append, weight, toList]
      omega
    · simp only [totalWeight, ih]
      omega

private theorem weight_ofContributions (contributions : List (Contribution (List Selected))) :
    totalWeight weight (ofContributions contributions) =
      totalWeight Contribution.weight contributions := by
  suffices h : ∀ groups : List (Group (List Selected)),
      totalWeight weight (contributions.foldl (fun groups c => insert c groups) groups) =
        totalWeight weight groups + totalWeight Contribution.weight contributions by
    simpa [ofContributions, totalWeight] using h []
  induction contributions with
  | nil => simp [totalWeight]
  | cons c cs ih =>
    intro groups
    rw [List.foldl_cons, ih, weight_insert]
    simp only [totalWeight]
    omega

end Group

theorem weight_groups_le {schemaTypeName : String} {selections : List Selected}
    {result : List (Contribution (List Selected))}
    (h : contributions (levelVisits schemaTypeName selections) = .ok result) :
    totalWeight Group.weight (Group.ofContributions result) ≤ selectionSize selections := by
  rw [Group.weight_ofContributions, weight_contributions h]
  exact weight_visitsOf_le schemaTypeName {} selections

end ResultLayout
