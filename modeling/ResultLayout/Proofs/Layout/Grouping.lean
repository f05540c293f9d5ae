import ResultLayout.Layout.Contribution
import Mathlib.Data.List.Induction
import Mathlib.Data.List.Pairwise
/-!
# Groups of contributions

Grouping lists the response names in the order in which they are first seen, and the group of a name
holds all contributions of that name in their order. A group has no conflict exactly when every two
of its contributions merge, whatever their places: merging is reflexive and symmetric, but two
contributions that merge with a third need not merge with each other.
-/
namespace ResultLayout

variable {Below : Type}

namespace Contribution

private theorem mergesWith_self (contribution : Contribution Below) :
    contribution.mergesWith contribution = true := by
  simp [mergesWith]

private theorem mergesWith_comm (a b : Contribution Below) : a.mergesWith b = b.mergesWith a := by
  rw [Bool.eq_iff_iff]
  simp only [mergesWith, decide_eq_true_eq]
  constructor
  · rintro ⟨htype, hshape⟩
    refine ⟨htype.symm, ?_⟩
    rcases hshape with hfield | ⟨ha, hb, hne⟩
    · exact Or.inl hfield.symm
    · exact Or.inr ⟨hb, ha, hne.symm⟩
  · rintro ⟨htype, hshape⟩
    refine ⟨htype.symm, ?_⟩
    rcases hshape with hfield | ⟨hb, ha, hne⟩
    · exact Or.inl hfield.symm
    · exact Or.inr ⟨ha, hb, hne.symm⟩

end Contribution

namespace Group

theorem ofContributions_append_singleton (contributions : List (Contribution Below))
    (contribution : Contribution Below) :
    ofContributions (contributions ++ [contribution]) =
      insert contribution (ofContributions contributions) := by
  rw [ofContributions, List.foldl_append]
  rfl

private theorem responseNames_insert (contribution : Contribution Below)
    (groups : List (Group Below)) : (insert contribution groups).map (·.responseName) =
      if contribution.responseName ∈ groups.map (·.responseName) then groups.map (·.responseName)
      else groups.map (·.responseName) ++ [contribution.responseName] := by
  induction groups with
  | nil => rfl
  | cons group groups ih =>
    rw [insert]
    by_cases hname : group.responseName = contribution.responseName
    · have hmem : contribution.responseName ∈ (group :: groups).map (·.responseName) := by
        rw [List.map_cons, List.mem_cons]
        exact Or.inl hname.symm
      rw [if_pos hname, if_pos hmem]
      rfl
    · have hmem : contribution.responseName ∈ (group :: groups).map (·.responseName) ↔
          contribution.responseName ∈ groups.map (·.responseName) := by
        rw [List.map_cons, List.mem_cons]
        exact or_iff_right (Ne.symm hname)
      rw [if_neg hname, List.map_cons, ih, if_congr hmem rfl rfl]
      split <;> simp

theorem responseNames_ofContributions (contributions : List (Contribution Below)) :
    (ofContributions contributions).map (·.responseName) =
      firstSeen (contributions.map (·.responseName)) := by
  induction contributions using List.reverseRecOn with
  | nil => rfl
  | append_singleton contributions contribution ih =>
    rw [ofContributions_append_singleton, responseNames_insert, ih, List.map_append,
      List.map_singleton, firstSeen_append_singleton]
    exact if_congr mem_firstSeen rfl rfl

private theorem mem_insert_cases {contribution : Contribution Below} {groups : List (Group Below)}
    {group : Group Below} (hnodup : (groups.map (·.responseName)).Nodup)
    (h : group ∈ insert contribution groups) :
    (group ∈ groups ∧ group.responseName ≠ contribution.responseName) ∨
    (group.responseName = contribution.responseName ∧
      ((∃ old ∈ groups, old.responseName = contribution.responseName ∧
        group.toList = old.toList ++ [contribution]) ∨
      (contribution.responseName ∉ groups.map (·.responseName) ∧
        group.toList = [contribution]))) := by
  induction groups with
  | nil =>
    obtain rfl := List.mem_singleton.mp h
    exact Or.inr ⟨rfl, Or.inr ⟨by simp, rfl⟩⟩
  | cons first rest ih =>
    rw [List.map_cons, List.nodup_cons] at hnodup
    rw [insert] at h
    by_cases hname : first.responseName = contribution.responseName
    · rw [if_pos hname] at h
      rcases List.mem_cons.mp h with rfl | hrest
      · exact Or.inr ⟨hname, Or.inl ⟨first, List.mem_cons_self, hname, rfl⟩⟩
      · refine Or.inl ⟨List.mem_cons_of_mem _ hrest, ?_⟩
        intro hsame
        apply hnodup.1
        rw [hname, ← hsame]
        exact List.mem_map_of_mem hrest
    · rw [if_neg hname] at h
      rcases List.mem_cons.mp h with rfl | hrest
      · exact Or.inl ⟨List.mem_cons_self, hname⟩
      · rcases ih hnodup.2 hrest with ⟨hold, hne⟩ | ⟨hsame, hgrown | hopened⟩
        · exact Or.inl ⟨List.mem_cons_of_mem _ hold, hne⟩
        · obtain ⟨old, hold, hlist⟩ := hgrown
          exact Or.inr ⟨hsame, Or.inl ⟨old, List.mem_cons_of_mem _ hold, hlist⟩⟩
        · refine Or.inr ⟨hsame, Or.inr ⟨?_, hopened.2⟩⟩
          rw [List.map_cons, List.mem_cons]
          exact not_or.mpr ⟨Ne.symm hname, hopened.1⟩

theorem toList_of_mem_ofContributions {contributions : List (Contribution Below)}
    {group : Group Below} (h : group ∈ ofContributions contributions) :
    group.toList = contributions.filter (·.responseName = group.responseName) := by
  induction contributions using List.reverseRecOn generalizing group with
  | nil => simp [ofContributions] at h
  | append_singleton contributions contribution ih =>
    have hnodup : ((ofContributions contributions).map (·.responseName)).Nodup := by
      rw [responseNames_ofContributions]
      exact nodup_firstSeen _
    rw [ofContributions_append_singleton] at h
    rw [List.filter_append]
    rcases mem_insert_cases hnodup h with ⟨hold, hne⟩ | ⟨hsame, hgrown | hopened⟩
    · rw [ih hold]
      simp [Ne.symm hne]
    · obtain ⟨old, hold, hname, hlist⟩ := hgrown
      rw [hlist, ih hold, hname, hsame]
      simp
    · have hnone : contributions.filter (·.responseName = group.responseName) = [] := by
        rw [List.filter_eq_nil_iff]
        intro other hother
        rw [responseNames_ofContributions, mem_firstSeen] at hopened
        intro heq
        apply hopened.1
        rw [← hsame, ← of_decide_eq_true heq]
        exact List.mem_map_of_mem hother
      rw [hopened.2, hnone, hsame]
      simp

private theorem firstConflict?_eq_none {earlier later : List (Contribution Below)} :
    firstConflict? earlier later = none ↔
      (∀ a ∈ earlier, ∀ b ∈ later, a.mergesWith b = true) ∧
        later.Pairwise fun a b => a.mergesWith b = true := by
  induction later generalizing earlier with
  | nil => simp [firstConflict?]
  | cons b rest ih =>
    rw [firstConflict?]
    cases hfind : earlier.find? fun contribution => !contribution.mergesWith b with
    | none =>
      have hmerges : ∀ a ∈ earlier, a.mergesWith b = true := by simpa using hfind
      simp only [ih, List.mem_append, List.mem_cons, List.not_mem_nil, or_false,
        List.pairwise_cons]
      constructor
      · rintro ⟨hall, hrest⟩
        refine ⟨?_, fun later hlater => hall b (Or.inr rfl) later hlater, hrest⟩
        rintro a ha later (rfl | hlater)
        · exact hmerges a ha
        · exact hall a (Or.inl ha) later hlater
      · rintro ⟨hall, hb, hrest⟩
        refine ⟨?_, hrest⟩
        rintro a (ha | rfl) later hlater
        · exact hall a ha later (Or.inr hlater)
        · exact hb later hlater
    | some a =>
      have hclash : a.mergesWith b = false := by simpa using List.find?_some hfind
      simp only [reduceCtorEq, false_iff]
      rintro ⟨hall, -⟩
      rw [hall a (List.mem_of_find?_eq_some hfind) b List.mem_cons_self] at hclash
      cases hclash

private theorem firstConflict?_eq_some {earlier later : List (Contribution Below)}
    {a b : Contribution Below} (h : firstConflict? earlier later = some (a, b)) :
    a ∈ earlier ++ later ∧ b ∈ later ∧ a.mergesWith b = false := by
  induction later generalizing earlier with
  | nil => simp [firstConflict?] at h
  | cons c rest ih =>
    rw [firstConflict?] at h
    split at h
    next first hfind =>
      cases h
      have hclash : a.mergesWith b = false := by simpa using List.find?_some hfind
      exact ⟨List.mem_append_left _ (List.mem_of_find?_eq_some hfind), List.mem_cons_self, hclash⟩
    next =>
      obtain ⟨ha, hb, hclash⟩ := ih h
      rw [List.append_assoc] at ha
      exact ⟨ha, List.mem_cons_of_mem c hb, hclash⟩

theorem firstConflict?_append_singleton (earlier later : List (Contribution Below))
    (c : Contribution Below) :
    firstConflict? earlier (later ++ [c]) = (firstConflict? earlier later).or
      (((earlier ++ later).find? fun contribution => !contribution.mergesWith c).map (·, c)) := by
  induction later generalizing earlier with
  | nil =>
    rw [List.nil_append, List.append_nil, firstConflict?, firstConflict?]
    cases earlier.find? fun contribution => !contribution.mergesWith c <;> rfl
  | cons b rest ih =>
    rw [List.cons_append, firstConflict?, firstConflict?]
    cases earlier.find? fun contribution => !contribution.mergesWith b with
    | some a => rfl
    | none =>
      have hrest := ih (earlier ++ [b])
      rw [List.append_assoc, List.singleton_append] at hrest
      exact hrest

/-- There is no conflict among contributions every two of which merge. -/
theorem firstConflict?_nil_eq_none {contributions : List (Contribution Below)} :
    firstConflict? [] contributions = none ↔
      ∀ a ∈ contributions, ∀ b ∈ contributions, a.mergesWith b = true := by
  have hpairwise : firstConflict? [] contributions = none ↔
      contributions.Pairwise fun a b => a.mergesWith b = true := by
    rw [firstConflict?_eq_none]
    simp
  rw [hpairwise]
  constructor
  · intro h
    have hsymm : Std.Symm fun a b : Contribution Below => a.mergesWith b = true := by
      constructor
      intro a b hab
      rw [b.mergesWith_comm a]
      exact hab
    exact List.Pairwise.forall_of_forall (fun a _ => a.mergesWith_self) h
  · intro h
    exact List.pairwise_of_forall_mem_list h

theorem conflict?_eq_firstConflict? (group : Group Below) :
    group.conflict? = firstConflict? [] group.toList := rfl

/-- A group without conflict is one in which every two contributions merge. -/
theorem conflict?_eq_none {group : Group Below} :
    group.conflict? = none ↔ ∀ a ∈ group.toList, ∀ b ∈ group.toList, a.mergesWith b = true := by
  rw [conflict?_eq_firstConflict?, firstConflict?_nil_eq_none]

theorem conflict?_eq_some {group : Group Below} {a b : Contribution Below}
    (h : group.conflict? = some (a, b)) :
    a ∈ group.toList ∧ b ∈ group.toList ∧ a.mergesWith b = false := by
  obtain ⟨ha, hb, hclash⟩ := firstConflict?_eq_some h
  exact ⟨ha, List.mem_cons_of_mem _ hb, hclash⟩

end Group
end ResultLayout
