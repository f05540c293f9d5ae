/-!
# First of each key

A list thinned so that of all elements with one key only the first is left, in the order of the
list. With the identity as key it lists each element once, where it is first seen.
-/
namespace ResultLayout

/-- Keeps the first element of each key that is not among the keys `seen` before. -/
def firstOfEachAfter {α β : Type} [BEq β] (key : α → β) (seen : List β) : List α → List α
  | [] => []
  | a :: as =>
    let k := key a
    if seen.contains k then firstOfEachAfter key seen as
    else a :: firstOfEachAfter key (k :: seen) as

def firstOfEach {α β : Type} [BEq β] (key : α → β) (as : List α) : List α :=
  firstOfEachAfter key [] as

abbrev firstSeen {α : Type} [BEq α] (as : List α) : List α := firstOfEach id as

theorem firstOfEach_eq_nil {α β : Type} [BEq β] (key : α → β) (as : List α) :
    firstOfEach key as = [] ↔ as = [] := by
  cases as with
  | nil => simp [firstOfEach, firstOfEachAfter]
  | cons a as => simp [firstOfEach, firstOfEachAfter]

section Key

variable {α β : Type} [BEq β] [LawfulBEq β]

private theorem mem_firstOfEachAfter_iff {key : α → β} {seen : List β} {as : List α} {a : α} :
    a ∈ firstOfEachAfter key seen as ↔
      key a ∉ seen ∧ as.find? (key · == key a) = some a := by
  induction as generalizing seen with
  | nil => simp [firstOfEachAfter]
  | cons b as ih =>
    rw [firstOfEachAfter, List.find?_cons]
    by_cases hseen : key b ∈ seen
    · simp only [List.contains_iff_mem, hseen, if_true, ih]
      refine and_congr_right fun hnew => ?_
      have hne : (key b == key a) = false := by
        rw [beq_eq_false_iff_ne]
        intro heq
        exact hnew (heq ▸ hseen)
      rw [hne]
    · simp only [List.contains_iff_mem, hseen, if_false, List.mem_cons, ih]
      by_cases hkey : key b = key a
      · have heq : (key b == key a) = true := beq_iff_eq.mpr hkey
        simp only [heq, Option.some.injEq]
        constructor
        · rintro (rfl | ⟨hnew, -⟩)
          · exact ⟨hseen, rfl⟩
          · exact absurd (Or.inl hkey.symm) hnew
        · rintro ⟨-, rfl⟩
          exact Or.inl rfl
      · have hne : (key b == key a) = false := beq_eq_false_iff_ne.mpr hkey
        simp only [hne]
        constructor
        · rintro (rfl | ⟨hnew, hfind⟩)
          · exact absurd rfl hkey
          · exact ⟨fun hold => hnew (Or.inr hold), hfind⟩
        · rintro ⟨hnew, hfind⟩
          exact Or.inr ⟨not_or.mpr ⟨Ne.symm hkey, hnew⟩, hfind⟩

/-- An element is kept if it is the first of its key. -/
theorem mem_firstOfEach_iff {key : α → β} {as : List α} {a : α} :
    a ∈ firstOfEach key as ↔ as.find? (key · == key a) = some a := by
  rw [firstOfEach, mem_firstOfEachAfter_iff, and_iff_right List.not_mem_nil]

theorem exists_mem_firstOfEach {key : α → β} {as : List α} {a : α} (h : a ∈ as) :
    ∃ b ∈ firstOfEach key as, key b = key a := by
  have hsome : (as.find? (key · == key a)).isSome = true := by
    rw [List.find?_isSome]
    exact ⟨a, h, BEq.rfl⟩
  obtain ⟨b, hb⟩ := Option.isSome_iff_exists.mp hsome
  have hkey : key b = key a := by simpa using List.find?_some hb
  refine ⟨b, ?_, hkey⟩
  rw [mem_firstOfEach_iff, hkey, hb]

private theorem pairwise_firstOfEachAfter (key : α → β) (seen : List β) (as : List α) :
    (firstOfEachAfter key seen as).Pairwise fun a b => key a ≠ key b := by
  induction as generalizing seen with
  | nil => exact List.Pairwise.nil
  | cons a as ih =>
    rw [firstOfEachAfter]
    by_cases hseen : key a ∈ seen
    · simpa only [List.contains_iff_mem, hseen, if_true] using ih seen
    · simp only [List.contains_iff_mem, hseen, if_false, List.pairwise_cons]
      refine ⟨?_, ih (key a :: seen)⟩
      intro b hb heq
      have hnew := (mem_firstOfEachAfter_iff.mp hb).1
      exact hnew (heq ▸ List.mem_cons_self)

theorem pairwise_firstOfEach (key : α → β) (as : List α) :
    (firstOfEach key as).Pairwise fun a b => key a ≠ key b :=
  pairwise_firstOfEachAfter key [] as

private theorem pairwise_idxOf_firstOfEachAfter (key : α → β) (seen : List β) (as : List α) :
    (firstOfEachAfter key seen as).Pairwise fun a b =>
      (as.map key).idxOf (key a) < (as.map key).idxOf (key b) := by
  induction as generalizing seen with
  | nil => exact List.Pairwise.nil
  | cons a as ih =>
    have hne {seen : List β} (hseen : key a ∈ seen) {b : α}
        (hb : b ∈ firstOfEachAfter key seen as) : (key a == key b) = false := by
      rw [beq_eq_false_iff_ne]
      intro heq
      exact (mem_firstOfEachAfter_iff.mp hb).1 (heq ▸ hseen)
    have hbehind (seen : List β) (hseen : key a ∈ seen) :
        (firstOfEachAfter key seen as).Pairwise fun b c =>
          ((a :: as).map key).idxOf (key b) < ((a :: as).map key).idxOf (key c) := by
      refine (ih seen).imp_of_mem ?_
      intro b c hb hc hless
      simpa [List.idxOf_cons, hne hseen hb, hne hseen hc] using hless
    rw [firstOfEachAfter]
    by_cases hseen : key a ∈ seen
    · simpa only [List.contains_iff_mem, hseen, if_true] using hbehind seen hseen
    · simp only [List.contains_iff_mem, hseen, if_false, List.pairwise_cons]
      refine ⟨?_, hbehind (key a :: seen) List.mem_cons_self⟩
      intro b hb
      simp [List.idxOf_cons, hne List.mem_cons_self hb]

/-- The elements that are kept stand in the order in which their keys are first met. -/
theorem pairwise_idxOf_firstOfEach (key : α → β) (as : List α) :
    (firstOfEach key as).Pairwise fun a b =>
      (as.map key).idxOf (key a) < (as.map key).idxOf (key b) :=
  pairwise_idxOf_firstOfEachAfter key [] as

private theorem firstOfEachAfter_eq_self {key : α → β} {seen : List β} {as : List α}
    (hnodup : (as.map key).Nodup) (hnew : ∀ a ∈ as, key a ∉ seen) :
    firstOfEachAfter key seen as = as := by
  induction as generalizing seen with
  | nil => rfl
  | cons a as ih =>
    obtain ⟨ha, hnodup⟩ := List.nodup_cons.mp hnodup
    have hrest : firstOfEachAfter key (key a :: seen) as = as := by
      apply ih hnodup
      intro b hb
      rw [List.mem_cons, not_or]
      exact ⟨fun hba => ha (hba ▸ List.mem_map_of_mem hb), hnew b (List.mem_cons_of_mem a hb)⟩
    have haNew := hnew a List.mem_cons_self
    simp only [firstOfEachAfter, List.contains_iff_mem, haNew, if_false, hrest]

/-- Nothing is left out of elements with different keys. -/
theorem firstOfEach_eq_self {key : α → β} {as : List α} (hnodup : (as.map key).Nodup) :
    firstOfEach key as = as :=
  firstOfEachAfter_eq_self hnodup (by simp)

end Key

section FirstSeen

variable {α : Type} [BEq α] [LawfulBEq α]

private theorem firstSeenAfter_append_singleton (seen as : List α) (a : α) :
    firstOfEachAfter id seen (as ++ [a]) =
      firstOfEachAfter id seen as ++ if a ∈ seen ∨ a ∈ as then [] else [a] := by
  induction as generalizing seen with
  | nil => by_cases h : a ∈ seen <;> simp [firstOfEachAfter, h]
  | cons b as ih =>
    by_cases hb : b ∈ seen
    · have hsame : a ∈ seen ∨ a ∈ b :: as ↔ a ∈ seen ∨ a ∈ as := by
        constructor
        · rintro (h | h)
          · exact Or.inl h
          · rcases List.mem_cons.mp h with rfl | h
            · exact Or.inl hb
            · exact Or.inr h
        · rintro (h | h)
          · exact Or.inl h
          · exact Or.inr (List.mem_cons_of_mem b h)
      simp only [List.cons_append, firstOfEachAfter, id_eq, List.contains_iff_mem, hb, if_true, ih,
        hsame]
    · have hsame : a ∈ b :: seen ∨ a ∈ as ↔ a ∈ seen ∨ a ∈ b :: as := by
        simp only [List.mem_cons, or_assoc, or_left_comm]
      simp only [List.cons_append, firstOfEachAfter, id_eq, List.contains_iff_mem, hb, if_false, ih,
        hsame]

theorem firstSeen_append_singleton (as : List α) (a : α) :
    firstSeen (as ++ [a]) = if a ∈ as then firstSeen as else firstSeen as ++ [a] := by
  rw [firstSeen, firstOfEach, firstSeenAfter_append_singleton]
  by_cases h : a ∈ as <;> simp [firstSeen, firstOfEach, h]

private theorem mem_firstSeenAfter {seen as : List α} {a : α} :
    a ∈ firstOfEachAfter id seen as ↔ a ∈ as ∧ a ∉ seen := by
  induction as generalizing seen with
  | nil => simp [firstOfEachAfter]
  | cons b as ih =>
    by_cases hb : b ∈ seen <;> by_cases hab : a = b <;>
      simp_all [firstOfEachAfter]

theorem mem_firstSeen {as : List α} {a : α} : a ∈ firstSeen as ↔ a ∈ as := by
  rw [firstSeen, firstOfEach, mem_firstSeenAfter]
  simp

theorem nodup_firstSeen (as : List α) : (firstSeen as).Nodup := pairwise_firstOfEach id as

theorem firstSeen_eq_self {as : List α} (hnodup : as.Nodup) : firstSeen as = as :=
  firstOfEach_eq_self (by rwa [List.map_id])

end FirstSeen

end ResultLayout
