import ResultLayout.Naming.Allocator
import Mathlib.Data.List.Nodup
/-!
# Fresh names

The numbered candidates of one base are pairwise different, and none of them is the base itself. If
the base is taken, not all of as many candidates as there are taken names can be taken too, so the
search for a number stops at one that is free. A name that is handed out was free before, and it
stays taken; this is all that later steps need to know of earlier ones.
-/
namespace ResultLayout.NameAllocator

section Numbered

variable {base : String}

private theorem numbered_injective (base : String) : Function.Injective (numbered base) := by
  intro i j h
  have hdigits : (toString i).toList = (toString j).toList :=
    congrArg String.toList ((String.append_right_inj base).mp h)
  have hvalue := congrArg (fun digits => Nat.ofDigitChars 10 digits 0) hdigits
  simpa [Nat.toString_eq_ofList_toDigits] using hvalue

private theorem numbered_ne (base : String) (k : Nat) : numbered base k ≠ base := by
  intro h
  have hempty : toString k = "" := String.append_eq_left_iff.mp h
  have hdigits := congrArg String.toList hempty
  rw [Nat.toString_eq_ofList_toDigits, String.toList_ofList] at hdigits
  exact Nat.toDigits_ne_nil hdigits

end Numbered

section Search

variable {names : NameAllocator} {base : String}

theorem isTaken_iff {name : String} : names.isTaken name = true ↔ name ∈ names.taken :=
  List.contains_iff_mem

private theorem exists_firstFree_eq (names : NameAllocator) (base : String) (tries k : Nat) :
    ∃ i ≤ tries, names.firstFree base tries k = numbered base (k + i) ∧
      (∀ j < i, numbered base (k + j) ∈ names.taken) ∧
      (i < tries → numbered base (k + i) ∉ names.taken) := by
  induction tries generalizing k with
  | zero =>
    refine ⟨0, Nat.le_refl 0, rfl, ?_, ?_⟩
    · intro j hj
      exact absurd hj (Nat.not_lt_zero j)
    · intro h
      exact absurd h (Nat.lt_irrefl 0)
  | succ tries ih =>
    by_cases htaken : numbered base k ∈ names.taken
    · obtain ⟨i, hi, hfree, hbefore, hat⟩ := ih (k + 1)
      refine ⟨i + 1, Nat.succ_le_succ hi, ?_, ?_, ?_⟩
      · rw [firstFree, if_pos (isTaken_iff.mpr htaken), hfree]
        congr 1
        omega
      · intro j hj
        cases j with
        | zero => exact htaken
        | succ j =>
          have h := hbefore j (Nat.lt_of_succ_lt_succ hj)
          rwa [Nat.add_right_comm] at h
      · intro hlast
        have h := hat (Nat.lt_of_succ_lt_succ hlast)
        rwa [Nat.add_right_comm] at h
    · refine ⟨0, Nat.zero_le _, ?_, ?_, fun _ => htaken⟩
      · rw [firstFree, if_neg (mt isTaken_iff.mp htaken)]
        rfl
      · intro j hj
        exact absurd hj (Nat.not_lt_zero j)

/-- A base that is taken gets the smallest positive number with which it is free; this is at most the
number of names that are taken. -/
theorem exists_fresh_eq (htaken : base ∈ names.taken) :
    ∃ k, 1 ≤ k ∧ k ≤ names.taken.length ∧ names.fresh base = numbered base k ∧
      numbered base k ∉ names.taken ∧ ∀ j, 1 ≤ j → j < k → numbered base j ∈ names.taken := by
  obtain ⟨i, hi, hfree, hbefore, hat⟩ := exists_firstFree_eq names base names.taken.length 1
  have hless : i < names.taken.length := by
    -- Otherwise the base and all its candidates would be more names than are taken.
    by_contra hall
    have hnodup : (base :: (List.range names.taken.length).map fun j =>
        numbered base (1 + j)).Nodup := by
      rw [List.nodup_cons]
      constructor
      · intro hmem
        obtain ⟨j, -, hj⟩ := List.mem_map.mp hmem
        exact numbered_ne base (1 + j) hj
      · refine List.nodup_range.map ?_
        intro j k h
        exact Nat.add_left_cancel (numbered_injective base h)
    have hsubset : (base :: (List.range names.taken.length).map fun j =>
        numbered base (1 + j)) ⊆ names.taken := by
      rw [List.cons_subset]
      refine ⟨htaken, ?_⟩
      intro name hname
      obtain ⟨j, hj, rfl⟩ := List.mem_map.mp hname
      exact hbefore j (Nat.lt_of_lt_of_le (List.mem_range.mp hj) (Nat.le_of_not_lt hall))
    have hlength := hnodup.length_le_of_subset hsubset
    simp only [List.length_cons, List.length_map, List.length_range] at hlength
    omega
  refine ⟨1 + i, Nat.le_add_right 1 i, by omega, ?_, hat hless, ?_⟩
  · rw [fresh, if_pos (isTaken_iff.mpr htaken), hfree]
  · intro j hj hlt
    obtain ⟨j, rfl⟩ := Nat.exists_eq_add_of_le hj
    exact hbefore j (by omega)

theorem fresh_eq_self (hfree : base ∉ names.taken) : names.fresh base = base := by
  rw [fresh, if_neg (mt isTaken_iff.mp hfree)]

theorem fresh_notMem (names : NameAllocator) (base : String) : names.fresh base ∉ names.taken := by
  by_cases htaken : base ∈ names.taken
  · obtain ⟨k, -, -, hfresh, hfree, -⟩ := exists_fresh_eq htaken
    rw [hfresh]
    exact hfree
  · rw [fresh_eq_self htaken]
    exact htaken

end Search

theorem mem_reserve {names : NameAllocator} {name other : String} :
    other ∈ (names.reserve name).taken ↔ other = name ∨ other ∈ names.taken := by
  by_cases htaken : name ∈ names.taken
  · rw [reserve, if_pos (isTaken_iff.mpr htaken)]
    constructor
    · exact Or.inr
    · rintro (rfl | hother)
      · exact htaken
      · exact hother
  · rw [reserve, if_neg (mt isTaken_iff.mp htaken), List.mem_cons]

/-- Between two states of an allocator it handed out these names, all of them for the first time. -/
structure HandsOut (before after : NameAllocator) (given : List String) : Prop where
  keeps : before.taken ⊆ after.taken
  nodup : given.Nodup
  fresh : ∀ name ∈ given, name ∉ before.taken
  taken : ∀ name ∈ given, name ∈ after.taken

namespace HandsOut

variable {before between after : NameAllocator} {given : List String}

theorem none_of_subset (hkeeps : before.taken ⊆ after.taken) : before.HandsOut after [] where
  keeps := hkeeps
  nodup := List.nodup_nil
  fresh := by simp
  taken := by simp

theorem reserve (names : NameAllocator) (name : String) : names.HandsOut (names.reserve name) [] :=
  none_of_subset fun _ hother => mem_reserve.mpr (Or.inr hother)

theorem allocate (names : NameAllocator) (base : String) :
    names.HandsOut (names.allocate base).2 [(names.allocate base).1] where
  keeps := (reserve names (names.fresh base)).keeps
  nodup := List.nodup_singleton _
  fresh := by
    intro name hname
    rw [List.mem_singleton.mp hname]
    exact names.fresh_notMem base
  taken := by
    intro name hname
    rw [List.mem_singleton.mp hname]
    exact mem_reserve.mpr (Or.inl rfl)

theorem append {later : List String} (h : before.HandsOut between given)
    (hlater : between.HandsOut after later) : before.HandsOut after (given ++ later) where
  keeps := List.Subset.trans h.keeps hlater.keeps
  nodup := by
    rw [List.nodup_append]
    refine ⟨h.nodup, hlater.nodup, ?_⟩
    rintro name hname _ hother rfl
    exact hlater.fresh name hother (h.taken name hname)
  fresh := by
    intro name hname
    rcases List.mem_append.mp hname with hname | hname
    · exact h.fresh name hname
    · exact fun hold => hlater.fresh name hname (h.keeps hold)
  taken := by
    intro name hname
    rcases List.mem_append.mp hname with hname | hname
    · exact hlater.keeps (h.taken name hname)
    · exact hlater.taken name hname

theorem forget (h : before.HandsOut after given) : before.HandsOut after [] :=
  none_of_subset h.keeps

end HandsOut

section Row

/-- Hands out a name for each base, one after the other. -/
def allocateAll (names : NameAllocator) : List String → List String × NameAllocator
  | [] => ([], names)
  | base :: bases =>
    let (name, names) := names.allocate base
    let (given, names) := names.allocateAll bases
    (name :: given, names)

/-- The name that a base gets while others are taken: the base itself if it is free, otherwise the
base with the smallest positive number that makes it free. -/
def SmallestFree (taken : List String) (base name : String) : Prop :=
  (base ∉ taken ∧ name = base) ∨
  (base ∈ taken ∧ ∃ k, 1 ≤ k ∧ name = numbered base k ∧ numbered base k ∉ taken ∧
    ∀ j, 1 ≤ j → j < k → numbered base j ∈ taken)

variable {names between after : NameAllocator}

@[simp] theorem fst_allocate (names : NameAllocator) (base : String) :
    (names.allocate base).1 = names.fresh base := rfl

@[simp] theorem allocateAll_singleton (names : NameAllocator) (base : String) :
    names.allocateAll [base] = ([names.fresh base], (names.allocate base).2) := rfl

theorem allocateAll_append {bases later given givenLater : List String}
    (h : names.allocateAll bases = (given, between))
    (hlater : between.allocateAll later = (givenLater, after)) :
    names.allocateAll (bases ++ later) = (given ++ givenLater, after) := by
  induction bases generalizing names given with
  | nil =>
    simp only [allocateAll, Prod.mk.injEq] at h
    simp [← h.1, h.2, hlater]
  | cons base bases ih =>
    simp only [allocateAll, Prod.mk.injEq] at h
    simp [allocateAll, ← h.1, ih (Prod.ext rfl h.2)]

theorem handsOut_allocateAll (names : NameAllocator) (bases : List String) :
    names.HandsOut (names.allocateAll bases).2 (names.allocateAll bases).1 := by
  induction bases generalizing names with
  | nil => exact .none_of_subset (List.Subset.refl _)
  | cons base bases ih => exact (HandsOut.allocate names base).append (ih _)

private theorem taken_allocate (names : NameAllocator) (base : String) :
    (names.allocate base).2.taken = names.fresh base :: names.taken := by
  simp [allocate, reserve, isTaken, names.fresh_notMem base]

private theorem smallestFree_fresh (names : NameAllocator) (base : String) :
    SmallestFree names.taken base (names.fresh base) := by
  by_cases htaken : base ∈ names.taken
  · obtain ⟨k, hk, -, hfresh, hfree, hbefore⟩ := exists_fresh_eq htaken
    exact Or.inr ⟨htaken, k, hk, hfresh, hfree, hbefore⟩
  · exact Or.inl ⟨htaken, fresh_eq_self htaken⟩

/-- Which name a base gets depends on the names that were taken at first and on those that were
handed out before it. -/
theorem smallestFree_allocateAll (names : NameAllocator) {bases : List String} {i : Nat}
    {base : String} (hbase : bases[i]? = some base) :
    ∃ name, (names.allocateAll bases).1[i]? = some name ∧
      SmallestFree (names.taken ++ (names.allocateAll bases).1.take i) base name := by
  induction bases generalizing names i with
  | nil => simp at hbase
  | cons first bases ih =>
    cases i with
    | zero =>
      obtain rfl : first = base := by simpa using hbase
      exact ⟨_, rfl, by simpa using names.smallestFree_fresh first⟩
    | succ i =>
      have hrest : bases[i]? = some base := by simpa using hbase
      obtain ⟨name, hname, hfree⟩ := ih (names.allocate first).2 hrest
      refine ⟨name, hname, ?_⟩
      rw [taken_allocate] at hfree
      have hsame (other : String) :
          other ∈ names.taken ++ (names.allocateAll (first :: bases)).1.take (i + 1) ↔
            other ∈ names.fresh first :: names.taken ++
              ((names.allocate first).2.allocateAll bases).1.take i := by
        simp [allocateAll, or_left_comm]
      simpa only [SmallestFree, hsame] using hfree

end Row

end ResultLayout.NameAllocator
