import ResultLayout.Proofs.Naming.Fresh
import Mathlib.Data.Nat.Init
/-!
# Runs of an allocator

An allocator is used by steps that ask for a name or reserve one. The log of a run lists the names
that its steps take, and whether each was handed out or reserved. A name that a step hands out was
not taken before, and the name of every step stays taken, so where the log says that a name was
handed out, it stands there for the first time.

The search for a number goes on for as long as it meets taken names. It ends at the smallest number
that is free, and as the taken names are all different, this is at most the number of them.
-/
namespace ResultLayout

/-- A step on an allocator. -/
inductive AllocatorStep where
  | allocate (base : String)
  | reserve (name : String)

/-- A name that a step has taken. -/
inductive Taking where
  | handedOut (name : String)
  | reserved (name : String)
deriving DecidableEq

def Taking.name : Taking → String
  | handedOut name => name
  | reserved name => name

namespace NameAllocator

/-- Takes a step and says what it has taken. -/
def step (names : NameAllocator) : AllocatorStep → Taking × NameAllocator
  | .allocate base =>
    let (name, names) := names.allocate base
    (.handedOut name, names)
  | .reserve name => (.reserved name, names.reserve name)

/-- Takes steps one after the other and logs what they take. -/
def run (names : NameAllocator) : List AllocatorStep → List Taking × NameAllocator
  | [] => ([], names)
  | step :: steps =>
    let (taking, names) := names.step step
    let (log, names) := names.run steps
    (taking :: log, names)

section Search

/-- A search that tries one number after the other, with no bound on them: it ends at the first one
whose candidate is free. -/
inductive SearchEnds (names : NameAllocator) (base : String) : (i k : Nat) → Prop
  | free {k : Nat} (h : names.isTaken (numbered base k) = false) : SearchEnds names base k k
  | taken {i k : Nat} (h : names.isTaken (numbered base i) = true)
    (next : SearchEnds names base (i + 1) k) : SearchEnds names base i k

variable {names : NameAllocator} {base : String}

private theorem isTaken_eq_false_iff {name : String} :
    names.isTaken name = false ↔ name ∉ names.taken := by
  rw [← Bool.not_eq_true, isTaken_iff]

private theorem SearchEnds.of_smallest {i k : Nat} (hle : i ≤ k)
    (hfree : numbered base k ∉ names.taken)
    (hbefore : ∀ j, i ≤ j → j < k → numbered base j ∈ names.taken) : names.SearchEnds base i k := by
  induction hle using Nat.decreasingInduction with
  | self => exact .free (isTaken_eq_false_iff.mpr hfree)
  | of_succ i hlt ih =>
    refine .taken (isTaken_iff.mpr (hbefore i (Nat.le_refl i) hlt)) (ih ?_)
    intro j hj
    exact hbefore j (Nat.le_of_succ_le hj)

end Search

section Run

variable {names : NameAllocator}

private theorem mem_step {step : AllocatorStep} {name : String} :
    name ∈ (names.step step).2.taken ↔ name = (names.step step).1.name ∨ name ∈ names.taken := by
  cases step with
  | allocate base => exact mem_reserve
  | reserve reserved => exact mem_reserve

private theorem notMem_of_handedOut {step : AllocatorStep} {name : String}
    (h : (names.step step).1 = .handedOut name) : name ∉ names.taken := by
  cases step with
  | allocate base =>
    obtain rfl : names.fresh base = name := Taking.handedOut.inj h
    exact names.fresh_notMem base
  | reserve reserved => cases h

private theorem nodup_reserve (h : names.taken.Nodup) (name : String) :
    (names.reserve name).taken.Nodup := by
  rw [reserve]
  split
  next => exact h
  next hnew => exact List.nodup_cons.mpr ⟨mt isTaken_iff.mpr hnew, h⟩

private theorem nodup_step (h : names.taken.Nodup) (step : AllocatorStep) :
    (names.step step).2.taken.Nodup := by
  cases step with
  | allocate base => exact nodup_reserve h (names.fresh base)
  | reserve reserved => exact nodup_reserve h reserved

private theorem nodup_run (h : names.taken.Nodup) (steps : List AllocatorStep) :
    (names.run steps).2.taken.Nodup := by
  induction steps generalizing names with
  | nil => exact h
  | cons step steps ih => exact ih (nodup_step h step)

private theorem mem_run {steps : List AllocatorStep} {name : String} :
    name ∈ (names.run steps).2.taken ↔
      name ∈ names.taken ∨ ∃ taking ∈ (names.run steps).1, taking.name = name := by
  induction steps generalizing names with
  | nil => simp [run]
  | cons step steps ih =>
    simp only [run, ih, mem_step, List.mem_cons, exists_eq_or_imp]
    rw [or_assoc, or_left_comm, @eq_comm _ name]

private theorem notMem_of_handedOut_mem_run {steps : List AllocatorStep} {name : String}
    (h : .handedOut name ∈ (names.run steps).1) : name ∉ names.taken := by
  induction steps generalizing names with
  | nil => cases h
  | cons step steps ih =>
    rcases List.mem_cons.mp h with hfirst | hlater
    · exact notMem_of_handedOut hfirst.symm
    · exact fun hold => ih hlater (mem_step.mpr (Or.inr hold))

private theorem pairwise_run (names : NameAllocator) (steps : List AllocatorStep) :
    (names.run steps).1.Pairwise fun earlier later =>
      ∀ name, later = .handedOut name → earlier.name ≠ name := by
  induction steps generalizing names with
  | nil => exact .nil
  | cons step steps ih =>
    refine List.pairwise_cons.mpr ⟨?_, ih (names.step step).2⟩
    rintro _ hlater name rfl hsame
    exact notMem_of_handedOut_mem_run hlater (mem_step.mpr (Or.inl hsame.symm))

end Run

/-- Whatever the steps before, a base gets a name that is free: the base itself if it is, otherwise
the base with the smallest positive number that makes it free. The search ends at this number, which
is at most the number of taken names, and the name is all that is added to them. So in a whole run
every name that is handed out differs from all names that were handed out or reserved before. -/
theorem run_hands_out_free_names (steps : List AllocatorStep) :
    let (log, names) := NameAllocator.run {} steps
    (∀ base, ∃ name after, names.allocate base = (name, after) ∧ names.isTaken name = false ∧
      ((names.isTaken base = false ∧ name = base) ∨
        (names.isTaken base = true ∧ ∃ k, 1 ≤ k ∧ k ≤ names.taken.length ∧
          name = numbered base k ∧
          (∀ j, 1 ≤ j → j < k → names.isTaken (numbered base j) = true) ∧
          names.SearchEnds base 1 k)) ∧
      ∀ other, after.isTaken other = true ↔ other = name ∨ names.isTaken other = true) ∧
    names.taken.Nodup ∧
    (∀ name, names.isTaken name = true ↔ ∃ taking ∈ log, taking.name = name) ∧
    log.Pairwise fun earlier later => ∀ name, later = .handedOut name → earlier.name ≠ name := by
  refine ⟨?_, nodup_run List.nodup_nil steps, ?_, pairwise_run {} steps⟩
  · intro base
    let names := (NameAllocator.run {} steps).2
    refine ⟨_, _, rfl, isTaken_eq_false_iff.mpr (names.fresh_notMem base), ?_, ?_⟩
    · by_cases htaken : base ∈ names.taken
      · obtain ⟨k, hpos, hle, hfresh, hfree, hbefore⟩ := exists_fresh_eq htaken
        exact Or.inr ⟨isTaken_iff.mpr htaken, k, hpos, hle, hfresh,
          fun j hj hlt => isTaken_iff.mpr (hbefore j hj hlt), .of_smallest hpos hfree hbefore⟩
      · exact Or.inl ⟨isTaken_eq_false_iff.mpr htaken, fresh_eq_self htaken⟩
    · intro other
      rw [isTaken_iff, isTaken_iff]
      exact mem_reserve
  · intro name
    rw [isTaken_iff, mem_run]
    simp

example : (NameAllocator.run {} [.allocate "User", .allocate "User", .allocate "User1",
    .reserve "User2", .allocate "User"]).1 =
    [.handedOut "User", .handedOut "User1", .handedOut "User11", .reserved "User2",
      .handedOut "User3"] := by
  decide +kernel

end NameAllocator
end ResultLayout
