import ResultLayout.Naming.Capitalize
import Mathlib.Data.List.Basic
import Mathlib.Data.Nat.Bitwise
/-!
# Upper case starts with no lowercase character

A character with an upper case of its own maps to characters of which the first is not lowercase; all
others map to themselves. That holds of every entry of the two tables, and it makes capitalizing a
name twice the same as capitalizing it once.

For the tables the lowercase characters are taken as one number, whose bits are the code points: the
whole check is then a matter of looking up bits.
-/
namespace ResultLayout.Text

/-- The number whose bits from `first` to `last` are set. -/
def bitsBetween (first last : Nat) : Nat := (2 ^ (last + 1 - first) - 1) <<< first

private theorem testBit_bitsBetween (first last code : Nat) :
    (bitsBetween first last).testBit code = true ↔ first ≤ code ∧ code ≤ last := by
  rw [bitsBetween, Nat.testBit_shiftLeft, Nat.testBit_two_pow_sub_one]
  simp only [Bool.and_eq_true, decide_eq_true_eq]
  omega

/-- The set as a number: the bit of a code point is set if the code point belongs to it. -/
def CodeRanges.mask (ranges : CodeRanges) : Nat :=
  ranges.foldr (fun range mask => bitsBetween range.1 range.2 ||| mask) 0

private theorem CodeRanges.testBit_mask (ranges : CodeRanges) (c : Char) :
    ranges.mask.testBit c.toNat = ranges.has c := by
  rw [Bool.eq_iff_iff, CodeRanges.has_iff]
  induction ranges with
  | nil => simp [mask]
  | cons range ranges ih =>
    have hmask : mask (range :: ranges) = bitsBetween range.1 range.2 ||| mask ranges := rfl
    rw [hmask, Nat.testBit_or, Bool.or_eq_true, testBit_bitsBetween, ih]
    simp

private theorem isLowercase_eq_testBit (c : Char) :
    isLowercase c = lowercaseRanges.mask.testBit c.toNat :=
  (CodeRanges.testBit_mask lowercaseRanges c).symm

/-! ## The tables -/

/-- The code points that a run maps to. -/
def CaseRun.targets (run : CaseRun) : List Nat :=
  (List.range ((run.last - run.first) / run.step + 1)).map fun i => run.target + i * run.step

private theorem CaseRun.mem_targets {run : CaseRun} {code target : Nat}
    (h : run.map? code = some target) :
    target ∈ run.targets := by
  unfold map? at h
  split at h
  next hcode =>
    obtain ⟨hfirst, hlast, hstep⟩ := hcode
    obtain rfl := Option.some.inj h
    have hnumber : (code - run.first) / run.step * run.step = code - run.first :=
      Nat.div_mul_cancel (Nat.dvd_of_mod_eq_zero hstep)
    refine List.mem_map.mpr ⟨(code - run.first) / run.step, List.mem_range.mpr ?_, by rw [hnumber]⟩
    exact Nat.lt_succ_of_le (Nat.div_le_div_right (by omega))
  next => cases h

private theorem simple_targets_not_lowercase : ∀ run ∈ simpleUppercase, ∀ target ∈ run.targets,
    lowercaseRanges.mask.testBit (Char.ofNat target).toNat = false := by
  decide +kernel

private theorem expanding_starts_not_lowercase :
    ∀ entry ∈ expandingUppercase, ∃ first ∈ entry.2.head?,
    lowercaseRanges.mask.testBit (Char.ofNat first).toNat = false := by
  decide +kernel

/-- A character is its own upper case, or its upper case starts with a character that is not
lowercase. -/
theorem uppercase_eq_or_start (c : Char) :
    uppercase c = [c] ∨ ∃ first rest, uppercase c = first :: rest ∧ isLowercase first = false := by
  unfold uppercase
  split
  next codes hcodes =>
    obtain ⟨before, after, hentry, -⟩ := List.lookup_eq_some_iff.mp hcodes
    obtain ⟨first, hfirst, hbit⟩ :=
      expanding_starts_not_lowercase (c.toNat, codes) (by rw [hentry]; simp)
    obtain ⟨rest, rfl⟩ := List.head?_eq_some_iff.mp hfirst
    exact Or.inr ⟨Char.ofNat first, rest.map Char.ofNat, rfl, (isLowercase_eq_testBit _).trans hbit⟩
  next =>
    cases htarget : simpleUppercase.findSome? (·.map? c.toNat) with
    | none => exact Or.inl (by simp)
    | some target =>
      obtain ⟨run, hrun, hmap⟩ := List.exists_of_findSome?_eq_some htarget
      have hbit := simple_targets_not_lowercase run hrun target (CaseRun.mem_targets hmap)
      exact Or.inr ⟨Char.ofNat target, [], rfl, (isLowercase_eq_testBit _).trans hbit⟩

end ResultLayout.Text
