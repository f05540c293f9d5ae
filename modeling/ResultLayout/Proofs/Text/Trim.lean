import ResultLayout.Text.Blank
import Mathlib.Data.List.Basic
import Mathlib.Data.List.TakeWhile
/-!
# Trimmed texts

A gap is a text of blanks. A text is a gap, its trimmed form and another gap; a text that neither
starts nor ends with a blank is what trimming leaves of it, whatever gaps are put around it. Without
its blanks a text loses its gaps and keeps the rest.
-/
namespace ResultLayout.Text

/-- Nothing but blanks. -/
def Gap (cs : List Char) : Prop := ∀ c ∈ cs, isBlank c = true

instance (cs : List Char) : Decidable (Gap cs) := List.decidableBAll _ cs

theorem Gap.reverse {cs : List Char} (h : Gap cs) : Gap cs.reverse := by
  intro c hc
  exact h c (List.mem_reverse.mp hc)

/-- Neither the first nor the last character is a blank. -/
structure Tight (cs : List Char) : Prop where
  head : ∀ c ∈ cs.head?, isBlank c = false
  last : ∀ c ∈ cs.getLast?, isBlank c = false

private theorem trimStart_append {gap : List Char} (hgap : Gap gap) (cs : List Char) :
    trimStart (gap ++ cs) = trimStart cs :=
  List.dropWhile_append_of_pos hgap

private theorem trimStart_of_head {cs : List Char} (h : ∀ c ∈ cs.head?, isBlank c = false) :
    trimStart cs = cs := by
  cases cs with
  | nil => rfl
  | cons c cs =>
    have hc : isBlank c = false := h c rfl
    rw [trimStart, List.dropWhile_cons, hc]
    rfl

private theorem trimEnd_eq (cs : List Char) : trimEnd cs = (trimStart cs.reverse).reverse := rfl

theorem trimEnd_append {gap : List Char} (hgap : Gap gap) (cs : List Char) :
    trimEnd (cs ++ gap) = trimEnd cs := by
  rw [trimEnd_eq, List.reverse_append, trimStart_append hgap.reverse, trimEnd_eq]

theorem trimEnd_of_last {cs : List Char} (h : ∀ c ∈ cs.getLast?, isBlank c = false) :
    trimEnd cs = cs := by
  have hhead : ∀ c ∈ cs.reverse.head?, isBlank c = false := by
    rw [List.head?_reverse]
    exact h
  rw [trimEnd_eq, trimStart_of_head hhead, List.reverse_reverse]

theorem trim_of_tight {before cs after : List Char} (hbefore : Gap before) (htight : Tight cs)
    (hafter : Gap after) : trim (before ++ cs ++ after) = cs := by
  rw [trim, List.append_assoc, trimStart_append hbefore]
  cases cs with
  | nil =>
    have hnone : trimStart ([] ++ after) = [] := by
      rw [List.nil_append, ← List.append_nil after, trimStart_append hafter]
      rfl
    rw [hnone]
    rfl
  | cons c cs =>
    have hstart : trimStart (c :: cs ++ after) = c :: cs ++ after :=
      trimStart_of_head htight.head
    rw [hstart, trimEnd_append hafter, trimEnd_of_last htight.last]

private theorem exists_trimStart (cs : List Char) : ∃ gap, Gap gap ∧ cs = gap ++ trimStart cs := by
  refine ⟨cs.takeWhile isBlank, ?_, List.takeWhile_append_dropWhile.symm⟩
  intro c hc
  exact List.mem_takeWhile_imp hc

theorem exists_trimEnd (cs : List Char) : ∃ gap, Gap gap ∧ cs = trimEnd cs ++ gap := by
  obtain ⟨gap, hgap, heq⟩ := exists_trimStart cs.reverse
  refine ⟨gap.reverse, hgap.reverse, ?_⟩
  rw [trimEnd_eq, ← List.reverse_append, ← heq, List.reverse_reverse]

theorem exists_trim (cs : List Char) :
    ∃ before after, Gap before ∧ Gap after ∧ cs = before ++ trim cs ++ after := by
  obtain ⟨before, hbefore, hstart⟩ := exists_trimStart cs
  obtain ⟨after, hafter, hend⟩ := exists_trimEnd (trimStart cs)
  refine ⟨before, after, hbefore, hafter, ?_⟩
  rw [List.append_assoc, trim, ← hend]
  exact hstart

private theorem head_trimStart (cs : List Char) :
    ∀ c ∈ (trimStart cs).head?, isBlank c = false := by
  intro c hc
  have hstart := List.head?_dropWhile_not isBlank cs
  rw [show (cs.dropWhile isBlank).head? = some c from hc] at hstart
  exact hstart

theorem head_trimEnd {cs : List Char} (h : ∀ c ∈ cs.head?, isBlank c = false) :
    ∀ c ∈ (trimEnd cs).head?, isBlank c = false := by
  intro c hc
  obtain ⟨gap, -, hend⟩ := exists_trimEnd cs
  apply h
  rw [hend]
  exact List.mem_head?_append_of_mem_head? hc

theorem last_trimEnd (cs : List Char) : ∀ c ∈ (trimEnd cs).getLast?, isBlank c = false := by
  rw [trimEnd_eq, List.getLast?_reverse]
  exact head_trimStart cs.reverse

theorem tight_trim (cs : List Char) : Tight (trim cs) where
  head := head_trimEnd (head_trimStart cs)
  last := last_trimEnd (trimStart cs)

/-- A text with all its blanks left out. -/
def withoutBlanks (cs : List Char) : List Char := cs.filter (!isBlank ·)

theorem withoutBlanks_append (left right : List Char) :
    withoutBlanks (left ++ right) = withoutBlanks left ++ withoutBlanks right :=
  List.filter_append left right

theorem withoutBlanks_gap {cs : List Char} (h : Gap cs) : withoutBlanks cs = [] := by
  rw [withoutBlanks, List.filter_eq_nil_iff]
  intro c hc
  simp [h c hc]

theorem withoutBlanks_eq_self {cs : List Char} (h : ∀ c ∈ cs, isBlank c = false) :
    withoutBlanks cs = cs := by
  rw [withoutBlanks, List.filter_eq_self]
  intro c hc
  simp [h c hc]

end ResultLayout.Text
