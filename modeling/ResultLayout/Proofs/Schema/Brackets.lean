import ResultLayout.Proofs.Schema.TypeGrammar
import Mathlib.Data.List.Infix
/-!
# Brackets of a type reference

The brackets of a text are balanced if no beginning of the text closes more of them than it opens and
the whole text closes all of them. Reading looks only at the two ends of what is left, but there it
peels off a pair of brackets at a time, with gaps and a mark that hold no brackets, and it looks for a
name only in a text without brackets. Put together again, everything that it has peeled off is
balanced, so a text with unbalanced brackets is rejected for them, whatever else is wrong with it.
-/
namespace ResultLayout
open Text

/-- Every closing bracket has its own opening bracket before it, and none stays open. -/
structure Balanced (cs : List Char) : Prop where
  opened : ∀ start, start <+: cs → start.count ']' ≤ start.count '['
  closed : cs.count '[' = cs.count ']'

def Bracketless (cs : List Char) : Prop := '[' ∉ cs ∧ ']' ∉ cs

section Balanced

variable {cs left right : List Char}

instance : Decidable (Balanced cs) :=
  decidable_of_iff ((∀ start ∈ cs.inits, start.count ']' ≤ start.count '[') ∧
      cs.count '[' = cs.count ']') (by
    simp only [List.mem_inits]
    exact ⟨fun h => ⟨h.1, h.2⟩, fun h => ⟨h.opened, h.closed⟩⟩)

private theorem Bracketless.balanced (h : Bracketless cs) : Balanced cs where
  opened start hstart := by
    have hnone : ']' ∉ start := fun hmem => h.2 (hstart.subset hmem)
    rw [List.count_eq_zero.mpr hnone]
    exact Nat.zero_le _
  closed := by rw [List.count_eq_zero.mpr h.1, List.count_eq_zero.mpr h.2]

theorem Balanced.append (hleft : Balanced left) (hright : Balanced right) :
    Balanced (left ++ right) where
  opened start hstart := by
    rcases List.prefix_or_prefix_of_prefix hstart (List.prefix_append left right) with hpart | hall
    · exact hleft.opened start hpart
    · obtain ⟨rest, rfl⟩ := hall
      have hrest := hright.opened rest ((List.prefix_append_right_inj left).mp hstart)
      have hclosed := hleft.closed
      rw [List.count_append, List.count_append]
      omega
  closed := by rw [List.count_append, List.count_append, hleft.closed, hright.closed]

theorem Balanced.brackets (h : Balanced cs) : Balanced ('[' :: cs ++ [']']) where
  opened start hstart := by
    rcases List.prefix_cons_iff.mp hstart with rfl | ⟨rest, rfl, hrest⟩
    · exact Nat.le_refl 0
    · rcases List.prefix_concat_iff.mp hrest with rfl | hinside
      · simp [List.count_append, h.closed]
      · have hopened := h.opened rest hinside
        simp
        omega
  closed := by simp [List.count_append, h.closed]

private theorem bracketless_gap {gap : List Char} (h : Gap gap) : Bracketless gap :=
  ⟨fun hopen => absurd (h '[' hopen) (by decide), fun hclosed => absurd (h ']' hclosed) (by decide)⟩

private theorem bracketless_markText {nullable : Bool} (h : MarkText nullable cs) :
    Bracketless cs := by
  cases h with
  | absent => exact ⟨List.not_mem_nil, List.not_mem_nil⟩
  | present hgap =>
    obtain ⟨hopen, hclosed⟩ := bracketless_gap hgap
    exact ⟨by simp [hopen], by simp [hclosed]⟩

private theorem balanced_of_trim (h : Balanced (trim cs)) : Balanced cs := by
  obtain ⟨before, after, hbefore, hafter, hcs⟩ := exists_trim cs
  rw [hcs]
  exact ((bracketless_gap hbefore).balanced.append h).append (bracketless_gap hafter).balanced

end Balanced

namespace TypeRef

variable {whole : String} {cs : List Char}

private theorem balanced_of_splitMark (h : Balanced (splitMark cs).1) : Balanced cs := by
  obtain ⟨mark, hmark, hcs⟩ := exists_splitMark cs
  rw [hcs]
  exact h.append (bracketless_markText hmark).balanced

private theorem tight_splitMark (h : Tight cs) : Tight (splitMark cs).1 := by
  rw [splitMark]
  split
  next body hbody =>
    refine ⟨head_trimEnd ?_, last_trimEnd body⟩
    intro c hc
    apply h.head
    rw [beforeLast?_eq_some.mp hbody]
    exact List.mem_head?_append_of_mem_head? hc
  next => exact h

/-- What is peeled off is balanced, and where reading ends without an error about brackets, so is what
is left. -/
private theorem balanced_of_parseTrimmed
    (h : parseTrimmed whole cs ≠ .error (.unbalancedBrackets whole)) :
    Balanced cs := by
  fun_induction parseTrimmed whole cs with
  | case1 => exact absurd rfl h
  | case2 cs rest hsplit item hlast hempty =>
    have hitem : Balanced item := balanced_of_trim (hempty ▸ by decide)
    apply balanced_of_splitMark
    rw [hsplit, beforeLast?_eq_some.mp hlast]
    exact hitem.brackets
  | case3 cs rest hsplit item hlast hitem ih =>
    have hinner : parseTrimmed whole (trim item) ≠ .error (.unbalancedBrackets whole) := by
      intro herror
      rw [herror] at h
      exact h rfl
    apply balanced_of_splitMark
    rw [hsplit, beforeLast?_eq_some.mp hlast]
    exact (balanced_of_trim (ih hinner)).brackets
  | case4 => exact absurd rfl h
  | case5 cs _ hbrackets => exact balanced_of_splitMark (Bracketless.balanced (not_or.mp hbrackets))
  | case6 cs _ hbrackets => exact balanced_of_splitMark (Bracketless.balanced (not_or.mp hbrackets))

private theorem invalidName_of_parseTrimmed {name : String} (htight : Tight cs)
    (h : parseTrimmed whole cs = .error (.invalidName name)) :
    name.toList <:+: cs ∧ Bracketless name.toList ∧ Tight name.toList ∧ ¬ NameText name.toList := by
  fun_induction parseTrimmed whole cs with
  | case1 => cases h
  | case2 => cases h
  | case3 cs rest hsplit item hlast hitem ih =>
    have hinner : parseTrimmed whole (trim item) = .error (.invalidName name) := by
      cases hread : parseTrimmed whole (trim item) with
      | ok inner =>
        rw [hread] at h
        cases h
      | error cause =>
        rw [hread] at h
        exact h
    obtain ⟨hoccurs, hrest⟩ := ih (tight_trim item) hinner
    refine ⟨?_, hrest⟩
    obtain ⟨mark, -, hcs⟩ := exists_splitMark cs
    obtain ⟨before, after, -, -, htrim⟩ := exists_trim item
    have hitem : trim item <:+: item := ⟨before, after, htrim.symm⟩
    have hlist : item <:+: cs := by
      rw [hcs, hsplit, beforeLast?_eq_some.mp hlast]
      exact ⟨['['], ']' :: mark, by simp⟩
    exact (hoccurs.trans hitem).trans hlist
  | case4 => cases h
  | case5 => cases h
  | case6 cs _ hbrackets hname =>
    obtain rfl := TypeRefError.invalidName.inj (Except.error.inj h)
    obtain ⟨mark, -, hcs⟩ := exists_splitMark cs
    have hoccurs : (splitMark cs).1 <:+: cs := ⟨[], mark, hcs.symm⟩
    rw [String.toList_ofList]
    exact ⟨hoccurs, not_or.mp hbrackets, tight_splitMark htight, mt isName_iff.mpr hname⟩

private theorem balanced_of_parse {text : String}
    (h : parse text ≠ .error (.unbalancedBrackets text)) :
    Balanced text.toList := by
  apply balanced_of_trim
  rw [parse] at h
  split at h
  next hempty =>
    rw [hempty]
    decide
  next => exact balanced_of_parseTrimmed h

/-- A text with unbalanced brackets is rejected for them, and the error cites all of it. So the brackets
of a text are balanced if it is read, if nothing stands where a type is due, and if a name is invalid;
what is cited as a name then occurs in the text, has no brackets and no blanks around it, and is no
name. -/
theorem parse_classifies_brackets (text : String) :
    (¬ Balanced text.toList → parse text = .error (.unbalancedBrackets text)) ∧
      (∀ type, parse text = .ok type → Balanced text.toList) ∧
      (parse text = .error .empty → Balanced text.toList) ∧
      ∀ name, parse text = .error (.invalidName name) →
        Balanced text.toList ∧ name.toList <:+: text.toList ∧ Bracketless name.toList ∧
          Tight name.toList ∧ ¬ NameText name.toList := by
  have hothers {result : Except TypeRefError TypeRef} (hparse : parse text = result)
      (hresult : result ≠ .error (.unbalancedBrackets text)) : Balanced text.toList := by
    apply balanced_of_parse
    rw [hparse]
    exact hresult
  refine ⟨?unbalanced, ?ok, ?empty, ?invalid⟩
  case unbalanced =>
    intro hunbalanced
    by_contra hparse
    exact hunbalanced (balanced_of_parse hparse)
  case ok => exact fun type hparse => hothers hparse (by simp)
  case empty => exact fun hparse => hothers hparse (by simp)
  case invalid =>
    intro name hparse
    refine ⟨hothers hparse (by simp), ?_⟩
    rw [parse] at hparse
    split at hparse
    next => cases hparse
    next =>
      obtain ⟨hoccurs, hrest⟩ := invalidName_of_parseTrimmed (tight_trim text.toList) hparse
      obtain ⟨before, after, -, -, htrim⟩ := exists_trim text.toList
      exact ⟨hoccurs.trans ⟨before, after, htrim.symm⟩, hrest⟩

/-- Of two defects in one text the missing bracket is reported. With the bracket in place it is the
name, without its list and without the gaps. -/
theorem parse_classifies_ids :
    (¬ Balanced " [ 1D !! ".toList ∧
      parse " [ 1D !! " = .error (.unbalancedBrackets " [ 1D !! ")) ∧
    (parse " [ ID ! ] " = .ok (.list (.named "ID" false) true) ∧ Balanced " [ ID ! ] ".toList) ∧
    (parse "[ ]" = .error .empty ∧ Balanced "[ ]".toList) ∧
    (parse " [ 1D ! ] " = .error (.invalidName "1D") ∧
      Balanced " [ 1D ! ] ".toList ∧ "1D".toList <:+: " [ 1D ! ] ".toList ∧
        Bracketless "1D".toList ∧ Tight "1D".toList ∧ ¬ NameText "1D".toList) := by
  have hunbalanced : ¬ Balanced " [ 1D !! ".toList := by decide
  have hok : parse " [ ID ! ] " = .ok (.list (.named "ID" false) true) := by decide +kernel
  have hempty : parse "[ ]" = .error .empty := by decide +kernel
  have hinvalid : parse " [ 1D ! ] " = .error (.invalidName "1D") := by decide +kernel
  refine ⟨⟨hunbalanced, ?_⟩, ⟨hok, ?_⟩, ⟨hempty, ?_⟩, hinvalid, ?_⟩
  · exact (parse_classifies_brackets _).1 hunbalanced
  · exact (parse_classifies_brackets _).2.1 _ hok
  · exact (parse_classifies_brackets _).2.2.1 hempty
  · exact (parse_classifies_brackets _).2.2.2 _ hinvalid

end TypeRef
end ResultLayout
