import ResultLayout.Schema.TypeRef
import ResultLayout.Proofs.Text.Trim
import Mathlib.Data.List.Basic
/-!
# The grammar of type references

A type reference is written as a name or as another reference in brackets, with a mark `!` behind it
where `null` is not allowed. Blanks may stand inside the brackets, before a mark, and around the
whole.

Reading peels a text from both ends and never looks at what stands between. It accepts exactly the
texts of this grammar, and gives the one type that the text is written for.
-/
namespace ResultLayout
open Text

/-- A letter of the Latin alphabet or an underscore. -/
def NameStart (c : Char) : Prop := c = '_' ∨ ('A' ≤ c ∧ c ≤ 'Z') ∨ ('a' ≤ c ∧ c ≤ 'z')

def NamePart (c : Char) : Prop := NameStart c ∨ ('0' ≤ c ∧ c ≤ '9')

instance (c : Char) : Decidable (NameStart c) := inferInstanceAs (Decidable (_ ∨ _))

instance (c : Char) : Decidable (NamePart c) := inferInstanceAs (Decidable (_ ∨ _))

def NameText : List Char → Prop
  | [] => False
  | c :: cs => NameStart c ∧ ∀ d ∈ cs, NamePart d

instance : (cs : List Char) → Decidable (NameText cs)
  | [] => isFalse id
  | c :: cs => @instDecidableAnd (NameStart c) (∀ d ∈ cs, NamePart d) _ (List.decidableBAll _ cs)

/-- What stands behind a name or a closing bracket: nothing where `null` is allowed, otherwise a
mark. -/
inductive MarkText : Bool → List Char → Prop
  | absent : MarkText true []
  | present {gap : List Char} (hgap : Gap gap) : MarkText false (gap ++ ['!'])

/-- The texts of a type without gaps around them. -/
inductive TypeText : TypeRef → List Char → Prop
  | named {name mark : List Char} {nullable : Bool} (hname : NameText name)
    (hmark : MarkText nullable mark) :
    TypeText (.named (String.ofList name) nullable) (name ++ mark)
  | list {item : TypeRef} {nullable : Bool} {before text after mark : List Char}
    (hbefore : Gap before) (hitem : TypeText item text) (hafter : Gap after)
    (hmark : MarkText nullable mark) :
    TypeText (.list item nullable) ('[' :: (before ++ text ++ after) ++ [']'] ++ mark)

/-- The text is one of the texts of the type. -/
def TypeRef.Written (type : TypeRef) (text : String) : Prop :=
  ∃ before core after, text.toList = before ++ core ++ after ∧ Gap before ∧ Gap after ∧
    TypeText type core

section Name

private theorem isAlpha_iff {c : Char} :
    c.isAlpha = true ↔ ('A' ≤ c ∧ c ≤ 'Z') ∨ ('a' ≤ c ∧ c ≤ 'z') := by
  change (decide (c.val ≥ 'A'.val ∧ c.val ≤ 'Z'.val) ||
    (decide (c.val ≥ 'a'.val) && decide (c.val ≤ 'z'.val))) = true ↔ _
  rw [Bool.or_eq_true, Bool.and_eq_true, decide_eq_true_iff, decide_eq_true_iff,
    decide_eq_true_iff]
  exact Iff.rfl

private theorem isAlphanum_iff {c : Char} :
    c.isAlphanum = true ↔ c.isAlpha = true ∨ ('0' ≤ c ∧ c ≤ '9') := by
  change (c.isAlpha || (decide (c.val ≥ '0'.val) && decide (c.val ≤ '9'.val))) = true ↔ _
  rw [Bool.or_eq_true, Bool.and_eq_true, decide_eq_true_iff, decide_eq_true_iff]
  exact Iff.rfl

private theorem isNameStart_iff {c : Char} : isNameStart c = true ↔ NameStart c := by
  rw [isNameStart, Bool.or_eq_true, beq_iff_eq, isAlpha_iff, NameStart]

private theorem isNamePart_iff {c : Char} : isNamePart c = true ↔ NamePart c := by
  rw [isNamePart, Bool.or_eq_true, beq_iff_eq, isAlphanum_iff, isAlpha_iff, NamePart, NameStart,
    ← or_assoc]

theorem isName_iff {cs : List Char} : isName cs = true ↔ NameText cs := by
  cases cs with
  | nil => simp [isName, NameText]
  | cons c cs => simp [isName, NameText, isNameStart_iff, isNamePart_iff]

theorem NamePart.plain {c : Char} (h : NamePart c) :
    isBlank c = false ∧ c ≠ '[' ∧ c ≠ ']' ∧ c ≠ '!' := by
  have hcode : c.toNat = 95 ∨ (65 ≤ c.toNat ∧ c.toNat ≤ 90) ∨ (97 ≤ c.toNat ∧ c.toNat ≤ 122) ∨
      (48 ≤ c.toNat ∧ c.toNat ≤ 57) := by
    rcases h with (rfl | h | h) | h
    · exact Or.inl rfl
    · exact Or.inr (Or.inl h)
    · exact Or.inr (Or.inr (Or.inl h))
    · exact Or.inr (Or.inr (Or.inr h))
  refine ⟨?_, ?_, ?_, ?_⟩
  · rw [Bool.eq_false_iff]
    intro hblank
    obtain ⟨range, hrange, hlow, hhigh⟩ := CodeRanges.has_iff.mp hblank
    simp only [blankRanges, List.mem_cons, List.not_mem_nil, or_false] at hrange
    rcases hrange with rfl | rfl | rfl | rfl | rfl | rfl | rfl | rfl | rfl | rfl <;>
      dsimp only at hlow hhigh <;> omega
  all_goals
    rintro rfl
    revert hcode
    decide

theorem NameText.namePart {cs : List Char} (h : NameText cs) : ∀ c ∈ cs, NamePart c := by
  cases cs with
  | nil => exact absurd h id
  | cons d cs =>
    intro c hc
    rcases List.mem_cons.mp hc with rfl | hc
    · exact Or.inl h.1
    · exact h.2 c hc

theorem NameText.ne_nil {cs : List Char} (h : NameText cs) : cs ≠ [] := by
  rintro rfl
  exact h

end Name

section Mark

/-- A text that a mark may follow: it is tight and has no mark of its own at its end. -/
structure Markable (core : List Char) : Prop extends Tight core where
  ne_nil : core ≠ []
  unmarked : core.getLast? ≠ some '!'

private theorem NameText.markable {cs : List Char} (h : NameText cs) : Markable cs where
  head c hc := (h.namePart c (List.mem_of_head? hc)).plain.1
  last c hc := (h.namePart c (List.mem_of_getLast? hc)).plain.1
  ne_nil := h.ne_nil
  unmarked hlast := (h.namePart '!' (List.mem_of_getLast? hlast)).plain.2.2.2 rfl

private theorem markable_brackets (inner : List Char) : Markable ('[' :: inner ++ [']']) where
  head c hc := by
    obtain rfl : '[' = c := by simpa using hc
    decide
  last c hc := by
    rw [List.getLast?_concat] at hc
    obtain rfl := Option.some.inj hc
    decide
  ne_nil := by simp
  unmarked := by
    rw [List.getLast?_concat]
    decide

private theorem Markable.tight_append {core mark : List Char} {nullable : Bool} (h : Markable core)
    (hmark : MarkText nullable mark) : Tight (core ++ mark) where
  head c hc := by
    obtain ⟨d, rest, rfl⟩ := List.exists_cons_of_ne_nil h.ne_nil
    exact h.head c hc
  last c hc := by
    cases hmark with
    | absent =>
      rw [List.append_nil] at hc
      exact h.last c hc
    | present hgap =>
      rw [← List.append_assoc, List.getLast?_concat] at hc
      obtain rfl := Option.some.inj hc
      decide

private theorem TypeText.tight {type : TypeRef} {core : List Char} (h : TypeText type core) :
    Tight core := by
  cases h with
  | named hname hmark => exact hname.markable.tight_append hmark
  | list _ _ _ hmark => exact (markable_brackets _).tight_append hmark

theorem TypeText.ne_nil {type : TypeRef} {core : List Char} (h : TypeText type core) :
    core ≠ [] := by
  cases h with
  | named hname hmark => exact List.append_ne_nil_of_left_ne_nil hname.ne_nil _
  | list _ _ _ hmark => simp

private theorem beforeLast?_concat (c : Char) (cs : List Char) :
    beforeLast? c (cs ++ [c]) = some cs := by
  rw [beforeLast?, List.getLast?_concat, if_pos rfl, List.dropLast_concat]

theorem beforeLast?_eq_some {c : Char} {cs before : List Char} :
    beforeLast? c cs = some before ↔ cs = before ++ [c] := by
  constructor
  · intro h
    rw [beforeLast?] at h
    split at h
    next hlast =>
      obtain rfl := Option.some.inj h
      exact (List.dropLast_append_getLast? c hlast).symm
    next => cases h
  · rintro rfl
    exact beforeLast?_concat c before

namespace TypeRef

private theorem splitMark_append {core mark : List Char} {nullable : Bool} (h : Markable core)
    (hmark : MarkText nullable mark) : splitMark (core ++ mark) = (core, nullable) := by
  cases hmark with
  | absent =>
    rw [List.append_nil, splitMark, beforeLast?, if_neg h.unmarked]
  | present hgap =>
    rw [← List.append_assoc, splitMark, beforeLast?_concat]
    simp only [trimEnd_append hgap, trimEnd_of_last h.last]

theorem exists_splitMark (cs : List Char) :
    ∃ mark, MarkText (splitMark cs).2 mark ∧ cs = (splitMark cs).1 ++ mark := by
  rw [splitMark]
  split
  next body hbody =>
    obtain ⟨gap, hgap, hend⟩ := exists_trimEnd body
    refine ⟨gap ++ ['!'], .present hgap, ?_⟩
    rw [← List.append_assoc, ← hend]
    exact beforeLast?_eq_some.mp hbody
  next => exact ⟨[], .absent, (List.append_nil cs).symm⟩

end TypeRef
end Mark

namespace TypeRef

private theorem typeText_of_parseTrimmed {whole : String} {cs : List Char} {type : TypeRef}
    (h : parseTrimmed whole cs = .ok type) : TypeText type cs := by
  fun_induction parseTrimmed whole cs generalizing type with
  | case1 => cases h
  | case2 => cases h
  | case3 cs rest hsplit item hlast hitem ih =>
    obtain ⟨mark, hmark, hcs⟩ := exists_splitMark cs
    obtain ⟨before, after, hbefore, hafter, htrim⟩ := exists_trim item
    cases hinner : parseTrimmed whole (trim item) with
    | error cause =>
      rw [hinner] at h
      cases h
    | ok inner =>
      rw [hinner] at h
      obtain rfl := Except.ok.inj h
      have hlist := TypeText.list hbefore (ih hinner) hafter hmark
      rw [← htrim, List.cons_append, ← beforeLast?_eq_some.mp hlast, ← hsplit, ← hcs] at hlist
      exact hlist
  | case4 => cases h
  | case5 cs _ hbrackets hname =>
    obtain rfl := Except.ok.inj h
    obtain ⟨mark, hmark, hcs⟩ := exists_splitMark cs
    have hnamed := TypeText.named (isName_iff.mp hname) hmark
    rw [← hcs] at hnamed
    exact hnamed
  | case6 => cases h

private theorem parseTrimmed_of_typeText (whole : String) {type : TypeRef} {cs : List Char}
    (h : TypeText type cs) : parseTrimmed whole cs = .ok type := by
  induction h with
  | @named name mark nullable hname hmark =>
    have hsplit := splitMark_append hname.markable hmark
    rw [parseTrimmed]
    split
    next rest hbody =>
      rw [hsplit] at hbody
      have hopen : '[' ∈ name := by
        rw [show name = '[' :: rest from hbody]
        exact List.mem_cons_self
      exact absurd rfl (hname.namePart '[' hopen).plain.2.1
    next =>
      have hbrackets : ¬ ('[' ∈ name ∨ ']' ∈ name) := by
        rintro (hopen | hclose)
        · exact (hname.namePart '[' hopen).plain.2.1 rfl
        · exact (hname.namePart ']' hclose).plain.2.2.1 rfl
      rw [hsplit]
      dsimp only
      rw [if_neg hbrackets, if_pos (isName_iff.mpr hname)]
  | @list item nullable before text after mark hbefore hitem hafter hmark ih =>
    have hsplit := splitMark_append (markable_brackets (before ++ text ++ after)) hmark
    rw [parseTrimmed]
    split
    next rest hbody =>
      rw [hsplit] at hbody
      obtain rfl : before ++ text ++ after ++ [']'] = rest := (List.cons.inj hbody).2
      split
      next hnone => rw [beforeLast?_concat] at hnone; cases hnone
      next inner hlast =>
        rw [beforeLast?_concat] at hlast
        obtain rfl := Option.some.inj hlast
        rw [trim_of_tight hbefore hitem.tight hafter, if_neg hitem.ne_nil, ih, hsplit]
        rfl
    next hopen =>
      rw [hsplit] at hopen
      exact absurd rfl (hopen _)

theorem parse_eq_ok_iff {text : String} {type : TypeRef} :
    parse text = .ok type ↔ type.Written text := by
  rw [parse]
  constructor
  · intro h
    split at h
    next => cases h
    next =>
      obtain ⟨before, after, hbefore, hafter, htrim⟩ := exists_trim text.toList
      exact ⟨before, _, after, htrim, hbefore, hafter, typeText_of_parseTrimmed h⟩
  · rintro ⟨before, core, after, htext, hbefore, hafter, hcore⟩
    rw [htext, trim_of_tight hbefore hcore.tight hafter, if_neg hcore.ne_nil]
    exact parseTrimmed_of_typeText text hcore

/-- A text is read as a type exactly if the grammar has it for that type. It has it for no other type,
and a text that the grammar has for no type is rejected. -/
theorem parse_ok_iff_written (text : String) :
    (∀ type, parse text = .ok type ↔ type.Written text) ∧
      (∀ type other : TypeRef, type.Written text → other.Written text → type = other) ∧
      ((∃ cause, parse text = .error cause) ↔ ∀ type : TypeRef, ¬ type.Written text) := by
  refine ⟨fun type => parse_eq_ok_iff, ?_, ?_⟩
  · intro type other htype hother
    have h := (parse_eq_ok_iff.mpr htype).symm.trans (parse_eq_ok_iff.mpr hother)
    exact Except.ok.inj h
  · constructor
    · rintro ⟨cause, hcause⟩ type htype
      rw [parse_eq_ok_iff.mpr htype] at hcause
      cases hcause
    · intro hnone
      cases hparse : parse text with
      | error cause => exact ⟨cause, rfl⟩
      | ok type => exact absurd (parse_eq_ok_iff.mp hparse) (hnone type)

/-- A list of lists with gaps wherever the grammar has them. -/
def usersText : String := " [\u2003[User ! ] ] !\n"

def usersType : TypeRef := .list (.list (.named "User" false) true) false

theorem written_users : usersType.Written usersText := by
  have hmark : MarkText false ([' '] ++ ['!']) := .present (by decide)
  have hname : TypeText (.named "User" false) (['U', 's', 'e', 'r'] ++ ([' '] ++ ['!'])) :=
    .named (by decide) hmark
  have hinner : TypeText (.list (.named "User" false) true)
      ('[' :: ([] ++ (['U', 's', 'e', 'r'] ++ ([' '] ++ ['!'])) ++ [' ']) ++ [']'] ++ []) :=
    .list (by decide) hname (by decide) .absent
  have houter := TypeText.list (by decide : Gap ['\u2003']) hinner (by decide : Gap [' ']) hmark
  exact ⟨[' '], _, ['\n'], by decide, by decide, by decide, houter⟩

/-- A text with gaps everywhere is read as its type. A second mark, text or a list behind a closing
bracket, empty brackets and a gap inside a name are all outside the grammar. -/
theorem parse_users :
    parse usersText = .ok usersType ∧
      (∀ other : TypeRef, other.Written usersText → usersType = other) ∧
      ∀ text ∈ ["Int!!", "[Int]x", "[A][B]", "[ ]", "A B"], ∀ type : TypeRef,
        ¬ type.Written text := by
  refine ⟨((parse_ok_iff_written usersText).1 usersType).mpr written_users, ?_, ?_⟩
  · intro other hother
    exact (parse_ok_iff_written usersText).2.1 usersType other written_users hother
  · intro text htext
    have hrejected : ∀ text ∈ ["Int!!", "[Int]x", "[A][B]", "[ ]", "A B"],
        (parse text).isOk = false := by decide +kernel
    apply (parse_ok_iff_written text).2.2.mp
    cases hparse : parse text with
    | error cause => exact ⟨cause, rfl⟩
    | ok type =>
      have h := hrejected text htext
      rw [hparse] at h
      cases h

end TypeRef
end ResultLayout
