import ResultLayout.Json.Value
import ResultLayout.Proofs.Json.Accepted
/-!
# Printed JSON

The indented text of a value, said by the characters that stand in it. Items and members stand on
lines of their own, two spaces further in than what holds them, and strings escape only what cannot
stand for itself. Each value has one such text. It is the one that is printed, and it is JSON.
-/
namespace ResultLayout.Written

/-- The text of a character in a printed string. -/
inductive PlainCharText : Char → List Char → Prop
  | unescaped {c : Char} (h : Unescaped c) : PlainCharText c [c]
  | short {letter c : Char} (h : (letter, c) ∈ shortEscapes) (hescaped : ¬ Unescaped c) :
    PlainCharText c ['\\', letter]
  | unit {c high low : Char} (hcontrol : c.toNat < 0x20)
    (hlong : ∀ letter, (letter, c) ∉ shortEscapes)
    (hhigh : "0123456789abcdef".toList[c.toNat / 16]? = some high)
    (hlow : "0123456789abcdef".toList[c.toNat % 16]? = some low) :
    PlainCharText c ['\\', 'u', '0', '0', high, low]

def PlainText (value : String) (s : List Char) : Prop :=
  ∃ texts, List.Forall₂ PlainCharText value.toList texts ∧ s = quoted texts.flatten

def lineBreak (level : Nat) : List Char := '\n' :: List.replicate (2 * level) ' '

/-- Texts between brackets, with commas between them and each on a line of its own. -/
def block (level : Nat) (opening closing : Char) : List (List Char) → List Char
  | [] => [opening, closing]
  | texts =>
    opening :: ([','].intercalate (texts.map (lineBreak (level + 1) ++ ·)) ++
      (lineBreak level ++ [closing]))

/-- A member of an object with the texts of its key and of its value. -/
structure PrintedMember where
  key : String
  value : Json
  keyText : List Char
  valueText : List Char

/-- The text of a value that stands at a level. -/
inductive Printed : Nat → Json → List Char → Prop
  | null {level : Nat} : Printed level .null ['n', 'u', 'l', 'l']
  | bool {level : Nat} {value : Bool} {s : List Char} (h : FlagText value s) :
    Printed level (.bool value) s
  | string {level : Nat} {value : String} {s : List Char} (h : PlainText value s) :
    Printed level (.string value) s
  | array {level : Nat} {items : List (Json × List Char)}
    (hitems : ∀ item ∈ items, Printed (level + 1) item.1 item.2) :
    Printed level (.array (items.map (·.1))) (block level '[' ']' (items.map (·.2)))
  | object {level : Nat} {members : List PrintedMember}
    (hkeys : ∀ member ∈ members, PlainText member.key member.keyText)
    (hvalues : ∀ member ∈ members, Printed (level + 1) member.value member.valueText) :
    Printed level (.object (members.map fun member => (member.key, member.value)))
      (block level '\x7b' '\x7d'
        (members.map fun member => member.keyText ++ ':' :: ' ' :: member.valueText))

/-! ## The printer -/

private theorem PlainCharText.charText {c : Char} {s : List Char} (h : PlainCharText c s) :
    CharText c s := by
  cases h with
  | unescaped h => exact .unescaped h
  | short h _ => exact .short h
  | @unit _ high low _ _ hhigh hlow =>
    have hzero : HexDigit 0 '0' := Or.inl (by decide)
    have hhighDigit : HexDigit (c.toNat / 16) high := Or.inl hhigh
    have hlowDigit : HexDigit (c.toNat % 16) low := Or.inl hlow
    have hunit := HexUnit.digits hzero hzero hhighDigit hlowDigit
    have hnumber : ((0 * 16 + 0) * 16 + c.toNat / 16) * 16 + c.toNat % 16 = c.toNat := by omega
    rw [hnumber] at hunit
    exact .unit hunit

private theorem PlainText.stringText {value : String} {s : List Char} (h : PlainText value s) :
    StringText value s := by
  obtain ⟨texts, htexts, rfl⟩ := h
  refine ⟨texts.flatten, ?_, rfl⟩
  generalize value.toList = cs at htexts
  induction htexts with
  | nil => exact .nil
  | cons hc _ ih => exact .cons hc.charText ih

private theorem gap_lineBreak (level : Nat) : Gap (lineBreak level) := by
  intro c hc
  rcases List.mem_cons.mp hc with rfl | hspace
  · exact Or.inr (Or.inl rfl)
  · exact Or.inl (List.eq_of_mem_replicate hspace)

private theorem commaList_intercalate {before after : List Char} (hbefore : Gap before)
    (hafter : Gap after) (text : List Char) (texts : List (List Char)) :
    CommaList (text :: texts) ([','].intercalate ((text :: texts).map (before ++ ·)) ++ after) := by
  have hnone : Gap [] := fun _ hc => absurd hc List.not_mem_nil
  induction texts generalizing text with
  | nil => simpa using @CommaList.one before text after hbefore hafter
  | cons next rest ih => simpa using @CommaList.more before text [] _ _ hbefore hnone (ih next)

private theorem exists_items_block (level : Nat) (opening closing : Char)
    (texts : List (List Char)) :
    ∃ inner, Items texts inner ∧
      block level opening closing texts = opening :: (inner ++ [closing]) := by
  cases texts with
  | nil => exact ⟨[], .none fun _ hc => absurd hc List.not_mem_nil, rfl⟩
  | cons text texts =>
    have hlist := commaList_intercalate (gap_lineBreak (level + 1)) (gap_lineBreak level) text texts
    exact ⟨_, .some hlist, by simp [block]⟩

/-- What is printed is JSON. -/
theorem Printed.jsonText {level : Nat} {value : Json} {s : List Char} (h : Printed level value s) :
    JsonText s := by
  induction h with
  | null => exact .null
  | bool h =>
    cases h with
    | true => exact .true
    | false => exact .false
  | string h => exact .string (Scan.rawString_of_stringText h.stringText)
  | @array level items hitems ih =>
    have hblock := exists_items_block level '[' ']' (items.map (·.2))
    exact .array (List.forall_mem_map.mpr ih) hblock
  | @object level members hkeys hvalues ih =>
    have hspace : Gap [' '] := by simp [Gap]
    let written (member : PrintedMember) : MemberText :=
      ⟨member.keyText, [], [' '], member.valueText, fun _ hc => absurd hc List.not_mem_nil, hspace⟩
    have htexts : (members.map written).map MemberText.text =
        members.map fun member => member.keyText ++ ':' :: ' ' :: member.valueText := by
      simp [written, MemberText.text]
    have hblock := exists_items_block level '\x7b' '\x7d'
      ((members.map written).map MemberText.text)
    have hwrittenKeys : ∀ member ∈ members.map written, RawString member.key :=
      List.forall_mem_map.mpr fun member hmem =>
        Scan.rawString_of_stringText (hkeys member hmem).stringText
    have hwrittenValues : ∀ member ∈ members.map written, JsonText member.value :=
      List.forall_mem_map.mpr ih
    rw [← htexts]
    exact .object hwrittenKeys hwrittenValues hblock

end ResultLayout.Written
