import Mathlib.Data.List.Forall2
/-!
# The grammar of JSON

The texts that JSON has for a string, for the items of a container and for a value of any kind, as
relations that know of no reader. White space may stand around every token. Records are written as
objects or as arrays.

A string may be escaped in many ways, so one value has many texts. Where only the form of a value
counts, a string may also escape half a surrogate pair, which stands for no character.
-/
namespace ResultLayout.Written

/-- White space between two tokens. -/
def Gap (s : List Char) : Prop := ∀ c ∈ s, c = ' ' ∨ c = '\n' ∨ c = '\t' ∨ c = '\r'

/-! ## Strings -/

/-- A hexadecimal digit in either case. -/
def HexDigit (n : Nat) (c : Char) : Prop :=
  "0123456789abcdef".toList[n]? = some c ∨ "0123456789ABCDEF".toList[n]? = some c

/-- A number of 16 bits in four hexadecimal digits. -/
inductive HexUnit : Nat → List Char → Prop
  | digits {n₃ n₂ n₁ n₀ : Nat} {c₃ c₂ c₁ c₀ : Char} (h₃ : HexDigit n₃ c₃) (h₂ : HexDigit n₂ c₂)
    (h₁ : HexDigit n₁ c₁) (h₀ : HexDigit n₀ c₀) :
    HexUnit (((n₃ * 16 + n₂) * 16 + n₁) * 16 + n₀) [c₃, c₂, c₁, c₀]

/-- The letters of the short escapes with the characters they stand for. -/
def shortEscapes : List (Char × Char) :=
  [('"', '"'), ('\\', '\\'), ('/', '/'), ('b', '\x08'), ('f', '\x0c'), ('n', '\n'), ('r', '\r'),
    ('t', '\t')]

/-- A character that may stand for itself inside a string. -/
structure Unescaped (c : Char) : Prop where
  printable : 0x20 ≤ c.toNat
  ne_quote : c ≠ '"'
  ne_backslash : c ≠ '\\'

/-- The texts of a character inside a string. One beyond 16 bits is escaped as two surrogates. -/
inductive CharText : Char → List Char → Prop
  | unescaped {c : Char} (h : Unescaped c) : CharText c [c]
  | short {letter c : Char} (h : (letter, c) ∈ shortEscapes) : CharText c ['\\', letter]
  | unit {c : Char} {digits : List Char} (h : HexUnit c.toNat digits) :
    CharText c ('\\' :: 'u' :: digits)
  | surrogates {c : Char} {n : Nat} {leading trailing : List Char} (hc : c.toNat = 0x10000 + n)
    (hleading : HexUnit (0xD800 + n / 0x400) leading)
    (htrailing : HexUnit (0xDC00 + n % 0x400) trailing) :
    CharText c ('\\' :: 'u' :: (leading ++ '\\' :: 'u' :: trailing))

inductive CharsText : List Char → List Char → Prop
  | nil : CharsText [] []
  | cons {c : Char} {cs text rest : List Char} (hc : CharText c text) (hcs : CharsText cs rest) :
    CharsText (c :: cs) (text ++ rest)

def quoted (inner : List Char) : List Char := '"' :: (inner ++ ['"'])

/-- The texts of a string. -/
def StringText (value : String) (s : List Char) : Prop :=
  ∃ inner, CharsText value.toList inner ∧ s = quoted inner

/-- What may stand inside a string whose value does not count. -/
inductive RawChars : List Char → Prop
  | nil : RawChars []
  | unescaped {c : Char} {s : List Char} (hc : Unescaped c) (hs : RawChars s) : RawChars (c :: s)
  | short {letter c : Char} {s : List Char} (h : (letter, c) ∈ shortEscapes) (hs : RawChars s) :
    RawChars ('\\' :: letter :: s)
  | unit {n : Nat} {digits s : List Char} (h : HexUnit n digits) (hs : RawChars s) :
    RawChars ('\\' :: 'u' :: (digits ++ s))

def RawString (s : List Char) : Prop := ∃ inner, RawChars inner ∧ s = quoted inner

/-! ## Key words -/

inductive FlagText : Bool → List Char → Prop
  | true : FlagText true ['t', 'r', 'u', 'e']
  | false : FlagText false ['f', 'a', 'l', 's', 'e']

/-- The texts of a string that may be absent. -/
inductive OptionText : Option String → List Char → Prop
  | null : OptionText none ['n', 'u', 'l', 'l']
  | string {value : String} {s : List Char} (h : StringText value s) : OptionText (some value) s

/-! ## Numbers -/

def Digits (s : List Char) : Prop := s ≠ [] ∧ ∀ c ∈ s, c.isDigit = true

/-- A whole number, which starts with a zero only if it is one. -/
inductive WholeText : List Char → Prop
  | zero : WholeText ['0']
  | digits {d : Char} {ds : List Char} (hd : d ≠ '0') (h : Digits (d :: ds)) : WholeText (d :: ds)

inductive FractionText : List Char → Prop
  | absent : FractionText []
  | present {digits : List Char} (h : Digits digits) : FractionText ('.' :: digits)

inductive ExponentText : List Char → Prop
  | absent : ExponentText []
  | present {mark : Char} {sign digits : List Char} (hmark : mark = 'e' ∨ mark = 'E')
    (hsign : sign = [] ∨ sign = ['+'] ∨ sign = ['-']) (h : Digits digits) :
    ExponentText (mark :: (sign ++ digits))

inductive NumberText : List Char → Prop
  | parts {sign whole fraction exponent : List Char} (hsign : sign = [] ∨ sign = ['-'])
    (hwhole : WholeText whole) (hfraction : FractionText fraction)
    (hexponent : ExponentText exponent) : NumberText (sign ++ (whole ++ (fraction ++ exponent)))

/-! ## Containers -/

/-- One or more texts with commas between them. -/
inductive CommaList : List (List Char) → List Char → Prop
  | one {before text after : List Char} (hbefore : Gap before) (hafter : Gap after) :
    CommaList [text] (before ++ (text ++ after))
  | more {before text after rest : List Char} {texts : List (List Char)} (hbefore : Gap before)
    (hafter : Gap after) (hrest : CommaList texts rest) :
    CommaList (text :: texts) (before ++ (text ++ (after ++ ',' :: rest)))

/-- Any number of texts with commas between them. -/
inductive Items : List (List Char) → List Char → Prop
  | none {gap : List Char} (hgap : Gap gap) : Items [] gap
  | some {texts : List (List Char)} {s : List Char} (h : CommaList texts s) : Items texts s

def InBrackets (texts : List (List Char)) (s : List Char) : Prop :=
  ∃ inner, Items texts inner ∧ s = '[' :: (inner ++ [']'])

def InBraces (texts : List (List Char)) (s : List Char) : Prop :=
  ∃ inner, Items texts inner ∧ s = '\x7b' :: (inner ++ ['\x7d'])

/-- A member of an object: its key and its value as they are written. -/
structure MemberText where
  key : List Char
  beforeColon : List Char
  behindColon : List Char
  value : List Char
  gap_beforeColon : Gap beforeColon
  gap_behindColon : Gap behindColon

def MemberText.text (member : MemberText) : List Char :=
  member.key ++ (member.beforeColon ++ ':' :: (member.behindColon ++ member.value))

/-- The texts of an array whose items have the given texts. -/
def ArrayText {α : Type} (ItemText : α → List Char → Prop) (as : List α) (s : List Char) : Prop :=
  ∃ texts, List.Forall₂ ItemText as texts ∧ InBrackets texts s

/-- A value of any kind. -/
inductive JsonText : List Char → Prop
  | null : JsonText ['n', 'u', 'l', 'l']
  | true : JsonText ['t', 'r', 'u', 'e']
  | false : JsonText ['f', 'a', 'l', 's', 'e']
  | string {s : List Char} (h : RawString s) : JsonText s
  | number {s : List Char} (h : NumberText s) : JsonText s
  | array {items : List (List Char)} {s : List Char} (hitems : ∀ item ∈ items, JsonText item)
    (h : InBrackets items s) : JsonText s
  | object {members : List MemberText} {s : List Char}
    (hkeys : ∀ member ∈ members, RawString member.key)
    (hvalues : ∀ member ∈ members, JsonText member.value)
    (h : InBraces (members.map MemberText.text) s) : JsonText s

/-! ## Records -/

/-- What is written for one field of a record: its key and the texts of its value. Nothing needs to
be written for a value that counts as the default. -/
structure Slot where
  key : String
  texts : List Char → Prop
  omittable : Prop

namespace Slot

variable {β : Type}

def required (key : String) (value : β) (texts : β → List Char → Prop) : Slot :=
  ⟨key, texts value, False⟩

def defaulted (key : String) (value default : β) (texts : β → List Char → Prop) : Slot :=
  ⟨key, texts value, value = default⟩

end Slot

/-- A member of an object with the name that its key is a text of. -/
structure NamedMember extends MemberText where
  name : String
  key_text : StringText name key

/-- The members write some of the slots, each once and in one of its texts. Members with other names
have any value. -/
structure Fills (slots : List Slot) (members : List NamedMember) : Prop where
  known : ∀ member ∈ members, ∀ slot ∈ slots, slot.key = member.name → slot.texts member.value
  unknown : ∀ member ∈ members, (∀ slot ∈ slots, slot.key ≠ member.name) → JsonText member.value
  once : ∀ slot ∈ slots, (members.map NamedMember.name).count slot.key ≤ 1

/-- The texts of a record: an object whose members stand in any order, or an array of the values of
the first slots. The other slots are left out. -/
inductive RecordText (slots : List Slot) : List Char → Prop
  | object {members : List NamedMember} {s : List Char} (hmembers : Fills slots members)
    (homitted : ∀ slot ∈ slots, slot.key ∉ members.map NamedMember.name → slot.omittable)
    (h : InBraces (members.map fun member => member.text) s) : RecordText slots s
  | array (n : Nat) {texts : List (List Char)} {s : List Char}
    (hwritten : List.Forall₂ Slot.texts (slots.take n) texts)
    (homitted : ∀ slot ∈ slots.drop n, slot.omittable) (h : InBrackets texts s) :
    RecordText slots s

end ResultLayout.Written
