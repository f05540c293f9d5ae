/-!
# JSON values

Values with ordered object members, and their two texts: the compact one without any blanks, and the
indented one with two spaces for each level.
-/
namespace ResultLayout

inductive Json where
  | null
  | bool (value : Bool)
  | string (text : String)
  | array (items : List Json)
  | object (members : List (String × Json))

namespace Json

def hexDigit (n : Nat) : Char := Char.ofNat (if n < 10 then '0'.toNat + n else 'a'.toNat + (n - 10))

/-- How a character is written inside a string. Only the quote, the backslash and the control
characters are escaped, the latter by their short escapes where these exist. -/
def escape (c : Char) : List Char :=
  if c = '"' then ['\\', '"']
  else if c = '\\' then ['\\', '\\']
  else if c = '\x08' then ['\\', 'b']
  else if c = '\x0c' then ['\\', 'f']
  else if c = '\n' then ['\\', 'n']
  else if c = '\r' then ['\\', 'r']
  else if c = '\t' then ['\\', 't']
  else if c.toNat < 0x20 then
    ['\\', 'u', '0', '0', hexDigit (c.toNat / 16), hexDigit (c.toNat % 16)]
  else [c]

def quote (text : String) : String :=
  "\"" ++ String.ofList (text.toList.flatMap escape) ++ "\""

def ofOption (text : Option String) : Json :=
  match text with
  | some text => .string text
  | none => .null

def ofStrings (texts : List String) : Json := .array (texts.map .string)

/-- The text of a value without blanks. -/
def compact : Json → String
  | null => "null"
  | bool value => if value then "true" else "false"
  | string text => quote text
  | array items => "[" ++ compactItems items ++ "]"
  | object members => "\x7b" ++ compactMembers members ++ "\x7d"
where
  compactItems : List Json → String
    | [] => ""
    | [item] => item.compact
    | item :: items => item.compact ++ "," ++ compactItems items
  compactMembers : List (String × Json) → String
    | [] => ""
    | [(key, value)] => quote key ++ ":" ++ value.compact
    | (key, value) :: members => quote key ++ ":" ++ value.compact ++ "," ++ compactMembers members

/-- A new line, indented by two spaces for each level. -/
def newLine (level : Nat) : String := "\n" ++ String.ofList (List.replicate (2 * level) ' ')

/-- The text of a value with one item or member on each line. Empty containers stay on one line. -/
def pretty (level : Nat) : Json → String
  | null => "null"
  | bool value => if value then "true" else "false"
  | string text => quote text
  | array [] => "[]"
  | array (item :: items) =>
    "[" ++ prettyItems (level + 1) (item :: items) ++ newLine level ++ "]"
  | object [] => "\x7b\x7d"
  | object (member :: members) =>
    "\x7b" ++ prettyMembers (level + 1) (member :: members) ++ newLine level ++ "\x7d"
where
  prettyItems (level : Nat) : List Json → String
    | [] => ""
    | [item] => newLine level ++ item.pretty level
    | item :: items => newLine level ++ item.pretty level ++ "," ++ prettyItems level items
  prettyMembers (level : Nat) : List (String × Json) → String
    | [] => ""
    | [(key, value)] => newLine level ++ quote key ++ ": " ++ value.pretty level
    | (key, value) :: members =>
      newLine level ++ quote key ++ ": " ++ value.pretty level ++ "," ++
        prettyMembers level members

end Json
end ResultLayout
