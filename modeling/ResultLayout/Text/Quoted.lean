import ResultLayout.Text.Unshown
/-!
# Quoted text in messages

Messages quote texts and paths so that every character can be told: quotation marks, backslashes and
characters that would not show are escaped.
-/
namespace ResultLayout.Text

/-- A character written by its number. -/
def numbered (c : Char) : List Char := ['\\', 'u', '\x7b'] ++ Nat.toDigits 16 c.toNat ++ ['\x7d']

/-- How a character of a quoted text is written. -/
def showChar (c : Char) : List Char :=
  if c = '\x00' then ['\\', '0']
  else if c = '\t' then ['\\', 't']
  else if c = '\r' then ['\\', 'r']
  else if c = '\n' then ['\\', 'n']
  else if c = '"' ∨ c = '\\' then ['\\', c]
  else if isUnshown c then numbered c
  else [c]

def quoted (text : String) : String := "\"" ++ String.ofList (text.toList.flatMap showChar) ++ "\""

example : quoted "it's \"\n" = "\"it's \\\"\\n\"" := by decide +kernel

end ResultLayout.Text
