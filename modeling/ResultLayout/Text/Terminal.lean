import ResultLayout.Text.Quoted
/-!
# Text for terminals

A terminal obeys some control characters: those that begin its commands, ring the bell, step back,
feed a form or delete, and the second block of controls. Text that may hold anything is written with
these characters escaped. All others stay as they are, tabs and line ends among them.
-/
namespace ResultLayout.Text

/-- How a character is written to a terminal. -/
def terminalChar (c : Char) : List Char :=
  if c = '\x07' then ['\\', 'x', '0', '7']
  else if c = '\x08' then ['\\', 'x', '0', '8']
  else if c = '\x0c' then ['\\', 'x', '0', 'c']
  else if c = '\x1b' then ['\\', 'x', '1', 'b']
  else if c = '\x7f' then ['\\', 'x', '7', 'f']
  else if 0x80 ≤ c.toNat ∧ c.toNat ≤ 0x9F then numbered c
  else [c]

def forTerminal (text : String) : String := String.ofList (text.toList.flatMap terminalChar)

example : forTerminal "a\x1bb\tc" = "a\\x1bb\tc" := by decide +kernel

end ResultLayout.Text
