import ResultLayout.Decimal.Shortest
import ResultLayout.Text.Quoted
/-!
# Faults of JSON documents

A document is read once from left to right, and the first fault met decides. A fault is of one of
three kinds: the text ends too early, the text is not JSON, or a value is not what the format asks
for at its place.
-/
namespace ResultLayout

/-- The value that stands where another was due. -/
inductive Found where
  | null
  | bool (value : Bool)
  | integer (value : Int)
  | float (negative : Bool) (value : Binary64)
  | string (text : String)
  | sequence
  | map
deriving DecidableEq, Repr

def Found.render : Found → String
  | null => "null"
  | bool value => "boolean `" ++ (if value then "true" else "false") ++ "`"
  | integer value => "integer `" ++ toString value ++ "`"
  | float negative value => "floating point `" ++ value.render negative ++ "`"
  | string text => "string " ++ Text.quoted text
  | sequence => "sequence"
  | map => "map"

inductive Fault where
  /-- The text ends inside a value. -/
  | unfinished
  /-- The text is not JSON, or its containers are nested too deeply. -/
  | malformed
  /-- A value of another type than the one `wanted`. -/
  | mismatch (found : Found) (wanted : String)
  | duplicateKey (key : String)
  | missingKey (key : String)
  /-- A record written as an array lacks the required entry that stands at index `length`. -/
  | tooShort (length : Nat) (record : String) (size : Nat)
deriving DecidableEq, Repr

inductive FaultCategory where
  | eof
  | syntaxFault
  | data
deriving DecidableEq, Repr

namespace Fault

def category : Fault → FaultCategory
  | unfinished => .eof
  | malformed => .syntaxFault
  | mismatch .. | duplicateKey _ | missingKey _ | tooShort .. => .data

/-- The text of a fault in the data; other faults have none. -/
def message : Fault → String
  | unfinished | malformed => ""
  | mismatch found wanted => "invalid type: " ++ found.render ++ ", expected " ++ wanted
  | duplicateKey key => "duplicate field `" ++ key ++ "`"
  | missingKey key => "missing field `" ++ key ++ "`"
  | tooShort length record size =>
    "invalid length " ++ toString length ++ ", expected struct " ++ record ++ " with " ++
      toString size ++ (if size = 1 then " element" else " elements")

end Fault

/-- What reading the front of a text gives: a value and the text behind it. -/
abbrev Outcome (α : Type) := Except Fault (α × List Char)

end ResultLayout
