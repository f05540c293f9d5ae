import ResultLayout.Text.Blank
/-!
# Type references

A type reference names a schema type, possibly inside list brackets, and says at every level whether
`null` may stand there: `[User!]!` is a list that is never null, of users that are never null. Its
text is read by peeling: first a closing `!`, then a pair of brackets, until a name is left.
White space may stand between any two of these parts.
-/
namespace ResultLayout
open Text

inductive TypeRef where
  | named (name : String) (nullable : Bool)
  | list (item : TypeRef) (nullable : Bool)
deriving DecidableEq, Repr

/-- Why a text is no type reference. -/
inductive TypeRefError where
  /-- Nothing stands where a type is due. -/
  | empty
  /-- What is left after peeling is no name. -/
  | invalidName (text : String)
  /-- A bracket has no partner in the whole text. -/
  | unbalancedBrackets (whole : String)
deriving DecidableEq, Repr

def TypeRefError.message : TypeRefError → String
  | .empty => "Type reference is empty"
  | .invalidName text => "`" ++ text ++ "` is not a valid GraphQL type name"
  | .unbalancedBrackets whole => "Type reference `" ++ whole ++ "` has unbalanced list brackets"

/-- A name starts with a letter or an underscore, and digits may follow. -/
def isNameStart (c : Char) : Bool := c == '_' || c.isAlpha

def isNamePart (c : Char) : Bool := c == '_' || c.isAlphanum

def isName : List Char → Bool
  | [] => false
  | c :: cs => isNameStart c && cs.all isNamePart

/-- What stands before a last character `c`. -/
def beforeLast? (c : Char) (cs : List Char) : Option (List Char) :=
  if cs.getLast? = some c then some cs.dropLast else none

private theorem length_of_beforeLast? {c : Char} {cs before : List Char}
    (h : beforeLast? c cs = some before) :
    before.length < cs.length := by
  unfold beforeLast? at h
  split at h
  next hlast =>
    obtain rfl := Option.some.inj h
    cases cs with
    | nil => simp at hlast
    | cons => simp
  next => simp at h

namespace TypeRef

/-- Splits off a closing `!`; the flag says that there is none, so that `null` is allowed. -/
def splitMark (cs : List Char) : List Char × Bool :=
  match beforeLast? '!' cs with
  | some body => (trimEnd body, false)
  | none => (cs, true)

private theorem length_splitMark_le (cs : List Char) : (splitMark cs).1.length ≤ cs.length := by
  unfold splitMark
  split
  next body h => exact Nat.le_trans (length_trimEnd_le _) (Nat.le_of_lt (length_of_beforeLast? h))
  next => exact Nat.le_refl _

/-- Reads a text without blanks at its ends; `whole` is the text that errors about brackets cite. -/
def parseTrimmed (whole : String) (cs : List Char) : Except TypeRefError TypeRef :=
  match _hsplit : (splitMark cs).1 with
  | '[' :: rest =>
    match _hlast : beforeLast? ']' rest with
    | none => .error (.unbalancedBrackets whole)
    | some item =>
      if trim item = [] then .error .empty
      else (parseTrimmed whole (trim item)).map (TypeRef.list · (splitMark cs).2)
  | body =>
    if '[' ∈ body ∨ ']' ∈ body then .error (.unbalancedBrackets whole)
    else if isName body then .ok (.named (String.ofList body) (splitMark cs).2)
    else .error (.invalidName (String.ofList body))
termination_by cs.length
decreasing_by
  have h1 := length_splitMark_le cs
  have h2 := length_of_beforeLast? _hlast
  have h3 := length_trim_le item
  rw [_hsplit] at h1
  simp only [List.length_cons] at h1
  omega

/-- Reads a type reference. -/
def parse (text : String) : Except TypeRefError TypeRef :=
  if trim text.toList = [] then .error .empty else parseTrimmed text (trim text.toList)

def innermostName : TypeRef → String
  | named name _ => name
  | list item _ => item.innermostName

def isList : TypeRef → Bool
  | named .. => false
  | list .. => true

def nullable : TypeRef → Bool
  | named _ nullable => nullable
  | list _ nullable => nullable

/-- Whether `null` is allowed at each level, the outermost list first and the name last. -/
def levels : TypeRef → List Bool
  | named _ nullable => [nullable]
  | list item nullable => nullable :: item.levels

def mark (nullable : Bool) : String := if nullable then "" else "!"

/-- The text of a type reference, without blanks. -/
def render : TypeRef → String
  | named name nullable => name ++ mark nullable
  | list item nullable => "[" ++ item.render ++ "]" ++ mark nullable

end TypeRef
end ResultLayout
