import ResultLayout.Text.Lowercase
import ResultLayout.Text.Uppercase
/-!
# Capitalized names

Type names start with a capital letter. Only the first character of a name is looked at, and it may
grow: `ß` becomes `SS`.
-/
namespace ResultLayout
open Text

def capitalizeChars : List Char → List Char
  | [] => []
  | c :: cs => if isLowercase c then uppercase c ++ cs else c :: cs

/-- The name with its first character in upper case, if that is lowercase. -/
def capitalize (name : String) : String := String.ofList (capitalizeChars name.toList)

theorem capitalize_empty : capitalize "" = "" := rfl

/-- The first character is replaced by its upper case exactly if it is lowercase, and the rest of the
name is kept. -/
theorem toList_capitalize {name : String} {c : Char} {cs : List Char} (h : name.toList = c :: cs) :
    (capitalize name).toList = (if isLowercase c then uppercase c else [c]) ++ cs := by
  rw [capitalize, String.toList_ofList, h, capitalizeChars]
  split <;> rfl

end ResultLayout
