import ResultLayout.Document.TypeDeclaration
/-!
# Leaf types

A field without a selection of its own is a leaf. What kind of leaf it is depends on the name of its
innermost type alone: one of the five scalars of the language, an enum that the document declares,
or a scalar of the schema, for which the settings may give a type of the target language.
-/
namespace ResultLayout

inductive BuiltinScalar where
  | boolean
  | float
  | id
  | int
  | string
deriving DecidableEq, Repr

namespace BuiltinScalar

def name : BuiltinScalar → String
  | boolean => "Boolean"
  | float => "Float"
  | id => "ID"
  | int => "Int"
  | string => "String"

def all : List BuiltinScalar := [boolean, float, id, int, string]

def ofName? (name : String) : Option BuiltinScalar := all.find? (·.name == name)

theorem ofName?_name (scalar : BuiltinScalar) : ofName? scalar.name = some scalar := by
  cases scalar <;> decide

end BuiltinScalar

/-- What a member's innermost type is for the layout. -/
inductive LeafKind where
  /-- The member has a selection and a record of its own. -/
  | composite
  | customScalar (mappedType : Option String)
  | enum
  | scalar (scalar : BuiltinScalar)
deriving DecidableEq, Repr

def LeafKind.isComposite : LeafKind → Bool
  | composite => true
  | _ => false

/-- What is known about the schema: the names of its enums, and the configured types of its
scalars. -/
structure LeafResolver where
  enumNames : List String
  customTypes : List (String × String)

namespace LeafResolver

def ofDeclarations (declarations : List TypeDeclaration) (customTypes : List (String × String)) :
    LeafResolver where
  enumNames := (declarations.filter (·.kind == .enumType)).map (·.name)
  customTypes := customTypes

/-- A built-in scalar wins over an enum of its name, and an enum over a configured scalar. -/
def resolve (resolver : LeafResolver) (typeName : String) : LeafKind :=
  match BuiltinScalar.ofName? typeName with
  | some scalar => .scalar scalar
  | none =>
    if typeName ∈ resolver.enumNames then .enum
    else .customScalar (resolver.customTypes.lookup typeName)

instance : CoeFun LeafResolver fun _ => String → LeafKind := ⟨resolve⟩

end LeafResolver
end ResultLayout
