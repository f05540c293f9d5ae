/-!
# Declared schema types

A document lists the schema types that its operations use. Only enums matter to the layout; their
values are carried along.
-/
namespace ResultLayout

inductive TypeDeclarationKind where
  | enumType
  | inputObjectType
  | other
deriving DecidableEq, Repr

/-- Every spelling other than the two known ones is a type of another kind. -/
def TypeDeclarationKind.ofName (name : String) : TypeDeclarationKind :=
  if name = "EnumType" then .enumType
  else if name = "InputObjectType" then .inputObjectType
  else .other

structure EnumValue where
  name : String
  description : Option String := none
  isDeprecated : Bool := false
deriving DecidableEq, Repr

structure TypeDeclaration where
  kind : TypeDeclarationKind
  name : String
  description : Option String := none
  values : List EnumValue := []
deriving DecidableEq, Repr

end ResultLayout
