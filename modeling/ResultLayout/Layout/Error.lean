import ResultLayout.Descriptor
import ResultLayout.Document.Location
/-!
# Compile errors

Why an operation has no result type.
-/
namespace ResultLayout

/-- What a contribution says about its member: the schema field and its type. -/
structure FieldShape where
  fieldName : String
  type : TypeRef
deriving DecidableEq, Repr

def FieldShape.render (shape : FieldShape) : String := shape.fieldName ++ ": " ++ shape.type.render

inductive CompileError where
  /-- Two contributions to one member cannot be merged. -/
  | conflictingShapes (parentTypeName responseName : String)
      (firstShape : FieldShape) (firstSource : FieldSource)
      (secondShape : FieldShape) (secondSource : FieldSource)
  /-- The declared type of the field or variable `name` cannot be read. -/
  | malformedType (name : String) (cause : TypeRefError)
  | unknownOperationKind (operationName kindName : String) (location : SourceLocation)
  | undefinedFragment (fragmentName : String)
deriving DecidableEq, Repr

def CompileError.message : CompileError → String
  | conflictingShapes parentTypeName responseName firstShape firstSource secondShape secondSource =>
    "Conflicting selections for `" ++ responseName ++ "` on `" ++ parentTypeName ++ "`: `" ++
      firstShape.render ++ "` (from " ++ firstSource.render ++ ") vs `" ++
      secondShape.render ++ "` (from " ++ secondSource.render ++ ")"
  | malformedType name cause =>
    "`" ++ name ++ "` declares a malformed type reference: " ++ cause.message
  | unknownOperationKind operationName kindName location =>
    "Operation `" ++ operationName ++ "` (" ++ location.render ++
      ") has an unrecognized operation type `" ++ kindName ++
      "`; expected one of `query`, `mutation`, or `subscription`"
  | undefinedFragment fragmentName =>
    "Reference to undefined fragment `" ++ fragmentName ++ "`"

end ResultLayout
