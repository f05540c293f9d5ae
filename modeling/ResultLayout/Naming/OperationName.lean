import ResultLayout.Document.Basic
import ResultLayout.Layout.Error
import ResultLayout.Naming.Capitalize
/-!
# Canonical operation names

An operation is known by its capitalized name. Semantic naming puts the kind of the operation behind
a name that does not end with it already, so that doing it twice changes nothing.
-/
namespace ResultLayout

/-- Puts the suffix of the kind behind a name that lacks it, if naming is semantic. -/
def OperationKind.appendTo (kind : OperationKind) (base : String) (semantic : Bool) : String :=
  if semantic && !kind.suffix.toList.isSuffixOf base.toList then base ++ kind.suffix else base

namespace Operation

/-- The kind of the operation; its spelling is checked whatever the way of naming. -/
def kind (operation : Operation) : Except CompileError OperationKind :=
  match operation.kind? with
  | some kind => .ok kind
  | none =>
    .error (.unknownOperationKind operation.name operation.kindName operation.location)

/-- The name of an operation of a known kind. -/
def nameAs (operation : Operation) (kind : OperationKind) (semantic : Bool) : String :=
  kind.appendTo (capitalize operation.name) semantic

def canonicalName (operation : Operation) (semantic : Bool) : Except CompileError String :=
  operation.kind.map fun kind => operation.nameAs kind semantic

end Operation
end ResultLayout
