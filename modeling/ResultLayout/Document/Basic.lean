import ResultLayout.Document.Location
import ResultLayout.Document.OperationKind
import ResultLayout.Document.Selection
import ResultLayout.Document.TypeDeclaration
/-!
# Documents

A document holds the operations and named fragments of one or more source files, with the schema
types that they use.
-/
namespace ResultLayout

/-- A named fragment. -/
structure Fragment where
  name : String
  source : String := ""
  typeCondition : String
  possibleTypes : List String := []
  selection : SelectionSet := .empty
  filePath : String := ""

namespace Fragment

def location (fragment : Fragment) : SourceLocation := .ofPath fragment.filePath

/-- The names spread anywhere in the fragment's body, repeats included. -/
def spreadNames (fragment : Fragment) : List String := fragment.selection.spreadNames

end Fragment

structure Variable where
  name : String
  /-- The declared type of the variable, not yet read. -/
  typeText : String
deriving DecidableEq, Repr

/-- A named operation. Its kind is kept as it was spelled. -/
structure Operation where
  name : String
  kindName : String
  variableDefinitions : List Variable := []
  source : String := ""
  fields : List Field := []
  filePath : String := ""
  /-- The fragments that the operation reaches, each once. -/
  fragmentsReferenced : List String := []
  operationId : String := ""

namespace Operation

def location (operation : Operation) : SourceLocation := .ofPath operation.filePath

def kind? (operation : Operation) : Option OperationKind :=
  OperationKind.ofName? operation.kindName

def isOfKind (operation : Operation) (kind : OperationKind) : Bool :=
  operation.kindName == kind.name

end Operation

structure Document where
  operations : List Operation := []
  fragments : List Fragment := []
  typesUsed : List TypeDeclaration := []

end ResultLayout
