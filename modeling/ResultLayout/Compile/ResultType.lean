import ResultLayout.Descriptor
import ResultLayout.Document.OperationKind
/-!
# Result types

The compiled form of one operation: its name and kind, the record of its result, and what an emitter
needs to know besides.
-/
namespace ResultLayout

/-- What an emitted type must declare to be able to do. -/
inductive Capability where
  /-- The type is the result of an operation. -/
  | operationData
deriving DecidableEq, Repr

def Capability.name : Capability → String
  | operationData => "OperationData"

structure TypedVariable where
  name : String
  type : TypeRef
deriving DecidableEq, Repr

/-- Where an operation comes from; carried along unchanged. -/
structure Provenance where
  operationId : String
  filePath : String
  fragmentsReferenced : List String
deriving DecidableEq, Repr

structure ResultType where
  operationName : String
  kind : OperationKind
  data : RecordType
  conformsTo : List Capability
  withBuilder : Bool
  variableDefinitions : List TypedVariable
  sourceText : String
  provenance : Provenance

end ResultLayout
