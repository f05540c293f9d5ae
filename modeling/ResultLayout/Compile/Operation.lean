import ResultLayout.Compile.ResultType
import ResultLayout.Layout.Record
import ResultLayout.Naming.OperationName
import ResultLayout.Settings.Basic
/-!
# Compilation of operations

An operation is compiled in three steps, of which the first that fails decides: its kind is
recognised, its selection is laid out, and the types of its variables are read in order. Operations
share nothing but the settings, the fragments and the schema's leaf types, so that compiling many is
compiling each.
-/
namespace ResultLayout

/-- Reads the declared type of a variable. Errors cite the name with its dollar sign. -/
def Variable.typed (declared : Variable) : Except CompileError TypedVariable :=
  match TypeRef.parse declared.typeText with
  | .error cause => .error (.malformedType ("$" ++ declared.name) cause)
  | .ok type => .ok ⟨declared.name, type⟩

def typedVariables : List Variable → Except CompileError (List TypedVariable)
  | [] => .ok []
  | declared :: rest =>
    match declared.typed with
    | .error error => .error error
    | .ok typed => (typedVariables rest).map (typed :: ·)

/-- What the compilation of an operation depends on. -/
structure Compiler where
  settings : Settings
  registry : FragmentRegistry
  resolver : String → LeafKind

/-- An operation that was not compiled. -/
structure OperationFailure where
  filePath : String
  operationName : String
  error : CompileError
deriving DecidableEq, Repr

def OperationFailure.render (failure : OperationFailure) : String :=
  let path := if failure.filePath = "" then "<unknown file>" else failure.filePath
  path ++ ": " ++ failure.operationName ++ ": " ++ failure.error.message

/-- What became of some operations, each list in their order. -/
structure Report where
  generated : List ResultType
  failures : List OperationFailure

def Report.isSuccess (report : Report) : Bool := report.failures.isEmpty

/-- The names that the records of an operation must not take. -/
def Operation.reservedNames (operation : Operation) : NameAllocator :=
  operation.fragmentsReferenced.foldl NameAllocator.reserve .initial

namespace Compiler

/-- The compiler of a document's operations over its fragments and types. -/
def ofRegistry (settings : Settings) (document : Document) (registry : FragmentRegistry) :
    Compiler where
  settings := settings
  registry := registry
  resolver := LeafResolver.ofDeclarations document.typesUsed settings.customTypeMap

def compile (compiler : Compiler) (operation : Operation) : Except CompileError ResultType :=
  match operation.kind with
  | .error error => .error error
  | .ok kind =>
    match (layoutData compiler.registry compiler.resolver kind.suffix ⟨operation.fields, [], []⟩
        operation.reservedNames).1 with
    | .error error => .error error
    | .ok data =>
      match typedVariables operation.variableDefinitions with
      | .error error => .error error
      | .ok variableDefinitions =>
        .ok {
          operationName := operation.nameAs kind compiler.settings.useSemanticNaming
          kind, data, variableDefinitions
          conformsTo := [.operationData]
          withBuilder := compiler.settings.generateModelBuilder
          sourceText := operation.source
          provenance := {
            operationId := operation.operationId
            filePath := operation.filePath
            fragmentsReferenced := operation.fragmentsReferenced } }

/-- Compiles every operation; one that fails does not keep the others from being compiled. -/
def compileAll (compiler : Compiler) : List Operation → Report
  | [] => ⟨[], []⟩
  | operation :: operations =>
    let report := compiler.compileAll operations
    match compiler.compile operation with
    | .ok result => { report with generated := result :: report.generated }
    | .error error =>
      { report with failures := ⟨operation.filePath, operation.name, error⟩ :: report.failures }

end Compiler

/-- Compiles the operations of a document over its own fragments and types. Only a defective set of
fragments fails the document as a whole. -/
def Document.compile (document : Document) (settings : Settings) :
    Except (List RegistryError) Report :=
  (FragmentRegistry.ofFragments document.fragments).map fun registry =>
    (Compiler.ofRegistry settings document registry).compileAll document.operations

end ResultLayout
