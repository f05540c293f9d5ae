/-!
# Settings

Options that steer the compilation of operations.
-/
namespace ResultLayout

structure Settings where
  /-- Puts the kind of an operation behind its name. -/
  useSemanticNaming : Bool := true
  /-- Asks for a builder of each result type. -/
  generateModelBuilder : Bool := false
  /-- Types of the target language for the scalars of the schema, in the order of the settings. -/
  customTypeMap : List (String × String) := []
deriving DecidableEq, Repr

end ResultLayout
