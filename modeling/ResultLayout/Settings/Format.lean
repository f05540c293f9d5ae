import ResultLayout.Document.Format
import ResultLayout.Settings.Basic
/-!
# Settings as JSON

Every option may be left out.
-/
namespace ResultLayout
open Reader Entry

def settingsFormat (depth : Nat) : RecordFormat Settings where
  name := "CodeGenerationConfig"
  blank := {}
  entries := [
    allow "useSemanticNaming" flag fun useSemanticNaming settings =>
      { settings with useSemanticNaming },
    allow "generateModelBuilder" flag fun generateModelBuilder settings =>
      { settings with generateModelBuilder },
    allow "customTypeMap" (dictionary (0 < depth)) fun customTypeMap settings =>
      { settings with customTypeMap }]

def Settings.reader : Reader Settings :=
  recordAt "CodeGenerationConfig" settingsFormat greatestDepth

def Settings.parse (text : String) : Except Fault Settings := Settings.reader.readAll text

end ResultLayout
