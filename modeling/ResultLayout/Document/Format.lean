import ResultLayout.Document.Basic
import ResultLayout.Json.Depth
/-!
# Documents as JSON

The format in which documents are written: the entries of each record, in the order that counts when
the record is written as an array. Everything but names and types may be left out.

Containers may be nested 127 deep. Selections nest in fields, so their readers are defined by
recursion on the depth that is left. The readers of deeper selections are made when they are met.
-/
namespace ResultLayout
open Reader Entry

def variableFormat (_ : Nat) : RecordFormat Variable where
  name := "Variable"
  blank := ⟨"", ""⟩
  entries := [
    need "name" text fun name declared => { declared with name },
    need "type" text fun typeText declared => { declared with typeText }]

def enumValueFormat (_ : Nat) : RecordFormat EnumValue where
  name := "EnumValueDeclaration"
  blank := { name := "" }
  entries := [
    need "name" text fun name value => { value with name },
    allow "description" (orNull text) fun description value => { value with description },
    allow "isDeprecated" flag fun isDeprecated value => { value with isDeprecated }]

def typeDeclarationFormat (depth : Nat) : RecordFormat TypeDeclaration where
  name := "TypeDeclaration"
  blank := { kind := .other, name := "" }
  entries := [
    need "kind" (variant (0 < depth)) fun kind type => { type with kind := .ofName kind },
    need "name" text fun name type => { type with name },
    allow "description" (orNull text) fun description type => { type with description },
    allow "values" (listAt (recordAt "EnumValueDeclaration" enumValueFormat) depth)
      fun values type => { type with values }]

def inlineFragmentFormat (fields : Reader (List Field)) (depth : Nat) :
    RecordFormat InlineFragment where
  name := "InlineFragment"
  blank := ⟨"", [], [], []⟩
  entries := [
    need "typeCondition" text fun typeCondition fragment => { fragment with typeCondition },
    allow "possibleTypes" (textsAt depth) fun possibleTypes fragment =>
      { fragment with possibleTypes },
    allow "fields" fields fun fields fragment => { fragment with fields },
    allow "fragmentSpreads" (textsAt depth) fun spreads fragment => { fragment with spreads }]

def fieldFormat (fields : Reader (List Field)) (inlineFragments : Reader (List InlineFragment))
    (depth : Nat) : RecordFormat Field where
  name := "Field"
  blank := ⟨{ responseName := "", fieldName := "", typeText := "" }, .empty⟩
  entries := [
    need "responseName" text fun responseName field =>
      { field with head.responseName := responseName },
    need "fieldName" text fun fieldName field => { field with head.fieldName := fieldName },
    need "type" text fun typeText field => { field with head.typeText := typeText },
    allow "isConditional" flag fun isConditional field =>
      { field with head.isConditional := isConditional },
    allow "fields" fields fun fields field => { field with selection.fields := fields },
    allow "fragmentSpreads" (textsAt depth) fun spreads field =>
      { field with selection.spreads := spreads },
    allow "inlineFragments" inlineFragments fun inlineFragments field =>
      { field with selection.inlineFragments := inlineFragments },
    allow "description" (orNull text) fun description field =>
      { field with head.description := description },
    allow "isDeprecated" flag fun isDeprecated field =>
      { field with head.isDeprecated := isDeprecated },
    allow "deprecationReason" (orNull text) fun deprecationReason field =>
      { field with head.deprecationReason := deprecationReason }]

mutual

def fieldAt : (depth : Nat) → Reader Field
  | 0 => .record "Field" none
  | depth + 1 =>
    .record "Field" (some
      (fieldFormat (delay fun _ => fieldsAt depth) (delay fun _ => inlineFragmentsAt depth) depth))

def fieldsAt : (depth : Nat) → Reader (List Field)
  | 0 => .list "a sequence" none
  | depth + 1 => .list "a sequence" (some (fieldAt depth))

def inlineFragmentAt : (depth : Nat) → Reader InlineFragment
  | 0 => .record "InlineFragment" none
  | depth + 1 =>
    .record "InlineFragment" (some (inlineFragmentFormat (delay fun _ => fieldsAt depth) depth))

def inlineFragmentsAt : (depth : Nat) → Reader (List InlineFragment)
  | 0 => .list "a sequence" none
  | depth + 1 => .list "a sequence" (some (inlineFragmentAt depth))

end

def fragmentFormat (depth : Nat) : RecordFormat Fragment where
  name := "Fragment"
  blank := { name := "", typeCondition := "" }
  entries := [
    need "fragmentName" text fun name fragment => { fragment with name },
    allow "source" text fun source fragment => { fragment with source },
    need "typeCondition" text fun typeCondition fragment => { fragment with typeCondition },
    allow "possibleTypes" (textsAt depth) fun possibleTypes fragment =>
      { fragment with possibleTypes },
    allow "fields" (fieldsAt depth) fun fields fragment =>
      { fragment with selection.fields := fields },
    allow "fragmentSpreads" (textsAt depth) fun spreads fragment =>
      { fragment with selection.spreads := spreads },
    allow "inlineFragments" (inlineFragmentsAt depth) fun inlineFragments fragment =>
      { fragment with selection.inlineFragments := inlineFragments },
    allow "filePath" text fun filePath fragment => { fragment with filePath }]

def operationFormat (depth : Nat) : RecordFormat Operation where
  name := "Operation"
  blank := { name := "", kindName := "" }
  entries := [
    need "operationName" text fun name operation => { operation with name },
    need "operationType" text fun kindName operation => { operation with kindName },
    allow "variables" (listAt (recordAt "Variable" variableFormat) depth)
      fun variableDefinitions operation => { operation with variableDefinitions },
    allow "source" text fun source operation => { operation with source },
    allow "fields" (fieldsAt depth) fun fields operation => { operation with fields },
    allow "filePath" text fun filePath operation => { operation with filePath },
    allow "fragmentsReferenced" (textSetAt depth) fun fragmentsReferenced operation =>
      { operation with fragmentsReferenced },
    allow "operationId" text fun operationId operation => { operation with operationId }]

def documentFormat (depth : Nat) : RecordFormat Document where
  name := "CodegenIr"
  blank := {}
  entries := [
    allow "operations" (listAt (recordAt "Operation" operationFormat) depth)
      fun operations document => { document with operations },
    allow "fragments" (listAt (recordAt "Fragment" fragmentFormat) depth)
      fun fragments document => { document with fragments },
    allow "typesUsed" (listAt (recordAt "TypeDeclaration" typeDeclarationFormat) depth)
      fun typesUsed document => { document with typesUsed }]

/-- How deeply containers may be nested in what is read. -/
def greatestDepth : Nat := 127

def Document.reader : Reader Document := recordAt "CodegenIr" documentFormat greatestDepth

def Document.parse (text : String) : Except Fault Document := Document.reader.readAll text

end ResultLayout
