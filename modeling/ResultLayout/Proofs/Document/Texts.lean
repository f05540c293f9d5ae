import ResultLayout.Document.Basic
import ResultLayout.Proofs.Json.Grammar
/-!
# The texts of a document

How each record of a document may be written in JSON: the keys of its fields, and the values for
which nothing needs to be written.

Containers are counted from the outside. A record or an array is written only where a further
container may be opened; members with unknown keys do not count.
-/
namespace ResultLayout.Written

/-- The texts of something that is a container, where so many more may be opened. -/
def Opened (ContainerText : Nat → List Char → Prop) : (depth : Nat) → List Char → Prop
  | 0, _ => False
  | depth + 1, s => ContainerText depth s

def ListText {α : Type} (ItemText : Nat → α → List Char → Prop) (depth : Nat) (as : List α) :
    List Char → Prop :=
  Opened (fun depth => ArrayText (ItemText depth) as) depth

def RecordTextAt {α : Type} (slots : Nat → α → List Slot) (depth : Nat) (a : α) :
    List Char → Prop :=
  Opened (fun depth => RecordText (slots depth a)) depth

def StringsText (depth : Nat) : List String → List Char → Prop :=
  ListText (fun _ => StringText) depth

/-- The lists that stand for names of which each counts once: a name may come again after its first
place. -/
inductive WithRepeats : List String → List String → Prop
  | nil : WithRepeats [] []
  | first {names written : List String} {name : String} (h : WithRepeats names written)
    (hname : name ∉ names) : WithRepeats (names ++ [name]) (written ++ [name])
  | again {names written : List String} {name : String} (h : WithRepeats names written)
    (hname : name ∈ names) : WithRepeats names (written ++ [name])

def NameSetText (depth : Nat) (names : List String) (s : List Char) : Prop :=
  ∃ written, WithRepeats names written ∧ StringsText depth written s

/-! ## Schema types -/

def enumValueSlots (_ : Nat) (value : EnumValue) : List Slot := [
  .required "name" value.name StringText,
  .defaulted "description" value.description none OptionText,
  .defaulted "isDeprecated" value.isDeprecated false FlagText]

/-- The texts of a kind. Any name but the two known ones is a text of the other kinds. -/
inductive KindText : TypeDeclarationKind → List Char → Prop
  | enumType {s : List Char} (h : StringText "EnumType" s) : KindText .enumType s
  | inputObjectType {s : List Char} (h : StringText "InputObjectType" s) :
    KindText .inputObjectType s
  | other {name : String} {s : List Char} (henum : name ≠ "EnumType")
    (hinput : name ≠ "InputObjectType") (h : StringText name s) : KindText .other s

def typeDeclarationSlots (depth : Nat) (type : TypeDeclaration) : List Slot := [
  .required "kind" type.kind KindText,
  .required "name" type.name StringText,
  .defaulted "description" type.description none OptionText,
  .defaulted "values" type.values [] (ListText (RecordTextAt enumValueSlots) depth)]

/-! ## Selections -/

def inlineFragmentSlots (FieldsText : List Field → List Char → Prop) (depth : Nat)
    (fragment : InlineFragment) : List Slot := [
  .required "typeCondition" fragment.typeCondition StringText,
  .defaulted "possibleTypes" fragment.possibleTypes [] (StringsText depth),
  .defaulted "fields" fragment.fields [] FieldsText,
  .defaulted "fragmentSpreads" fragment.spreads [] (StringsText depth)]

def fieldSlots (FieldsText : List Field → List Char → Prop)
    (InlineFragmentsText : List InlineFragment → List Char → Prop) (depth : Nat) (field : Field) :
    List Slot := [
  .required "responseName" field.head.responseName StringText,
  .required "fieldName" field.head.fieldName StringText,
  .required "type" field.head.typeText StringText,
  .defaulted "isConditional" field.head.isConditional false FlagText,
  .defaulted "fields" field.selection.fields [] FieldsText,
  .defaulted "fragmentSpreads" field.selection.spreads [] (StringsText depth),
  .defaulted "inlineFragments" field.selection.inlineFragments [] InlineFragmentsText,
  .defaulted "description" field.head.description none OptionText,
  .defaulted "isDeprecated" field.head.isDeprecated false FlagText,
  .defaulted "deprecationReason" field.head.deprecationReason none OptionText]

mutual

def FieldText : (depth : Nat) → Field → List Char → Prop
  | 0, _, _ => False
  | depth + 1, field, s =>
    RecordText (fieldSlots (FieldsText depth) (InlineFragmentsText depth) depth field) s

def FieldsText : (depth : Nat) → List Field → List Char → Prop
  | 0, _, _ => False
  | depth + 1, fields, s => ArrayText (FieldText depth) fields s

def InlineFragmentText : (depth : Nat) → InlineFragment → List Char → Prop
  | 0, _, _ => False
  | depth + 1, fragment, s => RecordText (inlineFragmentSlots (FieldsText depth) depth fragment) s

def InlineFragmentsText : (depth : Nat) → List InlineFragment → List Char → Prop
  | 0, _, _ => False
  | depth + 1, fragments, s => ArrayText (InlineFragmentText depth) fragments s

end

/-! ## Documents -/

def variableSlots (_ : Nat) (declared : Variable) : List Slot := [
  .required "name" declared.name StringText,
  .required "type" declared.typeText StringText]

def fragmentSlots (depth : Nat) (fragment : Fragment) : List Slot := [
  .required "fragmentName" fragment.name StringText,
  .defaulted "source" fragment.source "" StringText,
  .required "typeCondition" fragment.typeCondition StringText,
  .defaulted "possibleTypes" fragment.possibleTypes [] (StringsText depth),
  .defaulted "fields" fragment.selection.fields [] (FieldsText depth),
  .defaulted "fragmentSpreads" fragment.selection.spreads [] (StringsText depth),
  .defaulted "inlineFragments" fragment.selection.inlineFragments [] (InlineFragmentsText depth),
  .defaulted "filePath" fragment.filePath "" StringText]

def operationSlots (depth : Nat) (operation : Operation) : List Slot := [
  .required "operationName" operation.name StringText,
  .required "operationType" operation.kindName StringText,
  .defaulted "variables" operation.variableDefinitions []
    (ListText (RecordTextAt variableSlots) depth),
  .defaulted "source" operation.source "" StringText,
  .defaulted "fields" operation.fields [] (FieldsText depth),
  .defaulted "filePath" operation.filePath "" StringText,
  .defaulted "fragmentsReferenced" operation.fragmentsReferenced [] (NameSetText depth),
  .defaulted "operationId" operation.operationId "" StringText]

def documentSlots (depth : Nat) (document : Document) : List Slot := [
  .defaulted "operations" document.operations [] (ListText (RecordTextAt operationSlots) depth),
  .defaulted "fragments" document.fragments [] (ListText (RecordTextAt fragmentSlots) depth),
  .defaulted "typesUsed" document.typesUsed [] (ListText (RecordTextAt typeDeclarationSlots) depth)]

/-- The texts of a document whose containers are nested at most 127 deep. -/
def DocumentText (document : Document) (text : String) : Prop :=
  ∃ before s after, text.toList = before ++ (s ++ after) ∧ Gap before ∧ Gap after ∧
    RecordTextAt documentSlots 127 document s

end ResultLayout.Written
