import ResultLayout.Compile.ResultType
import ResultLayout.Json.Value
/-!
# Result types as JSON

The form in which result types are handed to an emitter. Keys stand in a fixed order, and an absent
text is `null`.
-/
namespace ResultLayout

def LeafKind.toJson : LeafKind → Json
  | composite => .object [("kind", .string "composite")]
  | customScalar mappedType =>
    .object [("kind", .string "customScalar"), ("mapped_type", .ofOption mappedType)]
  | enum => .object [("kind", .string "enum")]
  | scalar builtin => .object [("kind", .string "scalar"), ("scalar", .string builtin.name)]

def FieldSource.toJson : FieldSource → Json
  | direct => .object [("kind", .string "direct")]
  | fragmentSpread fragmentName =>
    .object [("kind", .string "fragmentSpread"), ("name", .string fragmentName)]
  | inlineFragment typeCondition =>
    .object [("kind", .string "inlineFragment"), ("name", .string typeCondition)]

mutual

def Member.toJson : Member → Json
  | ⟨responseName, fieldName, type, leafKind, nested, conditional, description, deprecationReason,
      source⟩ =>
    .object [
      ("responseName", .string responseName),
      ("fieldName", .string fieldName),
      ("fieldType", .string type.render),
      ("leafKind", leafKind.toJson),
      ("nested", optionalRecordToJson nested),
      ("conditional", .bool conditional),
      ("description", .ofOption description),
      ("deprecationReason", .ofOption deprecationReason),
      ("source", source.toJson)]

def optionalRecordToJson : Option RecordType → Json
  | none => .null
  | some record => record.toJson

def membersToJson : List Member → List Json
  | [] => []
  | member :: members => member.toJson :: membersToJson members

def RecordType.toJson : RecordType → Json
  | ⟨name, schemaTypeName, members, fragmentRefs⟩ =>
    .object [
      ("name", .string name),
      ("schemaTypeName", .string schemaTypeName),
      ("members", .array (membersToJson members)),
      ("fragmentRefs", .ofStrings fragmentRefs)]

end

def TypedVariable.toJson (typed : TypedVariable) : Json :=
  .object [("name", .string typed.name), ("typeRef", .string typed.type.render)]

def Provenance.toJson (provenance : Provenance) : Json :=
  .object [
    ("operationId", .string provenance.operationId),
    ("filePath", .string provenance.filePath),
    ("fragmentsReferenced", .ofStrings provenance.fragmentsReferenced)]

def ResultType.toJson (result : ResultType) : Json :=
  .object [
    ("operationName", .string result.operationName),
    ("kind", .string result.kind.name),
    ("isQuery", .bool (result.kind == .query)),
    ("isMutation", .bool (result.kind == .mutation)),
    ("isSubscription", .bool (result.kind == .subscription)),
    ("data", result.data.toJson),
    ("conformsTo", .array (result.conformsTo.map fun capability => .string capability.name)),
    ("withBuilder", .bool result.withBuilder),
    ("variables", .array (result.variableDefinitions.map TypedVariable.toJson)),
    ("sourceText", .string result.sourceText),
    ("provenance", result.provenance.toJson)]

end ResultLayout
