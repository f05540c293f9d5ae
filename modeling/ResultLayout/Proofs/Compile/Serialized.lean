import ResultLayout.Compile.Json
import ResultLayout.Proofs.Compile.Batch
import ResultLayout.Proofs.Json.Same
import ResultLayout.Proofs.Schema.TypeRendering
/-!
# What the JSON of a result type tells

Everything that a compiled operation says can be told from its JSON: two results are equal as soon as
their JSON is the same, whatever they were compiled from. Types are written as texts, so it matters
that the types in a result were all read from texts; they are known by what they are rendered to.
-/
namespace ResultLayout
open Json

namespace TypeRef

/-- The type is the type of some text. -/
def IsRead (type : TypeRef) : Prop := ∃ text, parse text = .ok type

private theorem IsRead.eq_of_render_eq {type other : TypeRef} (h : type.IsRead)
    (hother : other.IsRead) (hrender : type.render = other.render) : type = other := by
  obtain ⟨text, htext⟩ := h
  obtain ⟨otherText, hotherText⟩ := hother
  have htype := parse_render (innermostName_of_parse htext)
  have hsame := parse_render (innermostName_of_parse hotherText)
  rw [hrender, hsame] at htype
  exact (Except.ok.inj htype).symm

end TypeRef

section Leaves

private theorem OperationKind.name_injective : Function.Injective OperationKind.name := by
  intro kind other h
  cases kind <;> cases other <;> first | rfl | exact absurd h (by decide)

private theorem BuiltinScalar.name_injective : Function.Injective BuiltinScalar.name := by
  intro scalar other h
  have hscalar := ofName?_name scalar
  rw [h, ofName?_name other] at hscalar
  exact (Option.some.inj hscalar).symm

private theorem LeafKind.eq_of_same_toJson {kind other : LeafKind}
    (h : kind.toJson.Same other.toJson) :
    kind = other := by
  cases kind <;> cases other
  case composite.composite => rfl
  case enum.enum => rfl
  case customScalar.customScalar =>
    have hmapped := h.under "mapped_type" rfl rfl
    rw [same_ofOption_iff.mp hmapped]
  case scalar.scalar =>
    have hname := same_string_iff.mp (h.under "scalar" rfl rfl)
    rw [BuiltinScalar.name_injective hname]
  all_goals
    have hkind := same_string_iff.mp (h.under "kind" rfl rfl)
    exact absurd hkind (by decide)

private theorem FieldSource.eq_of_same_toJson {source other : FieldSource}
    (h : source.toJson.Same other.toJson) : source = other := by
  cases source <;> cases other
  case direct.direct => rfl
  case fragmentSpread.fragmentSpread | inlineFragment.inlineFragment =>
    have hname := same_string_iff.mp (h.under "name" rfl rfl)
    rw [hname]
  all_goals
    have hkind := same_string_iff.mp (h.under "kind" rfl rfl)
    exact absurd hkind (by decide)

end Leaves

section Records

/-- Every type in a tree of records has a property. -/
inductive RecordType.EveryType (P : TypeRef → Prop) : RecordType → Prop
  | mk {record : RecordType} (htypes : ∀ member ∈ record.members, P member.type)
    (hnested : ∀ member ∈ record.members, ∀ nested, member.nested = some nested →
      EveryType P nested) : EveryType P record

private theorem membersToJson_eq_map (members : List Member) :
    membersToJson members = members.map Member.toJson := by
  induction members with
  | nil => rfl
  | cons member members ih => rw [membersToJson, ih, List.map_cons]

private theorem RecordType.exists_toJson_eq (record : RecordType) :
    ∃ members, record.toJson = .object members := by
  cases record
  exact ⟨_, by rw [RecordType.toJson]⟩

private theorem eq_of_same_optionalRecordToJson {nested other : Option RecordType}
    (h : (optionalRecordToJson nested).Same (optionalRecordToJson other))
    (heq : ∀ record otherRecord, nested = some record → other = some otherRecord →
      record.toJson.Same otherRecord.toJson → record = otherRecord) : nested = other := by
  cases nested with
  | none =>
    cases other with
    | none => rfl
    | some record =>
      obtain ⟨members, hmembers⟩ := record.exists_toJson_eq
      rw [optionalRecordToJson, optionalRecordToJson, hmembers] at h
      cases h
  | some record =>
    cases other with
    | none =>
      obtain ⟨members, hmembers⟩ := record.exists_toJson_eq
      rw [optionalRecordToJson, optionalRecordToJson, hmembers] at h
      cases h
    | some otherRecord =>
      rw [optionalRecordToJson, optionalRecordToJson] at h
      rw [heq record otherRecord rfl rfl h]

private theorem Member.eq_of_same_toJson {member other : Member} (htype : member.type.IsRead)
    (hotherType : other.type.IsRead)
    (hnested : ∀ record otherRecord, member.nested = some record → other.nested = some otherRecord →
      record.toJson.Same otherRecord.toJson → record = otherRecord)
    (h : member.toJson.Same other.toJson) : member = other := by
  obtain ⟨responseName, fieldName, type, leafKind, nested, conditional, description,
    deprecationReason, source⟩ := member
  obtain ⟨otherResponseName, otherFieldName, otherType, otherLeafKind, otherNested,
    otherConditional, otherDescription, otherDeprecationReason, otherSource⟩ := other
  rw [Member.toJson, Member.toJson] at h
  have hresponseName := same_string_iff.mp (h.under "responseName" rfl rfl)
  have hfieldName := same_string_iff.mp (h.under "fieldName" rfl rfl)
  have hrender := same_string_iff.mp (h.under "fieldType" rfl rfl)
  have hleafKind := LeafKind.eq_of_same_toJson (h.under "leafKind" rfl rfl)
  have hrecord := eq_of_same_optionalRecordToJson (h.under "nested" rfl rfl) hnested
  have hconditional := same_bool_iff.mp (h.under "conditional" rfl rfl)
  have hdescription := same_ofOption_iff.mp (h.under "description" rfl rfl)
  have hreason := same_ofOption_iff.mp (h.under "deprecationReason" rfl rfl)
  have hsource := FieldSource.eq_of_same_toJson (h.under "source" rfl rfl)
  have hsameType := htype.eq_of_render_eq hotherType hrender
  dsimp only at hsameType
  subst hresponseName hfieldName hsameType hleafKind hrecord hconditional hdescription hreason
    hsource
  rfl

private theorem RecordType.eq_of_same_toJson {record other : RecordType}
    (hread : record.EveryType TypeRef.IsRead) (hother : other.EveryType TypeRef.IsRead)
    (h : record.toJson.Same other.toJson) : record = other := by
  induction hread generalizing other with
  | @mk record htypes _ ih =>
    obtain ⟨hotherTypes, hotherNested⟩ := hother
    obtain ⟨name, schemaTypeName, members, fragmentRefs⟩ := record
    obtain ⟨otherName, otherSchemaTypeName, otherMembers, otherFragmentRefs⟩ := other
    rw [RecordType.toJson, RecordType.toJson, membersToJson_eq_map, membersToJson_eq_map] at h
    have hname := same_string_iff.mp (h.under "name" rfl rfl)
    have hschemaType := same_string_iff.mp (h.under "schemaTypeName" rfl rfl)
    have hrefs := same_ofStrings_iff.mp (h.under "fragmentRefs" rfl rfl)
    have hmembers : members = otherMembers := by
      apply Same.eq_of_map (h.under "members" rfl rfl)
      intro member hmember otherMember hotherMember
      apply Member.eq_of_same_toJson (htypes member hmember) (hotherTypes otherMember hotherMember)
      intro nested otherNested hnested hsome
      exact ih member hmember nested hnested (hotherNested otherMember hotherMember otherNested hsome)
    subst hname hschemaType hrefs hmembers
    rfl

variable {resolve : String → LeafKind} {name schemaTypeName : String} {selections : List Selected}
  {names : NameAllocator}

private theorem Visit.isRead_of_contribution {visit : Visit}
    {contribution : Contribution (List Selected)}
    (h : visit.contribution = .ok contribution) : contribution.type.IsRead := by
  cases visit with
  | undefinedSpread fragmentName => cases h
  | field around head below =>
    rw [Visit.contribution, Surroundings.contribution] at h
    split at h
    next => cases h
    next type htype =>
      obtain rfl := Except.ok.inj h
      exact ⟨head.typeText, htype⟩

private theorem layoutRecord_everyType {record : RecordType}
    (h : (layoutRecord resolve name schemaTypeName selections names).1 = .ok record) :
    record.EveryType TypeRef.IsRead := by
  apply layoutRecord_ok_induction
    (P := fun _ _ record => record.EveryType TypeRef.IsRead) ?_ h
  intro _ _ result record hresult _ _ hmembers
  constructor
  · intro member hmember
    obtain ⟨group, hgroup, hfrom⟩ := exists_left_of_mem hmembers hmember
    have hfirst : group.first ∈ result := by
      have hmem : group.first ∈ group.toList := List.mem_cons_self
      rw [Group.toList_of_mem_ofContributions hgroup] at hmem
      exact List.mem_of_mem_filter hmem
    obtain ⟨visit, -, hvisit⟩ := exists_left_of_mem (contributions_eq_ok hresult) hfirst
    rw [hfrom.type_eq]
    exact Visit.isRead_of_contribution hvisit
  · intro member hmember nested hnested
    obtain ⟨group, -, hfrom⟩ := exists_left_of_mem hmembers hmember
    cases hfrom with
    | leaf => cases hnested
    | composite _ _ hread =>
      obtain rfl := Option.some.inj hnested
      exact hread

end Records

section Results

private theorem TypedVariable.eq_of_same_toJson {typed other : TypedVariable}
    (htype : typed.type.IsRead)
    (hother : other.type.IsRead) (h : typed.toJson.Same other.toJson) : typed = other := by
  obtain ⟨name, type⟩ := typed
  obtain ⟨otherName, otherType⟩ := other
  have hname := same_string_iff.mp (h.under "name" rfl rfl)
  have hrender := same_string_iff.mp (h.under "typeRef" rfl rfl)
  have hsameType := htype.eq_of_render_eq hother hrender
  dsimp only at hname hsameType
  rw [hname, hsameType]

private theorem Provenance.eq_of_same_toJson {provenance other : Provenance}
    (h : provenance.toJson.Same other.toJson) : provenance = other := by
  obtain ⟨operationId, filePath, fragmentsReferenced⟩ := provenance
  obtain ⟨otherOperationId, otherFilePath, otherReferenced⟩ := other
  have hid := same_string_iff.mp (h.under "operationId" rfl rfl)
  have hpath := same_string_iff.mp (h.under "filePath" rfl rfl)
  have hreferenced := same_ofStrings_iff.mp (h.under "fragmentsReferenced" rfl rfl)
  dsimp only at hid hpath hreferenced
  rw [hid, hpath, hreferenced]

namespace Compiler

variable {compiler other : Compiler} {operation otherOperation : Operation}
  {result otherResult : ResultType}

namespace Compiles

private theorem everyType (h : compiler.Compiles operation result) :
    result.data.EveryType TypeRef.IsRead :=
  layoutRecord_everyType h.data

private theorem isRead_of_variable (h : compiler.Compiles operation result) :
    ∀ typed ∈ result.variableDefinitions, typed.type.IsRead := by
  intro typed htyped
  obtain ⟨declared, -, -, htype⟩ := exists_left_of_mem h.variableTypes htyped
  exact ⟨declared.typeText, htype⟩

private theorem eq_of_same_toJson (h : compiler.Compiles operation result)
    (hother : other.Compiles otherOperation otherResult)
    (hsame : result.toJson.Same otherResult.toJson) : result = otherResult := by
  have hoperationName := same_string_iff.mp (hsame.under "operationName" rfl rfl)
  have hkind := same_string_iff.mp (hsame.under "kind" rfl rfl)
  have hdata := RecordType.eq_of_same_toJson h.everyType hother.everyType
    (hsame.under "data" rfl rfl)
  have hbuilder := same_bool_iff.mp (hsame.under "withBuilder" rfl rfl)
  have hvariables : result.variableDefinitions = otherResult.variableDefinitions := by
    apply Same.eq_of_map (hsame.under "variables" rfl rfl)
    intro typed htyped otherTyped hotherTyped
    exact TypedVariable.eq_of_same_toJson (h.isRead_of_variable typed htyped)
      (hother.isRead_of_variable otherTyped hotherTyped)
  have hsource := same_string_iff.mp (hsame.under "sourceText" rfl rfl)
  have hprovenance := Provenance.eq_of_same_toJson (hsame.under "provenance" rfl rfl)
  have hconforms : result.conformsTo = otherResult.conformsTo :=
    h.conformsTo.trans hother.conformsTo.symm
  cases result
  cases otherResult
  dsimp only at hoperationName hkind hdata hbuilder hvariables hsource hprovenance hconforms
  obtain rfl := OperationKind.name_injective hkind
  subst hoperationName hdata hbuilder hvariables hsource hprovenance hconforms
  rfl

end Compiles

/-- Two compiled results have the same JSON, whatever the order of members, only if they are equal:
from whatever operations, fragments, leaf types and settings they were compiled. -/
theorem same_toJson_iff (h : compiler.compile operation = .ok result)
    (hother : other.compile otherOperation = .ok otherResult) :
    result.toJson.Same otherResult.toJson ↔ result = otherResult := by
  constructor
  · exact (compile_eq_ok_iff.mp h).eq_of_same_toJson (compile_eq_ok_iff.mp hother)
  · rintro rfl
    exact same_refl _

/-- A compiler that knows no fragments and no types, with configured types for the scalars. -/
def overScalars (customTypes : List (String × String)) : Compiler where
  settings := { customTypeMap := customTypes }
  registry := ⟨[]⟩
  resolver := LeafResolver.ofDeclarations [] customTypes

def todayOperation : Operation where
  name := "Today"
  kindName := "query"
  fields := [⟨{ responseName := "today", fieldName := "date", typeText := "Date" }, .empty⟩]

/-- A scalar without a configured type is not a scalar whose configured type is the empty text. -/
theorem same_toJson_iff_today : ∃ plain mapped,
    (overScalars []).compile todayOperation = .ok plain ∧
    (overScalars [("Date", "")]).compile todayOperation = .ok mapped ∧
    (plain.toJson.Same mapped.toJson ↔ plain = mapped) ∧ ¬ plain.toJson.Same mapped.toJson := by
  have hplainKinds : ((overScalars []).compile todayOperation).map (·.data.members.map (·.leafKind)) =
      .ok [.customScalar none] := by decide +kernel
  have hmappedKinds : ((overScalars [("Date", "")]).compile todayOperation).map
      (·.data.members.map (·.leafKind)) = .ok [.customScalar (some "")] := by decide +kernel
  obtain ⟨plain, hplain, hplainKind⟩ := map_eq_ok_iff.mp hplainKinds
  obtain ⟨mapped, hmapped, hmappedKind⟩ := map_eq_ok_iff.mp hmappedKinds
  have hsame := same_toJson_iff hplain hmapped
  refine ⟨plain, mapped, hplain, hmapped, hsame, ?_⟩
  rw [hsame]
  rintro rfl
  rw [hplainKind] at hmappedKind
  exact absurd hmappedKind (by decide)

end Compiler
end Results
end ResultLayout
