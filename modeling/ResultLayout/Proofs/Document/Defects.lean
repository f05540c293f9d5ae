import ResultLayout.Document.Format
import ResultLayout.Proofs.Json.Places
import ResultLayout.Proofs.Json.Unambiguous
/-!
# Defective documents

Loading never guesses. If a known key comes again in an object of a document, or required keys are
missing, loading fails with an error that names the key, whatever stands behind the defect.
-/
namespace ResultLayout
open Scan Written Reader

section Formats

variable {α β : Type}

/-! The formats of a document are determined, entry by entry. -/

private theorem forall_nil : ∀ entry ∈ ([] : List (Entry α)), entry.value.Determined := by
  rintro _ ⟨⟩

private theorem forall_need {entries : List (Entry α)} {key : String} {value : Reader β}
    {set : β → α → α} (hvalue : value.Determined)
    (hentries : ∀ entry ∈ entries, entry.value.Determined) :
    ∀ entry ∈ Entry.need key value set :: entries, entry.value.Determined :=
  List.forall_mem_cons.mpr ⟨determined_map hvalue set, hentries⟩

private theorem forall_allow {entries : List (Entry α)} {key : String} {value : Reader β}
    {set : β → α → α} (hvalue : value.Determined)
    (hentries : ∀ entry ∈ entries, entry.value.Determined) :
    ∀ entry ∈ Entry.allow key value set :: entries, entry.value.Determined :=
  List.forall_mem_cons.mpr ⟨determined_map hvalue set, hentries⟩

private theorem determined_recordsAt {format : Nat → RecordFormat α}
    (hformat : ∀ depth, (format depth).Determined) (name : String) (depth : Nat) :
    (listAt (recordAt name format) depth).Determined :=
  determined_listAt (determined_recordAt hformat name) depth

private theorem determined_variableFormat (depth : Nat) : (variableFormat depth).Determined :=
  forall_need determined_text <| forall_need determined_text forall_nil

private theorem determined_enumValueFormat (depth : Nat) : (enumValueFormat depth).Determined :=
  forall_need determined_text <| forall_allow (determined_orNull determined_text) <|
  forall_allow determined_flag forall_nil

private theorem determined_typeDeclarationFormat (depth : Nat) :
    (typeDeclarationFormat depth).Determined :=
  forall_need (determined_variant _) <| forall_need determined_text <|
  forall_allow (determined_orNull determined_text) <|
  forall_allow (determined_recordsAt determined_enumValueFormat _ depth) forall_nil

private theorem determined_inlineFragmentFormat {fields : Reader (List Field)}
    (hfields : fields.Determined) (depth : Nat) : (inlineFragmentFormat fields depth).Determined :=
  forall_need determined_text <| forall_allow (determined_textsAt depth) <|
  forall_allow hfields <| forall_allow (determined_textsAt depth) forall_nil

private theorem determined_fieldFormat {fields : Reader (List Field)}
    {inlineFragments : Reader (List InlineFragment)} (hfields : fields.Determined)
    (hinlineFragments : inlineFragments.Determined) (depth : Nat) :
    (fieldFormat fields inlineFragments depth).Determined :=
  forall_need determined_text <| forall_need determined_text <| forall_need determined_text <|
  forall_allow determined_flag <| forall_allow hfields <|
  forall_allow (determined_textsAt depth) <| forall_allow hinlineFragments <|
  forall_allow (determined_orNull determined_text) <| forall_allow determined_flag <|
  forall_allow (determined_orNull determined_text) forall_nil

mutual

private theorem determined_fieldAt : ∀ depth : Nat, (fieldAt depth).Determined
  | 0 => by
    rw [fieldAt]
    exact determined_record _ (by rintro _ ⟨⟩)
  | depth + 1 => by
    rw [fieldAt]
    refine determined_record _ ?_
    rintro _ ⟨⟩
    exact determined_fieldFormat (determined_delay (determined_fieldsAt depth))
      (determined_delay (determined_inlineFragmentsAt depth)) depth

private theorem determined_fieldsAt : ∀ depth : Nat, (fieldsAt depth).Determined
  | 0 => by
    rw [fieldsAt]
    exact determined_list _ (by rintro _ ⟨⟩)
  | depth + 1 => by
    rw [fieldsAt]
    refine determined_list _ ?_
    rintro _ ⟨⟩
    exact determined_fieldAt depth

private theorem determined_inlineFragmentAt : ∀ depth : Nat, (inlineFragmentAt depth).Determined
  | 0 => by
    rw [inlineFragmentAt]
    exact determined_record _ (by rintro _ ⟨⟩)
  | depth + 1 => by
    rw [inlineFragmentAt]
    refine determined_record _ ?_
    rintro _ ⟨⟩
    exact determined_inlineFragmentFormat (determined_delay (determined_fieldsAt depth)) depth

private theorem determined_inlineFragmentsAt : ∀ depth : Nat, (inlineFragmentsAt depth).Determined
  | 0 => by
    rw [inlineFragmentsAt]
    exact determined_list _ (by rintro _ ⟨⟩)
  | depth + 1 => by
    rw [inlineFragmentsAt]
    refine determined_list _ ?_
    rintro _ ⟨⟩
    exact determined_inlineFragmentAt depth

end

private theorem determined_fragmentFormat (depth : Nat) : (fragmentFormat depth).Determined :=
  forall_need determined_text <| forall_allow determined_text <| forall_need determined_text <|
  forall_allow (determined_textsAt depth) <| forall_allow (determined_fieldsAt depth) <|
  forall_allow (determined_textsAt depth) <| forall_allow (determined_inlineFragmentsAt depth) <|
  forall_allow determined_text forall_nil

private theorem determined_operationFormat (depth : Nat) : (operationFormat depth).Determined :=
  forall_need determined_text <| forall_need determined_text <|
  forall_allow (determined_recordsAt determined_variableFormat _ depth) <|
  forall_allow determined_text <| forall_allow (determined_fieldsAt depth) <|
  forall_allow determined_text <| forall_allow (determined_textSetAt depth) <|
  forall_allow determined_text forall_nil

private theorem determined_documentFormat (depth : Nat) : (documentFormat depth).Determined :=
  forall_allow (determined_recordsAt determined_operationFormat _ depth) <|
  forall_allow (determined_recordsAt determined_fragmentFormat _ depth) <|
  forall_allow (determined_recordsAt determined_typeDeclarationFormat _ depth) forall_nil

/-- The formats of the records that a document consists of. -/
inductive DocumentRecord : {α : Type} → RecordFormat α → Prop
  | document (depth : Nat) : DocumentRecord (documentFormat depth)
  | operation (depth : Nat) : DocumentRecord (operationFormat depth)
  | declaredVariable (depth : Nat) : DocumentRecord (variableFormat depth)
  | fragment (depth : Nat) : DocumentRecord (fragmentFormat depth)
  | field (depth : Nat) : DocumentRecord
    (fieldFormat (delay fun _ => fieldsAt depth) (delay fun _ => inlineFragmentsAt depth) depth)
  | inlineFragment (depth : Nat) :
    DocumentRecord (inlineFragmentFormat (delay fun _ => fieldsAt depth) depth)
  | typeDeclaration (depth : Nat) : DocumentRecord (typeDeclarationFormat depth)
  | enumValue (depth : Nat) : DocumentRecord (enumValueFormat depth)

private theorem DocumentRecord.determined {target : RecordFormat α} (h : DocumentRecord target) :
    target.Determined := by
  cases h with
  | document depth => exact determined_documentFormat depth
  | operation depth => exact determined_operationFormat depth
  | declaredVariable depth => exact determined_variableFormat depth
  | fragment depth => exact determined_fragmentFormat depth
  | field depth =>
    exact determined_fieldFormat (determined_delay (determined_fieldsAt depth))
      (determined_delay (determined_inlineFragmentsAt depth)) depth
  | inlineFragment depth =>
    exact determined_inlineFragmentFormat (determined_delay (determined_fieldsAt depth)) depth
  | typeDeclaration depth => exact determined_typeDeclarationFormat depth
  | enumValue depth => exact determined_enumValueFormat depth

theorem DocumentRecord.keys_nodup {target : RecordFormat α} (h : DocumentRecord target) :
    (target.entries.map Entry.key).Nodup := by
  cases h <;> simp [documentFormat, operationFormat, variableFormat, fragmentFormat, fieldFormat,
    inlineFragmentFormat, typeDeclarationFormat, enumValueFormat, Entry.need, Entry.allow]

end Formats

section Defects

variable {α : Type} {target : RecordFormat α}

/-- The text behind the opening brace of an object with the given members, up to its closing
brace. -/
structure ObjectText (members : List NamedMember) (inner : List Char) : Prop where
  values : ∀ member ∈ members, JsonText member.value
  items : Items (members.map fun member => member.text) inner

/-- Loading the text fails with an error in the data that has the given message. -/
def FailsWith (text : List Char) (message : String) : Prop :=
  ∃ fault, Document.parse (String.ofList text) = .error fault ∧ fault.category = .data ∧
    fault.message = message

private theorem failsWith_of_object {before : List Char}
    (hplace : ComesTo target Document.reader before)
    {s : List Char} {fault : Fault} (hfault : target.object s = .error fault)
    (hdata : fault.category = .data) : FailsWith (before ++ s) fault.message := by
  refine ⟨fault, ?_, hdata, rfl⟩
  rw [Document.parse, readAll, String.toList_ofList, hplace.fault hfault]

private theorem exists_members {text : String} {document : Document}
    (haccepted : Document.parse text = .ok document) (htarget : DocumentRecord target)
    {before s : List Char} (hplace : ComesTo target Document.reader before)
    (htext : text.toList = before ++ s) :
    ∃ (members : List NamedMember) (inner rest : List Char) (draft : Draft α) (a : α),
      ObjectText members inner ∧ s = inner ++ '\x7d' :: rest ∧
      target.Passes members target.empty draft ∧ target.finish draft = .ok a := by
  cases hobject : target.object s with
  | ok outcome =>
    obtain ⟨members, inner, draft, hmembers, hvalues, hinner, hfinish, hs⟩ :=
      RecordFormat.exists_passes_of_object htarget.determined hobject
    exact ⟨members, inner, outcome.2, draft, outcome.1, ⟨hvalues, hinner⟩, hs, hmembers, hfinish⟩
  | error fault =>
    rw [Document.parse, readAll, htext, hplace.fault hobject] at haccepted
    cases haccepted

/-- Loading reports the defects of an object with the given members behind the text `before`. -/
structure ReportsDefects (target : RecordFormat α) (before : List Char)
    (members : List NamedMember) : Prop where
  /-- The known key of a member comes again behind it, at the end of the object or before another
  member. Anything may follow the key. -/
  repeated : ∀ earlier later : List NamedMember, members = earlier ++ later →
    ∀ member ∈ earlier, member.name ∈ target.entries.map Entry.key →
    ∀ {front gap key : List Char}, Leading (earlier.map fun member => member.text) front → Gap gap →
      StringText member.name key → ∀ further : List Char,
        FailsWith (before ++ (front ++ (gap ++ (key ++ further))))
          ("duplicate field `" ++ member.name ++ "`")
  /-- The members of some required keys are deleted. The key of these that is declared first is
  named. Anything may follow the object. -/
  missing : ∀ {keys : List String}, keys ≠ [] →
    (∀ key ∈ keys, ∃ entry ∈ target.entries, entry.required = true ∧ entry.key = key) →
    ∃ first, target.entries.find? (fun entry => keys.contains entry.key) = some first ∧
      ∀ {kept : List NamedMember} {inner : List Char},
        kept = (members.filter fun member => member.name ∉ keys) →
        Items (kept.map fun member => member.text) inner → ∀ further : List Char,
          FailsWith (before ++ (inner ++ '\x7d' :: further)) ("missing field `" ++ first.key ++ "`")

/-- Every object of a record in an accepted document has its defects reported, wherever it stands. -/
theorem Document.parse_reports_defects {text : String} {document : Document}
    (haccepted : Document.parse text = .ok document) (htarget : DocumentRecord target)
    {before inner rest : List Char} (hplace : ComesTo target Document.reader before)
    {members : List NamedMember} (hobject : ObjectText members inner)
    (htext : text.toList = before ++ (inner ++ '\x7d' :: rest)) :
    ReportsDefects target before members := by
  obtain ⟨members', inner', rest', draft, a, hobject', hs, hpasses, hfinish⟩ :=
    exists_members haccepted htarget hplace htext
  obtain rfl : members = members' :=
    items_inj hobject.items hobject'.items hobject.values hobject'.values hs
  constructor
  · rintro earlier later rfl member hmember hknown front gap key hfront hgap hkey further
    obtain ⟨draft', hearlier, -⟩ := RecordFormat.passes_append_iff.mp hpasses
    obtain ⟨entry, hentry, hname⟩ := List.mem_map.mp hknown
    have hsome : (target.entry? member.name).isSome :=
      List.find?_isSome.mpr ⟨entry, hentry, beq_iff_eq.mpr hname⟩
    have hfault := hearlier.object_repeated hfront (List.mem_map_of_mem hmember) hsome hgap hkey
      further
    exact failsWith_of_object hplace hfault rfl
  · intro keys hne hkeys
    obtain ⟨key, hkey⟩ := List.exists_mem_of_ne_nil keys hne
    obtain ⟨declared, hdeclared, -, rfl⟩ := hkeys key hkey
    have hsome : (target.entries.find? fun entry => keys.contains entry.key).isSome :=
      List.find?_isSome.mpr ⟨declared, hdeclared, by simpa using hkey⟩
    obtain ⟨first, hfirst⟩ := Option.isSome_iff_exists.mp hsome
    refine ⟨first, hfirst, fun hkept hinner further => ?_⟩
    have hfault := hpasses.object_lacking hfinish htarget.keys_nodup hkeys hfirst hkept hinner
      further
    exact failsWith_of_object hplace hfault rfl

/-- The name of an enum value comes again in a text that ends too early, or is missing. -/
theorem Document.parse_reports_defects_enumValue :
    FailsWith "\x7b\"typesUsed\":[\x7b\"values\":[\x7b\"name\":\"A\",\"name\"".toList
      "duplicate field `name`" ∧
    FailsWith "\x7b\"typesUsed\":[\x7b\"values\":[\x7b\x7d]?".toList "missing field `name`" := by
  let text := "\x7b\"typesUsed\":[\x7b\"values\":[\x7b\"name\":\"A\"\x7d]," ++
    "\"kind\":\"EnumType\",\"name\":\"E\"\x7d]\x7d"
  let before := "\x7b\"typesUsed\":[\x7b\"values\":[\x7b".toList
  let name : NamedMember := {
    name := "name"
    key := quoted "name".toList
    beforeColon := []
    behindColon := []
    value := quoted "A".toList
    gap_beforeColon := gap_nil
    gap_behindColon := gap_nil
    key_text := stringText_plain "name" (by decide) }
  have haccepted : (Document.parse text).toOption.isSome = true := by decide +kernel
  have hplace : ComesTo (enumValueFormat 122) Document.reader before :=
    .member gap_nil (.nil _) .nil rfl List.not_mem_nil gap_nil
      (stringText_plain "typesUsed" (by decide)) gap_nil
      (.map _ (.item gap_nil .nil .nil
        (.member gap_nil (.nil _) .nil rfl List.not_mem_nil gap_nil
          (stringText_plain "values" (by decide)) gap_nil
          (.map _ (.item gap_nil .nil .nil (.here gap_nil))))))
  have hobject : ObjectText [name] name.text := by
    refine ⟨List.forall_mem_singleton.mpr ?_, .some ?_⟩
    · exact .string (rawString_of_stringText (stringText_plain "A" (by decide)))
    · simpa using @CommaList.one [] name.text [] gap_nil gap_nil
  cases hparse : Document.parse text with
  | error fault =>
    rw [hparse] at haccepted
    cases haccepted
  | ok document =>
    have htext : text.toList = before ++ (name.text ++ '\x7d' ::
        "],\"kind\":\"EnumType\",\"name\":\"E\"\x7d]\x7d".toList) := by decide
    have hreports :=
      Document.parse_reports_defects hparse (.enumValue 122) hplace hobject htext
    constructor
    · have hfront : Leading [name.text] ([] ++ (name.text ++ ([] ++ [',']))) :=
        .cons gap_nil gap_nil .nil
      have hfails := hreports.repeated [name] [] rfl name List.mem_cons_self (by decide) hfront
        gap_nil name.key_text []
      have hrepetition :
          before ++ ([] ++ (name.text ++ ([] ++ [','])) ++ ([] ++ (name.key ++ []))) =
            "\x7b\"typesUsed\":[\x7b\"values\":[\x7b\"name\":\"A\",\"name\"".toList := by decide
      rwa [hrepetition] at hfails
    · have hrequired : ∀ key ∈ ["name"],
          ∃ entry ∈ (enumValueFormat 122).entries, entry.required = true ∧ entry.key = key := by
        simp [enumValueFormat, Entry.need, Entry.allow]
      obtain ⟨first, hfirst, hfails⟩ := hreports.missing (by decide) hrequired
      cases hfirst
      have hfails := hfails rfl (.none gap_nil) "]?".toList
      have hdeletion : before ++ ([] ++ '\x7d' :: "]?".toList) =
          "\x7b\"typesUsed\":[\x7b\"values\":[\x7b\x7d]?".toList := by decide
      rwa [hdeletion] at hfails

end Defects
end ResultLayout
