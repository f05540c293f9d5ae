import ResultLayout.Document.Format
import ResultLayout.Proofs.Document.Texts
import ResultLayout.Proofs.Json.Records
/-!
# Loading undoes writing

Each format reads the records that its slots write. A document is therefore read from each of its
texts, whatever the order of the keys, the escapes and the white space in it.
-/
namespace ResultLayout
open Scan Written Reader

section Containers

variable {α : Type} {depth : Nat}

private theorem reads_listAt {ItemText : Nat → α → List Char → Prop} {item : Nat → Reader α}
    (hitem : ∀ depth {a s}, ItemText depth a s → (item depth).Reads a s) {as : List α}
    {s : List Char} (h : ListText ItemText depth as s) : (listAt item depth).Reads as s := by
  cases depth with
  | zero => exact h.elim
  | succ depth => exact reads_list (hitem depth) _ h

private theorem reads_recordAt {format : Nat → RecordFormat α} {slots : Nat → α → List Slot}
    (describes : ∀ depth a, Describes (format depth) (slots depth a) a) (name : String) {a : α}
    {s : List Char} (h : RecordTextAt slots depth a s) :
    (recordAt name format depth).Reads a s := by
  cases depth with
  | zero => exact h.elim
  | succ depth => exact (describes depth a).reads_record name h

private theorem reads_recordsAt {format : Nat → RecordFormat α} {slots : Nat → α → List Slot}
    (describes : ∀ depth a, Describes (format depth) (slots depth a) a) (name : String)
    {as : List α} {s : List Char} (h : ListText (RecordTextAt slots) depth as s) :
    (listAt (recordAt name format) depth).Reads as s :=
  reads_listAt (fun _ _ _ h => reads_recordAt describes name h) h

private theorem reads_textsAt {texts : List String} {s : List Char}
    (h : StringsText depth texts s) : (textsAt depth).Reads texts s :=
  reads_listAt (fun _ _ _ => reads_text) h

private theorem firstSeen_of_withRepeats {names written : List String}
    (h : WithRepeats names written) :
    firstSeen written = names := by
  induction h with
  | nil => rfl
  | first h hname ih =>
    rw [firstSeen_append_singleton, if_neg, ih]
    rwa [← mem_firstSeen, ih]
  | again h hname ih =>
    rw [firstSeen_append_singleton, if_pos, ih]
    rwa [← mem_firstSeen, ih]

private theorem reads_textSetAt {names : List String} {s : List Char}
    (h : NameSetText depth names s) : (textSetAt depth).Reads names s := by
  obtain ⟨written, hwritten, h⟩ := h
  cases depth with
  | zero => exact h.elim
  | succ depth =>
    have hlist := (reads_list reads_text "a set" h).map firstSeen
    rwa [firstSeen_of_withRepeats hwritten] at hlist

private theorem reads_kind {kind : TypeDeclarationKind} {s : List Char} (h : KindText kind s) :
    ∃ name, (∀ canOpen, (variant canOpen).Reads name s) ∧
      TypeDeclarationKind.ofName name = kind := by
  cases h with
  | enumType h => exact ⟨_, reads_variant h, rfl⟩
  | inputObjectType h => exact ⟨_, reads_variant h, rfl⟩
  | other henum hinput h =>
    refine ⟨_, reads_variant h, ?_⟩
    rw [TypeDeclarationKind.ofName, if_neg henum, if_neg hinput]

end Containers

/-! Every format reads what the slots of its record write. -/

section Formats

def describesVariable (depth : Nat) (declared : Variable) :
    Describes (variableFormat depth) (variableSlots depth declared) declared where
  fit := .need reads_text <| .need reads_text .nil
  nodup := by simp [variableSlots, Slot.required]
  commute := by simp [Fit.need, Fit.needAs, Fit.nil, Tie.Commutes]
  value_eq := rfl

def describesEnumValue (depth : Nat) (value : EnumValue) :
    Describes (enumValueFormat depth) (enumValueSlots depth value) value where
  fit := .need reads_text <| .allow rfl reads_orNull <| .allow rfl reads_flag .nil
  nodup := by simp [enumValueSlots, Slot.required, Slot.defaulted]
  commute := by simp [Fit.need, Fit.needAs, Fit.allow, Fit.nil, Tie.Commutes]
  value_eq := rfl

def describesTypeDeclaration (depth : Nat) (type : TypeDeclaration) :
    Describes (typeDeclarationFormat depth) (typeDeclarationSlots depth type) type where
  fit := .needAs (fun declared => { declared with kind := type.kind })
      (fun h => by
        obtain ⟨name, hname, hkind⟩ := reads_kind h
        rw [← hkind]
        exact (hname _).map _) <|
    .need reads_text <| .allow rfl reads_orNull <|
    .allow rfl (reads_recordsAt describesEnumValue _) .nil
  nodup := by simp [typeDeclarationSlots, Slot.required, Slot.defaulted]
  commute := by simp [Fit.need, Fit.needAs, Fit.allow, Fit.nil, Tie.Commutes]
  value_eq := rfl

def describesInlineFragment {depth : Nat} {fields : Reader (List Field)}
    {FieldsText : List Field → List Char → Prop}
    (hfields : ∀ {as s}, FieldsText as s → fields.Reads as s) (fragment : InlineFragment) :
    Describes (inlineFragmentFormat fields depth) (inlineFragmentSlots FieldsText depth fragment)
      fragment where
  fit := .need reads_text <| .allow rfl reads_textsAt <| .allow rfl hfields <|
    .allow rfl reads_textsAt .nil
  nodup := by simp [inlineFragmentSlots, Slot.required, Slot.defaulted]
  commute := by simp [Fit.need, Fit.needAs, Fit.allow, Fit.nil, Tie.Commutes]
  value_eq := by cases fragment; rfl

def describesField {depth : Nat} {fields : Reader (List Field)}
    {inlineFragments : Reader (List InlineFragment)} {FieldsText : List Field → List Char → Prop}
    {InlineFragmentsText : List InlineFragment → List Char → Prop}
    (hfields : ∀ {as s}, FieldsText as s → fields.Reads as s)
    (hinlineFragments : ∀ {as s}, InlineFragmentsText as s → inlineFragments.Reads as s)
    (field : Field) :
    Describes (fieldFormat fields inlineFragments depth)
      (fieldSlots FieldsText InlineFragmentsText depth field) field where
  fit := .need reads_text <| .need reads_text <| .need reads_text <| .allow rfl reads_flag <|
    .allow rfl hfields <| .allow rfl reads_textsAt <| .allow rfl hinlineFragments <|
    .allow rfl reads_orNull <| .allow rfl reads_flag <| .allow rfl reads_orNull .nil
  nodup := by simp [fieldSlots, Slot.required, Slot.defaulted]
  commute := by simp [Fit.need, Fit.needAs, Fit.allow, Fit.nil, Tie.Commutes]
  value_eq := by
    obtain ⟨head, selection⟩ := field
    cases selection
    rfl

mutual

private theorem reads_fieldAt : ∀ {depth : Nat} {field : Field} {s : List Char},
    FieldText depth field s → (fieldAt depth).Reads field s
  | 0, _, _, h => by
    rw [FieldText] at h
    exact h.elim
  | depth + 1, field, s, h => by
    rw [FieldText] at h
    rw [fieldAt]
    exact (describesField (fun h => (reads_fieldsAt h).delay)
      (fun h => (reads_inlineFragmentsAt h).delay) field).reads_record _ h

private theorem reads_fieldsAt : ∀ {depth : Nat} {fields : List Field} {s : List Char},
    FieldsText depth fields s → (fieldsAt depth).Reads fields s
  | 0, _, _, h => by
    rw [FieldsText] at h
    exact h.elim
  | depth + 1, fields, s, h => by
    rw [FieldsText] at h
    rw [fieldsAt]
    exact reads_list reads_fieldAt _ h

private theorem reads_inlineFragmentAt :
    ∀ {depth : Nat} {fragment : InlineFragment} {s : List Char},
    InlineFragmentText depth fragment s → (inlineFragmentAt depth).Reads fragment s
  | 0, _, _, h => by
    rw [InlineFragmentText] at h
    exact h.elim
  | depth + 1, fragment, s, h => by
    rw [InlineFragmentText] at h
    rw [inlineFragmentAt]
    exact (describesInlineFragment (fun h => (reads_fieldsAt h).delay) fragment).reads_record _ h

private theorem reads_inlineFragmentsAt :
    ∀ {depth : Nat} {fragments : List InlineFragment} {s : List Char},
    InlineFragmentsText depth fragments s → (inlineFragmentsAt depth).Reads fragments s
  | 0, _, _, h => by
    rw [InlineFragmentsText] at h
    exact h.elim
  | depth + 1, fragments, s, h => by
    rw [InlineFragmentsText] at h
    rw [inlineFragmentsAt]
    exact reads_list reads_inlineFragmentAt _ h

end

def describesFragment (depth : Nat) (fragment : Fragment) :
    Describes (fragmentFormat depth) (fragmentSlots depth fragment) fragment where
  fit := .need reads_text <| .allow rfl reads_text <| .need reads_text <|
    .allow rfl reads_textsAt <| .allow rfl reads_fieldsAt <| .allow rfl reads_textsAt <|
    .allow rfl reads_inlineFragmentsAt <| .allow rfl reads_text .nil
  nodup := by simp [fragmentSlots, Slot.required, Slot.defaulted]
  commute := by simp [Fit.need, Fit.needAs, Fit.allow, Fit.nil, Tie.Commutes]
  value_eq := by
    obtain ⟨name, source, typeCondition, possibleTypes, selection, filePath⟩ := fragment
    cases selection
    rfl

def describesOperation (depth : Nat) (operation : Operation) :
    Describes (operationFormat depth) (operationSlots depth operation) operation where
  fit := .need reads_text <| .need reads_text <|
    .allow rfl (reads_recordsAt describesVariable _) <|
    .allow rfl reads_text <| .allow rfl reads_fieldsAt <| .allow rfl reads_text <|
    .allow rfl reads_textSetAt <| .allow rfl reads_text .nil
  nodup := by simp [operationSlots, Slot.required, Slot.defaulted]
  commute := by simp [Fit.need, Fit.needAs, Fit.allow, Fit.nil, Tie.Commutes]
  value_eq := rfl

def describesDocument (depth : Nat) (document : Document) :
    Describes (documentFormat depth) (documentSlots depth document) document where
  fit := .allow rfl (reads_recordsAt describesOperation _) <|
    .allow rfl (reads_recordsAt describesFragment _) <|
    .allow rfl (reads_recordsAt describesTypeDeclaration _) .nil
  nodup := by simp [documentSlots, Slot.defaulted]
  commute := by simp [Fit.allow, Fit.nil, Tie.Commutes]
  value_eq := rfl

end Formats

private theorem dropBlanks_of_gap {gap : List Char} (hgap : Gap gap) : dropBlanks gap = [] := by
  have h := dropBlanks_gap hgap []
  rwa [List.append_nil] at h

/-- A document is loaded from each of its texts. -/
theorem Document.parse_of_documentText {document : Document} {text : String}
    (h : DocumentText document text) : Document.parse text = .ok document := by
  obtain ⟨before, s, after, htext, hbefore, hafter, h⟩ := h
  have hreads : Document.reader.Reads document s := reads_recordAt describesDocument _ h
  rw [Document.parse, readAll, htext, hreads.read hbefore]
  simp only [dropBlanks_of_gap hafter, List.isEmpty_nil, if_true]

section Small

private theorem gap_space : Gap [' '] := by
  intro c hc
  exact Or.inl (List.mem_singleton.mp hc)

/-- A document with one operation that selects one field and reaches one fragment. -/
def smallDocument : Document where
  operations := [{
    name := "Q"
    kindName := "query"
    fields := [⟨{ responseName := "a", fieldName := "a", typeText := "Int" }, .empty⟩]
    fragmentsReferenced := ["F"] }]

def operationsText : String :=
  "[[\"\\u0051\",\"query\",[],\"\",[[\"a\",\"a\",\"Int\"]],\"\",[\"F\", \"F\"]]]"

/-- The document as an object with an unknown member. The operation and its field are arrays; the
name of the operation is escaped, that of the fragment repeated. -/
def smallText : String :=
  " \x7b\"x\" : [null], \"operations\":" ++ operationsText ++ "\x7d"

private theorem fieldsText_small (depth : Nat) : FieldsText (depth + 2)
    [⟨{ responseName := "a", fieldName := "a", typeText := "Int" }, .empty⟩]
    "[[\"a\",\"a\",\"Int\"]]".toList := by
  have hname := stringText_plain "a" (by decide)
  have htype := stringText_plain "Int" (by decide)
  rw [FieldsText]
  refine ⟨["[\"a\",\"a\",\"Int\"]".toList], .cons ?_ .nil, _, .some (.one gap_nil gap_nil), rfl⟩
  rw [FieldText]
  refine .array 3 (.cons hname (.cons hname (.cons htype .nil))) ?_ ⟨_, .some
    (.more gap_nil gap_nil (.more gap_nil gap_nil (.one gap_nil gap_nil))), rfl⟩
  intro slot hslot
  simp only [fieldSlots, List.drop_succ_cons, List.drop_zero, List.mem_cons, List.not_mem_nil,
    or_false] at hslot
  rcases hslot with rfl | rfl | rfl | rfl | rfl | rfl | rfl <;> rfl

private theorem operationsText_small : ListText (RecordTextAt operationSlots) 126
    smallDocument.operations operationsText.toList := by
  have hletter : HexUnit 'Q'.toNat "0051".toList :=
    @HexUnit.digits 0 0 5 1 _ _ _ _ (Or.inl rfl) (Or.inl rfl) (Or.inl rfl) (Or.inl rfl)
  have hname : StringText "Q" "\"\\u0051\"".toList := ⟨_, .cons (.unit hletter) .nil, rfl⟩
  have hkind := stringText_plain "query" (by decide)
  have hempty := stringText_plain "" (by decide)
  have hspread := stringText_plain "F" (by decide)
  have hvariables : ListText (RecordTextAt variableSlots) 124 [] "[]".toList :=
    ⟨[], .nil, [], .none gap_nil, rfl⟩
  have hnames : NameSetText 124 ["F"] "[\"F\", \"F\"]".toList :=
    ⟨["F", "F"], .again (.first .nil List.not_mem_nil) List.mem_cons_self, _,
      .cons hspread (.cons hspread .nil), _,
      .some (.more gap_nil gap_nil (.one gap_space gap_nil)), rfl⟩
  refine ⟨_, .cons (.array 7 (.cons hname (.cons hkind (.cons hvariables (.cons hempty
    (.cons (fieldsText_small 122) (.cons hempty (.cons hnames .nil))))))) ?_ ⟨_, .some
    (.more gap_nil gap_nil (.more gap_nil gap_nil (.more gap_nil gap_nil (.more gap_nil gap_nil
      (.more gap_nil gap_nil (.more gap_nil gap_nil (.one gap_nil gap_nil))))))), rfl⟩) .nil, _,
    .some (.one gap_nil gap_nil), rfl⟩
  intro slot hslot
  obtain rfl := List.mem_singleton.mp hslot
  exact rfl

private theorem documentText_small : DocumentText smallDocument smallText := by
  let unknown : NamedMember := {
    name := "x"
    key := quoted "x".toList
    beforeColon := [' ']
    behindColon := [' ']
    value := "[null]".toList
    gap_beforeColon := gap_space
    gap_behindColon := gap_space
    key_text := stringText_plain "x" (by decide) }
  let operations : NamedMember := {
    name := "operations"
    key := quoted "operations".toList
    beforeColon := []
    behindColon := []
    value := operationsText.toList
    gap_beforeColon := gap_nil
    gap_behindColon := gap_nil
    key_text := stringText_plain "operations" (by decide) }
  have hunknown : JsonText unknown.value := by
    refine @JsonText.array ["null".toList] _ ?_ ⟨_, .some (.one gap_nil gap_nil), rfl⟩
    intro item hitem
    obtain rfl := List.mem_singleton.mp hitem
    exact .null
  have hfills : Fills (documentSlots 126 smallDocument) [unknown, operations] := by
    refine ⟨?_, ?_, ?_⟩
    · intro member hmember slot hslot hkey
      simp only [documentSlots, List.mem_cons, List.not_mem_nil, or_false] at hmember hslot
      rcases hmember with rfl | rfl
      · rcases hslot with rfl | rfl | rfl <;> exact absurd hkey (by decide)
      · rcases hslot with rfl | rfl | rfl
        · exact operationsText_small
        · exact absurd hkey (by decide)
        · exact absurd hkey (by decide)
    · intro member hmember hother
      simp only [List.mem_cons, List.not_mem_nil, or_false] at hmember
      rcases hmember with rfl | rfl
      · exact hunknown
      · exact absurd rfl (hother _ List.mem_cons_self)
    · intro slot hslot
      simp only [documentSlots, List.mem_cons, List.not_mem_nil, or_false] at hslot
      rcases hslot with rfl | rfl | rfl <;> decide
  have homitted : ∀ slot ∈ documentSlots 126 smallDocument,
      slot.key ∉ [unknown, operations].map NamedMember.name → slot.omittable := by
    intro slot hslot hmissing
    simp only [documentSlots, List.mem_cons, List.not_mem_nil, or_false] at hslot
    rcases hslot with rfl | rfl | rfl
    · exact absurd (List.mem_cons_of_mem _ List.mem_cons_self) hmissing
    · exact rfl
    · exact rfl
  exact ⟨[' '], _, [], rfl, gap_space, gap_nil, .object hfills homitted
    ⟨_, .some (.more gap_nil gap_nil (.one gap_space gap_nil)), rfl⟩⟩

theorem Document.parse_smallText : Document.parse smallText = .ok smallDocument :=
  Document.parse_of_documentText documentText_small

end Small

end ResultLayout
