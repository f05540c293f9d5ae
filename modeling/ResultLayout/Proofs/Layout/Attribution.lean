import ResultLayout.Proofs.Layout.Level
/-!
# Sources of conflicting fields

A conflict names two fields at one path of response names and the source of each. The source tells
where the field is written in its own selection set, that of the field above it: directly, or in a
fragment that this selection set spreads or opens. The fragments around the fields on the way do not
show. A field that stands in a fragment only because a field above it does is reported as direct.
-/
namespace ResultLayout

namespace FragmentRegistry

/-- A selection set at a path of response names below another one, with the fragments around the
fields on the way, the outermost first. -/
inductive LeadsTo (registry : FragmentRegistry) :
    SelectionSet → List String → List FragmentScope → SelectionSet → Prop
  | here (selection : SelectionSet) : LeadsTo registry selection [] [] selection
  | deeper {selection inner : SelectionSet} {outer : Occurrence} {path : List String}
    {around : List FragmentScope} (hselects : registry.Selects selection outer)
    (hleads : LeadsTo registry outer.field.selection path around inner) :
    LeadsTo registry selection (outer.responseName :: path) (outer.enclosing ++ around) inner

/-- Where an occurrence is written in its selection set: among its own fields, or in the body of a
fragment that the selection set spreads or opens, at any depth of further fragments. -/
inductive WrittenIn (registry : FragmentRegistry) (selection : SelectionSet) :
    Occurrence → FieldSource → Prop
  | own {field : Field} (hfield : field ∈ selection.fields) :
    WrittenIn registry selection ⟨[], field⟩ .direct
  | spread {name : String} {fragment : Fragment} {inner : Occurrence}
    (hname : name ∈ selection.spreads) (hfind : registry.find? name = some fragment)
    (hinner : registry.Selects fragment.selection inner) :
    WrittenIn registry selection (inner.within fragment.spreadScope) (.fragmentSpread name)
  | inline {fragment : InlineFragment} {inner : Occurrence}
    (hfragment : fragment ∈ selection.inlineFragments)
    (hinner : registry.Selects fragment.body inner) :
    WrittenIn registry selection (inner.within fragment.scope)
      (.inlineFragment fragment.typeCondition)

/-- At the path stands a field with the response name and shape, and the source tells where it is
written in its selection set. It is direct exactly if no fragment of this selection set encloses the
field, whichever fragments enclose the fields on the way. -/
def AttributesAt (registry : FragmentRegistry) (selection : SelectionSet) (path : List String)
    (responseName : String) (shape : FieldShape) (source : FieldSource) : Prop :=
  ∃ around inner occurrence, registry.LeadsTo selection path around inner ∧
    registry.WrittenIn inner occurrence source ∧ occurrence.responseName = responseName ∧
    occurrence.fieldName = shape.fieldName ∧ occurrence.type? = .ok shape.type ∧
    (source = .direct ↔ occurrence.enclosing = [])

variable {registry : FragmentRegistry} {selection : SelectionSet}

private theorem Selects.writtenIn {occurrence : Occurrence}
    (h : registry.Selects selection occurrence) :
    registry.WrittenIn selection occurrence occurrence.source := by
  cases h with
  | own hfield => exact .own hfield
  | @spread _ name fragment inner hname hfind hinner =>
    have hsource : (inner.within fragment.spreadScope).source = .fragmentSpread name := by
      rw [← name_of_findFragment? hfind]
      rfl
    rw [hsource]
    exact .spread hname hfind hinner
  | inline hfragment hinner => exact .inline hfragment hinner

private theorem WrittenIn.direct_iff {occurrence : Occurrence} {source : FieldSource}
    (h : registry.WrittenIn selection occurrence source) :
    source = .direct ↔ occurrence.enclosing = [] := by
  cases h <;> simp [Occurrence.within]

private theorem Selects.attributesAt {occurrence : Occurrence} {type : TypeRef}
    (h : registry.Selects selection occurrence) (htype : occurrence.type? = .ok type) :
    registry.AttributesAt selection [] occurrence.responseName ⟨occurrence.fieldName, type⟩
      occurrence.source :=
  ⟨[], selection, occurrence, .here selection, h.writtenIn, rfl, rfl, htype,
    h.writtenIn.direct_iff⟩

theorem AttributesAt.deeper {outer : Occurrence} {path : List String} {responseName : String}
    {shape : FieldShape} {source : FieldSource} (hselects : registry.Selects selection outer)
    (h : registry.AttributesAt outer.field.selection path responseName shape source) :
    registry.AttributesAt selection (outer.responseName :: path) responseName shape source := by
  obtain ⟨around, inner, occurrence, hleads, hwritten⟩ := h
  exact ⟨_, inner, occurrence, .deeper hselects hleads, hwritten⟩

private theorem Safe.exists_path_of_conflict (hsafe : registry.Safe) {resolve : String → LeafKind}
    {name schemaTypeName : String} {selections : List SelectionSet} {names : NameAllocator}
    {parent responseName : String} {firstShape secondShape : FieldShape}
    {firstSource secondSource : FieldSource}
    (h : (layoutRecord resolve name schemaTypeName (selections.flatMap registry.writeOut) names).1 =
      .error (.conflictingShapes parent responseName firstShape firstSource secondShape
        secondSource)) :
    ∃ path,
      (∃ first ∈ selections,
        registry.AttributesAt first path responseName firstShape firstSource) ∧
      ∃ second ∈ selections,
        registry.AttributesAt second path responseName secondShape secondSource := by
  refine hsafe.layout_error_induction (P := fun _ selections error =>
    error = .conflictingShapes parent responseName firstShape firstSource secondShape
      secondSource → ∃ path,
      (∃ first ∈ selections,
        registry.AttributesAt first path responseName firstShape firstSource) ∧
      ∃ second ∈ selections,
        registry.AttributesAt second path responseName secondShape secondSource)
    ?malformed ?undefined ?conflict ?nested h rfl
  case malformed => intro _ _ _ _ _ _ _ _ herror; cases herror
  case undefined => intro _ _ _ _ _ _ _ herror; cases herror
  case conflict =>
    intro schemaTypeName selections occurrences hwalk a ha b hb s t hname hs ht _ herror
    obtain ⟨-, rfl, rfl, rfl, rfl, rfl⟩ := CompileError.conflictingShapes.inj herror
    obtain ⟨first, hfirst, hselects⟩ := hwalk.mem_iff_selects.mp ha
    obtain ⟨second, hsecond, hselectsToo⟩ := hwalk.mem_iff_selects.mp hb
    refine ⟨[], ⟨first, hfirst, hselects.attributesAt hs⟩, second, hsecond, ?_⟩
    have hattributes := hselectsToo.attributesAt ht
    rwa [← hname] at hattributes
  case nested =>
    intro schemaTypeName selections occurrences hwalk occurrence _ type error _ ih herror
    have hstep {below : SelectionSet} {path : List String} {shape : FieldShape}
        {source : FieldSource}
        (hbelow : below ∈ (occurrences.filter
          (·.responseName = occurrence.responseName)).map (·.field.selection))
        (h : registry.AttributesAt below path responseName shape source) :
        ∃ above ∈ selections, registry.AttributesAt above (occurrence.responseName :: path)
          responseName shape source := by
      obtain ⟨outer, houter, rfl⟩ := List.mem_map.mp hbelow
      obtain ⟨hmem, hsame⟩ := List.mem_filter.mp houter
      obtain ⟨above, habove, hselects⟩ := hwalk.mem_iff_selects.mp hmem
      rw [← of_decide_eq_true hsame]
      exact ⟨above, habove, h.deeper hselects⟩
    obtain ⟨path, ⟨first, hfirst, ha⟩, second, hsecond, hb⟩ := ih herror
    exact ⟨occurrence.responseName :: path, hstep hfirst ha, hstep hsecond hb⟩

end FragmentRegistry

/-- The two fields of a reported conflict stand at one path of response names, and the source of each
is the place in its own selection set where it is written. -/
theorem conflict_attributed_at_level {collection : FragmentCollection}
    {registry : FragmentRegistry} (hbuild : collection.build = .ok registry)
    {resolve : String → LeafKind} {name schemaTypeName : String} {selection : SelectionSet}
    {names : NameAllocator} {parent responseName : String} {firstShape secondShape : FieldShape}
    {firstSource secondSource : FieldSource}
    (hconflict : (layoutRoot registry resolve name schemaTypeName selection names).1 =
      .error (.conflictingShapes parent responseName firstShape firstSource secondShape
        secondSource)) :
    ∃ path, registry.AttributesAt selection path responseName firstShape firstSource ∧
      registry.AttributesAt selection path responseName secondShape secondSource := by
  rw [FragmentRegistry.layoutRoot_eq_layoutRecord] at hconflict
  obtain ⟨path, ⟨first, hfirst, ha⟩, second, hsecond, hb⟩ :=
    (FragmentRegistry.safe_of_build hbuild).exists_path_of_conflict hconflict
  obtain rfl := List.mem_singleton.mp hfirst
  obtain rfl := List.mem_singleton.mp hsecond
  exact ⟨path, ha, hb⟩

section Employer

/-- A schema field selected as the name of a company. -/
def companyName (fieldName : String) : Field :=
  ⟨{ responseName := "name", fieldName := fieldName, typeText := "String" }, .empty⟩

def employerField (selection : SelectionSet) : Field :=
  ⟨{ responseName := "employer", fieldName := "employer", typeText := "Company" }, selection⟩

def legalNameFragment : Fragment where
  name := "LegalName"
  typeCondition := "Company"
  selection := ⟨[companyName "legalName"], [], []⟩

def employerNameFragment : Fragment where
  name := "EmployerName"
  typeCondition := "Person"
  selection := ⟨[employerField ⟨[companyName "legalName"], [], []⟩], [], []⟩

def legalNameFragments : FragmentCollection where
  fragments := [legalNameFragment, employerNameFragment]
  nodup_names := by decide

def legalNames : FragmentRegistry := ⟨legalNameFragments.fragments⟩

private theorem build_legalNameFragments : legalNameFragments.build = .ok legalNames :=
  FragmentCollection.build_eq_ok_iff.mpr ⟨rfl, by decide +kernel, by decide +kernel⟩

/-- The trade name of the employer and, through a fragment beside it, the legal name. -/
def fragmentOnCompany : SelectionSet :=
  ⟨[employerField ⟨[companyName "tradeName"], ["LegalName"], []⟩], [], []⟩

/-- The trade name of the employer and, through a fragment on the person, the legal name. -/
def fragmentOnPerson : SelectionSet :=
  ⟨[employerField ⟨[companyName "tradeName"], [], []⟩], ["EmployerName"], []⟩

theorem company_fragment_reported :
    legalNameFragments.build = .ok legalNames ∧
    (layoutRoot legalNames (fun _ => .enum) "Data" "Person" fragmentOnCompany .initial).1 =
      .error (.conflictingShapes "Company" "name" ⟨"tradeName", .named "String" true⟩ .direct
        ⟨"legalName", .named "String" true⟩ (.fragmentSpread "LegalName")) ∧
    ∃ path, legalNames.AttributesAt fragmentOnCompany path "name"
        ⟨"tradeName", .named "String" true⟩ .direct ∧
      legalNames.AttributesAt fragmentOnCompany path "name"
        ⟨"legalName", .named "String" true⟩ (.fragmentSpread "LegalName") := by
  have hconflict : (layoutRoot legalNames (fun _ => .enum) "Data" "Person" fragmentOnCompany
      .initial).1 = .error (.conflictingShapes "Company" "name"
        ⟨"tradeName", .named "String" true⟩ .direct
        ⟨"legalName", .named "String" true⟩ (.fragmentSpread "LegalName")) :=
    eq_error_of_error? (by decide +kernel)
  exact ⟨build_legalNameFragments, hconflict,
    conflict_attributed_at_level build_legalNameFragments hconflict⟩

private theorem selects_of_fields {registry : FragmentRegistry} {fields : List Field}
    {occurrence : Occurrence} (h : registry.Selects ⟨fields, [], []⟩ occurrence) :
    ∃ field ∈ fields, occurrence = ⟨[], field⟩ := by
  cases h with
  | own hfield => exact ⟨_, hfield, rfl⟩
  | spread hname _ _ => cases hname
  | inline hfragment _ => cases hfragment

private theorem selects_fragmentOnPerson {occurrence : Occurrence}
    (h : legalNames.Selects fragmentOnPerson occurrence) :
    occurrence = ⟨[], employerField ⟨[companyName "tradeName"], [], []⟩⟩ ∨
    occurrence = ⟨[employerNameFragment.spreadScope],
      employerField ⟨[companyName "legalName"], [], []⟩⟩ := by
  cases h with
  | own hfield =>
    obtain rfl := List.mem_singleton.mp hfield
    exact Or.inl rfl
  | spread hname hfind hinner =>
    obtain rfl := List.mem_singleton.mp hname
    obtain rfl : employerNameFragment = _ := Option.some.inj hfind
    obtain ⟨field, hfield, rfl⟩ := selects_of_fields hinner
    obtain rfl := List.mem_singleton.mp hfield
    exact Or.inr rfl
  | inline hfragment _ => cases hfragment

private theorem below_companyName {registry : FragmentRegistry} {fieldName : String}
    {path : List String} {around : List FragmentScope} {inner : SelectionSet}
    {occurrence : Occurrence}
    (hleads : registry.LeadsTo ⟨[companyName fieldName], [], []⟩ path around inner)
    (hselects : registry.Selects inner occurrence) :
    around = [] ∧ occurrence = ⟨[], companyName fieldName⟩ := by
  cases hleads with
  | here =>
    obtain ⟨field, hfield, rfl⟩ := selects_of_fields hselects
    simpa using hfield
  | deeper houter hleads =>
    obtain ⟨field, hfield, rfl⟩ := selects_of_fields houter
    obtain rfl := List.mem_singleton.mp hfield
    have hnothing {other : Occurrence} (h : registry.Selects .empty other) : False := by
      obtain ⟨field, hfield, -⟩ := selects_of_fields h
      cases hfield
    cases hleads with
    | here => exact (hnothing hselects).elim
    | deeper hdeeper _ => exact (hnothing hdeeper).elim

/-- The legal name stands in the body of the fragment only, and is reported as direct. -/
theorem legal_name_reported_direct :
    legalNameFragments.build = .ok legalNames ∧
    (layoutRoot legalNames (fun _ => .enum) "Data" "Person" fragmentOnPerson .initial).1 =
      .error (.conflictingShapes "Company" "name" ⟨"tradeName", .named "String" true⟩ .direct
        ⟨"legalName", .named "String" true⟩ .direct) ∧
    ∀ path around inner occurrence, legalNames.LeadsTo fragmentOnPerson path around inner →
      legalNames.Selects inner occurrence → occurrence.fieldName = "legalName" →
      around ++ occurrence.enclosing = [employerNameFragment.spreadScope] := by
  refine ⟨build_legalNameFragments, eq_error_of_error? (by decide +kernel), ?_⟩
  intro path around inner occurrence hleads hselects hname
  cases hleads with
  | here =>
    rcases selects_fragmentOnPerson hselects with rfl | rfl <;>
      simp [Occurrence.fieldName, employerField] at hname
  | deeper houter hleads =>
    rcases selects_fragmentOnPerson houter with rfl | rfl
    · obtain ⟨-, rfl⟩ := below_companyName hleads hselects
      simp [Occurrence.fieldName, companyName] at hname
    · obtain ⟨rfl, rfl⟩ := below_companyName hleads hselects
      rfl

end Employer

end ResultLayout
