import ResultLayout.Proofs.Layout.Description
/-!
# Well-formed records

Every record of a tree belongs to a level: the schema type and the selection sets that it is laid out
for, and the occurrences that the walk through them meets. What holds of a record whenever it is laid
out for its level holds of every record of the tree. So in every record a member combines exactly the
occurrences of its response name; what they may differ in it takes from the first of them.
-/
namespace ResultLayout

/-- Every record of a tree has a property at the level that it is laid out for. The level of a nested
record gathers the selection sets of its member's occurrences. -/
inductive RecordType.EachLevel (registry : FragmentRegistry)
    (P : String → List SelectionSet → List Occurrence → RecordType → Prop) :
    String → List SelectionSet → RecordType → Prop
  | mk {schemaTypeName : String} {selections : List SelectionSet} {occurrences : List Occurrence}
    {record : RecordType} (hwalk : registry.Walks (selections.flatMap (·.items)) occurrences)
    (hlevel : P schemaTypeName selections occurrences record)
    (hnested : ∀ member ∈ record.members, ∀ nested, member.nested = some nested →
      EachLevel registry P member.type.innermostName
        ((occurrences.filter (·.responseName = member.responseName)).map (·.field.selection))
        nested) :
    EachLevel registry P schemaTypeName selections record

/-- A member stands for some occurrences on a schema type, in the order of the walk. -/
structure Member.Combines (resolve : String → LeafKind) (schemaTypeName : String)
    (occurrences : List Occurrence) (member : Member) : Prop where
  type?_eq : ∀ occurrence ∈ occurrences, occurrence.type? = .ok member.type
  nested_iff : member.nested.isSome = true ↔
    ∃ occurrence ∈ occurrences, occurrence.field.hasSelection = true
  nested_schemaTypeName : ∀ nested, member.nested = some nested →
    nested.schemaTypeName = member.type.innermostName
  leafKind_of_nested : member.nested.isSome = true → member.leafKind = .composite
  leafKind_of_leaf : member.nested = none → member.leafKind = resolve member.type.innermostName
  /-- A resolver that takes no leaf for a record lets records be told by the kind. -/
  composite_iff : resolve member.type.innermostName ≠ .composite →
    (member.nested.isSome = true ↔ member.leafKind = .composite)
  conditional_iff : member.conditional = true ↔ ∀ occurrence ∈ occurrences,
    occurrence.field.head.isConditional = true ∨
      ∃ scope ∈ occurrence.enclosing, scope.typeCondition ≠ schemaTypeName
  first : ∃ first rest, occurrences = first :: rest ∧
    member.fieldName = first.fieldName ∧ member.source = first.source ∧
    member.description = first.field.head.description ∧
    member.deprecationReason =
      if first.field.head.isDeprecated then some (first.field.head.deprecationReason.getD "")
      else none

/-- The members of a record have different names, and each of them stands for the occurrences of its
name at the record's level. -/
structure RecordType.WellFormed (resolve : String → LeafKind) (schemaTypeName : String)
    (occurrences : List Occurrence) (record : RecordType) : Prop where
  schemaTypeName_eq : record.schemaTypeName = schemaTypeName
  nodup : (record.members.map (·.responseName)).Nodup
  members : ∀ member ∈ record.members, member.Combines resolve schemaTypeName
    (occurrences.filter (·.responseName = member.responseName))

private theorem Field.hasSelection_iff (field : Field) :
    field.hasSelection = true ↔ field.selection.items ≠ [] := by
  simp [hasSelection, SelectionSet.isEmpty, SelectionSet.items, imp_iff_not_or, or_assoc]

namespace FragmentRegistry

variable {registry : FragmentRegistry} {resolve : String → LeafKind}

/-- The nested records of a level are known by their schema type alone. -/
def NestedOn (schemaTypeName : String) (_ : List SelectionSet) (nested : RecordType) : Prop :=
  nested.schemaTypeName = schemaTypeName

/-- What holds of every level that is laid out holds along the whole tree. -/
theorem Safe.eachLevel_of_layout_ok (hsafe : registry.Safe)
    {P : String → List SelectionSet → List Occurrence → RecordType → Prop}
    (step : ∀ schemaTypeName selections occurrences record,
      registry.LevelLayout resolve NestedOn schemaTypeName selections occurrences record →
      P schemaTypeName selections occurrences record)
    {name schemaTypeName : String} {selections : List SelectionSet} {names : NameAllocator}
    {record : RecordType}
    (h : (layoutRecord resolve name schemaTypeName (selections.flatMap registry.writeOut)
      names).1 = .ok record) : record.EachLevel registry P schemaTypeName selections := by
  have hboth := hsafe.layout_ok_induction (P := fun schemaTypeName selections record =>
    record.schemaTypeName = schemaTypeName ∧
      record.EachLevel registry P schemaTypeName selections) ?step h
  case step =>
    intro schemaTypeName selections occurrences record hlevel
    have hstep := step _ _ _ _ (hlevel.mono fun _ _ _ hnested => hnested.1)
    refine ⟨hlevel.schemaTypeName_eq, .mk hlevel.walk hstep ?_⟩
    intro member hmember nested hnested
    rcases (hlevel.members member hmember).nested_cases with ⟨hnone, -⟩ | ⟨other, hsome, heach⟩
    · simp [hnone] at hnested
    · obtain rfl := Option.some.inj (hsome.symm.trans hnested)
      exact heach.2
  exact hboth.2

namespace MemberOf

variable {P : String → List SelectionSet → RecordType → Prop} {schemaTypeName : String}
  {mine : List Occurrence} {member : Member}

theorem exists_first (h : registry.MemberOf resolve P schemaTypeName mine member) :
    ∃ first rest, mine = first :: rest ∧
      member.fieldName = first.fieldName ∧ member.source = first.source ∧
      member.description = first.field.head.description ∧
      member.deprecationReason =
        if first.field.head.isDeprecated then some (first.field.head.deprecationReason.getD "")
        else none := by
  obtain ⟨group, hcontributes, hmember⟩ := h
  rw [Group.toList] at hcontributes
  cases hcontributes with
  | @cons first _ rest _ hfirst _ =>
    obtain ⟨type, -, hfirst⟩ := hfirst
    refine ⟨first, rest, rfl, ?_⟩
    cases hmember <;> simp [Group.member, hfirst, Occurrence.contribution, Occurrence.fieldName]

private theorem combines (h : registry.MemberOf resolve NestedOn schemaTypeName mine member) :
    member.Combines resolve schemaTypeName mine := by
  have hnested := h.nested_iff
  have hkind := h.leafKind_eq
  refine ⟨fun _ => h.type?_eq, by simpa only [Field.hasSelection_iff] using hnested, ?_, ?_, ?_, ?_, ?_,
    h.exists_first⟩
  · intro nested hsome
    rcases h.nested_cases with ⟨hnone, -⟩ | ⟨other, hother, hschemaType⟩
    · simp [hnone] at hsome
    · obtain rfl := Option.some.inj (hother.symm.trans hsome)
      exact hschemaType
  · intro hsome
    rw [hkind, if_pos hsome]
  · intro hnone
    simp [hkind, hnone]
  · intro hleaf
    by_cases hsome : member.nested.isSome = true <;> simp [hkind, hsome, hleaf]
  · rw [h.conditional_iff]
    simp [Occurrence.conditional, FragmentScope.narrows, or_comm]

end MemberOf

private theorem LevelLayout.wellFormed {schemaTypeName : String} {selections : List SelectionSet}
    {occurrences : List Occurrence} {record : RecordType}
    (h : registry.LevelLayout resolve NestedOn schemaTypeName selections occurrences record) :
    record.WellFormed resolve schemaTypeName occurrences := by
  refine ⟨h.schemaTypeName_eq, ?_, fun member hmember => (h.members member hmember).combines⟩
  rw [h.responseNames]
  exact nodup_firstSeen _

end FragmentRegistry

private theorem LeafResolver.resolve_ne_composite (resolver : LeafResolver) (typeName : String) :
    resolver.resolve typeName ≠ .composite := by
  rw [resolve]
  repeat' split
  all_goals simp

/-- All records of a tree are well-formed, whatever resolver is asked for the kinds of leaves; the one
that knows the declarations of a document takes no leaf for a record. -/
theorem layoutRoot_wellFormed {collection : FragmentCollection} {registry : FragmentRegistry}
    (hbuild : collection.build = .ok registry) {resolve : String → LeafKind}
    {name schemaTypeName : String} {selection : SelectionSet} {names : NameAllocator}
    {record : RecordType}
    (hrecord : (layoutRoot registry resolve name schemaTypeName selection names).1 = .ok record) :
    record.EachLevel registry (fun levelType _ occurrences nested =>
      nested.WellFormed resolve levelType occurrences) schemaTypeName [selection] ∧
    ∀ (resolver : LeafResolver) (typeName : String), resolver.resolve typeName ≠ .composite := by
  rw [FragmentRegistry.layoutRoot_eq_layoutRecord] at hrecord
  refine ⟨?_, LeafResolver.resolve_ne_composite⟩
  apply (FragmentRegistry.safe_of_build hbuild).eachLevel_of_layout_ok _ hrecord
  intro _ _ _ _ hlevel
  exact hlevel.wellFormed

section Hero

/-- A fragment on other objects that names the hero without selecting anything on it. -/
def heroMarkFragments : FragmentCollection where
  fragments := [{
    name := "HeroMark", typeCondition := "Stage", possibleTypes := ["Query"]
    selection := ⟨[⟨{ responseName := "hero", fieldName := "hero", typeText := "Character"
                      isDeprecated := true }, .empty⟩], [], []⟩ }]
  nodup_names := by decide

def bornHeroSelection : SelectionSet where
  fields := [⟨{ responseName := "hero", fieldName := "hero", typeText := "Character" },
    ⟨[⟨{ responseName := "born", fieldName := "born", typeText := "Date!"
         isConditional := true, isDeprecated := true }, .empty⟩], [], []⟩⟩]
  spreads := ["HeroMark"]
  inlineFragments := []

theorem layoutRoot_hero_wellFormed : ∃ record,
    heroMarkFragments.build = .ok ⟨heroMarkFragments.fragments⟩ ∧
    (layoutRoot ⟨heroMarkFragments.fragments⟩ (LeafResolver.resolve ⟨[], []⟩) "Data" "Query"
      bornHeroSelection .initial).1 = .ok record ∧
    record.EachLevel ⟨heroMarkFragments.fragments⟩ (fun levelType _ occurrences nested =>
      nested.WellFormed (LeafResolver.resolve ⟨[], []⟩) levelType occurrences) "Query"
      [bornHeroSelection] ∧
    ∀ (resolver : LeafResolver) (typeName : String), resolver.resolve typeName ≠ .composite := by
  have hbuild : heroMarkFragments.build = .ok ⟨heroMarkFragments.fragments⟩ :=
    FragmentCollection.build_eq_ok_iff.mpr ⟨rfl, by decide +kernel, by decide +kernel⟩
  obtain ⟨record, hrecord⟩ : ∃ record, (layoutRoot ⟨heroMarkFragments.fragments⟩
      (LeafResolver.resolve ⟨[], []⟩) "Data" "Query" bornHeroSelection .initial).1 = .ok record :=
    exists_record_of_isOk (by decide +kernel)
  exact ⟨record, hbuild, hrecord, layoutRoot_wellFormed hbuild hrecord⟩

end Hero

end ResultLayout
