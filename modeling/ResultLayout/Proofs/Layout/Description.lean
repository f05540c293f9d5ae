import ResultLayout.Proofs.Layout.Bounded
import ResultLayout.Proofs.Layout.Success
/-!
# What records say about their levels

A record that was laid out says the same about its level whatever the order of the selections: which
response names the level selects, what all its occurrences of one name have in common, and which
fragments are spread on it. Its nested records say this about the levels below.
-/
namespace ResultLayout

/-- A member states what all occurrences of its response name have in common: their type, whether
each of them may be absent, and whether one of them selects something further. -/
structure Member.Describes (registry : FragmentRegistry) (resolve : String → LeafKind)
    (member : Member) (level : Level) : Prop where
  selected : ∃ occurrence, level.Selects registry occurrence ∧
    occurrence.responseName = member.responseName
  type?_eq : ∀ occurrence, level.Selects registry occurrence →
    occurrence.responseName = member.responseName → occurrence.type? = .ok member.type
  conditional_iff : member.conditional = true ↔ ∀ occurrence, level.Selects registry occurrence →
    occurrence.responseName = member.responseName →
    occurrence.conditional level.schemaTypeName = true
  nested_iff : member.nested.isSome = true ↔ ∃ occurrence, level.Selects registry occurrence ∧
    occurrence.responseName = member.responseName ∧ occurrence.field.selection.items ≠ []
  leafKind_eq : member.leafKind =
    if member.nested.isSome then .composite else resolve member.type.innermostName

/-- A record and its nested records describe a level and the levels below it. -/
inductive RecordType.Describes (registry : FragmentRegistry) (resolve : String → LeafKind) :
    RecordType → Level → Prop
  | mk {record : RecordType} {level : Level}
    (schemaTypeName_eq : record.schemaTypeName = level.schemaTypeName)
    (mem_fragmentRefs : ∀ name, name ∈ record.fragmentRefs ↔
      ∃ selection ∈ level.selections, name ∈ selection.spreadsHere)
    (nodup : (record.members.map (·.responseName)).Nodup)
    (exists_member : ∀ occurrence, level.Selects registry occurrence →
      ∃ member ∈ record.members, member.responseName = occurrence.responseName)
    (members : ∀ member ∈ record.members, member.Describes registry resolve level)
    (nested : ∀ member ∈ record.members, ∀ nested, member.nested = some nested →
      Describes registry resolve nested
        (level.below registry member.responseName member.type)) :
    Describes registry resolve record level

namespace FragmentRegistry

namespace MemberOf

variable {registry : FragmentRegistry} {resolve : String → LeafKind}
  {P : String → List SelectionSet → RecordType → Prop} {schemaTypeName : String}
  {mine : List Occurrence} {member : Member}

theorem conditional_iff (h : registry.MemberOf resolve P schemaTypeName mine member) :
    member.conditional = true ↔
      ∀ occurrence ∈ mine, occurrence.conditional schemaTypeName = true := by
  obtain ⟨group, hcontributes, hmember⟩ := h
  have hconditional : member.conditional = group.toList.all (·.conditional) := by
    cases hmember <;> rfl
  rw [hconditional, List.all_eq_true]
  constructor
  · intro hall occurrence hmem
    obtain ⟨contribution, hcontribution, type, -, rfl⟩ := exists_right_of_mem hcontributes hmem
    exact hall _ hcontribution
  · intro hall contribution hmem
    obtain ⟨occurrence, hoccurrence, type, -, rfl⟩ := exists_left_of_mem hcontributes hmem
    exact hall occurrence hoccurrence

theorem nested_iff (h : registry.MemberOf resolve P schemaTypeName mine member) :
    member.nested.isSome = true ↔ ∃ occurrence ∈ mine, occurrence.field.selection.items ≠ [] := by
  obtain ⟨group, hcontributes, hmember⟩ := h
  have hbelow : group.below = [] ↔ ∀ occurrence ∈ mine, occurrence.field.selection.items = [] := by
    rw [below_eq_flatMap hcontributes, List.flatMap_eq_nil_iff, List.forall_mem_map]
    simp only [writeOut_eq_map, List.map_eq_nil_iff]
  have hnested : member.nested.isSome = true ↔ group.below ≠ [] := by
    cases hmember with
    | leaf _ hnothing => exact iff_of_false Bool.false_ne_true (not_not_intro hnothing)
    | composite _ hsome _ => exact iff_of_true rfl hsome
  rw [hnested, Ne, hbelow]
  push Not
  rfl

theorem leafKind_eq (h : registry.MemberOf resolve P schemaTypeName mine member) :
    member.leafKind =
      if member.nested.isSome then .composite else resolve member.type.innermostName := by
  obtain ⟨group, -, hmember⟩ := h
  cases hmember <;> rfl

theorem describes {selections : List SelectionSet} {occurrences : List Occurrence}
    (h : registry.MemberOf resolve P schemaTypeName
      (occurrences.filter (·.responseName = member.responseName)) member)
    (hwalk : registry.Walks (selections.flatMap (·.items)) occurrences)
    (hselected : member.responseName ∈ occurrences.map (·.responseName)) :
    member.Describes registry resolve (Level.ofList schemaTypeName selections) := by
  have hmine (occurrence : Occurrence) :
      occurrence ∈ occurrences.filter (·.responseName = member.responseName) ↔
        (Level.ofList schemaTypeName selections).Selects registry occurrence ∧
          occurrence.responseName = member.responseName := by
    rw [List.mem_filter, decide_eq_true_iff, Level.selects_ofList_iff hwalk]
  have hconditional := h.conditional_iff
  have hnested := h.nested_iff
  simp only [hmine, and_imp, and_assoc] at hconditional hnested
  refine ⟨?_, ?_, hconditional, hnested, h.leafKind_eq⟩
  · obtain ⟨occurrence, hoccurrence, hname⟩ := List.mem_map.mp hselected
    exact ⟨occurrence, (Level.selects_ofList_iff hwalk occurrence).mpr hoccurrence, hname⟩
  · intro occurrence hselects hname
    exact h.type?_eq ((hmine occurrence).mpr ⟨hselects, hname⟩)

end MemberOf

namespace LevelLayout

variable {registry : FragmentRegistry} {resolve : String → LeafKind}
  {P : String → List SelectionSet → RecordType → Prop} {schemaTypeName : String}
  {selections : List SelectionSet} {occurrences : List Occurrence} {record : RecordType}

/-- A record lists the fragments that its selection sets spread, each where it is first seen. -/
theorem fragmentRefs_eq_firstSeen (hsafe : registry.Safe)
    (h : registry.LevelLayout resolve P schemaTypeName selections occurrences record) :
    record.fragmentRefs = firstSeen (selections.flatMap (·.spreadsHere)) := by
  have hdefined : ∀ selection ∈ selections, ∀ name, registry.SpreadsAtLevel selection name →
      ∃ fragment, registry.find? name = some fragment := by
    intro selection hselection name hspreads
    exact h.walk.defined
      (fun item hitem => List.mem_flatMap.mpr ⟨selection, hselection, hitem⟩) hspreads
  rw [h.fragmentRefs_eq, hsafe.spreadsOf_flatMap_writeOut hdefined]

theorem mem_fragmentRefs (hsafe : registry.Safe)
    (h : registry.LevelLayout resolve P schemaTypeName selections occurrences record)
    (name : String) :
    name ∈ record.fragmentRefs ↔ ∃ selection ∈ selections, name ∈ selection.spreadsHere := by
  rw [h.fragmentRefs_eq_firstSeen hsafe, mem_firstSeen, List.mem_flatMap]

end LevelLayout

/-- The records of a layout describe the levels that they are laid out for. -/
theorem Safe.describes_of_layout_ok {registry : FragmentRegistry} (hsafe : registry.Safe)
    {resolve : String → LeafKind} {name schemaTypeName : String} {selections : List SelectionSet}
    {names : NameAllocator} {record : RecordType}
    (h : (layoutRecord resolve name schemaTypeName (selections.flatMap registry.writeOut)
      names).1 = .ok record) :
    record.Describes registry resolve (Level.ofList schemaTypeName selections) := by
  refine hsafe.layout_ok_induction (P := fun schemaTypeName selections record =>
    record.Describes registry resolve (Level.ofList schemaTypeName selections)) ?step h
  intro schemaTypeName selections occurrences record hlevel
  have hnames (name : String) : name ∈ record.members.map (·.responseName) ↔
      name ∈ occurrences.map (·.responseName) := by
    rw [hlevel.responseNames, mem_firstSeen]
  refine .mk hlevel.schemaTypeName_eq (hlevel.mem_fragmentRefs hsafe) ?_ ?_ ?_ ?_
  · rw [hlevel.responseNames]
    exact nodup_firstSeen _
  · intro occurrence hselects
    obtain ⟨member, hmember, hname, -⟩ :=
      hlevel.exists_member ((Level.selects_ofList_iff hlevel.walk occurrence).mp hselects)
    exact ⟨member, hmember, hname⟩
  · intro member hmember
    exact (hlevel.members member hmember).describes hlevel.walk
      ((hnames _).mp (List.mem_map_of_mem hmember))
  · intro member hmember nested hnested
    rcases (hlevel.members member hmember).nested_cases with ⟨hnone, -⟩ | ⟨other, hsome, hdescribes⟩
    · rw [hnested] at hnone
      cases hnone
    · rw [hnested] at hsome
      obtain rfl := Option.some.inj hsome
      rw [Level.below_ofList hlevel.walk]
      exact hdescribes

end FragmentRegistry
end ResultLayout
