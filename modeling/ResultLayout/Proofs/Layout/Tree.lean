import ResultLayout.Descriptor
/-!
# Records in a tree

A record holds another at the path of response names that leads to it through nested records. The
names below a record are listed in the order in which the records are laid out, each before those
below it.
-/
namespace ResultLayout

mutual

/-- The names of all records below, the outer ones first. -/
def RecordType.nestedNames : RecordType → List String
  | ⟨_, _, members, _⟩ => nestedNamesOf members

@[inherit_doc RecordType.nestedNames]
def Member.nestedNames : Member → List String
  | ⟨_, _, _, _, none, _, _, _, _⟩ => []
  | ⟨_, _, _, _, some nested, _, _, _, _⟩ => nested.name :: nested.nestedNames

@[inherit_doc RecordType.nestedNames]
def nestedNamesOf : List Member → List String
  | [] => []
  | member :: members => member.nestedNames ++ nestedNamesOf members

end

/-- The name of a record and the names below it. -/
def RecordType.allNames (record : RecordType) : List String := record.name :: record.nestedNames

/-- The record holds another one at the path of response names. -/
inductive RecordType.Holds : RecordType → List String → RecordType → Prop
  | here (record : RecordType) : Holds record [] record
  | inMember {record nested deeper : RecordType} {member : Member} {path : List String}
    (hmember : member ∈ record.members) (hnested : member.nested = some nested)
    (hholds : Holds nested path deeper) : Holds record (member.responseName :: path) deeper

/-- The record at a path, by the first member of each name. -/
def RecordType.nestedAt? (record : RecordType) : List String → Option RecordType
  | [] => some record
  | name :: path =>
    match (record.member? name).bind (·.nested) with
    | none => none
    | some nested => nested.nestedAt? path

theorem RecordType.mem_of_member? {record : RecordType} {name : String} {member : Member}
    (h : record.member? name = some member) :
    member ∈ record.members ∧ member.responseName = name := by
  rw [member?] at h
  exact ⟨List.mem_of_find?_eq_some h, by simpa using List.find?_some h⟩

theorem RecordType.holds_of_nestedAt? {record deeper : RecordType} {path : List String}
    (h : record.nestedAt? path = some deeper) : record.Holds path deeper := by
  induction path generalizing record with
  | nil =>
    obtain rfl := Option.some.inj h
    exact .here record
  | cons name path ih =>
    rw [nestedAt?] at h
    split at h
    next => cases h
    next nested hfound =>
      obtain ⟨member, hfirst, hnested⟩ := Option.bind_eq_some_iff.mp hfound
      obtain ⟨hmember, rfl⟩ := mem_of_member? hfirst
      exact .inMember hmember hnested (ih h)

private theorem nestedNamesOf_eq_flatMap (members : List Member) :
    nestedNamesOf members = members.flatMap (·.nestedNames) := by
  induction members with
  | nil => rfl
  | cons member members ih => rw [nestedNamesOf, ih, List.flatMap_cons]

private theorem Member.mem_nestedNames {member : Member} {name : String} :
    name ∈ member.nestedNames ↔
      ∃ nested, member.nested = some nested ∧ name ∈ nested.allNames := by
  obtain ⟨_, _, _, _, _ | nested, _, _, _, _⟩ := member
  · simp [nestedNames]
  · simp [nestedNames, RecordType.allNames]

private theorem RecordType.mem_nestedNames {record : RecordType} {name : String} :
    name ∈ record.nestedNames ↔ ∃ member ∈ record.members, name ∈ member.nestedNames := by
  obtain ⟨_, _, members, _⟩ := record
  rw [nestedNames, nestedNamesOf_eq_flatMap, List.mem_flatMap]

private theorem sizeOf_nested_lt {record nested : RecordType} {member : Member}
    (hmember : member ∈ record.members) (hnested : member.nested = some nested) :
    sizeOf nested < sizeOf record := by
  obtain ⟨_, _, members, _⟩ := record
  obtain ⟨_, _, _, _, _, _, _, _, _⟩ := member
  have hmem := List.sizeOf_lt_of_mem hmember
  dsimp only at hnested
  subst hnested
  simp only [Member.mk.sizeOf_spec, RecordType.mk.sizeOf_spec, Option.some.sizeOf_spec] at hmem ⊢
  omega

private theorem RecordType.mem_allNames_iff (record : RecordType) {name : String} :
    name ∈ record.allNames ↔ ∃ path deeper, record.Holds path deeper ∧ deeper.name = name := by
  constructor
  · intro h
    rcases List.mem_cons.mp h with rfl | hbelow
    · exact ⟨[], record, .here record, rfl⟩
    · obtain ⟨member, hmember, hname⟩ := mem_nestedNames.mp hbelow
      obtain ⟨nested, hnested, hname⟩ := Member.mem_nestedNames.mp hname
      obtain ⟨path, deeper, hholds, hname⟩ := nested.mem_allNames_iff.mp hname
      exact ⟨_, deeper, .inMember hmember hnested hholds, hname⟩
  · rintro ⟨path, deeper, hholds, rfl⟩
    induction hholds with
    | here record => exact List.mem_cons_self
    | inMember hmember hnested _ ih =>
      exact List.mem_cons_of_mem _
        (mem_nestedNames.mpr ⟨_, hmember, Member.mem_nestedNames.mpr ⟨_, hnested, ih⟩⟩)
termination_by sizeOf record
decreasing_by exact sizeOf_nested_lt hmember hnested

end ResultLayout
