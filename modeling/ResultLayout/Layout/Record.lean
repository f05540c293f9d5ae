import ResultLayout.Layout.Size
import ResultLayout.Naming.Allocator
import ResultLayout.Naming.Capitalize
/-!
# Layout of records

A level becomes a record: one member for each response name, in the order in which the walk first
meets the names. Members are laid out one after the other. A member whose contributions select
something gets a record of its own over the selections of all of them; the name of that record is
allocated before the record is laid out. Names stay taken when a layout fails.
-/
namespace ResultLayout

namespace Group

variable {Below : Type}

/-- The name of the schema type on which the group's selections are made. -/
def schemaTypeName (group : Group Below) : String := group.first.type.innermostName

/-- The member of a group. All that contributions may differ in comes from the first. -/
def member (group : Group Below) (leafKind : LeafKind) (nested : Option RecordType) : Member where
  responseName := group.responseName
  fieldName := group.first.head.fieldName
  type := group.first.type
  leafKind := leafKind
  nested := nested
  conditional := group.toList.all (·.conditional)
  description := group.first.head.description
  deprecationReason :=
    if group.first.head.isDeprecated then some (group.first.head.deprecationReason.getD "")
    else none
  source := group.first.source

end Group

mutual

/-- Lays out a level as a record. -/
def layoutRecord (resolve : String → LeafKind) (name schemaTypeName : String)
    (selections : List Selected) (names : NameAllocator) :
    Except CompileError RecordType × NameAllocator :=
  match _h : contributions (levelVisits schemaTypeName selections) with
  | .error error => (.error error, names)
  | .ok contributions =>
    match layoutMembers resolve schemaTypeName (Group.ofContributions contributions) names with
    | (.error error, names) => (.error error, names)
    | (.ok members, names) =>
      (.ok {
        name, schemaTypeName, members
        fragmentRefs := firstSeen (Selected.spreadsHere.spreadsOf selections) }, names)
termination_by 2 * selectionSize selections + 1
decreasing_by
  have := weight_groups_le _h
  omega

/-- Lays out the members of a record on a schema type. -/
def layoutMembers (resolve : String → LeafKind) (schemaTypeName : String)
    (groups : List (Group (List Selected))) (names : NameAllocator) :
    Except CompileError (List Member) × NameAllocator :=
  match groups with
  | [] => (.ok [], names)
  | group :: groups =>
    match group.conflict? with
    | some (first, second) =>
      (.error (conflictError schemaTypeName group.responseName first second), names)
    | none =>
      if group.below.isEmpty then
        let (members, names) := layoutMembers resolve schemaTypeName groups names
        (members.map (group.member (resolve group.schemaTypeName) none :: ·), names)
      else
        let (nestedName, names) := names.allocate (capitalize group.responseName)
        match layoutRecord resolve nestedName group.schemaTypeName group.below names with
        | (.error error, names) => (.error error, names)
        | (.ok nested, names) =>
          let (members, names) := layoutMembers resolve schemaTypeName groups names
          (members.map (group.member .composite (some nested) :: ·), names)
termination_by 2 * totalWeight Group.weight groups
decreasing_by
  all_goals
    have := group.selectionSize_below_lt
    simp only [totalWeight]
    omega

end

/-- The name of the root record of every operation. -/
def dataRecordName : String := "Data"

/-- The names of one operation before any is handed out. -/
def NameAllocator.initial : NameAllocator := ({} : NameAllocator).reserve dataRecordName

/-- Lays out a root record. Its name is taken as it stands. -/
def layoutRoot (registry : FragmentRegistry) (resolve : String → LeafKind) (name schemaTypeName : String)
    (selection : SelectionSet) (names : NameAllocator) :
    Except CompileError RecordType × NameAllocator :=
  layoutRecord resolve name schemaTypeName (registry.writeOut selection) (names.reserve name)

/-- Lays out the root record of an operation. -/
def layoutData (registry : FragmentRegistry) (resolve : String → LeafKind) (schemaTypeName : String)
    (selection : SelectionSet) (names : NameAllocator) :
    Except CompileError RecordType × NameAllocator :=
  layoutRoot registry resolve dataRecordName schemaTypeName selection names

end ResultLayout
