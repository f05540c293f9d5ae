import ResultLayout.Proofs.Layout.Induction
import ResultLayout.Proofs.Layout.Tree
import ResultLayout.Proofs.Naming.Fresh
/-!
# Names in pre-order

A layout allocates the name of a nested record before it turns to the level of that record, and lays
out members one after the other. The finished tree shows this order: the names of its nested records,
read in pre-order, are what the allocator hands out for their response names in a row.
-/
namespace ResultLayout

mutual

/-- The members that have a record of their own, at all depths, with these records in pre-order. -/
def RecordType.composites : RecordType → List (Member × RecordType)
  | ⟨_, _, members, _⟩ => compositesOf members

@[inherit_doc RecordType.composites]
def Member.composites : Member → List (Member × RecordType)
  | ⟨_, _, _, _, none, _, _, _, _⟩ => []
  | member@⟨_, _, _, _, some nested, _, _, _, _⟩ => (member, nested) :: nested.composites

@[inherit_doc RecordType.composites]
def compositesOf : List Member → List (Member × RecordType)
  | [] => []
  | member :: members => member.composites ++ compositesOf members

end

/-- What the names of some nested records are made from. -/
def nameBases (composites : List (Member × RecordType)) : List String :=
  composites.map fun (member, _) => capitalize member.responseName

def nestedNamesIn (composites : List (Member × RecordType)) : List String :=
  composites.map fun (_, nested) => nested.name

section Tree

mutual

theorem RecordType.nestedNames_eq (record : RecordType) :
    record.nestedNames = nestedNamesIn record.composites := by
  obtain ⟨_, _, members, _⟩ := record
  rw [RecordType.nestedNames, RecordType.composites]
  exact nestedNamesOf_eq members

theorem Member.nestedNames_eq (member : Member) :
    member.nestedNames = nestedNamesIn member.composites := by
  obtain ⟨_, _, _, _, _ | nested, _, _, _, _⟩ := member
  · rfl
  · rw [Member.nestedNames, nested.nestedNames_eq]
    rfl

private theorem nestedNamesOf_eq (members : List Member) :
    nestedNamesOf members = nestedNamesIn (compositesOf members) := by
  cases members with
  | nil => rfl
  | cons member members =>
    rw [nestedNamesOf, member.nestedNames_eq, nestedNamesOf_eq members]
    simp [nestedNamesIn, compositesOf]

end

end Tree

section Layout

variable {α : Type}

/-- The names are allocated in a row; for a result they are those of its nested records. -/
def AllocatesInPreorder (composites : α → List (Member × RecordType)) (names : NameAllocator)
    (outcome : Except CompileError α × NameAllocator) : Prop :=
  ∃ bases given, names.allocateAll bases = (given, outcome.2) ∧
    ∀ result, outcome.1 = .ok result →
      bases = nameBases (composites result) ∧ given = nestedNamesIn (composites result)

private theorem allocatesInPreorder_error (composites : α → List (Member × RecordType))
    (names : NameAllocator) (error : CompileError) :
    AllocatesInPreorder composites names (.error error, names) :=
  ⟨[], [], rfl, fun _ h => nomatch h⟩

/-- The names of a member's records come before those of the members after it. -/
theorem AllocatesInPreorder.cons {names between : NameAllocator} {member : Member}
    {outcome : Except CompileError (List Member) × NameAllocator}
    (hmember : names.allocateAll (nameBases member.composites) =
      (nestedNamesIn member.composites, between))
    (hrest : AllocatesInPreorder compositesOf between outcome) :
    AllocatesInPreorder compositesOf names (outcome.1.map (member :: ·), outcome.2) := by
  obtain ⟨bases, given, hnames, hresult⟩ := hrest
  refine ⟨_, _, NameAllocator.allocateAll_append hmember hnames, ?_⟩
  intro members hmembers
  obtain ⟨rest, hrest, rfl⟩ := map_eq_ok_iff.mp hmembers
  obtain ⟨rfl, rfl⟩ := hresult rest hrest
  simp [nameBases, nestedNamesIn, compositesOf]

private theorem nameBases_member (group : Group (List Selected)) (leafKind : LeafKind)
    (nested : RecordType) :
    nameBases (group.member leafKind (some nested)).composites =
      capitalize group.responseName :: nameBases nested.composites := rfl

private theorem nestedNamesIn_member (group : Group (List Selected)) (leafKind : LeafKind)
    (nested : RecordType) :
    nestedNamesIn (group.member leafKind (some nested)).composites =
      nested.name :: nestedNamesIn nested.composites := rfl

mutual

theorem allocatesInPreorder_layoutRecord (resolve : String → LeafKind)
    (name schemaTypeName : String) (selections : List Selected) (names : NameAllocator) :
    AllocatesInPreorder RecordType.composites names
      (layoutRecord resolve name schemaTypeName selections names) := by
  cases hresult : contributions (levelVisits schemaTypeName selections) with
  | error error =>
    rw [layoutRecord_of_error resolve hresult]
    exact allocatesInPreorder_error _ names error
  | ok result =>
    obtain ⟨bases, given, hnames, hmembers⟩ :=
      allocatesInPreorder_layoutMembers resolve schemaTypeName (Group.ofContributions result) names
    rw [layoutRecord_of_ok resolve hresult]
    split
    next error after hfailed =>
      rw [hfailed] at hnames
      exact ⟨bases, given, hnames, fun _ h => nomatch h⟩
    next members after hlayout =>
      rw [hlayout] at hnames hmembers
      refine ⟨bases, given, hnames, ?_⟩
      intro record hrecord
      obtain rfl := Except.ok.inj hrecord
      exact hmembers members rfl
termination_by 2 * selectionSize selections + 1
decreasing_by
  have := weight_groups_le hresult
  omega

private theorem allocatesInPreorder_layoutMembers (resolve : String → LeafKind)
    (schemaTypeName : String) (groups : List (Group (List Selected))) (names : NameAllocator) :
    AllocatesInPreorder compositesOf names (layoutMembers resolve schemaTypeName groups names) := by
  cases groups with
  | nil =>
    rw [layoutMembers]
    refine ⟨[], [], rfl, ?_⟩
    intro members hmembers
    obtain rfl := Except.ok.inj hmembers
    exact ⟨rfl, rfl⟩
  | cons group groups =>
    cases hconflict : group.conflict? with
    | some pair =>
      rw [layoutMembers_of_conflict resolve hconflict]
      exact allocatesInPreorder_error _ names _
    | none =>
      have hrest := allocatesInPreorder_layoutMembers resolve schemaTypeName groups
      by_cases hbelow : group.below = []
      · rw [layoutMembers_of_leaf resolve hconflict hbelow]
        exact AllocatesInPreorder.cons rfl (hrest names)
      · have hname := names.allocateAll_singleton (capitalize group.responseName)
        obtain ⟨below, given, hnames, hnested⟩ := allocatesInPreorder_layoutRecord resolve
          (names.allocate (capitalize group.responseName)).1 group.schemaTypeName group.below
          (names.allocate (capitalize group.responseName)).2
        have hfirst := NameAllocator.allocateAll_append hname hnames
        rw [layoutMembers_of_composite resolve hconflict hbelow]
        dsimp only
        split
        next error after hfailed =>
          rw [hfailed] at hfirst
          exact ⟨_, _, hfirst, fun _ h => nomatch h⟩
        next nested after hlayout =>
          rw [hlayout] at hfirst hnested
          obtain ⟨rfl, rfl⟩ := hnested nested rfl
          have hself : nested.name = names.fresh (capitalize group.responseName) :=
            name_of_layoutRecord (congrArg Prod.fst hlayout)
          apply AllocatesInPreorder.cons _ (hrest after)
          rw [nameBases_member, nestedNamesIn_member, hself]
          exact hfirst
termination_by 2 * totalWeight Group.weight groups
decreasing_by
  all_goals
    have := group.selectionSize_below_lt
    simp only [totalWeight]
    omega

end

end Layout

/-- The names of the records below a root are handed out in a row for the capitalized response names
of their members, in pre-order, once the name of the root is taken. Each record has the capitalized
name itself if this is free behind those before it, otherwise the name with the smallest number that
is free. -/
theorem layoutRoot_names_in_preorder {registry : FragmentRegistry} {resolve : String → LeafKind}
    {name schemaTypeName : String} {selection : SelectionSet} {names after : NameAllocator}
    {record : RecordType}
    (hlayout : layoutRoot registry resolve name schemaTypeName selection names =
      (.ok record, after)) :
    (names.reserve name).allocateAll (nameBases record.composites) =
      (nestedNamesIn record.composites, after) ∧
    ∀ i member nested, record.composites[i]? = some (member, nested) →
      NameAllocator.SmallestFree
        ((names.reserve name).taken ++ (nestedNamesIn record.composites).take i)
        (capitalize member.responseName) nested.name := by
  have hrow := allocatesInPreorder_layoutRecord resolve name schemaTypeName
    (registry.writeOut selection) (names.reserve name)
  rw [layoutRoot] at hlayout
  rw [hlayout] at hrow
  obtain ⟨_, _, hnames, hresult⟩ := hrow
  obtain ⟨rfl, rfl⟩ := hresult record rfl
  refine ⟨hnames, ?_⟩
  intro i member nested hmember
  have hbase : (nameBases record.composites)[i]? = some (capitalize member.responseName) := by
    simp [nameBases, hmember]
  obtain ⟨given, hgiven, hfree⟩ :=
    (names.reserve name).smallestFree_allocateAll hbase
  rw [hnames] at hgiven hfree
  obtain rfl : nested.name = given := by simpa [nestedNamesIn, hmember] using hgiven
  exact hfree

section Nodes

/-- A field that selects something on another node. -/
def nodeField (responseName : String) (below : List Field) : Field :=
  ⟨{ responseName := responseName, fieldName := "node", typeText := "Node" }, ⟨below, [], []⟩⟩

def nodeIdField : Field :=
  ⟨{ responseName := "id", fieldName := "id", typeText := "ID!" }, .empty⟩

/-- A node in a node, and another one beside them whose own name has a number. -/
def nodesSelection : SelectionSet :=
  ⟨[nodeField "node" [nodeIdField, nodeField "node" [nodeIdField]], nodeField "node1" [nodeIdField]], [], []⟩

theorem layoutRoot_names_of_nodes : ∃ record after,
    layoutRoot ⟨[]⟩ (fun _ => .enum) "Data" "Query" nodesSelection .initial =
      (.ok record, after) ∧
    nestedNamesIn record.composites = ["Node", "Node1", "Node11"] ∧
    (NameAllocator.initial.reserve "Data").allocateAll (nameBases record.composites) =
      (nestedNamesIn record.composites, after) ∧
    ∀ i member nested, record.composites[i]? = some (member, nested) →
      NameAllocator.SmallestFree
        ((NameAllocator.initial.reserve "Data").taken ++
          (nestedNamesIn record.composites).take i)
        (capitalize member.responseName) nested.name := by
  have hnames : (layoutRoot ⟨[]⟩ (fun _ => .enum) "Data" "Query" nodesSelection
      .initial).1.toOption.map (nestedNamesIn ·.composites) = some ["Node", "Node1", "Node11"] := by
    decide +kernel
  generalize hlayout : layoutRoot ⟨[]⟩ (fun _ => .enum) "Data" "Query" nodesSelection
    .initial = outcome at hnames
  obtain ⟨_ | record, after⟩ := outcome
  · cases hnames
  · exact ⟨record, after, rfl, Option.some.inj hnames, layoutRoot_names_in_preorder hlayout⟩

end Nodes

end ResultLayout
