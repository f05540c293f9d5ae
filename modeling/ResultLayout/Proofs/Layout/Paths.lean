import ResultLayout.Proofs.Layout.Level
/-!
# Members and what is selected

A record has one member at each path of response names that its selection selects, and none at any
other path. The members of every record stand in the order in which the walk through its level first
meets their names.
-/
namespace ResultLayout

/-- The members at the path that leads from `first` through the other response names. -/
def RecordType.membersAt : RecordType → (first : String) → List String → List Member
  | record, first, [] => record.members.filter (·.responseName = first)
  | record, first, next :: rest =>
    (record.members.filter (·.responseName = first)).flatMap fun member =>
      match member.nested with
      | none => []
      | some nested => nested.membersAt next rest

def Member.membersBelow (member : Member) (first : String) (rest : List String) : List Member :=
  match member.nested with
  | none => []
  | some nested => nested.membersAt first rest

private theorem RecordType.membersAt_cons (record : RecordType) (first next : String)
    (rest : List String) :
    record.membersAt first (next :: rest) =
      (record.members.filter (·.responseName = first)).flatMap (·.membersBelow next rest) := rfl

namespace FragmentRegistry

/-- A selection set selects a field under the first name of the path, directly or through fragments,
and the selection set of this field selects the rest of the path. -/
def SelectsPath (registry : FragmentRegistry) : SelectionSet → List String → Prop
  | _, [] => True
  | selection, name :: rest => ∃ occurrence, registry.Selects selection occurrence ∧
      occurrence.responseName = name ∧ registry.SelectsPath occurrence.field.selection rest

/-- The record of some selection sets lists the names that the walk through them meets, in the order
in which it first meets them, and so do its nested records. -/
inductive InWalkOrder (registry : FragmentRegistry) : List SelectionSet → RecordType → Prop
  | level {selections : List SelectionSet} {occurrences : List Occurrence} {record : RecordType}
    (hwalk : registry.Walks (selections.flatMap (·.items)) occurrences)
    (hnames : record.members.map (·.responseName) = firstSeen (occurrences.map (·.responseName)))
    (hnested : ∀ member ∈ record.members, ∀ nested, member.nested = some nested →
      InWalkOrder registry ((occurrences.filter (·.responseName = member.responseName)).map
        (·.field.selection)) nested) : InWalkOrder registry selections record

end FragmentRegistry

private theorem length_filter_le_one {members : List Member}
    (hnodup : (members.map (·.responseName)).Nodup) (name : String) :
    (members.filter (·.responseName = name)).length ≤ 1 := by
  induction members with
  | nil => exact Nat.zero_le 1
  | cons member members ih =>
    rw [List.map_cons, List.nodup_cons] at hnodup
    by_cases hname : member.responseName = name
    · have hothers : members.filter (·.responseName = name) = [] := by
        rw [List.filter_eq_nil_iff]
        intro other hother hsame
        apply hnodup.1
        rw [hname, ← of_decide_eq_true hsame]
        exact List.mem_map_of_mem hother
      simp [hname, hothers]
    · simpa [hname] using ih hnodup.2

section Paths

variable {registry : FragmentRegistry}

private theorem FragmentRegistry.Walks.selectsPath_iff {selections : List SelectionSet}
    {occurrences : List Occurrence}
    (hwalk : registry.Walks (selections.flatMap (·.items)) occurrences) {first : String}
    {rest : List String} :
    (∃ selection ∈ selections, registry.SelectsPath selection (first :: rest)) ↔
      ∃ occurrence ∈ occurrences, occurrence.responseName = first ∧
        registry.SelectsPath occurrence.field.selection rest := by
  constructor
  · rintro ⟨selection, hselection, occurrence, hselects, hname, hrest⟩
    exact ⟨occurrence, hwalk.mem_iff_selects.mpr ⟨selection, hselection, hselects⟩, hname, hrest⟩
  · rintro ⟨occurrence, hoccurrence, hname, hrest⟩
    obtain ⟨selection, hselection, hselects⟩ := hwalk.mem_iff_selects.mp hoccurrence
    exact ⟨selection, hselection, occurrence, hselects, hname, hrest⟩

private theorem FragmentRegistry.MemberOf.membersBelow_ne_nil_iff {resolve : String → LeafKind}
    {schemaTypeName next : String} {rest : List String} {mine : List Occurrence} {member : Member}
    (h : registry.MemberOf resolve (fun _ selections record =>
      ∀ first rest, record.membersAt first rest ≠ [] ↔
        ∃ selection ∈ selections, registry.SelectsPath selection (first :: rest))
      schemaTypeName mine member) :
    member.membersBelow next rest ≠ [] ↔
      ∃ occurrence ∈ mine, registry.SelectsPath occurrence.field.selection (next :: rest) := by
  rcases h.nested_cases with ⟨hnone, hempty⟩ | ⟨nested, hsome, hnested⟩
  · rw [Member.membersBelow, hnone]
    constructor
    · intro hne
      exact absurd rfl hne
    · rintro ⟨occurrence, hmine, inner, hselects, -⟩
      obtain ⟨item, hitem, -⟩ := FragmentRegistry.selects_iff_item.mp hselects
      rw [hempty occurrence hmine] at hitem
      cases hitem
  · rw [Member.membersBelow, hsome]
    dsimp only
    rw [hnested]
    simp only [List.mem_map, exists_exists_and_eq_and]

end Paths

namespace FragmentRegistry.Safe

variable {registry : FragmentRegistry} {resolve : String → LeafKind}
  {name schemaTypeName : String} {selections : List SelectionSet} {names : NameAllocator}
  {record : RecordType}

private theorem length_membersAt_le_one (hsafe : registry.Safe)
    (h : (layoutRecord resolve name schemaTypeName (selections.flatMap registry.writeOut)
      names).1 = .ok record) (first : String) (rest : List String) :
    (record.membersAt first rest).length ≤ 1 := by
  refine hsafe.layout_ok_induction (P := fun _ _ record =>
    ∀ first rest, (record.membersAt first rest).length ≤ 1) ?step h first rest
  intro schemaTypeName selections occurrences record hlevel first rest
  have hnodup : (record.members.map (·.responseName)).Nodup := by
    rw [hlevel.responseNames]
    exact nodup_firstSeen _
  have hone := length_filter_le_one hnodup first
  cases rest with
  | nil => exact hone
  | cons next rest =>
    rw [RecordType.membersAt_cons]
    cases hmine : record.members.filter (·.responseName = first) with
    | nil => exact Nat.zero_le 1
    | cons member others =>
      rw [hmine, List.length_cons] at hone
      obtain rfl : others = [] := List.length_eq_zero_iff.mp (by omega)
      have hmember : member ∈ record.members :=
        List.mem_of_mem_filter (hmine ▸ List.mem_singleton_self member)
      rw [List.flatMap_singleton, Member.membersBelow]
      rcases (hlevel.members member hmember).nested_cases with
        ⟨hnone, -⟩ | ⟨nested, hsome, hnested⟩
      · rw [hnone]
        exact Nat.zero_le 1
      · rw [hsome]
        exact hnested next rest

private theorem membersAt_ne_nil_iff (hsafe : registry.Safe)
    (h : (layoutRecord resolve name schemaTypeName (selections.flatMap registry.writeOut)
      names).1 = .ok record) (first : String) (rest : List String) :
    record.membersAt first rest ≠ [] ↔
      ∃ selection ∈ selections, registry.SelectsPath selection (first :: rest) := by
  refine hsafe.layout_ok_induction (P := fun _ selections record =>
    ∀ first rest, record.membersAt first rest ≠ [] ↔
      ∃ selection ∈ selections, registry.SelectsPath selection (first :: rest)) ?step h first rest
  intro schemaTypeName selections occurrences record hlevel first rest
  rw [hlevel.walk.selectsPath_iff]
  cases rest with
  | nil =>
    rw [RecordType.membersAt, Ne, List.filter_eq_nil_iff]
    constructor
    · intro hmember
      have hname : first ∈ record.members.map (·.responseName) := by
        simpa using hmember
      rw [hlevel.responseNames, mem_firstSeen] at hname
      obtain ⟨occurrence, hoccurrence, hname⟩ := List.mem_map.mp hname
      exact ⟨occurrence, hoccurrence, hname, trivial⟩
    · rintro ⟨occurrence, hoccurrence, hname, -⟩ hnone
      obtain ⟨member, hmember, hsame, -⟩ := hlevel.exists_member hoccurrence
      exact hnone member hmember (decide_eq_true (hsame.trans hname))
  | cons next rest =>
    rw [RecordType.membersAt_cons, Ne, List.flatMap_eq_nil_iff]
    constructor
    · intro hne
      push Not at hne
      obtain ⟨member, hmine, hne⟩ := hne
      obtain ⟨hmember, hname⟩ := List.mem_filter.mp hmine
      obtain ⟨occurrence, hmem, hrest⟩ :=
        (hlevel.members member hmember).membersBelow_ne_nil_iff.mp hne
      obtain ⟨hoccurrence, hsame⟩ := List.mem_filter.mp hmem
      refine ⟨occurrence, hoccurrence, ?_, hrest⟩
      rw [of_decide_eq_true hsame, of_decide_eq_true hname]
    · rintro ⟨occurrence, hoccurrence, hname, hrest⟩ hall
      obtain ⟨member, hmember, hsame, hmine⟩ := hlevel.exists_member hoccurrence
      have hnone := hall member
        (List.mem_filter.mpr ⟨hmember, decide_eq_true (hsame.trans hname)⟩)
      exact (hlevel.members member hmember).membersBelow_ne_nil_iff.mpr
        ⟨occurrence, hmine, hrest⟩ hnone

private theorem inWalkOrder (hsafe : registry.Safe)
    (h : (layoutRecord resolve name schemaTypeName (selections.flatMap registry.writeOut)
      names).1 = .ok record) : registry.InWalkOrder selections record := by
  refine hsafe.layout_ok_induction (P := fun _ => registry.InWalkOrder) ?step h
  intro schemaTypeName selections occurrences record hlevel
  refine .level hlevel.walk hlevel.responseNames ?_
  intro member hmember nested hnested
  rcases (hlevel.members member hmember).nested_cases with ⟨hnone, -⟩ | ⟨other, hsome, horder⟩
  · rw [hnested] at hnone
    cases hnone
  · rw [hnested] at hsome
    rw [Option.some.inj hsome]
    exact horder

end FragmentRegistry.Safe

private theorem FragmentRegistry.InWalkOrder.responseNames_of_fields {registry : FragmentRegistry}
    {fields : List Field} {record : RecordType}
    (h : registry.InWalkOrder [⟨fields, [], []⟩] record)
    (hnodup : (fields.map (·.head.responseName)).Nodup) :
    record.members.map (·.responseName) = fields.map (·.head.responseName) := by
  obtain ⟨hwalk, hnames, -⟩ := h
  have hitems : [(⟨fields, [], []⟩ : SelectionSet)].flatMap (·.items) = fields.map .field := by
    simp [SelectionSet.items]
  rw [hitems] at hwalk
  rw [hnames, hwalk.eq_of_fields, List.map_map]
  exact firstSeen_eq_self hnodup

/-- The tree of a root record has exactly one member at each path that its selection selects and none
elsewhere, and the members of every record stand in the order of the walk through its level. A root
of nothing but fields with distinct names has a member for each of them, in their order. -/
theorem layoutRoot_members_selected {collection : FragmentCollection} {registry : FragmentRegistry}
    (hbuild : collection.build = .ok registry) {resolve : String → LeafKind}
    {name schemaTypeName : String} {selection : SelectionSet} {names : NameAllocator}
    {record : RecordType}
    (hrecord : (layoutRoot registry resolve name schemaTypeName selection names).1 = .ok record) :
    (∀ first rest, (record.membersAt first rest).length ≤ 1 ∧
      (record.membersAt first rest ≠ [] ↔ registry.SelectsPath selection (first :: rest))) ∧
    registry.InWalkOrder [selection] record ∧
    ∀ fields, selection = ⟨fields, [], []⟩ → (fields.map (·.head.responseName)).Nodup →
      record.members.map (·.responseName) = fields.map (·.head.responseName) := by
  have hsafe := FragmentRegistry.safe_of_build hbuild
  rw [FragmentRegistry.layoutRoot_eq_layoutRecord] at hrecord
  have horder := hsafe.inWalkOrder hrecord
  refine ⟨?_, horder, ?_⟩
  · intro first rest
    have hmembers := hsafe.membersAt_ne_nil_iff hrecord first rest
    refine ⟨hsafe.length_membersAt_le_one hrecord first rest, ?_⟩
    simpa using hmembers
  · rintro fields rfl hnodup
    exact horder.responseNames_of_fields hnodup

/-- A fragment that selects the identifier of a friend. -/
def friendFragments : FragmentCollection where
  fragments := [{
    name := "Friend", typeCondition := "User", possibleTypes := ["User"]
    selection := ⟨[⟨{ responseName := "friend", fieldName := "friend", typeText := "User" },
      ⟨[⟨{ responseName := "id", fieldName := "id", typeText := "ID!" }, .empty⟩], [], []⟩⟩],
      [], []⟩ }]
  nodup_names := by decide

def friendSelection : SelectionSet where
  fields := [⟨{ responseName := "friend", fieldName := "friend", typeText := "User" },
    ⟨[⟨{ responseName := "name", fieldName := "name", typeText := "String" }, .empty⟩], [], []⟩⟩]
  spreads := ["Friend"]
  inlineFragments := []

theorem layoutRoot_friend_members : ∃ registry record,
    friendFragments.build = .ok registry ∧
    (layoutRoot registry (fun _ => .enum) "Data" "User" friendSelection {}).1 = .ok record ∧
    (∀ first rest, (record.membersAt first rest).length ≤ 1 ∧
      (record.membersAt first rest ≠ [] ↔
        registry.SelectsPath friendSelection (first :: rest))) ∧
    registry.InWalkOrder [friendSelection] record ∧
    ∀ fields, friendSelection = ⟨fields, [], []⟩ → (fields.map (·.head.responseName)).Nodup →
      record.members.map (·.responseName) = fields.map (·.head.responseName) := by
  have hbuild : friendFragments.build = .ok ⟨friendFragments.fragments⟩ :=
    FragmentCollection.build_eq_ok_iff.mpr ⟨rfl, by decide +kernel, by decide +kernel⟩
  have hok : (layoutRoot ⟨friendFragments.fragments⟩ (fun _ => .enum) "Data" "User"
      friendSelection {}).1.isOk = true := by decide +kernel
  cases hrecord : (layoutRoot ⟨friendFragments.fragments⟩ (fun _ => .enum) "Data" "User"
      friendSelection {}).1 with
  | error error =>
    rw [hrecord] at hok
    cases hok
  | ok record =>
    exact ⟨_, record, hbuild, hrecord, layoutRoot_members_selected hbuild hrecord⟩

end ResultLayout
