import ResultLayout.Proofs.Layout.Height
/-!
# Layout by nested walks

A layout needs no written-out fragments. The walk through a level can enter the body of a fragment
where it meets a spread, and the record of a member can be laid out by a walk through the selection
sets of all its contributions. Neither step goes to a smaller piece of syntax: a spread leads to the
whole body of its fragment, and a nested level joins selection sets from several places.

Here both recursions run on fuel, one unit for each fragment body that is entered and for each level.
For a checked registry the depth of the selection and of all fragments is fuel enough: it is never
used up, and the result is that of the layout over written-out fragments.
-/
namespace ResultLayout

/-- Joins the results of some steps up to the first error. A step that ran out of fuel before leaves
no result. -/
def inTurn {α : Type} :
    List (Option (Except CompileError (List α))) → Option (Except CompileError (List α))
  | [] => some (.ok [])
  | none :: _ => none
  | some (.error error) :: _ => some (.error error)
  | some (.ok first) :: steps => (inTurn steps).map (·.map (first ++ ·))

namespace FragmentRegistry

/-- What one entry of a selection set contributes, given what is gathered in a fragment body. -/
def gatherItem (registry : FragmentRegistry) (schemaTypeName : String)
    (body : Surroundings → SelectionSet →
      Option (Except CompileError (List (Contribution SelectionSet))))
    (around : Surroundings) :
    SelectionItem → Option (Except CompileError (List (Contribution SelectionSet)))
  | .field own => some ((around.contribution own.head own.selection).map ([·]))
  | .spread name =>
    match registry.find? name with
    | none => some (.error (.undefinedFragment name))
    | some fragment => body (around.enter schemaTypeName fragment.spreadScope) fragment.selection
  | .inline fragment => body (around.enter schemaTypeName fragment.scope) fragment.body

/-- The contributions that the walk through a selection set meets. -/
def gather (registry : FragmentRegistry) (schemaTypeName : String) :
    (fuel : Nat) → Surroundings → SelectionSet →
      Option (Except CompileError (List (Contribution SelectionSet)))
  | 0, _, _ => none
  | fuel + 1, around, selection =>
    inTurn (selection.items.map
      (registry.gatherItem schemaTypeName (registry.gather schemaTypeName fuel) around))

def gatherLevel (registry : FragmentRegistry) (schemaTypeName : String) (fuel : Nat)
    (selections : List SelectionSet) :
    Option (Except CompileError (List (Contribution SelectionSet))) :=
  inTurn (selections.map (registry.gather schemaTypeName fuel {}))

end FragmentRegistry

/-- The fragments spread in a selection set or in an inline fragment of it. -/
def SelectionSet.spreadsHere (selection : SelectionSet) : List String :=
  selection.spreads ++ selection.inlineFragments.flatMap (·.spreads)

/-- Lays out the members of a record, given how nested records are laid out. -/
def layoutGroups (resolve : String → LeafKind) (schemaTypeName : String)
    (layout : String → String → List SelectionSet → NameAllocator →
      Option (Except CompileError RecordType × NameAllocator)) :
    List (Group SelectionSet) → NameAllocator →
      Option (Except CompileError (List Member) × NameAllocator)
  | [], names => some (.ok [], names)
  | group :: groups, names =>
    match group.conflict? with
    | some (first, second) =>
      some (.error (conflictError schemaTypeName group.responseName first second), names)
    | none =>
      if group.toList.all (·.below.isEmpty) then
        (layoutGroups resolve schemaTypeName layout groups names).map fun (members, names) =>
          (members.map (group.member (resolve group.schemaTypeName) none :: ·), names)
      else
        let (nestedName, names) := names.allocate (capitalize group.responseName)
        match layout nestedName group.schemaTypeName (group.toList.map (·.below)) names with
        | none => none
        | some (.error error, names) => some (.error error, names)
        | some (.ok nested, names) =>
          (layoutGroups resolve schemaTypeName layout groups names).map fun (members, names) =>
            (members.map (group.member .composite (some nested) :: ·), names)

/-- Lays out a level of several selection sets as a record. -/
def FragmentRegistry.layoutWithin (registry : FragmentRegistry) (resolve : String → LeafKind) :
    (fuel : Nat) → (name schemaTypeName : String) → List SelectionSet → NameAllocator →
      Option (Except CompileError RecordType × NameAllocator)
  | 0, _, _, _, _ => none
  | fuel + 1, name, schemaTypeName, selections, names =>
    match registry.gatherLevel schemaTypeName (fuel + 1) selections with
    | none => none
    | some (.error error) => some (.error error, names)
    | some (.ok result) =>
      match layoutGroups resolve schemaTypeName (registry.layoutWithin resolve fuel)
        (Group.ofContributions result) names with
      | none => none
      | some (.error error, names) => some (.error error, names)
      | some (.ok members, names) =>
        some (.ok {
          name, schemaTypeName, members
          fragmentRefs := firstSeen (selections.flatMap (·.spreadsHere)) }, names)

section Below

variable {α β : Type} (f : α → β)

def Contribution.mapBelow (contribution : Contribution α) : Contribution β where
  head := contribution.head
  type := contribution.type
  below := f contribution.below
  conditional := contribution.conditional
  narrowedTo := contribution.narrowedTo
  source := contribution.source

def Group.mapBelow (group : Group α) : Group β :=
  ⟨group.first.mapBelow f, group.rest.map (·.mapBelow f)⟩

theorem Group.toList_mapBelow (group : Group α) :
    (group.mapBelow f).toList = group.toList.map (·.mapBelow f) := rfl

private theorem Group.insert_mapBelow (contribution : Contribution α) (groups : List (Group α)) :
    insert (contribution.mapBelow f) (groups.map (·.mapBelow f)) =
      (insert contribution groups).map (·.mapBelow f) := by
  induction groups with
  | nil => rfl
  | cons group groups ih =>
    have hname : (group.mapBelow f).responseName = (contribution.mapBelow f).responseName ↔
        group.responseName = contribution.responseName := Iff.rfl
    rw [List.map_cons, insert, insert, if_congr hname rfl rfl]
    split
    · simp [mapBelow]
    · rw [ih, List.map_cons]

private theorem Group.ofContributions_mapBelow (result : List (Contribution α)) :
    ofContributions (result.map (·.mapBelow f)) = (ofContributions result).map (·.mapBelow f) := by
  induction result using List.reverseRecOn with
  | nil => rfl
  | append_singleton result contribution ih =>
    rw [List.map_append, List.map_singleton, ofContributions_append_singleton, ih,
      insert_mapBelow, ofContributions_append_singleton]

private theorem Group.firstConflict?_mapBelow (earlier later : List (Contribution α)) :
    firstConflict? (earlier.map (·.mapBelow f)) (later.map (·.mapBelow f)) =
      (firstConflict? earlier later).map fun (a, b) => (a.mapBelow f, b.mapBelow f) := by
  induction later generalizing earlier with
  | nil => rfl
  | cons later rest ih =>
    have hfind : (earlier.map (·.mapBelow f)).find?
        (fun contribution => !contribution.mergesWith (later.mapBelow f)) =
          (earlier.find? fun contribution => !contribution.mergesWith later).map (·.mapBelow f) := by
      rw [List.find?_map]
      rfl
    rw [List.map_cons, firstConflict?, firstConflict?, hfind]
    cases earlier.find? fun contribution => !contribution.mergesWith later with
    | some conflicting => rfl
    | none =>
      have hearlier : earlier.map (·.mapBelow f) ++ [later.mapBelow f] =
          (earlier ++ [later]).map (·.mapBelow f) := by simp
      simp only [Option.map_none]
      rw [hearlier, ih]

theorem Group.conflict?_mapBelow (group : Group α) :
    (group.mapBelow f).conflict? =
      group.conflict?.map fun (a, b) => (a.mapBelow f, b.mapBelow f) :=
  firstConflict?_mapBelow f [group.first] group.rest

theorem Group.member_mapBelow (group : Group α) (leafKind : LeafKind) (nested : Option RecordType) :
    (group.mapBelow f).member leafKind nested = group.member leafKind nested := by
  have hconditional : (group.mapBelow f).toList.all (·.conditional) =
      group.toList.all (·.conditional) := by
    simp [toList, mapBelow, Contribution.mapBelow, List.all_map, Function.comp_def]
  rw [member, hconditional]
  rfl

end Below

namespace FragmentRegistry

variable {registry : FragmentRegistry} {schemaTypeName : String}

/-- What is gathered is what the visits contribute, with the selection sets below written out. -/
def Gathers (registry : FragmentRegistry)
    (gathered : Option (Except CompileError (List (Contribution SelectionSet))))
    (visits : List Visit) : Prop :=
  ∃ result, gathered = some result ∧
    contributions visits = result.map (List.map (·.mapBelow registry.writeOut))

private theorem gathers_inTurn {α : Type} {xs : List α}
    {step : α → Option (Except CompileError (List (Contribution SelectionSet)))}
    {visits : α → List Visit} (h : ∀ x ∈ xs, registry.Gathers (step x) (visits x)) :
    registry.Gathers (inTurn (xs.map step)) (xs.flatMap visits) := by
  induction xs with
  | nil => exact ⟨.ok [], rfl, rfl⟩
  | cons x xs ih =>
    obtain ⟨first, hfirst, hvisits⟩ := h x List.mem_cons_self
    obtain ⟨rest, hrest, hothers⟩ := ih fun other hother => h other (List.mem_cons_of_mem x hother)
    rw [List.map_cons, List.flatMap_cons, Gathers, hfirst, contributions_append, hvisits, hothers]
    cases first with
    | error error => exact ⟨.error error, rfl, rfl⟩
    | ok first =>
      refine ⟨rest.map (first ++ ·), ?_, ?_⟩
      · rw [inTurn, hrest]
        rfl
      · cases rest with
        | error error => rfl
        | ok rest => simp [Except.map]

private theorem Safe.gathers_gather (hsafe : registry.Safe) {fuel : Nat} {around : Surroundings}
    {selection : SelectionSet} (hfuel : selectionHeight (registry.writeOut selection) < fuel) :
    registry.Gathers (registry.gather schemaTypeName fuel around selection)
      (Selected.visits.visitsOf schemaTypeName around (registry.writeOut selection)) := by
  induction fuel generalizing around selection with
  | zero => exact absurd hfuel (Nat.not_lt_zero _)
  | succ fuel ih =>
    rw [gather, visitsOf_writeOut]
    apply gathers_inTurn
    intro item hitem
    have hheight : (registry.writeOutItem item).height ≤ fuel := by
      have hmem : registry.writeOutItem item ∈ registry.writeOut selection := by
        rw [writeOut_eq_map]
        exact List.mem_map_of_mem hitem
      exact Nat.le_trans (height_le_selectionHeight hmem) (Nat.le_of_lt_succ hfuel)
    cases item with
    | field field =>
      rw [gatherItem, Safe.itemVisits_field]
      refine ⟨_, rfl, ?_⟩
      rw [contributions, Occurrence.visit, Visit.contribution, Surroundings.contribution,
        Surroundings.contribution]
      cases TypeRef.parse field.head.typeText <;> rfl
    | spread name =>
      rw [gatherItem]
      cases hfind : registry.find? name with
      | none =>
        rw [hsafe.itemVisits_undefined hfind]
        exact ⟨_, rfl, rfl⟩
      | some fragment =>
        rw [hsafe.itemVisits_spread hfind]
        apply ih
        rw [hsafe.writeOutItem_spread hfind, Selected.height_within] at hheight
        exact hheight
    | inline fragment =>
      rw [gatherItem, Safe.itemVisits_inline]
      exact ih hheight

private theorem Safe.gathers_gatherLevel (hsafe : registry.Safe) {fuel : Nat}
    {selections : List SelectionSet}
    (hfuel : selectionHeight (selections.flatMap registry.writeOut) < fuel) :
    registry.Gathers (registry.gatherLevel schemaTypeName fuel selections)
      (levelVisits schemaTypeName (selections.flatMap registry.writeOut)) := by
  rw [gatherLevel, Safe.levelVisits_writeOut]
  apply gathers_inTurn
  intro selection hselection
  apply hsafe.gathers_gather
  refine Nat.lt_of_le_of_lt (selectionHeight_le_iff.mpr ?_) hfuel
  intro selected hselected
  exact height_le_selectionHeight (List.mem_flatMap.mpr ⟨selection, hselection, hselected⟩)

private theorem spreadsOf_writeOut (hsafe : registry.Safe) {selection : SelectionSet}
    (hdefined : ∀ name ∈ selection.spreads, ∃ fragment, registry.find? name = some fragment) :
    Selected.spreadsHere.spreadsOf (registry.writeOut selection) =
      selection.spreads ++ selection.inlineFragments.flatMap fun fragment =>
        Selected.spreadsHere.spreadsOf (registry.writeOut fragment.body) := by
  have hspreads : selection.spreads.flatMap
      (fun name => (registry.writeOutItem (.spread name)).spreadsHere) = selection.spreads := by
    have hsame : ∀ name ∈ selection.spreads,
        (registry.writeOutItem (.spread name)).spreadsHere = [name] := by
      intro name hname
      obtain ⟨fragment, hfind⟩ := hdefined name hname
      rw [hsafe.writeOutItem_spread hfind, Fragment.spreadScope, name_of_findFragment? hfind,
        Selected.spreadsHere]
    rw [List.flatMap_congr hsame]
    exact List.flatMap_singleton' _
  have hfields : selection.fields.flatMap
      (fun field => (registry.writeOutItem (.field field)).spreadsHere) = [] := by
    rw [List.flatMap_eq_nil_iff]
    intro field _
    rfl
  rw [spreadsOf_eq_flatMap, writeOut_eq_map, SelectionSet.items, List.map_append, List.map_append,
    List.flatMap_append, List.flatMap_append, List.map_map, List.map_map, List.map_map,
    List.flatMap_map, List.flatMap_map, List.flatMap_map]
  simp only [Function.comp_apply]
  rw [hspreads, hfields]
  rfl

theorem Safe.spreadsOf_flatMap_writeOut (hsafe : registry.Safe) {selections : List SelectionSet}
    (hdefined : ∀ selection ∈ selections, ∀ name, registry.SpreadsAtLevel selection name →
      ∃ fragment, registry.find? name = some fragment) :
    Selected.spreadsHere.spreadsOf (selections.flatMap registry.writeOut) =
      selections.flatMap (·.spreadsHere) := by
  rw [spreadsOf_eq_flatMap, List.flatMap_assoc]
  apply List.flatMap_congr
  intro selection hselection
  rw [← spreadsOf_eq_flatMap, spreadsOf_writeOut hsafe fun name hname =>
    hdefined selection hselection name (.own hname), SelectionSet.spreadsHere]
  congr 1
  apply List.flatMap_congr
  intro fragment hfragment
  rw [spreadsOf_writeOut hsafe fun name hname =>
    hdefined selection hselection name (.inline hfragment (.own hname))]
  exact List.append_nil _

variable {resolve : String → LeafKind}

private theorem writeOut_isEmpty (registry : FragmentRegistry) (selection : SelectionSet) :
    (registry.writeOut selection).isEmpty = selection.isEmpty := by
  obtain ⟨fields, spreads, inlineFragments⟩ := selection
  rw [writeOut_eq_map]
  cases fields <;> cases spreads <;> cases inlineFragments <;> rfl

private theorem layoutGroups_eq {layout : String → String → List SelectionSet → NameAllocator →
      Option (Except CompileError RecordType × NameAllocator)} {groups : List (Group SelectionSet)}
    (hlayout : ∀ group ∈ groups, ∀ name names,
      layout name group.schemaTypeName (group.toList.map (·.below)) names =
        some (layoutRecord resolve name group.schemaTypeName
          (group.mapBelow registry.writeOut).below names))
    (names : NameAllocator) :
    layoutGroups resolve schemaTypeName layout groups names =
      some (layoutMembers resolve schemaTypeName (groups.map (·.mapBelow registry.writeOut))
        names) := by
  induction groups generalizing names with
  | nil => rw [layoutGroups, List.map_nil, layoutMembers]
  | cons group groups ih =>
    have hrest := ih fun other hother => hlayout other (List.mem_cons_of_mem group hother)
    rw [List.map_cons, layoutGroups]
    cases hconflict : group.conflict? with
    | some pair =>
      have hpair := group.conflict?_mapBelow registry.writeOut
      rw [hconflict] at hpair
      rw [layoutMembers_of_conflict resolve hpair]
      rfl
    | none =>
      have hnone := group.conflict?_mapBelow registry.writeOut
      rw [hconflict] at hnone
      have hempty : group.toList.all (·.below.isEmpty) = true ↔
          (group.mapBelow registry.writeOut).below = [] := by
        rw [Group.below, List.flatMap_eq_nil_iff, List.all_eq_true]
        change _ ↔ ∀ contribution ∈ group.toList.map (·.mapBelow registry.writeOut), _
        rw [List.forall_mem_map]
        apply forall₂_congr
        intro contribution _
        rw [← writeOut_isEmpty registry, List.isEmpty_iff]
        rfl
      by_cases hbelow : (group.mapBelow registry.writeOut).below = []
      · rw [layoutMembers_of_leaf resolve hnone hbelow]
        simp only [hempty.mpr hbelow, if_true, hrest, Option.map_some, Group.member_mapBelow]
        rfl
      · have hname : (group.mapBelow registry.writeOut).responseName = group.responseName := rfl
        have htype : (group.mapBelow registry.writeOut).schemaTypeName = group.schemaTypeName := rfl
        rw [if_neg (mt hempty.mp hbelow), layoutMembers_of_composite resolve hnone hbelow]
        simp only [hlayout group List.mem_cons_self, hname, htype, Group.member_mapBelow]
        rcases layoutRecord resolve (names.allocate (capitalize group.responseName)).1
          group.schemaTypeName (group.mapBelow registry.writeOut).below
          (names.allocate (capitalize group.responseName)).2 with ⟨error | nested, after⟩
        · rfl
        · simp only [hrest]
          rfl

private theorem Safe.layoutWithin_eq (hsafe : registry.Safe) {fuel : Nat}
    {selections : List SelectionSet}
    (hfuel : selectionHeight (selections.flatMap registry.writeOut) < fuel)
    (name schemaTypeName : String) (names : NameAllocator) :
    registry.layoutWithin resolve fuel name schemaTypeName selections names =
      some (layoutRecord resolve name schemaTypeName (selections.flatMap registry.writeOut)
        names) := by
  induction fuel generalizing name schemaTypeName selections names with
  | zero => exact absurd hfuel (Nat.not_lt_zero _)
  | succ fuel ih =>
    have hgathers : registry.Gathers (registry.gatherLevel schemaTypeName (fuel + 1) selections) _ :=
      hsafe.gathers_gatherLevel hfuel
    obtain ⟨gathered, hgathered, hresult⟩ := hgathers
    rw [layoutWithin, hgathered]
    cases gathered with
    | error error => rw [layoutRecord_of_error resolve hresult]
    | ok result =>
      have hread : contributions (levelVisits schemaTypeName
          (selections.flatMap registry.writeOut)) =
          .ok (result.map (·.mapBelow registry.writeOut)) := hresult
      have hmembers : layoutGroups resolve schemaTypeName (registry.layoutWithin resolve fuel)
          (Group.ofContributions result) names =
          some (layoutMembers resolve schemaTypeName
            (Group.ofContributions (result.map (·.mapBelow registry.writeOut))) names) := by
        rw [Group.ofContributions_mapBelow]
        apply layoutGroups_eq
        intro group hgroup nestedName names
        have hbelow : (group.mapBelow registry.writeOut).below =
            (group.toList.map (·.below)).flatMap registry.writeOut := by
          rw [Group.below, List.flatMap_map]
          change (group.toList.map (·.mapBelow registry.writeOut)).flatMap _ = _
          rw [List.flatMap_map]
          rfl
        have hlower : selectionHeight (group.mapBelow registry.writeOut).below <
            selectionHeight (selections.flatMap registry.writeOut) := by
          apply selectionHeight_below_lt_level hread
          rw [Group.ofContributions_mapBelow]
          exact List.mem_map_of_mem hgroup
        rw [hbelow] at hlower ⊢
        exact ih (by omega) _ _ _
      have hspreads := hsafe.spreadsOf_flatMap_writeOut (hsafe.defined_of_contributions hread)
      rw [layoutRecord_of_ok resolve hread]
      simp only [hmembers, hspreads]
      generalize layoutMembers resolve schemaTypeName
        (Group.ofContributions (result.map (·.mapBelow registry.writeOut))) names = laidOut
      obtain ⟨error | members, after⟩ := laidOut <;> rfl

end FragmentRegistry

/-- The depth of the selection and of all fragments is fuel enough for a layout, whatever comes of
it: the layout comes to its end, and the records of its result are nested no deeper. -/
theorem layoutWithin_depthBound {collection : FragmentCollection} {registry : FragmentRegistry}
    (hbuild : collection.build = .ok registry) (resolve : String → LeafKind)
    (name schemaTypeName : String) (selection : SelectionSet) (names : NameAllocator) :
    (∀ fuel, registry.depthBound selection ≤ fuel →
      registry.layoutWithin resolve fuel name schemaTypeName [selection] (names.reserve name) =
        some (layoutRoot registry resolve name schemaTypeName selection names)) ∧
    ∀ record, (layoutRoot registry resolve name schemaTypeName selection names).1 = .ok record →
      record.depth ≤ registry.depthBound selection := by
  have hsafe := FragmentRegistry.safe_of_build hbuild
  have hheight := hsafe.height_writeOut_lt selection
  constructor
  · intro fuel hfuel
    rw [FragmentRegistry.layoutRoot_eq_layoutRecord]
    apply hsafe.layoutWithin_eq
    rw [List.flatMap_singleton]
    exact Nat.lt_of_lt_of_le hheight hfuel
  · intro record hrecord
    have hdepth := depth_le_of_layoutRecord hrecord
    omega

/-- Two fragments, one of which is spread in a nested selection of the other. -/
def managerFragments : FragmentCollection where
  fragments := [
    { name := "Person", typeCondition := "User"
      selection := ⟨[⟨{ responseName := "manager", fieldName := "manager", typeText := "User" },
        ⟨[], ["Contact"], []⟩⟩], [], []⟩ },
    { name := "Contact", typeCondition := "User"
      selection := ⟨[⟨{ responseName := "email", fieldName := "email", typeText := "String" },
        .empty⟩], [], []⟩ }]
  nodup_names := by decide

theorem layoutWithin_manager :
    managerFragments.build = .ok ⟨managerFragments.fragments⟩ ∧
    (∀ fuel, FragmentRegistry.depthBound ⟨managerFragments.fragments⟩ ⟨[], ["Person"], []⟩ ≤ fuel →
      FragmentRegistry.layoutWithin ⟨managerFragments.fragments⟩ (fun _ => .enum) fuel "Data" "User"
          [⟨[], ["Person"], []⟩] (NameAllocator.reserve {} "Data") =
        some (layoutRoot ⟨managerFragments.fragments⟩ (fun _ => .enum) "Data" "User"
          ⟨[], ["Person"], []⟩ {})) ∧
    ∀ record, (layoutRoot ⟨managerFragments.fragments⟩ (fun _ => .enum) "Data" "User"
        ⟨[], ["Person"], []⟩ {}).1 = .ok record →
      record.depth ≤
        FragmentRegistry.depthBound ⟨managerFragments.fragments⟩ ⟨[], ["Person"], []⟩ := by
  have hbuild : managerFragments.build = .ok ⟨managerFragments.fragments⟩ :=
    FragmentCollection.build_eq_ok_iff.mpr ⟨rfl, by decide +kernel, by decide +kernel⟩
  exact ⟨hbuild, layoutWithin_depthBound hbuild (fun _ => .enum) "Data" "User"
    ⟨[], ["Person"], []⟩ {}⟩

end ResultLayout
