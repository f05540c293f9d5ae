import ResultLayout.Proofs.Layout.Level
/-!
# Depths of selections and records

The depth of a selection set counts how far its fields and inline fragments are nested; a spread
counts nothing there. Written out, a selection set of a checked registry is at most as high as its
own depth and the depths of all fragments together, because a chain of spreads enters each fragment
at most once. What lies below a member is lower than its level, so records are nested no deeper.
-/
namespace ResultLayout

mutual

/-- How deep fields and inline fragments are nested. -/
def Field.depth : Field → Nat
  | ⟨_, selection⟩ => selection.depth + 1

@[inherit_doc Field.depth]
def SelectionSet.depth : SelectionSet → Nat
  | ⟨fields, _, inlineFragments⟩ =>
    max (depthOfFields fields) (depthOfInlineFragments inlineFragments)

@[inherit_doc Field.depth]
def InlineFragment.depth : InlineFragment → Nat
  | ⟨_, _, fields, _⟩ => depthOfFields fields + 1

@[inherit_doc Field.depth]
def depthOfFields : List Field → Nat
  | [] => 0
  | field :: fields => max field.depth (depthOfFields fields)

@[inherit_doc Field.depth]
def depthOfInlineFragments : List InlineFragment → Nat
  | [] => 0
  | fragment :: fragments => max fragment.depth (depthOfInlineFragments fragments)

end

def Fragment.depth (fragment : Fragment) : Nat := fragment.selection.depth + 1

/-- The depths of a selection set and of all registered fragments together. -/
def FragmentRegistry.depthBound (registry : FragmentRegistry) (selection : SelectionSet) : Nat :=
  selection.depth + totalWeight Fragment.depth registry.fragments + 1

private theorem depth_le_depthOfFields {fields : List Field} {field : Field} (h : field ∈ fields) :
    field.selection.depth + 1 ≤ depthOfFields fields := by
  induction fields with
  | nil => cases h
  | cons first rest ih =>
    rw [depthOfFields]
    rcases List.mem_cons.mp h with rfl | hrest
    · obtain ⟨head, selection⟩ := field
      rw [Field.depth]
      exact Nat.le_max_left _ _
    · exact Nat.le_trans (ih hrest) (Nat.le_max_right _ _)

private theorem depth_le_depthOfInlineFragments {fragments : List InlineFragment}
    {fragment : InlineFragment} (h : fragment ∈ fragments) :
    fragment.body.depth + 1 ≤ depthOfInlineFragments fragments := by
  induction fragments with
  | nil => cases h
  | cons first rest ih =>
    rw [depthOfInlineFragments]
    rcases List.mem_cons.mp h with rfl | hrest
    · obtain ⟨typeCondition, possibleTypes, fields, spreads⟩ := fragment
      rw [InlineFragment.depth, InlineFragment.body, SelectionSet.depth, depthOfInlineFragments,
        Nat.max_zero]
      exact Nat.le_max_left _ _
    · exact Nat.le_trans (ih hrest) (Nat.le_max_right _ _)

namespace SelectionSet

variable {selection : SelectionSet}

private theorem depth_field_lt {field : Field} (h : field ∈ selection.fields) :
    field.selection.depth + 1 ≤ selection.depth := by
  obtain ⟨fields, spreads, inlineFragments⟩ := selection
  rw [depth]
  exact Nat.le_trans (depth_le_depthOfFields h) (Nat.le_max_left _ _)

private theorem depth_body_lt {fragment : InlineFragment}
    (h : fragment ∈ selection.inlineFragments) :
    fragment.body.depth + 1 ≤ selection.depth := by
  obtain ⟨fields, spreads, inlineFragments⟩ := selection
  rw [depth]
  exact Nat.le_trans (depth_le_depthOfInlineFragments h) (Nat.le_max_right _ _)

end SelectionSet

/-- How deep fields and fragments are nested in a written-out selection. -/
def Selected.height : Selected → Nat
  | .field _ below => heightOf below + 1
  | .within _ body => heightOf body + 1
  | .undefinedSpread _ => 0
where
  heightOf : List Selected → Nat
    | [] => 0
    | selected :: rest => max selected.height (heightOf rest)

abbrev selectionHeight (selections : List Selected) : Nat := Selected.height.heightOf selections

theorem selectionHeight_le_iff {selections : List Selected} {n : Nat} :
    selectionHeight selections ≤ n ↔ ∀ selected ∈ selections, selected.height ≤ n := by
  induction selections with
  | nil => simp [selectionHeight, Selected.height.heightOf]
  | cons selected rest ih =>
    rw [selectionHeight, Selected.height.heightOf, Nat.max_le, ih, List.forall_mem_cons]

theorem height_le_selectionHeight {selections : List Selected} {selected : Selected}
    (h : selected ∈ selections) : selected.height ≤ selectionHeight selections :=
  selectionHeight_le_iff.mp (Nat.le_refl _) selected h

private theorem Selected.height_field (head : FieldHead) (below : List Selected) :
    (Selected.field head below).height = selectionHeight below + 1 := rfl

theorem Selected.height_within (scope : FragmentScope) (body : List Selected) :
    (Selected.within scope body).height = selectionHeight body + 1 := rfl

private theorem SelectionSet.height_writeOut_le {spread : String → Selected} {bound : Nat}
    {selection : SelectionSet}
    (h : ∀ name, selection.Spreads name → (spread name).height ≤ bound) :
    selectionHeight (selection.writeOut spread) ≤ selection.depth + bound := by
  induction selection using SelectionSet.induction with
  | step selection ihFields ihInline =>
    rw [writeOut_eq_map, selectionHeight_le_iff]
    intro selected hselected
    obtain ⟨item, hitem, rfl⟩ := List.mem_map.mp hselected
    cases item with
    | field field =>
      have hfield := field_mem_items.mp hitem
      have hbelow := ihFields field hfield fun name hname => h name (.inField hfield hname)
      have hdepth := depth_field_lt hfield
      rw [SelectionItem.writeOut, Selected.height_field]
      omega
    | spread name =>
      have hspread := h name (.here (spread_mem_items.mp hitem))
      rw [SelectionItem.writeOut]
      omega
    | inline fragment =>
      have hfragment := inline_mem_items.mp hitem
      have hbody := ihInline fragment hfragment fun name hname => h name (.inInline hfragment hname)
      have hdepth := depth_body_lt hfragment
      rw [SelectionItem.writeOut, Selected.height_within]
      omega

/-- A spread is no higher than the fragments that are not entered yet are deep together. -/
private theorem height_writeOutSpread_le {fragments : List Fragment} (path : List String)
    (name : String) (hquiet : closingPaths (unentered fragments path) path name = []) :
    ∀ rounds, (writeOutSpread fragments rounds name).height ≤
      totalWeight Fragment.depth (unentered fragments path) := by
  refine quiet_search_induction (P := fun path name => ∀ rounds,
    (writeOutSpread fragments rounds name).height ≤
      totalWeight Fragment.depth (unentered fragments path)) ?undefined ?enter path name hquiet
  case undefined =>
    intro path name _ hfind rounds
    cases rounds <;> simp [writeOutSpread, hfind, Selected.height]
  case enter =>
    intro path name fragment hname hfind ih rounds
    cases rounds with
    | zero => exact Nat.zero_le _
    | succ rounds =>
      -- The entered fragment pays for its own body, the fragments left for what is spread there.
      have hbody := fragment.selection.height_writeOut_le
        fun next hnext => ih next (SelectionSet.mem_spreadNames.mpr hnext) rounds
      have hmem : fragment ∈ unentered fragments path :=
        List.mem_of_find?_eq_some ((find?_unentered fragments hname).trans hfind)
      have hself : fragment.name = name := name_of_findFragment? hfind
      have hless := weight_add_totalWeight_filter_le Fragment.depth (p := (·.name != name)) hmem
        (by simp [hself])
      rw [← withoutFragment, withoutFragment_unentered, Fragment.depth] at hless
      simp only [writeOutSpread, hfind, Selected.height_within]
      omega

/-- In a checked registry a selection set is no higher than it and all fragments are deep. -/
theorem FragmentRegistry.Safe.height_writeOut_lt {registry : FragmentRegistry}
    (hsafe : registry.Safe) (selection : SelectionSet) :
    selectionHeight (registry.writeOut selection) < registry.depthBound selection := by
  have hspread (name : String) : (registry.writeOutSpread name).height ≤
      totalWeight Fragment.depth registry.fragments := by
    have h := height_writeOutSpread_le [] name (hsafe.quiet_search name) registry.fragments.length
    rw [unentered_nil] at h
    exact h
  have h := selection.height_writeOut_le fun name _ => hspread name
  rw [FragmentRegistry.writeOut, depthBound]
  omega

mutual

private theorem Selected.height_visits_lt {schemaTypeName : String} {around inner : Surroundings}
    {selected : Selected} {head : FieldHead} {below : List Selected}
    (h : .field inner head below ∈ selected.visits schemaTypeName around) :
    selectionHeight below < selected.height := by
  cases selected with
  | field own ownBelow =>
    rw [Selected.visits, List.mem_singleton] at h
    cases h
    exact Nat.lt_succ_self _
  | within scope body =>
    rw [Selected.visits] at h
    exact Nat.lt_succ_of_lt (height_visitsOf_lt h)
  | undefinedSpread name =>
    rw [Selected.visits, List.mem_singleton] at h
    cases h

private theorem height_visitsOf_lt {schemaTypeName : String} {around inner : Surroundings}
    {selections : List Selected} {head : FieldHead} {below : List Selected}
    (h : .field inner head below ∈ Selected.visits.visitsOf schemaTypeName around selections) :
    selectionHeight below < selectionHeight selections := by
  cases selections with
  | nil => cases h
  | cons selected rest =>
    rw [Selected.visits.visitsOf, List.mem_append] at h
    rw [selectionHeight, selectionHeight, Selected.height.heightOf]
    rcases h with hfirst | hrest
    · exact Nat.lt_of_lt_of_le (Selected.height_visits_lt hfirst) (Nat.le_max_left _ _)
    · exact Nat.lt_of_lt_of_le (height_visitsOf_lt hrest) (Nat.le_max_right _ _)

end

/-- What lies below a group of a level is lower than the level. -/
theorem selectionHeight_below_lt_level {schemaTypeName : String} {selections : List Selected}
    {result : List (Contribution (List Selected))}
    (hresult : contributions (levelVisits schemaTypeName selections) = .ok result)
    {group : Group (List Selected)} (hgroup : group ∈ Group.ofContributions result) :
    selectionHeight group.below < selectionHeight selections := by
  have hlower : ∀ contribution ∈ group.toList,
      selectionHeight contribution.below < selectionHeight selections := by
    intro contribution hmem
    rw [Group.toList_of_mem_ofContributions hgroup] at hmem
    obtain ⟨visit, hvisit, hread⟩ :=
      exists_left_of_mem (contributions_eq_ok hresult) (List.mem_of_mem_filter hmem)
    cases visit with
    | undefinedSpread name => cases hread
    | field around head below =>
      rw [Visit.contribution, Surroundings.contribution] at hread
      split at hread
      next => cases hread
      next =>
        obtain rfl := Except.ok.inj hread
        exact height_visitsOf_lt hvisit
  have hpositive := Nat.zero_lt_of_lt (hlower group.first List.mem_cons_self)
  refine Nat.lt_of_le_pred hpositive (selectionHeight_le_iff.mpr ?_)
  intro selected hselected
  obtain ⟨contribution, hmem, hselected⟩ := List.mem_flatMap.mp hselected
  have hselection := Nat.le_pred_of_lt (hlower contribution hmem)
  exact Nat.le_trans (height_le_selectionHeight hselected) hselection

mutual

/-- How deep records are nested. -/
def RecordType.depth : RecordType → Nat
  | ⟨_, _, members, _⟩ => depthOfMembers members + 1

@[inherit_doc RecordType.depth]
def Member.depth : Member → Nat
  | ⟨_, _, _, _, none, _, _, _, _⟩ => 0
  | ⟨_, _, _, _, some nested, _, _, _, _⟩ => nested.depth

@[inherit_doc RecordType.depth]
def depthOfMembers : List Member → Nat
  | [] => 0
  | member :: members => max member.depth (depthOfMembers members)

end

private theorem depthOfMembers_le_iff {members : List Member} {n : Nat} :
    depthOfMembers members ≤ n ↔ ∀ member ∈ members, member.depth ≤ n := by
  induction members with
  | nil => simp [depthOfMembers]
  | cons member members ih => rw [depthOfMembers, Nat.max_le, ih, List.forall_mem_cons]

/-- Records are nested no deeper than the selections that they are laid out for are high. -/
theorem depth_le_of_layoutRecord {resolve : String → LeafKind} {name schemaTypeName : String}
    {selections : List Selected} {names : NameAllocator} {record : RecordType}
    (h : (layoutRecord resolve name schemaTypeName selections names).1 = .ok record) :
    record.depth ≤ selectionHeight selections + 1 := by
  refine layoutRecord_ok_induction (P := fun _ selections record =>
    record.depth ≤ selectionHeight selections + 1) ?step h
  rintro schemaTypeName selections result ⟨name, typeName, members, refs⟩ hresult - - hmembers
  rw [RecordType.depth, Nat.add_le_add_iff_right, depthOfMembers_le_iff]
  intro member hmember
  obtain ⟨group, hgroup, hfrom⟩ := exists_left_of_mem hmembers hmember
  cases hfrom with
  | leaf => exact Nat.zero_le _
  | composite _ _ hnested =>
    have hlower := selectionHeight_below_lt_level hresult hgroup
    change RecordType.depth _ ≤ _
    omega

end ResultLayout
