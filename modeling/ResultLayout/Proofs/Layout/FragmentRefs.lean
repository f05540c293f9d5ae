import ResultLayout.Proofs.Layout.WellFormed
/-!
# Fragments listed by records

The walk through a level meets the names spread in its selection sets and in their inline fragments,
and behind these the names spread in the bodies of the fragments it enters. A record lists the former
only, each where the walk first meets it. Names behind a listed fragment are those of its own body.
-/
namespace ResultLayout

/-- A name is spread inside the body of a fragment that the selection set spreads. -/
def FragmentRegistry.SpreadsInside (registry : FragmentRegistry) (selection : SelectionSet)
    (name : String) : Prop :=
  ∃ outer ∈ selection.spreadsHere, ∃ fragment, registry.find? outer = some fragment ∧
    registry.SpreadsAtLevel fragment.selection name

/-- The record lists what its selection sets spread: their own spreads before those of their inline
fragments, one selection set after the other. -/
structure RecordType.ListsSpreads (registry : FragmentRegistry) (selections : List SelectionSet)
    (record : RecordType) : Prop where
  fragmentRefs_eq : record.fragmentRefs = firstSeen (selections.flatMap fun selection =>
    selection.spreads ++ selection.inlineFragments.flatMap (·.spreads))
  nodup : record.fragmentRefs.Nodup
  mem_iff : ∀ name, name ∈ record.fragmentRefs ↔ ∃ selection ∈ selections,
    name ∈ selection.spreads ∨ ∃ fragment ∈ selection.inlineFragments, name ∈ fragment.spreads
  registered : ∀ name ∈ record.fragmentRefs, ∃ fragment, registry.find? name = some fragment
  /-- Whatever else the walk meets is spread inside the fragments that are listed. -/
  met_iff : ∀ name, (∃ selection ∈ selections, registry.SpreadsAtLevel selection name) ↔
    name ∈ record.fragmentRefs ∨ ∃ selection ∈ selections, registry.SpreadsInside selection name

section Spreads

variable {registry : FragmentRegistry} {selection : SelectionSet} {name : String}

private theorem SelectionSet.mem_spreadsHere_iff : name ∈ selection.spreadsHere ↔
    name ∈ selection.spreads ∨ ∃ fragment ∈ selection.inlineFragments, name ∈ fragment.spreads := by
  simp [spreadsHere]

theorem FragmentRegistry.SpreadsAtLevel.of_mem (h : name ∈ selection.spreadsHere) :
    registry.SpreadsAtLevel selection name := by
  rcases SelectionSet.mem_spreadsHere_iff.mp h with hname | ⟨fragment, hfragment, hname⟩
  · exact .own hname
  · exact .inline hfragment (.own hname)

private theorem FragmentRegistry.spreadsAtLevel_iff : registry.SpreadsAtLevel selection name ↔
    name ∈ selection.spreadsHere ∨ registry.SpreadsInside selection name := by
  constructor
  · intro h
    cases h with
    | own hname => exact Or.inl (SelectionSet.mem_spreadsHere_iff.mpr (Or.inl hname))
    | spread houter hfind hinner =>
      exact Or.inr ⟨_, SelectionSet.mem_spreadsHere_iff.mpr (Or.inl houter), _, hfind, hinner⟩
    | @inline _ fragment _ hfragment hinner =>
      have here {other : String} (hother : other ∈ fragment.spreads) :
          other ∈ selection.spreadsHere :=
        SelectionSet.mem_spreadsHere_iff.mpr (Or.inr ⟨fragment, hfragment, hother⟩)
      cases hinner with
      | own hname => exact Or.inl (here hname)
      | spread houter hfind hdeeper => exact Or.inr ⟨_, here houter, _, hfind, hdeeper⟩
      | inline hnone _ => simp [InlineFragment.body] at hnone
  · rintro (hname | ⟨outer, houter, fragment, hfind, hinner⟩)
    · exact .of_mem hname
    · rcases SelectionSet.mem_spreadsHere_iff.mp houter with hspread | ⟨inline, hinline, hspread⟩
      · exact .spread hspread hfind hinner
      · exact .inline hinline (.spread hspread hfind hinner)

end Spreads

private theorem FragmentRegistry.LevelLayout.listsSpreads {registry : FragmentRegistry}
    (hsafe : registry.Safe) {resolve : String → LeafKind}
    {P : String → List SelectionSet → RecordType → Prop} {schemaTypeName : String}
    {selections : List SelectionSet} {occurrences : List Occurrence} {record : RecordType}
    (h : registry.LevelLayout resolve P schemaTypeName selections occurrences record) :
    record.ListsSpreads registry selections := by
  have hrefs := h.fragmentRefs_eq_firstSeen hsafe
  have hmem := h.mem_fragmentRefs hsafe
  refine ⟨hrefs, by rw [hrefs]; exact nodup_firstSeen _, ?_, ?_, ?_⟩
  · simpa only [SelectionSet.mem_spreadsHere_iff] using hmem
  · intro name hname
    obtain ⟨selection, hselection, hspreads⟩ := (hmem name).mp hname
    exact h.walk.defined
      (fun item hitem => List.mem_flatMap.mpr ⟨selection, hselection, hitem⟩) (.of_mem hspreads)
  · intro name
    simp only [hmem, FragmentRegistry.spreadsAtLevel_iff, and_or_left, exists_or]

/-- Every record of a tree lists the fragments that are spread in the selection sets of its level or
in their inline fragments, each once and in the order of the walk; all of them are registered. What
is spread only inside the bodies of these fragments is not listed. -/
theorem layoutRoot_lists_spreads {collection : FragmentCollection} {registry : FragmentRegistry}
    (hbuild : collection.build = .ok registry) {resolve : String → LeafKind}
    {name schemaTypeName : String} {selection : SelectionSet} {names : NameAllocator}
    {record : RecordType}
    (hrecord : (layoutRoot registry resolve name schemaTypeName selection names).1 = .ok record) :
    record.EachLevel registry (fun _ selections _ nested =>
      nested.ListsSpreads registry selections) schemaTypeName [selection] := by
  have hsafe := FragmentRegistry.safe_of_build hbuild
  rw [FragmentRegistry.layoutRoot_eq_layoutRecord] at hrecord
  apply hsafe.eachLevel_of_layout_ok _ hrecord
  intro _ _ _ _ hlevel
  exact hlevel.listsSpreads hsafe

section Team

/-- The team leads to its head, and the head to an address. -/
def teamFragments : FragmentCollection where
  fragments := [
    { name := "Team", typeCondition := "Team"
      selection := ⟨[], [], [⟨"Team", ["Team"], [], ["Head"]⟩]⟩ },
    { name := "Head", typeCondition := "Team"
      selection := ⟨[⟨{ responseName := "head", fieldName := "head", typeText := "Person" },
        ⟨[], ["Address"], []⟩⟩], [], []⟩ },
    { name := "Address", typeCondition := "Person"
      selection := ⟨[⟨{ responseName := "city", fieldName := "city", typeText := "String" },
        .empty⟩], [], []⟩ }]
  nodup_names := by decide

def teamSelection : SelectionSet := ⟨[], ["Team"], []⟩

theorem layoutRoot_team_lists : ∃ record,
    teamFragments.build = .ok ⟨teamFragments.fragments⟩ ∧
    (layoutRoot ⟨teamFragments.fragments⟩ (fun _ => .enum) "Data" "Team" teamSelection
      .initial).1 = .ok record ∧
    record.fragmentRefs = ["Team"] ∧
    record.members.map (·.nested.map (·.fragmentRefs)) = [some ["Address"]] ∧
    record.EachLevel ⟨teamFragments.fragments⟩ (fun _ selections _ nested =>
      nested.ListsSpreads ⟨teamFragments.fragments⟩ selections) "Team" [teamSelection] := by
  have hbuild : teamFragments.build = .ok ⟨teamFragments.fragments⟩ :=
    FragmentCollection.build_eq_ok_iff.mpr ⟨rfl, by decide +kernel, by decide +kernel⟩
  have hrefs : (layoutRoot ⟨teamFragments.fragments⟩ (fun _ => .enum) "Data" "Team" teamSelection
      .initial).1.toOption.map (fun record =>
        (record.fragmentRefs, record.members.map (·.nested.map (·.fragmentRefs)))) =
      some (["Team"], [some ["Address"]]) := by decide +kernel
  cases hrecord : (layoutRoot ⟨teamFragments.fragments⟩ (fun _ => .enum) "Data" "Team" teamSelection
      .initial).1 with
  | error error =>
    rw [hrecord] at hrefs
    cases hrefs
  | ok record =>
    rw [hrecord] at hrefs
    obtain ⟨hroot, hbelow⟩ := Prod.mk.inj (Option.some.inj hrefs)
    exact ⟨record, hbuild, rfl, hroot, hbelow, layoutRoot_lists_spreads hbuild hrecord⟩

end Team

end ResultLayout
