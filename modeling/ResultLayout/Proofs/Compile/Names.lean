import ResultLayout.Compile.Operation
import ResultLayout.Proofs.Layout.Description
import ResultLayout.Proofs.Layout.Names
/-!
# Names in compiled operations

An operation reserves the names of the fragments that it refers to before its selection is laid out,
so that no nested record takes one of them. The fragments listed in its records are all reached from
its selection; an operation that refers to whatever it reaches has no nested record of the name of a
listed fragment.
-/
namespace ResultLayout

section Reached

/-- A selection set reaches the fragments that are spread in it, at any depth, and those that their
selections reach. -/
inductive FragmentRegistry.Reaches (registry : FragmentRegistry) : SelectionSet → String → Prop
  | spread {selection : SelectionSet} {name : String} (hspreads : selection.Spreads name) :
    Reaches registry selection name
  | through {selection : SelectionSet} {outer : String} {fragment : Fragment} {name : String}
    (houter : selection.Spreads outer) (hfind : registry.find? outer = some fragment)
    (hreaches : Reaches registry fragment.selection name) : Reaches registry selection name

variable {registry : FragmentRegistry} {selection : SelectionSet} {name : String}

theorem FragmentRegistry.Reaches.mono {inner : SelectionSet} (h : registry.Reaches inner name)
    (hspreads : ∀ other, inner.Spreads other → selection.Spreads other) :
    registry.Reaches selection name := by
  cases h with
  | spread hinner => exact .spread (hspreads _ hinner)
  | through houter hfind hreaches => exact .through (hspreads _ houter) hfind hreaches

private theorem FragmentRegistry.Selects.reaches {occurrence : Occurrence}
    (hselects : registry.Selects selection occurrence)
    (h : registry.Reaches occurrence.field.selection name) : registry.Reaches selection name := by
  induction hselects with
  | own hfield => exact h.mono fun _ hspreads => .inField hfield hspreads
  | spread hname hfind _ ih => exact .through (.here hname) hfind (ih h)
  | inline hfragment _ ih => exact (ih h).mono fun _ hspreads => .inInline hfragment hspreads

private theorem SelectionSet.spreads_of_mem_spreadsHere (h : name ∈ selection.spreadsHere) :
    selection.Spreads name := by
  rcases List.mem_append.mp h with hown | hinline
  · exact .here hown
  · obtain ⟨fragment, hfragment, hname⟩ := List.mem_flatMap.mp hinline
    exact .inInline hfragment (.here hname)

private theorem RecordType.Holds.reaches {resolve : String → LeafKind} {record deeper : RecordType}
    {path : List String} {level : Level} (hholds : record.Holds path deeper)
    (hdescribes : record.Describes registry resolve level) (hname : name ∈ deeper.fragmentRefs) :
    ∃ selection ∈ level.selections, registry.Reaches selection name := by
  induction hholds generalizing level with
  | here record =>
    obtain ⟨-, hrefs, -, -, -, -⟩ := hdescribes
    obtain ⟨selection, hselection, hhere⟩ := (hrefs name).mp hname
    exact ⟨selection, hselection, .spread (SelectionSet.spreads_of_mem_spreadsHere hhere)⟩
  | inMember hmember hnested _ ih =>
    obtain ⟨-, -, -, -, -, hbelow⟩ := hdescribes
    obtain ⟨_, ⟨occurrence, ⟨selection, hselection, hselects⟩, -, rfl⟩, hreaches⟩ :=
      ih (hbelow _ hmember _ hnested) hname
    exact ⟨selection, hselection, hselects.reaches hreaches⟩

/-- Names that contain all that the selection set and the fragments spread contain all that is
reached. -/
theorem FragmentRegistry.Reaches.mem_of_closed {names : List String}
    (h : registry.Reaches selection name) (hself : ∀ other ∈ selection.spreadNames, other ∈ names)
    (hclosed : ∀ fragment ∈ registry.fragments, ∀ other ∈ fragment.spreadNames, other ∈ names) :
    name ∈ names := by
  induction h with
  | spread hspreads => exact hself _ (SelectionSet.mem_spreadNames.mpr hspreads)
  | through _ hfind _ ih => exact ih (hclosed _ (List.mem_of_find?_eq_some hfind))

end Reached

section Compile

private theorem mem_foldl_reserve {given : List String} {names : NameAllocator} {name : String} :
    name ∈ (given.foldl NameAllocator.reserve names).taken ↔ name ∈ given ∨ name ∈ names.taken := by
  induction given generalizing names with
  | nil => simp
  | cons first rest ih => rw [List.foldl_cons, ih, NameAllocator.mem_reserve, List.mem_cons,
      or_left_comm, or_assoc]

private theorem Operation.mem_reservedNames (operation : Operation) {name : String} :
    name ∈ operation.reservedNames.taken ↔
      name ∈ operation.fragmentsReferenced ∨ name = dataRecordName := by
  rw [reservedNames, mem_foldl_reserve, NameAllocator.initial, NameAllocator.mem_reserve]
  simp

private theorem Compiler.compile_ok_cases {compiler : Compiler} {operation : Operation}
    {result : ResultType} (h : compiler.compile operation = .ok result) :
    ∃ schemaTypeName, (layoutData compiler.registry compiler.resolver schemaTypeName
        ⟨operation.fields, [], []⟩ operation.reservedNames).1 = .ok result.data ∧
      result.provenance.fragmentsReferenced = operation.fragmentsReferenced := by
  rw [compile] at h
  split at h
  next => cases h
  next kind _ =>
    split at h
    next => cases h
    next data hdata =>
      split at h
      next => cases h
      next =>
        obtain rfl := Except.ok.inj h
        exact ⟨_, hdata, rfl⟩

variable {compiler : Compiler} {operation : Operation} {result : ResultType}

private theorem Compiler.nestedNames_of_compile (h : compiler.compile operation = .ok result) :
    result.data.nestedNames.Nodup ∧ ∀ name ∈ result.data.nestedNames,
      name ≠ result.data.name ∧ name ∉ result.provenance.fragmentsReferenced := by
  obtain ⟨schemaTypeName, hdata, hreferenced⟩ := compile_ok_cases h
  have hself : result.data.name = dataRecordName := name_of_layoutRecord hdata
  have hnames := LayoutStep.handsOut_run compiler.registry compiler.resolver
    (.data schemaTypeName ⟨operation.fields, [], []⟩)
    operation.reservedNames
  dsimp only [LayoutStep.run, Option.elim] at hnames
  rw [hdata] at hnames
  refine ⟨hnames.nodup, ?_⟩
  intro name hname
  have hfresh := hnames.fresh name hname
  rw [NameAllocator.mem_reserve, operation.mem_reservedNames, not_or, not_or] at hfresh
  rw [hself, hreferenced]
  exact ⟨hfresh.1, hfresh.2.1⟩

private theorem Compiler.reaches_of_compile {collection : FragmentCollection}
    (hbuild : collection.build = .ok compiler.registry)
    (h : compiler.compile operation = .ok result) {path : List String} {deeper : RecordType}
    (hholds : result.data.Holds path deeper) {name : String} (hname : name ∈ deeper.fragmentRefs) :
    compiler.registry.Reaches ⟨operation.fields, [], []⟩ name := by
  obtain ⟨schemaTypeName, hdata, -⟩ := compile_ok_cases h
  rw [layoutData, FragmentRegistry.layoutRoot_eq_layoutRecord] at hdata
  have hdescribes := (FragmentRegistry.safe_of_build hbuild).describes_of_layout_ok hdata
  obtain ⟨selection, hselection, hreaches⟩ := hholds.reaches hdescribes hname
  obtain rfl := List.mem_singleton.mp hselection
  exact hreaches

end Compile

/-- A nested record never shares its name: not with `Data`, with a name that its own step or an earlier
one takes as it stands, with another record below the same root or with one below the root of any
other step. In a compiled operation all records have different names, and a nested one is not named
like a fragment that the operation refers to; if these are all that it reaches, then it is not named
like a fragment listed in a record either. -/
theorem nestedNames_never_shared :
    (∀ registry resolve steps i record, LayoutStep.Builds registry resolve steps i record →
      record.nestedNames.Nodup ∧ ∀ name ∈ record.nestedNames, name ≠ dataRecordName ∧
        (∀ j ≤ i, ∀ step, steps[j]? = some step → name ≠ step.ownName) ∧
        ∀ j other, j ≠ i → LayoutStep.Builds registry resolve steps j other →
          name ∉ other.nestedNames) ∧
    ∀ (compiler : Compiler) (operation : Operation) (result : ResultType),
      compiler.compile operation = .ok result →
        result.data.allNames.Nodup ∧
        (∀ name ∈ result.data.nestedNames, name ∉ result.provenance.fragmentsReferenced) ∧
        ∀ collection : FragmentCollection, collection.build = .ok compiler.registry →
          (∀ name, compiler.registry.Reaches ⟨operation.fields, [], []⟩ name →
            name ∈ result.provenance.fragmentsReferenced) →
          ∀ path deeper, result.data.Holds path deeper → ∀ name ∈ deeper.fragmentRefs,
            name ∉ result.data.nestedNames := by
  refine ⟨?_, ?_⟩
  · intro registry resolve steps i record hbuilds
    exact hbuilds.names_distinct
  · intro compiler operation result hcompile
    obtain ⟨hnodup, hnames⟩ := Compiler.nestedNames_of_compile hcompile
    refine ⟨?_, fun name hname => (hnames name hname).2, ?_⟩
    · rw [RecordType.allNames, List.nodup_cons]
      exact ⟨fun hroot => (hnames _ hroot).1 rfl, hnodup⟩
    · intro collection hbuild hreferenced path deeper hholds name hname hnested
      exact (hnames name hnested).2
        (hreferenced name (Compiler.reaches_of_compile hbuild hcompile hholds hname))

/-- A field below another, called like the numbered name that the record of the outer one gets. -/
def friendOfFriend : SelectionSet where
  fields := [⟨{ responseName := "friend", fieldName := "friend", typeText := "User" },
    ⟨[⟨{ responseName := "friend1", fieldName := "friend", typeText := "User" },
      ⟨[⟨{ responseName := "id", fieldName := "id", typeText := "ID" }, .empty⟩], [], []⟩⟩],
      [], []⟩⟩]
  spreads := []
  inlineFragments := []

def friendSteps : List LayoutStep :=
  [.reserve "Friend", .data "Query" friendOfFriend, .root "Friend" "User" friendOfFriend]

/-- A fragment with a field called like the fragment itself. -/
def viewerFragments : FragmentCollection where
  fragments := [{ name := "Friend", typeCondition := "User", selection := friendOfFriend }]
  nodup_names := by decide

def viewerCompiler : Compiler where
  settings := {}
  registry := ⟨viewerFragments.fragments⟩
  resolver := LeafResolver.ofDeclarations [] []

def viewerOperation : Operation where
  name := "Viewer"
  kindName := "query"
  fields := [⟨{ responseName := "viewer", fieldName := "viewer", typeText := "User" },
    ⟨[], ["Friend"], []⟩⟩]
  fragmentsReferenced := ["Friend"]

private theorem LayoutStep.exists_builds {registry : FragmentRegistry} {resolve : String → LeafKind}
    {steps : List LayoutStep} {i : Nat}
    (h : (runAll registry resolve steps .initial)[i]?.join.map Except.isOk = some true) :
    ∃ record, Builds registry resolve steps i record := by
  unfold Builds
  generalize (runAll registry resolve steps .initial)[i]? = outcome at h
  match outcome, h with
  | some (some (.ok record)), _ => exact ⟨record, rfl⟩

theorem nestedNames_friend :
    (∃ first second, LayoutStep.Builds ⟨[]⟩ (fun _ => .enum) friendSteps 1 first ∧
      LayoutStep.Builds ⟨[]⟩ (fun _ => .enum) friendSteps 2 second ∧
      ∀ name ∈ second.nestedNames, name ≠ "Friend" ∧ name ∉ first.nestedNames) ∧
    ∃ result, viewerFragments.build = .ok viewerCompiler.registry ∧
      viewerCompiler.compile viewerOperation = .ok result ∧ result.data.allNames.Nodup ∧
      ∀ path deeper, result.data.Holds path deeper → ∀ name ∈ deeper.fragmentRefs,
        name ∉ result.data.nestedNames := by
  refine ⟨?_, ?_⟩
  · obtain ⟨first, hfirst⟩ : ∃ first,
        LayoutStep.Builds ⟨[]⟩ (fun _ => .enum) friendSteps 1 first :=
      LayoutStep.exists_builds (by decide +kernel)
    obtain ⟨second, hsecond⟩ : ∃ second,
        LayoutStep.Builds ⟨[]⟩ (fun _ => .enum) friendSteps 2 second :=
      LayoutStep.exists_builds (by decide +kernel)
    refine ⟨first, second, hfirst, hsecond, ?_⟩
    intro name hname
    obtain ⟨-, howns, hothers⟩ := (nestedNames_never_shared.1 _ _ _ _ _ hsecond).2 name hname
    exact ⟨howns 0 (by decide) _ rfl, hothers 1 first (by decide) hfirst⟩
  · have hbuild : viewerFragments.build = .ok viewerCompiler.registry :=
      FragmentCollection.build_eq_ok_iff.mpr ⟨rfl, by decide +kernel, by decide +kernel⟩
    have hok : (viewerCompiler.compile viewerOperation).isOk = true := by decide +kernel
    cases hcompile : viewerCompiler.compile viewerOperation with
    | error error =>
      rw [hcompile] at hok
      cases hok
    | ok result =>
      obtain ⟨hnodup, -, hlisted⟩ := nestedNames_never_shared.2 _ _ result hcompile
      refine ⟨result, hbuild, rfl, hnodup, hlisted viewerFragments hbuild ?_⟩
      intro name hreaches
      obtain ⟨_, -, hreferenced⟩ := Compiler.compile_ok_cases hcompile
      rw [hreferenced]
      exact hreaches.mem_of_closed (by decide) (by decide)

end ResultLayout
