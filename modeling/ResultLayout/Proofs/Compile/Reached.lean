import ResultLayout.Proofs.Compile.Names
/-!
# Only reached fragments count

What becomes of an operation is determined by the fragments that its selection reaches. Two checked
collections that agree on these names write the selection out to the same tree, so that the layout,
its record names and its errors are the same. Other fragments and the order of registration do not
matter.
-/
namespace ResultLayout

/-- What an operation selects. -/
def Operation.selection (operation : Operation) : SelectionSet := ⟨operation.fields, [], []⟩

namespace FragmentRegistry

/-- Two registries have the same fragment, or none, under each name that a selection set reaches. -/
def AgreeOn (registry other : FragmentRegistry) (selection : SelectionSet) : Prop :=
  ∀ name, registry.Reaches selection name → registry.find? name = other.find? name

variable {registry other : FragmentRegistry}

theorem AgreeOn.body {selection : SelectionSet} {name : String} {fragment : Fragment}
    (h : registry.AgreeOn other selection) (hspreads : selection.Spreads name)
    (hfind : registry.find? name = some fragment) : registry.AgreeOn other fragment.selection := by
  intro inner hreaches
  exact h inner (.through hspreads hfind hreaches)

namespace Safe

/-- The induction runs along the spreads of the first registry, which are well founded; the second
one has to follow them because it agrees on every name that is met. -/
private theorem writeOutSpread_congr (hsafe : registry.Safe) (hother : other.Safe) (name : String)
    (hname : registry.find? name = other.find? name)
    (hbody : ∀ fragment, registry.find? name = some fragment →
      registry.AgreeOn other fragment.selection) :
    registry.writeOutSpread name = other.writeOutSpread name := by
  induction name using hsafe.wellFounded_spreadsTo.induction with
  | _ name ih =>
    rw [hsafe.writeOutSpread_eq, hother.writeOutSpread_eq, ← hname]
    cases hfind : registry.find? name with
    | none => rfl
    | some fragment =>
      have hagree := hbody fragment hfind
      have hwritten : registry.writeOut fragment.selection = other.writeOut fragment.selection := by
        apply SelectionSet.writeOut_congr
        intro next hnext
        have hedge : SpreadsTo registry.fragments name next :=
          ⟨fragment, List.mem_of_find?_eq_some hfind, name_of_findFragment? hfind, hnext⟩
        apply ih next hedge (hagree next (.spread hnext))
        intro inner hinner
        exact hagree.body hnext hinner
      simp only [hwritten]

/-- Registries that agree on what a selection set reaches write it out alike. -/
theorem writeOut_congr (hsafe : registry.Safe) (hother : other.Safe) {selection : SelectionSet}
    (hagree : registry.AgreeOn other selection) :
    registry.writeOut selection = other.writeOut selection := by
  apply SelectionSet.writeOut_congr
  intro name hspreads
  apply writeOutSpread_congr hsafe hother name (hagree name (.spread hspreads))
  intro fragment hfind
  exact hagree.body hspreads hfind

end Safe

private theorem find?_eq_of_mem_iff (hnodup : (registry.fragments.map (·.name)).Nodup)
    (hother : (other.fragments.map (·.name)).Nodup) {name : String}
    (hmem : ∀ fragment : Fragment, fragment.name = name →
      (fragment ∈ registry.fragments ↔ fragment ∈ other.fragments)) :
    registry.find? name = other.find? name := by
  apply Option.ext
  intro fragment
  rw [find?, find?, findFragment?_eq_some hnodup, findFragment?_eq_some hother]
  exact and_congr_left (hmem fragment)

end FragmentRegistry

private theorem FragmentCollection.exists_build_of_perm {collection changed : FragmentCollection}
    {registry : FragmentRegistry} (hbuild : collection.build = .ok registry)
    (hperm : changed.fragments.Perm collection.fragments) :
    ∃ reordered, changed.build = .ok reordered := by
  obtain ⟨-, hcycles, hundefined⟩ := build_eq_ok_iff.mp hbuild
  rw [cycleErrors_eq_nil] at hcycles
  rw [undefinedSpreadErrors_eq_nil] at hundefined
  have hedges : SpreadsTo changed.fragments = SpreadsTo collection.fragments := by
    funext source target
    simp only [SpreadsTo, hperm.mem_iff]
  refine ⟨⟨changed.fragments⟩, build_eq_ok_iff.mpr ⟨rfl, ?_, ?_⟩⟩
  · rw [cycleErrors_eq_nil, SpreadsAcyclic, hedges]
    exact hcycles
  · rw [undefinedSpreadErrors_eq_nil]
    intro fragment hfragment name hspreads
    obtain ⟨target, htarget, hname⟩ := hundefined fragment (hperm.mem_iff.mp hfragment) name hspreads
    exact ⟨target, hperm.mem_iff.mpr htarget, hname⟩

namespace Compiler

variable {compiler : Compiler} {registry : FragmentRegistry} {operation : Operation}

private theorem compile_congr
    (h : compiler.registry.writeOut operation.selection = registry.writeOut operation.selection) :
    compiler.compile operation = { compiler with registry }.compile operation := by
  have hlayout (kind : OperationKind) (names : NameAllocator) :
      layoutData compiler.registry compiler.resolver kind.suffix operation.selection names =
        layoutData registry compiler.resolver kind.suffix operation.selection names := by
    rw [layoutData, layoutData, layoutRoot, layoutRoot, h]
  simp only [Operation.selection] at hlayout
  simp only [compile, hlayout]

private theorem compile_of_agreeOn {collection changed : FragmentCollection}
    (hbuild : collection.build = .ok compiler.registry) (hchanged : changed.build = .ok registry)
    (hagree : compiler.registry.AgreeOn registry operation.selection) :
    compiler.compile operation = { compiler with registry }.compile operation := by
  have hsafe := FragmentRegistry.safe_of_build hbuild
  have hother := FragmentRegistry.safe_of_build hchanged
  exact compile_congr (hsafe.writeOut_congr hother hagree)

private theorem agreeOn_of_mem_iff {collection changed : FragmentCollection}
    (hbuild : collection.build = .ok compiler.registry) (hchanged : changed.build = .ok registry)
    (hmem : ∀ fragment : Fragment, compiler.registry.Reaches operation.selection fragment.name →
      (fragment ∈ collection.fragments ↔ fragment ∈ changed.fragments)) :
    compiler.registry.AgreeOn registry operation.selection := by
  have hfragments := (FragmentCollection.build_eq_ok_iff.mp hbuild).1
  have hchangedFragments := (FragmentCollection.build_eq_ok_iff.mp hchanged).1
  intro name hreaches
  apply FragmentRegistry.find?_eq_of_mem_iff (FragmentRegistry.safe_of_build hbuild).nodup_names
    (FragmentRegistry.safe_of_build hchanged).nodup_names
  rintro fragment rfl
  rw [hfragments, hchangedFragments]
  exact hmem fragment hreaches

/-- Over two checked collections that agree on what the operation's selection reaches, the operation
has one and the same outcome. Two changes that no operation notices are further fragments that it does
not reach, and another order of the same fragments, which can always be checked too. -/
theorem compile_only_reached (compiler : Compiler) (operation : Operation)
    (collection changed : FragmentCollection)
    (hbuild : collection.build = .ok compiler.registry) :
    (∀ registry, changed.build = .ok registry →
      (∀ name, compiler.registry.Reaches operation.selection name →
        compiler.registry.find? name = registry.find? name) →
      compiler.compile operation = { compiler with registry }.compile operation) ∧
    (∀ registry, changed.build = .ok registry → collection.fragments ⊆ changed.fragments →
      (∀ fragment ∈ changed.fragments, fragment ∉ collection.fragments →
        ¬ compiler.registry.Reaches operation.selection fragment.name) →
      compiler.compile operation = { compiler with registry }.compile operation) ∧
    (changed.fragments.Perm collection.fragments → ∃ registry, changed.build = .ok registry ∧
      compiler.compile operation = { compiler with registry }.compile operation) := by
  refine ⟨?_, ?_, ?_⟩
  · intro registry hchanged hagree
    exact compile_of_agreeOn hbuild hchanged hagree
  · intro registry hchanged hgrown hunrelated
    apply compile_of_agreeOn hbuild hchanged
    apply agreeOn_of_mem_iff hbuild hchanged
    intro fragment hreaches
    refine ⟨fun hold => hgrown hold, ?_⟩
    intro hnew
    by_contra hadded
    exact hunrelated fragment hnew hadded hreaches
  · intro hperm
    obtain ⟨registry, hchanged⟩ := FragmentCollection.exists_build_of_perm hbuild hperm
    refine ⟨registry, hchanged, compile_of_agreeOn hbuild hchanged ?_⟩
    apply agreeOn_of_mem_iff hbuild hchanged
    intro fragment _
    exact hperm.mem_iff.symm

/-- A fragment that spreads the viewer's fragment; the viewer's operation does not reach it. -/
def draftFragment : Fragment where
  name := "Draft"
  typeCondition := "User"
  selection := ⟨[], ["Friend"], []⟩

def draftFragments : FragmentCollection where
  fragments := draftFragment :: viewerFragments.fragments
  nodup_names := by decide

def draftsLast : FragmentCollection where
  fragments := viewerFragments.fragments ++ [draftFragment]
  nodup_names := by decide

/-- The draft has another body, and spreads nothing any more. -/
def draftsRewritten : FragmentCollection where
  fragments := { draftFragment with selection := friendOfFriend } :: viewerFragments.fragments
  nodup_names := by decide

private theorem viewerOperation_reaches {name : String}
    (h : viewerCompiler.registry.Reaches viewerOperation.selection name) : name = "Friend" :=
  List.mem_singleton.mp (h.mem_of_closed (by decide) (by decide))

/-- The viewer's operation does not notice the draft, nor then what it says and where it stands. -/
theorem compile_viewer_with_drafts :
    viewerFragments.build = .ok viewerCompiler.registry ∧
      draftFragments.build = .ok ⟨draftFragments.fragments⟩ ∧
      viewerCompiler.compile viewerOperation =
        { viewerCompiler with registry := ⟨draftFragments.fragments⟩ }.compile viewerOperation ∧
      viewerCompiler.compile viewerOperation =
        { viewerCompiler with registry := ⟨draftsRewritten.fragments⟩ }.compile viewerOperation ∧
      ∃ registry, draftsLast.build = .ok registry ∧
        { viewerCompiler with registry := ⟨draftFragments.fragments⟩ }.compile viewerOperation =
          { viewerCompiler with registry }.compile viewerOperation := by
  have hviewer : viewerFragments.build = .ok viewerCompiler.registry :=
    FragmentCollection.build_eq_ok_iff.mpr ⟨rfl, by decide +kernel, by decide +kernel⟩
  have hdrafts : draftFragments.build = .ok ⟨draftFragments.fragments⟩ :=
    FragmentCollection.build_eq_ok_iff.mpr ⟨rfl, by decide +kernel, by decide +kernel⟩
  have hrewritten : draftsRewritten.build = .ok ⟨draftsRewritten.fragments⟩ :=
    FragmentCollection.build_eq_ok_iff.mpr ⟨rfl, by decide +kernel, by decide +kernel⟩
  refine ⟨hviewer, hdrafts, ?_, ?_, ?_⟩
  · obtain ⟨-, hadded, -⟩ :=
      compile_only_reached viewerCompiler viewerOperation viewerFragments draftFragments hviewer
    apply hadded _ hdrafts (List.subset_cons_self _ _)
    intro fragment hfragment hnew hreaches
    rcases List.mem_cons.mp hfragment with rfl | hold
    · exact absurd (viewerOperation_reaches hreaches) (by decide)
    · exact hnew hold
  · obtain ⟨hagreed, -, -⟩ :=
      compile_only_reached viewerCompiler viewerOperation viewerFragments draftsRewritten hviewer
    apply hagreed _ hrewritten
    intro name hreaches
    rw [viewerOperation_reaches hreaches]
    rfl
  · obtain ⟨-, -, hmoved⟩ :=
      compile_only_reached { viewerCompiler with registry := ⟨draftFragments.fragments⟩ }
        viewerOperation draftFragments draftsLast hdrafts
    exact hmoved (List.perm_append_singleton _ _)

end Compiler
end ResultLayout
