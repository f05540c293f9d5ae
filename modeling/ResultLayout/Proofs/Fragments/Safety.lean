import ResultLayout.Proofs.Fragments.Search
import Mathlib.Order.WellFounded
import Mathlib.Tactic.ByContra
/-!
# Registries are safe

A collection becomes a registry exactly when every name spread in it is defined and no chain of
spreads comes back to its start. A closing path of the search is such a chain; when there is none,
the search itself shows that spreads are well founded.
-/
namespace ResultLayout
open Relation

private theorem spreadsTo_of_mem {fragments : List Fragment} {name next : String}
    {fragment : Fragment} (hfind : findFragment? fragments name = some fragment)
    (hnext : next ∈ fragment.spreadNames) : SpreadsTo fragments name next := by
  refine ⟨fragment, List.mem_of_find?_eq_some hfind, ?_, ?_⟩
  · exact name_of_findFragment? hfind
  · exact SelectionSet.mem_spreadNames.mp hnext

private theorem exists_cycle_of_closingPath {fragments : List Fragment} (path : List String)
    (name : String) (hpath : ∀ entered ∈ path, TransGen (SpreadsTo fragments) entered name)
    (hclosing : closingPaths (unentered fragments path) path name ≠ []) :
    ∃ repeated, TransGen (SpreadsTo fragments) repeated repeated := by
  induction path, name using @search_induction fragments with
  | onPath path name hname => exact ⟨name, hpath name hname⟩
  | undefined path name hname hfind =>
    rw [closingPaths_unentered, if_neg hname, hfind] at hclosing
    exact absurd rfl hclosing
  | enter path name fragment hname hfind ih =>
    rw [closingPaths_unentered, if_neg hname, hfind] at hclosing
    obtain ⟨next, hnext, hbelow⟩ : ∃ next ∈ fragment.spreadNames,
        closingPaths (unentered fragments (path ++ [name])) (path ++ [name]) next ≠ [] := by
      simpa [List.flatMap_eq_nil_iff] using hclosing
    have hedge := spreadsTo_of_mem hfind hnext
    apply ih next hnext _ hbelow
    intro entered hentered
    rcases List.mem_append.mp hentered with hold | hnew
    · exact (hpath entered hold).tail hedge
    · rw [List.mem_singleton.mp hnew]
      exact TransGen.single hedge

/-- Where the search finds nothing, every chain of spreads comes to an end. -/
theorem acc_of_quiet_search {fragments : List Fragment} (hnodup : (fragments.map (·.name)).Nodup)
    (path : List String) (name : String)
    (hquiet : closingPaths (unentered fragments path) path name = []) :
    Acc (fun target source => SpreadsTo fragments source target) name := by
  refine quiet_search_induction (P := fun _ name =>
    Acc (fun target source => SpreadsTo fragments source target) name) ?undefined ?enter
    path name hquiet
  case undefined =>
    intro _ name _ hfind
    constructor
    rintro target ⟨fragment, hmem, rfl, -⟩
    exact absurd (List.mem_map_of_mem hmem) (findFragment?_eq_none.mp hfind)
  case enter =>
    intro _ name fragment _ hfind ih
    constructor
    rintro target ⟨source, hmem, hsource, hspreads⟩
    have hsame : source = fragment := by
      have h := (findFragment?_eq_some hnodup).mpr ⟨hmem, hsource⟩
      rw [hfind] at h
      exact (Option.some.inj h).symm
    subst hsame
    exact ih target (SelectionSet.mem_spreadNames.mpr hspreads)

private theorem cyclePaths_eq_nil {fragments : List Fragment} :
    cyclePaths fragments = [] ↔
      ∀ fragment ∈ fragments, closingPaths fragments [] fragment.name = [] := by
  rw [cyclePaths, firstOfEach_eq_nil, List.flatMap_eq_nil_iff]

private theorem quiet_search_of_no_cyclePaths {fragments : List Fragment}
    (h : cyclePaths fragments = [])
    (name : String) : closingPaths (unentered fragments []) [] name = [] := by
  cases hfind : findFragment? fragments name with
  | none => simp [closingPaths_unentered, hfind]
  | some fragment =>
    have hname : fragment.name = name := name_of_findFragment? hfind
    rw [unentered_nil, ← hname]
    exact cyclePaths_eq_nil.mp h fragment (List.mem_of_find?_eq_some hfind)

theorem wellFounded_spreadsTo {fragments : List Fragment} (hnodup : (fragments.map (·.name)).Nodup)
    (h : cyclePaths fragments = []) :
    WellFounded (fun target source => SpreadsTo fragments source target) := by
  constructor
  intro name
  exact acc_of_quiet_search hnodup [] name (quiet_search_of_no_cyclePaths h name)

private theorem cyclePaths_eq_nil_iff_acyclic {fragments : List Fragment}
    (hnodup : (fragments.map (·.name)).Nodup) :
    cyclePaths fragments = [] ↔ ∀ name, ¬ TransGen (SpreadsTo fragments) name name := by
  constructor
  · intro h name hcycle
    have hback := transGen_swap.mpr hcycle
    exact (wellFounded_spreadsTo hnodup h).transGen.irrefl.irrefl name hback
  · intro hacyclic
    rw [cyclePaths_eq_nil]
    intro fragment _
    by_contra hclosing
    rw [← unentered_nil fragments] at hclosing
    obtain ⟨name, hcycle⟩ := exists_cycle_of_closingPath [] fragment.name (by simp) hclosing
    exact hacyclic name hcycle

namespace FragmentCollection

/-- Every name spread in a fragment of the collection is the name of one of its fragments. -/
def SpreadsDefined (collection : FragmentCollection) : Prop :=
  ∀ fragment ∈ collection.fragments, ∀ name, fragment.selection.Spreads name →
    ∃ target ∈ collection.fragments, target.name = name

/-- No fragment of the collection spreads itself, directly or through others. -/
def SpreadsAcyclic (collection : FragmentCollection) : Prop :=
  ∀ name, ¬ TransGen (SpreadsTo collection.fragments) name name

theorem undefinedSpreadErrors_eq_nil {collection : FragmentCollection} :
    collection.undefinedSpreadErrors = [] ↔ collection.SpreadsDefined := by
  have hdefined (name : String) : (findFragment? collection.fragments name).isNone = true ↔
      ¬ ∃ target ∈ collection.fragments, target.name = name := by
    rw [Option.isNone_iff_eq_none, findFragment?_eq_none, List.mem_map]
  rw [undefinedSpreadErrors, List.flatMap_eq_nil_iff]
  apply forall₂_congr
  intro fragment _
  rw [List.map_eq_nil_iff, firstOfEach_eq_nil, List.filter_eq_nil_iff]
  apply forall_congr'
  intro name
  rw [hdefined, not_not, ← SelectionSet.mem_spreadNames]
  rfl

theorem cycleErrors_eq_nil {collection : FragmentCollection} :
    collection.cycleErrors = [] ↔ collection.SpreadsAcyclic := by
  rw [cycleErrors, List.map_eq_nil_iff]
  exact cyclePaths_eq_nil_iff_acyclic collection.nodup_names

theorem build_eq_ok_iff {collection : FragmentCollection} {registry : FragmentRegistry} :
    collection.build = .ok registry ↔
      registry.fragments = collection.fragments ∧ collection.cycleErrors = [] ∧
        collection.undefinedSpreadErrors = [] := by
  rw [build, ← List.append_eq_nil_iff]
  split
  next hnone =>
    simp only [hnone, and_true, Except.ok.injEq]
    constructor
    · rintro rfl
      rfl
    · intro h
      cases registry
      exact congrArg FragmentRegistry.mk h.symm
  next herrors =>
    constructor
    · intro h
      cases h
    · rintro ⟨-, hnone⟩
      exact absurd hnone herrors

theorem add_of_old {collection : FragmentCollection} {fragment first : Fragment}
    (h : findFragment? collection.fragments fragment.name = some first) :
    collection.add fragment =
      .error (.duplicateDefinition fragment.name first.location fragment.location) := by
  rw [add]
  split
  next found hfound =>
    obtain rfl := Option.some.inj (h.symm.trans hfound)
    rfl
  next hnone =>
    rw [h] at hnone
    cases hnone

theorem add_of_new {collection : FragmentCollection} {fragment : Fragment}
    (h : findFragment? collection.fragments fragment.name = none) :
    ∃ grown, collection.add fragment = .ok grown ∧
      grown.fragments = collection.fragments ++ [fragment] := by
  rw [add]
  split
  next found hfound =>
    rw [h] at hfound
    cases hfound
  next => exact ⟨_, rfl, rfl⟩

private theorem fragments_addAll (collection : FragmentCollection) (seen : List String)
    (hseen : ∀ name, name ∈ seen ↔ name ∈ collection.fragments.map (·.name))
    (fragments : List Fragment) :
    (collection.addAll fragments).1.fragments =
      collection.fragments ++ firstOfEachAfter (·.name) seen fragments := by
  induction fragments generalizing collection seen with
  | nil => rw [addAll, firstOfEachAfter, List.append_nil]
  | cons fragment rest ih =>
    rw [addAll, firstOfEachAfter]
    cases hfind : findFragment? collection.fragments fragment.name with
    | some first =>
      have hold : fragment.name ∈ seen := by
        rw [hseen]
        by_contra hnew
        rw [findFragment?_eq_none.mpr hnew] at hfind
        cases hfind
      rw [add_of_old hfind]
      simp only [List.contains_iff_mem, hold, if_true]
      exact ih collection seen hseen
    | none =>
      have hnew : fragment.name ∉ seen := by
        rw [hseen]
        exact findFragment?_eq_none.mp hfind
      obtain ⟨grown, hadded, hgrown⟩ := add_of_new hfind
      have hseen' : ∀ name, name ∈ fragment.name :: seen ↔ name ∈ grown.fragments.map (·.name) := by
        intro name
        rw [hgrown, List.mem_cons, hseen, List.map_append, List.mem_append, List.map_singleton,
          List.mem_singleton, or_comm]
      rw [hadded]
      simp only [List.contains_iff_mem, hnew, if_false]
      rw [ih grown _ hseen', hgrown, List.append_assoc, List.singleton_append]

theorem fragments_ofList (fragments : List Fragment) :
    (ofList fragments).1.fragments = firstOfEach (·.name) fragments := by
  rw [ofList, fragments_addAll FragmentCollection.empty [] (by simp [FragmentCollection.empty])]
  rfl

/-- What is collected from a sequence of fragments becomes a registry exactly when it is safe. The
registry then holds the first fragment of each name, in the order of the sequence. -/
theorem build_ofList_eq_ok_iff_safe (fragments : List Fragment) (registry : FragmentRegistry) :
    (ofList fragments).1.build = .ok registry ↔
      registry.fragments = firstOfEach (·.name) fragments ∧ (ofList fragments).1.SpreadsDefined ∧
        (ofList fragments).1.SpreadsAcyclic := by
  rw [build_eq_ok_iff, undefinedSpreadErrors_eq_nil, cycleErrors_eq_nil, fragments_ofList]
  exact and_congr_right fun _ => and_comm

end FragmentCollection

namespace FragmentRegistry

/-- What the check of a collection promises of the registry. -/
structure Safe (registry : FragmentRegistry) : Prop where
  nodup_names : (registry.fragments.map (·.name)).Nodup
  no_cyclePaths : cyclePaths registry.fragments = []
  /-- Every name spread in a fragment of the registry is registered. -/
  defined : ∀ fragment ∈ registry.fragments, ∀ name, fragment.selection.Spreads name →
    ∃ target, registry.find? name = some target

theorem safe_of_build {collection : FragmentCollection} {registry : FragmentRegistry}
    (hbuild : collection.build = .ok registry) : registry.Safe := by
  obtain ⟨hfragments, hcycles, hundefined⟩ := FragmentCollection.build_eq_ok_iff.mp hbuild
  constructor
  · rw [hfragments]
    exact collection.nodup_names
  · rw [hfragments]
    exact List.map_eq_nil_iff.mp hcycles
  · intro fragment hfragment name hspreads
    rw [hfragments] at hfragment
    obtain ⟨target, htarget, rfl⟩ := FragmentCollection.undefinedSpreadErrors_eq_nil.mp hundefined
      fragment hfragment name hspreads
    refine ⟨target, (findFragment?_eq_some ?_).mpr ⟨?_, rfl⟩⟩
    · rw [hfragments]
      exact collection.nodup_names
    · rw [hfragments]
      exact htarget

namespace Safe

variable {registry : FragmentRegistry}

theorem quiet_search (hsafe : registry.Safe) (name : String) :
    closingPaths (unentered registry.fragments []) [] name = [] :=
  quiet_search_of_no_cyclePaths hsafe.no_cyclePaths name

theorem not_spreads_undefined (hsafe : registry.Safe) {name outer : String}
    (hnone : registry.find? name = none) {fragment : Fragment}
    (hfind : registry.find? outer = some fragment) : ¬ fragment.selection.Spreads name := by
  intro hspreads
  obtain ⟨target, htarget⟩ :=
    hsafe.defined fragment (List.mem_of_find?_eq_some hfind) name hspreads
  rw [hnone] at htarget
  cases htarget

theorem wellFounded_spreadsTo (hsafe : registry.Safe) :
    WellFounded (fun target source => SpreadsTo registry.fragments source target) :=
  ResultLayout.wellFounded_spreadsTo hsafe.nodup_names hsafe.no_cyclePaths

end Safe
end FragmentRegistry
end ResultLayout
