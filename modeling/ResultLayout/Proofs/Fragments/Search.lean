import ResultLayout.Fragments.Registry
import ResultLayout.Proofs.Fragments.Spreads
import Mathlib.Logic.Relation
/-!
# The search for spread cycles

At every moment of the search the fragments that are not entered yet are those whose names do not
stand on the path, so the path alone says where the search is. A name on the path closes it, an
undefined name ends the branch, and any other name is entered and its spreads are searched in turn.
Whatever follows these three cases holds everywhere in the search.

If the search finds no closing path, then no chain of spreads goes on for ever.
-/
namespace ResultLayout

/-- One fragment spreads another name, directly. Undefined names spread nothing, so a chain of
spreads that comes back to its start only passes through defined fragments. -/
def SpreadsTo (fragments : List Fragment) (source target : String) : Prop :=
  ∃ fragment ∈ fragments, fragment.name = source ∧ fragment.selection.Spreads target

theorem findFragment?_eq_some {fragments : List Fragment} (hnodup : (fragments.map (·.name)).Nodup)
    {name : String} {fragment : Fragment} :
    findFragment? fragments name = some fragment ↔ fragment ∈ fragments ∧ fragment.name = name := by
  constructor
  · intro h
    exact ⟨List.mem_of_find?_eq_some h, name_of_findFragment? h⟩
  · rintro ⟨hmem, rfl⟩
    induction fragments with
    | nil => simp at hmem
    | cons first rest ih =>
      rw [List.map_cons, List.nodup_cons] at hnodup
      rcases List.mem_cons.mp hmem with rfl | hrest
      · simp [findFragment?]
      · have hne : first.name ≠ fragment.name := by
          intro heq
          exact hnodup.1 (heq ▸ List.mem_map_of_mem hrest)
        have h := ih hnodup.2 hrest
        simpa [findFragment?, hne] using h

/-- The fragments that a search along `path` has not entered. -/
def unentered (fragments : List Fragment) (path : List String) : List Fragment :=
  fragments.filter (·.name ∉ path)

theorem unentered_nil (fragments : List Fragment) : unentered fragments [] = fragments := by
  simp [unentered]

theorem find?_unentered (fragments : List Fragment) {path : List String} {name : String}
    (h : name ∉ path) :
    (unentered fragments path).find? (·.name == name) = findFragment? fragments name := by
  rw [unentered, List.find?_filter, findFragment?]
  congr 1
  funext fragment
  by_cases hname : fragment.name = name
  · simp [hname, h]
  · simp [hname]

theorem withoutFragment_unentered (fragments : List Fragment) (path : List String) (name : String) :
    withoutFragment name (unentered fragments path) = unentered fragments (path ++ [name]) := by
  rw [withoutFragment, unentered, unentered, List.filter_filter]
  congr 1
  funext fragment
  by_cases hname : fragment.name = name <;> simp [hname]

theorem length_unentered_lt {fragments : List Fragment} {path : List String} {name : String}
    {fragment : Fragment} (hname : name ∉ path) (hfind : findFragment? fragments name = some fragment) :
    (unentered fragments (path ++ [name])).length < (unentered fragments path).length := by
  rw [← find?_unentered fragments hname] at hfind
  rw [← withoutFragment_unentered]
  exact length_withoutFragment_lt hfind

/-- The three cases of the search, without the bookkeeping of entered fragments. -/
theorem closingPaths_unentered (fragments : List Fragment) (path : List String) (name : String) :
    closingPaths (unentered fragments path) path name =
      if name ∈ path then [path ++ [name]]
      else match findFragment? fragments name with
        | none => []
        | some fragment => fragment.spreadNames.flatMap fun next =>
            closingPaths (unentered fragments (path ++ [name])) (path ++ [name]) next := by
  rw [closingPaths]
  split
  · rfl
  next hname =>
    rw [← withoutFragment_unentered]
    split
    next hfind => rw [find?_unentered fragments hname] at hfind; rw [hfind]
    next fragment hfind => rw [find?_unentered fragments hname] at hfind; rw [hfind]

/-- Induction along the search: a name on the path, an undefined name, and a fragment that is entered
after all that it spreads is known. -/
theorem search_induction {fragments : List Fragment} {P : List String → String → Prop}
    (onPath : ∀ path name, name ∈ path → P path name)
    (undefined : ∀ path name, name ∉ path → findFragment? fragments name = none → P path name)
    (enter : ∀ path name fragment, name ∉ path → findFragment? fragments name = some fragment →
      (∀ next ∈ fragment.spreadNames, P (path ++ [name]) next) → P path name)
    (path : List String) (name : String) : P path name := by
  by_cases hname : name ∈ path
  · exact onPath path name hname
  · cases hfind : findFragment? fragments name with
    | none => exact undefined path name hname hfind
    | some fragment =>
      apply enter path name fragment hname hfind
      intro next _
      exact search_induction onPath undefined enter (path ++ [name]) next
termination_by (unentered fragments path).length
decreasing_by exact length_unentered_lt hname hfind

/-- Induction along a search that finds nothing: no name on the path is ever met again. -/
theorem quiet_search_induction {fragments : List Fragment} {P : List String → String → Prop}
    (undefined : ∀ path name, name ∉ path → findFragment? fragments name = none → P path name)
    (enter : ∀ path name fragment, name ∉ path → findFragment? fragments name = some fragment →
      (∀ next ∈ fragment.spreadNames, P (path ++ [name]) next) → P path name)
    (path : List String) (name : String)
    (hquiet : closingPaths (unentered fragments path) path name = []) : P path name := by
  induction path, name using @search_induction fragments with
  | onPath path name hname => simp [closingPaths_unentered, hname] at hquiet
  | undefined path name hname hfind => exact undefined path name hname hfind
  | enter path name fragment hname hfind ih =>
    apply enter path name fragment hname hfind
    intro next hnext
    apply ih next hnext
    rw [closingPaths_unentered, if_neg hname, hfind] at hquiet
    exact List.flatMap_eq_nil_iff.mp hquiet next hnext

end ResultLayout
