import ResultLayout.Document.Basic
import ResultLayout.FirstSeen
/-!
# Spread cycles

A fragment that spreads itself, directly or through others, has no finite meaning. The search walks
from every fragment along the spreads and never enters a fragment twice on one path. When it meets
the path again it has found a closing path: the fragments entered so far, then the one met again.

Closing paths with one normal form count as one report. The normal form turns the path so that it
starts at its smallest name.
-/
namespace ResultLayout

/-- The smallest of some names, in the order of their code points. -/
def smallestName (name : String) (names : List String) : String :=
  names.foldl (fun least next => if next < least then next else least) name

/-- Turns a closed path `x₀, …, xₖ₋₁, x₀` so that it starts, and ends, at its smallest name. -/
def normalizeCycle (path : List String) : List String :=
  match path.dropLast with
  | [] => []
  | name :: names =>
    let least := smallestName name names
    let round := name :: names
    round.dropWhile (· != least) ++ round.takeWhile (· != least) ++ [least]

def withoutFragment (name : String) (fragments : List Fragment) : List Fragment :=
  fragments.filter (·.name != name)

theorem length_withoutFragment_lt {fragments : List Fragment} {name : String} {fragment : Fragment}
    (h : fragments.find? (·.name == name) = some fragment) :
    (withoutFragment name fragments).length < fragments.length := by
  refine Nat.lt_of_le_of_ne (List.length_filter_le _ _) fun heq => ?_
  have hall := List.length_filter_eq_length_iff.mp heq fragment (List.mem_of_find?_eq_some h)
  have hname := List.find?_some h
  simp_all

/-- The closing paths of a walk that has come along `path` and now meets `name`. The fragments that
are not on the path are `unentered`; an undefined name ends the walk. -/
def closingPaths (unentered : List Fragment) (path : List String) (name : String) :
    List (List String) :=
  if name ∈ path then [path ++ [name]]
  else
    match _h : unentered.find? (·.name == name) with
    | none => []
    | some fragment =>
      fragment.spreadNames.flatMap fun next =>
        closingPaths (withoutFragment name unentered) (path ++ [name]) next
termination_by unentered.length
decreasing_by exact length_withoutFragment_lt _h

/-- The closing paths found from all fragments in turn, the first of each normal form. -/
def cyclePaths (fragments : List Fragment) : List (List String) :=
  firstOfEach normalizeCycle
    (fragments.flatMap fun fragment => closingPaths fragments [] fragment.name)

end ResultLayout
