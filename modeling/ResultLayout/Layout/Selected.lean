import ResultLayout.Fragments.Registry
import ResultLayout.Descriptor
/-!
# Selections with their fragments written out

Before anything is merged, every spread is replaced by the body of its fragment. What results is a
tree of fields and fragment bodies in the order of the walk "fields, then spreads, then inline
fragments". A spread of an undefined fragment leaves a mark in the tree.

In a registry without cycles no chain of spreads is longer than the number of fragments, so as many
rounds of replacing are enough.
-/
namespace ResultLayout

/-- How a fragment came into a selection. -/
inductive FragmentUse where
  | spread (fragmentName : String)
  | inline
deriving DecidableEq, Repr

/-- What surrounds the selections in a fragment's body. -/
structure FragmentScope where
  use : FragmentUse
  typeCondition : String
  possibleTypes : List String
deriving DecidableEq, Repr

/-- The source of a field whose outermost fragment is this one. -/
def FragmentScope.source (scope : FragmentScope) : FieldSource :=
  match scope.use with
  | .spread fragmentName => .fragmentSpread fragmentName
  | .inline => .inlineFragment scope.typeCondition

/-- One selection with its fragments written out. -/
inductive Selected where
  | field (head : FieldHead) (below : List Selected)
  | within (scope : FragmentScope) (body : List Selected)
  | undefinedSpread (fragmentName : String)

mutual

/-- Writes out a field, given what becomes of a spread. -/
def Field.writeOut (spread : String → Selected) : Field → Selected
  | ⟨head, selection⟩ => .field head (selection.writeOut spread)

/-- Writes out a selection set, given what becomes of a spread. -/
def SelectionSet.writeOut (spread : String → Selected) : SelectionSet → List Selected
  | ⟨fields, spreads, inlineFragments⟩ =>
    writeOutFields spread fields ++ spreads.map spread ++
      writeOutInlineFragments spread inlineFragments

def InlineFragment.writeOut (spread : String → Selected) : InlineFragment → Selected
  | ⟨typeCondition, possibleTypes, fields, spreads⟩ =>
    .within ⟨.inline, typeCondition, possibleTypes⟩
      (writeOutFields spread fields ++ spreads.map spread)

def writeOutFields (spread : String → Selected) : List Field → List Selected
  | [] => []
  | field :: fields => field.writeOut spread :: writeOutFields spread fields

def writeOutInlineFragments (spread : String → Selected) : List InlineFragment → List Selected
  | [] => []
  | fragment :: fragments => fragment.writeOut spread :: writeOutInlineFragments spread fragments

end

/-- The scope that a spread of the fragment opens. -/
def Fragment.spreadScope (fragment : Fragment) : FragmentScope :=
  ⟨.spread fragment.name, fragment.typeCondition, fragment.possibleTypes⟩

/-- A spread with all spreads below it replaced, for so many rounds. -/
def writeOutSpread (fragments : List Fragment) : (rounds : Nat) → String → Selected
  | 0, name => .undefinedSpread name
  | rounds + 1, name =>
    match findFragment? fragments name with
    | none => .undefinedSpread name
    | some fragment =>
      .within fragment.spreadScope
        (fragment.selection.writeOut (writeOutSpread fragments rounds))

namespace FragmentRegistry

/-- A spread with all spreads below it replaced. -/
def writeOutSpread (registry : FragmentRegistry) (name : String) : Selected :=
  ResultLayout.writeOutSpread registry.fragments registry.fragments.length name

/-- A selection set with all its spreads replaced. -/
def writeOut (registry : FragmentRegistry) (selection : SelectionSet) : List Selected :=
  selection.writeOut registry.writeOutSpread

end FragmentRegistry

/-- The fragments spread in a selection or in an inline fragment of it, in the order of the walk.
What a fragment's body spreads belongs to that fragment. -/
def Selected.spreadsHere : Selected → List String
  | .field .. => []
  | .within ⟨.spread fragmentName, _, _⟩ _ => [fragmentName]
  | .within ⟨.inline, _, _⟩ body => spreadsOf body
  | .undefinedSpread _ => []
where
  spreadsOf : List Selected → List String
    | [] => []
    | selected :: rest => selected.spreadsHere ++ spreadsOf rest

end ResultLayout
