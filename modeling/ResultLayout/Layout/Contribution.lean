import ResultLayout.Layout.Error
import ResultLayout.Layout.Selected
/-!
# Contributions to a level

A level is everything selected on one object. The walk through its selections meets fields, at any
depth of fragments, and marks of undefined spreads. Each field contributes to the member of its
response name; a field with a malformed type and an undefined spread fail the level, whichever the
walk meets first.

A contribution remembers what surrounds it: whether a response may lack it, the innermost type
condition that narrows the level's type, and the outermost fragment, which is its source.
-/
namespace ResultLayout

/-- What surrounds a selection at its level. -/
structure Surroundings where
  conditional : Bool := false
  narrowedTo : Option String := none
  /-- The source of the outermost fragment; without one a selection is direct. -/
  outermost : Option FieldSource := none
deriving DecidableEq, Repr

/-- A fragment narrows a level if its type condition is not the level's own type. -/
def FragmentScope.narrows (scope : FragmentScope) (schemaTypeName : String) : Bool :=
  scope.typeCondition != schemaTypeName

/-- What surrounds the body of a fragment. -/
def Surroundings.enter (around : Surroundings) (schemaTypeName : String) (scope : FragmentScope) :
    Surroundings where
  conditional := around.conditional || scope.narrows schemaTypeName
  narrowedTo := if scope.narrows schemaTypeName then some scope.typeCondition else around.narrowedTo
  outermost := some (around.outermost.getD scope.source)

/-- What the walk through a level meets. -/
inductive Visit where
  | field (around : Surroundings) (head : FieldHead) (below : List Selected)
  | undefinedSpread (fragmentName : String)

/-- The visits of the walk through one selection. -/
def Selected.visits (schemaTypeName : String) (around : Surroundings) : Selected → List Visit
  | .field head below => [.field around head below]
  | .within scope body => visitsOf schemaTypeName (around.enter schemaTypeName scope) body
  | .undefinedSpread fragmentName => [.undefinedSpread fragmentName]
where
  /-- The visits of the walk through selections that stand side by side. -/
  visitsOf (schemaTypeName : String) (around : Surroundings) : List Selected → List Visit
    | [] => []
    | selected :: rest =>
      selected.visits schemaTypeName around ++ visitsOf schemaTypeName around rest

/-- The visits of the walk through a level. -/
def levelVisits (schemaTypeName : String) (selections : List Selected) : List Visit :=
  Selected.visits.visitsOf schemaTypeName {} selections

/-- One field as a contribution to the member of its response name, with what is selected below it. -/
structure Contribution (Below : Type) where
  head : FieldHead
  type : TypeRef
  below : Below
  conditional : Bool
  narrowedTo : Option String
  source : FieldSource

namespace Contribution

variable {Below : Type}

def responseName (contribution : Contribution Below) : String := contribution.head.responseName

def shape (contribution : Contribution Below) : FieldShape :=
  ⟨contribution.head.fieldName, contribution.type⟩

/-- Two contributions can be one member if their types agree and they select the same schema field.
The field may differ if they are narrowed to two different types. -/
def mergesWith (a b : Contribution Below) : Bool :=
  a.type = b.type ∧
    (a.head.fieldName = b.head.fieldName ∨
      a.narrowedTo.isSome ∧ b.narrowedTo.isSome ∧ a.narrowedTo ≠ b.narrowedTo)

end Contribution

/-- Reads the type of a field that stands in some surroundings. -/
def Surroundings.contribution {Below : Type} (around : Surroundings) (head : FieldHead)
    (below : Below) : Except CompileError (Contribution Below) :=
  match TypeRef.parse head.typeText with
  | .error cause => .error (.malformedType head.responseName cause)
  | .ok type =>
    .ok {
      head, type, below
      conditional := around.conditional || head.isConditional
      narrowedTo := around.narrowedTo
      source := around.outermost.getD .direct }

/-- What a visit contributes. -/
def Visit.contribution : Visit → Except CompileError (Contribution (List Selected))
  | .field around head below => around.contribution head below
  | .undefinedSpread fragmentName => .error (.undefinedFragment fragmentName)

/-- The contributions of all visits, or what is wrong with the first bad one. -/
def contributions : List Visit → Except CompileError (List (Contribution (List Selected)))
  | [] => .ok []
  | visit :: visits =>
    match visit.contribution with
    | .error error => .error error
    | .ok contribution => (contributions visits).map (contribution :: ·)

/-- The contributions to one member. -/
structure Group (Below : Type) where
  first : Contribution Below
  rest : List (Contribution Below)

namespace Group

variable {Below : Type}

def responseName (group : Group Below) : String := group.first.responseName

def toList (group : Group Below) : List (Contribution Below) := group.first :: group.rest

/-- The selections of all contributions, side by side. -/
def below (group : Group (List Selected)) : List Selected := group.toList.flatMap (·.below)

/-- Adds a contribution to the group of its response name, or as a new group at the end. -/
def insert (contribution : Contribution Below) : List (Group Below) → List (Group Below)
  | [] => [⟨contribution, []⟩]
  | group :: groups =>
    if group.responseName = contribution.responseName then
      ⟨group.first, group.rest ++ [contribution]⟩ :: groups
    else
      group :: insert contribution groups

/-- Groups contributions by response name, in the order in which the names are first seen. -/
def ofContributions (contributions : List (Contribution Below)) : List (Group Below) :=
  contributions.foldl (fun groups contribution => insert contribution groups) []

/-- The first contribution that does not merge with one before it, with the first such one. -/
def firstConflict? (earlier : List (Contribution Below)) :
    List (Contribution Below) → Option (Contribution Below × Contribution Below)
  | [] => none
  | later :: rest =>
    match earlier.find? (fun contribution => !contribution.mergesWith later) with
    | some contribution => some (contribution, later)
    | none => firstConflict? (earlier ++ [later]) rest

def conflict? (group : Group Below) : Option (Contribution Below × Contribution Below) :=
  firstConflict? [group.first] group.rest

end Group

/-- The error for two contributions to one member of a record on a schema type. -/
def conflictError {Below : Type} (schemaTypeName responseName : String)
    (first second : Contribution Below) : CompileError :=
  .conflictingShapes schemaTypeName responseName first.shape first.source second.shape second.source

end ResultLayout
