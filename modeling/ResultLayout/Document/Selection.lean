/-!
# Selection sets

A selection set lists fields, spreads of named fragments and inline fragments, in this order. A
field carries the selection set below it, which is empty for a leaf. An inline fragment carries
fields and spreads but no further inline fragment.
-/
namespace ResultLayout

/-- What a selected field says about itself, apart from the selection below it. -/
structure FieldHead where
  /-- The alias if there is one, otherwise the name of the schema field. -/
  responseName : String
  fieldName : String
  /-- The declared type of the field, not yet read. -/
  typeText : String
  /-- Whether a directive may leave the field out of a response. -/
  isConditional : Bool := false
  description : Option String := none
  isDeprecated : Bool := false
  deprecationReason : Option String := none
deriving DecidableEq, Repr

mutual
/-- A selected field. -/
structure Field where
  head : FieldHead
  selection : SelectionSet

/-- What is selected on one type. -/
structure SelectionSet where
  fields : List Field
  spreads : List String
  inlineFragments : List InlineFragment

/-- A selection that applies to the objects of one type only. -/
structure InlineFragment where
  typeCondition : String
  possibleTypes : List String
  fields : List Field
  spreads : List String
end

namespace SelectionSet

protected def empty : SelectionSet := ⟨[], [], []⟩

def isEmpty (selection : SelectionSet) : Bool :=
  selection.fields.isEmpty && selection.spreads.isEmpty && selection.inlineFragments.isEmpty

end SelectionSet

def Field.hasSelection (field : Field) : Bool := !field.selection.isEmpty

mutual

/-- The names spread anywhere in a field's selection, in the order of the walk "fields with their
selections, then own spreads, then inline fragments". A name spread twice is listed twice. -/
def Field.spreadNames : Field → List String
  | ⟨_, selection⟩ => selection.spreadNames

@[inherit_doc Field.spreadNames]
def SelectionSet.spreadNames : SelectionSet → List String
  | ⟨fields, spreads, inlineFragments⟩ =>
    spreadNamesOfFields fields ++ spreads ++ spreadNamesOfInlineFragments inlineFragments

@[inherit_doc Field.spreadNames]
def InlineFragment.spreadNames : InlineFragment → List String
  | ⟨_, _, fields, spreads⟩ => spreadNamesOfFields fields ++ spreads

@[inherit_doc Field.spreadNames]
def spreadNamesOfFields : List Field → List String
  | [] => []
  | field :: fields => field.spreadNames ++ spreadNamesOfFields fields

@[inherit_doc Field.spreadNames]
def spreadNamesOfInlineFragments : List InlineFragment → List String
  | [] => []
  | fragment :: fragments => fragment.spreadNames ++ spreadNamesOfInlineFragments fragments

end

end ResultLayout
