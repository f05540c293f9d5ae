import ResultLayout.Document.Basic
/-!
# Spreads in a selection

A name is spread in a selection set if the set lists it itself, or if it is spread in the selection
below one of the set's fields or in one of its inline fragments, at any depth. The walk that lists
the spread names of a selection set meets exactly these names.
-/
namespace ResultLayout

/-- The selection set inside an inline fragment. -/
def InlineFragment.body (fragment : InlineFragment) : SelectionSet :=
  ⟨fragment.fields, fragment.spreads, []⟩

/-- A name is spread somewhere in a selection set, at any depth. -/
inductive SelectionSet.Spreads : SelectionSet → String → Prop
  | here {selection : SelectionSet} {name : String} (h : name ∈ selection.spreads) :
    Spreads selection name
  | inField {selection : SelectionSet} {field : Field} {name : String}
    (hfield : field ∈ selection.fields) (h : Spreads field.selection name) : Spreads selection name
  | inInline {selection : SelectionSet} {fragment : InlineFragment} {name : String}
    (hfragment : fragment ∈ selection.inlineFragments) (h : Spreads fragment.body name) :
    Spreads selection name

private theorem sizeOf_fieldSelection_lt {selection : SelectionSet} {field : Field}
    (h : field ∈ selection.fields) : sizeOf field.selection < sizeOf selection := by
  obtain ⟨fields, spreads, inlineFragments⟩ := selection
  obtain ⟨head, below⟩ := field
  have hmem := List.sizeOf_lt_of_mem h
  simp only [Field.mk.sizeOf_spec, SelectionSet.mk.sizeOf_spec] at hmem ⊢
  omega

private theorem sizeOf_body_lt {selection : SelectionSet} {fragment : InlineFragment}
    (h : fragment ∈ selection.inlineFragments) : sizeOf fragment.body < sizeOf selection := by
  obtain ⟨fields, spreads, inlineFragments⟩ := selection
  obtain ⟨typeCondition, possibleTypes, inner, innerSpreads⟩ := fragment
  have hmem := List.sizeOf_lt_of_mem h
  simp only [InlineFragment.body, InlineFragment.mk.sizeOf_spec, SelectionSet.mk.sizeOf_spec,
    List.nil.sizeOf_spec] at hmem ⊢
  omega

/-- What holds of a selection set whenever it holds of the selections below its fields and of the
bodies of its inline fragments holds of every selection set. -/
theorem SelectionSet.induction {P : SelectionSet → Prop}
    (step : ∀ selection : SelectionSet, (∀ field ∈ selection.fields, P field.selection) →
      (∀ fragment ∈ selection.inlineFragments, P fragment.body) → P selection)
    (selection : SelectionSet) : P selection := by
  apply step
  · intro field hfield
    exact SelectionSet.induction step field.selection
  · intro fragment hfragment
    exact SelectionSet.induction step fragment.body
termination_by sizeOf selection
decreasing_by
  · exact sizeOf_fieldSelection_lt hfield
  · exact sizeOf_body_lt hfragment

private theorem spreadNamesOfFields_eq_flatMap (fields : List Field) :
    spreadNamesOfFields fields = fields.flatMap fun field => field.selection.spreadNames := by
  induction fields with
  | nil => rfl
  | cons field fields ih =>
    obtain ⟨head, selection⟩ := field
    rw [spreadNamesOfFields, ih, List.flatMap_cons, Field.spreadNames]

private theorem InlineFragment.spreadNames_eq_body (fragment : InlineFragment) :
    fragment.spreadNames = fragment.body.spreadNames := by
  obtain ⟨typeCondition, possibleTypes, fields, spreads⟩ := fragment
  simp [InlineFragment.spreadNames, InlineFragment.body, SelectionSet.spreadNames,
    spreadNamesOfInlineFragments]

private theorem spreadNamesOfInlineFragments_eq_flatMap (fragments : List InlineFragment) :
    spreadNamesOfInlineFragments fragments =
      fragments.flatMap fun fragment => fragment.body.spreadNames := by
  induction fragments with
  | nil => rfl
  | cons fragment fragments ih =>
    rw [spreadNamesOfInlineFragments, ih, List.flatMap_cons, fragment.spreadNames_eq_body]

theorem SelectionSet.spreadNames_eq (selection : SelectionSet) :
    selection.spreadNames =
      (selection.fields.flatMap fun field => field.selection.spreadNames) ++ selection.spreads ++
        selection.inlineFragments.flatMap fun fragment => fragment.body.spreadNames := by
  obtain ⟨fields, spreads, inlineFragments⟩ := selection
  rw [SelectionSet.spreadNames, spreadNamesOfFields_eq_flatMap,
    spreadNamesOfInlineFragments_eq_flatMap]

theorem SelectionSet.mem_spreadNames {selection : SelectionSet} {name : String} :
    name ∈ selection.spreadNames ↔ selection.Spreads name := by
  constructor
  · induction selection using SelectionSet.induction with
    | step selection ihFields ihInline =>
      intro h
      rw [selection.spreadNames_eq, List.mem_append, List.mem_append] at h
      rcases h with (h | h) | h
      · obtain ⟨field, hfield, hname⟩ := List.mem_flatMap.mp h
        exact .inField hfield (ihFields field hfield hname)
      · exact .here h
      · obtain ⟨fragment, hfragment, hname⟩ := List.mem_flatMap.mp h
        exact .inInline hfragment (ihInline fragment hfragment hname)
  · intro h
    induction h with
    | here h => rw [spreadNames_eq]; simp [h]
    | inField hfield _ ih =>
      rw [spreadNames_eq, List.mem_append, List.mem_append]
      exact Or.inl (Or.inl (List.mem_flatMap.mpr ⟨_, hfield, ih⟩))
    | inInline hfragment _ ih =>
      rw [spreadNames_eq, List.mem_append]
      exact Or.inr (List.mem_flatMap.mpr ⟨_, hfragment, ih⟩)

end ResultLayout
