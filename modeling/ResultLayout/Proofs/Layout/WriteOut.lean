import ResultLayout.Layout.Selected
import ResultLayout.Proofs.Fragments.Safety
/-!
# Writing out fragments

A selection set is a list of fields, spreads and inline fragments, and it is written out item by
item. In a registry without spread cycles the rounds of replacing always suffice: a spread becomes
the written-out body of its fragment, with nothing left to replace.
-/
namespace ResultLayout

/-- One entry of a selection set. -/
inductive SelectionItem where
  | field (field : Field)
  | spread (name : String)
  | inline (fragment : InlineFragment)

/-- The entries of a selection set in the order of the walk. -/
def SelectionSet.items (selection : SelectionSet) : List SelectionItem :=
  selection.fields.map .field ++ selection.spreads.map .spread ++
    selection.inlineFragments.map .inline

def InlineFragment.scope (fragment : InlineFragment) : FragmentScope :=
  ⟨.inline, fragment.typeCondition, fragment.possibleTypes⟩

def SelectionItem.writeOut (spread : String → Selected) : SelectionItem → Selected
  | .field own => .field own.head (own.selection.writeOut spread)
  | .spread name => spread name
  | .inline fragment => .within fragment.scope (fragment.body.writeOut spread)

section WriteOut

variable (spread : String → Selected)

private theorem writeOutFields_eq_map (fields : List Field) :
    writeOutFields spread fields =
      fields.map fun field => .field field.head (field.selection.writeOut spread) := by
  induction fields with
  | nil => rfl
  | cons field fields ih =>
    obtain ⟨head, selection⟩ := field
    rw [writeOutFields, ih, Field.writeOut, List.map_cons]

private theorem writeOutInlineFragments_eq_map (fragments : List InlineFragment) :
    writeOutInlineFragments spread fragments =
      fragments.map fun fragment => .within fragment.scope (fragment.body.writeOut spread) := by
  induction fragments with
  | nil => rfl
  | cons fragment fragments ih =>
    obtain ⟨typeCondition, possibleTypes, fields, spreads⟩ := fragment
    rw [writeOutInlineFragments, ih, InlineFragment.writeOut, List.map_cons]
    simp [InlineFragment.body, InlineFragment.scope, SelectionSet.writeOut, writeOutInlineFragments]

theorem SelectionSet.writeOut_eq_map (selection : SelectionSet) :
    selection.writeOut spread = selection.items.map (SelectionItem.writeOut spread) := by
  obtain ⟨fields, spreads, inlineFragments⟩ := selection
  simp only [SelectionSet.writeOut, SelectionSet.items, writeOutFields_eq_map,
    writeOutInlineFragments_eq_map, List.map_append, List.map_map]
  rfl

end WriteOut

@[simp] theorem SelectionSet.field_mem_items {selection : SelectionSet} {field : Field} :
    .field field ∈ selection.items ↔ field ∈ selection.fields := by
  simp [SelectionSet.items]

@[simp] theorem SelectionSet.spread_mem_items {selection : SelectionSet} {name : String} :
    .spread name ∈ selection.items ↔ name ∈ selection.spreads := by
  simp [SelectionSet.items]

@[simp] theorem SelectionSet.inline_mem_items {selection : SelectionSet}
    {fragment : InlineFragment} :
    .inline fragment ∈ selection.items ↔ fragment ∈ selection.inlineFragments := by
  simp [SelectionSet.items]

/-- Only what becomes of the names spread in a selection set matters. -/
theorem SelectionSet.writeOut_congr {f g : String → Selected} {selection : SelectionSet}
    (h : ∀ name, selection.Spreads name → f name = g name) :
    selection.writeOut f = selection.writeOut g := by
  induction selection using SelectionSet.induction with
  | step selection ihFields ihInline =>
    rw [writeOut_eq_map, writeOut_eq_map]
    apply List.map_congr_left
    intro item hitem
    cases item with
    | field field =>
      have hfield := field_mem_items.mp hitem
      simp only [SelectionItem.writeOut]
      rw [ihFields field hfield fun name hname => h name (.inField hfield hname)]
    | spread name => exact h name (.here (spread_mem_items.mp hitem))
    | inline fragment =>
      have hfragment := inline_mem_items.mp hitem
      simp only [SelectionItem.writeOut]
      rw [ihInline fragment hfragment fun name hname => h name (.inInline hfragment hname)]

private theorem writeOutSpread_stable {fragments : List Fragment} (path : List String)
    (name : String) (hquiet : closingPaths (unentered fragments path) path name = []) :
    ∀ m n, (unentered fragments path).length ≤ m → (unentered fragments path).length ≤ n →
      writeOutSpread fragments m name = writeOutSpread fragments n name := by
  refine quiet_search_induction (P := fun path name => ∀ m n,
    (unentered fragments path).length ≤ m → (unentered fragments path).length ≤ n →
      writeOutSpread fragments m name = writeOutSpread fragments n name) ?undefined ?enter
    path name hquiet
  case undefined =>
    intro path name _ hfind m n _ _
    cases m <;> cases n <;> simp [writeOutSpread, hfind]
  case enter =>
    intro path name fragment hname hfind ih m n hm hn
    have hless := length_unentered_lt hname hfind
    obtain ⟨m, rfl⟩ : ∃ k, m = k + 1 := ⟨m - 1, by omega⟩
    obtain ⟨n, rfl⟩ : ∃ k, n = k + 1 := ⟨n - 1, by omega⟩
    have hbody : fragment.selection.writeOut (writeOutSpread fragments m) =
        fragment.selection.writeOut (writeOutSpread fragments n) := by
      apply SelectionSet.writeOut_congr
      intro next hnext
      exact ih next (SelectionSet.mem_spreadNames.mpr hnext) m n (by omega) (by omega)
    simp only [writeOutSpread, hfind, hbody]

namespace FragmentRegistry

def writeOutItem (registry : FragmentRegistry) (item : SelectionItem) : Selected :=
  item.writeOut registry.writeOutSpread

theorem writeOut_eq_map (registry : FragmentRegistry) (selection : SelectionSet) :
    registry.writeOut selection = selection.items.map registry.writeOutItem :=
  selection.writeOut_eq_map registry.writeOutSpread

section Parts

variable (registry : FragmentRegistry)

def writeOutField (registry : FragmentRegistry) (field : Field) : Selected :=
  .field field.head (registry.writeOut field.selection)

theorem writeOut_append_fields (first : List Field) (rest : SelectionSet) :
    registry.writeOut ⟨first ++ rest.fields, rest.spreads, rest.inlineFragments⟩ =
      registry.writeOut ⟨first, [], []⟩ ++ registry.writeOut rest := by
  simp [writeOut_eq_map, SelectionSet.items]

private theorem writeOut_append_inline (fields : List Field) (spreads : List String)
    (first rest : List InlineFragment) :
    registry.writeOut ⟨fields, spreads, first ++ rest⟩ =
      registry.writeOut ⟨fields, spreads, first⟩ ++ registry.writeOut ⟨[], [], rest⟩ := by
  simp [writeOut_eq_map, SelectionSet.items]

private theorem writeOut_fields (fields : List Field) :
    registry.writeOut ⟨fields, [], []⟩ = fields.map registry.writeOutField := by
  rw [writeOut_eq_map, SelectionSet.items]
  simp only [List.map_nil, List.append_nil, List.map_map]
  rfl

theorem writeOut_inline (fragment : InlineFragment) :
    registry.writeOut ⟨[], [], [fragment]⟩ =
      [.within fragment.scope (registry.writeOut fragment.body)] := by
  rw [writeOut_eq_map]
  rfl

theorem writeOut_between_fields (before fields behind : List Field) (spreads : List String)
    (inlineFragments : List InlineFragment) :
    registry.writeOut ⟨before ++ (fields ++ behind), spreads, inlineFragments⟩ =
      before.map registry.writeOutField ++ fields.map registry.writeOutField ++
        registry.writeOut ⟨behind, spreads, inlineFragments⟩ := by
  rw [← List.append_assoc, registry.writeOut_append_fields (before ++ fields)
    ⟨behind, spreads, inlineFragments⟩, writeOut_fields, List.map_append]

theorem writeOut_between_inline (fields : List Field) (spreads : List String)
    (before behind : List InlineFragment) (fragment : InlineFragment) :
    registry.writeOut ⟨fields, spreads, before ++ fragment :: behind⟩ =
      registry.writeOut ⟨fields, spreads, before⟩ ++
        [.within fragment.scope (registry.writeOut fragment.body)] ++
        registry.writeOut ⟨[], [], behind⟩ := by
  rw [writeOut_append_inline, ← List.singleton_append, writeOut_append_inline, writeOut_inline,
    List.append_assoc]

end Parts

namespace Safe

variable {registry : FragmentRegistry}

theorem writeOutSpread_eq (hsafe : registry.Safe) (name : String) :
    registry.writeOutSpread name =
      match registry.find? name with
      | none => .undefinedSpread name
      | some fragment => .within fragment.spreadScope (registry.writeOut fragment.selection) := by
  have hround := writeOutSpread_stable [] name (hsafe.quiet_search name)
    registry.fragments.length (registry.fragments.length + 1)
    (by rw [unentered_nil]) (by rw [unentered_nil]; omega)
  rw [FragmentRegistry.writeOutSpread, hround]
  rfl

theorem writeOutItem_spread (hsafe : registry.Safe) {name : String} {fragment : Fragment}
    (hfind : registry.find? name = some fragment) :
    registry.writeOutItem (.spread name) =
      .within fragment.spreadScope (registry.writeOut fragment.selection) := by
  change registry.writeOutSpread name = _
  rw [hsafe.writeOutSpread_eq, hfind]

theorem writeOutItem_undefined (hsafe : registry.Safe) {name : String}
    (hnone : registry.find? name = none) :
    registry.writeOutItem (.spread name) = .undefinedSpread name := by
  change registry.writeOutSpread name = _
  rw [hsafe.writeOutSpread_eq, hnone]

/-- Induction along the walk through one level: what holds of a selection set whenever it holds of
the fragments spread in it and of its inline fragments holds of every selection set. -/
theorem level_induction (hsafe : registry.Safe) {P : SelectionSet → Prop}
    (step : ∀ selection : SelectionSet,
      (∀ name ∈ selection.spreads, ∀ fragment, registry.find? name = some fragment →
        P fragment.selection) →
      (∀ fragment ∈ selection.inlineFragments, P fragment.body) → P selection)
    (selection : SelectionSet) : P selection := by
  have hbodies (name : String) : ∀ fragment, registry.find? name = some fragment →
      P fragment.selection := by
    induction name using hsafe.wellFounded_spreadsTo.induction with
    | _ name ih =>
      intro fragment hfind
      have hspreads {next : String} (h : fragment.selection.Spreads next) :
          SpreadsTo registry.fragments name next :=
        ⟨fragment, List.mem_of_find?_eq_some hfind, name_of_findFragment? hfind, h⟩
      apply step
      · intro next hnext
        exact ih next (hspreads (.here hnext))
      · intro inner hinner
        apply step
        · intro next hnext
          exact ih next (hspreads (.inInline hinner (.here hnext)))
        · intro fragment hfragment
          simp [InlineFragment.body] at hfragment
  apply step
  · intro name _
    exact hbodies name
  · intro inner _
    apply step
    · intro name _
      exact hbodies name
    · intro fragment hfragment
      simp [InlineFragment.body] at hfragment

end Safe
end FragmentRegistry
end ResultLayout
