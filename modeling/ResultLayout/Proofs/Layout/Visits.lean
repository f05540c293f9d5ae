import ResultLayout.Proofs.Layout.Walk
/-!
# Visits to a written-out level

In a checked registry the visits to a written-out selection set can be read off the selection set
itself: one visit for each occurrence of the walk, with what encloses it, and a mark for each
undefined spread. If every name spread at the level is registered, there are no marks, and the
visits follow the order of the walk.
-/
namespace ResultLayout

theorem visitsOf_eq_flatMap (schemaTypeName : String) (around : Surroundings)
    (selections : List Selected) :
    Selected.visits.visitsOf schemaTypeName around selections =
      selections.flatMap (·.visits schemaTypeName around) := by
  induction selections with
  | nil => rfl
  | cons selected rest ih => rw [Selected.visits.visitsOf, ih, List.flatMap_cons]

theorem spreadsOf_eq_flatMap (selections : List Selected) :
    Selected.spreadsHere.spreadsOf selections = selections.flatMap (·.spreadsHere) := by
  induction selections with
  | nil => rfl
  | cons selected rest ih => rw [Selected.spreadsHere.spreadsOf, ih, List.flatMap_cons]

/-- The visit to an occurrence whose outermost fragment stands in some surroundings. -/
def Occurrence.visit (registry : FragmentRegistry) (schemaTypeName : String) (around : Surroundings)
    (occurrence : Occurrence) : Visit :=
  .field (around.enterAll schemaTypeName occurrence.enclosing) occurrence.field.head
    (registry.writeOut occurrence.field.selection)

namespace FragmentRegistry

def itemVisits (registry : FragmentRegistry) (schemaTypeName : String) (around : Surroundings)
    (item : SelectionItem) : List Visit :=
  (registry.writeOutItem item).visits schemaTypeName around

theorem visitsOf_writeOut (registry : FragmentRegistry) (schemaTypeName : String)
    (around : Surroundings) (selection : SelectionSet) :
    Selected.visits.visitsOf schemaTypeName around (registry.writeOut selection) =
      selection.items.flatMap (registry.itemVisits schemaTypeName around) := by
  rw [visitsOf_eq_flatMap, writeOut_eq_map, List.flatMap_map]
  rfl

namespace Safe

variable {registry : FragmentRegistry}

theorem itemVisits_field (schemaTypeName : String) (around : Surroundings) (field : Field) :
    registry.itemVisits schemaTypeName around (.field field) =
      [Occurrence.visit registry schemaTypeName around ⟨[], field⟩] := rfl

theorem itemVisits_inline (schemaTypeName : String) (around : Surroundings)
    (fragment : InlineFragment) :
    registry.itemVisits schemaTypeName around (.inline fragment) =
      Selected.visits.visitsOf schemaTypeName (around.enter schemaTypeName fragment.scope)
        (registry.writeOut fragment.body) := rfl

theorem itemVisits_spread (hsafe : registry.Safe) {name : String} {fragment : Fragment}
    (hfind : registry.find? name = some fragment) (schemaTypeName : String)
    (around : Surroundings) :
    registry.itemVisits schemaTypeName around (.spread name) =
      Selected.visits.visitsOf schemaTypeName (around.enter schemaTypeName fragment.spreadScope)
        (registry.writeOut fragment.selection) := by
  rw [itemVisits, hsafe.writeOutItem_spread hfind, Selected.visits]

theorem itemVisits_undefined (hsafe : registry.Safe) {name : String}
    (hnone : registry.find? name = none) (schemaTypeName : String) (around : Surroundings) :
    registry.itemVisits schemaTypeName around (.spread name) = [.undefinedSpread name] := by
  rw [itemVisits, hsafe.writeOutItem_undefined hnone, Selected.visits]

theorem visits_eq_of_walks (hsafe : registry.Safe) {items : List SelectionItem}
    {occurrences : List Occurrence} (hwalk : registry.Walks items occurrences)
    (schemaTypeName : String) (around : Surroundings) :
    items.flatMap (registry.itemVisits schemaTypeName around) =
      occurrences.map (·.visit registry schemaTypeName around) := by
  induction hwalk generalizing around with
  | nil => rfl
  | field _ ih => rw [List.flatMap_cons, itemVisits_field, ih, List.map_cons, List.singleton_append]
  | spread hfind _ _ ihBody ihRest =>
    rw [List.flatMap_cons, hsafe.itemVisits_spread hfind, visitsOf_writeOut, ihBody, ihRest,
      List.map_append, List.map_map]
    rfl
  | inline _ _ ihBody ihRest =>
    rw [List.flatMap_cons, itemVisits_inline, visitsOf_writeOut, ihBody, ihRest, List.map_append,
      List.map_map]
    rfl

private theorem exists_walks_of_items {items : List SelectionItem}
    (h : ∀ item ∈ items, ∃ occurrences, registry.Walks [item] occurrences) :
    ∃ occurrences, registry.Walks items occurrences := by
  induction items with
  | nil => exact ⟨[], .nil⟩
  | cons item rest ih =>
    obtain ⟨left, hleft⟩ := h item List.mem_cons_self
    obtain ⟨right, hright⟩ := ih fun other hother => h other (List.mem_cons_of_mem _ hother)
    exact ⟨left ++ right, hleft.append hright⟩

theorem exists_walks (hsafe : registry.Safe) {selection : SelectionSet}
    (hdefined : ∀ name, registry.SpreadsAtLevel selection name →
      ∃ fragment, registry.find? name = some fragment) :
    ∃ occurrences, registry.Walks selection.items occurrences := by
  induction selection using hsafe.level_induction with
  | step selection ihSpreads ihInline =>
    apply exists_walks_of_items
    intro item hitem
    cases item with
    | field field => exact ⟨_, .field .nil⟩
    | spread name =>
      have hname := SelectionSet.spread_mem_items.mp hitem
      obtain ⟨fragment, hfind⟩ := hdefined name (.own hname)
      obtain ⟨body, hbody⟩ := ihSpreads name hname fragment hfind
        fun inner hinner => hdefined inner (.spread hname hfind hinner)
      exact ⟨_, .spread hfind hbody .nil⟩
    | inline fragment =>
      have hfragment := SelectionSet.inline_mem_items.mp hitem
      obtain ⟨body, hbody⟩ := ihInline fragment hfragment
        fun inner hinner => hdefined inner (.inline hfragment hinner)
      exact ⟨_, .inline hbody .nil⟩

/-- A visit belongs to an occurrence at the level or marks an undefined spread at the level. -/
theorem visit_cases (hsafe : registry.Safe) {schemaTypeName : String} {selection : SelectionSet}
    {around : Surroundings} {visit : Visit}
    (hvisit : visit ∈ Selected.visits.visitsOf schemaTypeName around (registry.writeOut selection)) :
    (∃ occurrence, registry.Selects selection occurrence ∧
      visit = occurrence.visit registry schemaTypeName around) ∨
    ∃ name, registry.SpreadsAtLevel selection name ∧ registry.find? name = none ∧
      visit = .undefinedSpread name := by
  induction selection using hsafe.level_induction generalizing around with
  | step selection ihSpreads ihInline =>
    rw [visitsOf_writeOut] at hvisit
    obtain ⟨item, hitem, hvisit⟩ := List.mem_flatMap.mp hvisit
    cases item with
    | field field =>
      rw [itemVisits_field, List.mem_singleton] at hvisit
      exact Or.inl ⟨_, .own (SelectionSet.field_mem_items.mp hitem), hvisit⟩
    | spread name =>
      have hname := SelectionSet.spread_mem_items.mp hitem
      cases hfind : registry.find? name with
      | none =>
        rw [hsafe.itemVisits_undefined hfind, List.mem_singleton] at hvisit
        exact Or.inr ⟨name, .own hname, hfind, hvisit⟩
      | some fragment =>
        rw [hsafe.itemVisits_spread hfind] at hvisit
        rcases ihSpreads name hname fragment hfind hvisit with
          ⟨inner, hinner, rfl⟩ | ⟨undefined, hinner, hnone, rfl⟩
        · exact Or.inl ⟨inner.within fragment.spreadScope, .spread hname hfind hinner, rfl⟩
        · exact Or.inr ⟨undefined, .spread hname hfind hinner, hnone, rfl⟩
    | inline fragment =>
      have hfragment := SelectionSet.inline_mem_items.mp hitem
      rw [itemVisits_inline] at hvisit
      rcases ihInline fragment hfragment hvisit with
        ⟨inner, hinner, rfl⟩ | ⟨undefined, hinner, hnone, rfl⟩
      · exact Or.inl ⟨inner.within fragment.scope, .inline hfragment hinner, rfl⟩
      · exact Or.inr ⟨undefined, .inline hfragment hinner, hnone, rfl⟩

theorem undefinedSpread_mem_visits (hsafe : registry.Safe) {selection : SelectionSet} {name : String}
    (hspreads : registry.SpreadsAtLevel selection name) (hnone : registry.find? name = none)
    (schemaTypeName : String) (around : Surroundings) :
    .undefinedSpread name ∈
      Selected.visits.visitsOf schemaTypeName around (registry.writeOut selection) := by
  induction hspreads generalizing around with
  | own hname =>
    rw [visitsOf_writeOut]
    refine List.mem_flatMap.mpr ⟨_, SelectionSet.spread_mem_items.mpr hname, ?_⟩
    rw [hsafe.itemVisits_undefined hnone]
    exact List.mem_singleton_self _
  | spread houter hfind _ ih =>
    rw [visitsOf_writeOut]
    refine List.mem_flatMap.mpr ⟨_, SelectionSet.spread_mem_items.mpr houter, ?_⟩
    rw [hsafe.itemVisits_spread hfind]
    exact ih hnone _
  | inline hfragment _ ih =>
    rw [visitsOf_writeOut]
    refine List.mem_flatMap.mpr ⟨_, SelectionSet.inline_mem_items.mpr hfragment, ?_⟩
    rw [itemVisits_inline]
    exact ih hnone _

end Safe
end FragmentRegistry
end ResultLayout
