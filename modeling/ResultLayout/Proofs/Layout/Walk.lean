import ResultLayout.Layout.Contribution
import ResultLayout.Proofs.Layout.WriteOut
/-!
# The walk through a level

A level selects the fields of its selection sets and, with the fragments that enclose them, the
fields of the fragments spread there and of the inline fragments. The walk lists these occurrences:
own fields first, then spreads, then inline fragments. The visits to a written-out level are the
occurrences of the walk, in its order.
-/
namespace ResultLayout

/-- A field selected at a level, with the fragments of the level that enclose it, the outermost
first. -/
structure Occurrence where
  enclosing : List FragmentScope
  field : Field

namespace Occurrence

/-- The occurrence as a fragment around it sees it. -/
def within (scope : FragmentScope) (occurrence : Occurrence) : Occurrence :=
  ⟨scope :: occurrence.enclosing, occurrence.field⟩

def responseName (occurrence : Occurrence) : String := occurrence.field.head.responseName

def fieldName (occurrence : Occurrence) : String := occurrence.field.head.fieldName

def type? (occurrence : Occurrence) : Except TypeRefError TypeRef :=
  TypeRef.parse occurrence.field.head.typeText

/-- The type condition of the innermost enclosing fragment that narrows the level's type. -/
def narrowedTo (schemaTypeName : String) (occurrence : Occurrence) : Option String :=
  (occurrence.enclosing.filter (·.narrows schemaTypeName)).getLast?.map (·.typeCondition)

def conditional (schemaTypeName : String) (occurrence : Occurrence) : Bool :=
  occurrence.enclosing.any (·.narrows schemaTypeName) || occurrence.field.head.isConditional

def source (occurrence : Occurrence) : FieldSource :=
  (occurrence.enclosing.head?.map (·.source)).getD .direct

end Occurrence

/-- What surrounds a selection that some fragments enclose, the outermost first. -/
def Surroundings.enterAll (around : Surroundings) (schemaTypeName : String)
    (enclosing : List FragmentScope) : Surroundings :=
  enclosing.foldl (fun around scope => around.enter schemaTypeName scope) around

theorem Surroundings.enterAll_eq (around : Surroundings) (schemaTypeName : String)
    (enclosing : List FragmentScope) :
    around.enterAll schemaTypeName enclosing =
      { conditional := around.conditional || enclosing.any (·.narrows schemaTypeName)
        narrowedTo := ((enclosing.filter (·.narrows schemaTypeName)).getLast?.map
          (·.typeCondition)).or around.narrowedTo
        outermost := around.outermost.or (enclosing.head?.map (·.source)) } := by
  induction enclosing generalizing around with
  | nil => simp [enterAll]
  | cons scope rest ih =>
    have hstep : around.enterAll schemaTypeName (scope :: rest) =
        (around.enter schemaTypeName scope).enterAll schemaTypeName rest := rfl
    rw [hstep, ih]
    by_cases hnarrows : scope.narrows schemaTypeName = true
    · cases hlast : (rest.filter (·.narrows schemaTypeName)).getLast? <;>
        cases houter : around.outermost <;>
        simp [enter, hnarrows, hlast, houter, List.getLast?_cons]
    · cases houter : around.outermost <;> simp [enter, hnarrows, houter]

namespace FragmentRegistry

/-- An occurrence at the level of a selection set: a field of its own, or an occurrence in a
fragment spread there or in one of its inline fragments. -/
inductive Selects (registry : FragmentRegistry) : SelectionSet → Occurrence → Prop
  | own {selection : SelectionSet} {field : Field} (hfield : field ∈ selection.fields) :
    Selects registry selection ⟨[], field⟩
  | spread {selection : SelectionSet} {name : String} {fragment : Fragment} {inner : Occurrence}
    (hname : name ∈ selection.spreads) (hfind : registry.find? name = some fragment)
    (hinner : Selects registry fragment.selection inner) :
    Selects registry selection (inner.within fragment.spreadScope)
  | inline {selection : SelectionSet} {fragment : InlineFragment} {inner : Occurrence}
    (hfragment : fragment ∈ selection.inlineFragments)
    (hinner : Selects registry fragment.body inner) :
    Selects registry selection (inner.within fragment.scope)

/-- A name spread at the level of a selection set: by itself, in a fragment spread there or in one of
its inline fragments. -/
inductive SpreadsAtLevel (registry : FragmentRegistry) : SelectionSet → String → Prop
  | own {selection : SelectionSet} {name : String} (hname : name ∈ selection.spreads) :
    SpreadsAtLevel registry selection name
  | spread {selection : SelectionSet} {outer : String} {fragment : Fragment} {name : String}
    (houter : outer ∈ selection.spreads) (hfind : registry.find? outer = some fragment)
    (hinner : SpreadsAtLevel registry fragment.selection name) :
    SpreadsAtLevel registry selection name
  | inline {selection : SelectionSet} {fragment : InlineFragment} {name : String}
    (hfragment : fragment ∈ selection.inlineFragments)
    (hinner : SpreadsAtLevel registry fragment.body name) : SpreadsAtLevel registry selection name

/-- The occurrences that the walk through some entries meets, in its order. -/
inductive Walks (registry : FragmentRegistry) : List SelectionItem → List Occurrence → Prop
  | nil : Walks registry [] []
  | field {field : Field} {rest : List SelectionItem} {occurrences : List Occurrence}
    (hrest : Walks registry rest occurrences) :
    Walks registry (.field field :: rest) (⟨[], field⟩ :: occurrences)
  | spread {name : String} {fragment : Fragment} {rest : List SelectionItem}
    {body occurrences : List Occurrence} (hfind : registry.find? name = some fragment)
    (hbody : Walks registry fragment.selection.items body)
    (hrest : Walks registry rest occurrences) :
    Walks registry (.spread name :: rest)
      (body.map (·.within fragment.spreadScope) ++ occurrences)
  | inline {fragment : InlineFragment} {rest : List SelectionItem}
    {body occurrences : List Occurrence} (hbody : Walks registry fragment.body.items body)
    (hrest : Walks registry rest occurrences) :
    Walks registry (.inline fragment :: rest) (body.map (·.within fragment.scope) ++ occurrences)

/-- What one entry of a selection set contributes to its occurrences. -/
def ItemSelects (registry : FragmentRegistry) (occurrence : Occurrence) : SelectionItem → Prop
  | .field field => occurrence = ⟨[], field⟩
  | .spread name => ∃ fragment inner, registry.find? name = some fragment ∧
      registry.Selects fragment.selection inner ∧ occurrence = inner.within fragment.spreadScope
  | .inline fragment => ∃ inner, registry.Selects fragment.body inner ∧
      occurrence = inner.within fragment.scope

variable {registry : FragmentRegistry}

theorem selects_iff_item {selection : SelectionSet} {occurrence : Occurrence} :
    registry.Selects selection occurrence ↔
      ∃ item ∈ selection.items, registry.ItemSelects occurrence item := by
  constructor
  · intro h
    cases h with
    | own hfield => exact ⟨.field _, SelectionSet.field_mem_items.mpr hfield, rfl⟩
    | spread hname hfind hinner =>
      exact ⟨.spread _, SelectionSet.spread_mem_items.mpr hname, _, _, hfind, hinner, rfl⟩
    | inline hfragment hinner =>
      exact ⟨.inline _, SelectionSet.inline_mem_items.mpr hfragment, _, hinner, rfl⟩
  · rintro ⟨item, hitem, h⟩
    cases item with
    | field field =>
      subst h
      exact .own (SelectionSet.field_mem_items.mp hitem)
    | spread name =>
      obtain ⟨fragment, inner, hfind, hinner, rfl⟩ := h
      exact .spread (SelectionSet.spread_mem_items.mp hitem) hfind hinner
    | inline fragment =>
      obtain ⟨inner, hinner, rfl⟩ := h
      exact .inline (SelectionSet.inline_mem_items.mp hitem) hinner

/-- The walk meets exactly the occurrences that its entries select. -/
theorem Walks.mem_iff {items : List SelectionItem} {occurrences : List Occurrence}
    (hwalk : registry.Walks items occurrences) (occurrence : Occurrence) :
    occurrence ∈ occurrences ↔ ∃ item ∈ items, registry.ItemSelects occurrence item := by
  induction hwalk generalizing occurrence with
  | nil => simp
  | field _ ih => simp [ih, ItemSelects]
  | @spread name fragment rest body occurrences hfind _ _ ihBody ihRest =>
    have hbody : occurrence ∈ body.map (·.within fragment.spreadScope) ↔
        registry.ItemSelects occurrence (.spread name) := by
      rw [List.mem_map]
      constructor
      · rintro ⟨inner, hinner, rfl⟩
        exact ⟨fragment, inner, hfind, selects_iff_item.mpr ((ihBody inner).mp hinner), rfl⟩
      · rintro ⟨found, inner, hfound, hinner, rfl⟩
        obtain rfl := Option.some.inj (hfind.symm.trans hfound)
        exact ⟨inner, (ihBody inner).mpr (selects_iff_item.mp hinner), rfl⟩
    simp only [List.mem_append, hbody, ihRest, List.mem_cons, exists_eq_or_imp]
  | @inline fragment rest body occurrences _ _ ihBody ihRest =>
    have hbody : occurrence ∈ body.map (·.within fragment.scope) ↔
        registry.ItemSelects occurrence (.inline fragment) := by
      rw [List.mem_map]
      constructor
      · rintro ⟨inner, hinner, rfl⟩
        exact ⟨inner, selects_iff_item.mpr ((ihBody inner).mp hinner), rfl⟩
      · rintro ⟨inner, hinner, rfl⟩
        exact ⟨inner, (ihBody inner).mpr (selects_iff_item.mp hinner), rfl⟩
    simp only [List.mem_append, hbody, ihRest, List.mem_cons, exists_eq_or_imp]

theorem Walks.mem_iff_selects {selections : List SelectionSet} {occurrences : List Occurrence}
    (hwalk : registry.Walks (selections.flatMap (·.items)) occurrences) {occurrence : Occurrence} :
    occurrence ∈ occurrences ↔ ∃ selection ∈ selections, registry.Selects selection occurrence := by
  rw [hwalk.mem_iff]
  constructor
  · rintro ⟨item, hitem, hselects⟩
    obtain ⟨selection, hselection, hitem⟩ := List.mem_flatMap.mp hitem
    exact ⟨selection, hselection, selects_iff_item.mpr ⟨item, hitem, hselects⟩⟩
  · rintro ⟨selection, hselection, hselects⟩
    obtain ⟨item, hitem, hselects⟩ := selects_iff_item.mp hselects
    exact ⟨item, List.mem_flatMap.mpr ⟨selection, hselection, hitem⟩, hselects⟩

theorem Walks.append {xs ys : List SelectionItem} {left right : List Occurrence}
    (hleft : registry.Walks xs left) (hright : registry.Walks ys right) :
    registry.Walks (xs ++ ys) (left ++ right) := by
  induction hleft with
  | nil => exact hright
  | field _ ih => exact .field ih
  | spread hfind hbody _ _ ih =>
    rw [List.cons_append, List.append_assoc]
    exact .spread hfind hbody ih
  | inline hbody _ _ ih =>
    rw [List.cons_append, List.append_assoc]
    exact .inline hbody ih

theorem Walks.of_mem {items : List SelectionItem} {occurrences : List Occurrence}
    (hwalk : registry.Walks items occurrences) {item : SelectionItem} (hitem : item ∈ items) :
    ∃ mine, registry.Walks [item] mine := by
  induction hwalk with
  | nil => cases hitem
  | field _ ih =>
    rcases List.mem_cons.mp hitem with rfl | hrest
    · exact ⟨_, .field .nil⟩
    · exact ih hrest
  | spread hfind hbody _ _ ih =>
    rcases List.mem_cons.mp hitem with rfl | hrest
    · exact ⟨_, .spread hfind hbody .nil⟩
    · exact ih hrest
  | inline hbody _ _ ih =>
    rcases List.mem_cons.mp hitem with rfl | hrest
    · exact ⟨_, .inline hbody .nil⟩
    · exact ih hrest

theorem Walks.defined {items : List SelectionItem} {occurrences : List Occurrence}
    (hwalk : registry.Walks items occurrences) {selection : SelectionSet}
    (hitems : ∀ item ∈ selection.items, item ∈ items) {name : String}
    (hspreads : registry.SpreadsAtLevel selection name) :
    ∃ fragment, registry.find? name = some fragment := by
  induction hspreads generalizing items occurrences with
  | own hname =>
    obtain ⟨mine, hmine⟩ := hwalk.of_mem (hitems _ (SelectionSet.spread_mem_items.mpr hname))
    cases hmine with
    | spread hfind _ _ => exact ⟨_, hfind⟩
  | spread houter hfind _ ih =>
    obtain ⟨mine, hmine⟩ := hwalk.of_mem (hitems _ (SelectionSet.spread_mem_items.mpr houter))
    cases hmine with
    | spread hfound hbody _ =>
      obtain rfl := Option.some.inj (hfind.symm.trans hfound)
      exact ih hbody fun _ hitem => hitem
  | inline hfragment _ ih =>
    obtain ⟨mine, hmine⟩ := hwalk.of_mem (hitems _ (SelectionSet.inline_mem_items.mpr hfragment))
    cases hmine with
    | inline hbody _ => exact ih hbody fun _ hitem => hitem

theorem Walks.eq_of_fields {fields : List Field} {occurrences : List Occurrence}
    (hwalk : registry.Walks (fields.map .field) occurrences) :
    occurrences = fields.map (⟨[], ·⟩) := by
  induction fields generalizing occurrences with
  | nil =>
    cases hwalk
    rfl
  | cons field fields ih =>
    cases hwalk with
    | field hrest => rw [ih hrest, List.map_cons]

end FragmentRegistry
end ResultLayout
