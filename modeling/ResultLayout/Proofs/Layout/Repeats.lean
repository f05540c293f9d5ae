import ResultLayout.Proofs.Layout.Bounded
import ResultLayout.Proofs.Layout.Correspondence
/-!
# Repeated selections

A list has further repeats of another one if it also has some elements again behind the places where
they stand first. The walk through a level, the reading of types and the grouping by response name
turn selections with further repeats into contributions with further repeats, up to the first fault.

A contribution that is made again merges with whatever merges with the first one, and it is never the
first that does not merge. So every group has the same conflict, or forms the same member, and the
level below it has further repeats again. A layout therefore stays as it is, down to the names that it
takes.
-/
namespace ResultLayout

/-- The right list is the left one with further repeats: an element may be put in again wherever it
stands before. -/
inductive FurtherRepeats {α : Type} : List α → List α → Prop
  | nil : FurtherRepeats [] []
  | both {left right : List α} (h : FurtherRepeats left right) (a : α) :
    FurtherRepeats (left ++ [a]) (right ++ [a])
  | again {left right : List α} {a : α} (h : FurtherRepeats left right) (ha : a ∈ left) :
    FurtherRepeats left (right ++ [a])

namespace FurtherRepeats

variable {α β : Type} {left right : List α}

theorem append (h : FurtherRepeats left right) (xs : List α) :
    FurtherRepeats (left ++ xs) (right ++ xs) := by
  induction xs using List.reverseRecOn with
  | nil => simpa using h
  | append_singleton xs a ih =>
    rw [← List.append_assoc, ← List.append_assoc]
    exact ih.both a

theorem refl (xs : List α) : FurtherRepeats xs xs := FurtherRepeats.nil.append xs

theorem prepend (h : FurtherRepeats left right) (xs : List α) :
    FurtherRepeats (xs ++ left) (xs ++ right) := by
  induction h with
  | nil => exact refl (xs ++ [])
  | both _ a ih =>
    rw [← List.append_assoc, ← List.append_assoc]
    exact ih.both a
  | again _ ha ih =>
    rw [← List.append_assoc]
    exact ih.again (List.mem_append_right xs ha)

private theorem append_again (h : FurtherRepeats left right) {xs : List α}
    (hxs : ∀ a ∈ xs, a ∈ left) :
    FurtherRepeats left (right ++ xs) := by
  induction xs using List.reverseRecOn with
  | nil => simpa using h
  | append_singleton xs a ih =>
    have hrest := ih fun b hb => hxs b (List.mem_append_left [a] hb)
    have ha : a ∈ left := hxs a (List.mem_append_right xs (List.mem_singleton_self a))
    rw [← List.append_assoc]
    exact hrest.again ha

theorem mem_iff (h : FurtherRepeats left right) {a : α} : a ∈ right ↔ a ∈ left := by
  induction h with
  | nil => rfl
  | both _ b ih => simp [ih]
  | again _ hb ih =>
    rw [List.mem_append, ih, List.mem_singleton]
    exact ⟨fun h => h.elim id fun heq => heq ▸ hb, Or.inl⟩

private theorem eq_nil_iff (h : FurtherRepeats left right) : right = [] ↔ left = [] := by
  simp only [List.eq_nil_iff_forall_not_mem, h.mem_iff]

theorem flatMap (h : FurtherRepeats left right) (f : α → List β) :
    FurtherRepeats (left.flatMap f) (right.flatMap f) := by
  induction h with
  | nil => exact .nil
  | both _ a ih =>
    rw [List.flatMap_append, List.flatMap_append]
    exact ih.append _
  | again _ ha ih =>
    rw [List.flatMap_append, List.flatMap_singleton]
    exact ih.append_again fun b hb => List.mem_flatMap.mpr ⟨_, ha, hb⟩

theorem map (h : FurtherRepeats left right) (f : α → β) :
    FurtherRepeats (left.map f) (right.map f) := by
  rw [List.map_eq_flatMap, List.map_eq_flatMap]
  exact h.flatMap _

theorem filter (h : FurtherRepeats left right) (p : α → Bool) :
    FurtherRepeats (left.filter p) (right.filter p) := by
  induction h with
  | nil => exact .nil
  | both _ a ih =>
    rw [List.filter_append, List.filter_append]
    exact ih.append _
  | again _ ha ih =>
    rw [List.filter_append]
    apply ih.append_again
    intro b hb
    have hkept := List.mem_filter.mp hb
    rw [List.mem_filter, List.mem_singleton.mp hkept.1]
    exact ⟨ha, List.mem_singleton.mp hkept.1 ▸ hkept.2⟩

theorem find?_eq (h : FurtherRepeats left right) (p : α → Bool) : right.find? p = left.find? p := by
  induction h with
  | nil => rfl
  | both _ a ih => rw [List.find?_append, List.find?_append, ih]
  | @again left right a _ ha ih =>
    rw [List.find?_append, ih]
    cases hfind : left.find? p with
    | some b => rfl
    | none =>
      have hp := List.find?_eq_none.mp hfind a ha
      simp [hp]

private theorem all_eq (h : FurtherRepeats left right) (p : α → Bool) :
    right.all p = left.all p := by
  rw [Bool.eq_iff_iff, List.all_eq_true, List.all_eq_true]
  simp only [h.mem_iff]

theorem firstSeen_eq [BEq α] [LawfulBEq α] (h : FurtherRepeats left right) :
    firstSeen right = firstSeen left := by
  induction h with
  | nil => rfl
  | both h a ih =>
    rw [firstSeen_append_singleton, firstSeen_append_singleton, ih, if_congr h.mem_iff rfl rfl]
  | again h ha ih => rw [firstSeen_append_singleton, if_pos (h.mem_iff.mpr ha), ih]

end FurtherRepeats

section Contributions

variable {visits more : List Visit}

theorem contributions_append_singleton (visit : Visit) :
    contributions (visits ++ [visit]) =
      match contributions visits with
      | .error error => .error error
      | .ok result => visit.contribution.map fun contribution => result ++ [contribution] := by
  rw [contributions_append]
  cases contributions visits with
  | error error => rfl
  | ok result => cases hvisit : visit.contribution <;> simp [contributions, hvisit, Except.map]

private theorem contributions_of_furtherRepeats (h : FurtherRepeats visits more) :
    SameOutcome Eq FurtherRepeats (contributions visits) (contributions more) := by
  induction h with
  | nil => exact .ok .nil
  | both _ visit ih =>
    rw [contributions_append_singleton, contributions_append_singleton]
    rcases ih.exists_cases with
      ⟨error, other, hvisits, hmore, herror⟩ | ⟨result, other, hvisits, hmore, hresult⟩
    · rw [hvisits, hmore]
      exact .error herror
    · rw [hvisits, hmore]
      cases visit.contribution with
      | error error => exact .error rfl
      | ok contribution => exact .ok (hresult.both contribution)
  | again _ hold ih =>
    rw [contributions_append_singleton]
    rcases ih.exists_cases with
      ⟨error, other, hvisits, hmore, herror⟩ | ⟨result, other, hvisits, hmore, hresult⟩
    · rw [hvisits, hmore]
      exact .error herror
    · obtain ⟨contribution, hmem, hvisit⟩ := exists_right_of_mem (contributions_eq_ok hvisits) hold
      rw [hvisits, hmore, hvisit]
      exact .ok (hresult.again hmem)

end Contributions

namespace Group

variable {Below : Type} {group more : Group Below}

private theorem firstConflict?_of_furtherRepeats {left right : List (Contribution Below)}
    (h : FurtherRepeats left right) : firstConflict? [] right = firstConflict? [] left := by
  induction h with
  | nil => rfl
  | both h c ih =>
    rw [firstConflict?_append_singleton, firstConflict?_append_singleton, ih, List.nil_append,
      List.nil_append, h.find?_eq]
  | @again left right c h hc ih =>
    rw [firstConflict?_append_singleton, ih, List.nil_append, h.find?_eq]
    cases hconflict : firstConflict? [] left with
    | some pair => rfl
    | none =>
      have hmerges := firstConflict?_nil_eq_none.mp hconflict
      have hnone : left.find? (fun contribution => !contribution.mergesWith c) = none := by
        rw [List.find?_eq_none]
        intro a ha
        simp [hmerges a ha c hc]
      rw [hnone]
      rfl

section Same

variable (h : FurtherRepeats group.toList more.toList)
include h

private theorem first_of_furtherRepeats : more.first = group.first := by
  have hfind := h.find?_eq fun _ => true
  simpa [toList] using hfind

private theorem conflict?_of_furtherRepeats : more.conflict? = group.conflict? :=
  firstConflict?_of_furtherRepeats h

private theorem member_of_furtherRepeats (leafKind : LeafKind) (nested : Option RecordType) :
    more.member leafKind nested = group.member leafKind nested := by
  simp only [member, responseName, first_of_furtherRepeats h, h.all_eq]

end Same

/-- Groups that say the same, up to repeats and apart from what is selected below them, stand for one
member if the levels below them are laid out alike. -/
theorem corresponds_of_furtherRepeats {resolve : String → LeafKind} {f : List Selected → Below}
    {group other : Group (List Selected)}
    (h : FurtherRepeats (group.mapBelow f).toList (other.mapBelow f).toList)
    (hbelow : other.below = [] ↔ group.below = [])
    (hlayout : ∀ name names, layoutRecord resolve name group.schemaTypeName other.below names =
      layoutRecord resolve name group.schemaTypeName group.below names) (schemaTypeName : String) :
    Corresponds resolve Eq Eq schemaTypeName group other := by
  have hfirst := first_of_furtherRepeats h
  have hconflict := conflict?_of_furtherRepeats h
  have hname : other.responseName = group.responseName :=
    congrArg (fun first : Contribution Below => first.responseName) hfirst
  have htype : other.schemaTypeName = group.schemaTypeName :=
    congrArg (fun first : Contribution Below => first.type.innermostName) hfirst
  refine ⟨hname, htype, ?_, ?_, hbelow, hlayout⟩
  · rw [conflict?_mapBelow, conflict?_mapBelow] at hconflict
    cases hmine : group.conflict? with
    | none =>
      cases hother : other.conflict? with
      | none => exact .none
      | some pair => simp [hmine, hother] at hconflict
    | some pair =>
      cases hother : other.conflict? with
      | none => simp [hmine, hother] at hconflict
      | some otherPair =>
        have hpair : (otherPair.1.mapBelow f, otherPair.2.mapBelow f) =
            (pair.1.mapBelow f, pair.2.mapBelow f) := by
          simpa [hmine, hother] using hconflict
        exact .some (congrArg (fun pair : Contribution Below × Contribution Below =>
          conflictError schemaTypeName group.responseName pair.1 pair.2) hpair.symm)
  · intro leafKind nested
    have hmember := member_of_furtherRepeats h leafKind nested
    rw [member_mapBelow, member_mapBelow] at hmember
    exact hmember.symm

end Group

section Layout

variable (resolve : String → LeafKind)

private theorem layoutRecord_of_furtherRepeats {left right : List Selected}
    (h : FurtherRepeats left right) (name schemaTypeName : String) (names : NameAllocator) :
    layoutRecord resolve name schemaTypeName right names =
      layoutRecord resolve name schemaTypeName left names := by
  have hvisits : FurtherRepeats (levelVisits schemaTypeName left)
      (levelVisits schemaTypeName right) := by
    rw [levelVisits, levelVisits, visitsOf_eq_flatMap, visitsOf_eq_flatMap]
    exact h.flatMap _
  have hrefs : firstSeen (Selected.spreadsHere.spreadsOf right) =
      firstSeen (Selected.spreadsHere.spreadsOf left) := by
    rw [spreadsOf_eq_flatMap, spreadsOf_eq_flatMap]
    exact (h.flatMap _).firstSeen_eq
  refine layoutRecord_eq_of_corresponds ?_ hrefs name names
  rcases (contributions_of_furtherRepeats hvisits).exists_cases with
    ⟨error, other, hleft, hright, rfl⟩ | ⟨result, other, hleft, hright, hresult⟩
  · rw [hleft, hright]
    exact .error rfl
  · rw [hleft, hright]
    have hnames := (hresult.map (·.responseName)).firstSeen_eq
    refine .ok (Group.forall₂_ofContributions_of_names hnames.symm ?_)
    intro group hgroup more hmore hname
    have hgroups : FurtherRepeats group.toList more.toList := by
      rw [Group.toList_of_mem_ofContributions hgroup, Group.toList_of_mem_ofContributions hmore,
        hname]
      exact hresult.filter _
    have hbelow : FurtherRepeats group.below more.below := hgroups.flatMap (·.below)
    have hsame : FurtherRepeats (group.mapBelow fun _ => ()).toList
        (more.mapBelow fun _ => ()).toList := by
      rw [Group.toList_mapBelow, Group.toList_mapBelow]
      exact hgroups.map _
    refine Group.corresponds_of_furtherRepeats hsame hbelow.eq_nil_iff ?_ schemaTypeName
    intro name names
    exact layoutRecord_of_furtherRepeats hbelow name group.schemaTypeName names
termination_by selectionSize left
decreasing_by exact selectionSize_below_lt_level hleft hgroup

private theorem furtherRepeats_items {fields repeated : List Field}
    (hrepeated : ∀ field ∈ repeated, field ∈ fields) (spreads : List String)
    (inlineFragments : List InlineFragment) :
    FurtherRepeats (SelectionSet.items ⟨fields, spreads, inlineFragments⟩)
      (SelectionSet.items ⟨fields ++ repeated, spreads, inlineFragments⟩) := by
  have hold : ∀ item ∈ repeated.map SelectionItem.field, item ∈ fields.map SelectionItem.field := by
    intro item hitem
    obtain ⟨field, hfield, rfl⟩ := List.mem_map.mp hitem
    exact List.mem_map_of_mem (hrepeated field hfield)
  have hfields := (FurtherRepeats.refl (fields.map SelectionItem.field)).append_again hold
  rw [SelectionSet.items, SelectionSet.items, List.map_append]
  exact (hfields.append _).append _

/-- Selecting again what is selected already changes nothing: neither the error nor anything in the
tree of records, and no further name is taken. -/
theorem layoutRoot_append_repeated (registry : FragmentRegistry) (resolve : String → LeafKind)
    (name schemaTypeName : String) {fields repeated : List Field}
    (hrepeated : ∀ field ∈ repeated, field ∈ fields) (spreads : List String)
    (inlineFragments : List InlineFragment) (names : NameAllocator) :
    layoutRoot registry resolve name schemaTypeName ⟨fields ++ repeated, spreads, inlineFragments⟩
        names =
      layoutRoot registry resolve name schemaTypeName ⟨fields, spreads, inlineFragments⟩ names := by
  have hitems := furtherRepeats_items hrepeated spreads inlineFragments
  have hwritten := hitems.map registry.writeOutItem
  rw [layoutRoot, layoutRoot, FragmentRegistry.writeOut_eq_map, FragmentRegistry.writeOut_eq_map]
  exact layoutRecord_of_furtherRepeats resolve hwritten name schemaTypeName (names.reserve name)

end Layout

section Book

def textField (name : String) : Field :=
  ⟨{ responseName := name, fieldName := name, typeText := "String" }, .empty⟩

/-- A field over a selection of its own and a spread. -/
def authorField : Field :=
  ⟨{ responseName := "author", fieldName := "author", typeText := "User!" },
    ⟨[textField "name"], ["Credits"], []⟩⟩

/-- An inline fragment that selects the author too, and more of him. -/
def authorOnNovel : InlineFragment where
  typeCondition := "Novel"
  possibleTypes := ["Novel"]
  fields := [⟨authorField.head, ⟨[textField "country", textField "name"], [], []⟩⟩]
  spreads := []

/-- A registry of one fragment, whose fields belong to the author. -/
def creditsRegistry : FragmentRegistry where
  fragments := [{
    name := "Credits"
    typeCondition := "User"
    selection := ⟨[textField "editor", textField "name"], [], []⟩ }]

/-- The author is laid out once, whether it is selected once or three times in front of the inline
fragment. -/
theorem layoutRoot_book_repeated :
    (∀ field ∈ [authorField, textField "title", authorField],
      field ∈ [textField "title", authorField]) ∧
    ∃ record,
      (layoutRoot creditsRegistry (fun _ => .enum) "Data" "Book"
        ⟨[textField "title", authorField] ++ [authorField, textField "title", authorField], [],
          [authorOnNovel]⟩ .initial).1 = .ok record ∧
      (layoutRoot creditsRegistry (fun _ => .enum) "Data" "Book"
        ⟨[textField "title", authorField], [], [authorOnNovel]⟩ .initial).1 = .ok record := by
  have hrepeated : ∀ field ∈ [authorField, textField "title", authorField],
      field ∈ [textField "title", authorField] := by
    simp
  have hok : (layoutRoot creditsRegistry (fun _ => .enum) "Data" "Book"
      ⟨[textField "title", authorField], [], [authorOnNovel]⟩ .initial).1.isOk = true := by
    decide +kernel
  refine ⟨hrepeated, ?_⟩
  rw [layoutRoot_append_repeated creditsRegistry (fun _ => .enum) "Data" "Book" hrepeated []
    [authorOnNovel] .initial]
  cases hrecord : (layoutRoot creditsRegistry (fun _ => .enum) "Data" "Book"
      ⟨[textField "title", authorField], [], [authorOnNovel]⟩ .initial).1 with
  | error error =>
    rw [hrecord] at hok
    cases hok
  | ok record => exact ⟨record, rfl, rfl⟩

end Book

end ResultLayout
