import ResultLayout.Proofs.Layout.Repeats
/-!
# Fields selected in two parts

A field that is selected once can be selected in two parts: in its place with some of its sub-fields,
and further behind with the rest of its selection. If no other field of its response name stands in
between, the two parts contribute to their member one directly after the other. The second part merges
with whatever merges with the first, and what is selected below them together is what was selected
below the one field, in the same order. So every level comes to corresponding groups, in which what
lies below one response name is the same or is split in turn.
-/
namespace ResultLayout

/-- The right selection set is the left one with one field, at any depth, selected in two parts: first
with some of its sub-fields only, then with the rest of its selection. -/
inductive SelectionSet.SplitsTo : SelectionSet → SelectionSet → Prop
  | here {before between behind first : List Field} {head : FieldHead} {rest : SelectionSet}
    {spreads : List String} {inlineFragments : List InlineFragment}
    (hbetween : ∀ field ∈ between, field.head.responseName ≠ head.responseName) :
    SplitsTo
      ⟨before ++ ⟨head, ⟨first ++ rest.fields, rest.spreads, rest.inlineFragments⟩⟩ ::
        (between ++ behind), spreads, inlineFragments⟩
      ⟨before ++ ⟨head, ⟨first, [], []⟩⟩ :: (between ++ ⟨head, rest⟩ :: behind), spreads,
        inlineFragments⟩
  | inField {before behind : List Field} {head : FieldHead} {left right : SelectionSet}
    {spreads : List String} {inlineFragments : List InlineFragment} (h : SplitsTo left right) :
    SplitsTo ⟨before ++ ⟨head, left⟩ :: behind, spreads, inlineFragments⟩
      ⟨before ++ ⟨head, right⟩ :: behind, spreads, inlineFragments⟩
  | inInline {fields left right : List Field} {spreads : List String}
    {before behind : List InlineFragment} {fragment : InlineFragment}
    (h : SplitsTo ⟨left, fragment.spreads, []⟩ ⟨right, fragment.spreads, []⟩) :
    SplitsTo ⟨fields, spreads, before ++ { fragment with fields := left } :: behind⟩
      ⟨fields, spreads, before ++ { fragment with fields := right } :: behind⟩

/-- The same for selections that are written out. -/
inductive Selected.SplitsTo : List Selected → List Selected → Prop
  | here {head : FieldHead} {first rest between : List Selected}
    (hbetween : ∀ selected ∈ between, ∃ other below, selected = .field other below ∧
      other.responseName ≠ head.responseName) :
    SplitsTo (.field head (first ++ rest) :: between)
      (.field head first :: (between ++ [.field head rest]))
  | inField {head : FieldHead} {left right : List Selected} (h : SplitsTo left right) :
    SplitsTo [.field head left] [.field head right]
  | within {scope : FragmentScope} {left right : List Selected} (h : SplitsTo left right) :
    SplitsTo [.within scope left] [.within scope right]
  | context {left right : List Selected} (before behind : List Selected) (h : SplitsTo left right) :
    SplitsTo (before ++ left ++ behind) (before ++ right ++ behind)

section WriteOut

variable (registry : FragmentRegistry)

theorem SelectionSet.SplitsTo.writeOut {left right : SelectionSet} (h : left.SplitsTo right) :
    Selected.SplitsTo (registry.writeOut left) (registry.writeOut right) := by
  induction h with
  | @here before between behind first head rest spreads inlineFragments hbetween =>
    have hfields : ∀ selected ∈ between.map registry.writeOutField, ∃ other below,
        selected = .field other below ∧ other.responseName ≠ head.responseName := by
      intro selected hselected
      obtain ⟨field, hfield, rfl⟩ := List.mem_map.mp hselected
      exact ⟨field.head, registry.writeOut field.selection, rfl, hbetween field hfield⟩
    have hsplit : Selected.SplitsTo
        (.field head (registry.writeOut ⟨first, [], []⟩ ++ registry.writeOut rest) ::
          between.map registry.writeOutField)
        (.field head (registry.writeOut ⟨first, [], []⟩) ::
          (between.map registry.writeOutField ++ [.field head (registry.writeOut rest)])) :=
      .here hfields
    rw [← registry.writeOut_append_fields] at hsplit
    have hleft := registry.writeOut_between_fields before
      (⟨head, ⟨first ++ rest.fields, rest.spreads, rest.inlineFragments⟩⟩ :: between) behind spreads
      inlineFragments
    have hright := registry.writeOut_between_fields before
      (⟨head, ⟨first, [], []⟩⟩ :: (between ++ [⟨head, rest⟩])) behind spreads inlineFragments
    rw [List.cons_append] at hleft
    rw [List.cons_append, List.append_assoc, List.singleton_append] at hright
    rw [hleft, hright, List.map_cons, List.map_cons, List.map_append]
    exact hsplit.context _ _
  | @inField before behind head left right spreads inlineFragments _ ih =>
    have hwritten (field : Field) := registry.writeOut_between_fields before [field] behind spreads
      inlineFragments
    simp only [List.singleton_append, List.map_singleton] at hwritten
    rw [hwritten, hwritten]
    exact (Selected.SplitsTo.inField ih).context _ _
  | @inInline fields left right spreads before behind fragment _ ih =>
    rw [registry.writeOut_between_inline, registry.writeOut_between_inline]
    exact (Selected.SplitsTo.within ih).context _ _

end WriteOut

namespace Selected.SplitsTo

variable {left right : List Selected}

theorem ne_nil (h : Selected.SplitsTo left right) : left ≠ [] ∧ right ≠ [] := by
  induction h with
  | here _ => simp
  | inField _ _ => simp
  | within _ _ => simp
  | context _ _ _ ih => simp [ih]

private theorem spreadsOf_eq (h : Selected.SplitsTo left right) :
    Selected.spreadsHere.spreadsOf right = Selected.spreadsHere.spreadsOf left := by
  induction h with
  | here hbetween =>
    have hfields (head : FieldHead) (below : List Selected) :
        (Selected.field head below).spreadsHere = [] := rfl
    simp [spreadsOf_eq_flatMap, hfields]
  | inField _ _ => rfl
  | @within scope _ _ _ ih =>
    obtain ⟨use, typeCondition, possibleTypes⟩ := scope
    cases use with
    | spread name => rfl
    | «inline» => simpa [spreadsOf_eq_flatMap, Selected.spreadsHere] using ih
  | context before behind _ ih =>
    simp only [spreadsOf_eq_flatMap, List.flatMap_append] at ih ⊢
    rw [ih]

end Selected.SplitsTo

/-- What is selected below one response name in some contributions. -/
def belowName (responseName : String) (contributions : List (Contribution (List Selected))) :
    List Selected :=
  (contributions.filter (·.responseName = responseName)).flatMap (·.below)

private theorem belowName_nil (responseName : String) : belowName responseName [] = [] := rfl

private theorem belowName_append (responseName : String)
    (xs ys : List (Contribution (List Selected))) :
    belowName responseName (xs ++ ys) = belowName responseName xs ++ belowName responseName ys := by
  simp [belowName]

private theorem belowName_cons (responseName : String) (contribution : Contribution (List Selected))
    (rest : List (Contribution (List Selected))) :
    belowName responseName (contribution :: rest) =
      (if contribution.responseName = responseName then contribution.below else []) ++
        belowName responseName rest := by
  by_cases h : contribution.responseName = responseName <;> simp [belowName, h]

private theorem belowName_eq_nil {responseName : String}
    {contributions : List (Contribution (List Selected))}
    (h : ∀ contribution ∈ contributions, contribution.responseName ≠ responseName) :
    belowName responseName contributions = [] := by
  rw [belowName, List.filter_eq_nil_iff.mpr (by simpa using h), List.flatMap_nil]

/-- Contributions that say the same apart from what is selected below them, with further repeats on the
right, where below each response name the selections are the same or split. -/
structure SplitContributions (left right : List (Contribution (List Selected))) : Prop where
  furtherRepeats : FurtherRepeats (left.map (·.mapBelow fun _ => ()))
    (right.map (·.mapBelow fun _ => ()))
  below : ∀ responseName, belowName responseName right = belowName responseName left ∨
    Selected.SplitsTo (belowName responseName left) (belowName responseName right)

private theorem SplitContributions.context {left right : List (Contribution (List Selected))}
    (h : SplitContributions left right) (before behind : List (Contribution (List Selected))) :
    SplitContributions (before ++ left ++ behind) (before ++ right ++ behind) := by
  constructor
  · simp only [List.map_append]
    exact (h.furtherRepeats.prepend _).append _
  · intro responseName
    simp only [belowName_append]
    rcases h.below responseName with hsame | hsplit
    · exact Or.inl (by rw [hsame])
    · exact Or.inr (hsplit.context _ _)

section Contributions

variable {head : FieldHead} {between : List Selected}

private theorem contribution_field_cases (around : Surroundings) (head : FieldHead) :
    (∃ error, ∀ below, (Visit.field around head below).contribution = .error error) ∨
      ∃ contribution : Contribution (List Selected), contribution.responseName = head.responseName ∧
        ∀ below, (Visit.field around head below).contribution =
          .ok { contribution with below := below } := by
  simp only [Visit.contribution, Surroundings.contribution]
  cases TypeRef.parse head.typeText with
  | error cause => exact Or.inl ⟨_, fun _ => rfl⟩
  | ok type =>
    exact Or.inr ⟨⟨head, type, [], around.conditional || head.isConditional, around.narrowedTo,
      around.outermost.getD .direct⟩, rfl, fun _ => rfl⟩

private theorem responseName_withBelow (contribution : Contribution (List Selected))
    (below : List Selected) :
    ({ contribution with below := below } : Contribution (List Selected)).responseName =
      contribution.responseName := rfl

private theorem responseName_ne_of_between {schemaTypeName : String} {around : Surroundings}
    (hbetween : ∀ selected ∈ between, ∃ other below, selected = .field other below ∧
      other.responseName ≠ head.responseName) {result : List (Contribution (List Selected))}
    (h : contributions (Selected.visits.visitsOf schemaTypeName around between) = .ok result) :
    ∀ contribution ∈ result, contribution.responseName ≠ head.responseName := by
  intro contribution hcontribution
  obtain ⟨visit, hvisit, hread⟩ := exists_left_of_mem (contributions_eq_ok h) hcontribution
  rw [visitsOf_eq_flatMap] at hvisit
  obtain ⟨selected, hselected, hvisit⟩ := List.mem_flatMap.mp hvisit
  obtain ⟨other, below, rfl, hne⟩ := hbetween selected hselected
  rw [List.mem_singleton.mp hvisit] at hread
  rcases contribution_field_cases around other with ⟨error, herror⟩ | ⟨found, hname, hfound⟩
  · rw [herror] at hread
    cases hread
  · rw [hfound] at hread
    cases hread
    exact hname.trans_ne hne

private theorem splitContributions_parts {contribution : Contribution (List Selected)}
    {result : List (Contribution (List Selected))}
    (hresult : ∀ other ∈ result, other.responseName ≠ contribution.responseName)
    (first rest : List Selected) :
    SplitContributions ({ contribution with below := first ++ rest } :: result)
      ({ contribution with below := first } :: (result ++ [{ contribution with below := rest }])) := by
  constructor
  · rw [List.map_cons, List.map_cons, List.map_append, List.map_singleton, ← List.cons_append]
    exact (FurtherRepeats.refl _).again List.mem_cons_self
  · intro responseName
    refine Or.inl ?_
    simp only [belowName_cons, belowName_append, belowName_nil, responseName_withBelow]
    by_cases hname : contribution.responseName = responseName
    · have hothers : belowName responseName result = [] := belowName_eq_nil (hname ▸ hresult)
      simp [hname, hothers]
    · simp [hname]

private theorem contributions_of_splitsTo {left right : List Selected}
    (h : Selected.SplitsTo left right) (schemaTypeName : String) (around : Surroundings) :
    SameOutcome Eq SplitContributions
      (contributions (Selected.visits.visitsOf schemaTypeName around left))
      (contributions (Selected.visits.visitsOf schemaTypeName around right)) := by
  induction h generalizing around with
  | @here head first rest between hbetween =>
    have hfield (below : List Selected) :
        (Selected.field head below).visits schemaTypeName around = [.field around head below] := rfl
    simp only [visitsOf_eq_flatMap, List.flatMap_cons, List.flatMap_append, List.flatMap_nil, hfield,
      List.singleton_append, List.append_nil, contributions]
    simp only [← visitsOf_eq_flatMap]
    rcases contribution_field_cases around head with ⟨error, herror⟩ | ⟨found, hname, hfound⟩
    · simp only [herror]
      exact .error rfl
    · simp only [hfound, contributions_append_singleton]
      cases hread : contributions (Selected.visits.visitsOf schemaTypeName around between) with
      | error error => exact .error rfl
      | ok result =>
        have hothers := responseName_ne_of_between hbetween hread
        rw [← hname] at hothers
        exact .ok (splitContributions_parts hothers first rest)
  | @inField head left right h _ =>
    have hfield (below : List Selected) :
        Selected.visits.visitsOf schemaTypeName around [.field head below] =
          [.field around head below] := rfl
    simp only [hfield, contributions]
    rcases contribution_field_cases around head with ⟨error, herror⟩ | ⟨found, hname, hfound⟩
    · simp only [herror]
      exact .error rfl
    · simp only [hfound]
      refine .ok ⟨.refl _, ?_⟩
      intro responseName
      simp only [belowName_cons, belowName_nil, responseName_withBelow, List.append_nil]
      by_cases hmine : found.responseName = responseName
      · simpa [hmine] using Or.inr h
      · simp [hmine]
  | within _ ih =>
    simpa [visitsOf_eq_flatMap, Selected.visits] using ih _
  | context before behind _ ih =>
    simp only [visitsOf_eq_flatMap, List.flatMap_append] at ih ⊢
    apply contributions_context _ (ih around)
    intro xs ys result other hresult
    exact hresult.context xs ys

end Contributions

section Layout

variable {resolve : String → LeafKind}

private theorem Group.below_of_mem_ofContributions
    {contributions : List (Contribution (List Selected))}
    {group : Group (List Selected)} (h : group ∈ ofContributions contributions) :
    group.below = belowName group.responseName contributions := by
  rw [Group.below, toList_of_mem_ofContributions h, belowName]

namespace SplitContributions

variable {left right : List (Contribution (List Selected))}

private theorem firstSeen_responseNames_eq (h : SplitContributions left right) :
    firstSeen (left.map (·.responseName)) = firstSeen (right.map (·.responseName)) := by
  have hnames := (h.furtherRepeats.map (·.responseName)).firstSeen_eq
  simp only [List.map_map] at hnames
  exact hnames.symm

private theorem furtherRepeats_group (h : SplitContributions left right)
    {group other : Group (List Selected)}
    (hgroup : group ∈ Group.ofContributions left) (hother : other ∈ Group.ofContributions right)
    (hname : other.responseName = group.responseName) :
    FurtherRepeats (group.mapBelow fun _ => ()).toList (other.mapBelow fun _ => ()).toList := by
  have hfilter := h.furtherRepeats.filter (·.responseName = group.responseName)
  rw [List.filter_map, List.filter_map] at hfilter
  rw [Group.toList_mapBelow, Group.toList_mapBelow, Group.toList_of_mem_ofContributions hgroup,
    Group.toList_of_mem_ofContributions hother, hname]
  exact hfilter

end SplitContributions

private theorem layoutRecord_of_splitsTo {left right : List Selected}
    (h : Selected.SplitsTo left right) (name schemaTypeName : String) (names : NameAllocator) :
    layoutRecord resolve name schemaTypeName right names =
      layoutRecord resolve name schemaTypeName left names := by
  have hread := contributions_of_splitsTo h schemaTypeName {}
  refine layoutRecord_eq_of_corresponds ?_ (by rw [h.spreadsOf_eq]) name names
  rcases hread.exists_cases with
    ⟨error, other, hleft, hright, rfl⟩ | ⟨result, other, hleft, hright, hresult⟩
  · rw [levelVisits, levelVisits, hleft, hright]
    exact .error rfl
  · rw [levelVisits, levelVisits, hleft, hright]
    refine .ok (Group.forall₂_ofContributions_of_names hresult.firstSeen_responseNames_eq ?_)
    intro group hgroup more hmore hname
    have hrepeats := hresult.furtherRepeats_group hgroup hmore hname
    have hbelow := hresult.below group.responseName
    rw [← Group.below_of_mem_ofContributions hgroup, ← hname,
      ← Group.below_of_mem_ofContributions hmore] at hbelow
    rcases hbelow with hsame | hsplit
    · exact Group.corresponds_of_furtherRepeats hrepeats (by rw [hsame])
        (fun name names => by rw [hsame]) schemaTypeName
    · have hempty : more.below = [] ↔ group.below = [] :=
        iff_of_false hsplit.ne_nil.2 hsplit.ne_nil.1
      refine Group.corresponds_of_furtherRepeats hrepeats hempty ?_ schemaTypeName
      intro name names
      exact layoutRecord_of_splitsTo hsplit name group.schemaTypeName names
termination_by selectionSize left
decreasing_by exact selectionSize_below_lt_level hleft hgroup

/-- Selecting a field in two parts changes nothing: neither the error nor anything in the tree of
records, and the same names are taken. -/
theorem layoutRoot_of_splitsTo (registry : FragmentRegistry) (resolve : String → LeafKind)
    (name schemaTypeName : String) {left right : SelectionSet} (h : left.SplitsTo right)
    (names : NameAllocator) :
    layoutRoot registry resolve name schemaTypeName right names =
      layoutRoot registry resolve name schemaTypeName left names :=
  layoutRecord_of_splitsTo (h.writeOut registry) name schemaTypeName (names.reserve name)

end Layout

section Book

def bookField (selection : SelectionSet) : Field :=
  ⟨{ responseName := "book", fieldName := "book", typeText := "Book" }, selection⟩

/-- A book whose author is selected once in front of the inline fragment. -/
def bookOfAuthor : SelectionSet where
  fields := [bookField ⟨[⟨authorField.head, ⟨[textField "country", textField "name"], ["Credits"], []⟩⟩,
    textField "title"], [], [authorOnNovel]⟩]
  spreads := []
  inlineFragments := []

/-- The same book with the country of the author in front of the title and the rest behind it. -/
def bookOfSplitAuthor : SelectionSet where
  fields := [bookField ⟨[⟨authorField.head, ⟨[textField "country"], [], []⟩⟩, textField "title",
    ⟨authorField.head, ⟨[textField "name"], ["Credits"], []⟩⟩], [], [authorOnNovel]⟩]
  spreads := []
  inlineFragments := []

private theorem splitsTo_author : bookOfAuthor.SplitsTo bookOfSplitAuthor := by
  have hauthor : SelectionSet.SplitsTo
      ⟨[⟨authorField.head, ⟨[textField "country", textField "name"], ["Credits"], []⟩⟩,
        textField "title"], [], [authorOnNovel]⟩
      ⟨[⟨authorField.head, ⟨[textField "country"], [], []⟩⟩, textField "title",
        ⟨authorField.head, ⟨[textField "name"], ["Credits"], []⟩⟩], [], [authorOnNovel]⟩ :=
    @SelectionSet.SplitsTo.here [] [textField "title"] [] [textField "country"] authorField.head
      ⟨[textField "name"], ["Credits"], []⟩ [] [authorOnNovel] (by decide)
  exact @SelectionSet.SplitsTo.inField [] [] _ _ _ [] [] hauthor

theorem layoutRoot_split_author : bookOfAuthor.SplitsTo bookOfSplitAuthor ∧ ∃ record,
    (layoutRoot creditsRegistry (fun _ => .enum) "Data" "Query" bookOfSplitAuthor .initial).1 =
      .ok record ∧
    (layoutRoot creditsRegistry (fun _ => .enum) "Data" "Query" bookOfAuthor .initial).1 =
      .ok record := by
  have hok : (layoutRoot creditsRegistry (fun _ => .enum) "Data" "Query" bookOfAuthor
      .initial).1.isOk = true := by
    decide +kernel
  refine ⟨splitsTo_author, ?_⟩
  rw [layoutRoot_of_splitsTo creditsRegistry (fun _ => .enum) "Data" "Query" splitsTo_author]
  cases hrecord : (layoutRoot creditsRegistry (fun _ => .enum) "Data" "Query" bookOfAuthor
      .initial).1 with
  | error error =>
    rw [hrecord] at hok
    cases hok
  | ok record => exact ⟨record, rfl, rfl⟩

end Book

end ResultLayout
