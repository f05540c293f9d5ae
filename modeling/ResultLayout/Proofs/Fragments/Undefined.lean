import ResultLayout.Proofs.Fragments.Cycles
/-!
# Reports of undefined names

Every spread that is written in a selection set has a place: the way down to it, through fields and
inline fragments. Places are ordered as the walk "fields with their selections, then own spreads,
then inline fragments" comes by them, and the names that the walk lists stand at the places one by
one.

So what is reported of undefined names can be said without the walk. There is one report for each
fragment and each undefined name that is spread in it, in the order of the fragments and, for one
fragment, of the places where the names are spread first. The cycles are reported before them, and
take none of them away.
-/
namespace ResultLayout

/-- A step on the way from a selection set down to one of its spreads. -/
inductive SpreadStep where
  | intoField (i : Nat)
  | own (i : Nat)
  | intoInline (i : Nat)

/-- Fields come before own spreads, and these before inline fragments. -/
inductive SpreadStep.Before : SpreadStep → SpreadStep → Prop
  | fields {i j : Nat} (h : i < j) : Before (intoField i) (intoField j)
  | fieldOwn (i j : Nat) : Before (intoField i) (own j)
  | fieldInline (i j : Nat) : Before (intoField i) (intoInline j)
  | owns {i j : Nat} (h : i < j) : Before (own i) (own j)
  | ownInline (i j : Nat) : Before (own i) (intoInline j)
  | inlines {i j : Nat} (h : i < j) : Before (intoInline i) (intoInline j)

/-- The way down to a spread. It ends with a step to an own spread of the set it has come to. -/
abbrev SpreadPlace := List SpreadStep

/-- Where two ways part, the step that comes first decides. -/
abbrev SpreadPlace.Before : SpreadPlace → SpreadPlace → Prop := List.Lex SpreadStep.Before

/-- A name is spread at a place in a selection set. -/
inductive SelectionSet.SpreadsAt : SelectionSet → SpreadPlace → String → Prop
  | inField {selection : SelectionSet} {i : Nat} {field : Field} {place : SpreadPlace}
    {name : String} (hfield : selection.fields[i]? = some field)
    (h : SpreadsAt field.selection place name) :
    SpreadsAt selection (.intoField i :: place) name
  | here {selection : SelectionSet} {i : Nat} {name : String}
    (h : selection.spreads[i]? = some name) : SpreadsAt selection [.own i] name
  | inInline {selection : SelectionSet} {i : Nat} {fragment : InlineFragment} {place : SpreadPlace}
    {name : String} (hfragment : selection.inlineFragments[i]? = some fragment)
    (h : SpreadsAt fragment.body place name) :
    SpreadsAt selection (.intoInline i :: place) name

/-- The first place of one name comes before every place of the other. -/
def SelectionSet.SpreadsBefore (selection : SelectionSet) (name other : String) : Prop :=
  ∃ place, selection.SpreadsAt place name ∧
    ∀ otherPlace, selection.SpreadsAt otherPlace other → place.Before otherPlace

section Places

/-- The names stand at the places, in the order of the places. -/
def ListsPlaces (names : List String) (standsAt : SpreadPlace → String → Prop) : Prop :=
  ∃ spots : List (SpreadPlace × String), spots.map Prod.snd = names ∧
    (spots.Pairwise fun a b => SpreadPlace.Before a.1 b.1) ∧
    ∀ place name, (place, name) ∈ spots ↔ standsAt place name

namespace ListsPlaces

variable {names later : List String} {standsAt standsLater : SpreadPlace → String → Prop}

theorem congr (h : ListsPlaces names standsAt)
    (hsame : ∀ place name, standsAt place name ↔ standsLater place name) :
    ListsPlaces names standsLater := by
  obtain ⟨spots, hnames, hordered, hspots⟩ := h
  exact ⟨spots, hnames, hordered, fun place name => (hspots place name).trans (hsame place name)⟩

theorem append (h : ListsPlaces names standsAt) (hlater : ListsPlaces later standsLater)
    (hbefore : ∀ place name otherPlace other, standsAt place name → standsLater otherPlace other →
      place.Before otherPlace) :
    ListsPlaces (names ++ later) fun place name =>
      standsAt place name ∨ standsLater place name := by
  obtain ⟨spots, hnames, hordered, hspots⟩ := h
  obtain ⟨spotsLater, hnamesLater, horderedLater, hspotsLater⟩ := hlater
  refine ⟨spots ++ spotsLater, ?_, ?_, ?_⟩
  · rw [List.map_append, hnames, hnamesLater]
  · rw [List.pairwise_append]
    refine ⟨hordered, horderedLater, ?_⟩
    intro a ha b hb
    exact hbefore _ _ _ _ ((hspots a.1 a.2).mp ha) ((hspotsLater b.1 b.2).mp hb)
  · intro place name
    rw [List.mem_append, hspots, hspotsLater]

theorem below (step : SpreadStep) (h : ListsPlaces names standsAt) :
    ListsPlaces names fun place name => ∃ rest, place = step :: rest ∧ standsAt rest name := by
  obtain ⟨spots, hnames, hordered, hspots⟩ := h
  refine ⟨spots.map fun spot => (step :: spot.1, spot.2), ?_, ?_, ?_⟩
  · rw [List.map_map, ← hnames]
    rfl
  · rw [List.pairwise_map]
    exact hordered.imp .cons
  · intro place name
    rw [List.mem_map]
    constructor
    · rintro ⟨⟨rest, _⟩, hmem, hsame⟩
      obtain ⟨rfl, rfl⟩ := Prod.mk.inj hsame
      exact ⟨rest, rfl, (hspots rest _).mp hmem⟩
    · rintro ⟨rest, rfl, hstands⟩
      exact ⟨(rest, name), (hspots rest name).mpr hstands, rfl⟩

theorem flatMap {α : Type} {step : Nat → SpreadStep} {namesOf : α → List String}
    {standsIn : α → SpreadPlace → String → Prop}
    (hstep : ∀ {i j : Nat}, i < j → (step i).Before (step j)) (items : List α) (start : Nat)
    (h : ∀ item ∈ items, ListsPlaces (namesOf item) (standsIn item)) :
    ListsPlaces (items.flatMap namesOf) fun place name => ∃ i item rest,
      items[i]? = some item ∧ place = step (start + i) :: rest ∧ standsIn item rest name := by
  induction items generalizing start with
  | nil => exact ⟨[], rfl, .nil, by simp⟩
  | cons item items ih =>
    have hfirst := (h item List.mem_cons_self).below (step start)
    have hrest := ih (start + 1) fun other hother => h other (List.mem_cons_of_mem item hother)
    refine (hfirst.append hrest ?_).congr ?_
    · rintro _ _ _ _ ⟨rest, rfl, -⟩ ⟨i, _, _, -, rfl, -⟩
      exact .rel (hstep (by omega))
    · intro place name
      constructor
      · rintro (⟨rest, rfl, hstands⟩ | ⟨i, other, rest, hother, rfl, hstands⟩)
        · exact ⟨0, item, rest, rfl, rfl, hstands⟩
        · exact ⟨i + 1, other, rest, hother, by rw [Nat.add_right_comm, Nat.add_assoc], hstands⟩
      · rintro ⟨i, other, rest, hother, rfl, hstands⟩
        cases i with
        | zero =>
          obtain rfl : item = other := by simpa using hother
          exact Or.inl ⟨rest, rfl, hstands⟩
        | succ i =>
          exact Or.inr ⟨i, other, rest, by simpa using hother,
            by rw [Nat.add_right_comm, Nat.add_assoc], hstands⟩

theorem filter (p : String → Bool) (h : ListsPlaces names standsAt) :
    ListsPlaces (names.filter p) fun place name => standsAt place name ∧ p name = true := by
  obtain ⟨spots, hnames, hordered, hspots⟩ := h
  refine ⟨spots.filter fun spot => p spot.2, ?_, hordered.filter _, ?_⟩
  · rw [← hnames, List.filter_map]
    rfl
  · intro place name
    rw [List.mem_filter, hspots]

private theorem exists_before (h : ListsPlaces names standsAt) {name other : String}
    (hless : names.idxOf name < names.idxOf other) :
    ∃ place, standsAt place name ∧
      ∀ otherPlace, standsAt otherPlace other → place.Before otherPlace := by
  obtain ⟨spots, rfl, hordered, hspots⟩ := h
  suffices hfound : ∃ place, (place, name) ∈ spots ∧
      ∀ otherPlace, (otherPlace, other) ∈ spots → place.Before otherPlace by
    simpa only [hspots] using hfound
  clear hspots
  induction spots with
  | nil => simp at hless
  | cons spot spots ih =>
    obtain ⟨place, first⟩ := spot
    rw [List.pairwise_cons] at hordered
    have hne : first ≠ other := by
      rintro rfl
      simp at hless
    have hbehind (otherPlace : SpreadPlace) (hother : (otherPlace, other) ∈ (place, first) :: spots) :
        (otherPlace, other) ∈ spots := by
      rcases List.mem_cons.mp hother with hsame | hother
      · exact absurd (Prod.mk.inj hsame).2.symm hne
      · exact hother
    by_cases hfirst : first = name
    · subst hfirst
      exact ⟨place, List.mem_cons_self, fun otherPlace hother =>
        hordered.1 _ (hbehind otherPlace hother)⟩
    · have hless' : (spots.map Prod.snd).idxOf name < (spots.map Prod.snd).idxOf other := by
        simpa [List.idxOf_cons, hfirst, hne] using hless
      obtain ⟨later, hname, hothers⟩ := ih hless' hordered.2
      exact ⟨later, List.mem_cons_of_mem _ hname, fun otherPlace hother =>
        hothers otherPlace (hbehind otherPlace hother)⟩

end ListsPlaces

/-- The walk lists the spreads of a selection set in the order of their places. -/
private theorem SelectionSet.listsPlaces (selection : SelectionSet) :
    ListsPlaces selection.spreadNames selection.SpreadsAt := by
  induction selection using SelectionSet.induction with
  | step selection ihFields ihInline =>
    have hfields := ListsPlaces.flatMap .fields selection.fields 0 ihFields
    have hown : ListsPlaces (selection.spreads.flatMap ([·])) fun place name => ∃ i own rest,
        selection.spreads[i]? = some own ∧ place = .own (0 + i) :: rest ∧ rest = [] ∧ name = own :=
      .flatMap .owns selection.spreads 0 fun own _ =>
        ⟨[([], own)], rfl, List.pairwise_singleton _ _, by simp⟩
    have hinline := ListsPlaces.flatMap .inlines selection.inlineFragments 0 ihInline
    rw [selection.spreadNames_eq]
    rw [List.flatMap_singleton'] at hown
    refine ((hfields.append hown ?_).append hinline ?_).congr ?_
    · rintro _ _ _ _ ⟨_, _, _, -, rfl, -⟩ ⟨_, _, _, -, rfl, -⟩
      exact .rel (.fieldOwn _ _)
    · rintro _ _ _ _ (⟨_, _, _, -, rfl, -⟩ | ⟨_, _, _, -, rfl, -⟩) ⟨_, _, _, -, rfl, -⟩
      · exact .rel (.fieldInline _ _)
      · exact .rel (.ownInline _ _)
    · intro place name
      simp only [Nat.zero_add]
      constructor
      · rintro ((⟨i, field, rest, hfield, rfl, hbelow⟩ | ⟨i, _, _, hname, rfl, rfl, rfl⟩) |
          ⟨i, fragment, rest, hfragment, rfl, hbelow⟩)
        · exact .inField hfield hbelow
        · exact .here hname
        · exact .inInline hfragment hbelow
      · intro h
        cases h with
        | inField hfield hbelow => exact Or.inl (Or.inl ⟨_, _, _, hfield, rfl, hbelow⟩)
        | here hname => exact Or.inl (Or.inr ⟨_, _, _, hname, rfl, rfl, rfl⟩)
        | inInline hfragment hbelow => exact Or.inr ⟨_, _, _, hfragment, rfl, hbelow⟩

end Places

namespace FragmentCollection

/-- A name that is no fragment's is spread somewhere in a fragment of the collection. -/
def SpreadsUndefined (collection : FragmentCollection) (fragment : Fragment) (name : String) :
    Prop :=
  fragment ∈ collection.fragments ∧ fragment.selection.Spreads name ∧
    ∀ other ∈ collection.fragments, other.name ≠ name

/-- One pair of a fragment and a name comes before another: its fragment stands earlier in the
collection, or the two have one fragment and its name is spread there first. -/
def ComesBefore (collection : FragmentCollection) (pair other : Fragment × String) : Prop :=
  [pair.1, other.1].Sublist collection.fragments ∨
    (pair.1 = other.1 ∧ pair.1.selection.SpreadsBefore pair.2 other.2)

/-- What the check of a collection reports: nothing if it succeeds. -/
def reports (collection : FragmentCollection) : List RegistryError :=
  match collection.build with
  | .ok _ => []
  | .error errors => errors

private theorem reports_eq (collection : FragmentCollection) :
    collection.reports = collection.cycleErrors ++ collection.undefinedSpreadErrors := by
  rw [reports]
  split
  next hok =>
    obtain ⟨-, hcycles, hundefined⟩ := build_eq_ok_iff.mp hok
    rw [hcycles, hundefined, List.append_nil]
  next herror => exact (build_eq_error_iff.mp herror).1

/-- The undefined names that a fragment spreads, each once. -/
def undefinedNames (collection : FragmentCollection) (fragment : Fragment) : List String :=
  firstSeen (fragment.spreadNames.filter fun name =>
    (findFragment? collection.fragments name).isNone)

private theorem mem_undefinedNames {collection : FragmentCollection} {fragment : Fragment}
    {name : String} : name ∈ collection.undefinedNames fragment ↔
      fragment.selection.Spreads name ∧ ∀ other ∈ collection.fragments, other.name ≠ name := by
  rw [undefinedNames, mem_firstSeen, List.mem_filter, Fragment.spreadNames,
    SelectionSet.mem_spreadNames, Option.isNone_iff_eq_none, findFragment?_eq_none, List.mem_map,
    not_exists]
  simp only [not_and]

private theorem pairwise_undefinedNames (collection : FragmentCollection) (fragment : Fragment) :
    (collection.undefinedNames fragment).Pairwise fragment.selection.SpreadsBefore := by
  have hplaces := fragment.selection.listsPlaces.filter fun name =>
    (findFragment? collection.fragments name).isNone
  refine (pairwise_idxOf_firstOfEach id _).imp_of_mem ?_
  intro name other _ hother hless
  rw [List.map_id] at hless
  obtain ⟨place, ⟨hstands, -⟩, hothers⟩ := hplaces.exists_before hless
  rw [mem_firstSeen, List.mem_filter] at hother
  exact ⟨place, hstands, fun otherPlace hat => hothers otherPlace ⟨hat, hother.2⟩⟩

/-- The pairs of a fragment and an undefined name that it spreads, as they are reported. -/
def undefinedPairs (collection : FragmentCollection) : List (Fragment × String) :=
  collection.fragments.flatMap fun fragment =>
    (collection.undefinedNames fragment).map fun name => (fragment, name)

private theorem undefinedSpreadErrors_eq_map (collection : FragmentCollection) :
    collection.undefinedSpreadErrors = collection.undefinedPairs.map fun pair =>
      .undefinedSpread pair.1.name pair.2 pair.1.location := by
  rw [undefinedSpreadErrors, undefinedPairs, List.map_flatMap]
  simp only [List.map_map]
  rfl

private theorem nodup_undefinedPairs (collection : FragmentCollection) :
    collection.undefinedPairs.Nodup := by
  rw [undefinedPairs, List.nodup_flatMap]
  refine ⟨?_, (collection.nodup_names.of_map _).imp ?_⟩
  · intro fragment _
    exact (nodup_firstSeen _).map fun _ _ hsame => (Prod.mk.inj hsame).2
  · intro fragment other hne pair hpair hother
    obtain ⟨_, -, rfl⟩ := List.mem_map.mp hpair
    obtain ⟨_, -, hsame⟩ := List.mem_map.mp hother
    exact hne (Prod.mk.inj hsame).1.symm

private theorem mem_undefinedPairs {collection : FragmentCollection} {fragment : Fragment}
    {name : String} :
    (fragment, name) ∈ collection.undefinedPairs ↔ collection.SpreadsUndefined fragment name := by
  rw [undefinedPairs, List.mem_flatMap]
  constructor
  · rintro ⟨_, hfragment, hpair⟩
    obtain ⟨_, hname, hsame⟩ := List.mem_map.mp hpair
    obtain ⟨rfl, rfl⟩ := Prod.mk.inj hsame
    exact ⟨hfragment, mem_undefinedNames.mp hname⟩
  · rintro ⟨hfragment, hundefined⟩
    have hname : name ∈ collection.undefinedNames fragment := mem_undefinedNames.mpr hundefined
    exact ⟨fragment, hfragment, List.mem_map_of_mem hname⟩

private theorem pairwise_undefinedPairs (collection : FragmentCollection) :
    collection.undefinedPairs.Pairwise collection.ComesBefore := by
  rw [undefinedPairs, List.pairwise_flatMap]
  constructor
  · intro fragment _
    rw [List.pairwise_map]
    exact (collection.pairwise_undefinedNames fragment).imp fun hbefore => Or.inr ⟨rfl, hbefore⟩
  · rw [List.pairwise_iff_forall_sublist]
    intro fragment other hsublist pair hpair otherPair hother
    obtain ⟨_, -, rfl⟩ := List.mem_map.mp hpair
    obtain ⟨_, -, rfl⟩ := List.mem_map.mp hother
    exact Or.inl hsublist

/-- A collection's reports are its cycles and then one report for each pair of a fragment and an
undefined name that is spread in it, at any depth. These come in the order of the fragments, and for
one fragment in the order in which the names are spread first. -/
theorem reports_undefined_spreads (collection : FragmentCollection) :
    ∃ (cycles : List (List String)) (pairs : List (Fragment × String)),
      collection.reports = cycles.map .spreadCycle ++
        pairs.map (fun pair => .undefinedSpread pair.1.name pair.2 pair.1.location) ∧
      pairs.Nodup ∧
      (∀ fragment name,
        (fragment, name) ∈ pairs ↔ collection.SpreadsUndefined fragment name) ∧
      pairs.Pairwise collection.ComesBefore := by
  refine ⟨cyclePaths collection.fragments, collection.undefinedPairs, ?_,
    collection.nodup_undefinedPairs, fun _ _ => mem_undefinedPairs,
    collection.pairwise_undefinedPairs⟩
  rw [reports_eq, cycleErrors, undefinedSpreadErrors_eq_map]

/-- Two fragments that spread each other, with undefined names at several depths. -/
def friendsWithGaps : FragmentCollection where
  fragments := [
    { name := "Person", typeCondition := "User", filePath := "person.graphql"
      selection := ⟨[⟨{ responseName := "boss", fieldName := "boss", typeText := "User" },
        ⟨[], ["Manager"], []⟩⟩], ["Friends", "Contact", "Manager"], []⟩ },
    { name := "Friends", typeCondition := "User"
      selection := ⟨[], ["Person"], [⟨"User", [], [], ["Contact"]⟩]⟩ }]
  nodup_names := by decide

example : friendsWithGaps.reports = [.spreadCycle ["Person", "Friends", "Person"],
    .undefinedSpread "Person" "Manager" (.file "person.graphql"),
    .undefinedSpread "Person" "Contact" (.file "person.graphql"),
    .undefinedSpread "Friends" "Contact" .unknown] := by
  decide +kernel

end FragmentCollection
end ResultLayout
