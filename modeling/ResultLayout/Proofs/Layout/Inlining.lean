import ResultLayout.Proofs.Layout.Correspondence
/-!
# Fragments written inline

The body of a named fragment that has no inline fragments of its own can be written in place of its
spread, as the first inline fragment. The walk through the level meets the same fields in the same
order, with the same conditions around them, so that the same ones merge and the same conflict comes
first. Only the source of what is selected through the fragment is another one, and with it the source of
the members whose names the walk first meets there; the levels below are the same.
-/
namespace ResultLayout

/-- The fragment as an inline fragment. -/
def Fragment.inlined (fragment : Fragment) (possibleTypes : List String) : InlineFragment where
  typeCondition := fragment.typeCondition
  possibleTypes := possibleTypes
  fields := fragment.selection.fields
  spreads := fragment.selection.spreads

private theorem Fragment.body_inlined (fragment : Fragment)
    (hflat : fragment.selection.inlineFragments = []) (possibleTypes : List String) :
    (fragment.inlined possibleTypes).body = fragment.selection := by
  obtain ⟨_, _, _, _, ⟨fields, spreads, inlineFragments⟩, _⟩ := fragment
  cases hflat
  rfl

/-- A field is selected under the response name at the level of a selection set. -/
def FragmentRegistry.SelectsName (registry : FragmentRegistry) (selection : SelectionSet)
    (responseName : String) : Prop :=
  ∃ occurrence, registry.Selects selection occurrence ∧ occurrence.responseName = responseName

section AfterInlining

variable (registry : FragmentRegistry) (before : SelectionSet) (fragment : Fragment)

/-- Members before and after a fragment is written inline behind `before`: the source moves if the
response name is first selected through the fragment. -/
inductive Member.AfterInlining : Member → Member → Prop
  | same {member : Member} (h : registry.SelectsName before member.responseName ∨
      ¬ registry.SelectsName fragment.selection member.responseName) : AfterInlining member member
  | moved {member : Member} (hbefore : ¬ registry.SelectsName before member.responseName)
    (hthrough : registry.SelectsName fragment.selection member.responseName)
    (hsource : member.source = .fragmentSpread fragment.name) :
    AfterInlining member { member with source := .inlineFragment fragment.typeCondition }

/-- The root record keeps its name, its schema type and, up to sources, its members. -/
structure RecordType.AfterInlining (record other : RecordType) : Prop where
  name_eq : other.name = record.name
  schemaTypeName_eq : other.schemaTypeName = record.schemaTypeName
  members : List.Forall₂ (Member.AfterInlining registry before fragment) record.members other.members

/-- The source of a field before and after a fragment is written inline: it moves only if the fragment
selects a field of this name and shape. -/
inductive FieldSource.AfterInlining (responseName : String) (shape : FieldShape) :
    FieldSource → FieldSource → Prop
  | same (source : FieldSource) : AfterInlining responseName shape source source
  | moved {occurrence : Occurrence} (hselects : registry.Selects fragment.selection occurrence)
    (hname : occurrence.responseName = responseName) (hfield : occurrence.fieldName = shape.fieldName)
    (htype : occurrence.type? = .ok shape.type) :
    AfterInlining responseName shape (.fragmentSpread fragment.name)
      (.inlineFragment fragment.typeCondition)

/-- An error stays as it is, or it is a conflict on the schema type of which the sources may move. -/
inductive CompileError.AfterInlining (schemaTypeName : String) : CompileError → CompileError → Prop
  | same (error : CompileError) : AfterInlining schemaTypeName error error
  | conflict {responseName : String} {first second : FieldShape}
    {firstSource otherFirst secondSource otherSecond : FieldSource}
    (hfirst : FieldSource.AfterInlining registry fragment responseName first firstSource otherFirst)
    (hsecond :
      FieldSource.AfterInlining registry fragment responseName second secondSource otherSecond) :
    AfterInlining schemaTypeName
      (.conflictingShapes schemaTypeName responseName first firstSource second secondSource)
      (.conflictingShapes schemaTypeName responseName first otherFirst second otherSecond)

end AfterInlining

/-- The visit with another outermost fragment. -/
def Visit.withSource (source : FieldSource) : Visit → Visit
  | .field around head below => .field { around with outermost := some source } head below
  | .undefinedSpread fragmentName => .undefinedSpread fragmentName

def Contribution.withSource {Below : Type} (source : FieldSource) (contribution : Contribution Below) :
    Contribution Below :=
  { contribution with source := source }

section Sources

variable (source other : FieldSource)

mutual

private theorem Selected.visits_outermost (schemaTypeName : String) (around : Surroundings)
    (selected : Selected) :
    selected.visits schemaTypeName { around with outermost := some other } =
      (selected.visits schemaTypeName { around with outermost := some source }).map
        (·.withSource other) := by
  cases selected with
  | field head below => rfl
  | within scope body =>
    exact visitsOf_outermost schemaTypeName (around.enter schemaTypeName scope) body
  | undefinedSpread name => rfl

private theorem visitsOf_outermost (schemaTypeName : String) (around : Surroundings)
    (selections : List Selected) :
    Selected.visits.visitsOf schemaTypeName { around with outermost := some other } selections =
      (Selected.visits.visitsOf schemaTypeName { around with outermost := some source }
        selections).map (·.withSource other) := by
  cases selections with
  | nil => rfl
  | cons selected rest =>
    have hselected := selected.visits_outermost schemaTypeName around
    have hrest := visitsOf_outermost schemaTypeName around rest
    rw [Selected.visits.visitsOf, Selected.visits.visitsOf, hselected, hrest, List.map_append]

end

private theorem contributions_withSource (visits : List Visit) :
    contributions (visits.map (·.withSource other)) =
      (contributions visits).map (List.map (·.withSource other)) := by
  induction visits with
  | nil => rfl
  | cons visit visits ih =>
    have hvisit : (visit.withSource other).contribution =
        visit.contribution.map (·.withSource other) := by
      cases visit with
      | undefinedSpread name => rfl
      | field around head below =>
        simp only [Visit.withSource, Visit.contribution, Surroundings.contribution]
        cases TypeRef.parse head.typeText <;> rfl
    rw [List.map_cons, contributions, contributions, hvisit, ih]
    cases visit.contribution with
    | error error => rfl
    | ok contribution => cases contributions visits <;> rfl

end Sources

namespace FragmentRegistry

variable {registry : FragmentRegistry} {fragment : Fragment} {schemaTypeName : String}

private theorem Safe.levelVisits_inlined (hsafe : registry.Safe)
    (hfind : registry.find? fragment.name = some fragment)
    (hflat : fragment.selection.inlineFragments = []) (possibleTypes : List String)
    (schemaTypeName : String) :
    levelVisits schemaTypeName (registry.writeOut ⟨[], [], [fragment.inlined possibleTypes]⟩) =
      (levelVisits schemaTypeName (registry.writeOut ⟨[], [fragment.name], []⟩)).map
        (·.withSource (.inlineFragment fragment.typeCondition)) := by
  have hspread : registry.writeOut ⟨[], [fragment.name], []⟩ =
      [.within fragment.spreadScope (registry.writeOut fragment.selection)] := by
    rw [writeOut_eq_map, ← hsafe.writeOutItem_spread hfind]
    rfl
  have hvisits := visitsOf_outermost (.fragmentSpread fragment.name)
    (.inlineFragment fragment.typeCondition) schemaTypeName
    (Surroundings.enter {} schemaTypeName fragment.spreadScope)
    (registry.writeOut fragment.selection)
  have halone (scope : FragmentScope) (body : List Selected) :
      levelVisits schemaTypeName [.within scope body] =
        Selected.visits.visitsOf schemaTypeName (Surroundings.enter {} schemaTypeName scope) body :=
    List.append_nil _
  rw [writeOut_inline, hspread, fragment.body_inlined hflat, halone, halone]
  exact hvisits

section Contributions

variable {selection : SelectionSet} {result : List (Contribution (List Selected))}

private theorem Safe.exists_walk_of_contributions (hsafe : registry.Safe)
    (h : contributions (levelVisits schemaTypeName (registry.writeOut selection)) = .ok result) :
    ∃ occurrences, (∀ occurrence, occurrence ∈ occurrences ↔ registry.Selects selection occurrence) ∧
      List.Forall₂ (Occurrence.Contributes registry schemaTypeName) occurrences result := by
  have hlist : registry.writeOut selection = [selection].flatMap registry.writeOut :=
    (List.flatMap_singleton _ _).symm
  rw [hlist] at h
  obtain ⟨occurrences, hwalk, hcontributes⟩ := hsafe.exists_contributing_walk h
  refine ⟨occurrences, ?_, hcontributes⟩
  intro occurrence
  simpa using hwalk.mem_iff_selects

private theorem Safe.exists_selects_of_mem (hsafe : registry.Safe)
    (h : contributions (levelVisits schemaTypeName (registry.writeOut selection)) = .ok result)
    {contribution : Contribution (List Selected)} (hmem : contribution ∈ result) :
    ∃ occurrence, registry.Selects selection occurrence ∧
      occurrence.Contributes registry schemaTypeName contribution := by
  obtain ⟨occurrences, hselects, hcontributes⟩ := hsafe.exists_walk_of_contributions h
  obtain ⟨occurrence, hoccurrence, hmine⟩ := exists_left_of_mem hcontributes hmem
  exact ⟨occurrence, (hselects occurrence).mp hoccurrence, hmine⟩

private theorem Safe.selectsName_iff (hsafe : registry.Safe)
    (h : contributions (levelVisits schemaTypeName (registry.writeOut selection)) = .ok result)
    (responseName : String) :
    registry.SelectsName selection responseName ↔
      ∃ contribution ∈ result, contribution.responseName = responseName := by
  obtain ⟨occurrences, hselects, hcontributes⟩ := hsafe.exists_walk_of_contributions h
  constructor
  · rintro ⟨occurrence, hoccurrence, rfl⟩
    obtain ⟨contribution, hmem, hmine⟩ :=
      exists_right_of_mem hcontributes ((hselects occurrence).mpr hoccurrence)
    exact ⟨contribution, hmem, hmine.responseName_eq⟩
  · rintro ⟨contribution, hmem, rfl⟩
    obtain ⟨occurrence, hoccurrence, hmine⟩ := exists_left_of_mem hcontributes hmem
    exact ⟨occurrence, (hselects occurrence).mp hoccurrence, hmine.responseName_eq.symm⟩

end Contributions

private theorem selects_spread_iff (hfind : registry.find? fragment.name = some fragment)
    {occurrence : Occurrence} :
    registry.Selects ⟨[], [fragment.name], []⟩ occurrence ↔
      ∃ inner, registry.Selects fragment.selection inner ∧
        occurrence = inner.within fragment.spreadScope := by
  constructor
  · intro h
    cases h with
    | own hfield => cases hfield
    | spread hname hfound hinner =>
      rw [List.mem_singleton.mp hname, hfind] at hfound
      obtain rfl := Option.some.inj hfound
      exact ⟨_, hinner, rfl⟩
    | «inline» hfragment => cases hfragment
  · rintro ⟨inner, hinner, rfl⟩
    exact .spread (List.mem_singleton_self _) hfind hinner

private theorem selectsName_spread_iff (hfind : registry.find? fragment.name = some fragment)
    (responseName : String) :
    registry.SelectsName ⟨[], [fragment.name], []⟩ responseName ↔
      registry.SelectsName fragment.selection responseName := by
  simp only [SelectsName, selects_spread_iff hfind]
  constructor
  · rintro ⟨_, ⟨inner, hinner, rfl⟩, hname⟩
    exact ⟨inner, hinner, hname⟩
  · rintro ⟨inner, hinner, hname⟩
    exact ⟨_, ⟨inner, hinner, rfl⟩, hname⟩

end FragmentRegistry

/-- A contribution through the spread of a fragment. -/
structure Contribution.Through (registry : FragmentRegistry) (fragment : Fragment)
    (contribution : Contribution (List Selected)) : Prop where
  source_eq : contribution.source = .fragmentSpread fragment.name
  selected : ∃ occurrence, registry.Selects fragment.selection occurrence ∧
    occurrence.responseName = contribution.responseName ∧
    occurrence.fieldName = contribution.head.fieldName ∧ occurrence.type? = .ok contribution.type

/-- The contributions to a level before and after a fragment is written inline: those through it keep
their places and change their source. -/
inductive InlinedContributions (registry : FragmentRegistry) (before : SelectionSet)
    (fragment : Fragment) : (left right : List (Contribution (List Selected))) → Prop
  | mk {first through last : List (Contribution (List Selected))}
    (hfirst : ∀ responseName, registry.SelectsName before responseName ↔
      ∃ contribution ∈ first, contribution.responseName = responseName)
    (hnames : ∀ responseName, registry.SelectsName fragment.selection responseName ↔
      ∃ contribution ∈ through, contribution.responseName = responseName)
    (hthrough : ∀ contribution ∈ through, contribution.Through registry fragment) :
    InlinedContributions registry before fragment (first ++ through ++ last)
      (first ++ through.map (·.withSource (.inlineFragment fragment.typeCondition)) ++ last)

section Level

variable {registry : FragmentRegistry} {fragment : Fragment} {schemaTypeName : String}

private theorem FragmentRegistry.Safe.through_of_mem (hsafe : registry.Safe)
    (hfind : registry.find? fragment.name = some fragment)
    {result : List (Contribution (List Selected))}
    (h : contributions (levelVisits schemaTypeName
      (registry.writeOut ⟨[], [fragment.name], []⟩)) = .ok result)
    {contribution : Contribution (List Selected)} (hmem : contribution ∈ result) :
    contribution.Through registry fragment := by
  obtain ⟨occurrence, hselects, type, htype, rfl⟩ := hsafe.exists_selects_of_mem h hmem
  obtain ⟨inner, hinner, rfl⟩ := (FragmentRegistry.selects_spread_iff hfind).mp hselects
  exact ⟨rfl, inner, hinner, rfl, rfl, htype⟩

/-- Reading a level with the spread and one with the inline fragment in its place comes to the same
fault or to contributions of which those through the fragment have changed their source. -/
private theorem FragmentRegistry.Safe.contributions_inlined (hsafe : registry.Safe)
    (hfind : registry.find? fragment.name = some fragment)
    (hflat : fragment.selection.inlineFragments = []) (possibleTypes : List String)
    (schemaTypeName : String) (fields : List Field) (spreads : List String)
    (inlineFragments : List InlineFragment) :
    SameOutcome Eq (InlinedContributions registry ⟨fields, spreads, []⟩ fragment)
      (contributions (levelVisits schemaTypeName
        (registry.writeOut ⟨fields, spreads ++ [fragment.name], inlineFragments⟩)))
      (contributions (levelVisits schemaTypeName
        (registry.writeOut ⟨fields, spreads, fragment.inlined possibleTypes :: inlineFragments⟩))) := by
  have hleft : registry.writeOut ⟨fields, spreads ++ [fragment.name], inlineFragments⟩ =
      registry.writeOut ⟨fields, spreads, []⟩ ++ registry.writeOut ⟨[], [fragment.name], []⟩ ++
        registry.writeOut ⟨[], [], inlineFragments⟩ := by
    simp [FragmentRegistry.writeOut_eq_map, SelectionSet.items]
  have hright : registry.writeOut
      ⟨fields, spreads, fragment.inlined possibleTypes :: inlineFragments⟩ =
      registry.writeOut ⟨fields, spreads, []⟩ ++
        registry.writeOut ⟨[], [], [fragment.inlined possibleTypes]⟩ ++
        registry.writeOut ⟨[], [], inlineFragments⟩ := by
    simp [FragmentRegistry.writeOut_eq_map, SelectionSet.items]
  have happend (xs ys : List Selected) : levelVisits schemaTypeName (xs ++ ys) =
      levelVisits schemaTypeName xs ++ levelVisits schemaTypeName ys := by
    simp [levelVisits, visitsOf_eq_flatMap]
  rw [hleft, hright]
  simp only [happend, contributions_append, hsafe.levelVisits_inlined hfind hflat,
    contributions_withSource]
  cases hfirst : contributions (levelVisits schemaTypeName
      (registry.writeOut ⟨fields, spreads, []⟩)) with
  | error error => exact .error rfl
  | ok first =>
    cases hthrough : contributions (levelVisits schemaTypeName
        (registry.writeOut ⟨[], [fragment.name], []⟩)) with
    | error error => exact .error rfl
    | ok through =>
      cases contributions (levelVisits schemaTypeName
          (registry.writeOut ⟨[], [], inlineFragments⟩)) with
      | error error => exact .error rfl
      | ok last =>
        have hnames (responseName : String) :=
          hsafe.selectsName_iff hthrough responseName
        simp only [FragmentRegistry.selectsName_spread_iff hfind] at hnames
        exact .ok (.mk (hsafe.selectsName_iff hfirst) hnames
          fun contribution hmem => hsafe.through_of_mem hfind hthrough hmem)

end Level

/-- A contribution to the response name before and after a fragment is written inline. -/
inductive Contribution.AfterInlining (registry : FragmentRegistry) (fragment : Fragment)
    (responseName : String) : (contribution other : Contribution (List Selected)) → Prop
  | same {contribution : Contribution (List Selected)}
    (hname : contribution.responseName = responseName) :
    AfterInlining registry fragment responseName contribution contribution
  | moved {contribution : Contribution (List Selected)}
    (hname : contribution.responseName = responseName)
    (hthrough : contribution.Through registry fragment) :
    AfterInlining registry fragment responseName contribution
      (contribution.withSource (.inlineFragment fragment.typeCondition))

namespace Contribution.AfterInlining

variable {registry : FragmentRegistry} {fragment : Fragment} {responseName : String}
  {a b c d : Contribution (List Selected)}

private theorem mergesWith_eq (hab : AfterInlining registry fragment responseName a b)
    (hcd : AfterInlining registry fragment responseName c d) : b.mergesWith d = a.mergesWith c := by
  cases hab <;> cases hcd <;> rfl

theorem source (hab : AfterInlining registry fragment responseName a b) :
    FieldSource.AfterInlining registry fragment responseName a.shape a.source b.source := by
  cases hab with
  | same => exact .same _
  | moved hname hthrough =>
    obtain ⟨occurrence, hselects, hsame, hfield, htype⟩ := hthrough.selected
    rw [hthrough.source_eq]
    exact .moved hselects (hsame.trans hname) hfield htype

theorem conflictError (hab : AfterInlining registry fragment responseName a b)
    (hcd : AfterInlining registry fragment responseName c d) (schemaTypeName : String) :
    CompileError.AfterInlining registry fragment schemaTypeName
      (ResultLayout.conflictError schemaTypeName responseName a c)
      (ResultLayout.conflictError schemaTypeName responseName b d) := by
  have hfirst : b.shape = a.shape := by cases hab <;> rfl
  have hsecond : d.shape = c.shape := by cases hcd <;> rfl
  rw [ResultLayout.conflictError, ResultLayout.conflictError, hfirst, hsecond]
  exact .conflict hab.source hcd.source

end Contribution.AfterInlining

section Groups

variable {registry : FragmentRegistry} {before : SelectionSet} {fragment : Fragment}

/-- The contributions to one response name, those through the fragment between the others. -/
structure Group.AfterInlining (registry : FragmentRegistry) (before : SelectionSet)
    (fragment : Fragment) (group other : Group (List Selected)) : Prop where
  responseName_eq : other.responseName = group.responseName
  responseName_of_mem : ∀ contribution ∈ group.toList,
    contribution.responseName = group.responseName
  exists_parts : ∃ first through last : List (Contribution (List Selected)),
    group.toList = first ++ through ++ last ∧
    other.toList =
      first ++ through.map (·.withSource (.inlineFragment fragment.typeCondition)) ++ last ∧
    (registry.SelectsName before group.responseName ↔ first ≠ []) ∧
    (registry.SelectsName fragment.selection group.responseName ↔ through ≠ []) ∧
    ∀ contribution ∈ through, contribution.Through registry fragment

private theorem filter_ne_nil_iff {contributions : List (Contribution (List Selected))}
    {responseName : String} :
    contributions.filter (·.responseName = responseName) ≠ [] ↔
      ∃ contribution ∈ contributions, contribution.responseName = responseName := by
  simp [List.filter_eq_nil_iff]

theorem InlinedContributions.group {left right : List (Contribution (List Selected))}
    (h : InlinedContributions registry before fragment left right) {group other : Group (List Selected)}
    (hgroup : group ∈ Group.ofContributions left) (hother : other ∈ Group.ofContributions right)
    (hname : other.responseName = group.responseName) :
    Group.AfterInlining registry before fragment group other := by
  have hmine := Group.toList_of_mem_ofContributions hgroup
  have htheirs := Group.toList_of_mem_ofContributions hother
  have hmem : ∀ contribution ∈ group.toList, contribution.responseName = group.responseName := by
    intro contribution hcontribution
    rw [hmine] at hcontribution
    exact of_decide_eq_true (List.mem_filter.mp hcontribution).2
  cases h with
  | @mk first through last hfirst hnames hthrough =>
    refine ⟨hname, hmem, first.filter (·.responseName = group.responseName),
      through.filter (·.responseName = group.responseName),
      last.filter (·.responseName = group.responseName), ?_, ?_, ?_, ?_, ?_⟩
    · simpa using hmine
    · rw [htheirs, hname]
      simp only [List.filter_append, List.filter_map]
      rfl
    · rw [hfirst, filter_ne_nil_iff]
    · rw [hnames, filter_ne_nil_iff]
    · intro contribution hmem
      exact hthrough contribution (List.mem_filter.mp hmem).1

namespace Group.AfterInlining

variable {group other : Group (List Selected)}

theorem forall₂ (h : AfterInlining registry before fragment group other) :
    List.Forall₂ (Contribution.AfterInlining registry fragment group.responseName) group.toList
      other.toList := by
  obtain ⟨-, hname, first, through, last, hmine, htheirs, -, -, hthrough⟩ := h
  rw [hmine] at hname
  rw [hmine, htheirs]
  have hsame {part : List (Contribution (List Selected))}
      (hpart : ∀ contribution ∈ part, contribution ∈ first ++ through ++ last) :
      List.Forall₂ (Contribution.AfterInlining registry fragment group.responseName) part part := by
    rw [List.forall₂_same]
    intro contribution hmem
    exact .same (hname contribution (hpart contribution hmem))
  have hmoved : List.Forall₂ (Contribution.AfterInlining registry fragment group.responseName)
      through (through.map (·.withSource (.inlineFragment fragment.typeCondition))) := by
    rw [List.forall₂_map_right_iff, List.forall₂_same]
    intro contribution hmem
    exact .moved (hname contribution (by simp [hmem])) (hthrough contribution hmem)
  apply List.rel_append
  · apply List.rel_append
    · exact hsame fun contribution hmem => by simp [hmem]
    · exact hmoved
  · exact hsame fun contribution hmem => by simp [hmem]

private theorem first_cases (h : AfterInlining registry before fragment group other) :
    (other.first = group.first ∧ (registry.SelectsName before group.responseName ∨
      ¬ registry.SelectsName fragment.selection group.responseName)) ∨
    (other.first = group.first.withSource (.inlineFragment fragment.typeCondition) ∧
      ¬ registry.SelectsName before group.responseName ∧
      registry.SelectsName fragment.selection group.responseName ∧
      group.first.source = .fragmentSpread fragment.name) := by
  obtain ⟨-, -, first, through, last, hmine, htheirs, hbefore, hthroughName, hthrough⟩ := h
  rw [toList] at hmine htheirs
  rw [hbefore, hthroughName]
  cases first with
  | cons c first =>
    simp only [List.cons_append, List.cons.injEq] at hmine htheirs
    exact Or.inl ⟨htheirs.1.trans hmine.1.symm, Or.inl (List.cons_ne_nil c first)⟩
  | nil =>
    cases through with
    | cons c through =>
      simp only [List.nil_append, List.map_cons, List.cons_append, List.cons.injEq] at hmine htheirs
      have hsource := (hthrough c List.mem_cons_self).source_eq
      rw [← hmine.1] at htheirs hsource
      exact Or.inr ⟨htheirs.1, by simp, by simp, hsource⟩
    | nil =>
      simp only [List.nil_append, List.map_nil] at hmine htheirs
      rw [← hmine, List.cons.injEq] at htheirs
      exact Or.inl ⟨htheirs.1, Or.inr (by simp)⟩

private theorem all_conditional_eq (h : AfterInlining registry before fragment group other) :
    other.toList.all (·.conditional) = group.toList.all (·.conditional) := by
  obtain ⟨-, -, first, through, last, hmine, htheirs, -⟩ := h
  rw [hmine, htheirs]
  simp [List.all_map, Function.comp_def, Contribution.withSource]

private theorem below_eq (h : AfterInlining registry before fragment group other) :
    other.below = group.below := by
  obtain ⟨-, -, first, through, last, hmine, htheirs, -⟩ := h
  rw [below, below, hmine, htheirs]
  simp [List.flatMap_map, Contribution.withSource]

theorem member (h : AfterInlining registry before fragment group other) (leafKind : LeafKind)
    (nested : Option RecordType) :
    Member.AfterInlining registry before fragment (group.member leafKind nested)
      (other.member leafKind nested) := by
  have hconditional := h.all_conditional_eq
  rcases h.first_cases with ⟨hfirst, hname⟩ | ⟨hfirst, hbefore, hthrough, hsource⟩
  · have hmember : other.member leafKind nested = group.member leafKind nested := by
      simp only [Group.member, responseName, hconditional, hfirst]
    rw [hmember]
    exact .same hname
  · have hmember : other.member leafKind nested =
        { group.member leafKind nested with source := .inlineFragment fragment.typeCondition } := by
      simp only [Group.member, responseName, hconditional, hfirst]
      rfl
    rw [hmember]
    exact .moved hbefore hthrough hsource

private theorem corresponds (h : AfterInlining registry before fragment group other)
    (resolve : String → LeafKind) (schemaTypeName : String) :
    Group.Corresponds resolve (CompileError.AfterInlining registry fragment schemaTypeName)
      (Member.AfterInlining registry before fragment) schemaTypeName group other := by
  have htype : other.schemaTypeName = group.schemaTypeName := by
    rcases h.first_cases with ⟨hfirst, -⟩ | ⟨hfirst, -⟩ <;>
      rw [Group.schemaTypeName, Group.schemaTypeName, hfirst]
    rfl
  refine ⟨h.responseName_eq, htype, ?_, h.member, by rw [h.below_eq], fun _ _ => by rw [h.below_eq]⟩
  rw [conflict?_eq_firstConflict?, conflict?_eq_firstConflict?]
  have hconflict := firstConflict?_of_forall₂
    (fun _ _ _ _ hab hcd => Contribution.AfterInlining.mergesWith_eq hab hcd) .nil h.forall₂
  generalize firstConflict? [] group.toList = found at hconflict ⊢
  generalize firstConflict? [] other.toList = otherFound at hconflict ⊢
  cases hconflict with
  | none => exact .none
  | some hpair => exact .some (hpair.1.conflictError hpair.2 schemaTypeName)

end Group.AfterInlining

private theorem InlinedContributions.forall₂_corresponds
    {left right : List (Contribution (List Selected))}
    (h : InlinedContributions registry before fragment left right) (resolve : String → LeafKind)
    (schemaTypeName : String) :
    List.Forall₂ (Group.Corresponds resolve
        (CompileError.AfterInlining registry fragment schemaTypeName)
        (Member.AfterInlining registry before fragment) schemaTypeName)
      (Group.ofContributions left) (Group.ofContributions right) := by
  have hnames : left.map (·.responseName) = right.map (·.responseName) := by
    cases h with
    | mk =>
      simp only [List.map_append, List.map_map]
      rfl
  apply Group.forall₂_ofContributions_of_names (by rw [hnames])
  intro group hgroup other hother hname
  exact (h.group hgroup hother hname).corresponds resolve schemaTypeName

end Groups

/-- A named fragment without inline fragments can be written inline in place of its last spread: the
layout fails with the same error or succeeds with the same tree and takes the same names, up to the
sources of what is selected through the fragment and the fragments listed at the root. -/
theorem layoutRoot_inlined {collection : FragmentCollection} {registry : FragmentRegistry}
    (hbuild : collection.build = .ok registry) {fragment : Fragment}
    (hfind : registry.find? fragment.name = some fragment)
    (hflat : fragment.selection.inlineFragments = []) (possibleTypes : List String)
    (resolve : String → LeafKind) (name schemaTypeName : String) (fields : List Field)
    (spreads : List String) (inlineFragments : List InlineFragment) (names : NameAllocator) :
    SameOutcome (CompileError.AfterInlining registry fragment schemaTypeName)
        (RecordType.AfterInlining registry ⟨fields, spreads, []⟩ fragment)
        (layoutRoot registry resolve name schemaTypeName
          ⟨fields, spreads ++ [fragment.name], inlineFragments⟩ names).1
        (layoutRoot registry resolve name schemaTypeName
          ⟨fields, spreads, fragment.inlined possibleTypes :: inlineFragments⟩ names).1 ∧
      (layoutRoot registry resolve name schemaTypeName
          ⟨fields, spreads, fragment.inlined possibleTypes :: inlineFragments⟩ names).2 =
        (layoutRoot registry resolve name schemaTypeName
          ⟨fields, spreads ++ [fragment.name], inlineFragments⟩ names).2 := by
  have hsafe := FragmentRegistry.safe_of_build hbuild
  have hread := hsafe.contributions_inlined hfind hflat possibleTypes schemaTypeName fields spreads
    inlineFragments
  have hlayout := layoutRecord_of_corresponds CompileError.AfterInlining.same
    (hread.mono fun _ _ h => h.forall₂_corresponds resolve schemaTypeName) name (names.reserve name)
  refine ⟨hlayout.1.mono ?_, hlayout.2⟩
  intro record other h
  exact ⟨h.name_eq, h.schemaTypeName_eq, h.members⟩

section Profile

def stringField (name : String) : Field :=
  ⟨{ responseName := name, fieldName := name, typeText := "String" }, .empty⟩

/-- The name of a person and, through another fragment, the address. -/
def profileFragment : Fragment where
  name := "Profile"
  typeCondition := "Person"
  possibleTypes := ["Person"]
  selection := ⟨[stringField "name"], ["Contact"], []⟩

def profileFragments : FragmentCollection where
  fragments := [profileFragment, {
    name := "Contact", typeCondition := "Person", possibleTypes := ["Person"]
    selection := ⟨[stringField "email", stringField "id"], [], []⟩ }]
  nodup_names := by decide

/-- The name again, behind the spread. -/
def nameOnPerson : InlineFragment := ⟨"Person", ["Person"], [stringField "name"], []⟩

theorem layoutRoot_inlined_profile :
    profileFragments.build = .ok ⟨profileFragments.fragments⟩ ∧
    FragmentRegistry.find? ⟨profileFragments.fragments⟩ profileFragment.name =
      some profileFragment ∧
    profileFragment.selection.inlineFragments = [] ∧ ∃ record other,
      (layoutRoot ⟨profileFragments.fragments⟩ (fun _ => .enum) "Data" "Node"
        ⟨[stringField "id"], [] ++ [profileFragment.name], [nameOnPerson]⟩ .initial).1 =
          .ok record ∧
      (layoutRoot ⟨profileFragments.fragments⟩ (fun _ => .enum) "Data" "Node"
        ⟨[stringField "id"], [], profileFragment.inlined ["Person"] :: [nameOnPerson]⟩
          .initial).1 = .ok other ∧
      RecordType.AfterInlining ⟨profileFragments.fragments⟩ ⟨[stringField "id"], [], []⟩
        profileFragment record other := by
  have hbuild : profileFragments.build = .ok ⟨profileFragments.fragments⟩ :=
    FragmentCollection.build_eq_ok_iff.mpr ⟨rfl, by decide +kernel, by decide +kernel⟩
  have hfind : FragmentRegistry.find? ⟨profileFragments.fragments⟩ profileFragment.name =
      some profileFragment := rfl
  have hflat : profileFragment.selection.inlineFragments = [] := rfl
  have hok : (layoutRoot ⟨profileFragments.fragments⟩ (fun _ => .enum) "Data" "Node"
      ⟨[stringField "id"], [] ++ [profileFragment.name], [nameOnPerson]⟩ .initial).1.isOk = true := by
    decide +kernel
  have hsame := (layoutRoot_inlined hbuild hfind hflat ["Person"] (fun _ => .enum) "Data" "Node"
    [stringField "id"] [] [nameOnPerson] .initial).1
  refine ⟨hbuild, hfind, hflat, ?_⟩
  rcases hsame.exists_cases with ⟨error, -, herror, -⟩ | ⟨record, other, hrecord, hother, h⟩
  · rw [herror] at hok
    cases hok
  · exact ⟨record, other, hrecord, hother, h⟩

end Profile

end ResultLayout
