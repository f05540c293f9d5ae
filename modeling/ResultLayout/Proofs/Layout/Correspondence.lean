import ResultLayout.Proofs.Layout.Level
/-!
# Corresponding layouts

Two levels correspond if reading them comes to corresponding groups of contributions: groups of one
response name with the same schema type, the same level below and corresponding conflicts and members.
Corresponding levels are laid out with corresponding outcomes, and the same names are taken.

What conflicts and members may differ in is left open, up to errors that both layouts hand up
unchanged from below.
-/
namespace ResultLayout

/-- Both outcomes are errors or both are results, and the two are related. -/
inductive SameOutcome {α β : Type} (E : CompileError → CompileError → Prop) (R : α → β → Prop) :
    Except CompileError α → Except CompileError β → Prop
  | error {error other : CompileError} (h : E error other) :
    SameOutcome E R (.error error) (.error other)
  | ok {result : α} {other : β} (h : R result other) : SameOutcome E R (.ok result) (.ok other)

namespace SameOutcome

variable {α β : Type} {E : CompileError → CompileError → Prop} {R S : α → β → Prop}
  {x : Except CompileError α} {y : Except CompileError β}

theorem mono (h : SameOutcome E R x y) (hRS : ∀ a b, R a b → S a b) : SameOutcome E S x y := by
  cases h with
  | error h => exact .error h
  | ok h => exact .ok (hRS _ _ h)

theorem exists_cases (h : SameOutcome E R x y) :
    (∃ error other, x = .error error ∧ y = .error other ∧ E error other) ∨
      ∃ result other, x = .ok result ∧ y = .ok other ∧ R result other := by
  cases h with
  | error h => exact Or.inl ⟨_, _, rfl, rfl, h⟩
  | ok h => exact Or.inr ⟨_, _, rfl, rfl, h⟩

end SameOutcome

theorem contributions_context
    {R : List (Contribution (List Selected)) → List (Contribution (List Selected)) → Prop}
    (hR : ∀ xs ys result other, R result other → R (xs ++ result ++ ys) (xs ++ other ++ ys))
    {left right : List Visit} (h : SameOutcome Eq R (contributions left) (contributions right))
    (before behind : List Visit) :
    SameOutcome Eq R (contributions (before ++ left ++ behind))
      (contributions (before ++ right ++ behind)) := by
  simp only [contributions_append]
  cases contributions before with
  | error error => exact .error rfl
  | ok first =>
    rcases h.exists_cases with ⟨error, other, hleft, hright, rfl⟩ | ⟨result, other, hleft, hright, h⟩
    · simp only [hleft, hright]
      exact .error rfl
    · simp only [hleft, hright]
      cases contributions behind with
      | error error => exact .error rfl
      | ok last => exact .ok (hR first last _ _ h)

namespace Group

/-- Groups are related in order if those of one response name are. -/
theorem forall₂_ofContributions_of_names {Below : Type} {P : Group Below → Group Below → Prop}
    {left right : List (Contribution Below)}
    (hnames : firstSeen (left.map (·.responseName)) = firstSeen (right.map (·.responseName)))
    (h : ∀ group ∈ ofContributions left, ∀ other ∈ ofContributions right,
      other.responseName = group.responseName → P group other) :
    List.Forall₂ P (ofContributions left) (ofContributions right) := by
  rw [← responseNames_ofContributions, ← responseNames_ofContributions, ← List.forall₂_eq_eq_eq,
    List.forall₂_map_left_iff, List.forall₂_map_right_iff, List.forall₂_iff_zip] at hnames
  rw [List.forall₂_iff_zip]
  refine ⟨hnames.1, ?_⟩
  intro group other hzip
  have hmem := List.of_mem_zip hzip
  exact h group hmem.1 other hmem.2 (hnames.2 hzip).symm

private theorem find?_of_forall₂ {α β : Type} {R : α → β → Prop} {p : α → Bool} {q : β → Bool}
    (hpq : ∀ a b, R a b → q b = p a) {left : List α} {right : List β}
    (h : List.Forall₂ R left right) : Option.Rel R (left.find? p) (right.find? q) := by
  induction h with
  | nil => exact .none
  | @cons a b _ _ hab _ ih =>
    rw [List.find?_cons, List.find?_cons, hpq a b hab]
    cases p a with
    | true => exact .some hab
    | false => exact ih

/-- Contributions of which the same ones merge have their first conflict at the same place. -/
theorem firstConflict?_of_forall₂ {Below : Type} {R : Contribution Below → Contribution Below → Prop}
    (hmerges : ∀ a b c d, R a b → R c d → b.mergesWith d = a.mergesWith c)
    {earlier later otherEarlier otherLater : List (Contribution Below)}
    (hearlier : List.Forall₂ R earlier otherEarlier) (hlater : List.Forall₂ R later otherLater) :
    Option.Rel (fun pair otherPair => R pair.1 otherPair.1 ∧ R pair.2 otherPair.2)
      (firstConflict? earlier later) (firstConflict? otherEarlier otherLater) := by
  induction hlater generalizing earlier otherEarlier with
  | nil => exact .none
  | @cons c d rest otherRest hcd _ ih =>
    have hfind : Option.Rel R (earlier.find? fun contribution => !contribution.mergesWith c)
        (otherEarlier.find? fun contribution => !contribution.mergesWith d) := by
      apply find?_of_forall₂ _ hearlier
      intro a b hab
      rw [hmerges a b c d hab hcd]
    rw [firstConflict?, firstConflict?]
    generalize (earlier.find? fun contribution => !contribution.mergesWith c) = found at hfind ⊢
    generalize (otherEarlier.find? fun contribution => !contribution.mergesWith d) = otherFound
      at hfind ⊢
    cases hfind with
    | none => exact ih (List.rel_append hearlier (.cons hcd .nil))
    | some hab => exact .some ⟨hab, hcd⟩

/-- Two groups stand for corresponding members of records on one schema type. -/
structure Corresponds (resolve : String → LeafKind) (E : CompileError → CompileError → Prop)
    (M : Member → Member → Prop) (schemaTypeName : String) (group other : Group (List Selected)) :
    Prop where
  responseName_eq : other.responseName = group.responseName
  schemaTypeName_eq : other.schemaTypeName = group.schemaTypeName
  conflict : Option.Rel
    (fun pair otherPair => E (conflictError schemaTypeName group.responseName pair.1 pair.2)
      (conflictError schemaTypeName group.responseName otherPair.1 otherPair.2))
    group.conflict? other.conflict?
  member : ∀ leafKind nested, M (group.member leafKind nested) (other.member leafKind nested)
  below_eq_nil_iff : other.below = [] ↔ group.below = []
  layoutRecord_eq : ∀ name names,
    layoutRecord resolve name group.schemaTypeName other.below names =
      layoutRecord resolve name group.schemaTypeName group.below names

end Group

section Layout

variable {resolve : String → LeafKind} {E : CompileError → CompileError → Prop}
  {M : Member → Member → Prop} {schemaTypeName : String}

private theorem map_cons_sameOutcome {member other : Member}
    {members others : Except CompileError (List Member)} (hmember : M member other)
    (h : SameOutcome E (List.Forall₂ M) members others) :
    SameOutcome E (List.Forall₂ M) (members.map (member :: ·)) (others.map (other :: ·)) := by
  cases h with
  | error h => exact .error h
  | ok h => exact .ok (.cons hmember h)

private theorem layoutMembers_of_corresponds (hrefl : ∀ error, E error error)
    {groups others : List (Group (List Selected))}
    (h : List.Forall₂ (Group.Corresponds resolve E M schemaTypeName) groups others)
    (names : NameAllocator) :
    SameOutcome E (List.Forall₂ M) (layoutMembers resolve schemaTypeName groups names).1
        (layoutMembers resolve schemaTypeName others names).1 ∧
      (layoutMembers resolve schemaTypeName others names).2 =
        (layoutMembers resolve schemaTypeName groups names).2 := by
  induction h generalizing names with
  | nil =>
    rw [layoutMembers]
    exact ⟨.ok .nil, rfl⟩
  | @cons group other groups others hgroup _ ih =>
    have hname := hgroup.responseName_eq
    have htype := hgroup.schemaTypeName_eq
    have hconflict := hgroup.conflict
    cases hmine : group.conflict? with
    | some pair =>
      cases hother : other.conflict? with
      | none =>
        rw [hmine, hother] at hconflict
        cases hconflict
      | some otherPair =>
        rw [hmine, hother] at hconflict
        rw [layoutMembers_of_conflict resolve hmine, layoutMembers_of_conflict resolve hother, hname]
        cases hconflict with
        | some herror => exact ⟨.error herror, rfl⟩
    | none =>
      have hother : other.conflict? = none := by
        rw [hmine] at hconflict
        generalize other.conflict? = found at hconflict
        cases hconflict
        rfl
      by_cases hleaf : group.below = []
      · have hotherLeaf := hgroup.below_eq_nil_iff.mpr hleaf
        have hrest := ih names
        rw [layoutMembers_of_leaf resolve hmine hleaf,
          layoutMembers_of_leaf resolve hother hotherLeaf, htype]
        exact ⟨map_cons_sameOutcome (hgroup.member _ _) hrest.1, hrest.2⟩
      · have hotherBelow := mt hgroup.below_eq_nil_iff.mp hleaf
        rw [layoutMembers_of_composite resolve hmine hleaf,
          layoutMembers_of_composite resolve hother hotherBelow, hname, htype]
        dsimp only
        rw [hgroup.layoutRecord_eq]
        rcases layoutRecord resolve (names.allocate (capitalize group.responseName)).1
          group.schemaTypeName group.below
          (names.allocate (capitalize group.responseName)).2 with ⟨error | nested, after⟩
        · exact ⟨.error (hrefl error), rfl⟩
        · have hrest := ih after
          exact ⟨map_cons_sameOutcome (hgroup.member _ _) hrest.1, hrest.2⟩

/-- Records that were laid out over corresponding levels, each with the fragments spread at its own. -/
structure RecordType.CorrespondsOver (M : Member → Member → Prop) (left right : List Selected)
    (record other : RecordType) : Prop where
  name_eq : other.name = record.name
  schemaTypeName_eq : other.schemaTypeName = record.schemaTypeName
  members : List.Forall₂ M record.members other.members
  fragmentRefs_eq : record.fragmentRefs = firstSeen (Selected.spreadsHere.spreadsOf left)
  otherRefs_eq : other.fragmentRefs = firstSeen (Selected.spreadsHere.spreadsOf right)

/-- Corresponding levels are laid out with corresponding outcomes. -/
theorem layoutRecord_of_corresponds (hrefl : ∀ error, E error error) {left right : List Selected}
    (h : SameOutcome Eq (fun result other => List.Forall₂
        (Group.Corresponds resolve E M schemaTypeName) (Group.ofContributions result)
        (Group.ofContributions other))
      (contributions (levelVisits schemaTypeName left))
      (contributions (levelVisits schemaTypeName right)))
    (name : String) (names : NameAllocator) :
    SameOutcome E (RecordType.CorrespondsOver M left right)
        (layoutRecord resolve name schemaTypeName left names).1
        (layoutRecord resolve name schemaTypeName right names).1 ∧
      (layoutRecord resolve name schemaTypeName right names).2 =
        (layoutRecord resolve name schemaTypeName left names).2 := by
  rcases h.exists_cases with ⟨error, other, hleft, hright, rfl⟩ | ⟨result, other, hleft, hright, h⟩
  · rw [layoutRecord_of_error resolve hleft, layoutRecord_of_error resolve hright]
    exact ⟨.error (hrefl error), rfl⟩
  · have hmembers := layoutMembers_of_corresponds hrefl h names
    rw [layoutRecord_of_ok resolve hleft, layoutRecord_of_ok resolve hright]
    generalize layoutMembers resolve schemaTypeName (Group.ofContributions result) names = first
      at hmembers ⊢
    generalize layoutMembers resolve schemaTypeName (Group.ofContributions other) names = second
      at hmembers ⊢
    obtain ⟨first, after⟩ := first
    obtain ⟨second, otherAfter⟩ := second
    obtain ⟨houtcome, hafter⟩ := hmembers
    cases houtcome with
    | error herror => exact ⟨.error herror, hafter⟩
    | ok hmembers => exact ⟨.ok ⟨rfl, rfl, hmembers, rfl, rfl⟩, hafter⟩

private theorem RecordType.CorrespondsOver.eq {left right : List Selected}
    {record other : RecordType} (h : RecordType.CorrespondsOver Eq left right record other)
    (hrefs : firstSeen (Selected.spreadsHere.spreadsOf right) =
      firstSeen (Selected.spreadsHere.spreadsOf left)) : other = record := by
  obtain ⟨hname, htype, hmembers, hmine, hother⟩ := h
  rw [List.forall₂_eq_eq_eq] at hmembers
  rw [← hmine, ← hother] at hrefs
  cases record
  cases other
  simp_all

/-- Levels that correspond with equal errors and equal members, and that spread the same fragments, are
laid out alike. -/
theorem layoutRecord_eq_of_corresponds {left right : List Selected}
    (h : SameOutcome Eq (fun result other => List.Forall₂
        (Group.Corresponds resolve Eq Eq schemaTypeName) (Group.ofContributions result)
        (Group.ofContributions other))
      (contributions (levelVisits schemaTypeName left))
      (contributions (levelVisits schemaTypeName right)))
    (hrefs : firstSeen (Selected.spreadsHere.spreadsOf right) =
      firstSeen (Selected.spreadsHere.spreadsOf left)) (name : String) (names : NameAllocator) :
    layoutRecord resolve name schemaTypeName right names =
      layoutRecord resolve name schemaTypeName left names := by
  have hlayout := layoutRecord_of_corresponds (fun _ => rfl) h name names
  apply Prod.ext
  · rcases hlayout.1.exists_cases with
      ⟨error, other, hleft, hright, hsame⟩ | ⟨record, other, hleft, hright, hsame⟩
    · rw [hleft, hright, hsame]
    · rw [hleft, hright, hsame.eq hrefs]
  · exact hlayout.2

end Layout
end ResultLayout
