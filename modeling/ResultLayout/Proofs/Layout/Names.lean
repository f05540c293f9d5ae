import ResultLayout.Proofs.Layout.Preorder
/-!
# Names of records

All nested records laid out with one allocator have different names. A layout hands out the name of a
nested record before those of the records below it, and names stay taken whether the layout succeeds
or not. A name that a step takes as it stands is therefore never handed out to a nested record later;
it may only equal another such name or one that was handed out earlier.
-/
namespace ResultLayout

/-- What a result holds, if it is one. -/
def namesIn {α : Type} (names : α → List String) : Except CompileError α → List String
  | .ok result => names result
  | .error _ => []

section Layout

open NameAllocator

private theorem handsOut_layoutRecord (resolve : String → LeafKind) (name schemaTypeName : String)
    (selections : List Selected) (names : NameAllocator) :
    names.HandsOut (layoutRecord resolve name schemaTypeName selections names).2
      (namesIn RecordType.nestedNames
        (layoutRecord resolve name schemaTypeName selections names).1) := by
  obtain ⟨bases, given, hnames, hgiven⟩ :=
    allocatesInPreorder_layoutRecord resolve name schemaTypeName selections names
  have hhanded := names.handsOut_allocateAll bases
  rw [hnames] at hhanded
  cases hrecord : (layoutRecord resolve name schemaTypeName selections names).1 with
  | error error => exact hhanded.forget
  | ok record =>
    obtain ⟨-, rfl⟩ := hgiven record hrecord
    simpa only [namesIn, record.nestedNames_eq] using hhanded

end Layout

/-- What can be asked of one builder of records. -/
inductive LayoutStep where
  | reserve (name : String)
  | data (schemaTypeName : String) (selection : SelectionSet)
  | root (name schemaTypeName : String) (selection : SelectionSet)

namespace LayoutStep

/-- The name that a step takes as it stands. -/
def ownName : LayoutStep → String
  | reserve name => name
  | data _ _ => dataRecordName
  | root name _ _ => name

/-- The layout of a step that asks for one, and the names after the step. -/
def run (registry : FragmentRegistry) (resolve : String → LeafKind) :
    LayoutStep → NameAllocator → Option (Except CompileError RecordType) × NameAllocator
  | reserve name, names => (none, names.reserve name)
  | data schemaTypeName selection, names =>
    let (result, names) := layoutData registry resolve schemaTypeName selection names
    (some result, names)
  | root name schemaTypeName selection, names =>
    let (result, names) := layoutRoot registry resolve name schemaTypeName selection names
    (some result, names)

/-- The layouts of steps that follow each other. -/
def runAll (registry : FragmentRegistry) (resolve : String → LeafKind) :
    List LayoutStep → NameAllocator → List (Option (Except CompileError RecordType))
  | [], _ => []
  | step :: steps, names =>
    let (result, names) := step.run registry resolve names
    result :: runAll registry resolve steps names

/-- A step takes its own name before it hands out others. -/
theorem handsOut_run (registry : FragmentRegistry) (resolve : String → LeafKind)
    (step : LayoutStep) (names : NameAllocator) :
    (names.reserve step.ownName).HandsOut (step.run registry resolve names).2
      ((step.run registry resolve names).1.elim [] (namesIn RecordType.nestedNames)) := by
  cases step with
  | reserve name => exact .none_of_subset (List.Subset.refl _)
  | data schemaTypeName selection => exact handsOut_layoutRecord resolve _ _ _ _
  | root name schemaTypeName selection => exact handsOut_layoutRecord resolve _ _ _ _

variable {registry : FragmentRegistry} {resolve : String → LeafKind}

private theorem nestedNames_of_runAll {steps : List LayoutStep} {names : NameAllocator} {i : Nat}
    {record : RecordType} (h : (runAll registry resolve steps names)[i]? = some (some (.ok record))) :
    record.nestedNames.Nodup ∧ ∀ name ∈ record.nestedNames, name ∉ names.taken ∧
      (∀ j ≤ i, ∀ step, steps[j]? = some step → name ≠ step.ownName) ∧
      ∀ j < i, ∀ other, (runAll registry resolve steps names)[j]? = some (some (.ok other)) →
        name ∉ other.nestedNames := by
  induction steps generalizing names i with
  | nil => cases h
  | cons step steps ih =>
    have hstep := handsOut_run registry resolve step names
    have hown : step.ownName ∈ (step.run registry resolve names).2.taken :=
      hstep.keeps (NameAllocator.mem_reserve.mpr (Or.inl rfl))
    have hkeeps : names.taken ⊆ (step.run registry resolve names).2.taken :=
      fun _ hold => hstep.keeps (NameAllocator.mem_reserve.mpr (Or.inr hold))
    cases i with
    | zero =>
      have hresult : (step.run registry resolve names).1 = some (.ok record) := Option.some.inj h
      rw [hresult] at hstep
      refine ⟨hstep.nodup, ?_⟩
      intro name hname
      have hfresh := hstep.fresh name hname
      rw [NameAllocator.mem_reserve, not_or] at hfresh
      refine ⟨hfresh.2, ?_, ?_⟩
      · intro j hj other hother
        obtain rfl := Nat.le_zero.mp hj
        obtain rfl := Option.some.inj hother
        exact hfresh.1
      · intro j hj
        exact absurd hj (Nat.not_lt_zero j)
    | succ i =>
      have hrest : (runAll registry resolve steps (step.run registry resolve names).2)[i]? =
          some (some (.ok record)) := h
      obtain ⟨hnodup, hnames⟩ := ih hrest
      refine ⟨hnodup, ?_⟩
      intro name hname
      obtain ⟨hfresh, howns, hothers⟩ := hnames name hname
      refine ⟨fun hold => hfresh (hkeeps hold), ?_, ?_⟩
      · intro j hj other hother
        cases j with
        | zero =>
          obtain rfl := Option.some.inj hother
          rintro rfl
          exact hfresh hown
        | succ j => exact howns j (Nat.le_of_succ_le_succ hj) other hother
      · intro j hj other hother
        cases j with
        | zero =>
          have hresult : (step.run registry resolve names).1 = some (.ok other) :=
            Option.some.inj hother
          rw [hresult] at hstep
          exact fun hgiven => hfresh (hstep.taken name hgiven)
        | succ j => exact hothers j (Nat.lt_of_succ_lt_succ hj) other hother

/-- The step at the position lays out the record. -/
def Builds (registry : FragmentRegistry) (resolve : String → LeafKind) (steps : List LayoutStep)
    (i : Nat) (record : RecordType) : Prop :=
  (runAll registry resolve steps .initial)[i]? = some (some (.ok record))

theorem Builds.names_distinct {steps : List LayoutStep} {i : Nat} {record : RecordType}
    (h : Builds registry resolve steps i record) :
    record.nestedNames.Nodup ∧ ∀ name ∈ record.nestedNames, name ≠ dataRecordName ∧
      (∀ j ≤ i, ∀ step, steps[j]? = some step → name ≠ step.ownName) ∧
      ∀ j other, j ≠ i → Builds registry resolve steps j other → name ∉ other.nestedNames := by
  obtain ⟨hnodup, hnames⟩ := nestedNames_of_runAll h
  refine ⟨hnodup, ?_⟩
  intro name hname
  obtain ⟨hfresh, howns, hothers⟩ := hnames name hname
  refine ⟨?_, howns, ?_⟩
  · rintro rfl
    exact hfresh (NameAllocator.mem_reserve.mpr (Or.inl rfl))
  · intro j other hj hother
    rcases Nat.lt_or_gt_of_ne hj with hbefore | hafter
    · exact hothers j hbefore other hother
    · intro hshared
      obtain ⟨-, hlater⟩ := nestedNames_of_runAll hother
      exact (hlater name hshared).2.2 i hafter record h hname

end LayoutStep

end ResultLayout
