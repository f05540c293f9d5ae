import ResultLayout.Compile.Operation
import ResultLayout.Proofs.Compile.Names
import Mathlib.Data.List.Forall2
/-!
# Compilation of a whole document

A document fails as a whole only if its fragments share a name, spread in a cycle or spread an
undefined name. Otherwise each of its operations has an entry of its own in the report. The entry is
what compiling that operation alone gives: its result if all steps succeed, or the first error of the
steps "kind, layout, variables".
-/
namespace ResultLayout
open Relation

section Fragments

namespace Document

variable {document : Document}

def RepeatsFragment (document : Document) : Prop := ¬ (document.fragments.map (·.name)).Nodup

def SpreadsInCycle (document : Document) : Prop :=
  ∃ name, TransGen (SpreadsTo document.fragments) name name

def SpreadsUndefined (document : Document) : Prop :=
  ∃ fragment ∈ document.fragments, ∃ name, fragment.selection.Spreads name ∧
    ∀ target ∈ document.fragments, target.name ≠ name

end Document

namespace FragmentCollection

private theorem duplicates_addAll_eq_nil (collection : FragmentCollection)
    (fragments : List Fragment) : (collection.addAll fragments).2 = [] ↔
      ((collection.fragments ++ fragments).map (·.name)).Nodup := by
  induction fragments generalizing collection with
  | nil =>
    rw [List.append_nil]
    exact iff_of_true rfl collection.nodup_names
  | cons fragment rest ih =>
    rw [addAll]
    cases hfind : findFragment? collection.fragments fragment.name with
    | some first =>
      rw [add_of_old hfind]
      refine iff_of_false (by simp) ?_
      intro hnodup
      rw [List.map_append, List.nodup_append] at hnodup
      have hmem : fragment.name ∈ collection.fragments.map (·.name) := by
        by_contra hnew
        rw [findFragment?_eq_none.mpr hnew] at hfind
        cases hfind
      exact hnodup.2.2 _ hmem _ List.mem_cons_self rfl
    | none =>
      obtain ⟨grown, hadded, hgrown⟩ := add_of_new hfind
      rw [hadded]
      dsimp only
      rw [ih grown, hgrown, List.append_assoc, List.singleton_append]

private theorem duplicates_ofList_eq_nil (fragments : List Fragment) :
    (ofList fragments).2 = [] ↔ (fragments.map (·.name)).Nodup :=
  duplicates_addAll_eq_nil .empty fragments

private theorem fragments_ofList_of_no_duplicates {fragments : List Fragment}
    (h : (ofList fragments).2 = []) : (ofList fragments).1.fragments = fragments := by
  rw [fragments_ofList, firstOfEach_eq_self ((duplicates_ofList_eq_nil fragments).mp h)]

end FragmentCollection

namespace Document

variable {document : Document} {collection : FragmentCollection}

private theorem spreadsAcyclic_iff (h : collection.fragments = document.fragments) :
    collection.SpreadsAcyclic ↔ ¬ document.SpreadsInCycle := by
  rw [FragmentCollection.SpreadsAcyclic, SpreadsInCycle, h, not_exists]

private theorem spreadsDefined_iff (h : collection.fragments = document.fragments) :
    collection.SpreadsDefined ↔ ¬ document.SpreadsUndefined := by
  simp only [FragmentCollection.SpreadsDefined, SpreadsUndefined, h, not_exists, not_and, not_forall,
    not_not, exists_prop]

private theorem registry_eq_ok_iff {registry : FragmentRegistry} :
    FragmentRegistry.ofFragments document.fragments = .ok registry ↔
      registry.fragments = document.fragments ∧ ¬ document.RepeatsFragment ∧
        ¬ document.SpreadsInCycle ∧ ¬ document.SpreadsUndefined := by
  have hdistinct := FragmentCollection.duplicates_ofList_eq_nil document.fragments
  have hcollected := @FragmentCollection.fragments_ofList_of_no_duplicates document.fragments
  rw [FragmentRegistry.ofFragments, RepeatsFragment, not_not, ← hdistinct]
  cases hlist : FragmentCollection.ofList document.fragments with
  | mk collection duplicates =>
    rw [hlist] at hcollected
    cases duplicates with
    | nil =>
      have hfragments := hcollected rfl
      rw [← spreadsAcyclic_iff hfragments, ← spreadsDefined_iff hfragments, ← hfragments,
        ← FragmentCollection.cycleErrors_eq_nil, ← FragmentCollection.undefinedSpreadErrors_eq_nil,
        and_iff_right rfl]
      exact FragmentCollection.build_eq_ok_iff
    | cons duplicate duplicates =>
      refine iff_of_false (by simp) ?_
      rintro ⟨-, hnone, -⟩
      cases hnone

end Document
end Fragments

section Steps

private theorem OperationKind.ofName?_eq_some_iff {name : String} {kind : OperationKind} :
    ofName? name = some kind ↔ name = kind.name := by
  constructor
  · intro h
    rw [ofName?] at h
    have hname := List.find?_some h
    exact (beq_iff_eq.mp hname).symm
  · rintro rfl
    exact ofName?_name kind

private theorem OperationKind.ofName?_eq_none_iff {name : String} :
    ofName? name = none ↔ name ∉ ["mutation", "query", "subscription"] := by
  rw [ofName?, List.find?_eq_none]
  simp [all, OperationKind.name, @eq_comm _ name]

private theorem Operation.kind_eq_ok_iff {operation : Operation} {kind : OperationKind} :
    operation.kind = .ok kind ↔ operation.kindName = kind.name := by
  rw [← OperationKind.ofName?_eq_some_iff, Operation.kind, kind?]
  cases OperationKind.ofName? operation.kindName <;> simp

private theorem Operation.kind_eq_error_iff {operation : Operation} {error : CompileError} :
    operation.kind = .error error ↔
      operation.kindName ∉ ["mutation", "query", "subscription"] ∧
        error = .unknownOperationKind operation.name operation.kindName operation.location := by
  rw [← OperationKind.ofName?_eq_none_iff, Operation.kind, kind?]
  cases OperationKind.ofName? operation.kindName <;> simp [eq_comm]

private theorem Variable.typed_eq_ok_iff {declared : Variable} {typed : TypedVariable} :
    declared.typed = .ok typed ↔
      typed.name = declared.name ∧ TypeRef.parse declared.typeText = .ok typed.type := by
  obtain ⟨name, type⟩ := typed
  rw [Variable.typed]
  cases TypeRef.parse declared.typeText <;> simp [eq_comm]

private theorem Variable.typed_eq_error_iff {declared : Variable} {error : CompileError} :
    declared.typed = .error error ↔ ∃ cause, TypeRef.parse declared.typeText = .error cause ∧
      error = .malformedType ("$" ++ declared.name) cause := by
  rw [Variable.typed]
  cases TypeRef.parse declared.typeText <;> simp [eq_comm]

private theorem typedVariables_eq_ok_iff {declarations : List Variable}
    {types : List TypedVariable} :
    typedVariables declarations = .ok types ↔
      List.Forall₂ (fun declared typed => declared.typed = .ok typed) declarations types := by
  induction declarations generalizing types with
  | nil => rw [typedVariables, List.forall₂_nil_left_iff, Except.ok.injEq, eq_comm]
  | cons declared rest ih =>
    rw [typedVariables, List.forall₂_cons_left_iff]
    constructor
    · intro h
      cases htyped : declared.typed with
      | error error =>
        rw [htyped] at h
        cases h
      | ok typed =>
        cases hrest : typedVariables rest with
        | error error =>
          rw [htyped, hrest] at h
          cases h
        | ok others =>
          rw [htyped, hrest] at h
          exact ⟨typed, others, rfl, ih.mp hrest, (Except.ok.inj h).symm⟩
    · rintro ⟨typed, others, htyped, hothers, rfl⟩
      rw [htyped, ih.mpr hothers]
      rfl

private theorem typedVariables_eq_error_iff {declarations : List Variable} {error : CompileError} :
    typedVariables declarations = .error error ↔
      ∃ earlier declared later, declarations = earlier ++ declared :: later ∧
        (∀ other ∈ earlier, ∃ typed, other.typed = .ok typed) ∧ declared.typed = .error error := by
  induction declarations with
  | nil => simp [typedVariables]
  | cons first rest ih =>
    rw [typedVariables]
    cases htyped : first.typed with
    | error cause =>
      constructor
      · intro h
        obtain rfl := Except.error.inj h
        exact ⟨[], first, rest, rfl, by simp, htyped⟩
      · rintro ⟨earlier, declared, later, hsplit, hearlier, herror⟩
        cases earlier with
        | nil =>
          obtain ⟨rfl, -⟩ := List.cons.inj hsplit
          rw [htyped] at herror
          obtain rfl := Except.error.inj herror
          rfl
        | cons other earlier =>
          obtain ⟨rfl, -⟩ := List.cons.inj hsplit
          obtain ⟨typed, htypedFirst⟩ := hearlier first List.mem_cons_self
          rw [htyped] at htypedFirst
          cases htypedFirst
    | ok typed =>
      have hmap : (typedVariables rest).map (typed :: ·) = .error error ↔
          typedVariables rest = .error error := by
        cases typedVariables rest <;> simp [Except.map]
      dsimp only
      rw [hmap, ih]
      constructor
      · rintro ⟨earlier, declared, later, rfl, hearlier, herror⟩
        refine ⟨first :: earlier, declared, later, rfl, ?_, herror⟩
        intro other hother
        rcases List.mem_cons.mp hother with rfl | hother
        · exact ⟨typed, htyped⟩
        · exact hearlier other hother
      · rintro ⟨earlier, declared, later, hsplit, hearlier, herror⟩
        cases earlier with
        | nil =>
          obtain ⟨rfl, -⟩ := List.cons.inj hsplit
          rw [htyped] at herror
          cases herror
        | cons other earlier =>
          obtain ⟨-, rfl⟩ := List.cons.inj hsplit
          refine ⟨earlier, declared, later, rfl, ?_, herror⟩
          intro other hother
          exact hearlier other (List.mem_cons_of_mem _ hother)

end Steps
section Entries

namespace Compiler

variable {compiler : Compiler} {operation : Operation}

/-- The layout of an operation of the kind. No name is taken but those that the operation itself
reserves. -/
def dataLayout (compiler : Compiler) (operation : Operation) (kind : OperationKind) :
    Except CompileError RecordType :=
  (layoutData compiler.registry compiler.resolver kind.suffix ⟨operation.fields, [], []⟩
    operation.reservedNames).1

/-- All steps succeed, and the result holds what they give and what the operation brings along. -/
structure Compiles (compiler : Compiler) (operation : Operation) (result : ResultType) : Prop where
  kind : operation.kindName = result.kind.name
  data : compiler.dataLayout operation result.kind = .ok result.data
  variableTypes : List.Forall₂ (fun declared typed => typed.name = declared.name ∧
    TypeRef.parse declared.typeText = .ok typed.type)
    operation.variableDefinitions result.variableDefinitions
  operationName : result.operationName =
    operation.nameAs result.kind compiler.settings.useSemanticNaming
  conformsTo : result.conformsTo = [.operationData]
  withBuilder : result.withBuilder = compiler.settings.generateModelBuilder
  sourceText : result.sourceText = operation.source
  provenance : result.provenance =
    ⟨operation.operationId, operation.filePath, operation.fragmentsReferenced⟩

/-- The error of the first step that fails. -/
inductive FirstError (compiler : Compiler) (operation : Operation) : CompileError → Prop
  | kind (hkind : operation.kindName ∉ ["mutation", "query", "subscription"]) :
    FirstError compiler operation
      (.unknownOperationKind operation.name operation.kindName operation.location)
  | layout {kind : OperationKind} {error : CompileError} (hkind : operation.kindName = kind.name)
    (hdata : compiler.dataLayout operation kind = .error error) :
    FirstError compiler operation error
  | variableType {kind : OperationKind} {data : RecordType} {earlier later : List Variable}
    {declared : Variable} {cause : TypeRefError} (hkind : operation.kindName = kind.name)
    (hdata : compiler.dataLayout operation kind = .ok data)
    (hdeclared : operation.variableDefinitions = earlier ++ declared :: later)
    (hearlier : ∀ other ∈ earlier, ∃ type, TypeRef.parse other.typeText = .ok type)
    (hcause : TypeRef.parse declared.typeText = .error cause) :
    FirstError compiler operation (.malformedType ("$" ++ declared.name) cause)

theorem compile_eq_ok_iff {result : ResultType} :
    compiler.compile operation = .ok result ↔ compiler.Compiles operation result := by
  constructor
  · intro h
    rw [compile] at h
    split at h
    next => cases h
    next kind hkind =>
      split at h
      next => cases h
      next data hdata =>
        split at h
        next => cases h
        next types htypes =>
          obtain rfl := Except.ok.inj h
          have htyped := (typedVariables_eq_ok_iff.mp htypes).imp
            fun _ _ => Variable.typed_eq_ok_iff.mp
          exact ⟨Operation.kind_eq_ok_iff.mp hkind, hdata, htyped, rfl, rfl, rfl, rfl, rfl⟩
  · intro h
    obtain ⟨operationName, kind, data, conformsTo, withBuilder, types, sourceText, provenance⟩ :=
      result
    obtain ⟨hkind, hdata, htyped, hname, hconforms, hbuilder, hsource, hprovenance⟩ := h
    dsimp only at hkind hdata htyped hname hconforms hbuilder hsource hprovenance
    subst hname hconforms hbuilder hsource hprovenance
    have htypes := typedVariables_eq_ok_iff.mpr
      (htyped.imp fun _ _ => Variable.typed_eq_ok_iff.mpr)
    rw [dataLayout] at hdata
    rw [compile, Operation.kind_eq_ok_iff.mpr hkind]
    simp only [hdata, htypes]

private theorem compile_eq_error_iff {error : CompileError} :
    compiler.compile operation = .error error ↔ compiler.FirstError operation error := by
  constructor
  · intro h
    rw [compile] at h
    split at h
    next cause hkind =>
      obtain rfl := Except.error.inj h
      obtain ⟨hunknown, rfl⟩ := Operation.kind_eq_error_iff.mp hkind
      exact .kind hunknown
    next kind hkind =>
      have hname := Operation.kind_eq_ok_iff.mp hkind
      split at h
      next cause hdata =>
        obtain rfl := Except.error.inj h
        exact .layout hname hdata
      next data hdata =>
        split at h
        next cause htypes =>
          obtain rfl := Except.error.inj h
          obtain ⟨earlier, declared, later, hdeclared, hearlier, hfirst⟩ :=
            typedVariables_eq_error_iff.mp htypes
          obtain ⟨cause, hcause, rfl⟩ := Variable.typed_eq_error_iff.mp hfirst
          refine .variableType hname hdata hdeclared ?_ hcause
          intro other hother
          obtain ⟨typed, htyped⟩ := hearlier other hother
          exact ⟨_, (Variable.typed_eq_ok_iff.mp htyped).2⟩
        next => cases h
  · intro h
    cases h with
    | kind hunknown =>
      rw [compile, Operation.kind_eq_error_iff.mpr ⟨hunknown, rfl⟩]
    | layout hkind hdata =>
      rw [dataLayout] at hdata
      rw [compile, Operation.kind_eq_ok_iff.mpr hkind]
      simp only [hdata]
    | @variableType kind data earlier later declared cause hkind hdata hdeclared hearlier hcause =>
      have htypes : typedVariables operation.variableDefinitions =
          .error (.malformedType ("$" ++ declared.name) cause) := by
        refine typedVariables_eq_error_iff.mpr ⟨earlier, declared, later, hdeclared, ?_, ?_⟩
        · intro other hother
          obtain ⟨type, htype⟩ := hearlier other hother
          exact ⟨⟨other.name, type⟩, Variable.typed_eq_ok_iff.mpr ⟨rfl, htype⟩⟩
        · exact Variable.typed_eq_error_iff.mpr ⟨cause, hcause, rfl⟩
      rw [dataLayout] at hdata
      rw [compile, Operation.kind_eq_ok_iff.mpr hkind]
      simp only [hdata, htypes]

/-- What the operation contributes to a report. -/
def entry (compiler : Compiler) (operation : Operation) : Except OperationFailure ResultType :=
  (compiler.compile operation).mapError fun error => ⟨operation.filePath, operation.name, error⟩

private theorem entry_eq_ok_iff {result : ResultType} :
    compiler.entry operation = .ok result ↔ compiler.Compiles operation result := by
  rw [← compile_eq_ok_iff, entry]
  cases compiler.compile operation <;> simp [Except.mapError]

private theorem entry_eq_error_iff {failure : OperationFailure} :
    compiler.entry operation = .error failure ↔
      failure.filePath = operation.filePath ∧ failure.operationName = operation.name ∧
        compiler.FirstError operation failure.error := by
  obtain ⟨filePath, operationName, error⟩ := failure
  rw [← compile_eq_error_iff, entry]
  cases compiler.compile operation <;> simp [Except.mapError, eq_comm]

end Compiler

namespace Report

/-- The report with the given entries, results and failures apart. -/
def ofEntries (entries : List (Except OperationFailure ResultType)) : Report where
  generated := entries.filterMap fun
    | .ok result => some result
    | .error _ => none
  failures := entries.filterMap fun
    | .ok _ => none
    | .error failure => some failure

/-- Both lists of the one report before those of the other. -/
protected def append (first second : Report) : Report where
  generated := first.generated ++ second.generated
  failures := first.failures ++ second.failures

instance : Append Report := ⟨Report.append⟩

private theorem ofEntries_append (first second : List (Except OperationFailure ResultType)) :
    ofEntries (first ++ second) = ofEntries first ++ ofEntries second := by
  simp only [ofEntries, List.filterMap_append]
  rfl

end Report

theorem Compiler.compileAll_eq_ofEntries (compiler : Compiler) (operations : List Operation) :
    compiler.compileAll operations = .ofEntries (operations.map compiler.entry) := by
  induction operations with
  | nil => rfl
  | cons operation rest ih =>
    rw [compileAll, ih, List.map_cons, entry]
    cases compiler.compile operation <;> rfl

end Entries

/-- A document is refused exactly if two of its fragments share a name, its fragments spread in a
cycle, or one of them spreads an undefined name. Otherwise the report of its operations, whatever these
are, has one entry for each of them, in their order; the entry of an operation is determined by the
operation and the compiler alone. It is the result if all steps succeed, and otherwise names the
operation and its file and has the error of the first step that fails. -/
theorem Document.compile_isolates_failures (document : Document) (settings : Settings) :
    ((∃ errors, document.compile settings = .error errors) ↔
      document.RepeatsFragment ∨ document.SpreadsInCycle ∨ document.SpreadsUndefined) ∧
    (¬ (document.RepeatsFragment ∨ document.SpreadsInCycle ∨ document.SpreadsUndefined) →
      ∀ operations, { document with operations }.compile settings =
        .ok ((Compiler.ofRegistry settings document ⟨document.fragments⟩).compileAll operations)) ∧
    ∀ compiler : Compiler,
      (∀ operations, compiler.compileAll operations = .ofEntries (operations.map compiler.entry)) ∧
      (∀ first second, compiler.compileAll (first ++ second) =
        compiler.compileAll first ++ compiler.compileAll second) ∧
      ∀ operation,
        (∀ result, compiler.entry operation = .ok result ↔ compiler.Compiles operation result) ∧
        ∀ failure, compiler.entry operation = .error failure ↔
          failure.filePath = operation.filePath ∧ failure.operationName = operation.name ∧
            compiler.FirstError operation failure.error := by
  have hregistry := @registry_eq_ok_iff document ⟨document.fragments⟩
  rw [and_iff_right rfl, ← not_or, ← not_or] at hregistry
  refine ⟨?_, ?_, ?_⟩
  · constructor
    · rintro ⟨errors, herrors⟩
      by_contra hsound
      rw [Document.compile, hregistry.mpr hsound] at herrors
      cases herrors
    · intro hdefect
      cases hchecked : FragmentRegistry.ofFragments document.fragments with
      | error errors =>
        refine ⟨errors, ?_⟩
        rw [Document.compile, hchecked]
        rfl
      | ok registry =>
        obtain ⟨-, hdistinct, hacyclic, hdefined⟩ := registry_eq_ok_iff.mp hchecked
        rcases hdefect with hrepeats | hcycle | hundefined
        · exact absurd hrepeats hdistinct
        · exact absurd hcycle hacyclic
        · exact absurd hundefined hdefined
  · intro hsound operations
    rw [Document.compile, hregistry.mpr hsound]
    rfl
  · intro compiler
    refine ⟨compiler.compileAll_eq_ofEntries, ?_, ?_⟩
    · intro first second
      simp only [compiler.compileAll_eq_ofEntries, List.map_append, Report.ofEntries_append]
    · intro operation
      exact ⟨fun result => Compiler.entry_eq_ok_iff, fun failure => Compiler.entry_eq_error_iff⟩

/-- The viewer's operation behind one whose kind is misspelled. -/
def viewerDocument : Document where
  operations := [{ name := "Users", kindName := "Query" }, viewerOperation]
  fragments := viewerFragments.fragments

theorem compile_viewer_behind_misspelled :
    ¬ (viewerDocument.RepeatsFragment ∨ viewerDocument.SpreadsInCycle ∨
      viewerDocument.SpreadsUndefined) ∧
    ∃ result, viewerCompiler.Compiles viewerOperation result ∧
      viewerDocument.compile {} =
        .ok ⟨[result], [⟨"", "Users", .unknownOperationKind "Users" "Query" .unknown⟩]⟩ := by
  have hchecked : FragmentRegistry.ofFragments viewerDocument.fragments =
      .ok ⟨viewerDocument.fragments⟩ := by
    have hbuild : viewerFragments.build = .ok ⟨viewerFragments.fragments⟩ :=
      FragmentCollection.build_eq_ok_iff.mpr ⟨rfl, by decide +kernel, by decide +kernel⟩
    exact hbuild
  obtain ⟨-, hdistinct, hacyclic, hdefined⟩ := Document.registry_eq_ok_iff.mp hchecked
  have hsound := not_or.mpr ⟨hdistinct, not_or.mpr ⟨hacyclic, hdefined⟩⟩
  refine ⟨hsound, ?_⟩
  obtain ⟨-, hcompiled, hentries⟩ := Document.compile_isolates_failures viewerDocument {}
  obtain ⟨hall, -, hentry⟩ := hentries viewerCompiler
  have hok : (viewerCompiler.compile viewerOperation).isOk = true := by decide +kernel
  cases hviewer : viewerCompiler.compile viewerOperation with
  | error error =>
    rw [hviewer] at hok
    cases hok
  | ok result =>
    have hresult : viewerCompiler.entry viewerOperation = .ok result := by
      rw [Compiler.entry, hviewer]
      rfl
    refine ⟨result, ((hentry viewerOperation).1 result).mp hresult, ?_⟩
    calc viewerDocument.compile {}
      _ = .ok (viewerCompiler.compileAll viewerDocument.operations) := hcompiled hsound _
      _ = _ := by
        rw [hall, viewerDocument, List.map_cons, List.map_cons, hresult]
        rfl

end ResultLayout
