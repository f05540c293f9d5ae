import ResultLayout.Command.Run
import ResultLayout.Proofs.Command.Tasks
import ResultLayout.Proofs.Compile.Batch
import ResultLayout.Proofs.Json.Printing
import Mathlib.Data.List.Forall2
/-!
# Accounting for files

A run of the compile command accounts for every file that it finds. A file that cannot be loaded is a
line, and so is each thing that is wrong with its fragments; otherwise each operation of the file is a
result or a line. The results are printed as one array, the lines one under the other behind a line
that counts them. Nothing else is printed, and the run succeeds exactly if there is no line.
-/
namespace ResultLayout
open Relation

namespace FileTree

variable {tree other : FileTree} {wording : LoadWording} {settings : Settings} {path : String}
  {report : FileReport}

/-- What a file contributes to the results and to the lines about failures. Lines about a file as a
whole start with its path; lines about operations start with what the operations say themselves. What
is wrong with a text that is no JSON, and where, is said in the words of the reader of JSON. -/
inductive Contributes (tree : FileTree) (wording : LoadWording) (settings : Settings)
    (path : String) : FileReport → Prop
  | unreadable {error : ReadError} (hread : tree.readText path = .error error) :
    Contributes tree wording settings path ⟨[], [path ++ ": " ++
      ("Failure while trying to read an IR file from disk: " ++ error.message)]⟩
  | malformed {text : String} {fault : Fault} (hread : tree.readText path = .ok text)
    (hparse : Document.parse text = .error fault) (hform : fault.category ≠ .data) :
    Contributes tree wording settings path ⟨[], [path ++ ": " ++
      ("Error parsing IR document at " ++ path ++ ": " ++
        (wording.document.form text fault ++ wording.document.place text fault))]⟩
  | unsuitable {text : String} {fault : Fault} (hread : tree.readText path = .ok text)
    (hparse : Document.parse text = .error fault) (hdata : fault.category = .data) :
    Contributes tree wording settings path ⟨[], [path ++ ": " ++
      ("Error parsing IR document at " ++ path ++ ": " ++
        (fault.message ++ wording.document.place text fault))]⟩
  | unregistered {text : String} {document : Document} {errors : List RegistryError}
    (hread : tree.readText path = .ok text) (hparse : Document.parse text = .ok document)
    (herrors : FragmentRegistry.ofFragments document.fragments = .error errors) :
    Contributes tree wording settings path
      ⟨[], errors.map fun error => path ++ ": " ++ error.message⟩
  | compiled {text : String} {document : Document} {registry : FragmentRegistry}
    {entries : List (Except OperationFailure ResultType)}
    (hread : tree.readText path = .ok text) (hparse : Document.parse text = .ok document)
    (hregistry : FragmentRegistry.ofFragments document.fragments = .ok registry)
    (hentries : entries =
      document.operations.map (Compiler.ofRegistry settings document registry).entry) :
    Contributes tree wording settings path
      ⟨(Report.ofEntries entries).generated, (Report.ofEntries entries).failures.map fun failure =>
        (if failure.filePath = "" then "<unknown file>" else failure.filePath) ++ ": " ++
          failure.operationName ++ ": " ++ failure.error.message⟩

private theorem contributes_contribution (tree : FileTree) (wording : LoadWording)
    (settings : Settings) (path : String) :
    tree.Contributes wording settings path (tree.contribution wording settings path) := by
  cases hread : tree.readText path with
  | error error =>
    have hload : tree.loadDocument path = .error (.unreadable error) := by
      rw [loadDocument, load, hread]
    rw [contribution, compileFile, hload]
    exact .unreadable hread
  | ok text =>
    cases hparse : Document.parse text with
    | error fault =>
      have hload : tree.loadDocument path = .error (.faulty (some path) fault) := by
        rw [loadDocument, load, hread]
        dsimp only
        rw [hparse]
      have htold : tree.describe wording.document (some path) fault =
          wording.document.tell text fault := by
        rw [describe, Option.map_some, hread]
      have hline : tree.Contributes wording settings path ⟨[], [path ++ ": " ++
          ("Error parsing IR document at " ++ path ++ ": " ++
            wording.document.tell text fault)]⟩ := by
        rw [FaultWording.tell]
        cases hcategory : fault.category with
        | data => exact .unsuitable hread hparse hcategory
        | eof => exact .malformed hread hparse (by simp [hcategory])
        | syntaxFault => exact .malformed hread hparse (by simp [hcategory])
      rw [← htold] at hline
      rw [contribution, compileFile, hload]
      exact hline
    | ok document =>
      have hload : tree.loadDocument path = .ok document := by
        rw [loadDocument, load, hread]
        dsimp only
        rw [hparse]
      rw [contribution, compileFile, hload]
      dsimp only
      rw [Document.compile]
      cases hregistry : FragmentRegistry.ofFragments document.fragments with
      | error errors =>
        simp only [Except.map, Except.mapError, FileReport.ofFile, List.map_map]
        exact .unregistered hread hparse hregistry
      | ok registry =>
        simp only [Except.map, Except.mapError, FileReport.ofFile, Compiler.compileAll_eq_ofEntries]
        exact .compiled hread hparse hregistry rfl

theorem contributes_iff :
    tree.Contributes wording settings path report ↔
      report = tree.contribution wording settings path := by
  constructor
  · intro h
    have hfile := contributes_contribution tree wording settings path
    generalize tree.contribution wording settings path = mine at hfile
    cases h <;> cases hfile <;> simp_all
  · rintro rfl
    exact contributes_contribution tree wording settings path

/-- A file whose text is the same contributes the same, whatever else is in the two trees. -/
theorem Contributes.congr (h : tree.Contributes wording settings path report)
    (hread : other.readText path = tree.readText path) :
    other.Contributes wording settings path report := by
  cases h with
  | unreadable htext => exact .unreadable (hread.trans htext)
  | malformed htext hparse hform => exact .malformed (hread.trans htext) hparse hform
  | unsuitable htext hparse hdata => exact .unsuitable (hread.trans htext) hparse hdata
  | unregistered htext hparse herrors => exact .unregistered (hread.trans htext) hparse herrors
  | compiled htext hparse hregistry hentries =>
    exact .compiled (hread.trans htext) hparse hregistry hentries

end FileTree

namespace CompileCommand

variable {tree : FileTree} {settings : Settings}

end CompileCommand

namespace FileTree

namespace InRoot

variable {tree : FileTree} {entries : List (String × FileNode)} {name : String}
  {text : Option String}

end InRoot
end FileTree

section Run

variable {tree : FileTree} {wording : LoadWording} {options : CompileOptions} {settings : Settings}
  {arguments : List String} {verbose : Bool}

end Run
end ResultLayout
