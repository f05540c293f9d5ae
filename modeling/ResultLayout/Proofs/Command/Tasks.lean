import ResultLayout.Command.Compile
import Mathlib.Logic.Relation
/-!
# Files compiled at the same time

Each file is compiled by a task of its own. Tasks run side by side and finish in any order; what they
give is collected in the order of the files. So what is collected in the end does not depend on the
order in which tasks finish, and it is what compiling one file after the other gives.

The invariant of a run is that what is collected already, with what the other files will contribute
behind it, is the total. Each step keeps it.
-/
namespace ResultLayout
open Relation

namespace FileReport

protected def append (first second : FileReport) : FileReport :=
  ⟨first.generated ++ second.generated, first.failures ++ second.failures⟩

instance : Append FileReport := ⟨FileReport.append⟩

/-- What several files contribute, one after the other. -/
def joined (reports : List FileReport) : FileReport :=
  ⟨reports.flatMap (·.generated), reports.flatMap (·.failures)⟩

private theorem append_joined_cons (report first : FileReport) (rest : List FileReport) :
    report ++ joined (first :: rest) = (report ++ first) ++ joined rest := by
  change FileReport.append report _ = FileReport.append (FileReport.append report first) _
  simp [FileReport.append, joined]

end FileReport

/-- What a file contributes to the result of the command. -/
def FileTree.contribution (tree : FileTree) (wording : LoadWording) (settings : Settings)
    (path : String) : FileReport :=
  .ofFile path (tree.compileFile wording settings path)

/-- What a run of the command reports: what went wrong while looking for files, and what each file
contributes, in their order. -/
def CompileCommand.total (tree : FileTree) (wording : LoadWording) (settings : Settings)
    (discovery : Discovery) : FileReport :=
  ⟨[], discovery.failures⟩ ++
    FileReport.joined (discovery.paths.map (tree.contribution wording settings))

theorem CompileCommand.total_eq (tree : FileTree) (wording : LoadWording) (settings : Settings)
    (discovery : Discovery) :
    total tree wording settings discovery =
      ⟨(discovery.paths.map (tree.contribution wording settings)).flatMap (·.generated),
        discovery.failures ++
          (discovery.paths.map (tree.contribution wording settings)).flatMap (·.failures)⟩ := rfl

/-- The files whose outcome has not been collected, in their order, each with the outcome if its task
has finished, and what was collected of the others. -/
structure FileTasks where
  waiting : List (String × Option (Except (List String) Report))
  collected : FileReport

namespace FileTasks

/-- All tasks run; what went wrong while looking for files is known. -/
def start (discovery : CompileCommand.Discovery) : FileTasks where
  waiting := discovery.paths.map fun path => (path, none)
  collected := ⟨[], discovery.failures⟩

/-- One task finishes, whichever it is, or the outcome of the first file is collected. -/
inductive Step (tree : FileTree) (wording : LoadWording) (settings : Settings) :
    FileTasks → FileTasks → Prop
  | finish (before after : List (String × Option (Except (List String) Report))) (path : String)
    (collected : FileReport) :
    Step tree wording settings ⟨before ++ (path, none) :: after, collected⟩
      ⟨before ++ (path, some (tree.compileFile wording settings path)) :: after, collected⟩
  | collect (path : String) (outcome : Except (List String) Report)
    (rest : List (String × Option (Except (List String) Report))) (collected : FileReport) :
    Step tree wording settings ⟨(path, some outcome) :: rest, collected⟩
      ⟨rest, collected ++ FileReport.ofFile path outcome⟩

/-- The tasks have finished with the outcomes of their files, and the total is what is collected with
the contributions of the files that are not. -/
structure LeadsTo (tree : FileTree) (wording : LoadWording) (settings : Settings)
    (total : FileReport) (tasks : FileTasks) : Prop where
  finished : ∀ path outcome, (path, some outcome) ∈ tasks.waiting →
    outcome = tree.compileFile wording settings path
  total_eq : tasks.collected ++
    FileReport.joined (tasks.waiting.map fun task => tree.contribution wording settings task.1) =
      total

variable {tree : FileTree} {wording : LoadWording} {settings : Settings} {total : FileReport}
  {tasks next : FileTasks}

theorem LeadsTo.step (h : tasks.LeadsTo tree wording settings total)
    (hstep : Step tree wording settings tasks next) :
    next.LeadsTo tree wording settings total := by
  obtain ⟨hfinished, htotal⟩ := h
  cases hstep with
  | finish before after path collected =>
    constructor
    · intro other outcome hmem
      simp only [List.mem_append, List.mem_cons] at hmem hfinished
      rcases hmem with hbefore | hthis | hafter
      · exact hfinished other outcome (Or.inl hbefore)
      · obtain ⟨rfl, houtcome⟩ := Prod.mk.inj hthis
        exact Option.some.inj houtcome
      · exact hfinished other outcome (Or.inr (Or.inr hafter))
    · rw [List.map_append, List.map_cons] at htotal ⊢
      exact htotal
  | collect path outcome rest collected =>
    have houtcome : outcome = tree.compileFile wording settings path :=
      hfinished path outcome List.mem_cons_self
    constructor
    · intro other otherOutcome hmem
      exact hfinished other otherOutcome (List.mem_cons_of_mem _ hmem)
    · rw [List.map_cons, FileReport.append_joined_cons] at htotal
      rw [houtcome]
      exact htotal

/-- Whatever the tasks have done so far, they lead to the same total. -/
theorem LeadsTo.run (h : tasks.LeadsTo tree wording settings total)
    (hrun : ReflTransGen (Step tree wording settings) tasks next) :
    next.LeadsTo tree wording settings total := by
  induction hrun with
  | refl => exact h
  | tail _ hstep ih => exact ih.step hstep

end FileTasks
end ResultLayout
