import ResultLayout.Command.Compile
/-!
# Runs of the program

A run is determined by its arguments, the log level of the environment and the files it sees, up to
the words in which the reader of JSON tells of faults.
-/
namespace ResultLayout

/-- What a run of the program leaves behind. -/
structure RunResult where
  exitCode : Nat
  output : String
  /-- What the command itself reports, without the log. -/
  errorOutput : String
  log : List LogEntry

def RunResult.ofCommand (setting : LogSetting) (result : CommandResult) : RunResult where
  exitCode := if result.succeeded then 0 else 1
  output := result.output
  errorOutput := result.errorOutput
  log := setting.select result.log

/-- Runs the program. -/
def runProgram (tree : FileTree) (logWord : Option String) (arguments : List String)
    (wording : LoadWording := {}) : RunResult :=
  match Invocation.ofArguments arguments with
  | .print text => ⟨0, text, "", []⟩
  | .usageError => ⟨2, "", "", []⟩
  | .run verbose none =>
    .ofCommand (.ofRun verbose logWord) { succeeded := true, output := Help.long }
  | .run verbose (some options) =>
    .ofCommand (.ofRun verbose logWord) (CompileCommand.run tree wording options)

end ResultLayout
