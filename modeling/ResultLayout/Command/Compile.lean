import ResultLayout.Command.Arguments
import ResultLayout.Command.Log
import ResultLayout.Compile.Json
import ResultLayout.Compile.Operation
import ResultLayout.Files.Load
import ResultLayout.Files.Walk
/-!
# The compile command

The command compiles every document file that it finds, each on its own. What all files generate is
printed as one array, in the order of the files; all that went wrong is listed, first what went wrong
while looking for files. The command succeeds if nothing went wrong.
-/
namespace ResultLayout

/-- What a command leaves behind. -/
structure CommandResult where
  succeeded : Bool
  output : String := ""
  errorOutput : String := ""
  log : List LogEntry := []

/-- What one file, or some files, contribute to the result of the command. -/
structure FileReport where
  generated : List ResultType := []
  failures : List String := []

/-- Compiles the operations of one document file, or says why the file is not compiled at all. -/
def FileTree.compileFile (tree : FileTree) (wording : LoadWording) (settings : Settings)
    (path : String) : Except (List String) Report :=
  match tree.loadDocument path with
  | .error error => .error [error.documentMessage (tree.describe wording.document)]
  | .ok document => (document.compile settings).mapError fun errors => errors.map (·.message)

/-- What a compiled file contributes: its failures are cited by operation, those of a file as a whole
by its path. -/
def FileReport.ofFile (path : String) : Except (List String) Report → FileReport
  | .error messages => ⟨[], messages.map fun message => path ++ ": " ++ message⟩
  | .ok report => ⟨report.generated, report.failures.map (·.render)⟩

namespace CompileCommand

def failureSign : String := "✘"

def successSign : String := "✔"

/-- The settings of a file, if one is given, with the options of the command line over them. -/
def settings (tree : FileTree) (options : CompileOptions) : Except LoadError Settings :=
  let loaded : Except LoadError Settings :=
    match options.config with
    | none => .ok {}
    | some path => tree.loadSettings path
  loaded.map fun settings => {
    settings with
    useSemanticNaming := options.semanticNaming.getD settings.useSemanticNaming
    generateModelBuilder := settings.generateModelBuilder || options.modelBuilder }

/-- The extensions of document files, without points before them and each once. -/
def extensions (options : CompileOptions) : List String :=
  let given := if options.extensions.isEmpty then ["json"] else options.extensions
  firstSeen (given.map fun ext => String.ofList (ext.toList.dropWhile (· = '.')))

/-- The document files that were found, and what went wrong while looking for them. -/
structure Discovery where
  paths : List String := []
  failures : List String := []
  log : List LogEntry := []

/-- Keeps of what a walk met the files with a wanted extension. -/
def Discovery.ofFindings (wanted : List String) (argument : String) (findings : List Finding) :
    Discovery where
  paths := findings.filterMap fun
    | .file path => if (Path.extension? path).any wanted.contains then some path else none
    | .failure _ => none
  failures := findings.filterMap fun
    | .file _ => none
    | .failure message => some (argument ++ ": " ++ message)

def Discovery.append (a b : Discovery) : Discovery :=
  ⟨a.paths ++ b.paths, a.failures ++ b.failures, a.log ++ b.log⟩

/-- The warning that a file is compiled whatever its extension. -/
def extensionWarning (path : String) (wanted : List String) : LogEntry :=
  .warn ("Proceeding to compile " ++ Text.quoted path ++
    " even though it doesn't match any of the --ir-file-exts (" ++
    ", ".intercalate (wanted.map fun ext => "`." ++ ext ++ "`") ++ ").")

/-- Looks for document files below all paths. A file that is the only path is taken whatever its
extension, if nothing else is found. -/
def discover (tree : FileTree) (options : CompileOptions) : Discovery :=
  let wanted := extensions options
  let found := (options.paths.map fun path => .ofFindings wanted path (tree.walk path)).foldl
    Discovery.append {}
  match found.paths, options.paths with
  | [], [path] =>
    if (tree.file? path).isSome then
      { found with paths := [path], log := [extensionWarning path wanted] }
    else found
  | _, _ => found

/-- The messages about a compiled file. -/
def fileLog (path : String) : Except (List String) Report → List LogEntry
  | .error _ => []
  | .ok report =>
    report.failures.map (fun failure =>
      .warn ("Failed to compile operation `" ++ failure.operationName ++ "` from `" ++
        failure.filePath ++ "`: " ++ failure.error.message)) ++
      [.info ("Compiled " ++ toString report.generated.length ++ " operations from " ++ path ++
        " (" ++ toString report.failures.length ++ " failed).")]

/-- The array of all that was generated, as it is printed. -/
def render (generated : List ResultType) : String :=
  (Json.array (generated.map (·.toJson))).pretty 0 ++ "\n"

/-- The report of all failures. -/
def renderFailures (failures : List String) : String :=
  failureSign ++ " " ++ toString failures.length ++ " compilation errors:\n" ++
    "\n".intercalate failures ++ "\n"

/-- Compiles the files that were found and reports on all of them. -/
def runFiles (tree : FileTree) (wording : LoadWording) (settings : Settings)
    (discovery : Discovery) : CommandResult :=
  let compiled := discovery.paths.map fun path => (path, tree.compileFile wording settings path)
  let reports := compiled.map fun file => FileReport.ofFile file.1 file.2
  let generated := reports.flatMap (·.generated)
  let failures := discovery.failures ++ reports.flatMap (·.failures)
  let log := discovery.log ++ compiled.flatMap fun file => fileLog file.1 file.2
  if failures.isEmpty then {
    succeeded := true
    output := render generated
    log := log ++ [.info (successSign ++ " Compiled " ++ toString generated.length ++
      " operations from " ++ toString discovery.paths.length ++ " files.")] }
  else {
    succeeded := false
    output := render generated
    errorOutput := renderFailures failures
    log := log }

def run (tree : FileTree) (wording : LoadWording) (options : CompileOptions) : CommandResult :=
  let start := LogEntry.debug "Running the compile command."
  match settings tree options with
  | .error error => {
    succeeded := false
    errorOutput := failureSign ++ " Failed to load code generation options: " ++
      error.settingsMessage (tree.describe wording.settings) ++ "\n"
    log := [start] }
  | .ok settings =>
    let result := runFiles tree wording settings (discover tree options)
    { result with log := start :: result.log }

end CompileCommand
end ResultLayout
