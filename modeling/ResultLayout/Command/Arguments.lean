import ResultLayout.Command.Help
import ResultLayout.Files.Tree
/-!
# Command line arguments

Arguments are read from left to right. Options of the program stand before the command, options of
the command behind it and between its paths. An option that asks for help or the version ends the
reading; what comes before it must be in order.
-/
namespace ResultLayout

/-- What the `compile` command is asked to do. -/
structure CompileOptions where
  config : Option String := none
  /-- The file extensions that were given; without any there is a default. -/
  extensions : List String := []
  modelBuilder : Bool := false
  semanticNaming : Option Bool := none
  paths : List String := []
deriving DecidableEq, Repr

inductive Invocation where
  /-- Prints a text and ends. -/
  | print (text : String)
  | usageError
  /-- Runs a command, or prints the long help if there is none. -/
  | run (verbose : Bool) (command : Option CompileOptions)
deriving DecidableEq, Repr

namespace Arguments

/-- Whether an argument cannot be the value of an option before it. -/
def looksLikeOption (argument : String) : Bool :=
  match argument.toList with
  | '-' :: _ :: _ => true
  | _ => false

/-- An option of the `compile` command that takes a value. -/
inductive ValueOption where
  | config
  | extensions
  | semanticNaming
deriving DecidableEq, Repr

def ValueOption.ofName? (name : String) : Option ValueOption :=
  if name = "config" then some .config
  else if name = "ir-file-exts" then some .extensions
  else if name = "semantic-naming" then some .semanticNaming
  else none

/-- Gives an option its value. Only extensions may be given more than once; paths are not empty. -/
def ValueOption.set (option : ValueOption) (value : String) (options : CompileOptions) :
    Option CompileOptions :=
  match option with
  | .config =>
    if options.config.isSome ∨ value = "" then none else some { options with config := some value }
  | .extensions =>
    some { options with extensions := options.extensions ++ splitText ',' value }
  | .semanticNaming =>
    if options.semanticNaming.isSome then none
    else if value = "true" then some { options with semanticNaming := some true }
    else if value = "false" then some { options with semanticNaming := some false }
    else none

/-- The name of a long option and the value attached to it. -/
def splitOption (text : List Char) : String × Option String :=
  match text.dropWhile (· ≠ '=') with
  | [] => (String.ofList text, none)
  | _ :: value => (String.ofList (text.takeWhile (· ≠ '=')), some (String.ofList value))

/-- Ends the reading of a command's arguments. -/
def finish (verbose : Bool) (options : CompileOptions) : Invocation :=
  if options.paths.isEmpty then .usageError else .run verbose (some options)

def addPath (path : String) (options : CompileOptions) : Option CompileOptions :=
  if path = "" then none else some { options with paths := options.paths ++ [path] }

/-- Reads arguments of which all are paths. -/
def pathsOnly (verbose : Bool) (options : CompileOptions) : List String → Invocation
  | [] => finish verbose options
  | argument :: rest =>
    match addPath argument options with
    | some options => pathsOnly verbose options rest
    | none => .usageError

/-- Reads the arguments of the `compile` command. -/
def compile (verbose : Bool) (options : CompileOptions) : List String → Invocation
  | [] => finish verbose options
  | argument :: rest =>
    match argument.toList with
    | ['-', '-'] => pathsOnly verbose options rest
    | '-' :: '-' :: long =>
      match splitOption long with
      | ("help", none) => .print Help.compile
      | ("model-builder", none) =>
        if options.modelBuilder then .usageError
        else compile verbose { options with modelBuilder := true } rest
      | (name, attached) =>
        match ValueOption.ofName? name, attached, rest with
        | some option, some value, rest =>
          match option.set value options with
          | some options => compile verbose options rest
          | none => .usageError
        | some option, none, value :: rest =>
          if looksLikeOption value then .usageError
          else
            match option.set value options with
            | some options => compile verbose options rest
            | none => .usageError
        | _, _, _ => .usageError
    | '-' :: 'h' :: _ => .print Help.compile
    | '-' :: _ :: _ => .usageError
    | _ =>
      match addPath argument options with
      | some options => compile verbose options rest
      | none => .usageError

/-- Reads the arguments of the `help` command. -/
def help : List String → Invocation
  | [] => .print Help.short
  | ["compile"] => .print Help.compile
  | ["help"] => .print Help.help
  | _ => .usageError

/-- What the letters of a short option say: that the run is verbose, or at once what to do. -/
def shortOptions (verbose : Bool) : List Char → Except Invocation Bool
  | [] => .ok verbose
  | c :: cs =>
    if c = 'v' then if verbose then .error .usageError else shortOptions true cs
    else if c = 'h' then .error (.print Help.short)
    else if c = 'V' then .error (.print Help.version)
    else .error .usageError

/-- Reads the arguments of the program. -/
def program (verbose : Bool) : List String → Invocation
  | [] => .run verbose none
  | argument :: rest =>
    if argument = "compile" then compile verbose {} rest
    else if argument = "help" then help rest
    else if argument = "--" then if rest.isEmpty then .run verbose none else .usageError
    else if argument = "--help" then .print Help.short
    else if argument = "--version" then .print Help.version
    else if argument = "--verbose" then
      if verbose then .usageError else program true rest
    else
      match argument.toList with
      | '-' :: '-' :: _ => .usageError
      | '-' :: c :: cs =>
        match shortOptions verbose (c :: cs) with
        | .ok verbose => program verbose rest
        | .error invocation => invocation
      | _ => .usageError

end Arguments

/-- The paths that a run reads. -/
def Invocation.paths : Invocation → List String
  | .run _ (some options) => options.config.toList ++ options.paths
  | _ => []

/-- What the arguments ask for. -/
def Invocation.ofArguments (arguments : List String) : Invocation :=
  Arguments.program false arguments

end ResultLayout
