import ResultLayout.Document.Format
import ResultLayout.Files.Tree
import ResultLayout.Settings.Format
/-!
# Loading documents and settings

Both are JSON files. A path may lead to no file, a file may hold no text, and a text may have a
fault.
-/
namespace ResultLayout

inductive ReadError where
  | notAFile (path : String)
  | notText (path : String)
deriving DecidableEq, Repr

def ReadError.path : ReadError → String
  | notAFile path | notText path => path

def ReadError.message : ReadError → String
  | notAFile path => "Path " ++ Text.quoted path ++ " is not a file"
  | notText path =>
    "Failed to read " ++ Text.quoted path ++
      " as UTF-8 text: stream did not contain valid UTF-8"

def FileTree.readText (tree : FileTree) (path : String) : Except ReadError String :=
  match tree.file? path with
  | none => .error (.notAFile path)
  | some none => .error (.notText path)
  | some (some text) => .ok text

/-- Why a document or the settings cannot be loaded. -/
inductive LoadError where
  | unreadable (error : ReadError)
  /-- The text has a fault; its path is known if it was read from a file. -/
  | faulty (path : Option String) (fault : Fault)
deriving DecidableEq, Repr

/-- The words of the reader of JSON that are its own: what is wrong with a text that is no JSON, and
where in a text a fault is. -/
structure FaultWording where
  form : String → Fault → String
  place : String → Fault → String

namespace FaultWording

/-- The wording that leaves both out. -/
def silent : FaultWording := ⟨fun _ _ => "", fun _ _ => ""⟩

/-- How a fault in a text is told of. What is wrong with the data is said by the fault itself. -/
def tell (wording : FaultWording) (text : String) (fault : Fault) : String :=
  let what :=
    match fault.category with
    | .data => fault.message
    | .eof | .syntaxFault => wording.form text fault
  what ++ wording.place text fault

end FaultWording

/-- The wordings for the two formats. -/
structure LoadWording where
  document : FaultWording := .silent
  settings : FaultWording := .silent

/-- How a fault in the file at a path is told of. -/
def FileTree.describe (tree : FileTree) (wording : FaultWording) (path : Option String)
    (fault : Fault) : String :=
  match path.map tree.readText with
  | some (.ok text) => wording.tell text fault
  | _ => fault.message

namespace LoadError

/-- The message for a document. -/
def documentMessage (error : LoadError)
    (describe : Option String → Fault → String := fun _ => Fault.message) : String :=
  match error with
  | unreadable error => "Failure while trying to read an IR file from disk: " ++ error.message
  | faulty none fault => "Error parsing IR document: " ++ describe none fault
  | faulty (some path) fault =>
    "Error parsing IR document at " ++ path ++ ": " ++ describe (some path) fault

/-- The message for settings. -/
def settingsMessage (error : LoadError)
    (describe : Option String → Fault → String := fun _ => Fault.message) : String :=
  match error with
  | unreadable error => "Failure while trying to read a config file from disk: " ++ error.message
  | faulty none fault => "Error parsing config file None: " ++ describe none fault
  | faulty (some path) fault =>
    "Error parsing config file Some(" ++ Text.quoted path ++ "): " ++ describe (some path) fault

end LoadError

/-- Reads the text of a file and parses it. -/
def FileTree.load {α : Type} (tree : FileTree) (parse : String → Except Fault α) (path : String) :
    Except LoadError α :=
  match tree.readText path with
  | .error error => .error (.unreadable error)
  | .ok text =>
    match parse text with
    | .error fault => .error (.faulty (some path) fault)
    | .ok a => .ok a

def FileTree.loadDocument (tree : FileTree) (path : String) : Except LoadError Document :=
  tree.load Document.parse path

def FileTree.loadSettings (tree : FileTree) (path : String) : Except LoadError Settings :=
  tree.load Settings.parse path

end ResultLayout
