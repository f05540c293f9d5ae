import ResultLayout.Command.Run
/-!
# The program

The outer layer: what a run sees of the world is collected first, and what it leaves behind is printed
last. The file system is seen through a snapshot, which holds what the paths of the run lead to and
all that can be reached from there. Every directory is listed once, under its path without links, so
loops of links do no harm.
-/
namespace ResultLayout

/-- A file tree in the making, with the directories that it holds in full. -/
structure Snapshot where
  root : FileNode := .directory []
  listed : List String := []

namespace Snapshot

def placeOf (path : String) : Place := (splitText '/' path).filter (· ≠ "")

/-- A name that no file can have. -/
def nowhere : String := "\x00"

/-- The path without links, if a path leads to something. -/
def realPath? (path : String) : IO (Option String) := do
  try
    return some (← IO.FS.realPath path).toString
  catch _ =>
    return none

/-- A link with the path without links that it leads to, so a chain of links is seen as one link. One
that leads nowhere gets a target that leads nowhere, and one in a circle leads to itself. -/
def readLink (entry : IO.FS.DirEntry) : IO FileNode := do
  if let some path ← realPath? entry.path.toString then return .link path
  try
    discard entry.path.metadata
    return .link nowhere
  catch
    | .invalidArgument .. => return .link entry.fileName
    | _ => return .link nowhere

/-- What stands in a directory under a name: a file with its text, a directory without its entries, or
a link. -/
def readNode? (entry : IO.FS.DirEntry) : IO (Option FileNode) := do
  try
    match (← entry.path.symlinkMetadata).type with
    | .dir => return some (.directory [])
    | .file => return some (.file (String.fromUTF8? (← IO.FS.readBinFile entry.path)))
    | .symlink => return some (← readLink entry)
    | .other => return none
  catch _ =>
    return none

/-- Adds what stands in a directory under a name, if it is not there yet. -/
def addEntry (snapshot : Snapshot) (entry : IO.FS.DirEntry) : IO Snapshot := do
  let place := placeOf entry.path.toString
  if (snapshot.root.at? place).isSome then return snapshot
  match ← readNode? entry with
  | some node => return { snapshot with root := snapshot.root.insert place node }
  | none => return snapshot

/-- Adds a directory without its entries, if it is not there yet. -/
def addDirectory (snapshot : Snapshot) (path : String) : Snapshot :=
  let place := placeOf path
  if (snapshot.root.at? place).isSome then snapshot
  else { snapshot with root := snapshot.root.insert place (.directory []) }

/-- Adds what a path without links leads to, with all that can be reached from there. -/
partial def addAll (snapshot : Snapshot) (path : String) : IO Snapshot := do
  if snapshot.listed.contains path then return snapshot
  let real ← IO.FS.realPath path
  match (← real.metadata).type with
  | .dir =>
    let start := snapshot.addDirectory path
    let entries ← try real.readDir catch _ => pure #[]
    entries.foldlM (fun snapshot entry => do
      let snapshot ← snapshot.addEntry entry
      match ← realPath? entry.path.toString with
      | some below => snapshot.addAll below
      | none => return snapshot) { start with listed := path :: start.listed }
  | .file =>
    match real.parent, real.fileName with
    | some directory, some name => snapshot.addEntry ⟨directory, name⟩
    | _, _ => return snapshot
  | _ => return snapshot

/-- Follows steps from a directory and adds what is met on the way, and all that the steps lead to. -/
def addSteps (snapshot : Snapshot) (directory : String) : List PathStep → IO Snapshot
  | [] => snapshot.addAll directory
  | .here :: steps => (snapshot.addDirectory directory).addSteps directory steps
  | .up :: steps => do
    match ← realPath? (Path.join directory "..") with
    | some above => (snapshot.addDirectory directory).addSteps above steps
    | none => return snapshot
  | .down name :: steps => do
    let snapshot ← (snapshot.addDirectory directory).addEntry ⟨directory, name⟩
    match ← realPath? (Path.join directory name) with
    | some below => snapshot.addSteps below steps
    | none => return snapshot

end Snapshot

/-- The part of the file system that some paths lead to. -/
def FileTree.ofPaths (paths : List String) : IO FileTree := do
  let here := (← IO.currentDir).toString
  let snapshot ← paths.foldlM (fun (snapshot : Snapshot) path =>
    let parsed := Path.ofText path
    snapshot.addSteps (if parsed.absolute then "/" else here) parsed.steps)
    (Snapshot.addDirectory {} here)
  return ⟨snapshot.root, Snapshot.placeOf here⟩

end ResultLayout

open ResultLayout

def main (arguments : List String) : IO UInt32 := do
  let tree ← FileTree.ofPaths (Invocation.ofArguments arguments).paths
  let result := runProgram tree (← IO.getEnv "LOG_LEVEL") arguments
  for entry in result.log do
    IO.eprintln (entry.level.name ++ " " ++ entry.written)
  IO.print result.output
  IO.eprint (if result.exitCode = 2 then Help.hint else result.errorOutput)
  return result.exitCode.toUInt32
