/-!
# File trees

A tree of files, directories and symbolic links, as far as a run of the program can see it. A path is
followed step by step from the working directory; links on the way are replaced by their targets, up
to forty of them. Names and paths have a greatest size.
-/
namespace ResultLayout

inductive FileNode where
  /-- A file with its text, or without if its bytes are no UTF-8 text. -/
  | file (text : Option String)
  | directory (entries : List (String × FileNode))
  | link (target : String)

/-- Where a node stands: the names of the directories above it from the root, and its own. -/
abbrev Place := List String

/-- One step of a path. -/
inductive PathStep where
  /-- Stays, which only a directory allows: `.` or nothing between two slashes. -/
  | here
  | up
  | down (name : String)
deriving DecidableEq, Repr

structure Path where
  absolute : Bool
  steps : List PathStep
deriving DecidableEq, Repr

/-- Splits a text at a separator. -/
def splitChars (separator : Char) : List Char → List (List Char)
  | [] => [[]]
  | c :: cs =>
    match splitChars separator cs with
    | [] => [[c]]
    | part :: parts => if c = separator then [] :: part :: parts else (c :: part) :: parts

def splitText (separator : Char) (text : String) : List String :=
  (splitChars separator text.toList).map String.ofList

namespace Path

def stepOf (part : String) : PathStep :=
  if part = "" ∨ part = "." then .here else if part = ".." then .up else .down part

/-- A path that ends with a slash asks for a directory. -/
def ofText (text : String) : Path :=
  match splitText '/' text with
  | "" :: rest => ⟨true, rest.map stepOf⟩
  | parts => ⟨false, parts.map stepOf⟩

/-- The path of an entry of a directory. -/
def join (directory name : String) : String :=
  if directory.toList.getLast? = some '/' then directory ++ name else directory ++ "/" ++ name

/-- The last name in a path, if the path does not end by going up. -/
def fileName? (text : String) : Option String :=
  match (ofText text).steps.filter (· ≠ .here) |>.getLast? with
  | some (.down name) => some name
  | _ => none

/-- What stands behind the last point in a path's file name. A point at the start of the name does
not count. -/
def extension? (text : String) : Option String :=
  match fileName? text with
  | none => none
  | some name =>
    let reversed := name.toList.reverse
    match reversed.dropWhile (· ≠ '.') with
    | _ :: _ :: _ => some (String.ofList (reversed.takeWhile (· ≠ '.')).reverse)
    | _ => none

end Path

/-- Why a path leads nowhere. -/
inductive FileError where
  | notFound
  | notDirectory
  | nameTooLong
  | tooManyLinks
deriving DecidableEq, Repr

def FileError.message : FileError → String
  | notFound => "No such file or directory (os error 2)"
  | notDirectory => "Not a directory (os error 20)"
  | nameTooLong => "File name too long (os error 36)"
  | tooManyLinks => "Too many levels of symbolic links (os error 40)"

namespace FileNode

/-- The node at a place, without following links. -/
def at? (node : FileNode) : Place → Option FileNode
  | [] => some node
  | name :: place =>
    match node with
    | directory entries =>
      match entries.lookup name with
      | some child => child.at? place
      | none => none
    | _ => none

/-- The node with a new node at a place, and with the directories above it. -/
def insert (node : FileNode) (place : Place) (new : FileNode) : FileNode :=
  match place with
  | [] => new
  | name :: place =>
    let entries :=
      match node with
      | directory entries => entries
      | _ => []
    match entries.lookup name with
    | some child =>
      directory (entries.map fun entry =>
        if entry.1 == name then (name, child.insert place new) else entry)
    | none => directory (entries ++ [(name, (directory []).insert place new)])

/-- The places of all directories in a node that stands at `place`. -/
def directories (place : Place) : FileNode → List Place
  | directory entries => place :: ofEntries place entries
  | _ => []
where
  ofEntries (place : Place) : List (String × FileNode) → List Place
    | [] => []
    | (name, node) :: entries => node.directories (place ++ [name]) ++ ofEntries place entries

end FileNode

structure FileTree where
  root : FileNode
  workingDirectory : Place := []

namespace FileTree

/-- How many links may be met on the way of one path. -/
def greatestLinks : Nat := 40

/-- The greatest size of a name in bytes. -/
def greatestNameSize : Nat := 255

/-- The greatest size of a path in bytes. Links on the way do not count with their targets. -/
def greatestPathSize : Nat := 4095

/-- Follows steps from a place; `links` is how many links may still be met. -/
def follow (tree : FileTree) (links : Nat) (place : Place) (steps : List PathStep) :
    Except FileError Place :=
  match steps with
  | [] => .ok place
  | step :: rest =>
    match tree.root.at? place with
    | some (.directory entries) =>
      match step with
      | .here => tree.follow links place rest
      | .up => tree.follow links place.dropLast rest
      | .down name =>
        if greatestNameSize < name.utf8ByteSize then .error .nameTooLong
        else
          match entries.lookup name with
          | none => .error .notFound
          | some (.link target) =>
            match links with
            | 0 => .error .tooManyLinks
            | links + 1 =>
              let path := Path.ofText target
              tree.follow links (if path.absolute then [] else place) (path.steps ++ rest)
          | some _ => tree.follow links (place ++ [name]) rest
    | _ => .error .notDirectory
termination_by (links, steps.length)

/-- The place that a path leads to. -/
def place (tree : FileTree) (path : String) : Except FileError Place :=
  if path = "" then .error .notFound
  else if greatestPathSize < path.utf8ByteSize then .error .nameTooLong
  else
    let parsed := Path.ofText path
    tree.follow greatestLinks (if parsed.absolute then [] else tree.workingDirectory) parsed.steps

/-- The place and node that a path leads to. -/
def node (tree : FileTree) (path : String) : Except FileError (Place × FileNode) :=
  match tree.place path with
  | .error error => .error error
  | .ok place =>
    match tree.root.at? place with
    | some node => .ok (place, node)
    | none => .error .notFound

/-- The file that a path leads to. -/
def file? (tree : FileTree) (path : String) : Option (Option String) :=
  match tree.node path with
  | .ok (_, .file text) => some text
  | _ => none

end FileTree
end ResultLayout
