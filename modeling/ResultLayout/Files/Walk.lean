import ResultLayout.Files.Tree
/-!
# Walks through file trees

A walk lists the files at and below a path and follows symbolic links. A link to a directory that the
walk is inside of would lead round in a loop; it is reported and not followed.

Directories and links are opened by the path under which the walk comes to them, so all links on the
way and the size of the whole path count. A file is listed without being opened.
-/
namespace ResultLayout

/-- What a walk meets. -/
inductive Finding where
  | file (path : String)
  | failure (message : String)
deriving DecidableEq, Repr

/-- A directory that a walk is inside of, with the path by which it came there. -/
structure Ancestor where
  place : Place
  path : String
deriving DecidableEq, Repr

def ioFailure (path : String) (error : FileError) : Finding :=
  .failure ("IO error for operation on " ++ path ++ ": " ++ error.message)

def loopFailure (path : String) (ancestor : Ancestor) : Finding :=
  .failure ("File system loop found: " ++ path ++ " points to an ancestor " ++ ancestor.path)

namespace FileTree

mutual

/-- Walks through the node that stands at `place` and that the walk knows by `path`; `unentered` are
the directories that the walk has not come into yet. -/
def walkNode (tree : FileTree) (unentered : List Place) (inside : List Ancestor) (place : Place)
    (path : String) (node : FileNode) : List Finding :=
  match node with
  | .file _ => [.file path]
  | .directory entries =>
    match tree.place path with
    | .error error => [ioFailure path error]
    | .ok _ => tree.walkEntries (unentered.erase place) (⟨place, path⟩ :: inside) place path entries
  | .link _ =>
    match tree.node path with
    | .error error => [ioFailure path error]
    | .ok (_, .file _) => [.file path]
    | .ok (_, .link _) => []
    | .ok (target, .directory entries) =>
      match inside.find? (·.place == target) with
      | some ancestor => [loopFailure path ancestor]
      | none =>
        if _h : target ∈ unentered then
          tree.walkEntries (unentered.erase target) (⟨target, path⟩ :: inside) target path entries
        else []
termination_by (unentered.length, sizeOf node)
decreasing_by
  · rcases Nat.lt_or_eq_of_le (List.length_erase_le (a := place) (l := unentered)) with hlt | heq
    · exact Prod.Lex.left _ _ hlt
    · rw [heq]
      exact Prod.Lex.right _ (by simp)
  · have hpos := List.length_pos_of_mem _h
    have hlen := List.length_erase_of_mem _h
    exact Prod.Lex.left _ _ (by omega)

def walkEntries (tree : FileTree) (unentered : List Place) (inside : List Ancestor)
    (place : Place) (path : String) (entries : List (String × FileNode)) : List Finding :=
  match entries with
  | [] => []
  | (name, node) :: entries =>
    tree.walkNode unentered inside (place ++ [name]) (Path.join path name) node ++
      tree.walkEntries unentered inside place path entries
termination_by (unentered.length, sizeOf entries)

end

/-- Walks from a path. -/
def walk (tree : FileTree) (path : String) : List Finding :=
  match tree.node path with
  | .error error => [ioFailure path error]
  | .ok (place, node) => tree.walkNode (tree.root.directories []) [] place path node

end FileTree
end ResultLayout
