import PagedTables.Files

namespace PagedTables

/-- A tree of files held in memory. Places are given from the root; an entry without bytes is a
directory, and the directories on the way to an entry exist too. -/
structure FileTree where
  /-- The working directory, which exists. -/
  home : List String
  entries : List (List String × Option ByteArray)

inductive FileNode where
  | file (bytes : ByteArray)
  | directory

namespace FileTree

def node? (tree : FileTree) (place : List String) : Option FileNode :=
  match tree.entries.find? (fun e => e.1 = place) with
  | some (_, some bytes) => some (.file bytes)
  | some (_, none) => some .directory
  | none =>
    if place.isPrefixOf tree.home || tree.entries.any (fun e => place.isPrefixOf e.1) then
      some .directory
    else none

/-- Follows the names of a path one by one. Only a directory can be gone on from. -/
def follow (tree : FileTree) :
    List String → (place : List String) → FileNode → Except FileError FileNode
  | [], _, node => .ok node
  | _ :: _, _, .file _ => .error .notDirectory
  | name :: names, place, .directory =>
    if name = "" ∨ name = "." then follow tree names place .directory
    else if name = ".." then follow tree names place.dropLast .directory
    else if 255 < name.utf8ByteSize then .error .nameTooLong
    else
      match tree.node? (place ++ [name]) with
      | none => .error .notFound
      | some node => follow tree names (place ++ [name]) node

/-- The greatest number of bytes in a path. -/
def maxPath : Nat := 4095

def find (tree : FileTree) (path : String) : Except FileError FileNode :=
  if path.toList.contains '\x00' then .error .nulInName
  else if path = "" then .error .notFound
  else if maxPath < path.utf8ByteSize then .error .nameTooLong
  else tree.follow (path.splitOn "/") (if path.startsWith "/" then [] else tree.home) .directory

def files (tree : FileTree) : Files where
  read path :=
    match tree.find path with
    | .ok (.file bytes) => .ok bytes
    | .ok .directory => .error .isDirectory
    | .error e => .error e

end FileTree

end PagedTables
