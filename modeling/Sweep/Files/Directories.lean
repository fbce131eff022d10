import Sweep.Files.Tree

/-!
# Whole directories

A directory is removed, copied and moved together with everything that lies under it. Only the
programs that scripts call do so; the engine itself makes directories and writes files in them.
-/

namespace Sweep.FileTree

/-- The entries below the end of a way from the root, with the rest of their paths behind it. -/
def below (t : FileTree) (way : List String) : List (String × FileNode) :=
  let root := (absolute way ++ "/").toList
  t.nodes.entries.filterMap fun (path, node) =>
    if root.isPrefixOf path.toList then
      some (String.ofList (path.toList.drop root.length), node)
    else none

/-- Removes what a path leads to, and everything below it. -/
def removeAll (t : FileTree) (path : String) : Except FileFault FileTree := do
  let place ← t.locate path
  let _ ← t.find path
  let root := absolute place.way
  let inside := (t.below place.way).map fun entry => root ++ "/" ++ entry.1
  return { t with nodes := (root :: inside).foldl Table.erase t.nodes }

def removeDirectory (t : FileTree) (path : String) : Except FileFault FileTree := do
  let place ← t.locate path
  if (← t.list path).isEmpty then return { t with nodes := t.nodes.erase (absolute place.way) }
  else .error .notEmpty

/-- Puts a directory with everything below it at another way from the root as well. -/
def copyBelow (t : FileTree) (source target : List String) : FileTree :=
  let root := absolute target
  let copied := (t.below source).foldl
    (fun nodes (rest, node) => nodes.insert (root ++ "/" ++ rest) node)
    (t.nodes.insert root .directory)
  { t with nodes := copied }

/-- Moves a directory with everything below it to another way from the root. -/
def moveBelow (t : FileTree) (source target : List String) : FileTree :=
  let root := absolute source
  let inside := (t.below source).map fun entry => root ++ "/" ++ entry.1
  let copied := t.copyBelow source target
  { copied with nodes := (root :: inside).foldl Table.erase copied.nodes }

end Sweep.FileTree
