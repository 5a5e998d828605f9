/-
  ShowRelay.Disk.Staging

  What others do to a disk: putting files, folders and links there and taking
  them away. Unlike the relay they may go anywhere. Writing follows links, and
  nothing else does so at the end of a path.
-/

import ShowRelay.Disk.Basic

namespace ShowRelay.Disk

/-- The names of the path of something in the snapshot folder. -/
def namesInPlace (path : Bytes) : Except SystemFault (List FileName) :=
  Path.names (Path.join ownName path)

/-- The path without links and detours of the entry that some names stand for,
    which may be missing or a link; separators at the end do not count. -/
def entryPath? (disk : Disk) (names : List FileName) : Option (List FileName) :=
  match names.reverse.dropWhile List.isEmpty with
  | [] => none
  | name :: above =>
    if name = Path.itself ∨ name = Path.parent ∨ FileName.maxLength < name.length then none
    else if above.isEmpty then some (disk.working ++ [name])
    else
      match disk.locate above.reverse with
      | .ok (found, some (.folder _)) => some (found ++ [name])
      | _ => none

/-- The disk with a file of some contents where a path leads. -/
def writeFile (disk : Disk) (names : List FileName) (contents : Bytes) : Option Disk :=
  match disk.locate names with
  | .ok (found, none) | .ok (found, some (.file _)) => some (disk.put (.file contents) found)
  | _ => none

/-- The disk with an entry that was missing. -/
def addEntry (disk : Disk) (node : Node) (names : List FileName) : Option Disk := do
  let path ← disk.entryPath? names
  if (disk.tree.at? path).isSome then none else some (disk.put node path)

/-- The tree with a folder wherever some names lead from the folder `here`, and where
    all of them lead. Links on the way have to lead to folders. -/
def makeWay (root : Node) (here : List FileName) :
    (names : List FileName) → Option (Node × List FileName)
  | [] => some (root, here)
  | name :: names =>
    if name = [] ∨ name = Path.itself then makeWay root here names
    else if name = Path.parent then makeWay root here.dropLast names
    else if FileName.maxLength < name.length then none
    else
      let path := here ++ [name]
      match root.at? path with
      | none => makeWay (root.put path (.folder [])) path names
      | some (.folder _) => makeWay root path names
      | some (.file _) => none
      | some (.link _) =>
        match walk root maxLinks here [name] with
        | .ok (found, some (.folder _)) => makeWay root found names
        | _ => none

/-- The disk with a folder at a path and at all its beginnings. -/
def addFolders (disk : Disk) (names : List FileName) : Option Disk := do
  let start := if Path.isFromRoot names then [] else disk.working
  let (tree, _) ← makeWay disk.tree start names
  let disk := disk.withTree tree
  match disk.locate names with
  | .ok (_, some (.folder _)) => some disk
  | _ => none

/-- The disk with a symbolic link at a path at which there was nothing. -/
def addLink (disk : Disk) (names : List FileName) (target : Bytes) : Option Disk :=
  match Path.names target with
  | .ok _ => if names.getLast? = some [] then none else disk.addEntry (.link target) names
  | .error _ => none

/-- The disk without an entry, and in the case of a folder without all that is in it. -/
def removeEntry (disk : Disk) (names : List FileName) : Option Disk := do
  let path ← disk.entryPath? names
  match disk.tree.at? path with
  | some (.folder _) => some (disk.withTree (disk.tree.erase path))
  | some _ =>
    if names.getLast? = some [] then none else some (disk.withTree (disk.tree.erase path))
  | none => none

end ShowRelay.Disk
