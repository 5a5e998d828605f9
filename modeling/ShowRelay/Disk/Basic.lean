/-
  ShowRelay.Disk.Basic

  A disk as a relay sees it: the snapshot folder, in which the relay keeps its
  files, and all the folders around it. The snapshot folder has its place in the
  working folder.

  Reading follows symbolic links, at most forty, and so does creating a file,
  which is the only way in which a relay gets at anything outside the snapshot
  folder. A link is looked up from the folder it stands in, or from the root
  folder, and the root folder stands in itself.

  The snapshot folder is always the one called `Disk.ownName`: what the settings
  call it is shown in answers and takes part in no look-up. A folder whose path
  is empty or too long, or whose parents are missing, unreadable or no folders,
  is therefore not described here; of what may be wrong with it there are a file
  in its place and refusals of single requests.
-/

import ShowRelay.Disk.Path
import ShowRelay.Disk.Place

namespace ShowRelay

/-- A disk. -/
structure Disk where
  -- What stands at the path of the snapshot folder.
  place : Place
  -- The root folder; what it has at the path of the snapshot folder does not count.
  root : Node := .folder []
  -- The names that lead from the root folder to the working folder.
  working : List FileName := []

namespace Disk

/-- The name under which the snapshot folder stands in the working folder, whatever the
    settings call it. -/
def ownName : FileName := Utf8.encode "presets"

/-- The names that lead from the root folder to the snapshot folder. -/
def placePath (disk : Disk) : List FileName := disk.working ++ [ownName]

/-- The root folder with everything below it. -/
def tree (disk : Disk) : Node :=
  match disk.place.node? with
  | some node => disk.root.put disk.placePath node
  | none => disk.root.erase disk.placePath

/-- The tree has at the path of the snapshot folder what stands there. -/
theorem at?_tree (disk : Disk) : disk.tree.at? disk.placePath = disk.place.node? := by
  unfold tree
  split
  · next node h => rw [h, Node.at?_put]
  · next h => rw [h, Node.at?_erase _ _ (by simp [placePath])]

/-- The disk with another tree. -/
def withTree (disk : Disk) (tree : Node) : Disk :=
  { disk with place := .ofNode? (tree.at? disk.placePath), root := tree.erase disk.placePath }

/-- The disk with a node put at the end of a path without links and detours. -/
def put (disk : Disk) (node : Node) (path : List FileName) : Disk :=
  disk.withTree (disk.tree.put path node)

/-! ## Looking up paths -/

/-- The most symbolic links that one look-up follows. -/
def maxLinks : Nat := 40

/-- Where a path leads from the folder `here` below `root`: the path without links
    and detours, and what stands there. Only the last name may stand for nothing. -/
def walk (root : Node) (links : Nat) (here : List FileName) :
    (names : List FileName) → Except SystemFault (List FileName × Option Node)
  | [] => .ok (here, root.at? here)
  | name :: rest =>
    if name = [] ∨ name = Path.itself then walk root links here rest
    else if name = Path.parent then walk root links here.dropLast rest
    else if FileName.maxLength < name.length then .error .nameTooLong
    else
      match root.at? (here ++ [name]) with
      | none => if rest = [] then .ok (here ++ [name], none) else .error .notFound
      | some (.file contents) =>
        if rest = [] then .ok (here ++ [name], some (.file contents)) else .error .notDirectory
      | some (.folder _) => walk root links (here ++ [name]) rest
      | some (.link target) =>
        match links with
        | 0 => .error .tooManyLinks
        | links + 1 =>
          let names := target.splitOn Path.separator
          walk root links (if Path.isFromRoot names then [] else here) (names ++ rest)
termination_by names => (links, names.length)

/-- Where the path of some names leads. -/
def locate (disk : Disk) (names : List FileName) :
    Except SystemFault (List FileName × Option Node) :=
  walk disk.tree maxLinks (if Path.isFromRoot names then [] else disk.working) names

/-! ## Reading -/

/-- The contents of the file to which the path of some names leads. -/
def contentsAt (disk : Disk) (names : List FileName) : Except SystemFault Bytes := do
  match ← disk.locate names with
  | (_, some (.file contents)) => .ok contents
  | (_, some (.folder _)) => .error .isDirectory
  | _ => .error .notFound

/-- The contents of the file at a path. -/
def readPath (disk : Disk) (path : Bytes) : Except SystemFault Bytes := do
  disk.contentsAt (← Path.names path)

/-- The contents of a file in the snapshot folder. -/
def read (disk : Disk) (name : FileName) : Except SystemFault Bytes :=
  if Path.maxLength < (Path.join ownName name).length then .error .nameTooLong
  else disk.contentsAt [ownName, name]

/-! ## Writing -/

/-- Whether a look-up comes to a last name with a separator after it, which asks for a folder
    whatever the name stands for. -/
def asksFolder (root : Node) (links : Nat) (here : List FileName) :
    (names : List FileName) → Bool
  | [] => false
  | name :: rest =>
    if name = [] ∨ name = Path.itself then asksFolder root links here rest
    else if name = Path.parent then asksFolder root links here.dropLast rest
    else if rest ≠ [] ∧ ∀ other ∈ rest, other = [] then true
    else if FileName.maxLength < name.length then false
    else
      match root.at? (here ++ [name]) with
      | some (.folder _) => asksFolder root links (here ++ [name]) rest
      | some (.link target) =>
        match links with
        | 0 => false
        | links + 1 =>
          let names := target.splitOn Path.separator
          asksFolder root links (if Path.isFromRoot names then [] else here) (names ++ rest)
      | _ => false
termination_by names => (links, names.length)

/-- The disk with an empty file where a name in the snapshot folder leads: a link is followed
    to wherever it leads, and the file there is emptied or made. -/
def create (disk : Disk) (name : FileName) : Except SystemFault Disk :=
  match disk.place.find? name with
  | some (.link _) =>
    if asksFolder disk.tree maxLinks disk.placePath [name] then .error .isDirectory
    else do
      match ← disk.locate [ownName, name] with
      | (_, some (.folder _)) => .error .isDirectory
      | (path, _) => .ok (disk.put (.file []) path)
  | _ => do
    return { disk with place := ← disk.place.create name }

/-- The disk with bytes added to the end of the file to which a name in the snapshot folder
    leads. -/
def extend (disk : Disk) (name : FileName) (bytes : Bytes) : Disk :=
  match disk.place.find? name with
  | some (.link _) =>
    match disk.locate [ownName, name] with
    | .ok (path, some (.file contents)) => disk.put (.file (contents ++ bytes)) path
    | _ => disk
  | _ => { disk with place := disk.place.extend name bytes }

end Disk

end ShowRelay
