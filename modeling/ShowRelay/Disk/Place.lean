/-
  ShowRelay.Disk.Place

  What stands at the path of the snapshot folder, and the requests by which the
  relay changes it or looks at it as a whole: making the folder, creating,
  extending, renaming and removing files directly inside it, and listing them.
-/

import ShowRelay.Disk.Folder
import ShowRelay.SystemFault

namespace ShowRelay

/-- What stands at the path of the snapshot folder. -/
inductive Place where
  | absent
  -- A regular file, which is in the way.
  | blocked (contents : Bytes)
  | folder (folder : Folder)

namespace Place

/-- The place as an entry of the folder above it. -/
def node? : Place → Option Node
  | absent => none
  | blocked contents => some (.file contents)
  | folder f => some (.folder f.entries)

/-- The place that is an entry of the folder above it. A link is no place of its own. -/
def ofNode? : Option Node → Place
  | some (.file contents) => blocked contents
  | some (.folder entries) => folder (.ofEntries entries)
  | _ => absent

/-- What stands in the folder under a name. -/
def find? : Place → FileName → Option Node
  | folder f, name => f.get? name
  | _, _ => none

/-- The place after asking for the folder to exist. -/
def makeFolder : Place → Except SystemFault Place
  | absent => .ok (folder Table.empty)
  | blocked _ => .error .alreadyExists
  | folder f => .ok (folder f)

/-- The place with an empty file of a name, which replaces a file there was. What a link
    leads to may be anywhere on the disk; here no link is followed. -/
def create (name : FileName) : Place → Except SystemFault Place
  | absent => .error .notFound
  | blocked _ => .error .notDirectory
  | folder f =>
    if FileName.maxLength < name.length then .error .nameTooLong
    else
      match f.get? name with
      | some (.folder _) => .error .isDirectory
      | some (.link _) => .error .tooManyLinks
      | _ => .ok (folder (f.insert name (.file [])))

/-- The place with bytes added to the end of a file. -/
def extend (name : FileName) (bytes : Bytes) : Place → Place
  | folder f =>
    match f.get? name with
    | some (.file contents) => folder (f.insert name (.file (contents ++ bytes)))
    | _ => folder f
  | place => place

/-- The place with a file under another name, where it replaces anything but a folder. -/
def rename (source target : FileName) : Place → Except SystemFault Place
  | absent => .error .notFound
  | blocked _ => .error .notDirectory
  | folder f =>
    if FileName.maxLength < target.length then .error .nameTooLong
    else
      match f.get? source, f.get? target with
      | none, _ => .error .notFound
      | some _, some (.folder _) => .error .isDirectory
      | some node, _ => .ok (folder ((f.erase source).insert target node))

/-- The place without a file or a link; a folder of that name stays. -/
def remove (name : FileName) : Place → Place
  | folder f =>
    match f.get? name with
    | some (.folder _) => folder f
    | _ => folder (f.erase name)
  | place => place

/-- The names of the regular files in the folder; links are not followed. -/
def fileNames : Place → Except SystemFault (List FileName)
  | absent => .error .notFound
  | blocked _ => .error .notDirectory
  | folder f => .ok (f.entries.filterMap fun
      | (name, .file _) => some name
      | _ => none)

end Place

end ShowRelay
