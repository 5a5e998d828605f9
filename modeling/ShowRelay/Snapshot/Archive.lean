/-
  ShowRelay.Snapshot.Archive

  A folder of snapshots as a whole: saving under a name, loading by a name, and
  listing the names there are. Names given from outside are reduced first, so
  that several of them may stand for the same snapshot.
-/

import ShowRelay.Snapshot.Saving
import ShowRelay.Store
import ShowRelay.Text.Cut

namespace ShowRelay

namespace Archive

/-- The archive of a process that has not written to it yet. -/
def ofDisk (path : String) (disk : Disk) (process : Nat) : Archive :=
  { toDisk := disk, path, process, temporaries := 0 }

/-- A path followed by the path of something within it; a path from the root
    stands for itself. -/
def joinPath (folder file : String) : String :=
  if file.toList.head? = some '/' then file
  else if folder.toList.getLast?.all (· = '/') then folder ++ file
  else folder ++ "/" ++ file

/-- The path of the snapshot file of a name, which is taken as it is. -/
def pathFor (archive : Archive) (name : String) : String :=
  joinPath archive.path (name ++ SnapshotName.ending)

/-- The contents of the snapshot of a store: its text and one line end. -/
def contentsOf (store : Store) : String := store.text ++ "\n"

/-- Writes a text as the snapshot of a name, with some replies to the first requests and
    nothing refused without cause after them; the answer is the path of its file. -/
def saveWith (archive : Archive) (replies : List Saving.Reply) (name contents : String) :
    Archive × Except SnapshotError String :=
  match SnapshotName.sanitize name with
  | .error e => (archive, .error e)
  | .ok clean =>
    let (archive, saving) :=
      Saving.completeWith archive (.start clean (Utf8.encode contents)) replies
    match saving.stage with
    | .finished none => (archive, .ok (archive.pathFor clean.text))
    | .finished (some fault) => (archive, .error (.persistence clean.text fault))
    | _ => (archive, .error (.persistence clean.text .inputOutput))

/-- Writes a text as the snapshot of a name when nothing is refused without cause. -/
def save (archive : Archive) (name contents : String) : Archive × Except SnapshotError String :=
  archive.saveWith [] name contents

/-- The text of the snapshot of a name. -/
def load (archive : Archive) (name : String) : Except SnapshotError String := do
  let clean ← SnapshotName.sanitize name
  match archive.read clean.fileName with
  | .error .notFound => .error (.notFound clean.text)
  | .error fault => .error (.persistence clean.text fault)
  | .ok bytes =>
    match Utf8.decode? bytes with
    | some text => .ok text
    | none => .error (.persistence clean.text .notText)

/-- The name under which a file is listed: it has to be text and end as snapshots do. -/
def listedName? (file : FileName) : Option String := do
  let text ← Utf8.decode? file
  let stem ← Text.dropBack? SnapshotName.ending.toList text.toList
  if stem.isEmpty then none else some (String.ofList stem)

/-- The names of the stored snapshots in ascending order; an archive whose folder
    does not exist yet has none. -/
def list (archive : Archive) : Except SnapshotError (List String) :=
  match archive.place.fileNames with
  | .error .notFound => .ok []
  | .error fault => .error (.persistence "" fault)
  | .ok files =>
    let names : Table String Unit :=
      Table.empty.insertAll ((files.filterMap listedName?).map fun name => (name, ()))
    .ok names.keys

end Archive

end ShowRelay
