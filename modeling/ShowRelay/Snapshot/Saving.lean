/-
  ShowRelay.Snapshot.Saving

  Writing one snapshot as the requests it makes of the operating system, one at
  a time. The contents go into a hidden file of a name used only once, which is
  synced and then renamed over the target; a reader therefore finds the old
  contents or the new, never a part of them. After a refusal the hidden file is
  removed.

  Any request may be refused, except the removal at the end, and the contents may
  be taken in pieces of any size, so that runs of several writes may be
  interleaved at will. `Saving.complete` is the run in which nothing is refused
  without cause and the contents are taken at once.
-/

import ShowRelay.Disk.Basic
import ShowRelay.Snapshot.Name

namespace ShowRelay

/-- A folder of snapshots on a disk, as its writers share it. -/
structure Archive extends Disk where
  -- The path of the folder as it is shown.
  path : String
  -- The number of the writing process, part of the name of each hidden file.
  process : Nat
  -- How many hidden files were named so far.
  temporaries : Nat

/-- How far the writing of a snapshot has come: the request to be made next. -/
inductive Saving.Stage where
  | makingFolder
  | creating
  -- Add the rest of the contents to the hidden file.
  | writing (hidden : FileName) (rest : Bytes)
  | syncing (hidden : FileName)
  -- Rename the hidden file over the target.
  | renaming (hidden : FileName)
  -- Remove the hidden file after a refusal.
  | removing (hidden : FileName) (fault : SystemFault)
  -- None: the writing has succeeded, or failed for the reason given.
  | finished (fault : Option SystemFault)

/-- One snapshot being written. -/
structure Saving where
  name : SnapshotName
  contents : Bytes
  stage : Saving.Stage

/-- What becomes of a request. -/
inductive Saving.Reply where
  -- It is carried out if it can be; a request to write takes this many bytes.
  | grant (piece : Nat)
  | refuse (fault : SystemFault)
  deriving Repr, DecidableEq

namespace Saving

/-- The writing of a snapshot before its first request. -/
def start (name : SnapshotName) (contents : Bytes) : Saving := ⟨name, contents, .makingFolder⟩

/-- The name of a hidden file, made of the snapshot's name, the process and a count. -/
def hiddenName (name : SnapshotName) (process count : Nat) : FileName :=
  Utf8.encode ("." ++ name.text ++ "." ++ process.repr ++ "." ++ count.repr ++ ".tmp")

/-- The next request of a writing, and what is left to do after the reply. -/
def step (archive : Archive) (s : Saving) (reply : Reply) : Archive × Saving :=
  match s.stage with
  | .makingFolder =>
    match reply with
    | .refuse fault => (archive, { s with stage := .finished (some fault) })
    | .grant _ =>
      match archive.place.makeFolder with
      | .error fault => (archive, { s with stage := .finished (some fault) })
      | .ok place => ({ archive with place }, { s with stage := .creating })
  | .creating =>
    let hidden := hiddenName s.name archive.process archive.temporaries
    let archive := { archive with temporaries := archive.temporaries + 1 }
    match reply with
    | .refuse fault => (archive, { s with stage := .removing hidden fault })
    | .grant _ =>
      match archive.toDisk.create hidden with
      | .error fault => (archive, { s with stage := .removing hidden fault })
      | .ok disk =>
        ({ archive with toDisk := disk }, { s with stage := .writing hidden s.contents })
  | .writing hidden rest =>
    match reply with
    | .refuse fault => (archive, { s with stage := .removing hidden fault })
    | .grant piece =>
      let archive := { archive with toDisk := archive.toDisk.extend hidden (rest.take piece) }
      match rest.drop piece with
      | [] => (archive, { s with stage := .syncing hidden })
      | left => (archive, { s with stage := .writing hidden left })
  | .syncing hidden =>
    match reply with
    | .refuse fault => (archive, { s with stage := .removing hidden fault })
    | .grant _ => (archive, { s with stage := .renaming hidden })
  | .renaming hidden =>
    match reply with
    | .refuse fault => (archive, { s with stage := .removing hidden fault })
    | .grant _ =>
      match archive.place.rename hidden s.name.fileName with
      | .error fault => (archive, { s with stage := .removing hidden fault })
      | .ok place => ({ archive with place }, { s with stage := .finished none })
  | .removing hidden fault =>
    ({ archive with place := archive.place.remove hidden },
      { s with stage := .finished (some fault) })
  | .finished _ => (archive, s)

/-- The number of requests after which every writing is finished, when its contents
    are taken at once. -/
def requests : Nat := 6

/-- A writing carried through to its end: some replies to its first requests, and after them
    nothing is refused without cause. -/
def completeWith (archive : Archive) (s : Saving) (replies : List Reply) : Archive × Saving :=
  (replies ++ List.replicate requests (Reply.grant s.contents.length)).foldl
    (fun (archive, s) reply => step archive s reply) (archive, s)

/-- A writing carried through to its end with nothing refused without cause. -/
def complete (archive : Archive) (s : Saving) : Archive × Saving := completeWith archive s []

end Saving

end ShowRelay
