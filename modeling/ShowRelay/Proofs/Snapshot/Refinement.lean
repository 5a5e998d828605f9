/-
  ShowRelay.Proofs.Snapshot.Refinement

  A store of snapshots as a map from names to texts. Its operations come one after
  the other, and nothing else touches the folder: then a save changes the entry of
  its own file or fails and changes nothing (`Saving.complete_eq`), so that after any
  operations every file is what was saved last under its name, or what it was in the
  first place (`Archive.Keeps`). What is loaded, listed and refused follows from that
  (`Archive.refines`).

  A hidden file's name is longer than its snapshot's, by the digits of two numbers
  among others. A process that has named many hidden files can therefore save under
  short names only (`Archive.not_saved_of_count`).
-/

import Mathlib.Data.List.Induction
import ShowRelay.Proofs.Snapshot.Reading

namespace ShowRelay

/-! ## When requests succeed -/

namespace Place

variable {f : Folder} {name source target : FileName} {node : Node}

theorem create_of_fresh (hlength : name.length ≤ FileName.maxLength) (hfresh : f.get? name = none) :
    (folder f).create name = .ok (folder (f.insert name (.file []))) := by
  rw [create, if_neg (Nat.not_lt_of_le hlength), hfresh]

theorem rename_of_free (hlength : target.length ≤ FileName.maxLength)
    (hsource : f.get? source = some node)
    (hfree : ∀ entries, f.get? target ≠ some (.folder entries)) :
    (folder f).rename source target = .ok (folder ((f.erase source).insert target node)) := by
  rw [rename, if_neg (Nat.not_lt_of_le hlength), hsource]
  cases htarget : f.get? target with
  | none => rfl
  | some old =>
    cases old with
    | file contents => rfl
    | folder entries => exact absurd htarget (hfree entries)
    | link path => rfl

theorem rename_of_folder {entries : List (FileName × Node)}
    (hlength : target.length ≤ FileName.maxLength) (hsource : f.get? source = some node)
    (htarget : f.get? target = some (.folder entries)) :
    (folder f).rename source target = .error .isDirectory := by
  rw [rename, if_neg (Nat.not_lt_of_le hlength), hsource, htarget]

end Place

/-! ## A save from its first request to its last -/

namespace Saving

section

variable {archive : Archive} {name : SnapshotName} {contents : Bytes} {place : Place}
  {hidden : FileName} {fault : SystemFault} (piece : Nat)

theorem step_makingFolder (h : archive.place.makeFolder = .ok place) :
    step archive ⟨name, contents, .makingFolder⟩ (.grant piece) =
      ({ archive with place }, ⟨name, contents, .creating⟩) := by
  simp only [step, h]

theorem step_creating (hname : hiddenName name archive.process archive.temporaries = hidden)
    (hfresh : archive.place.find? hidden = none) (h : archive.place.create hidden = .ok place) :
    step archive ⟨name, contents, .creating⟩ (.grant piece) =
      ({ archive with place, temporaries := archive.temporaries + 1 },
        ⟨name, contents, .writing hidden contents⟩) := by
  have hcreate : archive.create hidden = _ :=
    Disk.create_eq (Place.not_link_of_fresh hfresh)
  simp only [step, hname, hcreate, h, Except.map]

theorem step_creating_refused
    (hname : hiddenName name archive.process archive.temporaries = hidden)
    (hfresh : archive.place.find? hidden = none) (h : archive.place.create hidden = .error fault) :
    step archive ⟨name, contents, .creating⟩ (.grant piece) =
      ({ archive with temporaries := archive.temporaries + 1 },
        ⟨name, contents, .removing hidden fault⟩) := by
  have hcreate : archive.create hidden = _ :=
    Disk.create_eq (Place.not_link_of_fresh hfresh)
  simp only [step, hname, hcreate, h, Except.map]

theorem step_writing {written : Bytes} (hfile : archive.place.find? hidden = some (.file written)) :
    step archive ⟨name, contents, .writing hidden contents⟩ (.grant contents.length) =
      ({ archive with place := archive.place.extend hidden contents },
        ⟨name, contents, .syncing hidden⟩) := by
  have hextend : archive.extend hidden contents = _ :=
    Disk.extend_eq (Place.not_link_of_file hfile) contents
  simp only [step, List.take_length, List.drop_length, hextend]

theorem step_syncing : step archive ⟨name, contents, .syncing hidden⟩ (.grant piece) =
    (archive, ⟨name, contents, .renaming hidden⟩) := rfl

theorem step_renaming (h : archive.place.rename hidden name.fileName = .ok place) :
    step archive ⟨name, contents, .renaming hidden⟩ (.grant piece) =
      ({ archive with place }, ⟨name, contents, .finished none⟩) := by
  simp only [step, h]

theorem step_renaming_refused (h : archive.place.rename hidden name.fileName = .error fault) :
    step archive ⟨name, contents, .renaming hidden⟩ (.grant piece) =
      (archive, ⟨name, contents, .removing hidden fault⟩) := by
  simp only [step, h]

theorem step_removing : step archive ⟨name, contents, .removing hidden fault⟩ (.grant piece) =
    ({ archive with place := archive.place.remove hidden },
      ⟨name, contents, .finished (some fault)⟩) := rfl

theorem step_finished {fault : Option SystemFault} :
    step archive ⟨name, contents, .finished fault⟩ (.grant piece) =
      (archive, ⟨name, contents, .finished fault⟩) := rfl

end

/-- Why a save that nothing disturbs fails, if it does: the name of its hidden file is too long,
    or a folder is where its file should be. -/
def obstacle? (archive : Archive) (name : SnapshotName) : Option SystemFault :=
  if FileName.maxLength < (hiddenName name archive.process archive.temporaries).length then
    some .nameTooLong
  else
    match archive.place.find? name.fileName with
    | some (.folder _) => some .isDirectory
    | _ => none

theorem obstacle?_eq_none_iff {archive : Archive} {name : SnapshotName} :
    obstacle? archive name = none ↔
      (hiddenName name archive.process archive.temporaries).length ≤ FileName.maxLength ∧
      ∀ entries, archive.place.find? name.fileName ≠ some (.folder entries) := by
  rw [obstacle?]
  split
  · next hlong => exact ⟨nofun, fun h => absurd h.1 (Nat.not_le_of_lt hlong)⟩
  next hlength =>
  split
  · next entries hfolder => exact ⟨nofun, fun h => absurd hfolder (h.2 entries)⟩
  · next hfree => exact ⟨fun _ => ⟨Nat.le_of_not_lt hlength, hfree⟩, fun _ => rfl⟩

section

variable {archive : Archive} {name : SnapshotName} {f : Folder} {hidden : FileName}

/-- The six requests of a save, which are all granted. -/
theorem complete_start (archive : Archive) (name : SnapshotName) (contents : Bytes) :
    complete archive (.start name contents) =
      [Reply.grant contents.length, .grant contents.length, .grant contents.length,
        .grant contents.length, .grant contents.length, .grant contents.length].foldl
          (fun (archive, s) reply => step archive s reply)
          (archive, ⟨name, contents, .makingFolder⟩) := rfl

theorem complete_of_long (contents : Bytes) (hmade : archive.place.makeFolder = .ok (.folder f))
    (hname : hiddenName name archive.process archive.temporaries = hidden)
    (hfresh : f.get? hidden = none) (hlong : FileName.maxLength < hidden.length) :
    complete archive (.start name contents) =
      ({ archive with place := .folder (f.erase hidden), temporaries := archive.temporaries + 1 },
        ⟨name, contents, .finished (some .nameTooLong)⟩) := by
  have hcreate : (Place.folder f).create hidden = .error .nameTooLong := by
    rw [Place.create, if_pos hlong]
  have hcreating : step { archive with place := .folder f } ⟨name, contents, .creating⟩
      (.grant contents.length) = _ := step_creating_refused contents.length hname hfresh hcreate
  simp only [complete_start, List.foldl_cons, List.foldl_nil, step_makingFolder _ hmade, hcreating,
    step_removing, step_finished, Place.remove, hfresh]

/-- The folder when the hidden file has been written. -/
def written (f : Folder) (hidden : FileName) (contents : Bytes) : Folder :=
  (f.insert hidden (.file [])).insert hidden (.file contents)

theorem get?_written (f : Folder) (hidden : FileName) (contents : Bytes) (file : FileName) :
    (written f hidden contents).get? file =
      if file = hidden then some (.file contents) else f.get? file := by
  rw [written, Table.get?_insert, Table.get?_insert]
  by_cases h : file = hidden
  · rw [if_pos h, if_pos h]
  · rw [if_neg h, if_neg h, if_neg h]

variable (hmade : archive.place.makeFolder = .ok (.folder f))
  (hname : hiddenName name archive.process archive.temporaries = hidden)
  (hlength : hidden.length ≤ FileName.maxLength) (hfresh : f.get? hidden = none)

include hmade hname hlength hfresh

/-- Up to its renaming a save that can create its hidden file goes well. -/
theorem complete_of_created (contents : Bytes) :
    complete archive (.start name contents) =
      [Reply.grant contents.length, .grant contents.length].foldl
        (fun (archive, s) reply => step archive s reply)
        ({ archive with
            place := .folder (written f hidden contents),
            temporaries := archive.temporaries + 1 },
          ⟨name, contents, .renaming hidden⟩) := by
  have hat : (f.insert hidden (.file [])).get? hidden = some (.file []) := by
    rw [Table.get?_insert, if_pos rfl]
  have hcreating : step { archive with place := .folder f } ⟨name, contents, .creating⟩
      (.grant contents.length) = _ :=
    step_creating contents.length hname hfresh (Place.create_of_fresh hlength hfresh)
  have hwriting : step { archive with
      place := .folder (f.insert hidden (.file [])), temporaries := archive.temporaries + 1 }
      ⟨name, contents, .writing hidden contents⟩ (.grant contents.length) = _ := step_writing hat
  have hextend : (Place.folder (f.insert hidden (.file []))).extend hidden contents =
      .folder (written f hidden contents) := Place.extend_of_file hat contents
  simp only [complete_start, List.foldl_cons, List.foldl_nil, step_makingFolder _ hmade, hcreating,
    hwriting, step_syncing, hextend]

/-- A save whose file is free. -/
theorem complete_of_free (contents : Bytes) (hfile : name.fileName.length ≤ FileName.maxLength)
    (hfree : ∀ entries, f.get? name.fileName ≠ some (.folder entries))
    (hne : name.fileName ≠ hidden) :
    complete archive (.start name contents) =
      ({ archive with
          place := .folder (((written f hidden contents).erase hidden).insert name.fileName
            (.file contents)),
          temporaries := archive.temporaries + 1 },
        ⟨name, contents, .finished none⟩) := by
  have hat : (written f hidden contents).get? hidden = some (.file contents) := by
    rw [get?_written, if_pos rfl]
  have hfree' : ∀ entries, (written f hidden contents).get? name.fileName ≠
      some (.folder entries) := by
    intro entries
    rw [get?_written, if_neg hne]
    exact hfree entries
  have hrenaming : step { archive with
      place := .folder (written f hidden contents), temporaries := archive.temporaries + 1 }
      ⟨name, contents, .renaming hidden⟩ (.grant contents.length) = _ :=
    step_renaming contents.length (Place.rename_of_free hfile hat hfree')
  simp only [complete_of_created hmade hname hlength hfresh, List.foldl_cons, List.foldl_nil,
    hrenaming, step_finished]

/-- A save over a folder. -/
theorem complete_of_folder (contents : Bytes) (hfile : name.fileName.length ≤ FileName.maxLength)
    {entries : List (FileName × Node)} (hfolder : f.get? name.fileName = some (.folder entries))
    (hne : name.fileName ≠ hidden) :
    complete archive (.start name contents) =
      ({ archive with
          place := .folder ((written f hidden contents).erase hidden),
          temporaries := archive.temporaries + 1 },
        ⟨name, contents, .finished (some .isDirectory)⟩) := by
  have hat : (written f hidden contents).get? hidden = some (.file contents) := by
    rw [get?_written, if_pos rfl]
  have hfolder' : (written f hidden contents).get? name.fileName = some (.folder entries) := by
    rw [get?_written, if_neg hne, hfolder]
  have hrenaming : step { archive with
      place := .folder (written f hidden contents), temporaries := archive.temporaries + 1 }
      ⟨name, contents, .renaming hidden⟩ (.grant contents.length) = _ :=
    step_renaming_refused contents.length (Place.rename_of_folder hfile hat hfolder')
  simp only [complete_of_created hmade hname hlength hfresh, List.foldl_cons, List.foldl_nil,
    hrenaming, step_removing, Place.remove, hat]

end

/-- A save that finds no file of the name of its hidden file. It changes the entry of its own
    file if there is no obstacle, and otherwise nothing. -/
theorem complete_eq {archive : Archive} {name : SnapshotName} (contents : Bytes)
    (hunblocked : archive.place.Unblocked)
    (hfresh : archive.place.find? (hiddenName name archive.process archive.temporaries) = none) :
    ∃ place, place.Unblocked ∧
      complete archive (.start name contents) =
        ({ archive with place, temporaries := archive.temporaries + 1 },
          ⟨name, contents, .finished (obstacle? archive name)⟩) ∧
      ∀ file, place.find? file =
        if file = name.fileName ∧ obstacle? archive name = none then some (.file contents)
        else archive.place.find? file := by
  obtain ⟨f, hmade, hentries⟩ := Place.makeFolder_eq_of_unblocked hunblocked
  obtain ⟨hidden, hname⟩ : ∃ hidden, hiddenName name archive.process archive.temporaries = hidden :=
    ⟨_, rfl⟩
  have hlengths := length_hiddenName name archive.process archive.temporaries
  have hfile := name.length_fileName
  have hne : name.fileName ≠ hidden := fun heq =>
    hiddenName_ne_fileName name archive.process archive.temporaries name (hname.trans heq.symm)
  rw [hname] at hfresh hlengths
  have hsame : ∀ file, f.get? file = archive.place.find? file := hentries
  have hunchanged : ∀ file, (if file = hidden then none else f.get? file) =
      archive.place.find? file := by
    intro file
    split
    · next heq => rw [heq, hfresh]
    · exact hsame file
  have hnone : f.get? hidden = none := (hsame hidden).trans hfresh
  by_cases hlong : FileName.maxLength < hidden.length
  · have hobstacle : obstacle? archive name = some .nameTooLong := by
      rw [obstacle?, hname, if_pos hlong]
    rw [hobstacle]
    refine ⟨_, Place.unblocked_folder _, complete_of_long contents hmade hname hnone hlong,
      fun file => ?_⟩
    rw [if_neg fun h => Option.some_ne_none _ h.2, ← hunchanged]
    exact Table.get?_erase f hidden file
  have hlength := Nat.le_of_not_lt hlong
  have hfits : name.fileName.length ≤ FileName.maxLength := by omega
  have herased : ∀ file, ((written f hidden contents).erase hidden).get? file =
      archive.place.find? file := by
    intro file
    rw [Table.get?_erase, get?_written, ← hunchanged]
    by_cases h : file = hidden
    · rw [if_pos h, if_pos h]
    · rw [if_neg h, if_neg h, if_neg h]
  cases hobstacle : obstacle? archive name with
  | none =>
    obtain ⟨-, hfree⟩ := obstacle?_eq_none_iff.1 hobstacle
    refine ⟨_, Place.unblocked_folder _, complete_of_free hmade hname hlength hnone contents hfits
      (fun entries => hsame name.fileName ▸ hfree entries) hne, fun file => ?_⟩
    show Table.get? _ file = _
    rw [Table.get?_insert]
    by_cases heq : file = name.fileName
    · rw [if_pos heq, if_pos ⟨heq, rfl⟩]
    · rw [if_neg heq, if_neg fun h => heq h.1, herased]
  | some fault =>
    rw [obstacle?, hname, if_neg hlong] at hobstacle
    split at hobstacle
    · next entries hfolder =>
      cases hobstacle
      refine ⟨_, Place.unblocked_folder _, complete_of_folder hmade hname hlength hnone contents
        hfits ((hsame name.fileName).trans hfolder) hne, fun file => ?_⟩
      show Table.get? _ file = _
      rw [if_neg fun h => Option.some_ne_none _ h.2, herased]
    · cases hobstacle

end Saving

/-! ## Saves -/

namespace Archive

/-- A name of which nothing is left is refused before anything else happens. -/
theorem save_of_refused {archive : Archive} {raw contents : String} {e : SnapshotError}
    (h : SnapshotName.sanitize raw = .error e) :
    archive.save raw contents = (archive, .error e) := by
  simp only [save, saveWith, h]

/-- A save answers as its writing has ended. -/
theorem save_of_finished {archive after : Archive} {raw contents : String} {name : SnapshotName}
    {s : Saving} {fault : Option SystemFault} (hname : SnapshotName.sanitize raw = .ok name)
    (hcomplete : Saving.complete archive (.start name (Utf8.encode contents)) = (after, s)) :
    s.stage = .finished fault → archive.save raw contents = (after,
      match fault with
      | none => .ok (after.pathFor name.text)
      | some fault => .error (.persistence name.text fault)) := by
  intro hover
  rw [Saving.complete] at hcomplete
  cases fault with
  | none => simp only [save, saveWith, hname, hcomplete, hover]
  | some fault => simp only [save, saveWith, hname, hcomplete, hover]

/-- A save in a folder without hidden files. -/
theorem save_eq {archive : Archive} {raw : String} {name : SnapshotName} (contents : String)
    (h : SnapshotName.sanitize raw = .ok name) (hunblocked : archive.place.Unblocked)
    (hfresh : archive.place.find?
      (Saving.hiddenName name archive.process archive.temporaries) = none) :
    ∃ place, place.Unblocked ∧
      archive.save raw contents =
        ({ archive with place, temporaries := archive.temporaries + 1 },
          match Saving.obstacle? archive name with
          | none => .ok (archive.pathFor name.text)
          | some fault => .error (.persistence name.text fault)) ∧
      ∀ file, place.find? file =
        if file = name.fileName ∧ Saving.obstacle? archive name = none then
          some (.file (Utf8.encode contents))
        else archive.place.find? file := by
  obtain ⟨place, hplace, hcomplete, hentries⟩ :=
    Saving.complete_eq (Utf8.encode contents) hunblocked hfresh
  exact ⟨place, hplace, save_of_finished h hcomplete rfl, hentries⟩

/-! ## Sequences of operations -/

/-- What a store of snapshots is asked for. -/
inductive Operation where
  | save (name : String) (store : Store)
  | saveText (name contents : String)
  | load (name : String)
  | list

/-- The name and the contents that an operation is to save. -/
def Operation.saving? : Operation → Option (String × String)
  | save name store => some (name, contentsOf store)
  | saveText name contents => some (name, contents)
  | _ => none

/-- The archive after an operation; loading and listing change nothing. -/
def after (archive : Archive) (operation : Operation) : Archive :=
  match operation.saving? with
  | some (name, contents) => (archive.save name contents).1
  | none => archive

/-- What an operation saves with success, under its reduced name. -/
def saved (archive : Archive) (operation : Operation) : List (SnapshotName × String) :=
  match operation.saving? with
  | some (name, contents) =>
    match SnapshotName.sanitize name, (archive.save name contents).2 with
    | .ok clean, .ok _ => [(clean, contents)]
    | _, _ => []
  | none => []

/-- The archive after some operations, one after the other. -/
def serve (archive : Archive) (operations : List Operation) : Archive :=
  operations.foldl after archive

/-- What some operations save with success, one after the other. -/
def saves (archive : Archive) : List Operation → List (SnapshotName × String)
  | [] => []
  | operation :: operations => archive.saved operation ++ (archive.after operation).saves operations

theorem serve_concat (archive : Archive) (operations : List Operation) (operation : Operation) :
    archive.serve (operations ++ [operation]) = (archive.serve operations).after operation := by
  rw [serve, List.foldl_append]
  rfl

theorem saves_concat (archive : Archive) (operations : List Operation) (operation : Operation) :
    archive.saves (operations ++ [operation]) =
      archive.saves operations ++ (archive.serve operations).saved operation := by
  induction operations generalizing archive with
  | nil => exact List.append_nil _
  | cons first operations ih =>
    rw [List.cons_append, saves, saves, ih, List.append_assoc]
    rfl

/-- What holds between operations: no hidden file is there, and every file is what was saved
    last under its name, or what it was in the first place. -/
structure Keeps (first archive : Archive) (saved : List (SnapshotName × String)) : Prop where
  process : archive.process = first.process
  noHidden : ∀ name count,
    archive.place.find? (Saving.hiddenName name first.process count) = none
  shows : Shows first archive saved
  short : ∀ s ∈ saved, s.1.fileName.length ≤ FileName.maxLength

theorem keeps_first {first : Archive} (h : first.Clear) : Keeps first first [] :=
  ⟨rfl, h.noHidden, ⟨h.unblocked, fun _ _ => rfl⟩, nofun⟩

variable {first archive : Archive} {saved : List (SnapshotName × String)}

/-- The name of the next hidden file is free. -/
theorem Keeps.fresh (h : Keeps first archive saved) (name : SnapshotName) :
    archive.place.find? (Saving.hiddenName name archive.process archive.temporaries) = none := by
  rw [h.process]
  exact h.noHidden name archive.temporaries

theorem Keeps.save (h : Keeps first archive saved) {raw : String} {name : SnapshotName}
    (hname : SnapshotName.sanitize raw = .ok name) (contents : String) :
    Keeps first (archive.save raw contents).1
      (saved ++ if Saving.obstacle? archive name = none then [(name, contents)] else []) := by
  obtain ⟨place, hplace, hsave, hentries⟩ := save_eq contents hname h.shows.unblocked (h.fresh name)
  rw [hsave]
  refine ⟨h.process, fun other count => ?_, ⟨hplace, fun file hfile => ?_⟩, ?_⟩
  · show place.find? _ = none
    rw [hentries, if_neg, h.noHidden]
    rintro ⟨heq, -⟩
    exact Saving.hiddenName_ne_fileName other first.process count name heq
  · show place.find? file = _
    rw [hentries]
    cases hobstacle : Saving.obstacle? archive name with
    | none =>
      have hfiles : files (saved ++ [(name, contents)]) =
          files saved ++ [(name.fileName, .file (Utf8.encode contents))] := List.map_append
      rw [if_pos rfl, hfiles, Entries.last?_concat]
      by_cases heq : file = name.fileName
      · rw [if_pos ⟨heq, rfl⟩, if_pos heq.symm, Option.some_or]
      · rw [if_neg fun h => heq h.1, if_neg (Ne.symm heq), h.shows.entries file hfile]
    | some fault =>
      rw [if_neg fun h => absurd h.2 nofun, if_neg nofun, List.append_nil,
        h.shows.entries file hfile]
  · intro s hs
    rcases List.mem_append.1 hs with hs | hs
    · exact h.short s hs
    · split at hs
      · next hobstacle =>
        obtain ⟨hlength, -⟩ := Saving.obstacle?_eq_none_iff.1 hobstacle
        rw [Saving.length_hiddenName] at hlength
        cases List.mem_singleton.1 hs
        show name.fileName.length ≤ FileName.maxLength
        rw [SnapshotName.length_fileName]
        omega
      · cases hs

theorem Keeps.after (h : Keeps first archive saved) (operation : Operation) :
    Keeps first (archive.after operation) (saved ++ archive.saved operation) := by
  rw [Archive.after, Archive.saved]
  cases operation.saving? with
  | none =>
    rw [List.append_nil]
    exact h
  | some request =>
    obtain ⟨raw, contents⟩ := request
    cases hname : SnapshotName.sanitize raw with
    | error e =>
      simp only [save_of_refused hname, hname, List.append_nil]
      exact h
    | ok name =>
      have hkeeps := h.save hname contents
      obtain ⟨place, -, hsave, -⟩ := save_eq contents hname h.shows.unblocked (h.fresh name)
      have hresult := congrArg Prod.snd hsave
      simp only [hname]
      cases hobstacle : Saving.obstacle? archive name with
      | none =>
        rw [hobstacle] at hkeeps hresult
        simp only [hresult]
        exact hkeeps
      | some fault =>
        rw [hobstacle] at hkeeps hresult
        simp only [hresult]
        exact hkeeps

theorem keeps_of_serve (h : first.Clear) (operations : List Operation) :
    Keeps first (first.serve operations) (first.saves operations) := by
  induction operations using List.reverseRecOn with
  | nil => exact keeps_first h
  | append_singleton operations operation ih =>
    rw [serve_concat, saves_concat]
    exact ih.after operation

/-! ## What is loaded, listed and refused -/

/-- A name that is too long loads nothing. -/
theorem load_ne_ok {archive : Archive} {raw : String} {name : SnapshotName}
    (hname : SnapshotName.sanitize raw = .ok name)
    (hlength : FileName.maxLength < name.fileName.length) (text : String) :
    archive.load raw ≠ .ok text := by
  simp only [load, hname, bind, Except.bind]
  intro h
  cases hread : archive.read name.fileName with
  | ok contents => exact absurd hread (Disk.read_ne_ok hlength contents)
  | error fault =>
    rw [hread] at h
    cases fault with
    | _ => cases h

/-- A file is loaded as the text that it holds. -/
theorem load_eq_ok_iff {archive : Archive} (hclear : archive.Clear) {raw text : String}
    {name : SnapshotName} (hname : SnapshotName.sanitize raw = .ok name)
    (hlength : name.fileName.length ≤ FileName.maxLength) :
    archive.load raw = .ok text ↔
      archive.place.find? name.fileName = some (.file (Utf8.encode text)) := by
  rw [load_eq hname hclear.unblocked (hclear.noLink name.fileName) hlength]
  cases archive.place.find? name.fileName with
  | none => exact ⟨nofun, nofun⟩
  | some node =>
    cases node with
    | folder entries => exact ⟨nofun, nofun⟩
    | link target => exact ⟨nofun, nofun⟩
    | file bytes =>
      rw [Option.some.injEq, Node.file.injEq, ← Utf8.decode?_eq_some_iff]
      cases hdecode : Utf8.decode? bytes with
      | none => simp only [hdecode, reduceCtorEq]
      | some decoded => simp only [hdecode, Except.ok.injEq, Option.some.injEq]

/-- What a name loads after some operations, in terms of the map from names to texts. -/
theorem Keeps.load_eq_ok_iff (h : Keeps first archive saved) (hclear : first.Clear)
    (hshort : ∀ file node, first.place.find? file = some node → file.length ≤ FileName.maxLength)
    {raw text : String} :
    archive.load raw = .ok text ↔ ∃ name, SnapshotName.sanitize raw = .ok name ∧
      (Entries.last? name saved = some text ∨ Entries.last? name saved = none ∧
        first.place.find? name.fileName = some (.file (Utf8.encode text))) := by
  cases hname : SnapshotName.sanitize raw with
  | error e =>
    simp only [load, hname, bind, Except.bind]
    constructor
    · intro h
      cases h
    · rintro ⟨_, h, -⟩
      cases h
  | ok name =>
    have hone : ∀ (P : SnapshotName → Prop), (∃ other, (Except.ok name : Except SnapshotError _) =
        .ok other ∧ P other) ↔ P name := by
      intro P
      constructor
      · rintro ⟨other, heq, hother⟩
        cases heq
        exact hother
      · exact fun hP => ⟨name, rfl, hP⟩
    rw [hone]
    by_cases hlength : name.fileName.length ≤ FileName.maxLength
    · rw [h.shows.load hclear hname hlength]
      cases Entries.last? name saved with
      | some last =>
        dsimp only
        rw [Except.ok.injEq, Option.some.injEq]
        exact ⟨.inl, fun h => h.resolve_right fun h => Option.some_ne_none _ h.1⟩
      | none =>
        dsimp only
        rw [Archive.load_eq_ok_iff hclear hname hlength]
        exact ⟨fun h => .inr ⟨rfl, h⟩, fun h => (h.resolve_left (Option.some_ne_none _).symm).2⟩
    · have hlong := Nat.lt_of_not_le hlength
      constructor
      · exact fun hload => absurd hload (load_ne_ok hname hlong text)
      · rintro (hlast | ⟨-, hentry⟩)
        · exact absurd (h.short _ (Entries.mem_of_last? hlast)) hlength
        · exact absurd (hshort _ _ hentry) hlength

/-- A save is refused for its name if and only if nothing of the name may be kept. -/
theorem Keeps.save_eq_invalidName_iff (h : Keeps first archive saved) (raw contents : String) :
    (∃ other, (archive.save raw contents).2 = .error (.invalidName other)) ↔
      ∀ c ∈ raw.toList, ¬ SnapshotName.Allowed c := by
  rw [← SnapshotName.sanitize_eq_error_iff]
  cases hname : SnapshotName.sanitize raw with
  | error e =>
    obtain rfl := SnapshotName.eq_invalidName_of_sanitize hname
    rw [save_of_refused hname]
    exact ⟨fun _ => ⟨_, rfl⟩, fun _ => ⟨_, rfl⟩⟩
  | ok name =>
    obtain ⟨place, -, hsave, -⟩ := save_eq contents hname h.shows.unblocked (h.fresh name)
    rw [hsave]
    cases Saving.obstacle? archive name with
    | none =>
      constructor
      · rintro ⟨_, h⟩
        cases h
      · rintro ⟨_, h⟩
        cases h
    | some fault =>
      constructor
      · rintro ⟨_, h⟩
        cases h
      · rintro ⟨_, h⟩
        cases h

/-- A save succeeds if and only if the name of its hidden file fits and no folder is where its
    file should be. -/
theorem Keeps.save_eq_ok_iff (h : Keeps first archive saved) {raw : String} {name : SnapshotName}
    (hname : SnapshotName.sanitize raw = .ok name) (contents : String) :
    (archive.save raw contents).2 = .ok (archive.pathFor name.text) ↔
      name.text.length + 7 + (archive.process.repr.length + archive.temporaries.repr.length) ≤
        FileName.maxLength ∧
      ∀ entries, archive.place.find? name.fileName ≠ some (.folder entries) := by
  rw [← Saving.length_hiddenName, ← Saving.obstacle?_eq_none_iff]
  obtain ⟨place, -, hsave, -⟩ := save_eq contents hname h.shows.unblocked (h.fresh name)
  rw [hsave]
  cases Saving.obstacle? archive name with
  | none => exact ⟨fun _ => rfl, fun _ => rfl⟩
  | some fault => exact ⟨nofun, nofun⟩

/-! ## Hidden files named so far -/

/-- Whether an operation names a hidden file: it saves under a name of which something is
    left. -/
def Operation.names (operation : Operation) : Bool :=
  match operation.saving? with
  | some (name, _) => (SnapshotName.sanitize name).isOk
  | none => false

theorem Keeps.temporaries_after (h : Keeps first archive saved) (operation : Operation) :
    (archive.after operation).temporaries =
      archive.temporaries + if operation.names then 1 else 0 := by
  rw [Archive.after, Operation.names]
  cases operation.saving? with
  | none => rfl
  | some request =>
    obtain ⟨raw, contents⟩ := request
    have hcases : (∃ e, SnapshotName.sanitize raw = .error e) ∨
        ∃ name, SnapshotName.sanitize raw = .ok name := by
      cases SnapshotName.sanitize raw with
      | error e => exact .inl ⟨e, rfl⟩
      | ok name => exact .inr ⟨name, rfl⟩
    rcases hcases with ⟨e, hname⟩ | ⟨name, hname⟩
    · simp only [save_of_refused hname, hname]
      rfl
    · obtain ⟨place, -, hsave, -⟩ := save_eq contents hname h.shows.unblocked (h.fresh name)
      simp only [hsave, hname]
      rfl

/-- The count goes up with every save whose name can stand, whether or not it succeeds. -/
theorem temporaries_of_serve (h : first.Clear) (operations : List Operation) :
    (first.serve operations).temporaries =
      first.temporaries + operations.countP Operation.names := by
  induction operations using List.reverseRecOn with
  | nil => rfl
  | append_singleton operations operation ih =>
    rw [serve_concat, (keeps_of_serve h operations).temporaries_after, ih, List.countP_append,
      List.countP_singleton, Nat.add_assoc]

/-! ## The result -/

/-- A store of snapshots is a map from names to texts, whatever it is asked for and however its
    folder looked in the first place.

    A name loads the text that was last saved under a name with the same reduction, or else the
    text that its file held in the first place. The names that are listed, ascending by their
    bytes, are those listed in the first place and those saved. A name is refused if nothing of
    it may be kept. Any other is saved if and only if no folder is where its file should be and
    the name of its hidden file fits, in which there are the digits of the process and of the
    count of hidden files named so far, and seven bytes more. -/
theorem refines {first : Archive} (hclear : first.Clear)
    (hshort : ∀ file node, first.place.find? file = some node → file.length ≤ FileName.maxLength)
    (operations : List Operation) :
    let archive := first.serve operations
    let saved := first.saves operations
    (∀ raw text, archive.load raw = .ok text ↔ ∃ name, SnapshotName.sanitize raw = .ok name ∧
      (Entries.last? name saved = some text ∨ Entries.last? name saved = none ∧
        first.place.find? name.fileName = some (.file (Utf8.encode text)))) ∧
    (∃ before names, first.list = .ok before ∧ archive.list = .ok names ∧
      names.Pairwise (fun s t => Utf8.encode s < Utf8.encode t) ∧
      ∀ listed, listed ∈ names ↔ listed ∈ before ∨ ∃ s ∈ saved, s.1.text = listed) ∧
    (∀ raw contents, (∃ other, (archive.save raw contents).2 = .error (.invalidName other)) ↔
      ∀ c ∈ raw.toList, ¬ SnapshotName.Allowed c) ∧
    (∀ raw contents name, SnapshotName.sanitize raw = .ok name →
      ((archive.save raw contents).2 = .ok (archive.pathFor name.text) ↔
        (Utf8.encode name.text).length + 7 + (first.process.repr.length +
          (first.temporaries + operations.countP Operation.names).repr.length) ≤
            FileName.maxLength ∧
        ∀ entries, archive.place.find? name.fileName ≠ some (.folder entries))) := by
  intro archive saved
  have hkeeps : Keeps first archive saved := keeps_of_serve hclear operations
  obtain ⟨before, names, hbefore, hnames, hsorted, hlisted⟩ := hkeeps.shows.list hclear
  refine ⟨fun raw text => hkeeps.load_eq_ok_iff hclear hshort,
    ⟨before, names, hbefore, hnames, hsorted.imp Utf8.encode_lt_encode, hlisted⟩,
    hkeeps.save_eq_invalidName_iff, fun raw contents name hname => ?_⟩
  have htemporaries : archive.temporaries = _ := temporaries_of_serve hclear operations
  rw [hkeeps.save_eq_ok_iff hname, hkeeps.process, htemporaries, SnapshotName.length_encode_text]

/-- The name of a snapshot that is there in the first place. -/
def oldShow : SnapshotName := ⟨"old", by decide, List.all_eq_true.1 (by decide)⟩

/-- The name of a snapshot that is saved. -/
def newShow : SnapshotName := ⟨"ab", by decide, List.all_eq_true.1 (by decide)⟩

/-- A folder with one snapshot in it, for a process of number 1000. -/
def shelf : Archive :=
  let old : Folder := Table.empty.insert oldShow.fileName (.file (Utf8.encode "o:1\n"))
  .ofDisk "presets" { place := .folder old } 1000

theorem find?_shelf (file : FileName) : shelf.place.find? file =
    if file = oldShow.fileName then some (.file (Utf8.encode "o:1\n")) else none :=
  Table.get?_insert Table.empty oldShow.fileName file (Node.file (Utf8.encode "o:1\n"))

theorem clear_shelf : shelf.Clear where
  unblocked := nofun
  noLink file target := by
    rw [find?_shelf]
    split
    · nofun
    · nofun
  noHidden name count := by
    rw [find?_shelf, if_neg (Saving.hiddenName_ne_fileName name shelf.process count oldShow)]

theorem short_shelf (file : FileName) (node : Node) (h : shelf.place.find? file = some node) :
    file.length ≤ FileName.maxLength := by
  rw [find?_shelf] at h
  split at h
  · next heq =>
    rw [heq]
    decide
  · cases h

/-- One snapshot is saved beside another, and both can be loaded. -/
theorem refines_of_shelf : shelf.Clear ∧
    (shelf.serve [.saveText "a/b" "x:1\n", .list]).load "ab" = .ok "x:1\n" ∧
    (shelf.serve [.saveText "a/b" "x:1\n", .list]).load "old" = .ok "o:1\n" := by
  have hload := (refines clear_shelf short_shelf [.saveText "a/b" "x:1\n", .list]).1
  have hsaved : shelf.saves [.saveText "a/b" "x:1\n", .list] =
      [(newShow, "x:1\n")] := by decide
  have hnew : SnapshotName.sanitize "ab" = .ok newShow := SnapshotName.sanitize_text newShow
  have hold : SnapshotName.sanitize "old" = .ok oldShow := SnapshotName.sanitize_text oldShow
  refine ⟨clear_shelf, (hload _ _).2 ⟨_, hnew, .inl ?_⟩, (hload _ _).2 ⟨_, hold, .inr ⟨?_, ?_⟩⟩⟩
  · rw [hsaved]
    decide
  · rw [hsaved]
    decide
  · rw [find?_shelf, if_pos rfl]

/-- A save whose hidden file's name is too long. -/
theorem Keeps.save_of_long (h : Keeps first archive saved) {raw : String} {name : SnapshotName}
    (hname : SnapshotName.sanitize raw = .ok name) (contents : String)
    (hlong : FileName.maxLength <
      name.text.length + 7 + (archive.process.repr.length + archive.temporaries.repr.length)) :
    (archive.save raw contents).2 = .error (.persistence name.text .nameTooLong) := by
  rw [← Saving.length_hiddenName] at hlong
  have hobstacle : Saving.obstacle? archive name = some .nameTooLong := if_pos hlong
  obtain ⟨place, -, hsave, -⟩ := save_eq contents hname h.shows.unblocked (h.fresh name)
  rw [hsave, hobstacle]

/-- A name of 240 bytes. -/
def longName : SnapshotName where
  text := String.ofList (List.replicate 240 'a')
  nonempty := by
    rw [ne_eq, String.ofList_eq_empty_iff, List.replicate_eq_nil_iff]
    decide
  kept := by
    intro c hc
    rw [String.toList_ofList] at hc
    rw [List.eq_of_mem_replicate hc]
    decide

theorem length_longName : longName.text.length = 240 := by
  have htext : longName.text = String.ofList (List.replicate 240 'a') := rfl
  rw [htext, String.length_ofList, List.length_replicate]

/-- Ten thousand hidden files leave no room for a name of 240 bytes. -/
theorem save_longName_eq {operations : List Operation}
    (hcount : operations.countP Operation.names = 10000) :
    ((shelf.serve operations).save longName.text "").2 =
      .error (.persistence longName.text .nameTooLong) := by
  have hkeeps := keeps_of_serve clear_shelf operations
  have hzero : shelf.temporaries = 0 := rfl
  have hprocess : (shelf.serve operations).process = 1000 := hkeeps.process
  have hlong : FileName.maxLength < 240 + 7 + ((1000).repr.length + (10000).repr.length) := by
    decide
  refine hkeeps.save_of_long (SnapshotName.sanitize_text longName) "" ?_
  rw [length_longName, hprocess, temporaries_of_serve clear_shelf, hcount, hzero, Nat.zero_add]
  exact hlong

/-- After ten thousand saves the process cannot save under a name of 240 bytes any more, though
    it can stand and no folder is where its file should be. -/
theorem not_saved_of_count :
    shelf.Clear ∧ SnapshotName.sanitize longName.text = .ok longName ∧
    (Utf8.encode longName.text).length = 240 ∧
    (∀ entries, (shelf.serve (List.replicate 10000 (.saveText "b" ""))).place.find?
      longName.fileName ≠ some (.folder entries)) ∧
    ((shelf.serve (List.replicate 10000 (.saveText "b" ""))).save longName.text "").2 =
      .error (.persistence longName.text .nameTooLong) := by
  have hnames : (Operation.saveText "b" "").names = true := by decide
  refine ⟨clear_shelf, SnapshotName.sanitize_text longName, ?_, fun entries => ?_,
    save_longName_eq ?_⟩
  · rw [SnapshotName.length_encode_text, length_longName]
  · rw [(keeps_of_serve clear_shelf _).shows.find?_fileName]
    cases Entries.last? longName _ with
    | some text => nofun
    | none =>
      rw [find?_shelf]
      split
      · nofun
      · nofun
  · rw [List.countP_replicate, if_pos hnames]

end Archive

end ShowRelay
