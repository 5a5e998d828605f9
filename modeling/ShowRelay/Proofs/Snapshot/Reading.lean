/-
  ShowRelay.Proofs.Snapshot.Reading

  What was saved can be read. While one snapshot is written with no other at
  work, its hidden file holds what was written so far, whatever requests are
  refused and in whatever pieces the contents are taken (`Saving.Sound`). When
  the writing has succeeded the snapshot file holds the whole contents, and
  they are what its name loads (`Archive.load_of_unlinked`).
-/

import ShowRelay.Proofs.Snapshot.Entries

namespace ShowRelay

/-! ## Requests about the folder -/

namespace Place

theorem makeFolder_eq_ok {place made : Place} (h : place.makeFolder = .ok made) :
    ∃ f, made = .folder f := by
  cases place with
  | absent =>
    cases h
    exact ⟨Table.empty, rfl⟩
  | blocked contents => cases h
  | folder f =>
    cases h
    exact ⟨f, rfl⟩

theorem create_eq_ok {f : Folder} {name : FileName} {made : Place}
    (h : (folder f).create name = .ok made) : made = .folder (f.insert name (.file [])) := by
  simp only [create] at h
  split at h
  · cases h
  · split at h
    · cases h
    · cases h
    · cases h
      rfl

theorem extend_of_file {f : Folder} {name : FileName} {written : Bytes}
    (h : f.get? name = some (.file written)) (bytes : Bytes) :
    (folder f).extend name bytes = .folder (f.insert name (.file (written ++ bytes))) := by
  simp only [extend, h]

theorem remove_of_fresh {f : Folder} {name : FileName} (h : f.get? name = none) :
    (folder f).remove name = .folder f := by
  simp only [remove, h, Table.erase_eq_self h]

theorem remove_of_file {f : Folder} {name : FileName} (h : f.get? name = none) (contents : Bytes) :
    (folder (f.insert name (.file contents))).remove name = .folder f := by
  simp only [remove, Table.get?_insert, if_true, Table.erase_insert h]

theorem rename_eq_ok {f : Folder} {source target : FileName} {made : Place}
    (h : (folder f).rename source target = .ok made) :
    target.length ≤ FileName.maxLength ∧
      ∃ node, f.get? source = some node ∧ made = .folder ((f.erase source).insert target node) := by
  simp only [rename] at h
  split at h
  · cases h
  · next hlength =>
    refine ⟨Nat.le_of_not_lt hlength, ?_⟩
    split at h
    · cases h
    · cases h
    · next node hnode _ =>
      cases h
      exact ⟨node, hnode, rfl⟩

end Place

/-! ## Writings come to an end -/

namespace Saving

/-- A step does not change what is written or under which name. -/
theorem step_same (archive : Archive) (s : Saving) (reply : Reply) :
    (step archive s reply).2.name = s.name ∧ (step archive s reply).2.contents = s.contents := by
  -- Every branch changes the stage only.
  simp only [step]
  repeat' split
  all_goals exact ⟨rfl, rfl⟩

/-- What every request preserves holds after any number of them. -/
theorem holds_of_foldl {P : Archive → Saving → Prop}
    (hstep : ∀ archive s reply, P archive s → P (step archive s reply).1 (step archive s reply).2)
    {archive : Archive} {s : Saving} (h : P archive s) (replies : List Reply) :
    P (replies.foldl (fun (archive, s) reply => step archive s reply) (archive, s)).1
      (replies.foldl (fun (archive, s) reply => step archive s reply) (archive, s)).2 := by
  induction replies generalizing archive s with
  | nil => exact h
  | cons reply replies ih => exact ih (hstep archive s reply h)

/-- So it does at the end of a writing, which is still of the same snapshot. -/
theorem holds_of_completeWith {P : Archive → Saving → Prop}
    (hstep : ∀ archive s reply, P archive s → P (step archive s reply).1 (step archive s reply).2)
    {archive : Archive} {name : SnapshotName} {contents : Bytes}
    (h : P archive (.start name contents)) (replies : List Reply) :
    P (completeWith archive (.start name contents) replies).1
        (completeWith archive (.start name contents) replies).2 ∧
      (completeWith archive (.start name contents) replies).2.name = name ∧
      (completeWith archive (.start name contents) replies).2.contents = contents := by
  refine holds_of_foldl (P := fun middle t => P middle t ∧ t.name = name ∧ t.contents = contents)
    ?_ ⟨h, rfl, rfl⟩ _
  rintro middle t reply ⟨hmiddle, hname, hcontents⟩
  obtain ⟨hname', hcontents'⟩ := step_same middle t reply
  exact ⟨hstep middle t reply hmiddle, hname'.trans hname, hcontents'.trans hcontents⟩

/-- How many requests a writing can still make, when its contents are taken at once. -/
def Stage.left : Stage → Nat
  | makingFolder => requests
  | creating => 5
  | writing _ _ => 4
  | syncing _ => 3
  | «renaming» _ => 2
  | removing _ _ => 1
  | finished _ => 0

/-- What is left to be written is no longer than the whole. -/
def Fits (s : Saving) : Prop :=
  ∀ hidden rest, s.stage = .writing hidden rest → rest.length ≤ s.contents.length

theorem fits_start (name : SnapshotName) (contents : Bytes) : (start name contents).Fits := nofun

/-- Every request brings a writing closer to its end if it is granted, and takes all that is left
    to be written. -/
theorem left_of_step {s : Saving} (h : s.Fits) (archive : Archive) (reply : Reply) :
    (step archive s reply).2.Fits ∧ (reply = .grant s.contents.length →
      (step archive s reply).2.stage.left ≤ s.stage.left - 1) := by
  obtain ⟨name, contents, stage⟩ := s
  cases stage with
  | makingFolder =>
    cases reply with
    | refuse fault => exact ⟨nofun, nofun⟩
    | grant piece =>
      simp only [step]
      split
      · exact ⟨nofun, fun _ => Nat.zero_le _⟩
      · exact ⟨nofun, fun _ => Nat.le_refl _⟩
  | creating =>
    cases reply with
    | refuse fault => exact ⟨nofun, nofun⟩
    | grant piece =>
      simp only [step]
      split
      · exact ⟨nofun, fun _ => Nat.le_add_left 1 3⟩
      · refine ⟨?_, fun _ => Nat.le_refl _⟩
        rintro file rest ⟨⟩
        exact Nat.le_refl _
  | writing hidden rest =>
    have hrest := h hidden rest rfl
    cases reply with
    | refuse fault => exact ⟨nofun, nofun⟩
    | grant piece =>
      simp only [step]
      split
      · exact ⟨nofun, fun _ => Nat.le_refl _⟩
      · next hmore =>
        refine ⟨?_, ?_⟩
        · rintro file left ⟨⟩
          rw [List.length_drop]
          exact Nat.le_trans (Nat.sub_le _ _) hrest
        · rintro ⟨⟩
          exact absurd (List.drop_eq_nil_of_le hrest) hmore
  | syncing hidden =>
    cases reply with
    | refuse fault => exact ⟨nofun, nofun⟩
    | grant piece => exact ⟨nofun, fun _ => Nat.le_refl _⟩
  | «renaming» hidden =>
    cases reply with
    | refuse fault => exact ⟨nofun, nofun⟩
    | grant piece =>
      simp only [step]
      split
      · exact ⟨nofun, fun _ => Nat.le_refl _⟩
      · exact ⟨nofun, fun _ => Nat.zero_le _⟩
  | removing hidden fault => exact ⟨nofun, fun _ => Nat.le_refl _⟩
  | finished fault => exact ⟨nofun, fun _ => Nat.le_refl _⟩

theorem fits_foldl {s : Saving} (h : s.Fits) (archive : Archive) (replies : List Reply) :
    (replies.foldl (fun (archive, s) reply => step archive s reply) (archive, s)).2.Fits ∧
      (replies.foldl (fun (archive, s) reply => step archive s reply) (archive, s)).2.contents =
        s.contents := by
  refine holds_of_foldl (P := fun _ t => t.Fits ∧ t.contents = s.contents) ?_ ⟨h, rfl⟩ replies
  rintro archive t reply ⟨hfits, hcontents⟩
  exact ⟨(left_of_step hfits archive reply).1, (step_same archive t reply).2.trans hcontents⟩

theorem left_of_replicate {s : Saving} (h : s.Fits) (archive : Archive) (n : Nat) :
    ((List.replicate n (Reply.grant s.contents.length)).foldl
      (fun (archive, s) reply => step archive s reply) (archive, s)).2.stage.left ≤
        s.stage.left - n := by
  induction n generalizing archive s with
  | zero => exact Nat.le_refl _
  | succ n ih =>
    obtain ⟨hfits, hleft⟩ := left_of_step h archive (.grant s.contents.length)
    have hrest := ih hfits (step archive s (.grant s.contents.length)).1
    rw [(step_same archive s _).2] at hrest
    have hstep := hleft rfl
    rw [List.replicate_succ, List.foldl_cons]
    exact Nat.le_trans hrest (by omega)

/-- Whatever replies the first requests of a writing get, it comes to an end. -/
theorem finished_of_completeWith (archive : Archive) (name : SnapshotName) (contents : Bytes)
    (replies : List Reply) :
    ∃ fault, (completeWith archive (.start name contents) replies).2.stage = .finished fault := by
  obtain ⟨hfits, hcontents⟩ := fits_foldl (fits_start name contents) archive replies
  rw [completeWith, List.foldl_append, ← hcontents]
  generalize replies.foldl (fun (archive, s) reply => step archive s reply)
    (archive, .start name contents) = reached at hfits
  obtain ⟨middle, s⟩ := reached
  have hlast := left_of_replicate hfits middle requests
  generalize (List.replicate requests (Reply.grant s.contents.length)).foldl
    (fun (archive, s) reply => step archive s reply) (middle, s) = last at hlast ⊢
  have hleft : s.stage.left ≤ requests := by
    cases s.stage with
    | makingFolder => exact Nat.le_refl _
    | _ => exact Nat.le_of_ble_eq_true rfl
  have hnone : last.2.stage.left = 0 := by
    dsimp only at hlast
    omega
  cases hstage : last.2.stage with
  | finished fault => exact ⟨fault, rfl⟩
  | _ =>
    rw [hstage] at hnone
    cases hnone

end Saving

/-! ## The writing of one snapshot -/

namespace Saving

/-- How far the folder has come with the writing of a snapshot, which no link leads astray. -/
def Sound (archive : Archive) (s : Saving) : Prop :=
  match s.stage with
  | .makingFolder => archive.Unlinked s.name
  | .creating => archive.Unlinked s.name ∧ ∃ f, archive.place = .folder f
  | .writing hidden rest => ∃ f written, archive.place = .folder f ∧
      f.get? hidden = some (.file written) ∧ written ++ rest = s.contents
  | .syncing hidden => ∃ f, archive.place = .folder f ∧
      f.get? hidden = some (.file s.contents)
  | .renaming hidden => ∃ f, archive.place = .folder f ∧
      f.get? hidden = some (.file s.contents)
  | .removing _ _ => True
  | .finished none => ∃ f, archive.place = .folder f ∧
      f.get? s.name.fileName = some (.file s.contents) ∧
      s.name.fileName.length ≤ FileName.maxLength
  | .finished (some _) => True

/-- Every step keeps up with the folder. -/
theorem sound_step {archive : Archive} {s : Saving} (h : Sound archive s) (reply : Reply) :
    Sound (step archive s reply).1 (step archive s reply).2 := by
  obtain ⟨name, contents, stage⟩ := s
  cases stage with
  | makingFolder =>
    cases reply with
    | refuse fault => trivial
    | grant piece =>
      simp only [step]
      split
      · trivial
      · next place hplace =>
        obtain ⟨f, rfl⟩ := Place.makeFolder_eq_ok hplace
        refine ⟨fun target htarget => h target ?_, f, rfl⟩
        rw [← htarget]
        exact (Place.find?_of_makeFolder hplace _).symm
  | creating =>
    obtain ⟨hlink, f, hf⟩ := h
    cases reply with
    | refuse fault => trivial
    | grant piece =>
      have hcreate := Disk.create_eq hlink
      rw [hf] at hcreate
      simp only [step, hcreate]
      cases hplace : (Place.folder f).create
          (hiddenName name archive.process archive.temporaries) with
      | error fault => trivial
      | ok place =>
        refine ⟨_, [], Place.create_eq_ok hplace, ?_, rfl⟩
        rw [Table.get?_insert, if_pos rfl]
  | writing hidden rest =>
    obtain ⟨f, written, hf, hat, hsum⟩ := h
    cases reply with
    | refuse fault => trivial
    | grant piece =>
      have hplace := Place.extend_of_file hat (rest.take piece)
      have hentry : archive.place.find? hidden = some (.file written) := by
        rw [hf, Place.find?, hat]
      have hextend := Disk.extend_eq (Place.not_link_of_file hentry) (rest.take piece)
      have hall := List.take_append_drop piece rest
      simp only [step, hextend, hf]
      split
      · next hdone =>
        rw [hdone, List.append_nil] at hall
        refine ⟨_, hplace, ?_⟩
        rw [Table.get?_insert, if_pos rfl, hall, hsum]
      · refine ⟨_, written ++ rest.take piece, hplace, ?_, ?_⟩
        · rw [Table.get?_insert, if_pos rfl]
        · rw [List.append_assoc, hall, hsum]
  | syncing hidden =>
    cases reply with
    | refuse fault => trivial
    | grant piece => exact h
  | «renaming» hidden =>
    -- The hidden file moves as it is; a file that stood in its place is gone.
    obtain ⟨f, hf, hat⟩ := h
    cases reply with
    | refuse fault => trivial
    | grant piece =>
      simp only [step]
      split
      · trivial
      · next place hplace =>
        rw [hf] at hplace
        obtain ⟨hlength, node, hnode, hmade⟩ := Place.rename_eq_ok hplace
        rw [hat] at hnode
        cases hnode
        refine ⟨_, hmade, ?_, hlength⟩
        rw [Table.get?_insert, if_pos rfl]
  | removing hidden fault => trivial
  | finished fault => exact h

/-- So it is when the writing has come to its end. -/
theorem sound_completeWith {archive : Archive} {name : SnapshotName}
    (hlink : archive.Unlinked name) (contents : Bytes) (replies : List Reply) :
    Sound (completeWith archive (.start name contents) replies).1
        (completeWith archive (.start name contents) replies).2 ∧
      (completeWith archive (.start name contents) replies).2.name = name ∧
      (completeWith archive (.start name contents) replies).2.contents = contents :=
  holds_of_completeWith (P := Sound) (fun _ _ reply hsound => sound_step hsound reply) hlink
    replies

end Saving

/-! ## Saving and loading -/

namespace Archive

/-- A save is a writing that has come to an end, and its answer tells how. -/
theorem exists_of_saveWith {raw : String} {name : SnapshotName}
    (hname : SnapshotName.sanitize raw = .ok name) (archive : Archive)
    (replies : List Saving.Reply) (contents : String) :
    ∃ after s fault,
      Saving.completeWith archive (.start name (Utf8.encode contents)) replies = (after, s) ∧
      s.stage = .finished fault ∧ archive.saveWith replies raw contents = (after,
        match fault with
        | none => .ok (after.pathFor name.text)
        | some fault => .error (.persistence name.text fault)) := by
  obtain ⟨fault, hover⟩ :=
    Saving.finished_of_completeWith archive name (Utf8.encode contents) replies
  refine ⟨_, _, fault, rfl, hover, ?_⟩
  simp only [saveWith, hname, hover]
  cases fault with
  | none => rfl
  | some fault => rfl

/-- A snapshot that was written stands in the folder with its contents, if no link was in the
    place of the hidden file. -/
theorem file_of_saveWith {archive after : Archive} {replies : List Saving.Reply} {raw : String}
    {name : SnapshotName} {contents path : String} (hname : SnapshotName.sanitize raw = .ok name)
    (hlink : archive.Unlinked name)
    (h : archive.saveWith replies raw contents = (after, .ok path)) :
    ∃ f, after.place = .folder f ∧
      f.get? name.fileName = some (.file (Utf8.encode contents)) ∧
      name.fileName.length ≤ FileName.maxLength := by
  obtain ⟨last, saving, fault, hcomplete, hover, hsave⟩ :=
    exists_of_saveWith hname archive replies contents
  have hsound := Saving.sound_completeWith hlink (Utf8.encode contents) replies
  rw [hcomplete] at hsound
  obtain ⟨hsound, rfl, hcontents⟩ := hsound
  rw [hsave] at h
  cases fault with
  | some fault => cases h
  | none =>
    cases h
    simp only [Saving.Sound, hover] at hsound
    have hwritten : saving.contents = Utf8.encode contents := hcontents
    rw [hwritten] at hsound
    exact hsound

end Archive

/-- What stands in the folder is what a look-up finds. -/
theorem Disk.read_eq_ok {disk : Disk} {f : Folder} {name : SnapshotName} {contents : Bytes}
    (hplace : disk.place = .folder f) (hat : f.get? name.fileName = some (.file contents))
    (hlength : name.fileName.length ≤ FileName.maxLength) :
    disk.read name.fileName = .ok contents := by
  have hentry : disk.place.find? name.fileName = some (.file contents) := by
    rw [hplace]
    exact hat
  have hunblocked : disk.place.Unblocked := by
    rw [hplace]
    exact Place.unblocked_folder f
  rw [read_eq hunblocked (by rw [hentry]; nofun) hlength, hentry]

/-- A snapshot that was written is loaded by its name, if no link was in the place of the hidden
    file. -/
theorem Archive.load_of_unlinked {archive after : Archive} {replies : List Saving.Reply}
    {raw : String} {name : SnapshotName} {contents path : String}
    (hname : SnapshotName.sanitize raw = .ok name) (hlink : archive.Unlinked name)
    (h : archive.saveWith replies raw contents = (after, .ok path)) :
    after.load raw = .ok contents := by
  obtain ⟨f, hplace, hat, hlength⟩ := file_of_saveWith hname hlink h
  have hread : after.read name.fileName = .ok (Utf8.encode contents) :=
    Disk.read_eq_ok hplace hat hlength
  simp only [load, hname, bind, Except.bind, hread, Utf8.decode?_encode]

end ShowRelay
