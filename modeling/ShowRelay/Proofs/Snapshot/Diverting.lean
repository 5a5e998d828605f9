/-
  ShowRelay.Proofs.Snapshot.Diverting

  Saving through a symbolic link. If a link has the name of the hidden file, then
  the contents are written to the file to which the link leads, wherever that is,
  and the renaming makes the link the entry of the snapshot. `Saving.Led` says how
  far a writing has come with this, whatever is refused and in whatever pieces the
  contents are taken, and `Archive.diverts_of_saveWith` what it has come to when
  the save has succeeded. It does succeed if nothing is refused without cause
  (`Archive.save_of_diverts`).

  This is what the other results about saving leave room for where they speak of
  what a link leads to, or ask that there be none.
-/

import ShowRelay.Proofs.Snapshot.Frame
import ShowRelay.Proofs.Snapshot.Paths
import ShowRelay.Proofs.Snapshot.Refinement

namespace ShowRelay

/-! ## Links from entry to entry -/

namespace Disk

/-- Where the look-up of a link goes on. -/
theorem walk_link {root : Node} {here : List FileName} {name : FileName} {target : Bytes}
    (hname : name.Direct) (hlength : name.length ≤ FileName.maxLength)
    (hat : root.at? (here ++ [name]) = some (.link target)) (links : Nat)
    (rest : List FileName) :
    walk root links here (name :: rest) =
      match links with
      | 0 => .error .tooManyLinks
      | links + 1 =>
        walk root links (linkBase here target) (target.splitOn Path.separator ++ rest) := by
  rw [walk, if_neg hname.not_stays, if_neg hname.not_parent, if_neg (Nat.not_lt_of_le hlength), hat]
  cases links with
  | zero => rfl
  | succ links => rfl

variable {disk : Disk} {f : Folder} {name target : FileName} {path : List FileName}
  {contents : Bytes}

/-- A link to a file of the folder, or to an entry that is missing, leads there. -/
theorem diverts_of_link (hplace : disk.place = .folder f) (hname : name.Direct)
    (hlength : name.length ≤ FileName.maxLength) (htarget : target.Direct)
    (hlength' : target.length ≤ FileName.maxLength) (hentry : f.get? name = some (.link target))
    (hfile : ∀ node, f.get? target = some node → ∃ old, node = .file old) :
    disk.Diverts name (disk.placePath ++ [target]) := by
  have hat : ∀ file, disk.tree.at? (disk.placePath ++ [file]) = f.get? file := fun file =>
    at?_entry hplace file
  have hfirst : walk disk.tree maxLinks disk.placePath [name] =
      walk disk.tree 39 disk.placePath [target] := by
    have hone : target.splitOn Path.separator = [target] :=
      List.splitOn_eq_singleton htarget.whole
    have hroot : Path.isFromRoot [target] = false := by
      simp [Path.isFromRoot, htarget.nonempty]
    rw [walk_link hname hlength ((hat name).trans hentry)]
    simp only [maxLinks, linkBase, hone, hroot, List.append_nil, Bool.false_eq_true, if_false]
  refine ⟨target, f.get? target, by rw [hplace]; exact hentry, ?_, fun entries hfolder => ?_⟩
  · rw [locate_own, hplace]
    refine hfirst.trans ?_
    rw [walk, if_neg htarget.not_stays, if_neg htarget.not_parent,
      if_neg (Nat.not_lt_of_le hlength'), hat]
    cases hnode : f.get? target with
    | none => rfl
    | some node =>
      obtain ⟨old, rfl⟩ := hfile node hnode
      rfl
  · obtain ⟨old, hold⟩ := hfile _ hfolder
    cases hold

/-- A file that was put somewhere makes no entry a folder. -/
theorem Gains.not_folder {before after : Disk} (h : Gains before after path contents)
    (hfree : ∀ entries, before.place.find? name ≠ some (.folder entries))
    (entries : List (FileName × Node)) : after.place.find? name ≠ some (.folder entries) := by
  intro hfolder
  have hat := (at?_tree_entry after name).trans hfolder
  have hplace : after.placePath = before.placePath := by rw [placePath, placePath, h.working]
  by_cases hpath : path <+: after.placePath ++ [name]
  · obtain ⟨es, hes⟩ := Node.exists_folder_of_below hat hpath
    cases h.file.symm.trans hes
  · have hsame := h.elsewhere _ hpath
    rw [hat, hplace, at?_tree_entry] at hsame
    obtain ⟨es, hes⟩ := Node.exists_folder_of_bare hsame.symm
    exact hfree es hes

theorem create_of_diverts (h : disk.Diverts name path) :
    disk.create name = .ok (disk.put (.file []) path) := by
  have hasks := h.asksFolder_eq_false
  obtain ⟨target, node, hentry, hlocate, hfree⟩ := h
  simp only [create, hentry, hlocate, hasks, Bool.false_eq_true, if_false, Bind.bind, Except.bind]

theorem Leads.extend (h : disk.Leads name target path contents) (bytes : Bytes) :
    (disk.extend name bytes).Leads name target path (contents ++ bytes) := by
  simp only [Disk.extend, h.link, h.file]
  exact h.diverts.put h.link (contents ++ bytes)

theorem Leads.at?_path (h : disk.Leads name target path contents) :
    disk.tree.at? path = some (.file contents) := by
  obtain ⟨f, hplace⟩ := exists_folder_of_locate h.file
  have hwalk := h.file
  rw [locate_own, hplace] at hwalk
  exact at?_of_walk hwalk

/-- When a link is renamed, the file to which it led stays if it is not at the new name. -/
theorem Leads.at?_of_rename {made : Place} {new : FileName}
    (h : disk.Leads name target path contents) (hmade : disk.place.rename name new = .ok made)
    (hnew : path ≠ disk.placePath ++ [new]) :
    ({ disk with place := made } : Disk).tree.at? path = some (.file contents) := by
  obtain ⟨f, hplace⟩ := exists_folder_of_locate h.file
  have hfile := h.at?_path
  have hkept : Place.Kept (fun file => file = name ∨ file = new) disk.place made :=
    Place.kept_of_rename hmade (.inl rfl) (.inr rfl) (by rw [h.link]; nofun)
  have hdisk : Kept (fun other => other = disk.placePath ++ [name] ∨
      other = disk.placePath ++ [new]) disk { disk with place := made } := by
    refine kept_of_place hkept ?_
    rintro file (rfl | rfl)
    · exact .inl rfl
    · exact .inr rfl
  refine Node.eq_file_of_bare ((hdisk.elsewhere path ?_ ?_).trans ?_)
  · intro hbegins
    obtain ⟨entries, hfolder⟩ :=
      Node.exists_folder_of_below (at?_tree_of_folder hplace) hbegins
    cases hfile.symm.trans hfolder
  · rintro (rfl | rfl)
    · cases hfile.symm.trans ((at?_tree_entry disk name).trans h.link)
    · exact hnew rfl
  · rw [hfile]
    rfl

end Disk

theorem Place.find?_of_rename {place made : Place} {source target : FileName}
    (h : place.rename source target = .ok made) :
    made.find? target = place.find? source ∧ target.length ≤ FileName.maxLength := by
  cases place with
  | absent => cases h
  | blocked contents => cases h
  | folder f =>
    obtain ⟨hlength, node, hnode, rfl⟩ := rename_eq_ok h
    exact ⟨((Table.get?_insert (f.erase source) target target node).trans (if_pos rfl)).trans
      hnode.symm, hlength⟩

/-! ## A save that a link leads astray -/

namespace Saving

/-- How far a writing has come that a link leads astray. The link has the name of the hidden file,
    and `disk` is the disk before. -/
def Led (disk : Disk) (hidden : FileName) (target : Bytes) (archive : Archive) (s : Saving) :
    Prop :=
  match s.stage with
  | .makingFolder | .creating =>
    archive.toDisk = disk ∧ hiddenName s.name archive.process archive.temporaries = hidden
  | .writing file rest => file = hidden ∧ ∃ path written, disk.Diverts hidden path ∧
      archive.Leads hidden target path written ∧ written ++ rest = s.contents
  | .syncing file | .renaming file => file = hidden ∧ ∃ path, disk.Diverts hidden path ∧
      archive.Leads hidden target path s.contents
  | .removing _ _ => True
  | .finished none => s.name.fileName.length ≤ FileName.maxLength ∧
      archive.place.find? s.name.fileName = some (.link target) ∧
      ∃ path, disk.Diverts hidden path ∧ (path ≠ archive.placePath ++ [s.name.fileName] →
        archive.tree.at? path = some (.file s.contents))
  | .finished (some _) => True

variable {disk : Disk} {hidden : FileName} {target : Bytes} {archive : Archive} {s : Saving}

/-- Every request keeps up with what the link leads to. -/
theorem led_of_step (hentry : disk.place.find? hidden = some (.link target))
    (h : Led disk hidden target archive s) (reply : Reply) :
    Led disk hidden target (step archive s reply).1 (step archive s reply).2 := by
  obtain ⟨name, contents, stage⟩ := s
  cases stage with
  | makingFolder =>
    obtain ⟨rfl, hname⟩ := h
    cases reply with
    | refuse fault => trivial
    | grant piece =>
      -- Where there is a link there is a folder.
      cases hplace : archive.place with
      | absent =>
        rw [hplace] at hentry
        cases hentry
      | blocked old =>
        rw [hplace] at hentry
        cases hentry
      | folder f =>
        simp only [step, hplace, Place.makeFolder]
        rw [← hplace]
        exact ⟨rfl, hname⟩
  | creating =>
    obtain ⟨rfl, rfl⟩ := h
    cases reply with
    | refuse fault => trivial
    | grant piece =>
      simp only [step]
      split
      · trivial
      next made hmade =>
      obtain ⟨path, hdiverts, rfl⟩ := Disk.diverts_of_create hentry hmade
      exact ⟨rfl, path, [], hdiverts, hdiverts.put hentry [], rfl⟩
  | writing file rest =>
    obtain ⟨rfl, path, written, hdiverts, hleads, hsum⟩ := h
    cases reply with
    | refuse fault => trivial
    | grant piece =>
      have hmore := hleads.extend (rest.take piece)
      have hall := List.take_append_drop piece rest
      simp only [step]
      split
      · next hdone =>
        rw [hdone, List.append_nil] at hall
        rw [hall, hsum] at hmore
        rw [hall]
        exact ⟨rfl, path, hdiverts, hmore⟩
      · refine ⟨rfl, path, _, hdiverts, hmore, ?_⟩
        rw [List.append_assoc, hall, hsum]
  | syncing file =>
    cases reply with
    | refuse fault => trivial
    | grant piece => exact h
  | «renaming» file =>
    obtain ⟨rfl, path, hdiverts, hleads⟩ := h
    cases reply with
    | refuse fault => trivial
    | grant piece =>
      simp only [step]
      split
      · trivial
      next made hmade =>
      obtain ⟨hfind, hlength⟩ := Place.find?_of_rename hmade
      exact ⟨hlength, hfind.trans hleads.link, path, hdiverts, hleads.at?_of_rename hmade⟩
  | removing file fault => trivial
  | finished fault => exact h

/-- So it is when the writing has come to its end. -/
theorem led_completeWith {name : SnapshotName}
    (hentry : archive.place.find? hidden = some (.link target))
    (hname : hiddenName name archive.process archive.temporaries = hidden) (contents : Bytes)
    (replies : List Reply) :
    Led archive.toDisk hidden target (completeWith archive (.start name contents) replies).1
        (completeWith archive (.start name contents) replies).2 ∧
      (completeWith archive (.start name contents) replies).2.name = name ∧
      (completeWith archive (.start name contents) replies).2.contents = contents :=
  holds_of_completeWith (P := Led archive.toDisk hidden target)
    (fun _ _ reply hled => led_of_step hentry hled reply) ⟨rfl, hname⟩ replies

/-- The contents are put where the link leads, in two steps, and then the link is renamed. -/
theorem complete_of_diverts {name : SnapshotName} {path : List FileName}
    (hname : hiddenName name archive.process archive.temporaries = hidden)
    (h : archive.Diverts hidden path)
    (hentry : archive.place.find? hidden = some (.link target))
    (hlength : name.fileName.length ≤ FileName.maxLength)
    (hfree : ∀ entries, archive.place.find? name.fileName ≠ some (.folder entries))
    (contents : Bytes) :
    ∃ after : Disk, complete archive (.start name contents) =
      ({ archive with toDisk := after, temporaries := archive.temporaries + 1 },
        ⟨name, contents, .finished none⟩) := by
  -- The disk when the file is empty, and when it has been written.
  have hleads₁ := h.put hentry []
  have hfree₁ := (h.gains []).not_folder hfree
  have hcreate := Disk.create_of_diverts h
  generalize archive.toDisk.put (.file []) path = empty at hleads₁ hfree₁ hcreate
  have hleads₂ := hleads₁.diverts.put hleads₁.link contents
  have hgains₂ := hleads₁.diverts.gains contents
  have hfree₂ := hgains₂.not_folder hfree₁
  have hextend : empty.extend hidden contents = empty.put (.file contents) path := by
    simp only [Disk.extend, hleads₁.link, hleads₁.file, List.nil_append]
  generalize empty.put (.file contents) path = full at hleads₂ hgains₂ hfree₂ hextend
  obtain ⟨g, hplace⟩ := hgains₂.folder
  have hlink₂ := hleads₂.link
  rw [hplace] at hlink₂ hfree₂
  have hrename : full.place.rename hidden name.fileName =
      .ok (.folder ((g.erase hidden).insert name.fileName (.link target))) := by
    rw [hplace]
    exact Place.rename_of_free hlength hlink₂ hfree₂
  obtain ⟨f, -, -, hfolder, -⟩ := h.walk
  have hmade : archive.place.makeFolder = .ok archive.place := by
    rw [hfolder]
    rfl
  simp only [complete_start, List.foldl_cons, List.foldl_nil, step, hmade, hname, hcreate,
    List.take_length, List.drop_length, hextend, hrename]
  exact ⟨_, rfl⟩

end Saving

namespace Archive

variable {archive after : Archive} {raw : String} {name : SnapshotName} {target : Bytes}

/-- When a save through a link has succeeded, the link is where the snapshot should be, and what
    was to be saved is in the file to which it led, unless it has taken that file's place. -/
theorem diverts_of_saveWith {replies : List Saving.Reply} {contents path : String}
    (hname : SnapshotName.sanitize raw = .ok name)
    (hentry : archive.place.find?
      (Saving.hiddenName name archive.process archive.temporaries) = some (.link target))
    (h : archive.saveWith replies raw contents = (after, .ok path)) :
    name.fileName.length ≤ FileName.maxLength ∧
      after.place.find? name.fileName = some (.link target) ∧
      ∃ path, archive.Diverts (Saving.hiddenName name archive.process archive.temporaries) path ∧
        (path ≠ after.placePath ++ [name.fileName] →
          after.tree.at? path = some (.file (Utf8.encode contents))) := by
  obtain ⟨last, s, fault, hcomplete, hover, hsave⟩ :=
    exists_of_saveWith hname archive replies contents
  have hled := Saving.led_completeWith hentry rfl (Utf8.encode contents) replies
  rw [hcomplete] at hled
  obtain ⟨hled, rfl, hcontents⟩ := hled
  rw [hsave] at h
  cases fault with
  | some fault => cases h
  | none =>
    cases h
    have hwritten : s.contents = Utf8.encode contents := hcontents
    simp only [Saving.Led, hover, hwritten] at hled
    exact hled

/-- A save through a link succeeds as any other does. -/
theorem save_of_diverts {path : List FileName} (hname : SnapshotName.sanitize raw = .ok name)
    (h : archive.Diverts (Saving.hiddenName name archive.process archive.temporaries) path)
    (hlength : name.fileName.length ≤ FileName.maxLength)
    (hfree : ∀ entries, archive.place.find? name.fileName ≠ some (.folder entries))
    (contents : String) :
    ∃ after : Archive, archive.save raw contents = (after, .ok (archive.pathFor name.text)) := by
  obtain ⟨-, target, -, -, hentry, -⟩ := h.walk
  obtain ⟨disk, hcomplete⟩ :=
    Saving.complete_of_diverts rfl h hentry hlength hfree (Utf8.encode contents)
  exact ⟨_, save_of_finished hname hcomplete rfl⟩

end Archive

/-- A name of one letter. -/
def letter : SnapshotName := ⟨"a", by decide, List.all_eq_true.1 (by decide)⟩

/-- The name of its hidden file, if it is the first one of the process 1. -/
def letterHidden : FileName := Saving.hiddenName letter 1 0

end ShowRelay
