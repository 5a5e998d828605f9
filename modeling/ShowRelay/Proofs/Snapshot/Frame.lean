/-
  ShowRelay.Proofs.Snapshot.Frame

  What saving leaves alone. `Disk.Kept` says that nothing has changed about a disk
  but files at some paths, and perhaps that the snapshot folder has come into
  being. Every request of a writing keeps all but the snapshot's own file, the
  hidden file of this writing and the file to which a symbolic link of the hidden
  file's name leads, whatever stands in the folder and whatever is refused
  (`Saving.kept_of_step`), and so do whole writings.

  Where the link leads stays the same while the file at its end is written, so
  that a writing gets at one such file only (`Disk.Diverts.eq_of_put`).
-/

import ShowRelay.Proofs.Snapshot.Links
import ShowRelay.Proofs.Snapshot.Reading

namespace ShowRelay

/-! ## What is kept -/

namespace Place

/-- A place after changes to some files in the folder, which may come and go. -/
structure Kept (free : FileName → Prop) (before after : Place) : Prop where
  -- What is in the way of the folder stays.
  blocked : ∀ contents, before = blocked contents → after = blocked contents
  -- The folder itself stays.
  folder : ∀ f, before = folder f → ∃ g, after = folder g
  entries : ∀ file, ¬ free file → after.find? file = before.find? file
  -- So does what is in other folders.
  below : ∀ file name more, ((after.find? file).bind fun node => node.at? (name :: more)) =
    (before.find? file).bind fun node => node.at? (name :: more)

variable {free : FileName → Prop} {first second third : Place}

theorem Kept.refl (free : FileName → Prop) (place : Place) : Kept free place place where
  blocked _ h := h
  folder f h := ⟨f, h⟩
  entries _ _ := rfl
  below _ _ _ := rfl

theorem Kept.trans (h : Kept free first second) (h' : Kept free second third) :
    Kept free first third where
  blocked contents hfirst := h'.blocked contents (h.blocked contents hfirst)
  folder f hfirst := by
    obtain ⟨g, hsecond⟩ := h.folder f hfirst
    exact h'.folder g hsecond
  entries file hfile := (h'.entries file hfile).trans (h.entries file hfile)
  below file name more := (h'.below file name more).trans (h.below file name more)

/-! ## Requests -/

theorem kept_of_makeFolder {place made : Place} (h : place.makeFolder = .ok made) :
    Kept free place made := by
  cases place with
  | absent =>
    cases h
    exact ⟨nofun, nofun, fun _ _ => rfl, fun _ _ _ => rfl⟩
  | blocked contents => cases h
  | folder f =>
    cases h
    exact .refl free (.folder f)

/-- There is nothing below what is no folder. -/
theorem below_eq_none {node : Option Node} (h : ∀ entries, node ≠ some (.folder entries))
    (name : FileName) (more : List FileName) :
    (node.bind fun inner => inner.at? (name :: more)) = none := by
  cases node with
  | none => rfl
  | some inner =>
    cases inner with
    | file contents => rfl
    | folder entries => exact absurd rfl (h entries)
    | link target => rfl

/-- A change to an entry that may be changed, which neither was nor becomes a folder. -/
theorem kept_of_folder {f g : Folder} {file : FileName} (hfree : free file)
    (hold : ∀ entries, f.get? file ≠ some (.folder entries))
    (hnew : ∀ entries, g.get? file ≠ some (.folder entries))
    (h : ∀ other, other ≠ file → g.get? other = f.get? other) :
    Kept free (.folder f) (.folder g) where
  blocked _ hnone := by cases hnone
  folder _ _ := ⟨g, rfl⟩
  entries other hother := h other fun heq => hother (heq ▸ hfree)
  below other name more := by
    show ((g.get? other).bind _) = (f.get? other).bind _
    by_cases heq : other = file
    · rw [heq, below_eq_none hold, below_eq_none hnew]
    · rw [h other heq]

theorem kept_of_insert {f : Folder} {file : FileName} {node : Node} (hfree : free file)
    (hold : ∀ entries, f.get? file ≠ some (.folder entries))
    (hnode : ∀ entries, node ≠ .folder entries) :
    Kept free (.folder f) (.folder (f.insert file node)) := by
  refine kept_of_folder hfree hold (fun entries => ?_) fun other hother => ?_
  · rw [Table.get?_insert, if_pos rfl]
    exact fun heq => hnode entries (Option.some.inj heq)
  · rw [Table.get?_insert, if_neg hother]

theorem kept_of_erase {f : Folder} {file : FileName} (hfree : free file)
    (hold : ∀ entries, f.get? file ≠ some (.folder entries)) :
    Kept free (.folder f) (.folder (f.erase file)) := by
  refine kept_of_folder hfree hold (fun entries => ?_) fun other hother => ?_
  · rw [Table.get?_erase, if_pos rfl]
    nofun
  · rw [Table.get?_erase, if_neg hother]

theorem kept_of_create {place made : Place} {file : FileName} (h : place.create file = .ok made)
    (hfree : free file) : Kept free place made := by
  cases place with
  | absent => cases h
  | blocked contents => cases h
  | folder f =>
    have hold : ∀ entries, f.get? file ≠ some (.folder entries) := by
      intro entries hfolder
      simp only [create, hfolder] at h
      split at h
      · cases h
      · cases h
    rw [create_eq_ok h]
    exact kept_of_insert hfree hold fun entries heq => by cases heq

theorem kept_of_extend (place : Place) {file : FileName} (bytes : Bytes) (hfree : free file) :
    Kept free place (place.extend file bytes) := by
  cases place with
  | absent => exact .refl free .absent
  | blocked contents => exact .refl free (.blocked contents)
  | folder f =>
    simp only [extend]
    split
    · next contents hfile =>
      have hentry : (folder f).find? file = some (.file contents) := hfile
      exact kept_of_insert hfree (not_folder_of_file hentry) fun entries heq => by cases heq
    · exact .refl free (.folder f)

/-- What is extended is a file, or nothing is done. -/
theorem extend_eq_or (place : Place) (file : FileName) (bytes : Bytes) :
    (∃ contents, (place.extend file bytes).find? file = some (.file contents)) ∨
      place.extend file bytes = place := by
  cases place with
  | absent => exact .inr rfl
  | blocked contents => exact .inr rfl
  | folder f =>
    simp only [extend]
    split
    · next contents hfile =>
      exact .inl ⟨_, (Table.get?_insert f file file _).trans (if_pos rfl)⟩
    · exact .inr rfl

theorem kept_of_rename {place made : Place} {source target : FileName}
    (h : place.rename source target = .ok made) (hsource : free source) (htarget : free target)
    (hold : ∀ entries, place.find? source ≠ some (.folder entries)) : Kept free place made := by
  cases place with
  | absent => cases h
  | blocked contents => cases h
  | folder f =>
    obtain ⟨-, node, hnode, rfl⟩ := rename_eq_ok h
    have hnode' : ∀ entries, node ≠ .folder entries := by
      rintro entries rfl
      exact hold entries hnode
    have hfree : ∀ entries, f.get? target ≠ some (.folder entries) := by
      intro entries hfolder
      simp only [rename, hnode, hfolder] at h
      split at h
      · cases h
      · cases h
    refine (kept_of_erase hsource hold).trans (kept_of_insert htarget (fun entries => ?_) hnode')
    rw [Table.get?_erase]
    split
    · exact (Option.some_ne_none _).symm
    · exact hfree entries

theorem kept_of_remove (place : Place) {file : FileName} (hfree : free file) :
    Kept free place (place.remove file) := by
  cases place with
  | absent => exact .refl free .absent
  | blocked contents => exact .refl free (.blocked contents)
  | folder f =>
    simp only [remove]
    split
    · exact .refl free (.folder f)
    · next hold => exact kept_of_erase hfree fun entries hfolder => hold entries hfolder

end Place

namespace Disk

/-- A disk after changes to files at some paths. -/
structure Kept (free : List FileName → Prop) (before after : Disk) : Prop where
  working : after.working = before.working
  -- What is in the way of the snapshot folder stays.
  blocked : ∀ contents, before.place = .blocked contents → after.place = .blocked contents
  -- The folder itself stays.
  folder : ∀ f, before.place = .folder f → ∃ g, after.place = .folder g
  -- Whatever else there is stands where it was and is as it was, and nothing has been added.
  elsewhere : ∀ path, ¬ path <+: before.placePath → ¬ free path →
    (after.tree.at? path).map Node.bare = (before.tree.at? path).map Node.bare

variable {free more : List FileName → Prop} {first second third disk : Disk}

theorem Kept.placePath (h : Kept free first second) : second.placePath = first.placePath := by
  rw [Disk.placePath, Disk.placePath, h.working]

theorem Kept.refl (free : List FileName → Prop) (disk : Disk) : Kept free disk disk where
  working := rfl
  blocked _ h := h
  folder f h := ⟨f, h⟩
  elsewhere _ _ _ := rfl

theorem Kept.trans (h : Kept free first second) (h' : Kept free second third) :
    Kept free first third where
  working := h'.working.trans h.working
  blocked contents hfirst := h'.blocked contents (h.blocked contents hfirst)
  folder f hfirst := by
    obtain ⟨g, hsecond⟩ := h.folder f hfirst
    exact h'.folder g hsecond
  elsewhere path hpath hfree := by
    rw [h'.elsewhere path (h.placePath ▸ hpath) hfree, h.elsewhere path hpath hfree]

theorem Kept.mono (h : Kept free first second) (hmore : ∀ path, free path → more path) :
    Kept more first second where
  working := h.working
  blocked := h.blocked
  folder := h.folder
  elsewhere path hpath hfree := h.elsewhere path hpath fun hother => hfree (hmore path hother)

/-- A file that may not be changed is found again. -/
theorem Kept.find?_file (h : Kept free first second) {file : FileName} {contents : Bytes}
    (hentry : first.place.find? file = some (.file contents))
    (hfree : ¬ free (first.placePath ++ [file])) :
    second.place.find? file = some (.file contents) := by
  have hpath : ¬ first.placePath ++ [file] <+: first.placePath := by
    intro hbegins
    have hlength := hbegins.length_le
    rw [List.length_append, List.length_singleton] at hlength
    omega
  have hkept := h.elsewhere _ hpath hfree
  rw [at?_tree_entry, hentry, ← h.placePath, at?_tree_entry] at hkept
  exact Node.eq_file_of_bare hkept

/-! ## Requests about the disk -/

/-- Changes to entries of the snapshot folder. -/
theorem kept_of_place {file : FileName → Prop} {place : Place}
    (h : Place.Kept file disk.place place)
    (hfree : ∀ name, file name → free (disk.placePath ++ [name])) :
    Kept free disk { disk with place } where
  working := rfl
  blocked := h.blocked
  folder := h.folder
  elsewhere path hpath hother := by
    have hsame : ({ disk with place } : Disk).tree.at? path = disk.tree.at? path := by
      refine at?_tree_congr ?_ ?_ hpath ?_
      · rfl
      · rfl
      · rintro name more rfl
        cases more with
        | nil =>
          have hentry := h.entries name fun hname => hother (hfree name hname)
          show ((place.find? name).bind _) = (disk.place.find? name).bind _
          rw [hentry]
        | cons next more => exact h.below name next more
    rw [hsame]

/-- In a folder that was just made there are no links. -/
theorem diverts_of_makeFolder {place : Place} (h : disk.place.makeFolder = .ok place)
    {name : FileName} {path : List FileName}
    (hdiverts : ({ disk with place } : Disk).Diverts name path) : disk.Diverts name path := by
  cases hplace : disk.place with
  | absent =>
    obtain ⟨target, node, hentry, -⟩ := hdiverts
    have hsame := Place.find?_of_makeFolder h name
    rw [hplace] at hsame
    cases hentry.symm.trans hsame
  | blocked contents =>
    rw [hplace] at h
    cases h
  | folder f =>
    rw [hplace] at h
    cases h
    rw [← hplace] at hdiverts
    exact hdiverts

/-- A file that is put where a link leads. -/
theorem kept_of_diverts {name : FileName} {path : List FileName} (h : disk.Diverts name path)
    (contents : Bytes) (hfree : free path) : Kept free disk (disk.put (.file contents) path) where
  working := (h.gains contents).working
  blocked old hplace := by
    obtain ⟨f, -, -, hfolder, -⟩ := h.walk
    rw [hplace] at hfolder
    cases hfolder
  folder _ _ := (h.gains contents).folder
  elsewhere other _ hother := by
    have hgains := h.gains contents
    by_cases hbelow : path <+: other
    · -- There is nothing below the file, and there was nothing below what it has replaced.
      have hne : other ≠ path := fun heq => hother (heq ▸ hfree)
      have hafter : (disk.put (.file contents) path).tree.at? other = none := by
        refine Node.at?_below_of_ne_folder (fun entries hfolder => ?_) hbelow hne
        cases hgains.file.symm.trans hfolder
      have hbefore : disk.tree.at? other = none := by
        obtain ⟨f, -, node, -, -, hwalk, hnode⟩ := h.walk
        refine Node.at?_below_of_ne_folder ?_ hbelow hne
        rw [at?_of_walk hwalk]
        exact hnode
      rw [hafter, hbefore]
    · exact hgains.elsewhere other hbelow

/-- What a name stands for is no folder, and if it is a link then this leads only to files that
    may be changed. -/
structure Guarded (free : List FileName → Prop) (disk : Disk) (name : FileName) : Prop where
  noFolder : ∀ entries, disk.place.find? name ≠ some (.folder entries)
  diverts : ∀ path, disk.Diverts name path → free path

/-- A link goes on leading where it led. -/
theorem guarded_of_diverts {name : FileName} {path : List FileName} (h : disk.Diverts name path)
    (contents : Bytes) (hfree : free path) :
    Guarded free (disk.put (.file contents) path) name where
  noFolder entries := by
    obtain ⟨-, target, -, -, hentry, -⟩ := h.walk
    rw [(h.put hentry contents).link]
    nofun
  diverts other hother := by
    rw [h.eq_of_put hother]
    exact hfree

/-- What stands for a file leads nowhere. -/
theorem guarded_of_file {name : FileName} {contents : Bytes}
    (h : disk.place.find? name = some (.file contents)) : Guarded free disk name where
  noFolder := Place.not_folder_of_file h
  diverts := by
    rintro path ⟨target, node, hentry, -⟩
    exact absurd hentry (Place.not_link_of_file h target)

/-- A link is followed by creating a file of its name. -/
theorem diverts_of_create {made : Disk} {name : FileName} {target : Bytes}
    (hentry : disk.place.find? name = some (.link target))
    (h : disk.create name = .ok made) :
    ∃ path, disk.Diverts name path ∧ made = disk.put (.file []) path := by
  simp only [create, hentry, Bind.bind, Except.bind] at h
  split at h
  · cases h
  split at h
  · cases h
  next found hlocate =>
  split at h
  · cases h
  next path node hfolder =>
  cases h
  exact ⟨path, ⟨target, node, hentry, hlocate, fun entries heq => hfolder entries heq⟩, rfl⟩

/-- A file of a name is created in the snapshot folder or where the link of this name leads. -/
theorem kept_of_create {made : Disk} {name : FileName} (h : disk.create name = .ok made)
    (hname : free (disk.placePath ++ [name])) (hfree : ∀ path, disk.Diverts name path → free path) :
    Kept free disk made ∧ Guarded free made name := by
  by_cases hlink : ∃ target, disk.place.find? name = some (.link target)
  · obtain ⟨target, hentry⟩ := hlink
    obtain ⟨path, hdiverts, rfl⟩ := diverts_of_create hentry h
    exact ⟨kept_of_diverts hdiverts [] (hfree path hdiverts),
      guarded_of_diverts hdiverts [] (hfree path hdiverts)⟩
  · have hlink' : ∀ target, disk.place.find? name ≠ some (.link target) := fun target hentry =>
      hlink ⟨target, hentry⟩
    rw [create_eq hlink'] at h
    cases hplace : disk.place.create name with
    | error fault =>
      rw [hplace] at h
      cases h
    | ok place =>
      rw [hplace] at h
      cases h
      have hkept : Place.Kept (· = name) disk.place place := Place.kept_of_create hplace rfl
      have hfile : place.find? name = some (.file []) :=
        ((Place.find?_create hplace).2 name).trans (if_pos rfl)
      refine ⟨kept_of_place hkept ?_, guarded_of_file hfile⟩
      rintro file rfl
      exact hname

/-- So is it extended. -/
theorem kept_of_extend {name : FileName} (bytes : Bytes) (hname : free (disk.placePath ++ [name]))
    (h : Guarded free disk name) :
    Kept free disk (disk.extend name bytes) ∧ Guarded free (disk.extend name bytes) name := by
  by_cases hlink : ∃ target, disk.place.find? name = some (.link target)
  · obtain ⟨target, hentry⟩ := hlink
    simp only [extend, hentry]
    split
    · next path contents hlocate =>
      have hdiverts : disk.Diverts name path := ⟨target, _, hentry, hlocate, nofun⟩
      exact ⟨kept_of_diverts hdiverts _ (h.diverts path hdiverts),
        guarded_of_diverts hdiverts _ (h.diverts path hdiverts)⟩
    · exact ⟨.refl free disk, h⟩
  · have hlink' : ∀ target, disk.place.find? name ≠ some (.link target) := fun target hentry =>
      hlink ⟨target, hentry⟩
    rw [extend_eq hlink']
    have hkept : Place.Kept (· = name) disk.place (disk.place.extend name bytes) :=
      Place.kept_of_extend disk.place bytes rfl
    refine ⟨kept_of_place hkept ?_, ?_⟩
    · rintro file rfl
      exact hname
    · rcases disk.place.extend_eq_or name bytes with ⟨contents, hfile⟩ | hsame
      · exact guarded_of_file hfile
      · rw [hsame]
        exact h

end Disk

namespace Archive

/-- An archive after changes to files at some paths. -/
structure Kept (free : List FileName → Prop) (before after : Archive) : Prop where
  disk : before.toDisk.Kept free after.toDisk
  path : after.path = before.path
  process : after.process = before.process

variable {free more : List FileName → Prop} {first second third archive : Archive}

theorem Kept.refl (free : List FileName → Prop) (archive : Archive) :
    Kept free archive archive where
  disk := .refl free archive.toDisk
  path := rfl
  process := rfl

theorem Kept.trans (h : Kept free first second) (h' : Kept free second third) :
    Kept free first third where
  disk := h.disk.trans h'.disk
  path := h'.path.trans h.path
  process := h'.process.trans h.process

theorem Kept.mono (h : Kept free first second) (hmore : ∀ path, free path → more path) :
    Kept more first second :=
  { h with disk := h.disk.mono hmore }

/-- The paths of the files that the next writing of a snapshot can change: that of the snapshot,
    that of the hidden file, and where a link of the hidden file's name leads. -/
def Exposes (archive : Archive) (name : SnapshotName) (path : List FileName) : Prop :=
  path = archive.placePath ++ [name.fileName] ∨
  path = archive.placePath ++ [Saving.hiddenName name archive.process archive.temporaries] ∨
  archive.Diverts (Saving.hiddenName name archive.process archive.temporaries) path

/-- No other snapshot is among them, unless a link leads to it. -/
theorem not_exposes {name other : SnapshotName} (hlink : archive.Unlinked name)
    (hne : other ≠ name) : ¬ archive.Exposes name (archive.placePath ++ [other.fileName]) := by
  rintro (hown | hhidden | ⟨target, -, hentry, -⟩)
  · rw [List.append_right_inj, List.singleton_inj] at hown
    exact hne (SnapshotName.fileName_injective hown)
  · rw [List.append_right_inj, List.singleton_inj] at hhidden
    exact Saving.hiddenName_ne_fileName _ _ _ _ hhidden.symm
  · exact hlink target hentry

end Archive

/-! ## Writings -/

namespace Saving

/-- `hidden` is the name of the hidden file of a writing, or the name that it will get, and no
    link of this name leads anywhere but to files that may be changed. -/
def Hides (free : List FileName → Prop) (archive : Archive) (s : Saving) (hidden : FileName) :
    Prop :=
  match s.stage with
  | .makingFolder | .creating =>
    hiddenName s.name archive.process archive.temporaries = hidden ∧
      ∀ path, archive.Diverts hidden path → free path
  | .writing file _ | .syncing file | .renaming file =>
    file = hidden ∧ archive.Guarded free hidden
  | .removing file _ => file = hidden
  | .finished _ => True

variable {free : List FileName → Prop} {archive : Archive} {s : Saving} {hidden : FileName}

/-- Every request keeps all but the snapshot's file, the hidden one and what a link in its place
    leads to. -/
theorem kept_of_step (hown : free (archive.placePath ++ [s.name.fileName]))
    (hhidden : free (archive.placePath ++ [hidden])) (h : Hides free archive s hidden)
    (reply : Reply) :
    Archive.Kept free archive (step archive s reply).1 ∧
      Hides free (step archive s reply).1 (step archive s reply).2 hidden := by
  have hstill := Archive.Kept.refl free archive
  have hplace : ∀ place, Place.Kept (fun file => file = s.name.fileName ∨ file = hidden)
      archive.place place → archive.toDisk.Kept free { archive.toDisk with place } := by
    intro place hkept
    refine Disk.kept_of_place hkept ?_
    rintro file (rfl | rfl)
    · exact hown
    · exact hhidden
  obtain ⟨name, contents, stage⟩ := s
  cases stage with
  | makingFolder =>
    cases reply with
    | refuse fault => exact ⟨hstill, trivial⟩
    | grant piece =>
      obtain ⟨hname, hfree⟩ := h
      simp only [step]
      split
      · exact ⟨hstill, trivial⟩
      · next place hmade =>
        refine ⟨{ hstill with disk := hplace place (Place.kept_of_makeFolder hmade) }, hname, ?_⟩
        exact fun path hdiverts => hfree path (Disk.diverts_of_makeFolder hmade hdiverts)
  | creating =>
    obtain ⟨rfl, hfree⟩ := h
    cases reply with
    | refuse fault => exact ⟨{ hstill with }, rfl⟩
    | grant piece =>
      simp only [step]
      split
      · exact ⟨{ hstill with }, rfl⟩
      · next disk hmade =>
        obtain ⟨hkept, hguarded⟩ := Disk.kept_of_create hmade hhidden hfree
        exact ⟨{ hstill with disk := hkept }, rfl, hguarded⟩
  | writing file rest =>
    obtain ⟨rfl, hguarded⟩ := h
    cases reply with
    | refuse fault => exact ⟨hstill, rfl⟩
    | grant piece =>
      obtain ⟨hkept, hguarded'⟩ := Disk.kept_of_extend (rest.take piece) hhidden hguarded
      simp only [step]
      split
      · exact ⟨{ hstill with disk := hkept }, rfl, hguarded'⟩
      · exact ⟨{ hstill with disk := hkept }, rfl, hguarded'⟩
  | syncing file =>
    cases reply with
    | refuse fault => exact ⟨hstill, h.1⟩
    | grant piece => exact ⟨hstill, h⟩
  | «renaming» file =>
    cases reply with
    | refuse fault => exact ⟨hstill, h.1⟩
    | grant piece =>
      obtain ⟨rfl, hguarded⟩ := h
      simp only [step]
      split
      · exact ⟨hstill, rfl⟩
      · next place hmade =>
        have hkept := hplace place
          (Place.kept_of_rename hmade (.inr rfl) (.inl rfl) hguarded.noFolder)
        exact ⟨{ hstill with disk := hkept }, trivial⟩
  | removing file fault =>
    have hkept := hplace _ (Place.kept_of_remove archive.place (.inr h))
    exact ⟨{ hstill with disk := hkept }, trivial⟩
  | finished fault => exact ⟨hstill, trivial⟩

/-- So it is at any time of a writing. -/
theorem kept_of_foldl (hown : free (archive.placePath ++ [s.name.fileName]))
    (hhidden : free (archive.placePath ++ [hidden])) (h : Hides free archive s hidden)
    (replies : List Reply) :
    Archive.Kept free archive
      (replies.foldl (fun (archive, s) reply => step archive s reply) (archive, s)).1 := by
  refine (holds_of_foldl (P := fun middle t => Archive.Kept free archive middle ∧
    Hides free middle t hidden ∧ t.name = s.name) ?_ ⟨.refl free archive, h, rfl⟩ replies).1
  rintro middle t reply ⟨hkept, hhides, hname⟩
  have hplace := hkept.disk.placePath
  have hown' : free (middle.placePath ++ [t.name.fileName]) := by
    rw [hplace, hname]
    exact hown
  obtain ⟨hnext, hhides'⟩ := kept_of_step hown' (hplace ▸ hhidden) hhides reply
  exact ⟨hkept.trans hnext, hhides', (step_same middle t reply).1.trans hname⟩

end Saving

namespace Archive

/-- A writing keeps all but what it can change, at any time and whatever is refused. -/
theorem kept_of_writing (archive : Archive) (name : SnapshotName) (contents : Bytes)
    (replies : List Saving.Reply) :
    Kept (archive.Exposes name) archive
      (replies.foldl (fun (archive, s) reply => Saving.step archive s reply)
        (archive, .start name contents)).1 :=
  Saving.kept_of_foldl (s := .start name contents) (.inl rfl) (.inr (.inl rfl))
    ⟨rfl, fun _ hdiverts => .inr (.inr hdiverts)⟩ replies

theorem kept_of_saveWith {raw : String} {name : SnapshotName}
    (hname : SnapshotName.sanitize raw = .ok name) (archive : Archive)
    (replies : List Saving.Reply) (contents : String) :
    Kept (archive.Exposes name) archive (archive.saveWith replies raw contents).1 := by
  obtain ⟨after, s, fault, hcomplete, -, hsave⟩ :=
    exists_of_saveWith hname archive replies contents
  have hkept : Kept (archive.Exposes name) archive
      (Saving.completeWith archive (.start name (Utf8.encode contents)) replies).1 :=
    archive.kept_of_writing name (Utf8.encode contents) _
  rw [hcomplete] at hkept
  rw [hsave]
  exact hkept

end Archive

end ShowRelay
