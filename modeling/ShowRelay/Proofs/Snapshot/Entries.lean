/-
  ShowRelay.Proofs.Snapshot.Entries

  A snapshot folder by its entries. Each request about the folder changes at most
  two entries, and what can be read and what is listed depend on the entries
  alone: whether the folder has been made yet makes no difference, as long as
  nothing stands in its way.
-/

import ShowRelay.Proofs.Snapshot.Naming
import ShowRelay.Proofs.Table

namespace ShowRelay

/-! ## Entries and requests -/

namespace Place

/-- Nothing stands where the folder should be. -/
def Unblocked (place : Place) : Prop := ∀ contents, place ≠ blocked contents

theorem unblocked_folder (f : Folder) : (folder f).Unblocked := nofun

/-- Making the folder succeeds unless something is in its way, and adds no entry. -/
theorem makeFolder_eq_of_unblocked {place : Place} (h : place.Unblocked) :
    ∃ f, place.makeFolder = .ok (folder f) ∧ ∀ name, (folder f).find? name = place.find? name := by
  cases place with
  | absent => exact ⟨Table.empty, rfl, fun _ => rfl⟩
  | blocked contents => exact absurd rfl (h contents)
  | folder f => exact ⟨f, rfl, fun _ => rfl⟩

/-- Making the folder adds no entry. -/
theorem find?_of_makeFolder {place made : Place} (h : place.makeFolder = .ok made)
    (name : FileName) : made.find? name = place.find? name := by
  cases place with
  | absent =>
    cases h
    rfl
  | blocked contents => cases h
  | folder f =>
    cases h
    rfl

theorem find?_create {place made : Place} {new : FileName} (h : place.create new = .ok made) :
    made.Unblocked ∧ ∀ name,
      made.find? name = if name = new then some (.file []) else place.find? name := by
  cases place with
  | absent => cases h
  | blocked contents => cases h
  | folder f =>
    simp only [create] at h
    split at h
    · cases h
    · split at h
      · cases h
      · cases h
      · cases h
        exact ⟨unblocked_folder _, fun name => Table.get?_insert f new name _⟩

theorem find?_extend {place : Place} {file : FileName} {written : Bytes}
    (h : place.find? file = some (.file written)) (bytes : Bytes) :
    (place.extend file bytes).Unblocked ∧ ∀ name, (place.extend file bytes).find? name =
      if name = file then some (.file (written ++ bytes)) else place.find? name := by
  cases place with
  | absent => cases h
  | blocked contents => cases h
  | folder f =>
    have hat : f.get? file = some (.file written) := h
    simp only [extend, hat]
    exact ⟨unblocked_folder _, fun name => Table.get?_insert f file name _⟩

theorem not_folder_of_file {place : Place} {file : FileName} {written : Bytes}
    (h : place.find? file = some (.file written)) (entries : List (FileName × Node)) :
    place.find? file ≠ some (.folder entries) := by
  rw [h]
  nofun

theorem not_link_of_file {place : Place} {file : FileName} {written : Bytes}
    (h : place.find? file = some (.file written)) (target : Bytes) :
    place.find? file ≠ some (.link target) := by
  rw [h]
  nofun

theorem not_link_of_fresh {place : Place} {file : FileName} (h : place.find? file = none)
    (target : Bytes) : place.find? file ≠ some (.link target) := by
  rw [h]
  nofun

theorem find?_rename {place made : Place} {source target : FileName}
    (h : place.rename source target = .ok made) :
    made.Unblocked ∧ ∃ node, place.find? source = some node ∧ ∀ name, made.find? name =
      if name = target then some node else if name = source then none else place.find? name := by
  cases place with
  | absent => cases h
  | blocked contents => cases h
  | folder f =>
    simp only [rename] at h
    split at h
    · cases h
    split at h
    · cases h
    · cases h
    next node hnode _ =>
    cases h
    refine ⟨unblocked_folder _, node, hnode, fun name => ?_⟩
    show ((f.erase source).insert target node).get? name = _
    rw [Table.get?_insert, Table.get?_erase]
    rfl

theorem find?_remove {place : Place} {file : FileName}
    (h : ∀ entries, place.find? file ≠ some (.folder entries)) (name : FileName) :
    (place.remove file).find? name = if name = file then none else place.find? name := by
  cases place with
  | absent => exact (ite_self none).symm
  | blocked contents => exact (ite_self none).symm
  | folder f =>
    simp only [remove]
    split
    · next entries hentry => exact absurd hentry (h entries)
    · exact Table.get?_erase f file name

theorem Unblocked.remove {place : Place} (h : place.Unblocked) (file : FileName) :
    (place.remove file).Unblocked := by
  cases place with
  | absent => exact h
  | blocked contents => exact absurd rfl (h contents)
  | folder f =>
    simp only [Place.remove]
    split
    · exact unblocked_folder f
    · exact unblocked_folder _

end Place

namespace Disk

/-- A file is created in the snapshot folder itself if there is no link of its name. -/
theorem create_eq {disk : Disk} {name : FileName}
    (h : ∀ target, disk.place.find? name ≠ some (.link target)) :
    disk.create name = (disk.place.create name).map fun place => { disk with place } := by
  unfold create
  split
  · next target hentry => exact absurd hentry (h target)
  · cases disk.place.create name with
    | error fault => rfl
    | ok place => rfl

/-- A file in the snapshot folder is extended there. -/
theorem extend_eq {disk : Disk} {name : FileName}
    (h : ∀ target, disk.place.find? name ≠ some (.link target)) (bytes : Bytes) :
    disk.extend name bytes = { disk with place := disk.place.extend name bytes } := by
  unfold extend
  split
  · next target hentry => exact absurd hentry (h target)
  · rfl

end Disk

/-! ## Reading -/

namespace SnapshotName

/-- The name of a snapshot file is none of the names that stand for folders. -/
theorem fileName_ne_encode (name : SnapshotName) {text : String} (h : text.length < 7) :
    name.fileName ≠ Utf8.encode text := by
  intro heq
  have hlength := congrArg String.length (Utf8.encode_injective heq)
  have hending : ending.length = 7 := rfl
  rw [fileText, String.length_append, hending] at hlength
  omega

theorem fileName_ne_itself (name : SnapshotName) :
    ¬ (name.fileName = [] ∨ name.fileName = Path.itself) := by
  rw [not_or]
  have hempty : name.fileName ≠ Utf8.encode "" := name.fileName_ne_encode (by decide)
  exact ⟨hempty, name.fileName_ne_encode (by decide)⟩

theorem fileName_ne_parent (name : SnapshotName) : name.fileName ≠ Path.parent :=
  name.fileName_ne_encode (by decide)

end SnapshotName

namespace Disk

/-- A look-up in the snapshot folder gets into the folder if there is one. -/
theorem locate_own (disk : Disk) (name : FileName) :
    disk.locate [ownName, name] = match disk.place with
      | .absent => .error .notFound
      | .blocked _ => .error .notDirectory
      | .folder _ => walk disk.tree maxLinks (disk.working ++ [ownName]) [name] := by
  have hroot : Path.isFromRoot [ownName, name] = false := rfl
  have hown : ¬ (ownName = [] ∨ ownName = Path.itself) := by decide
  have hown' : ¬ ownName = Path.parent := by decide
  have hown'' : ¬ FileName.maxLength < ownName.length := by decide
  have htree : disk.tree.at? (disk.working ++ [ownName]) = disk.place.node? := at?_tree disk
  rw [locate, hroot, walk, if_neg hown, if_neg hown', if_neg hown'',
    if_neg Bool.false_ne_true, htree]
  cases disk.place with
  | absent => rfl
  | blocked contents => rfl
  | folder f => rfl

/-- What stands in the folder stands in the tree. -/
theorem at?_entry {disk : Disk} {f : Folder} (hplace : disk.place = .folder f) (name : FileName) :
    disk.tree.at? (disk.working ++ [ownName] ++ [name]) = f.get? name := by
  have htree : disk.tree.at? (disk.working ++ [ownName]) = disk.place.node? := at?_tree disk
  rw [Node.at?_append, htree, hplace]
  show ((f.get? name).bind fun inner => inner.at? []) = _
  cases f.get? name with
  | none => rfl
  | some node => rfl

/-- Every path into the snapshot folder is short enough when the file name is. -/
theorem length_join_ownName_le {name : FileName} (h : name.length ≤ FileName.maxLength) :
    (Path.join ownName name).length ≤ Path.maxLength := by
  have hsmall : ownName.length + 1 + FileName.maxLength ≤ Path.maxLength := by decide
  have hjoin : (Path.join ownName name).length ≤ ownName.length + 1 + name.length := by
    unfold Path.join
    split
    · omega
    · split
      · rw [List.length_append]
        omega
      · rw [List.length_append, List.length_cons]
        omega
  omega

/-- A snapshot's file is read as it stands in the folder. -/
theorem read_eq {disk : Disk} {name : SnapshotName} (hunblocked : disk.place.Unblocked)
    (hlink : ∀ target, disk.place.find? name.fileName ≠ some (.link target))
    (hlength : name.fileName.length ≤ FileName.maxLength) :
    disk.read name.fileName = match disk.place.find? name.fileName with
      | some (.file contents) => .ok contents
      | some _ => .error .isDirectory
      | none => .error .notFound := by
  have hpath := Nat.not_lt_of_le (length_join_ownName_le hlength)
  rw [read, if_neg hpath, contentsAt, locate_own]
  cases hplace : disk.place with
  | absent => rfl
  | blocked contents => exact absurd hplace (hunblocked contents)
  | folder f =>
    rw [hplace] at hlink
    simp only [walk, if_neg name.fileName_ne_itself, if_neg name.fileName_ne_parent,
      if_neg (Nat.not_lt_of_le hlength), at?_entry hplace]
    cases hentry : f.get? name.fileName with
    | none =>
      have hentry' : (Place.folder f).find? name.fileName = none := hentry
      rw [hentry']
      rfl
    | some node =>
      have hentry' : (Place.folder f).find? name.fileName = some node := hentry
      rw [hentry']
      cases node with
      | file contents => rfl
      | folder entries => rfl
      | link target => exact absurd hentry' (hlink target)

/-- Nothing is read under a name that is too long. -/
theorem read_ne_ok {disk : Disk} {name : SnapshotName}
    (hlength : FileName.maxLength < name.fileName.length) (contents : Bytes) :
    disk.read name.fileName ≠ .ok contents := by
  rw [read]
  intro h
  split at h
  · cases h
  rw [contentsAt, locate_own] at h
  cases hplace : disk.place with
  | absent =>
    rw [hplace] at h
    cases h
  | blocked contents =>
    rw [hplace] at h
    cases h
  | folder f =>
    simp only [hplace, walk, if_neg name.fileName_ne_itself, if_neg name.fileName_ne_parent,
      if_pos hlength] at h
    cases h

end Disk

/-! ## Loading and listing -/

namespace Archive

/-- What a name loads follows from the entry of its file. -/
theorem load_eq {archive : Archive} {raw : String} {name : SnapshotName}
    (hname : SnapshotName.sanitize raw = .ok name) (hunblocked : archive.place.Unblocked)
    (hlink : ∀ target, archive.place.find? name.fileName ≠ some (.link target))
    (hlength : name.fileName.length ≤ FileName.maxLength) :
    archive.load raw = match archive.place.find? name.fileName with
      | some (.file bytes) => match Utf8.decode? bytes with
        | some text => .ok text
        | none => .error (.persistence name.text .notText)
      | some _ => .error (.persistence name.text .isDirectory)
      | none => .error (.notFound name.text) := by
  simp only [load, hname, bind, Except.bind, Disk.read_eq hunblocked hlink hlength]
  cases archive.place.find? name.fileName with
  | none => rfl
  | some node => cases node with
    | file contents => rfl
    | folder entries => rfl
    | link target => rfl

/-- The files of a folder are those of its entries that are files. -/
theorem mem_fileNames_iff {f : Folder} {files : List FileName}
    (h : (Place.folder f).fileNames = .ok files) {file : FileName} :
    file ∈ files ↔ ∃ contents, (Place.folder f).find? file = some (.file contents) := by
  cases h
  rw [List.mem_filterMap]
  constructor
  · rintro ⟨⟨name, node⟩, hmem, hfile⟩
    cases node with
    | file contents =>
      cases hfile
      exact ⟨contents, Table.mem_entries_iff.1 hmem⟩
    | folder entries => cases hfile
    | link target => cases hfile
  · rintro ⟨contents, hentry⟩
    exact ⟨(file, .file contents), Table.mem_entries_iff.2 hentry, rfl⟩

/-- The names that are listed are those of the files that end as snapshots do, in ascending
    order. -/
theorem list_eq_ok {archive : Archive} (h : archive.place.Unblocked) :
    ∃ names, archive.list = .ok names ∧ names.Pairwise (· < ·) ∧
      ∀ listed, listed ∈ names ↔ listed ≠ "" ∧ ∃ contents,
        archive.place.find? (Utf8.encode (listed ++ SnapshotName.ending)) =
          some (.file contents) := by
  cases hplace : archive.place with
  | absent =>
    refine ⟨[], ?_, List.Pairwise.nil, fun listed => ?_⟩
    · rw [list, hplace]
      rfl
    · constructor
      · nofun
      · rintro ⟨-, contents, hentry⟩
        cases hentry
  | blocked contents => exact absurd hplace (h contents)
  | folder f =>
    obtain ⟨files, hfiles⟩ : ∃ files, (Place.folder f).fileNames = .ok files := ⟨_, rfl⟩
    refine ⟨_, by rw [list, hplace, hfiles], Table.pairwise_keys _, fun listed => ?_⟩
    rw [Table.mem_keys_insertAll_iff]
    have hunit : (∃ value : Unit, (listed, value) ∈
        (files.filterMap listedName?).map fun name => (name, ())) ↔
          listed ∈ files.filterMap listedName? := by
      simp only [List.mem_map, Prod.mk.injEq, and_true, exists_eq_right, exists_const]
    rw [hunit, List.mem_filterMap]
    constructor
    · rintro ⟨file, hfile, hlisted⟩
      obtain ⟨hne, rfl⟩ := listedName?_eq_some_iff.1 hlisted
      exact ⟨hne, (mem_fileNames_iff hfiles).1 hfile⟩
    · rintro ⟨hne, hentry⟩
      exact ⟨_, (mem_fileNames_iff hfiles).2 hentry, listedName?_eq_some_iff.2 ⟨hne, rfl⟩⟩

/-! ## What hidden files are called -/

/-- No symbolic link has the name that the hidden file of a snapshot will get. Through such a
    link the writing would go wherever it leads. -/
def Unlinked (archive : Archive) (name : SnapshotName) : Prop :=
  ∀ target, archive.place.find?
    (Saving.hiddenName name archive.process archive.temporaries) ≠ some (.link target)

theorem unlinked_of_fresh {archive : Archive} {name : SnapshotName}
    (h : archive.place.find? (Saving.hiddenName name archive.process archive.temporaries) = none) :
    archive.Unlinked name := Place.not_link_of_fresh h

/-! ## What was renamed into place -/

/-- A folder as its writers expect it: nothing is in its way, nothing in it is a symbolic link,
    and no entry has the name of a hidden file of the process. -/
structure Clear (archive : Archive) : Prop where
  unblocked : archive.place.Unblocked
  noLink : ∀ file target, archive.place.find? file ≠ some (.link target)
  noHidden : ∀ name count,
    archive.place.find? (Saving.hiddenName name archive.process count) = none

/-- The files that snapshots are renamed to. -/
def files (renames : List (SnapshotName × String)) : List (FileName × Node) :=
  renames.map fun r => (r.1.fileName, .file (Utf8.encode r.2))

/-- Apart from hidden files there is what there was in the first place and what was renamed into
    place since, of each name the last. -/
structure Shows (first archive : Archive) (renames : List (SnapshotName × String)) : Prop where
  unblocked : archive.place.Unblocked
  entries : ∀ file, (∀ name count, file ≠ Saving.hiddenName name first.process count) →
    archive.place.find? file = (Entries.last? file (files renames)).or (first.place.find? file)

variable {first archive : Archive} {renames : List (SnapshotName × String)}

theorem Shows.find?_fileName (h : Shows first archive renames) (name : SnapshotName) :
    archive.place.find? name.fileName =
      ((Entries.last? name renames).map fun text => Node.file (Utf8.encode text)).or
        (first.place.find? name.fileName) := by
  have hlast : Entries.last? name.fileName (files renames) = _ :=
    Entries.last?_map SnapshotName.fileName_injective (fun text => Node.file (Utf8.encode text))
      name
      renames
  rw [h.entries name.fileName fun other count heq => ?_, hlast]
  exact Saving.hiddenName_ne_fileName other first.process count name heq.symm

/-- A snapshot's file is no symbolic link. -/
theorem Shows.noLink (h : Shows first archive renames) (hclear : first.Clear) (name : SnapshotName)
    (target : Bytes) : archive.place.find? name.fileName ≠ some (.link target) := by
  rw [h.find?_fileName]
  cases Entries.last? name renames with
  | none => exact hclear.noLink name.fileName target
  | some text => nofun

/-- A name loads what was last renamed into its place, or else what it loaded in the first
    place. -/
theorem Shows.load (h : Shows first archive renames) (hclear : first.Clear) {raw : String}
    {name : SnapshotName} (hname : SnapshotName.sanitize raw = .ok name)
    (hlength : name.fileName.length ≤ FileName.maxLength) :
    archive.load raw = match Entries.last? name renames with
      | some text => .ok text
      | none => first.load raw := by
  rw [load_eq hname h.unblocked (h.noLink hclear name) hlength, h.find?_fileName]
  cases Entries.last? name renames with
  | none =>
    rw [load_eq hname hclear.unblocked (hclear.noLink name.fileName) hlength]
    rfl
  | some text =>
    simp only [Option.map_some, Option.some_or, Utf8.decode?_encode]

/-- What was renamed into place is listed, with what was listed in the first place. -/
theorem Shows.list (h : Shows first archive renames) (hclear : first.Clear) :
    ∃ before after, first.list = .ok before ∧ archive.list = .ok after ∧
      after.Pairwise (· < ·) ∧
      ∀ listed, listed ∈ after ↔ listed ∈ before ∨ ∃ r ∈ renames, r.1.text = listed := by
  obtain ⟨before, hbefore, -, hold⟩ := list_eq_ok hclear.unblocked
  obtain ⟨after, hafter, hsorted, hnew⟩ := list_eq_ok h.unblocked
  refine ⟨before, after, hbefore, hafter, hsorted, fun listed => ?_⟩
  rw [hold, hnew, h.entries _ fun name count heq =>
    Saving.hiddenName_ne_encode name first.process count listed heq.symm]
  cases hlast : Entries.last? (Utf8.encode (listed ++ SnapshotName.ending)) (files renames) with
  | none =>
    -- No rename has this name, or else its file would be among those renamed to.
    rw [Option.none_or]
    constructor
    · exact Or.inl
    · rintro (hlisted | ⟨r, hr, rfl⟩)
      · exact hlisted
      · exact absurd rfl (Entries.last?_eq_none_iff.1 hlast _ (List.mem_map_of_mem hr))
  | some node =>
    obtain ⟨r, hr, heq⟩ := List.mem_map.1 (Entries.mem_of_last? hlast)
    obtain ⟨hfile, rfl⟩ := Prod.mk.inj heq
    have hstem := congrArg String.toList (Utf8.encode_injective hfile)
    rw [SnapshotName.fileText, String.toList_append, String.toList_append,
      List.append_cancel_right_eq, String.toList_inj] at hstem
    constructor
    · exact fun _ => .inr ⟨r, hr, hstem⟩
    · exact fun _ => ⟨hstem ▸ r.1.nonempty, Utf8.encode r.2, rfl⟩

end Archive

end ShowRelay
