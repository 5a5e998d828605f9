/-
  ShowRelay.Proofs.Snapshot.Paths

  Where the names of a snapshot lead. Its file and its hidden files have names
  made of letters, digits, dots and spaces, which are more than two characters
  long. Such a name stands for an entry of the folder that it is looked up in and
  for nothing else (`FileName.Direct`): it adds one component to a path, and an
  operating system that follows the path ends up directly inside the folder
  (`Disk.locate_direct`).

  What a path leads to is another matter if the entry is a symbolic link.
-/

import Mathlib.Data.List.Induction
import ShowRelay.Proofs.Snapshot.Entries

namespace ShowRelay

/-! ## Names that stay in their folder -/

/-- A file name that stands for an entry of the folder it is looked up in. -/
structure FileName.Direct (file : FileName) : Prop where
  nonempty : file ≠ []
  -- It is one component of a path, and the path can be handed to the operating system.
  whole : Path.separator ∉ file
  clean : 0 ∉ file
  -- It stands neither for the folder nor for the one above.
  not_itself : file ≠ Path.itself
  not_parent : file ≠ Path.parent

/-- A look-up of such a name does not stay where it is. -/
theorem FileName.Direct.not_stays {file : FileName} (h : file.Direct) :
    ¬ (file = [] ∨ file = Path.itself) :=
  not_or.2 ⟨h.nonempty, h.not_itself⟩

namespace SnapshotName

/-- The ranges of the characters of a name, by their numbers. -/
theorem toNat_of_allowed {c : Char} (h : Allowed c) :
    c.toNat = 32 ∨ 46 = c.toNat ∨ (48 ≤ c.toNat ∧ c.toNat < 128) := by
  have hle : ∀ d e : Char, d ≤ e ↔ d.toNat ≤ e.toNat := fun d e => UInt32.le_iff_toNat_le
  have hlt := toNat_lt_of_allowed h
  rw [Allowed, hle, hle, hle, hle, hle, hle] at h
  have hA : 'A'.toNat = 65 := rfl
  have ha : 'a'.toNat = 97 := rfl
  have hzero : '0'.toNat = 48 := rfl
  rcases h with h | h | h | rfl | rfl
  · omega
  · omega
  · omega
  · decide
  · decide

end SnapshotName

/-- The bytes of an ASCII text are the numbers of its characters. -/
theorem Utf8.exists_of_mem_encode {s : String} (h : ∀ c ∈ s.toList, c.toNat < 128) {b : UInt8}
    (hb : b ∈ encode s) : ∃ c ∈ s.toList, b.toNat = c.toNat := by
  rw [encode_eq_flatMap, List.mem_flatMap] at hb
  obtain ⟨c, hc, hb⟩ := hb
  have hlt := h c hc
  rw [utf8EncodeChar_of_ascii hlt, List.mem_singleton] at hb
  refine ⟨c, hc, ?_⟩
  rw [hb, UInt8.toNat_ofNat']
  exact Nat.mod_eq_of_lt (by omega)

/-- A text of the characters that names may keep stays in its folder if it is longer than two
    dots. -/
theorem FileName.direct_of_allowed {text : String}
    (h : ∀ c ∈ text.toList, SnapshotName.Allowed c) (hlong : 2 < text.length) :
    FileName.Direct (Utf8.encode text) := by
  have hascii : ∀ c ∈ text.toList, c.toNat < 128 := fun c hc =>
    SnapshotName.toNat_lt_of_allowed (h c hc)
  have hlength := Utf8.length_encode_of_ascii hascii
  -- No byte of the name is that of a character below the space or that of the slash.
  have hbytes : ∀ b ∈ Utf8.encode text, b.toNat ≠ 0 ∧ b.toNat ≠ 47 := by
    intro b hb
    obtain ⟨c, hc, heq⟩ := Utf8.exists_of_mem_encode hascii hb
    have hrange := SnapshotName.toNat_of_allowed (h c hc)
    omega
  refine ⟨?_, fun hslash => (hbytes _ hslash).2 rfl, fun hzero => (hbytes _ hzero).1 rfl, ?_, ?_⟩
  · intro heq
    rw [heq, List.length_nil] at hlength
    omega
  · intro heq
    have hitself : Path.itself.length = 1 := by decide
    rw [heq] at hlength
    omega
  · intro heq
    have hparent : Path.parent.length = 2 := by decide
    rw [heq] at hlength
    omega

namespace SnapshotName

theorem allowed_of_mem_text {name : SnapshotName} {c : Char} (h : c ∈ name.text.toList) :
    Allowed c :=
  (keeps_iff c).1 (name.kept c h)

theorem allowed_of_mem_repr {n : Nat} {c : Char} (h : c ∈ n.repr.toList) : Allowed c := by
  rw [Nat.toList_repr] at h
  have hdigit := Nat.isDigit_of_mem_toDigits (by decide) (by decide) h
  rw [← keeps_iff, keeps, Char.isAlphanum, hdigit, Bool.or_true, Bool.true_or, Bool.true_or]

theorem allowed_of_mem_fileText {name : SnapshotName} {c : Char} (h : c ∈ name.fileText.toList) :
    Allowed c := by
  rw [fileText, String.toList_append, List.mem_append] at h
  rcases h with h | h
  · exact allowed_of_mem_text h
  · have hending : ∀ c ∈ ending.toList, keeps c = true := List.all_eq_true.1 (by decide)
    exact (keeps_iff c).1 (hending c h)

theorem direct_fileName (name : SnapshotName) : FileName.Direct name.fileName := by
  refine FileName.direct_of_allowed (fun c hc => ?_) ?_
  · exact allowed_of_mem_fileText hc
  · have hending : ending.length = 7 := rfl
    rw [fileText, String.length_append, hending]
    omega

end SnapshotName

theorem Saving.direct_hiddenName (name : SnapshotName) (process count : Nat) :
    FileName.Direct (hiddenName name process count) := by
  refine FileName.direct_of_allowed (fun c hc => ?_) ?_
  · have hending : ∀ c ∈ ".tmp".toList, SnapshotName.keeps c = true :=
      List.all_eq_true.1 (by decide)
    have hdot : SnapshotName.Allowed '.' := (SnapshotName.keeps_iff '.').1 (by decide)
    rw [toList_hidden] at hc
    simp only [List.cons_append, List.append_assoc, List.mem_cons, List.mem_append] at hc
    rcases hc with rfl | hc | rfl | hc | rfl | hc | hc
    · exact hdot
    · exact SnapshotName.allowed_of_mem_text hc
    · exact hdot
    · exact SnapshotName.allowed_of_mem_repr hc
    · exact hdot
    · exact SnapshotName.allowed_of_mem_repr hc
    · exact (SnapshotName.keeps_iff c).1 (hending c hc)
  · rw [← String.length_toList, toList_hidden]
    simp only [List.length_append, List.length_cons]
    omega

/-! ## Paths -/

namespace SnapshotName

theorem slash_notMem_fileText (name : SnapshotName) : '/' ∉ name.fileText.toList := by
  intro h
  have hslash := (keeps_iff '/').2 (allowed_of_mem_fileText h)
  exact absurd hslash (by decide)

end SnapshotName

namespace Archive

/-- The components of the path of a folder; a separator at its end does not count. -/
def components (folder : String) : List (List Char) :=
  if folder.toList.getLast?.all (· = '/') then (folder.toList.splitOn '/').dropLast
  else folder.toList.splitOn '/'

/-- The path of a snapshot's file as it is written. -/
theorem pathFor_text (archive : Archive) (name : SnapshotName) :
    archive.pathFor name.text =
      if archive.path.toList.getLast?.all (· = '/') then archive.path ++ name.fileText
      else archive.path ++ "/" ++ name.fileText := by
  have hrelative : name.fileText.toList.head? ≠ some '/' := fun hhead =>
    name.slash_notMem_fileText (List.mem_of_mem_head? hhead)
  exact if_neg hrelative

/-- It is the path of the folder with one more component. -/
theorem splitOn_pathFor (archive : Archive) (name : SnapshotName) :
    (archive.pathFor name.text).toList.splitOn '/' =
      components archive.path ++ [name.fileText.toList] := by
  have hfile : name.fileText.toList.splitOn '/' = [name.fileText.toList] := by
    refine List.splitOnP_eq_singleton fun c hc => ?_
    rw [beq_eq_false_iff_ne]
    rintro rfl
    exact name.slash_notMem_fileText hc
  have hsplit : ∀ front : List Char, (front ++ '/' :: name.fileText.toList).splitOn '/' =
      front.splitOn '/' ++ [name.fileText.toList] := by
    intro front
    rw [← hfile]
    exact List.splitOnP_append_cons front name.fileText.toList (beq_self_eq_true '/')
  rw [pathFor_text, components]
  split
  · next hends =>
    rw [String.toList_append]
    cases hfolder : archive.path.toList using List.reverseRecOn with
    | nil =>
      rw [List.nil_append, hfile]
      rfl
    | append_singleton front c =>
      rw [hfolder, List.getLast?_concat, Option.all_some, decide_eq_true_iff] at hends
      subst hends
      have hfront : (front ++ ['/']).splitOn '/' = front.splitOn '/' ++ [[]] :=
        List.splitOnP_append_cons front [] (beq_self_eq_true '/')
      rw [List.append_assoc, List.singleton_append, hsplit, hfront, List.dropLast_concat]
  · rw [String.toList_append, String.toList_append, List.append_assoc]
    exact hsplit archive.path.toList

end Archive

namespace Disk

/-- Where a path into the snapshot folder leads, as long as the entry is no symbolic link. -/
theorem locate_direct {disk : Disk} {file : FileName} (h : file.Direct)
    (hlink : ∀ target, disk.place.find? file ≠ some (.link target)) :
    disk.locate [ownName, file] = match disk.place with
      | .absent => .error .notFound
      | .blocked _ => .error .notDirectory
      | .folder f =>
        if FileName.maxLength < file.length then .error .nameTooLong
        else .ok (disk.placePath ++ [file], f.get? file) := by
  rw [locate_own]
  cases hplace : disk.place with
  | absent => rfl
  | blocked contents => rfl
  | folder f =>
    rw [hplace] at hlink
    simp only [walk, if_neg h.not_stays, if_neg h.not_parent, at?_entry hplace]
    split
    · rfl
    · cases hentry : f.get? file with
      | none => rfl
      | some node =>
        cases node with
        | file contents => rfl
        | folder entries => rfl
        | link target => exact absurd hentry (hlink target)

/-- What is read there follows from what stands in the folder. -/
theorem read_direct {disk : Disk} {file : FileName} (h : file.Direct)
    (hlink : ∀ target, disk.place.find? file ≠ some (.link target)) :
    disk.read file =
      if Path.maxLength < (Path.join ownName file).length then .error .nameTooLong
      else match disk.place with
        | .absent => .error .notFound
        | .blocked _ => .error .notDirectory
        | .folder f =>
          if FileName.maxLength < file.length then .error .nameTooLong
          else match f.get? file with
            | some (.file contents) => .ok contents
            | some (.folder _) => .error .isDirectory
            | _ => .error .notFound := by
  rw [read, contentsAt, locate_direct h hlink]
  cases disk.place with
  | absent => rfl
  | blocked contents => rfl
  | folder f =>
    dsimp only
    by_cases hlong : FileName.maxLength < file.length
    · rw [if_pos hlong, if_pos hlong]
      rfl
    · rw [if_neg hlong, if_neg hlong]
      cases f.get? file with
      | none => rfl
      | some node => cases node <;> rfl

end Disk

/-! ## The files of a snapshot -/

namespace Archive

/-- A file that belongs to a snapshot: its own, or a hidden one of the process. -/
def Owns (archive : Archive) (name : SnapshotName) (file : FileName) : Prop :=
  file = name.fileName ∨ ∃ count, file = Saving.hiddenName name archive.process count

/-- A snapshot's files are in the folder and nowhere else. -/
structure Encloses (archive : Archive) (name : SnapshotName) : Prop where
  nonempty : name.text ≠ ""
  letters : ∀ c ∈ name.text.toList, SnapshotName.Allowed c
  -- The path of the snapshot is that of the folder, with a separator if it has none at its end,
  -- the name and the ending.
  path : archive.pathFor name.text =
    if archive.path.toList.getLast?.all (· = '/') then archive.path ++ (name.text ++ ".preset")
    else archive.path ++ "/" ++ (name.text ++ ".preset")
  -- It has one component more than the path of the folder.
  component : (archive.pathFor name.text).toList.splitOn '/' =
    components archive.path ++ [(name.text ++ ".preset").toList]
  direct : ∀ file, archive.Owns name file → file.Direct
  -- If a look-up leads anywhere it leads to the entry of the folder.
  leads : ∀ file, archive.Owns name file →
    (∀ target, archive.place.find? file ≠ some (.link target)) →
    ∀ found node, archive.locate [Disk.ownName, file] = .ok (found, node) →
      found = archive.placePath ++ [file] ∧ node = archive.place.find? file
  -- A hidden file is neither a snapshot nor listed as one.
  hidden : ∀ count, listedName? (Saving.hiddenName name archive.process count) = none ∧
    ∀ other : SnapshotName, Saving.hiddenName name archive.process count ≠ other.fileName

theorem direct_of_owns {archive : Archive} {name : SnapshotName} {file : FileName}
    (h : archive.Owns name file) : file.Direct := by
  rcases h with rfl | ⟨count, rfl⟩
  · exact name.direct_fileName
  · exact Saving.direct_hiddenName name archive.process count

theorem encloses (archive : Archive) (name : SnapshotName) : archive.Encloses name where
  nonempty := name.nonempty
  letters _ hc := SnapshotName.allowed_of_mem_text hc
  path := archive.pathFor_text name
  component := archive.splitOn_pathFor name
  direct _ hfile := direct_of_owns hfile
  leads := by
    intro file hfile hlink found node hlocate
    rw [Disk.locate_direct (direct_of_owns hfile) hlink] at hlocate
    cases hplace : archive.place with
    | absent =>
      rw [hplace] at hlocate
      cases hlocate
    | blocked contents =>
      rw [hplace] at hlocate
      cases hlocate
    | folder f =>
      simp only [hplace] at hlocate
      split at hlocate
      · cases hlocate
      · cases hlocate
        exact ⟨rfl, rfl⟩
  hidden count :=
    ⟨listedName?_hiddenName name archive.process count,
      fun other => Saving.hiddenName_ne_fileName name archive.process count other⟩

end Archive

end ShowRelay
