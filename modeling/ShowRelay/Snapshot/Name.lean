/-
  ShowRelay.Snapshot.Name

  The names of snapshots. A name that an operator gives is reduced to its ASCII
  letters, digits, dots and spaces, and refused when none of them is left. A
  reduced name therefore holds no path separator, and with the ending that every
  snapshot file has it is neither `.` nor `..`: it stays in its folder.
-/

import ShowRelay.Disk.Folder
import ShowRelay.SystemFault
import ShowRelay.Text.Quoted

namespace ShowRelay

/-- Why a snapshot could not be written, read or listed. -/
inductive SnapshotError where
  -- Nothing of the name may stand in a file name.
  | invalidName (name : String)
  | persistence (name : String) (fault : SystemFault)
  | notFound (name : String)
  deriving Repr, DecidableEq

/-- The wording of an error. -/
def SnapshotError.message : SnapshotError → String
  | invalidName name => "snapshot name " ++ Text.quoted name ++ " is empty after sanitization"
  | persistence name fault => "snapshot " ++ Text.quoted name ++ ": " ++ fault.message
  | notFound name => "snapshot " ++ Text.quoted name ++ " not found"

/-- Whether a character may stay in the name of a snapshot. -/
def SnapshotName.keeps (c : Char) : Bool := c.isAlphanum || c == '.' || c == ' '

/-- The name of a snapshot: a text of the characters that a name may keep. -/
structure SnapshotName where
  text : String
  nonempty : text ≠ ""
  kept : ∀ c ∈ text.toList, SnapshotName.keeps c
  deriving DecidableEq

namespace SnapshotName

/-- The ending of every snapshot file. -/
def ending : String := ".preset"

/-- What is left of a name that an operator gave. -/
def sanitize (name : String) : Except SnapshotError SnapshotName :=
  let text := String.ofList (name.toList.filter keeps)
  if h : text = "" then .error (.invalidName name)
  else .ok ⟨text, h, fun c hc => by
    rw [String.toList_ofList] at hc
    exact (List.mem_filter.1 hc).2⟩

/-- The text of the file name of a snapshot. -/
def fileText (name : SnapshotName) : String := name.text ++ ending

/-- The file name of a snapshot. -/
def fileName (name : SnapshotName) : FileName := Utf8.encode name.fileText

theorem sanitize_eq_ok_iff {raw : String} {name : SnapshotName} :
    sanitize raw = .ok name ↔ String.ofList (raw.toList.filter keeps) = name.text := by
  obtain ⟨text, nonempty, kept⟩ := name
  simp only [sanitize]
  constructor
  · intro h
    split at h
    · cases h
    · injection h with h
      injection h
  · rintro rfl
    rw [dif_neg nonempty]

/-- A reduced name is its own reduction. -/
theorem sanitize_text (name : SnapshotName) : sanitize name.text = .ok name := by
  rw [sanitize_eq_ok_iff, List.filter_eq_self.2 name.kept, String.ofList_toList]

end SnapshotName

end ShowRelay
