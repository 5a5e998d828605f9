/-
  ShowRelay.Disk.Folder

  What can stand in a folder: files, folders and symbolic links under names that
  are bytes. The entries of the folder at hand are a table, so a listing is in
  the order of the bytes of the names.

  A path of names leads down through folders. What is put at the end of a path
  is found there (`Node.at?_put`), and after an erasure nothing is
  (`Node.at?_erase`).
-/

import ShowRelay.Table
import ShowRelay.Text.Utf8

namespace ShowRelay

/-- The name of an entry of a folder. -/
abbrev FileName := Bytes

/-- File names are ordered by their bytes. -/
instance FileName.isLinearOrder : Std.IsLinearOrder FileName :=
  inferInstanceAs (Std.IsLinearOrder (List UInt8))

/-- The strict order of file names belongs to their order. -/
instance FileName.lawfulOrderLT : Std.LawfulOrderLT FileName :=
  inferInstanceAs (Std.LawfulOrderLT (List UInt8))

/-- The most bytes that a file name can have. -/
def FileName.maxLength : Nat := 255

/-- What a name in a folder stands for. -/
inductive Node where
  | file (contents : Bytes)
  | folder (entries : List (FileName × Node))
  -- A symbolic link to the path `target`.
  | link (target : Bytes)

/-- The entries of one folder, ascending by name. -/
abbrev Folder := Table FileName Node

namespace Node

/-- The entries of a folder; other nodes have none. -/
def entries : Node → List (FileName × Node)
  | folder entries => entries
  | _ => []

/-- What stands at the end of a path of names that leads through folders only. -/
def at? (node : Node) : List FileName → Option Node
  | [] => some node
  | name :: path => (Entries.get? name node.entries).bind fun inner => inner.at? path

/-- The node with another one at the end of a path; missing folders on the way are
    made, and whatever else stands in their place is replaced. -/
def put (node : Node) (path : List FileName) (new : Node) : Node :=
  match path with
  | [] => new
  | name :: path =>
    let inner := (Entries.get? name node.entries).getD (folder [])
    folder (Entries.insert name (inner.put path new) node.entries)

/-- The node without what stands at the end of a path. -/
def erase (node : Node) : List FileName → Node
  | [] => node
  | name :: path =>
    match node, path, Entries.get? name node.entries with
    | folder entries, [], _ => folder (Entries.erase name entries)
    | folder entries, _ :: _, some inner => folder (Entries.insert name (inner.erase path) entries)
    | node, _, _ => node

/-! ## What is found afterwards -/

theorem at?_put (node : Node) (path : List FileName) (new : Node) :
    (node.put path new).at? path = some new := by
  induction path generalizing node with
  | nil => rfl
  | cons name path ih => simp [at?, put, entries, Entries.get?_insert, ih]

theorem at?_erase (node : Node) (path : List FileName) (h : path ≠ []) :
    (node.erase path).at? path = none := by
  induction path generalizing node with
  | nil => exact absurd rfl h
  | cons name path ih =>
    cases node with
    | file contents => rfl
    | link target => rfl
    | folder es =>
      cases path with
      | nil => simp [at?, erase, entries, Entries.get?_erase]
      | cons next path =>
        cases hn : Entries.get? name es with
        | none => simp [at?, erase, entries, hn]
        | some inner =>
          simpa [at?, erase, entries, hn, Entries.get?_insert] using ih inner (by simp)

theorem at?_append (node : Node) (path more : List FileName) :
    node.at? (path ++ more) = (node.at? path).bind fun inner => inner.at? more := by
  induction path generalizing node with
  | nil => rfl
  | cons name path ih =>
    simp only [List.cons_append, at?]
    cases Entries.get? name node.entries with
    | none => rfl
    | some inner => exact ih inner

end Node

end ShowRelay
