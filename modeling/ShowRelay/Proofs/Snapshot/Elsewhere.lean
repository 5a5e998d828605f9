/-
  ShowRelay.Proofs.Snapshot.Elsewhere

  What changes in the snapshot folder leave as it was. The folder has its place in
  the tree of the disk, and a change of an entry is a change at the end of a path.
  From the end of another path it is not seen, unless one path is the beginning of
  the other. Whatever path does not lead through the entry, and is not the way to
  it, therefore has at its end what it had (`Disk.at?_tree_congr`).

  This takes in what the symbolic links of the folder lead to, since a look-up
  finds what stands at the end of a path without links (`Disk.at?_of_walk`).
-/

import ShowRelay.Proofs.Snapshot.Entries

namespace ShowRelay

/-! ## Changes at the end of a path, seen from elsewhere -/

namespace Node

theorem at?_folder_nil {path : List FileName} (h : path ≠ []) : (folder []).at? path = none := by
  cases path with
  | nil => exact absurd rfl h
  | cons name path => rfl

/-- What is put at the end of one path is not seen at the end of another. -/
theorem at?_put_of_apart (node : Node) {path other : List FileName} (new : Node)
    (h : ¬ path <+: other) (h' : ¬ other <+: path) :
    (node.put path new).at? other = node.at? other := by
  induction path generalizing node other with
  | nil => exact absurd List.nil_prefix h
  | cons name path ih =>
    cases other with
    | nil => exact absurd List.nil_prefix h'
    | cons first rest =>
      have hput : (node.put (name :: path) new).at? (first :: rest) =
          (Entries.get? first (Entries.insert name
            (((Entries.get? name node.entries).getD (folder [])).put path new) node.entries)).bind
              fun inner => inner.at? rest := rfl
      have hnode : node.at? (first :: rest) =
          (Entries.get? first node.entries).bind fun inner => inner.at? rest := rfl
      rw [hput, hnode, Entries.get?_insert]
      by_cases heq : first = name
      · subst heq
        rw [List.cons_prefix_cons, not_and] at h h'
        rw [if_pos rfl, Option.bind_some, ih _ (h rfl) (h' rfl)]
        cases Entries.get? first node.entries with
        | none =>
          refine at?_folder_nil ?_
          rintro rfl
          exact h' rfl List.nil_prefix
        | some inner => rfl
      · rw [if_neg heq]

/-- Nor is it seen elsewhere when what stands at the end of a path is taken away. -/
theorem at?_erase_of_apart (node : Node) {path other : List FileName}
    (h : ¬ path <+: other) (h' : ¬ other <+: path) :
    (node.erase path).at? other = node.at? other := by
  induction path generalizing node other with
  | nil => exact absurd List.nil_prefix h
  | cons name path ih =>
    cases other with
    | nil => exact absurd List.nil_prefix h'
    | cons first rest =>
      cases node with
      | file contents => rfl
      | link target => rfl
      | folder es =>
        cases path with
        | nil =>
          have hne : first ≠ name := by
            rintro rfl
            exact h (List.cons_prefix_cons.2 ⟨rfl, List.nil_prefix⟩)
          simp only [erase, at?, entries, Entries.get?_erase, if_neg hne]
        | cons next path =>
          cases hinner : Entries.get? name es with
          | none => simp only [erase, entries, hinner]
          | some inner =>
            have herase : (folder es).erase (name :: next :: path) =
                folder (Entries.insert name (inner.erase (next :: path)) es) := by
              simp only [erase, entries, hinner]
            have hat : ∀ es, (folder es).at? (first :: rest) =
                (Entries.get? first es).bind fun inner => inner.at? rest := fun _ => rfl
            rw [herase, hat, hat, Entries.get?_insert]
            by_cases heq : first = name
            · subst heq
              rw [List.cons_prefix_cons, not_and] at h h'
              rw [if_pos rfl, hinner, Option.bind_some, Option.bind_some,
                ih inner (h rfl) (h' rfl)]
            · rw [if_neg heq]

end Node

/-! ## Paths on a disk -/

namespace Disk

/-- Below the snapshot folder the tree is as the entries of the folder are. -/
theorem at?_tree_below (disk : Disk) (file : FileName) (more : List FileName) :
    disk.tree.at? (disk.placePath ++ file :: more) =
      (disk.place.find? file).bind fun node => node.at? more := by
  rw [Node.at?_append, at?_tree]
  cases disk.place with
  | absent => rfl
  | blocked contents => rfl
  | folder f => rfl

/-- Apart from the snapshot folder the tree is as the root folder is. -/
theorem at?_tree_apart (disk : Disk) {path : List FileName} (h : ¬ disk.placePath <+: path)
    (h' : ¬ path <+: disk.placePath) : disk.tree.at? path = disk.root.at? path := by
  unfold tree
  split
  · exact Node.at?_put_of_apart disk.root _ h h'
  · exact Node.at?_erase_of_apart disk.root h h'

/-- A path that does not lead to the snapshot folder leads on two disks to the same, if these
    differ only in the folder and not at this path. -/
theorem at?_tree_congr {before after : Disk} (hroot : after.root = before.root)
    (hworking : after.working = before.working) {path : List FileName}
    (hpath : ¬ path <+: before.placePath)
    (hentry : ∀ file more, path = before.placePath ++ file :: more →
      ((after.place.find? file).bind fun node => node.at? more) =
        (before.place.find? file).bind fun node => node.at? more) :
    after.tree.at? path = before.tree.at? path := by
  have hplace : after.placePath = before.placePath := by rw [placePath, placePath, hworking]
  by_cases hbelow : before.placePath <+: path
  · obtain ⟨rest, rfl⟩ := hbelow
    cases rest with
    | nil =>
      rw [List.append_nil] at hpath
      exact absurd (List.prefix_refl before.placePath) hpath
    | cons file more =>
      rw [at?_tree_below, ← hentry file more rfl, ← hplace, at?_tree_below]
  · rw [at?_tree_apart before hbelow hpath, ← hroot]
    rw [← hplace] at hbelow hpath
    exact at?_tree_apart after hbelow hpath

/-- A look-up finds what stands at the end of the path to which it leads. -/
theorem at?_of_walk {root : Node} {links : Nat} {here names found : List FileName}
    {node : Option Node} (h : walk root links here names = .ok (found, node)) :
    root.at? found = node := by
  fun_induction walk root links here names with
  | case1 links here =>
    cases h
    rfl
  | case2 links here name rest hstays ih => exact ih h
  | case3 links here rest hstays ih => exact ih h
  | case4 => cases h
  | case5 links here name hstays hup hlength hnone =>
    cases h
    exact hnone
  | case6 => cases h
  | case7 links here name hstays hup hlength contents hentry =>
    cases h
    exact hentry
  | case8 => cases h
  | case9 links here name rest hstays hup hlength entries hentry ih => exact ih h
  | case10 => cases h
  | case11 here name rest hstays hup hlength target hentry links names ih => exact ih h

/-- Nothing is found in the snapshot folder if there is no such folder. -/
theorem exists_folder_of_locate {disk : Disk} {name : FileName} {found : List FileName}
    {node : Option Node} (h : disk.locate [ownName, name] = .ok (found, node)) :
    ∃ f, disk.place = .folder f := by
  rw [locate_own] at h
  cases hplace : disk.place with
  | absent =>
    rw [hplace] at h
    cases h
  | blocked contents =>
    rw [hplace] at h
    cases h
  | folder f => exact ⟨f, rfl⟩

/-- No path leads on through a regular file. -/
theorem not_prefix_of_file {node : Node} {path found : List FileName} {bytes : Bytes}
    {entries : List (FileName × Node)} (hfile : node.at? found = some (.file bytes))
    (hfolder : node.at? path = some (.folder entries)) : ¬ found <+: path := by
  rintro ⟨rest, rfl⟩
  rw [Node.at?_append, hfile, Option.bind_some] at hfolder
  cases rest with
  | nil => cases hfolder
  | cons name rest => cases hfolder

end Disk

end ShowRelay
