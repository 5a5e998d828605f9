/-
  ShowRelay.Proofs.Snapshot.Links

  Where the symbolic links of the snapshot folder lead, and what becomes of the
  disk when a file is put there. A look-up goes from folder to folder, so that
  what it finds stands in a folder (`Disk.exists_parent_of_walk`), and one that
  asks for a folder finds nothing else (`Disk.exists_folder_of_asks`). All that it
  depends on besides is what stands at the entries that it comes by
  (`Disk.visits`). A file at the end of it changes nothing there, and the same
  look-up finds it (`Disk.walk_of_follows`).

  Putting a file somewhere takes the tree apart at the snapshot folder and puts
  it together again. The folders above come out with the same things in them, if
  not as the same lists; trees are therefore compared path by path and without
  what is in their folders (`Node.bare`).
-/

import ShowRelay.Proofs.Snapshot.Elsewhere

namespace ShowRelay

/-! ## Folders on the way -/

namespace Node

/-- A node without what is in it. -/
def bare : Node → Node
  | folder _ => folder []
  | node => node

theorem eq_file_of_bare {node : Option Node} {contents : Bytes}
    (h : node.map bare = some (file contents)) : node = some (file contents) := by
  obtain ⟨inner, rfl, hinner⟩ := Option.map_eq_some_iff.1 h
  cases inner with
  | file old => exact congrArg some hinner
  | folder entries => cases hinner
  | link target => cases hinner

theorem eq_link_of_bare {node : Option Node} {target : Bytes}
    (h : node.map bare = some (link target)) : node = some (link target) := by
  obtain ⟨inner, rfl, hinner⟩ := Option.map_eq_some_iff.1 h
  cases inner with
  | file contents => cases hinner
  | folder entries => cases hinner
  | link old => exact congrArg some hinner

theorem exists_folder_of_bare {node : Option Node} (h : node.map bare = some (folder [])) :
    ∃ entries, node = some (folder entries) := by
  obtain ⟨inner, rfl, hinner⟩ := Option.map_eq_some_iff.1 h
  cases inner with
  | file contents => cases hinner
  | folder entries => exact ⟨entries, rfl⟩
  | link target => cases hinner

/-- Above whatever there is there are folders. -/
theorem exists_folder_above {node inner : Node} {path : List FileName} {name : FileName}
    {more : List FileName} (h : node.at? (path ++ name :: more) = some inner) :
    ∃ entries, node.at? path = some (folder entries) := by
  rw [at?_append, Option.bind_eq_some_iff] at h
  obtain ⟨middle, hmiddle, hinner⟩ := h
  cases middle with
  | file contents => cases hinner
  | folder entries => exact ⟨entries, hmiddle⟩
  | link target => cases hinner

theorem exists_folder_of_below {node : Node} {path other : List FileName}
    {entries : List (FileName × Node)} (hfolder : node.at? other = some (folder entries))
    (hbegins : path <+: other) : ∃ entries, node.at? path = some (folder entries) := by
  obtain ⟨rest, rfl⟩ := hbegins
  cases rest with
  | nil =>
    rw [List.append_nil] at hfolder
    exact ⟨entries, hfolder⟩
  | cons name more => exact exists_folder_above hfolder

/-- Where something is put there are folders above. -/
theorem exists_folder_above_put (node : Node) (path : List FileName) (name : FileName)
    (more : List FileName) (new : Node) :
    ∃ entries, (node.put (path ++ name :: more) new).at? path = some (folder entries) :=
  exists_folder_above (at?_put node (path ++ name :: more) new)

/-- Nothing is below what is no folder. -/
theorem not_prefix_of_ne_folder {node inner : Node} {path other : List FileName}
    (hfree : ∀ entries, node.at? path ≠ some (folder entries))
    (hother : node.at? other = some inner) (hne : other ≠ path) : ¬ path <+: other := by
  rintro ⟨rest, rfl⟩
  cases rest with
  | nil => exact hne (List.append_nil path)
  | cons name more =>
    obtain ⟨entries, hfolder⟩ := exists_folder_above hother
    exact hfree entries hfolder

/-- There is nothing to be found below what is no folder. -/
theorem at?_below_of_ne_folder {node : Node} {path other : List FileName}
    (hfree : ∀ entries, node.at? path ≠ some (folder entries)) (hbelow : path <+: other)
    (hne : other ≠ path) : node.at? other = none := by
  cases hother : node.at? other with
  | none => rfl
  | some inner => exact absurd hbelow (not_prefix_of_ne_folder hfree hother hne)

end Node

/-! ## Look-ups that find no folder -/

namespace Disk

variable {root : Node} {links : Nat} {here names found : List FileName} {node : Option Node}

/-- The folder from which the target of a link in the folder `here` is looked up. -/
def linkBase (here : List FileName) (target : Bytes) : List FileName :=
  if Path.isFromRoot (target.splitOn Path.separator) then [] else here

theorem exists_folder_linkBase (hhere : ∃ entries, root.at? here = some (.folder entries))
    (target : Bytes) : ∃ entries, root.at? (linkBase here target) = some (.folder entries) := by
  rw [linkBase]
  split
  · obtain ⟨entries, hfolder⟩ := hhere
    exact Node.exists_folder_of_below hfolder List.nil_prefix
  · exact hhere

/-- A look-up that begins in a folder and finds none has found a file, or the place for one, in
    a folder. -/
theorem exists_parent_of_walk (hhere : ∃ entries, root.at? here = some (.folder entries))
    (h : walk root links here names = .ok (found, node))
    (hfree : ∀ entries, node ≠ some (.folder entries)) :
    (∀ target, node ≠ some (.link target)) ∧ ∃ above name entries, found = above ++ [name] ∧
      root.at? above = some (.folder entries) := by
  have hup : ∀ {path : List FileName}, (∃ entries, root.at? path = some (.folder entries)) →
      ∃ entries, root.at? path.dropLast = some (.folder entries) := fun ⟨_, hpath⟩ =>
    Node.exists_folder_of_below hpath (List.dropLast_prefix _)
  fun_induction walk root links here names with
  | case1 links here =>
    obtain ⟨entries, hfolder⟩ := hhere
    cases h
    exact absurd hfolder (hfree entries)
  | case2 links here name rest hstays ih => exact ih hhere h
  | case3 links here rest hstays ih => exact ih (hup hhere) h
  | case4 => cases h
  | case5 links here name hstays hparent hlength hnone =>
    obtain ⟨entries, hfolder⟩ := hhere
    cases h
    exact ⟨fun _ heq => (by cases heq), here, name, entries, rfl, hfolder⟩
  | case6 => cases h
  | case7 links here name hstays hparent hlength contents hentry =>
    obtain ⟨entries, hfolder⟩ := hhere
    cases h
    exact ⟨fun _ heq => (by cases heq), here, name, entries, rfl, hfolder⟩
  | case8 => cases h
  | case9 links here name rest hstays hparent hlength entries hentry ih =>
    exact ih ⟨entries, hentry⟩ h
  | case10 => cases h
  | case11 here name rest hstays hparent hlength target hentry links names ih =>
    exact ih (exists_folder_linkBase hhere target) h

/-- A look-up of names of which the last is empty finds a folder, if anything. -/
theorem exists_folder_of_last (hhere : ∃ entries, root.at? here = some (.folder entries))
    (hlast : names.getLast? = some []) (h : walk root links here names = .ok (found, node)) :
    ∃ entries, node = some (.folder entries) := by
  -- The name that a look-up is at is the last one only if it is empty.
  have hrest : ∀ {name : FileName} {rest : List FileName}, ¬ (name = [] ∨ name = Path.itself) →
      (name :: rest).getLast? = some [] → rest ≠ [] ∧ rest.getLast? = some [] := by
    intro name rest hstays hlast
    cases rest with
    | nil => exact absurd (.inl (Option.some.inj hlast)) hstays
    | cons next more =>
      rw [List.getLast?_cons_cons] at hlast
      exact ⟨List.cons_ne_nil next more, hlast⟩
  fun_induction walk root links here names with
  | case1 => cases hlast
  | case2 links here name rest hstays ih =>
    cases rest with
    | nil =>
      obtain ⟨entries, hfolder⟩ := hhere
      rw [walk] at h
      cases h
      exact ⟨entries, hfolder⟩
    | cons next more => exact ih hhere (List.getLast?_cons_cons ▸ hlast) h
  | case3 links here rest hstays ih =>
    obtain ⟨entries, hfolder⟩ := hhere
    exact ih (Node.exists_folder_of_below hfolder (List.dropLast_prefix here))
      (hrest hstays hlast).2 h
  | case4 => cases h
  | case5 links here name hstays => exact absurd rfl (hrest hstays hlast).1
  | case6 => cases h
  | case7 links here name hstays => exact absurd rfl (hrest hstays hlast).1
  | case8 => cases h
  | case9 links here name rest hstays hparent hlength entries hentry ih =>
    exact ih ⟨entries, hentry⟩ (hrest hstays hlast).2 h
  | case10 => cases h
  | case11 here name rest hstays hparent hlength target hentry links names ih =>
    refine ih (exists_folder_linkBase hhere target) ?_ h
    rw [List.getLast?_append, (hrest hstays hlast).2, Option.some_or]

/-- So does a look-up that asks for a folder. -/
theorem exists_folder_of_asks (hhere : ∃ entries, root.at? here = some (.folder entries))
    (hasks : asksFolder root links here names = true)
    (h : walk root links here names = .ok (found, node)) :
    ∃ entries, node = some (.folder entries) := by
  fun_induction asksFolder root links here names with
  | case1 => cases hasks
  | case2 links here name rest hstays ih =>
    rw [walk, if_pos hstays] at h
    exact ih hhere hasks h
  | case3 links here rest hstays ih =>
    obtain ⟨entries, hfolder⟩ := hhere
    rw [walk, if_neg hstays, if_pos rfl] at h
    exact ih (Node.exists_folder_of_below hfolder (List.dropLast_prefix here)) hasks h
  | case4 links here name rest hstays hparent hempty =>
    obtain ⟨hrest, hall⟩ := hempty
    refine exists_folder_of_last hhere ?_ h
    rw [List.getLast?_cons, List.getLast?_eq_some_getLast hrest,
      hall _ (List.getLast_mem hrest)]
    rfl
  | case5 => cases hasks
  | case6 links here name rest hstays hparent hempty hlength entries hentry ih =>
    rw [walk, if_neg hstays, if_neg hparent, if_neg hlength, hentry] at h
    exact ih ⟨entries, hentry⟩ hasks h
  | case7 => cases hasks
  | case8 here name rest hstays hparent hempty hlength target hentry links names ih =>
    rw [walk, if_neg hstays, if_neg hparent, if_neg hlength, hentry] at h
    exact ih (exists_folder_linkBase hhere target) hasks h
  | case9 => cases hasks

/-- The entries that a look-up comes by, each at its path without links and detours. -/
def visits (root : Node) (links : Nat) (here : List FileName) :
    (names : List FileName) → List (List FileName)
  | [] => []
  | name :: rest =>
    if name = [] ∨ name = Path.itself then visits root links here rest
    else if name = Path.parent then visits root links here.dropLast rest
    else if FileName.maxLength < name.length then []
    else
      match root.at? (here ++ [name]) with
      | some (.folder _) => (here ++ [name]) :: visits root links (here ++ [name]) rest
      | some (.link target) =>
        match links with
        | 0 => [here ++ [name]]
        | links + 1 =>
          let names := target.splitOn Path.separator
          (here ++ [name]) ::
            visits root links (if Path.isFromRoot names then [] else here) (names ++ rest)
      | _ => [here ++ [name]]
termination_by names => (links, names.length)

/-- A look-up that goes on at a path of one tree goes on there in another. -/
def Follows (root root' : Node) (path : List FileName) : Prop :=
  (∀ entries, root.at? path = some (.folder entries) →
    ∃ entries', root'.at? path = some (.folder entries')) ∧
  ∀ target, root.at? path = some (.link target) → root'.at? path = some (.link target)

theorem follows_of_bare {root' : Node} {path : List FileName}
    (h : (root'.at? path).map Node.bare = (root.at? path).map Node.bare) :
    Follows root root' path := by
  refine ⟨fun entries hfolder => ?_, fun target hlink => ?_⟩
  · rw [hfolder] at h
    exact Node.exists_folder_of_bare h
  · rw [hlink] at h
    exact Node.eq_link_of_bare h

theorem follows_refl (root : Node) (path : List FileName) : Follows root root path :=
  follows_of_bare rfl

/-- The look-up finds a file that is put where it leads, if nothing has changed about the folders
    and links that it comes by. -/
theorem walk_of_follows {root' : Node} {contents : Bytes}
    (hsame : ∀ path ∈ visits root links here names, Follows root root' path)
    (hfile : root'.at? found = some (.file contents))
    (h : walk root links here names = .ok (found, node)) :
    walk root' links here names = .ok (found, some (.file contents)) := by
  fun_induction walk root links here names with
  | case1 links here =>
    cases h
    rw [walk, hfile]
  | case2 links here name rest hstays ih =>
    rw [visits, if_pos hstays] at hsame
    rw [walk, if_pos hstays]
    exact ih hsame h
  | case3 links here rest hstays ih =>
    rw [visits, if_neg hstays, if_pos rfl] at hsame
    rw [walk, if_neg hstays, if_pos rfl]
    exact ih hsame h
  | case4 => cases h
  | case5 links here name hstays hparent hlength hnone =>
    cases h
    simp only [walk, if_neg hstays, if_neg hparent, if_neg hlength, hfile, if_true]
  | case6 => cases h
  | case7 links here name hstays hparent hlength old hentry =>
    cases h
    simp only [walk, if_neg hstays, if_neg hparent, if_neg hlength, hfile, if_true]
  | case8 => cases h
  | case9 links here name rest hstays hparent hlength entries hentry ih =>
    simp only [visits, if_neg hstays, if_neg hparent, if_neg hlength, hentry,
      List.forall_mem_cons] at hsame
    obtain ⟨entries', hentry'⟩ := hsame.1.1 entries hentry
    simp only [walk, if_neg hstays, if_neg hparent, if_neg hlength, hentry']
    exact ih hsame.2 h
  | case10 => cases h
  | case11 here name rest hstays hparent hlength target hentry links names ih =>
    simp only [visits, if_neg hstays, if_neg hparent, if_neg hlength, hentry,
      List.forall_mem_cons] at hsame
    rw [walk, if_neg hstays, if_neg hparent, if_neg hlength, hsame.1.2 target hentry]
    exact ih hsame.2 h

/-! ## Files that are put somewhere -/

variable {disk : Disk} {f : Folder} {path : List FileName} {contents : Bytes}

theorem at?_tree_of_folder (hplace : disk.place = .folder f) :
    disk.tree.at? disk.placePath = some (.folder f.entries) := by
  rw [at?_tree, hplace]
  rfl

theorem at?_tree_entry (disk : Disk) (name : FileName) :
    disk.tree.at? (disk.placePath ++ [name]) = disk.place.find? name := by
  rw [at?_tree_below]
  cases disk.place.find? name with
  | none => rfl
  | some node => rfl

/-- The tree that a disk is given is its tree, but for how the folders above are written. -/
theorem at?_tree_withTree {tree : Node} {entries : List (FileName × Node)}
    (htree : tree.at? disk.placePath = some (.folder entries)) (path : List FileName) :
    ((disk.withTree tree).tree.at? path).map Node.bare = (tree.at? path).map Node.bare ∧
      (¬ path <+: disk.placePath → (disk.withTree tree).tree.at? path = tree.at? path) := by
  have hplace : (disk.withTree tree).place = .folder (.ofEntries entries) := by
    rw [withTree, htree]
    rfl
  have hown : (disk.withTree tree).tree.at? disk.placePath = _ := at?_tree_of_folder hplace
  by_cases habove : path <+: disk.placePath
  · obtain ⟨es, hes⟩ := Node.exists_folder_of_below hown habove
    obtain ⟨es', hes'⟩ := Node.exists_folder_of_below htree habove
    rw [hes, hes']
    exact ⟨rfl, fun hnot => absurd habove hnot⟩
  · have hsame : (disk.withTree tree).tree.at? path = tree.at? path := by
      by_cases hbelow : disk.placePath <+: path
      · obtain ⟨rest, rfl⟩ := hbelow
        cases rest with
        | nil => exact absurd (List.append_nil _ ▸ List.prefix_refl _) habove
        | cons file more =>
          have hat := at?_tree_below (disk.withTree tree) file more
          rw [hplace] at hat
          rw [Node.at?_append tree, htree]
          refine hat.trans ?_
          show ((Table.ofEntries entries).get? file).bind _ = _
          rw [Table.get?_ofEntries]
          rfl
      · have hapart := at?_tree_apart (disk.withTree tree) hbelow habove
        exact hapart.trans (Node.at?_erase_of_apart tree hbelow habove)
    exact ⟨congrArg (Option.map Node.bare) hsame, fun _ => hsame⟩

/-- What a disk has when a file was put into a folder of it. -/
structure Gains (before after : Disk) (path : List FileName) (contents : Bytes) : Prop where
  working : after.working = before.working
  folder : ∃ g, after.place = .folder g
  file : after.tree.at? path = some (.file contents)
  elsewhere : ∀ other, ¬ path <+: other →
    (after.tree.at? other).map Node.bare = (before.tree.at? other).map Node.bare

/-- If what was there was no folder and no link, then all folders and links are as they were. -/
theorem Gains.follows {before after : Disk} (h : Gains before after path contents)
    (hfolder : ∀ entries, before.tree.at? path ≠ some (.folder entries))
    (hlink : ∀ target, before.tree.at? path ≠ some (.link target)) (other : List FileName) :
    Follows before.tree after.tree other := by
  by_cases hbelow : path <+: other
  · by_cases heq : other = path
    · rw [heq]
      exact ⟨fun entries hat => absurd hat (hfolder entries),
        fun target hat => absurd hat (hlink target)⟩
    · have hnone := Node.at?_below_of_ne_folder hfolder hbelow heq
      refine ⟨fun entries hat => ?_, fun target hat => ?_⟩
      · cases hnone.symm.trans hat
      · cases hnone.symm.trans hat
  · exact follows_of_bare (h.elsewhere other hbelow)

theorem gains_of_put (hplace : disk.place = .folder f)
    (hfree : ∀ entries, disk.tree.at? path ≠ some (.folder entries))
    (hparent : ∃ above name entries, path = above ++ [name] ∧
      disk.tree.at? above = some (.folder entries)) (contents : Bytes) :
    Gains disk (disk.put (.file contents) path) path contents := by
  have hown := at?_tree_of_folder hplace
  obtain ⟨above, name, es, hpath, habove⟩ := hparent
  -- In the tree with the file only the folders on the way to it are other nodes.
  have hput : ∀ other, ¬ path <+: other →
      ((disk.tree.put path (.file contents)).at? other).map Node.bare =
        (disk.tree.at? other).map Node.bare := by
    intro other hbelow
    by_cases hway : other <+: path
    · obtain ⟨rest, hrest⟩ := hway
      cases rest with
      | nil =>
        rw [List.append_nil] at hrest
        exact absurd (hrest ▸ List.prefix_refl path) hbelow
      | cons next more =>
        obtain ⟨es', hes'⟩ :=
          Node.exists_folder_above_put disk.tree other next more (.file contents)
        have hbefore : other <+: above := by
          have hbegins : other <+: above ++ [name] := ⟨next :: more, hrest.trans hpath⟩
          rcases List.prefix_concat_iff.1 hbegins with heq | hshort
          · have hlength := congrArg List.length hrest
            rw [heq, ← hpath, List.length_append, List.length_cons] at hlength
            omega
          · exact hshort
        obtain ⟨es'', hes''⟩ := Node.exists_folder_of_below habove hbefore
        rw [hrest] at hes'
        rw [hes', hes'']
        rfl
    · rw [Node.at?_put_of_apart disk.tree _ hbelow hway]
  have hnot : ¬ path <+: disk.placePath := by
    intro hbegins
    obtain ⟨es', hes'⟩ := Node.exists_folder_of_below hown hbegins
    exact hfree es' hes'
  have hkept := hput disk.placePath hnot
  rw [hown] at hkept
  obtain ⟨es', hes'⟩ := Node.exists_folder_of_bare hkept
  refine ⟨rfl, ⟨.ofEntries es', by rw [put, withTree, hes']; rfl⟩, ?_, fun other hother => ?_⟩
  · rw [put]
    refine Node.eq_file_of_bare ?_
    rw [(at?_tree_withTree hes' path).1, Node.at?_put]
    rfl
  · exact (at?_tree_withTree hes' other).1.trans (hput other hother)

end Disk

/-! ## Where links lead -/

namespace Disk

/-- Where a symbolic link of the snapshot folder leads, if that is a file or the place for
    one. -/
def Diverts (disk : Disk) (name : FileName) (path : List FileName) : Prop :=
  ∃ target node, disk.place.find? name = some (.link target) ∧
    disk.locate [ownName, name] = .ok (path, node) ∧ ∀ entries, node ≠ some (.folder entries)

variable {disk : Disk} {name : FileName} {path : List FileName}

/-- The look-up begins in the snapshot folder. -/
theorem Diverts.walk (h : disk.Diverts name path) :
    ∃ f target node, disk.place = .folder f ∧ disk.place.find? name = some (.link target) ∧
      Disk.walk disk.tree maxLinks disk.placePath [name] = .ok (path, node) ∧
      ∀ entries, node ≠ some (.folder entries) := by
  obtain ⟨target, node, hentry, hlocate, hfree⟩ := h
  obtain ⟨f, hplace⟩ := exists_folder_of_locate hlocate
  rw [locate_own, hplace] at hlocate
  exact ⟨f, target, node, hplace, hentry, hlocate, hfree⟩

/-- Where it leads no folder is asked for. -/
theorem Diverts.asksFolder_eq_false (h : disk.Diverts name path) :
    asksFolder disk.tree maxLinks disk.placePath [name] = false := by
  obtain ⟨f, -, node, hplace, -, hwalk, hfree⟩ := h.walk
  refine Bool.eq_false_iff.2 fun hasks => ?_
  obtain ⟨entries, hfolder⟩ :=
    exists_folder_of_asks ⟨f.entries, at?_tree_of_folder hplace⟩ hasks hwalk
  exact hfree entries hfolder

/-- What it leads to is no folder and no link. -/
theorem Diverts.at?_path (h : disk.Diverts name path) :
    (∀ entries, disk.tree.at? path ≠ some (.folder entries)) ∧
      ∀ target, disk.tree.at? path ≠ some (.link target) := by
  obtain ⟨f, -, node, hplace, -, hwalk, hfree⟩ := h.walk
  have hparent := exists_parent_of_walk ⟨f.entries, at?_tree_of_folder hplace⟩ hwalk hfree
  rw [at?_of_walk hwalk]
  exact ⟨hfree, hparent.1⟩

theorem Diverts.gains (h : disk.Diverts name path) (contents : Bytes) :
    Gains disk (disk.put (.file contents) path) path contents := by
  obtain ⟨f, target, node, hplace, -, hwalk, hfree⟩ := h.walk
  have hparent := exists_parent_of_walk ⟨f.entries, at?_tree_of_folder hplace⟩ hwalk hfree
  exact gains_of_put hplace h.at?_path.1 hparent.2 contents

/-- A symbolic link of the snapshot folder leads to a file of some contents. -/
structure Leads (disk : Disk) (name : FileName) (target : Bytes) (path : List FileName)
    (contents : Bytes) : Prop where
  link : disk.place.find? name = some (.link target)
  file : disk.locate [ownName, name] = .ok (path, some (.file contents))

theorem Leads.diverts {target contents : Bytes} (h : disk.Leads name target path contents) :
    disk.Diverts name path :=
  ⟨target, _, h.link, h.file, fun _ heq => by cases heq⟩

/-- The link leads to the file that was put where it led. -/
theorem Diverts.put (h : disk.Diverts name path) {target : Bytes}
    (hentry : disk.place.find? name = some (.link target)) (contents : Bytes) :
    (disk.put (.file contents) path).Leads name target path contents := by
  have hgains := h.gains contents
  have hfollows := hgains.follows h.at?_path.1 h.at?_path.2
  obtain ⟨f, -, node, hplace, -, hwalk, hfree⟩ := h.walk
  obtain ⟨g, hplace'⟩ := hgains.folder
  refine ⟨?_, ?_⟩
  · rw [← at?_tree_entry]
    exact (hfollows _).2 target ((at?_tree_entry disk name).trans hentry)
  · rw [locate_own, hplace']
    exact walk_of_follows (fun other _ => hfollows other) hgains.file hwalk

/-- A link leads to one place only. -/
theorem Diverts.eq {other : List FileName} (h : disk.Diverts name path)
    (hother : disk.Diverts name other) : other = path := by
  obtain ⟨-, node, -, hlocate, -⟩ := h
  obtain ⟨-, node', -, hlocate', -⟩ := hother
  rw [hlocate] at hlocate'
  cases hlocate'
  rfl

/-- That is the place of the file that was put there. -/
theorem Diverts.eq_of_put (h : disk.Diverts name path) {contents : Bytes} {other : List FileName}
    (hother : (disk.put (.file contents) path).Diverts name other) : other = path := by
  obtain ⟨-, target, -, -, hentry, -⟩ := h.walk
  exact (h.put hentry contents).diverts.eq hother

end Disk

end ShowRelay
