/-
  ShowRelay.Proofs.Snapshot.Returning

  Whether a snapshot that was saved can be loaded. It can, unless a symbolic link
  had the name of the hidden file and led to the snapshot, or came by it on its
  way to something else (`Archive.Returns`). By the renaming such a link becomes
  the entry of the snapshot, from where it comes by itself. Every look-up of it
  then goes round until it has followed too many links (`Disk.walk_of_return`).

  A link that leads elsewhere does so after the renaming too, and what is found
  there is what was saved. `Archive.load_of_save` says which of the two it is.
-/

import ShowRelay.Proofs.Snapshot.Diverting

namespace ShowRelay

/-! ## Look-ups that come by a link twice -/

namespace Disk

variable {root root' : Node} {links : Nat} {here names above found : List FileName}
  {entry : FileName} {node : Option Node} {target : Bytes}

/-- What a look-up comes by first. -/
theorem mem_visits_self (hname : entry.Direct) (hlength : entry.length ≤ FileName.maxLength)
    (root : Node) (links : Nat) (here rest : List FileName) :
    here ++ [entry] ∈ visits root links here (entry :: rest) := by
  rw [visits, if_neg hname.not_stays, if_neg hname.not_parent, if_neg (Nat.not_lt_of_le hlength)]
  split
  · exact List.mem_cons_self
  · split
    · exact List.mem_cons_self
    · exact List.mem_cons_self
  · exact List.mem_cons_self

/-- What a look-up comes by when it begins with a link. -/
theorem visits_link (hname : entry.Direct) (hlength : entry.length ≤ FileName.maxLength)
    (hat : root.at? (here ++ [entry]) = some (.link target)) (links : Nat)
    (rest : List FileName) :
    visits root (links + 1) here (entry :: rest) = (here ++ [entry]) ::
      visits root links (linkBase here target) (target.splitOn Path.separator ++ rest) := by
  rw [visits, if_neg hname.not_stays, if_neg hname.not_parent, if_neg (Nat.not_lt_of_le hlength),
    hat]
  rfl

/-- What a look-up finds it has come by, unless it is a folder. -/
theorem mem_visits_of_walk (hhere : ∃ entries, root.at? here = some (.folder entries))
    (h : walk root links here names = .ok (found, node))
    (hfree : ∀ entries, node ≠ some (.folder entries)) :
    found ∈ visits root links here names := by
  fun_induction walk root links here names with
  | case1 links here =>
    obtain ⟨entries, hfolder⟩ := hhere
    cases h
    exact absurd hfolder (hfree entries)
  | case2 links here name rest hstays ih =>
    rw [visits, if_pos hstays]
    exact ih hhere h
  | case3 links here rest hstays ih =>
    obtain ⟨entries, hfolder⟩ := hhere
    rw [visits, if_neg hstays, if_pos rfl]
    exact ih (Node.exists_folder_of_below hfolder (List.dropLast_prefix here)) h
  | case4 => cases h
  | case5 links here name hstays hparent hlength hnone =>
    cases h
    simp only [visits, if_neg hstays, if_neg hparent, if_neg hlength, hnone, List.mem_singleton]
  | case6 => cases h
  | case7 links here name hstays hparent hlength old hentry =>
    cases h
    simp only [visits, if_neg hstays, if_neg hparent, if_neg hlength, hentry, List.mem_singleton]
  | case8 => cases h
  | case9 links here name rest hstays hparent hlength entries hentry ih =>
    simp only [visits, if_neg hstays, if_neg hparent, if_neg hlength, hentry]
    exact List.mem_cons_of_mem _ (ih ⟨entries, hentry⟩ h)
  | case10 => cases h
  | case11 here name rest hstays hparent hlength target hentry links names ih =>
    simp only [visits, if_neg hstays, if_neg hparent, if_neg hlength, hentry]
    exact List.mem_cons_of_mem _ (ih (exists_folder_linkBase hhere target) h)

/-- A look-up of some names gets to an entry, however many links it may follow and whatever names
    are added, or else it has followed too many links before. -/
def GetsTo (root : Node) (here names above : List FileName) (entry : FileName) : Prop :=
  ∃ rest, ∀ (links : Nat) (more : List FileName),
    walk root links here (names ++ more) = .error .tooManyLinks ∨
    ∃ left ≤ links, walk root links here (names ++ more) =
      walk root left above (entry :: (rest ++ more))

theorem getsTo_self {name : FileName} (h : here ++ [name] = above ++ [entry])
    (root : Node) (rest : List FileName) : GetsTo root here (name :: rest) above entry := by
  obtain ⟨rfl, hlast⟩ := List.append_inj' h rfl
  cases hlast
  exact ⟨rest, fun links more => .inr ⟨links, Nat.le_refl links, rfl⟩⟩

/-- A look-up that comes by an entry gets to it, and does so in any tree with the same folders and
    links on the way. -/
theorem getsTo_of_visit
    (hsame : ∀ path ∈ visits root links here names, path ≠ above ++ [entry] →
      Follows root root' path)
    (hvisit : above ++ [entry] ∈ visits root links here names) :
    GetsTo root' here names above entry := by
  fun_induction visits root links here names with
  | case1 => cases hvisit
  | case2 links here name rest hstays ih =>
    obtain ⟨rest', hwalk⟩ := ih hsame hvisit
    refine ⟨rest', fun left more => ?_⟩
    rw [List.cons_append, walk, if_pos hstays]
    exact hwalk left more
  | case3 links here rest hstays ih =>
    obtain ⟨rest', hwalk⟩ := ih hsame hvisit
    refine ⟨rest', fun left more => ?_⟩
    rw [List.cons_append, walk, if_neg hstays, if_pos rfl]
    exact hwalk left more
  | case4 => cases hvisit
  | case5 links here name rest hstays hparent hlength entries hentry ih =>
    rw [List.forall_mem_cons] at hsame
    by_cases heq : here ++ [name] = above ++ [entry]
    · exact getsTo_self heq root' rest
    have hlater := (List.mem_cons.1 hvisit).resolve_left (Ne.symm heq)
    obtain ⟨rest', hwalk⟩ := ih hsame.2 hlater
    obtain ⟨entries', hentry'⟩ := (hsame.1 heq).1 entries hentry
    refine ⟨rest', fun left more => ?_⟩
    rw [List.cons_append, walk, if_neg hstays, if_neg hparent, if_neg hlength, hentry']
    exact hwalk left more
  | case6 here name rest hstays hparent hlength target hentry =>
    exact getsTo_self (List.mem_singleton.1 hvisit).symm root' rest
  | case7 here name rest hstays hparent hlength target hentry links names ih =>
    rw [List.forall_mem_cons] at hsame
    by_cases heq : here ++ [name] = above ++ [entry]
    · exact getsTo_self heq root' rest
    have hlater := (List.mem_cons.1 hvisit).resolve_left (Ne.symm heq)
    obtain ⟨rest', hwalk⟩ := ih hsame.2 hlater
    have hentry' := (hsame.1 heq).2 target hentry
    refine ⟨rest', fun left more => ?_⟩
    rw [List.cons_append, walk, if_neg hstays, if_neg hparent, if_neg hlength, hentry']
    cases left with
    | zero => exact .inl rfl
    | succ left =>
      have hrest := hwalk left more
      rw [List.append_assoc] at hrest
      rcases hrest with hdone | ⟨left', hle, hagain⟩
      · exact .inl hdone
      · exact .inr ⟨left', Nat.le_succ_of_le hle, hagain⟩
  | case8 links here name rest hstays hparent hlength hentry hother =>
    exact getsTo_self (List.mem_singleton.1 hvisit).symm root' rest

/-- A link whose own look-up comes by it again is followed in vain. -/
theorem walk_of_return (hname : entry.Direct) (hlength : entry.length ≤ FileName.maxLength)
    (hat : root.at? (above ++ [entry]) = some (.link target))
    (h : GetsTo root (linkBase above target) (target.splitOn Path.separator) above entry)
    (links : Nat) (more : List FileName) :
    walk root links above (entry :: more) = .error .tooManyLinks := by
  obtain ⟨rest, hround⟩ := h
  -- Each time round one link fewer is left.
  induction links using Nat.strongRecOn generalizing more with
  | ind links ih =>
    rw [walk_link hname hlength hat]
    cases links with
    | zero => rfl
    | succ links =>
      rcases hround links more with hdone | ⟨left, hle, hagain⟩
      · exact hdone
      · exact hagain.trans (ih left (Nat.lt_succ_of_le hle) (rest ++ more))

/-- What is found through a link that was renamed, if the folders and links are as they were at
    all other entries. -/
theorem walk_of_renamed {own : FileName} {contents : Bytes}
    (hentry : entry.Direct) (hlength : entry.length ≤ FileName.maxLength)
    (hown : own.Direct) (hlength' : own.length ≤ FileName.maxLength) (hne : own ≠ entry)
    (habove : ∃ entries, root.at? above = some (.folder entries))
    (hat : root.at? (above ++ [entry]) = some (.link target))
    (hat' : root'.at? (above ++ [own]) = some (.link target))
    (hfollows : ∀ path, path ≠ above ++ [own] → path ≠ above ++ [entry] →
      Follows root root' path)
    (hwalk : walk root (links + 1) above [entry] = .ok (found, node))
    (hfree : ∀ entries, node ≠ some (.folder entries))
    (hfile : found ≠ above ++ [own] → root'.at? found = some (.file contents)) :
    walk root' (links + 1) above [own] =
      if above ++ [own] ∈ visits root (links + 1) above [entry] then .error .tooManyLinks
      else .ok (found, some (.file contents)) := by
  have hvisits := visits_link hentry hlength hat links []
  have hfirst := (walk_link hentry hlength hat (links + 1) []).symm.trans hwalk
  have hthen := walk_link hown hlength' hat' (links + 1) []
  simp only [List.append_nil] at hvisits hfirst hthen
  -- The look-up that goes on from the link does not come by the link.
  have honce : above ++ [entry] ∉
      visits root links (linkBase above target) (target.splitOn Path.separator) := by
    intro hvisit
    have hround := getsTo_of_visit (fun path _ _ => follows_refl root path) hvisit
    cases (walk_of_return hentry hlength hat hround (links + 1) []).symm.trans hwalk
  have hother : ∀ path ∈ visits root links (linkBase above target)
      (target.splitOn Path.separator), path ≠ above ++ [own] → Follows root root' path := by
    intro path hpath hpath'
    refine hfollows path hpath' ?_
    rintro rfl
    exact honce hpath
  have hmem : above ++ [own] ∈ visits root (links + 1) above [entry] ↔
      above ++ [own] ∈
        visits root links (linkBase above target) (target.splitOn Path.separator) := by
    rw [hvisits, List.mem_cons, List.append_right_inj, List.singleton_inj]
    exact or_iff_right hne
  by_cases hvisit : above ++ [own] ∈ visits root (links + 1) above [entry]
  · rw [if_pos hvisit]
    have hround := getsTo_of_visit hother (hmem.1 hvisit)
    exact walk_of_return hown hlength' hat' hround (links + 1) []
  · rw [if_neg hvisit, hthen]
    have hvisit' := mt hmem.2 hvisit
    have hfound : found ≠ above ++ [own] := by
      rintro rfl
      exact hvisit' (mem_visits_of_walk (exists_folder_linkBase habove target) hfirst hfree)
    refine walk_of_follows (fun path hpath => hother path hpath ?_) (hfile hfound) hfirst
    rintro rfl
    exact hvisit' hpath

/-- A file of the snapshot folder is looked up from there. -/
theorem read_eq_walk {disk : Disk} {f : Folder} (hplace : disk.place = .folder f)
    (hlength : entry.length ≤ FileName.maxLength) :
    disk.read entry = (do
      match ← walk disk.tree maxLinks disk.placePath [entry] with
      | (_, some (.file contents)) => .ok contents
      | (_, some (.folder _)) => .error .isDirectory
      | _ => .error .notFound) := by
  have hpath := Nat.not_lt_of_le (length_join_ownName_le hlength)
  rw [read, if_neg hpath, contentsAt, locate_own, hplace]
  rfl

theorem length_le_of_walk (hname : entry.Direct) {result : List FileName × Option Node}
    (h : walk root links here [entry] = .ok result) : entry.length ≤ FileName.maxLength := by
  refine Nat.le_of_not_lt fun hlong => ?_
  rw [walk, if_neg hname.not_stays, if_neg hname.not_parent, if_pos hlong] at h
  cases h

end Disk

/-! ## Saving and loading -/

namespace Archive

variable {archive after : Archive} {replies : List Saving.Reply} {raw contents path : String}
  {name : SnapshotName} {target : Bytes}

/-- Whether a link that has the name of the next hidden file leads to the snapshot itself, or comes
    by it on the way. -/
def Returns (archive : Archive) (name : SnapshotName) : Prop :=
  archive.placePath ++ [name.fileName] ∈ Disk.visits archive.tree Disk.maxLinks archive.placePath
    [Saving.hiddenName name archive.process archive.temporaries]

instance (archive : Archive) (name : SnapshotName) : Decidable (archive.Returns name) :=
  inferInstanceAs (Decidable (_ ∈ _))

theorem not_returns_of_unlinked (hlink : archive.Unlinked name) : ¬ archive.Returns name := by
  have hdirect := Saving.direct_hiddenName name archive.process archive.temporaries
  have hne := Saving.hiddenName_ne_fileName name archive.process archive.temporaries name
  have hown : archive.placePath ++ [name.fileName] ≠
      archive.placePath ++ [Saving.hiddenName name archive.process archive.temporaries] := by
    rw [Ne, List.append_right_inj, List.singleton_inj]
    exact hne.symm
  rw [Returns, Disk.visits, if_neg hdirect.not_stays, if_neg hdirect.not_parent]
  split
  · exact List.not_mem_nil
  · rw [Disk.at?_tree_entry]
    split
    · rw [Disk.visits]
      exact fun hvisit => hown (List.mem_singleton.1 hvisit)
    · next target hentry => exact absurd hentry (hlink target)
    · exact fun hvisit => hown (List.mem_singleton.1 hvisit)

/-- A link that leads to the snapshot itself is the shortest way round. -/
theorem returns_of_loop
    (hentry : archive.place.find?
      (Saving.hiddenName name archive.process archive.temporaries) = some (.link name.fileName))
    (hhidden : (Saving.hiddenName name archive.process archive.temporaries).length ≤
      FileName.maxLength)
    (hlength : name.fileName.length ≤ FileName.maxLength) : archive.Returns name := by
  have hown := name.direct_fileName
  have hone : name.fileName.splitOn Path.separator = [name.fileName] :=
    List.splitOn_eq_singleton hown.whole
  have hbase : Disk.linkBase archive.placePath name.fileName = archive.placePath := by
    simp [Disk.linkBase, hone, Path.isFromRoot, hown.nonempty]
  have hat := (Disk.at?_tree_entry archive.toDisk _).trans hentry
  rw [Returns, Disk.maxLinks, Disk.visits_link (Saving.direct_hiddenName name _ _) hhidden hat,
    hone, hbase]
  exact List.mem_cons_of_mem _ (Disk.mem_visits_self hown hlength archive.tree 39 _ _)

/-- At all entries but the snapshot's and the hidden file's a save leaves folders and links as they
    were. -/
theorem follows_of_saveWith {f : Folder} {result : Except SnapshotError String}
    (hname : SnapshotName.sanitize raw = .ok name) (hplace : archive.place = .folder f)
    (h : archive.saveWith replies raw contents = (after, result)) {other : List FileName}
    (hown : other ≠ archive.placePath ++ [name.fileName])
    (hhidden : other ≠ archive.placePath ++
      [Saving.hiddenName name archive.process archive.temporaries]) :
    Disk.Follows archive.tree after.tree other := by
  have hkept := kept_of_saveWith hname archive replies contents
  rw [h] at hkept
  by_cases hway : other <+: archive.placePath
  · obtain ⟨entries, hfolder⟩ :=
      Node.exists_folder_of_below (Disk.at?_tree_of_folder hplace) hway
    obtain ⟨g, hplace'⟩ := hkept.disk.folder f hplace
    have hafter := Disk.at?_tree_of_folder hplace'
    rw [hkept.disk.placePath] at hafter
    refine ⟨fun _ _ => Node.exists_folder_of_below hafter hway, fun target hat => ?_⟩
    cases hfolder.symm.trans hat
  · by_cases hexposed : archive.Exposes name other
    · rcases hexposed with heq | heq | hdiverts
      · exact absurd heq hown
      · exact absurd heq hhidden
      · exact ⟨fun entries hat => absurd hat (hdiverts.at?_path.1 entries),
          fun target hat => absurd hat (hdiverts.at?_path.2 target)⟩
    · exact Disk.follows_of_bare (hkept.disk.elsewhere other hway hexposed)

/-- What is read of a snapshot that was saved through a link. -/
theorem read_of_link (hname : SnapshotName.sanitize raw = .ok name)
    (hentry : archive.place.find?
      (Saving.hiddenName name archive.process archive.temporaries) = some (.link target))
    (h : archive.saveWith replies raw contents = (after, .ok path)) :
    after.read name.fileName =
      if archive.Returns name then .error .tooManyLinks else .ok (Utf8.encode contents) := by
  obtain ⟨hlength, hlink, found, hdiverts, hfile⟩ := diverts_of_saveWith hname hentry h
  obtain ⟨f, -, node, hplace, -, hwalk, hfree⟩ := hdiverts.walk
  have hkept := kept_of_saveWith hname archive replies contents
  rw [h] at hkept
  obtain ⟨g, hplace'⟩ := hkept.disk.folder f hplace
  have hat := (Disk.at?_tree_entry archive.toDisk _).trans hentry
  have hat' := (Disk.at?_tree_entry after.toDisk _).trans hlink
  rw [hkept.disk.placePath] at hat' hfile
  have hdirect := Saving.direct_hiddenName name archive.process archive.temporaries
  have hrenamed : Disk.walk after.tree Disk.maxLinks archive.placePath [name.fileName] =
      if archive.Returns name then .error .tooManyLinks
      else .ok (found, some (.file (Utf8.encode contents))) :=
    Disk.walk_of_renamed hdirect (Disk.length_le_of_walk hdirect hwalk) name.direct_fileName hlength
      (Saving.hiddenName_ne_fileName name _ _ name).symm ⟨_, Disk.at?_tree_of_folder hplace⟩ hat
      hat' (fun _ => follows_of_saveWith hname hplace h) hwalk hfree hfile
  rw [Disk.read_eq_walk hplace' hlength, hkept.disk.placePath, hrenamed]
  by_cases hreturns : archive.Returns name
  · rw [if_pos hreturns, if_pos hreturns]
    rfl
  · rw [if_neg hreturns, if_neg hreturns]
    rfl

/-- A snapshot that was saved is loaded with what was saved, unless a link that had the name of the
    hidden file led to it or came by it on the way. -/
theorem load_of_save (hname : SnapshotName.sanitize raw = .ok name)
    (h : archive.saveWith replies raw contents = (after, .ok path)) :
    after.load raw =
      if archive.Returns name then .error (.persistence name.text .tooManyLinks)
      else .ok contents := by
  by_cases hlinked : ∃ target, archive.place.find?
      (Saving.hiddenName name archive.process archive.temporaries) = some (.link target)
  · obtain ⟨target, hentry⟩ := hlinked
    rw [load, hname]
    simp only [bind, Except.bind, read_of_link hname hentry h]
    by_cases hreturns : archive.Returns name
    · simp only [if_pos hreturns]
    · simp only [if_neg hreturns, Utf8.decode?_encode]
  · have hlink : archive.Unlinked name := fun target hentry => hlinked ⟨target, hentry⟩
    rw [if_neg (not_returns_of_unlinked hlink)]
    exact load_of_unlinked hname hlink h

end Archive

end ShowRelay
