/-
  ShowRelay.Proofs.Snapshot.Touching

  What a save touches. A save that succeeds has made the entry of its snapshot a
  regular file with the given contents, whatever was there before, a symbolic link
  included, and a save that fails has changed no entry at all (`Archive.touched_by_save`).
  So it is whichever requests are refused on the way: the states in which a writing
  can be that nothing else disturbs are few (`Saving.Undisturbed`), and in those in
  which it is over the hidden file is gone.

  The rest of the disk is compared path by path, what the symbolic links of the folder
  lead to included.
-/

import ShowRelay.Proofs.Snapshot.Elsewhere
import ShowRelay.Proofs.Snapshot.Paths
import ShowRelay.Proofs.Snapshot.Refinement

namespace ShowRelay

/-! ## What a save can do -/

namespace Archive

/-- An archive in which nothing has changed, or at most its folder has come into being. -/
structure Spared (before after : Archive) : Prop where
  disk : after.toDisk = before.toDisk ∨
    before.place = .absent ∧ after.toDisk = { before.toDisk with place := .folder Table.empty }
  -- Every entry keeps its kind and its contents, and none is added.
  entries : ∀ file, after.place.find? file = before.place.find? file
  elsewhere : ∀ path, ¬ path <+: before.placePath → after.tree.at? path = before.tree.at? path

/-- An archive in which one entry has become a regular file and nothing else has changed. -/
structure Replaced (before after : Archive) (file : FileName) (contents : Bytes) : Prop where
  entry : after.place.find? file = some (.file contents)
  -- Files, folders and symbolic links, each as it was.
  others : ∀ other, other ≠ file → after.place.find? other = before.place.find? other
  elsewhere : ∀ path, ¬ path <+: before.placePath ++ [file] →
    ¬ before.placePath ++ [file] <+: path →
    after.tree.at? path = before.tree.at? path
  -- A file to which any name of the folder led, perhaps over links, is where it was and as it was,
  -- unless it is the one that was replaced.
  targets : ∀ name found bytes,
    before.locate [Disk.ownName, name] = .ok (found, some (.file bytes)) →
    found ≠ before.placePath ++ [file] → after.tree.at? found = some (.file bytes)

theorem spared_of_toDisk {before after : Archive} (h : after.toDisk = before.toDisk) :
    Spared before after where
  disk := .inl h
  entries file := by rw [h]
  elsewhere path _ := by rw [h]

theorem spared_of_made {before after : Archive} (habsent : before.place = .absent)
    (h : after.toDisk = { before.toDisk with place := .folder Table.empty }) :
    Spared before after := by
  have hentries : ∀ file, after.place.find? file = before.place.find? file := by
    intro file
    rw [habsent, h]
    rfl
  refine ⟨.inr ⟨habsent, h⟩, hentries, fun path hpath => ?_⟩
  refine Disk.at?_tree_congr ?_ ?_ hpath fun file _ _ => ?_
  · rw [h]
  · rw [h]
  · rw [hentries file]

/-- The entry that is inserted is the only one that changes. -/
theorem replaced_of_insert {before after : Archive} {f : Folder} {file : FileName}
    {contents : Bytes} (hmade : before.place.makeFolder = .ok (.folder f))
    (hfree : ∀ entries, f.get? file ≠ some (.folder entries))
    (h : after.toDisk = { before.toDisk with place := .folder (f.insert file (.file contents)) }) :
    Replaced before after file contents := by
  have hplace : after.place = .folder (f.insert file (.file contents)) := by rw [h]
  have hentries : ∀ other, after.place.find? other =
      if other = file then some (.file contents) else before.place.find? other := by
    intro other
    rw [hplace, ← Place.find?_of_makeFolder hmade]
    exact Table.get?_insert f file other _
  have helsewhere : ∀ path, ¬ path <+: before.placePath ++ [file] →
      ¬ before.placePath ++ [file] <+: path → after.tree.at? path = before.tree.at? path := by
    intro path habove hbelow
    refine Disk.at?_tree_congr ?_ ?_ (fun hpath => habove (hpath.trans (List.prefix_append _ _)))
      fun other more hother => ?_
    · rw [h]
    · rw [h]
    · rw [hentries, if_neg]
      rintro rfl
      exact hbelow ⟨more, by rw [hother, List.append_assoc, List.singleton_append]⟩
  refine ⟨?_, fun other hother => ?_, helsewhere, ?_⟩
  · rw [hentries, if_pos rfl]
  · rw [hentries, if_neg hother]
  · intro name found bytes hlocate hne
    have hfound : before.tree.at? found = some (.file bytes) := Disk.at?_of_walk hlocate
    obtain ⟨g, hg⟩ := Disk.exists_folder_of_locate hlocate
    have hfolder : before.tree.at? before.placePath = some (.folder g.entries) := by
      rw [Disk.at?_tree, hg]
      rfl
    rw [helsewhere found, hfound]
    · rw [List.prefix_concat_iff, not_or]
      exact ⟨hne, Disk.not_prefix_of_file hfound hfolder⟩
    · -- The entry would have to be a folder.
      rintro ⟨rest, rfl⟩
      rw [List.append_assoc, List.singleton_append, Disk.at?_tree_below,
        ← Place.find?_of_makeFolder hmade, Option.bind_eq_some_iff] at hfound
      obtain ⟨node, hnode, hrest⟩ := hfound
      cases rest with
      | nil => exact hne (List.append_nil _)
      | cons next rest =>
        cases node with
        | file old => cases hrest
        | link target => cases hrest
        | folder entries => exact hfree entries hnode

end Archive

/-! ## A writing that nothing disturbs -/

namespace Saving

section

variable {first : Archive} {f : Folder} {name : SnapshotName} {contents : Bytes}

/-- The archive when the hidden file of a writing has been named, with some entries. -/
def named (first : Archive) (f : Folder) : Archive :=
  { first with place := .folder f, temporaries := first.temporaries + 1 }

/-- The states of the writing of a snapshot that begins with the archive `first`, where `f` is
    the folder as soon as it is there. There is always at most the hidden file that was not in
    the folder before, until it becomes the file of the snapshot. -/
inductive Undisturbed (first : Archive) (f : Folder) (name : SnapshotName) (contents : Bytes)
    (hidden : FileName) : Archive → Saving → Prop where
  | makingFolder : Undisturbed first f name contents hidden first ⟨name, contents, .makingFolder⟩
  | creating : Undisturbed first f name contents hidden { first with place := .folder f }
      ⟨name, contents, .creating⟩
  | writing {written rest : Bytes} (h : written ++ rest = contents) :
      Undisturbed first f name contents hidden (named first (f.insert hidden (.file written)))
        ⟨name, contents, .writing hidden rest⟩
  | syncing :
      Undisturbed first f name contents hidden (named first (f.insert hidden (.file contents)))
        ⟨name, contents, .syncing hidden⟩
  | renaming :
      Undisturbed first f name contents hidden (named first (f.insert hidden (.file contents)))
        ⟨name, contents, .renaming hidden⟩
  -- The hidden file may be there or not.
  | removing {g : Folder} (h : (Place.folder g).remove hidden = .folder f) (fault : SystemFault) :
      Undisturbed first f name contents hidden (named first g)
        ⟨name, contents, .removing hidden fault⟩
  -- The folder could not be made.
  | unmade (fault : SystemFault) :
      Undisturbed first f name contents hidden first ⟨name, contents, .finished (some fault)⟩
  | failed (fault : SystemFault) :
      Undisturbed first f name contents hidden (named first f)
        ⟨name, contents, .finished (some fault)⟩
  | saved (hfree : ∀ entries, f.get? name.fileName ≠ some (.folder entries)) :
      Undisturbed first f name contents hidden
        (named first (f.insert name.fileName (.file contents))) ⟨name, contents, .finished none⟩

variable {hidden : FileName} {archive : Archive} {s : Saving}
  (hmade : first.place.makeFolder = .ok (.folder f))
  (hname : hiddenName name first.process first.temporaries = hidden)
  (hfresh : f.get? hidden = none)

include hname hfresh

/-- The renaming is refused, or the file of the snapshot is there and the hidden file is not. -/
theorem undisturbed_of_renaming (reply : Reply) :
    Undisturbed first f name contents hidden
      (step (named first (f.insert hidden (.file contents)))
        ⟨name, contents, .renaming hidden⟩ reply).1
      (step (named first (f.insert hidden (.file contents)))
        ⟨name, contents, .renaming hidden⟩ reply).2 := by
  have hremove := Place.remove_of_file hfresh contents
  cases reply with
  | refuse fault => exact .removing hremove fault
  | grant piece =>
    cases hrename : (named first (f.insert hidden (.file contents))).place.rename hidden
        name.fileName with
    | error fault =>
      simp only [step, hrename]
      exact .removing hremove fault
    | ok place =>
      obtain ⟨hlength, node, hnode, rfl⟩ := Place.rename_eq_ok hrename
      rw [Table.get?_insert, if_pos rfl, Option.some.injEq] at hnode
      subst hnode
      have hne : name.fileName ≠ hidden := fun heq =>
        hiddenName_ne_fileName name first.process first.temporaries name (hname.trans heq.symm)
      have hfree : ∀ entries, f.get? name.fileName ≠ some (.folder entries) := by
        intro entries hfolder
        have hhidden : (f.insert hidden (.file contents)).get? hidden = some (.file contents) := by
          rw [Table.get?_insert, if_pos rfl]
        have htarget : (f.insert hidden (.file contents)).get? name.fileName =
            some (.folder entries) := by
          rw [Table.get?_insert, if_neg hne, hfolder]
        have hrefused := Place.rename_of_folder hlength hhidden htarget
        cases hrename.symm.trans hrefused
      simp only [step, hrename, Table.erase_insert hfresh]
      exact .saved hfree

include hmade

/-- Every request leads from one of the states to another, whether it is granted or refused. -/
theorem undisturbed_of_step (h : Undisturbed first f name contents hidden archive s)
    (reply : Reply) :
    Undisturbed first f name contents hidden (step archive s reply).1 (step archive s reply).2 := by
  have hnone := Place.remove_of_fresh hfresh
  cases h with
  | makingFolder =>
    cases reply with
    | refuse fault => exact .unmade fault
    | grant piece =>
      simp only [step, hmade]
      exact .creating
  | creating =>
    simp only [step, hname]
    cases reply with
    | refuse fault => exact .removing hnone fault
    | grant piece =>
      have hempty : (Place.folder f).find? hidden = none := hfresh
      have hcreate : ({ first.toDisk with place := .folder f } : Disk).create hidden = _ :=
        Disk.create_eq (Place.not_link_of_fresh hempty)
      simp only [hcreate]
      cases hplace : (Place.folder f).create hidden with
      | error fault => exact .removing hnone fault
      | ok place =>
        cases Place.create_eq_ok hplace
        exact .writing (List.nil_append contents)
  | @writing written rest hsum =>
    cases reply with
    | refuse fault => exact .removing (Place.remove_of_file hfresh _) fault
    | grant piece =>
      have hhidden : (f.insert hidden (.file written)).get? hidden = some (.file written) := by
        rw [Table.get?_insert, if_pos rfl]
      have hplace : (named first (f.insert hidden (.file written))).place.extend hidden
          (rest.take piece) = .folder (f.insert hidden (.file (written ++ rest.take piece))) := by
        rw [← Table.insert_insert f hidden (.file written) (.file (written ++ rest.take piece))]
        exact Place.extend_of_file hhidden (rest.take piece)
      have hentry : (named first (f.insert hidden (.file written))).place.find? hidden =
          some (.file written) := hhidden
      have hextend := Disk.extend_eq (Place.not_link_of_file hentry) (rest.take piece)
      rw [hplace] at hextend
      have hall := List.take_append_drop piece rest
      simp only [step, hextend]
      split
      · next hdone =>
        rw [hdone, List.append_nil] at hall
        rw [hall, hsum]
        exact .syncing
      · refine .writing ?_
        rw [List.append_assoc, hall, hsum]
  | syncing =>
    cases reply with
    | refuse fault => exact .removing (Place.remove_of_file hfresh _) fault
    | grant piece => exact .renaming
  | «renaming» => exact undisturbed_of_renaming hname hfresh reply
  | removing hgone fault =>
    simp only [step, named, hgone]
    exact .failed fault
  | unmade fault => exact .unmade fault
  | failed fault => exact .failed fault
  | saved hfree => exact .saved hfree

/-- So it is with any number of requests. -/
theorem undisturbed_of_foldl (h : Undisturbed first f name contents hidden archive s)
    (replies : List Reply) :
    Undisturbed first f name contents hidden
      (replies.foldl (fun (archive, s) reply => step archive s reply) (archive, s)).1
      (replies.foldl (fun (archive, s) reply => step archive s reply) (archive, s)).2 :=
  holds_of_foldl (P := Undisturbed first f name contents hidden)
    (fun _ _ reply hstep => undisturbed_of_step hmade hname hfresh hstep reply) h replies

end

/-- If the folder cannot be made then this is the end of the writing. -/
theorem foldl_of_unmade {first : Archive} {fault : SystemFault}
    (h : first.place.makeFolder = .error fault) {s : Saving}
    (hs : s.stage = .makingFolder ∨ ∃ fault, s.stage = .finished (some fault))
    (replies : List Reply) :
    (replies.foldl (fun (archive, s) reply => step archive s reply) (first, s)).1 = first ∧
      (replies.foldl (fun (archive, s) reply => step archive s reply) (first, s)).2.stage ≠
        .finished none := by
  induction replies generalizing s with
  | nil =>
    refine ⟨rfl, ?_⟩
    rcases hs with hs | ⟨_, hs⟩
    · exact fun hstage => absurd (hs.symm.trans hstage) nofun
    · exact fun hstage => absurd (hs.symm.trans hstage) nofun
  | cons reply replies ih =>
    obtain ⟨name, contents, stage⟩ := s
    rcases hs with rfl | ⟨fault', rfl⟩
    · cases reply with
      | refuse refusal => exact ih (.inr ⟨refusal, rfl⟩)
      | grant piece =>
        have hstep : step first ⟨name, contents, .makingFolder⟩ (.grant piece) =
            (first, ⟨name, contents, .finished (some fault)⟩) := by
          simp only [step, h]
        simp only [List.foldl_cons, hstep]
        exact ih (.inr ⟨fault, rfl⟩)
    · exact ih (.inr ⟨fault', rfl⟩)

end Saving

/-! ## The result -/

namespace Archive

/-- What the writing of a snapshot has done when it is over. -/
def Touched (before after : Archive) (name : SnapshotName) (contents : Bytes) :
    Option SystemFault → Prop
  | some _ => Spared before after
  | none => Replaced before after name.fileName contents

theorem touched_of_undisturbed {first after : Archive} {f : Folder} {name : SnapshotName}
    {contents : Bytes} {hidden : FileName} {s : Saving} {fault : Option SystemFault}
    (hmade : first.place.makeFolder = .ok (.folder f))
    (h : Saving.Undisturbed first f name contents hidden after s)
    (hover : s.stage = .finished fault) : Touched first after name contents fault := by
  cases h with
  | makingFolder => cases hover
  | creating => cases hover
  | writing => cases hover
  | syncing => cases hover
  | «renaming» => cases hover
  | removing => cases hover
  | unmade =>
    cases hover
    exact spared_of_toDisk rfl
  | failed =>
    cases hover
    cases hplace : first.place with
    | absent =>
      rw [hplace] at hmade
      cases hmade
      exact spared_of_made hplace rfl
    | blocked old =>
      rw [hplace] at hmade
      cases hmade
    | folder g =>
      rw [hplace] at hmade
      cases hmade
      refine spared_of_toDisk ?_
      show { first.toDisk with place := .folder f } = first.toDisk
      rw [← hplace]
  | saved hfree =>
    cases hover
    exact replaced_of_insert hmade hfree rfl

/-- Whatever requests are refused, a writing that is over has succeeded and replaced the entry
    of its snapshot, or failed and changed nothing. -/
theorem touched_of_writing {archive after : Archive} {name : SnapshotName} {contents : Bytes}
    (hfresh : archive.place.find?
      (Saving.hiddenName name archive.process archive.temporaries) = none)
    {replies : List Saving.Reply} {s : Saving}
    (hrun : replies.foldl (fun (archive, s) reply => Saving.step archive s reply)
      (archive, .start name contents) = (after, s))
    {fault : Option SystemFault} (hover : s.stage = .finished fault) :
    Touched archive after name contents fault := by
  cases hmade : archive.place.makeFolder with
  | error refusal =>
    obtain ⟨hsame, hstage⟩ := Saving.foldl_of_unmade hmade (s := .start name contents) (.inl rfl)
      replies
    rw [hrun] at hsame hstage
    cases fault with
    | none => exact absurd hover hstage
    | some fault =>
      cases hsame
      exact spared_of_toDisk rfl
  | ok place =>
    obtain ⟨f, rfl⟩ := Place.makeFolder_eq_ok hmade
    rw [← Place.find?_of_makeFolder hmade] at hfresh
    have hbegin : Saving.Undisturbed archive f name contents
        (Saving.hiddenName name archive.process archive.temporaries) archive
        (.start name contents) := .makingFolder
    have hundisturbed := Saving.undisturbed_of_foldl hmade rfl hfresh hbegin replies
    rw [hrun] at hundisturbed
    exact touched_of_undisturbed hmade hundisturbed hover

/-- Why a save under a name fails, if it does: a regular file is where the folder should be, or
    something is in the way of the hidden file or of the snapshot's own. -/
def failure? (archive : Archive) (name : SnapshotName) : Option SystemFault :=
  match archive.place with
  | .blocked _ => some .alreadyExists
  | _ => Saving.obstacle? archive name

theorem failure?_of_unblocked {archive : Archive} (h : archive.place.Unblocked)
    (name : SnapshotName) : archive.failure? name = Saving.obstacle? archive name := by
  rw [failure?]
  split
  · next contents hplace => exact absurd hplace (h contents)
  · rfl

/-- A save is over after its requests, and answers accordingly. -/
theorem save_eq_of_complete {archive : Archive} {raw : String} {name : SnapshotName}
    (contents : String) (hname : SnapshotName.sanitize raw = .ok name)
    (hfresh : archive.place.find?
      (Saving.hiddenName name archive.process archive.temporaries) = none) :
    ∃ after s, Saving.complete archive (.start name (Utf8.encode contents)) = (after, s) ∧
      s.stage = .finished (archive.failure? name) ∧
      archive.save raw contents = (after,
        match archive.failure? name with
        | none => .ok (archive.pathFor name.text)
        | some fault => .error (.persistence name.text fault)) := by
  by_cases hblocked : ∃ old, archive.place = .blocked old
  · obtain ⟨old, hplace⟩ := hblocked
    have hfailure : archive.failure? name = some .alreadyExists := by rw [failure?, hplace]
    have hmade : archive.place.makeFolder = .error .alreadyExists := by rw [hplace]; rfl
    have hcomplete : Saving.complete archive (.start name (Utf8.encode contents)) =
        (archive, ⟨name, Utf8.encode contents, .finished (some .alreadyExists)⟩) := by
      simp only [Saving.complete_start, List.foldl_cons, List.foldl_nil, Saving.step, hmade]
    rw [hfailure]
    exact ⟨_, _, hcomplete, rfl, save_of_finished hname hcomplete rfl⟩
  · have hunblocked : archive.place.Unblocked := fun old hplace => hblocked ⟨old, hplace⟩
    obtain ⟨place, -, hcomplete, -⟩ := Saving.complete_eq (Utf8.encode contents) hunblocked hfresh
    rw [failure?_of_unblocked hunblocked]
    exact ⟨_, _, hcomplete, rfl, save_of_finished hname hcomplete rfl⟩

/-- Why a save is refused, and with which error. -/
inductive Refuses (archive : Archive) (raw : String) : SnapshotError → Prop where
  -- Nothing of the name may be kept.
  | name (h : ∀ c ∈ raw.toList, ¬ SnapshotName.Allowed c) : Refuses archive raw (.invalidName raw)
  -- A regular file is where the folder should be.
  | blocked {name : SnapshotName} {contents : Bytes} (hname : SnapshotName.sanitize raw = .ok name)
      (h : archive.place = .blocked contents) :
      Refuses archive raw (.persistence name.text .alreadyExists)
  -- The name of the hidden file is too long.
  | long {name : SnapshotName} (hname : SnapshotName.sanitize raw = .ok name)
      (hunblocked : archive.place.Unblocked)
      (h : FileName.maxLength <
        (Saving.hiddenName name archive.process archive.temporaries).length) :
      Refuses archive raw (.persistence name.text .nameTooLong)
  -- A folder is where the file of the snapshot should be.
  | folder {name : SnapshotName} {entries : List (FileName × Node)}
      (hname : SnapshotName.sanitize raw = .ok name)
      (hlength : (Saving.hiddenName name archive.process archive.temporaries).length ≤
        FileName.maxLength)
      (h : archive.place.find? name.fileName = some (.folder entries)) :
      Refuses archive raw (.persistence name.text .isDirectory)

theorem failure?_eq_some_iff {archive : Archive} {raw : String} {name : SnapshotName}
    (hname : SnapshotName.sanitize raw = .ok name) {e : SnapshotError} :
    (∃ fault, archive.failure? name = some fault ∧ e = .persistence name.text fault) ↔
      archive.Refuses raw e := by
  have hsame : ∀ other, SnapshotName.sanitize raw = .ok other → name = other := by
    intro other hother
    rw [hname] at hother
    exact Except.ok.inj hother
  constructor
  · rintro ⟨fault, hfailure, rfl⟩
    rw [failure?] at hfailure
    split at hfailure
    · next old hplace =>
      cases hfailure
      exact .blocked hname hplace
    · next hplace =>
      rw [Saving.obstacle?] at hfailure
      split at hfailure
      · next hlong =>
        cases hfailure
        exact .long hname hplace hlong
      next hlength =>
      split at hfailure
      · next entries hfolder =>
        cases hfailure
        exact .folder hname (Nat.le_of_not_lt hlength) hfolder
      · cases hfailure
  · intro h
    cases h with
    | name h =>
      obtain ⟨e, he⟩ := SnapshotName.sanitize_eq_error_iff.2 h
      rw [hname] at he
      cases he
    | blocked hother hplace =>
      cases hsame _ hother
      exact ⟨_, by rw [failure?, hplace], rfl⟩
    | long hother hunblocked hlong =>
      cases hsame _ hother
      refine ⟨_, ?_, rfl⟩
      rw [failure?_of_unblocked hunblocked, Saving.obstacle?, if_pos hlong]
    | folder hother hlength hfolder =>
      cases hsame _ hother
      refine ⟨_, ?_, rfl⟩
      have hunblocked : archive.place.Unblocked := by
        intro old hplace
        rw [hplace] at hfolder
        cases hfolder
      rw [failure?_of_unblocked hunblocked, Saving.obstacle?, if_neg (Nat.not_lt_of_le hlength),
        hfolder]

/-- A save that fails says why. -/
theorem save_eq_error_iff {archive : Archive} {raw : String} (contents : String)
    (hfresh : ∀ name, SnapshotName.sanitize raw = .ok name → archive.place.find?
      (Saving.hiddenName name archive.process archive.temporaries) = none) (e : SnapshotError) :
    (archive.save raw contents).2 = .error e ↔ archive.Refuses raw e := by
  cases hname : SnapshotName.sanitize raw with
  | error refusal =>
    rw [save_of_refused hname, Except.error.injEq]
    constructor
    · rintro rfl
      obtain rfl := SnapshotName.eq_invalidName_of_sanitize hname
      exact .name (SnapshotName.sanitize_eq_error_iff.1 ⟨_, hname⟩)
    · intro h
      cases h with
      | name => exact SnapshotName.eq_invalidName_of_sanitize hname
      | blocked hother => exact absurd (hname.symm.trans hother) nofun
      | long hother => exact absurd (hname.symm.trans hother) nofun
      | folder hother => exact absurd (hname.symm.trans hother) nofun
  | ok name =>
    obtain ⟨after, s, -, -, hsave⟩ := save_eq_of_complete contents hname (hfresh name hname)
    rw [hsave, ← failure?_eq_some_iff hname]
    cases archive.failure? name with
    | none => simp only [reduceCtorEq, false_and, exists_false]
    | some fault => simp only [Except.error.injEq, Option.some.injEq, exists_eq_left', eq_comm]

/-- What a save of a name that is not refused has done. -/
theorem touched_of_save {archive : Archive} {raw : String} {name : SnapshotName}
    (contents : String) (hname : SnapshotName.sanitize raw = .ok name)
    (hfresh : archive.place.find?
      (Saving.hiddenName name archive.process archive.temporaries) = none) :
    Touched archive (archive.save raw contents).1 name (Utf8.encode contents)
      (archive.failure? name) := by
  obtain ⟨after, s, hcomplete, hover, hsave⟩ := save_eq_of_complete contents hname hfresh
  rw [hsave]
  exact touched_of_writing hfresh hcomplete hover

/-- A save touches one entry or nothing, if no entry bears the name of the hidden file. If it
    fails then it says why, and every entry is as it was. If it succeeds then its answer is the
    path of the snapshot's file, this entry is a regular file with the contents, and everything
    else is as it was. The same holds if requests are refused on the way. -/
theorem touched_by_save {archive : Archive} {raw : String} (contents : String)
    (hfresh : ∀ name, SnapshotName.sanitize raw = .ok name → archive.place.find?
      (Saving.hiddenName name archive.process archive.temporaries) = none) :
    (∀ e, (archive.save raw contents).2 = .error e ↔ archive.Refuses raw e) ∧
    (∀ e, (archive.save raw contents).2 = .error e →
      Spared archive (archive.save raw contents).1) ∧
    (∀ path, (archive.save raw contents).2 = .ok path →
      ∃ name, SnapshotName.sanitize raw = .ok name ∧
        path = (if archive.path.toList.getLast?.all (· = '/') then
            archive.path ++ (name.text ++ ".preset")
          else archive.path ++ "/" ++ (name.text ++ ".preset")) ∧
        Replaced archive (archive.save raw contents).1 (Utf8.encode (name.text ++ ".preset"))
          (Utf8.encode contents)) ∧
    (∀ name (replies : List Saving.Reply) after s fault, SnapshotName.sanitize raw = .ok name →
      replies.foldl (fun (archive, s) reply => Saving.step archive s reply)
        (archive, .start name (Utf8.encode contents)) = (after, s) →
      s.stage = .finished fault → Touched archive after name (Utf8.encode contents) fault) := by
  refine ⟨save_eq_error_iff contents hfresh, fun e herror => ?_, fun path hok => ?_,
    fun name replies after s fault hname hrun hover =>
      touched_of_writing (hfresh name hname) hrun hover⟩
  · cases hname : SnapshotName.sanitize raw with
    | error refusal =>
      rw [save_of_refused hname]
      exact spared_of_toDisk rfl
    | ok name =>
      obtain ⟨fault, hfailure, -⟩ := (failure?_eq_some_iff hname).2
        ((save_eq_error_iff contents hfresh e).1 herror)
      have htouched := touched_of_save contents hname (hfresh name hname)
      rw [hfailure] at htouched
      exact htouched
  · cases hname : SnapshotName.sanitize raw with
    | error refusal =>
      rw [save_of_refused hname] at hok
      cases hok
    | ok name =>
      have htouched := touched_of_save contents hname (hfresh name hname)
      obtain ⟨after, s, -, -, hsave⟩ := save_eq_of_complete contents hname (hfresh name hname)
      cases hfailure : archive.failure? name with
      | some fault =>
        rw [hsave, hfailure] at hok
        cases hok
      | none =>
        rw [hsave, hfailure] at hok
        rw [hfailure] at htouched
        exact ⟨name, rfl, (Except.ok.inj hok).symm.trans (archive.pathFor_text name), htouched⟩

/-- A folder with one snapshot in it and, where the file of another should be, a symbolic link
    to the first. -/
def linkedShelf : Archive :=
  let old : Folder := Table.empty.insert oldShow.fileName (.file (Utf8.encode "o:1\n"))
  .ofDisk "presets" { place := .folder (old.insert newShow.fileName (.link oldShow.fileName)) } 1000

theorem find?_linkedShelf (file : FileName) : linkedShelf.place.find? file =
    if file = newShow.fileName then some (.link oldShow.fileName) else shelf.place.find? file :=
  Table.get?_insert _ newShow.fileName file (Node.link oldShow.fileName)

/-- The file takes the place of the link and not of what the link leads to. -/
theorem touched_by_save_over_link :
    (∀ name, SnapshotName.sanitize "a/b" = .ok name → linkedShelf.place.find?
      (Saving.hiddenName name linkedShelf.process linkedShelf.temporaries) = none) ∧
    (linkedShelf.save "a/b" "x:1\n").2 = .ok "presets/ab.preset" ∧
    (linkedShelf.save "a/b" "x:1\n").1.place.find? newShow.fileName =
      some (.file (Utf8.encode "x:1\n")) ∧
    (linkedShelf.save "a/b" "x:1\n").1.place.find? oldShow.fileName =
      some (.file (Utf8.encode "o:1\n")) := by
  have hfresh : ∀ name, SnapshotName.sanitize "a/b" = .ok name → linkedShelf.place.find?
      (Saving.hiddenName name linkedShelf.process linkedShelf.temporaries) = none := by
    intro name _
    rw [find?_linkedShelf, if_neg (Saving.hiddenName_ne_fileName name _ _ newShow), find?_shelf,
      if_neg (Saving.hiddenName_ne_fileName name _ _ oldShow)]
  have hok : (linkedShelf.save "a/b" "x:1\n").2 = .ok "presets/ab.preset" := by decide
  obtain ⟨name, hname, -, hreplaced⟩ := (touched_by_save "x:1\n" hfresh).2.2.1 _ hok
  have hnew : SnapshotName.sanitize "a/b" = .ok newShow :=
    SnapshotName.sanitize_eq_ok_iff.2 (by decide)
  obtain rfl : newShow = name := Except.ok.inj (hnew.symm.trans hname)
  have hne : oldShow.fileName ≠ newShow.fileName := by decide
  refine ⟨hfresh, hok, hreplaced.entry, ?_⟩
  rw [hreplaced.others _ hne, find?_linkedShelf, if_neg hne, find?_shelf, if_pos rfl]

end Archive

end ShowRelay
