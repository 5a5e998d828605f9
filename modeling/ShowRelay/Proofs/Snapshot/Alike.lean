/-
  ShowRelay.Proofs.Snapshot.Alike

  What files hold and nobody can tell. Two archives are alike if the same names
  stand for the same kinds of things in their folders (`Archive.Alike`); what is
  in files, in sub-folders and in links may differ, and so may everything outside
  the folder. Of some entries it may be known that they are the same.

  Writing a snapshot goes the same way in archives that are alike, and they stay
  alike (`Archive.Alike.save`): the one file that a writing extends and renames
  is the hidden file that it has created itself. A listing tells names only.
  Loading tells what is in one file, so that this file has to be known.
-/

import Mathlib.Data.List.Sort
import ShowRelay.Proofs.Snapshot.Paths
import ShowRelay.Proofs.Snapshot.Reading

namespace ShowRelay

/-! ## Entries of the same kind -/

/-- Two entries that are both missing or of the same kind. -/
inductive Node.Alike : Option Node → Option Node → Prop where
  | missing : Alike none none
  | file (contents contents' : Bytes) : Alike (some (.file contents)) (some (.file contents'))
  | folder (entries entries' : List (FileName × Node)) :
      Alike (some (.folder entries)) (some (.folder entries'))
  | link (target target' : Bytes) : Alike (some (.link target)) (some (.link target'))

theorem Node.Alike.refl (entry : Option Node) : Node.Alike entry entry := by
  cases entry with
  | none => exact .missing
  | some node =>
    cases node with
    | file contents => exact .file contents contents
    | folder entries => exact .folder entries entries
    | link target => exact .link target target

theorem Node.Alike.file_iff {entry entry' : Option Node} (h : Node.Alike entry entry') :
    (∃ contents, entry = some (.file contents)) ↔ ∃ contents, entry' = some (.file contents) := by
  cases h with
  | file contents contents' => exact ⟨fun _ => ⟨contents', rfl⟩, fun _ => ⟨contents, rfl⟩⟩
  | _ =>
    constructor
    · rintro ⟨_, hnone⟩
      cases hnone
    · rintro ⟨_, hnone⟩
      cases hnone

/-- Two folders in which names stand for the same kinds of things, and those that are known for
    the same things. -/
structure Folder.Alike (known : FileName → Prop) (f g : Folder) : Prop where
  kinds : ∀ file, Node.Alike (f.get? file) (g.get? file)
  same : ∀ file, known file → f.get? file = g.get? file

namespace Folder

variable {known more : FileName → Prop} {f g : Folder}

/-- Two entries that are put in have to be the same only if more is to be known of them. -/
theorem Alike.insert (h : Alike known f g) {file : FileName} {node node' : Node}
    (hkind : Node.Alike (some node) (some node')) (hsame : more file → node = node')
    (hmore : ∀ other, more other → known other ∨ other = file) :
    Alike more (f.insert file node) (g.insert file node') := by
  constructor
  · intro other
    rw [Table.get?_insert, Table.get?_insert]
    split
    · exact hkind
    · exact h.kinds other
  · intro other hother
    rw [Table.get?_insert, Table.get?_insert]
    split
    · next heq => rw [hsame (heq ▸ hother)]
    · next hne => exact h.same other ((hmore other hother).resolve_right hne)

theorem Alike.erase (h : Alike known f g) (file : FileName) :
    Alike known (f.erase file) (g.erase file) := by
  constructor
  · intro other
    rw [Table.get?_erase, Table.get?_erase]
    split
    · exact .missing
    · exact h.kinds other
  · intro other hother
    rw [Table.get?_erase, Table.get?_erase]
    split
    · rfl
    · exact h.same other hother

end Folder

namespace Place

/-- Two places at which the same kind of thing stands. -/
inductive Alike (known : FileName → Prop) : Place → Place → Prop where
  | absent : Alike known absent absent
  | blocked (contents contents' : Bytes) : Alike known (blocked contents) (blocked contents')
  | folder {f g : Folder} (h : Folder.Alike known f g) : Alike known (folder f) (folder g)

/-- Two requests with the same outcome. -/
inductive Agree (known : FileName → Prop) :
    Except SystemFault Place → Except SystemFault Place → Prop where
  | refused (fault : SystemFault) : Agree known (.error fault) (.error fault)
  | done {place place' : Place} (h : Alike known place place') :
      Agree known (.ok place) (.ok place')

variable {known more : FileName → Prop} {place place' : Place}

theorem Alike.mono (h : Alike known place place') (hless : ∀ file, more file → known file) :
    Alike more place place' := by
  cases h with
  | absent => exact .absent
  | blocked contents contents' => exact .blocked contents contents'
  | folder h => exact .folder ⟨h.kinds, fun file hfile => h.same file (hless file hfile)⟩

theorem Alike.find? (h : Alike known place place') (file : FileName) :
    Node.Alike (place.find? file) (place'.find? file) := by
  cases h with
  | absent => exact .missing
  | blocked contents contents' => exact .missing
  | folder h => exact h.kinds file

theorem Alike.find?_known (h : Alike known place place') {file : FileName} (hfile : known file) :
    place.find? file = place'.find? file := by
  cases h with
  | absent => rfl
  | blocked contents contents' => rfl
  | folder h => exact h.same file hfile

/-! ## Requests -/

theorem Alike.makeFolder (h : Alike known place place') :
    Agree known place.makeFolder place'.makeFolder := by
  cases h with
  | absent => exact .done (.folder ⟨fun _ => .missing, fun _ _ => rfl⟩)
  | blocked contents contents' => exact .refused .alreadyExists
  | folder h => exact .done (.folder h)

/-- A file that was created is known: it is empty. -/
theorem Alike.create (h : Alike known place place') (file : FileName) :
    Agree (fun other => known other ∨ other = file) (place.create file) (place'.create file) := by
  cases h with
  | absent => exact .refused .notFound
  | blocked contents contents' => exact .refused .notDirectory
  | @folder f g h =>
    have hinsert : Folder.Alike (fun other => known other ∨ other = file)
        (f.insert file (.file [])) (g.insert file (.file [])) :=
      h.insert (.file [] []) (fun _ => rfl) fun _ hother => hother
    have hkind := h.kinds file
    simp only [Place.create]
    split
    · exact .refused .nameTooLong
    · -- Whether the file is created depends on what kind of thing is there.
      generalize f.get? file = entry, g.get? file = entry' at hkind ⊢
      cases hkind with
      | missing => exact .done (.folder hinsert)
      | file contents contents' => exact .done (.folder hinsert)
      | folder entries entries' => exact .refused .isDirectory
      | link target target' => exact .refused .tooManyLinks

theorem Alike.extend (h : Alike known place place') (file : FileName) (bytes : Bytes) :
    Alike known (place.extend file bytes) (place'.extend file bytes) := by
  cases h with
  | absent => exact .absent
  | blocked contents contents' => exact .blocked contents contents'
  | @folder f g h =>
    have hkind := h.kinds file
    have hsame := h.same file
    simp only [Place.extend]
    generalize f.get? file = entry, g.get? file = entry' at hkind hsame ⊢
    cases hkind with
    | missing => exact .folder h
    | file contents contents' =>
      refine .folder (h.insert (.file _ _) (fun hfile => ?_) fun _ hother => .inl hother)
      cases hsame hfile
      rfl
    | folder entries entries' => exact .folder h
    | link target target' => exact .folder h

/-- A file that is known stays known under its new name. -/
theorem Alike.rename (h : Alike known place place') {source : FileName} (hsource : known source)
    (target : FileName) :
    Agree known (place.rename source target) (place'.rename source target) := by
  cases h with
  | absent => exact .refused .notFound
  | blocked contents contents' => exact .refused .notDirectory
  | @folder f g h =>
    have hkind := h.kinds target
    have hmoved : ∀ node, Folder.Alike known ((f.erase source).insert target node)
        ((g.erase source).insert target node) := fun node =>
      (h.erase source).insert (.refl (some node)) (fun _ => rfl) fun _ hother => .inl hother
    simp only [Place.rename, h.same source hsource]
    split
    · exact .refused .nameTooLong
    · cases g.get? source with
      | none => exact .refused .notFound
      | some node =>
        generalize f.get? target = entry, g.get? target = entry' at hkind ⊢
        cases hkind with
        | missing => exact .done (.folder (hmoved node))
        | file contents contents' => exact .done (.folder (hmoved node))
        | folder entries entries' => exact .refused .isDirectory
        | link link link' => exact .done (.folder (hmoved node))

theorem Alike.remove (h : Alike known place place') (file : FileName) :
    Alike known (place.remove file) (place'.remove file) := by
  cases h with
  | absent => exact .absent
  | blocked contents contents' => exact .blocked contents contents'
  | @folder f g h =>
    have hkind := h.kinds file
    have herase := h.erase file
    simp only [Place.remove]
    generalize f.get? file = entry, g.get? file = entry' at hkind ⊢
    cases hkind with
    | missing => exact .folder herase
    | file contents contents' => exact .folder herase
    | folder entries entries' => exact .folder h
    | link target target' => exact .folder herase

end Place

/-! ## Writings -/

/-- Two archives of one process that are alike as far as names and kinds go. -/
structure Archive.Alike (known : FileName → Prop) (archive other : Archive) : Prop where
  path : archive.path = other.path
  process : archive.process = other.process
  temporaries : archive.temporaries = other.temporaries
  place : Place.Alike known archive.place other.place

variable {known more : FileName → Prop} {archive other : Archive}

theorem Archive.Alike.mono (h : archive.Alike known other)
    (hless : ∀ file, more file → known file) : archive.Alike more other :=
  { h with place := h.place.mono hless }

/-- A link in the one folder is a link in the other. -/
theorem Archive.Alike.unlinked (h : archive.Alike known other) {name : SnapshotName}
    (hlink : archive.Unlinked name) : other.Unlinked name := by
  intro target htarget
  have hkind := h.place.find? (Saving.hiddenName name archive.process archive.temporaries)
  rw [Archive.Unlinked] at hlink
  rw [← h.process, ← h.temporaries] at htarget
  rw [htarget] at hkind
  generalize archive.place.find? _ = entry at hkind hlink
  cases hkind with
  | link found => exact hlink found rfl

namespace Saving

/-- A writing that keeps to its hidden file: no link will lead it elsewhere, and from its creation
    to its renaming the file is known. -/
def Stays (known : FileName → Prop) (archive : Archive) (s : Saving) : Prop :=
  match s.stage with
  | .makingFolder | .creating => archive.Unlinked s.name
  | .writing file _ | .syncing file | .renaming file =>
    known file ∧ ∃ contents, archive.place.find? file = some (.file contents)
  | .removing _ _ | .finished _ => True

/-- A request goes the same way. What is known stays known, and so does the hidden file from its
    creation on. -/
theorem alike_of_step (h : archive.Alike known other) {s : Saving} (hstays : s.Stays known archive)
    (reply : Reply) :
    (step archive s reply).2 = (step other s reply).2 ∧
      ∃ more : FileName → Prop, (∀ file, known file → more file) ∧
        (step archive s reply).2.Stays more (step archive s reply).1 ∧
        (step archive s reply).1.Alike more (step other s reply).1 := by
  obtain ⟨name, contents, stage⟩ := s
  cases stage with
  | makingFolder =>
    cases reply with
    | refuse fault => exact ⟨rfl, known, fun _ => id, trivial, h⟩
    | grant piece =>
      have hmade := h.place.makeFolder
      have hentries := fun place (hplace : archive.place.makeFolder = .ok place) =>
        Place.find?_of_makeFolder hplace
      simp only [step]
      generalize archive.place.makeFolder = made, other.place.makeFolder = made' at hmade hentries ⊢
      cases hmade with
      | refused fault => exact ⟨rfl, known, fun _ => id, trivial, h⟩
      | done hplace =>
        refine ⟨rfl, known, fun _ => id, ?_, { h with place := hplace }⟩
        intro target htarget
        exact hstays target ((hentries _ rfl _).symm.trans htarget)
  | creating =>
    have hlink : archive.Unlinked name := hstays
    have hcreate := Disk.create_eq hlink
    have hcreate' := Disk.create_eq (h.unlinked hlink)
    have hname : hiddenName name other.process other.temporaries =
        hiddenName name archive.process archive.temporaries := by
      rw [h.process, h.temporaries]
    have hcount : archive.temporaries + 1 = other.temporaries + 1 := by rw [h.temporaries]
    rw [hname] at hcreate'
    simp only [step, hname, hcreate, hcreate']
    generalize hiddenName name archive.process archive.temporaries = hidden
    cases reply with
    | refuse fault => exact ⟨rfl, known, fun _ => id, trivial, { h with temporaries := hcount }⟩
    | grant piece =>
      have hmade := h.place.create hidden
      have hentries := fun place (hplace : archive.place.create hidden = .ok place) =>
        (Place.find?_create hplace).2 hidden
      simp only
      generalize archive.place.create hidden = made, other.place.create hidden = made'
        at hmade hentries ⊢
      cases hmade with
      | refused fault => exact ⟨rfl, known, fun _ => id, trivial, { h with temporaries := hcount }⟩
      | done hplace =>
        exact ⟨rfl, fun file => known file ∨ file = hidden, fun _ => .inl,
          ⟨.inr rfl, [], (hentries _ rfl).trans (if_pos rfl)⟩,
          { h with place := hplace, temporaries := hcount }⟩
  | writing hidden rest =>
    obtain ⟨hknown, written, hentry⟩ := hstays
    cases reply with
    | refuse fault => exact ⟨rfl, known, fun _ => id, trivial, h⟩
    | grant piece =>
      have hplace := h.place.extend hidden (rest.take piece)
      have hentry' : other.place.find? hidden = some (.file written) :=
        (h.place.find?_known hknown).symm.trans hentry
      have hextend := Disk.extend_eq (Place.not_link_of_file hentry) (rest.take piece)
      have hextend' := Disk.extend_eq (Place.not_link_of_file hentry') (rest.take piece)
      have hextended : (archive.place.extend hidden (rest.take piece)).find? hidden = _ :=
        ((Place.find?_extend hentry (rest.take piece)).2 hidden).trans (if_pos rfl)
      simp only [step, hextend, hextend']
      split
      · exact ⟨rfl, known, fun _ => id, ⟨hknown, _, hextended⟩, { h with place := hplace }⟩
      · exact ⟨rfl, known, fun _ => id, ⟨hknown, _, hextended⟩, { h with place := hplace }⟩
  | syncing hidden =>
    cases reply with
    | refuse fault => exact ⟨rfl, known, fun _ => id, trivial, h⟩
    | grant piece => exact ⟨rfl, known, fun _ => id, hstays, h⟩
  | «renaming» hidden =>
    cases reply with
    | refuse fault => exact ⟨rfl, known, fun _ => id, trivial, h⟩
    | grant piece =>
      have hmade := h.place.rename hstays.1 name.fileName
      simp only [step]
      generalize archive.place.rename hidden name.fileName = made,
        other.place.rename hidden name.fileName = made' at hmade ⊢
      cases hmade with
      | refused fault => exact ⟨rfl, known, fun _ => id, trivial, h⟩
      | done hplace => exact ⟨rfl, known, fun _ => id, trivial, { h with place := hplace }⟩
  | removing hidden fault =>
    exact ⟨rfl, known, fun _ => id, trivial, { h with place := h.place.remove hidden }⟩
  | finished fault => exact ⟨rfl, known, fun _ => id, trivial, h⟩

/-- So does a whole writing, whatever is refused. -/
theorem alike_of_foldl (h : archive.Alike known other) {s : Saving} (hstays : s.Stays known archive)
    (replies : List Reply) :
    (replies.foldl (fun (archive, s) reply => step archive s reply) (archive, s)).2 =
        (replies.foldl (fun (archive, s) reply => step archive s reply) (other, s)).2 ∧
      (replies.foldl (fun (archive, s) reply => step archive s reply) (archive, s)).1.Alike known
        (replies.foldl (fun (archive, s) reply => step archive s reply) (other, s)).1 := by
  induction replies generalizing archive other s known with
  | nil => exact ⟨rfl, h⟩
  | cons reply replies ih =>
    obtain ⟨hsame, more, hmore, hnext, halike⟩ := alike_of_step h hstays reply
    obtain ⟨hrest, hlast⟩ := ih halike hnext
    simp only [List.foldl_cons]
    rw [← Prod.eta (step other s reply), ← hsame]
    exact ⟨hrest, hlast.mono hmore⟩

end Saving

/-! ## Saving, loading and listing -/

namespace Archive

/-- Saving has the same result, whatever files hold and whatever is refused. -/
theorem Alike.saveWith (h : archive.Alike known other) (replies : List Saving.Reply)
    {name : String} (hlink : ∀ clean, SnapshotName.sanitize name = .ok clean →
      archive.Unlinked clean) (contents : String) :
    (archive.saveWith replies name contents).2 = (other.saveWith replies name contents).2 ∧
      (archive.saveWith replies name contents).1.Alike known
        (other.saveWith replies name contents).1 := by
  cases hclean : SnapshotName.sanitize name with
  | error e =>
    simp only [Archive.saveWith, hclean]
    exact ⟨trivial, h⟩
  | ok clean =>
    obtain ⟨after, saving, fault, hcomplete, hover, hsave⟩ :=
      exists_of_saveWith hclean archive replies contents
    obtain ⟨after', saving', fault', hcomplete', hover', hsave'⟩ :=
      exists_of_saveWith hclean other replies contents
    have hstays : (Saving.start clean (Utf8.encode contents)).Stays known archive :=
      hlink clean hclean
    have hboth :
        (Saving.completeWith archive (.start clean (Utf8.encode contents)) replies).2 =
          (Saving.completeWith other (.start clean (Utf8.encode contents)) replies).2 ∧
        (Saving.completeWith archive (.start clean (Utf8.encode contents)) replies).1.Alike known
          (Saving.completeWith other (.start clean (Utf8.encode contents)) replies).1 :=
      Saving.alike_of_foldl h hstays _
    rw [hcomplete, hcomplete'] at hboth
    obtain ⟨rfl, hlast⟩ := hboth
    have hpath : after.pathFor clean.text = after'.pathFor clean.text := by
      rw [pathFor, pathFor, hlast.path]
    cases hover.symm.trans hover'
    rw [hsave, hsave', hpath]
    exact ⟨rfl, hlast⟩

/-- Loading tells what is in one file and nothing else, if that is no symbolic link. -/
theorem Alike.load (h : archive.Alike known other) {raw : String}
    (hraw : ∀ name, SnapshotName.sanitize raw = .ok name → known name.fileName ∧
      ∀ target, archive.place.find? name.fileName ≠ some (.link target)) :
    archive.load raw = other.load raw := by
  cases hname : SnapshotName.sanitize raw with
  | error e => simp only [Archive.load, hname, bind, Except.bind]
  | ok name =>
    obtain ⟨hknown, hlink⟩ := hraw name hname
    have hentry := h.place.find?_known hknown
    have hlink' : ∀ target, other.place.find? name.fileName ≠ some (.link target) := by
      rw [← hentry]
      exact hlink
    have hread : archive.read name.fileName = other.read name.fileName := by
      rw [Disk.read_direct name.direct_fileName hlink, Disk.read_direct name.direct_fileName hlink']
      have hplace := h.place
      generalize archive.place = place, other.place = place' at hentry hplace ⊢
      cases hplace with
      | absent => rfl
      | blocked contents contents' => rfl
      | @folder f g hfolder =>
        have hsame : f.get? name.fileName = g.get? name.fileName := hentry
        simp only [hsame]
    simp only [Archive.load, hname, bind, Except.bind, hread]

/-- A listing tells the names of files and not what is in them. -/
theorem Alike.list (h : archive.Alike known other) : archive.list = other.list := by
  have hplace := h.place
  by_cases hblocked : archive.place.Unblocked
  · have hother : other.place.Unblocked := by
      intro contents heq
      rw [heq] at hplace
      generalize archive.place = place at hplace hblocked
      cases hplace with
      | blocked contents contents' => exact hblocked contents rfl
    obtain ⟨names, hnames, hsorted, hlisted⟩ := list_eq_ok hblocked
    obtain ⟨names', hnames', hsorted', hlisted'⟩ := list_eq_ok hother
    have hsame : names = names' := by
      refine hsorted.eq_of_mem_iff hsorted' fun listed => ?_
      rw [hlisted, hlisted', (hplace.find? _).file_iff]
    rw [hnames, hnames', hsame]
  · simp only [Archive.list]
    generalize archive.place = place, other.place = place' at hplace hblocked ⊢
    cases hplace with
    | absent => rfl
    | blocked contents contents' => rfl
    | @folder f g hfolder => exact absurd (Place.unblocked_folder f) hblocked

end Archive

end ShowRelay
