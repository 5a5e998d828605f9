/-
  ShowRelay.Proofs.Snapshot.Listing

  Whether what is listed can be had. The listing shows every regular file that
  ends as snapshots do, by whatever means it got into the folder, and takes its
  name as it is; loading reduces the name that it is given. The two agree about a
  file if its name is a reduced one, and then the file is served under every
  escaped form of the name (`Archive.load_of_listed`).

  They do not agree about other files. Under a listed name that is not reduced the
  file itself is never loaded, but possibly another one that has the reduced name
  (`Archive.not_own_text_of_underscore`).
-/

import ShowRelay.Proofs.Http.Escaping
import ShowRelay.Proofs.Snapshot.Entries

namespace ShowRelay

namespace SnapshotName

instance (c : Char) : Decidable (Allowed c) := decidable_of_iff _ (keeps_iff c)

/-- A name that a snapshot may have, from a text of which everything may be kept. -/
theorem sanitize_of_allowed {listed : String} (hne : listed ≠ "")
    (h : ∀ c ∈ listed.toList, Allowed c) :
    ∃ name : SnapshotName, sanitize listed = .ok name ∧ name.text = listed := by
  let name : SnapshotName := ⟨listed, hne, fun c hc => (keeps_iff c).2 (h c hc)⟩
  exact ⟨name, sanitize_text name, rfl⟩

/-- What is left of a text is another one if something of it may not be kept. -/
theorem text_ne_of_sanitize {listed : String} {name : SnapshotName}
    (h : sanitize listed = .ok name) {c : Char} (hc : c ∈ listed.toList) (hnot : ¬ Allowed c) :
    name.text ≠ listed := by
  rintro rfl
  exact hnot ((keeps_iff c).1 (name.kept c hc))

end SnapshotName

namespace Archive

/-- Loading depends on what is left of a name only. -/
theorem load_eq_load_text {archive : Archive} {raw : String} {name : SnapshotName}
    (h : SnapshotName.sanitize raw = .ok name) : archive.load raw = archive.load name.text := by
  rw [load, load, h, SnapshotName.sanitize_text]

/-- The contents of a file as the text of a snapshot, if they are text. -/
def textOf (name : String) (bytes : Bytes) : Except SnapshotError String :=
  match Utf8.decode? bytes with
  | some text => .ok text
  | none => .error (.persistence name .notText)

/-- A listed name is that of a regular file. -/
theorem find?_of_listed {archive : Archive} {names : List String} {listed : String}
    (hlist : archive.list = .ok names) (hmem : listed ∈ names) :
    archive.place.Unblocked ∧ listed ≠ "" ∧ ∃ bytes,
      archive.place.find? (Utf8.encode (listed ++ SnapshotName.ending)) = some (.file bytes) := by
  have hunblocked : archive.place.Unblocked := by
    intro contents hplace
    rw [list, hplace] at hlist
    cases hlist
  obtain ⟨found, hfound, -, hnames⟩ := list_eq_ok hunblocked
  rw [hlist] at hfound
  cases hfound
  exact ⟨hunblocked, (hnames listed).1 hmem⟩

/-- A snapshot's file with a reduced name is loaded. -/
theorem load_of_find? {archive : Archive} {name : SnapshotName} {bytes : Bytes}
    (hunblocked : archive.place.Unblocked)
    (hfile : archive.place.find? name.fileName = some (.file bytes))
    (hlength : name.fileName.length ≤ FileName.maxLength) :
    archive.load name.text = textOf name.text bytes := by
  have hlink : ∀ target, archive.place.find? name.fileName ≠ some (.link target) := by
    intro target htarget
    rw [hfile] at htarget
    cases htarget
  rw [load_eq (SnapshotName.sanitize_text name) hunblocked hlink hlength, hfile]
  rfl

/-- However a name is written into a URL, a request for its file is answered with what there is
    of the snapshot. -/
theorem route_of_name (store : Store) (archive : Archive) {segment name : String}
    (h : Http.Writes segment.toList (Utf8.encode name))
    (hpath : ∀ c ∈ segment.toList, c ≠ '?' ∧ c ≠ '#') :
    Http.route store archive ⟨"GET", "/s/" ++ (segment ++ ".preset")⟩ =
      Http.snapshot archive name := by
  refine Http.route_of_writes store archive ?_ ?_
  · rw [String.toList_append, Utf8.encode_append]
    exact h.append (Http.writes_encode (by decide))
  · intro c hc
    rw [String.toList_append] at hc
    rcases List.mem_append.1 hc with hc | hc
    · exact hpath c hc
    · have hending : ∀ c ∈ ".preset".toList, c ≠ '?' ∧ c ≠ '#' :=
        List.all_iff_forall_prop.1 (by decide)
      exact hending c hc

/-- A name gives the contents of a file, loaded as well as over HTTP. -/
structure Gives (store : Store) (archive : Archive) (name : String) (bytes : Bytes) : Prop where
  -- The name is a reduced one.
  reduced : ∃ clean : SnapshotName, SnapshotName.sanitize name = .ok clean ∧ clean.text = name
  loaded : archive.load name = textOf name bytes
  -- It may be written into the URL in any way.
  served : ∀ segment : String, Http.Writes segment.toList (Utf8.encode name) →
    (∀ c ∈ segment.toList, c ≠ '?' ∧ c ≠ '#') →
      (Http.route store archive ⟨"GET", "/s/" ++ (segment ++ ".preset")⟩).1 =
        match Utf8.decode? bytes with
        | some text => .ok text
        | none => .readFailed

theorem gives_of_load {archive : Archive} {name : SnapshotName} {bytes : Bytes} (store : Store)
    (h : archive.load name.text = textOf name.text bytes) :
    Gives store archive name.text bytes := by
  refine ⟨⟨name, SnapshotName.sanitize_text name, rfl⟩, h, fun segment hwrites hpath => ?_⟩
  rw [route_of_name store archive hwrites hpath, Http.snapshot, h, textOf]
  cases Utf8.decode? bytes with
  | none => rfl
  | some text => rfl

/-- Every name that is listed, in any folder that a file system can hold, is the name of a
    regular file, and gives the contents of that file if and only if all of its characters may
    be kept. Otherwise the name is refused, or it is loaded from the file of another name. -/
theorem load_of_listed {archive : Archive}
    (hshort : ∀ file node, archive.place.find? file = some node →
      file.length ≤ FileName.maxLength)
    {names : List String} (hlist : archive.list = .ok names) {listed : String}
    (hmem : listed ∈ names) (store : Store) :
    ∃ bytes,
      archive.place.find? (Utf8.encode (listed ++ SnapshotName.ending)) = some (.file bytes) ∧
      ((∀ c ∈ listed.toList, SnapshotName.Allowed c) ↔ Gives store archive listed bytes) ∧
      ((∃ c ∈ listed.toList, ¬ SnapshotName.Allowed c) →
        match SnapshotName.sanitize listed with
        | .error e => archive.load listed = .error e
        | .ok name => name.fileName ≠ Utf8.encode (listed ++ SnapshotName.ending) ∧
          archive.load listed = archive.load name.text) := by
  obtain ⟨hunblocked, hne, bytes, hfile⟩ := find?_of_listed hlist hmem
  refine ⟨bytes, hfile, ⟨fun hallowed => ?_, fun hgives => ?_⟩, ?_⟩
  · obtain ⟨name, -, rfl⟩ := SnapshotName.sanitize_of_allowed hne hallowed
    exact gives_of_load store (load_of_find? hunblocked hfile (hshort _ _ hfile))
  · obtain ⟨name, -, rfl⟩ := hgives.reduced
    exact fun c hc => (SnapshotName.keeps_iff c).1 (name.kept c hc)
  · rintro ⟨c, hc, hnot⟩
    split
    · next e he =>
      rw [load, he]
      rfl
    · next name hname =>
      refine ⟨fun hsame => ?_, load_eq_load_text hname⟩
      have htext := Utf8.encode_injective hsame
      rw [SnapshotName.fileText, ← String.toList_inj, String.toList_append, String.toList_append,
        List.append_cancel_right_eq, String.toList_inj] at htext
      exact SnapshotName.text_ne_of_sanitize hname hc hnot htext

/-- An archive whose folder holds some files, by whatever means they got there. -/
def holding (files : List (String × String)) : Archive :=
  let folder : Folder := Table.empty.insertAll
    (files.map fun file => (Utf8.encode file.1, .file (Utf8.encode file.2)))
  .ofDisk "presets" { place := .folder folder } 1

theorem length_of_holding {files : List (String × String)}
    (h : ∀ file ∈ files, (Utf8.encode file.1).length ≤ FileName.maxLength) (file : FileName)
    (node : Node) (hentry : (holding files).place.find? file = some node) :
    file.length ≤ FileName.maxLength := by
  have hget : (Table.empty.insertAll (files.map fun file =>
      (Utf8.encode file.1, Node.file (Utf8.encode file.2)))).get? file = some node := hentry
  rw [Table.get?_insertAll, Table.get?_empty, Option.or_none] at hget
  obtain ⟨held, hheld, heq⟩ := List.mem_map.1 (Entries.mem_of_last? hget)
  cases heq
  exact h held hheld

/-- A file with a space in its name, which is written into the URL as an escape. -/
theorem load_of_listed_space :
    (holding [("My Show.preset", "x:1\n")]).list = .ok ["My Show"] ∧
      (holding [("My Show.preset", "x:1\n")]).load "My Show" = .ok "x:1\n" ∧
      (Http.route Store.blank (holding [("My Show.preset", "x:1\n")])
        ⟨"GET", "/s/My%20Show.preset"⟩).1 = .ok "x:1\n" := by
  have hlist : (holding [("My Show.preset", "x:1\n")]).list = .ok ["My Show"] := rfl
  obtain ⟨bytes, hfile, hgives, -⟩ :=
    load_of_listed (length_of_holding (by decide)) hlist List.mem_cons_self Store.blank
  have hbytes : bytes = Utf8.encode "x:1\n" := by
    have hentry : (holding [("My Show.preset", "x:1\n")]).place.find?
        (Utf8.encode ("My Show" ++ SnapshotName.ending)) =
          some (.file (Utf8.encode "x:1\n")) := rfl
    rw [hentry, Option.some.injEq, Node.file.injEq] at hfile
    exact hfile.symm
  have hwrites : Http.Writes "My%20Show".toList (Utf8.encode "My Show") :=
    (Http.writes_encode (s := "My") (by decide)).append
      (.escaped 0x20 '2' '0' rfl rfl (Http.writes_encode (s := "Show") (by decide)))
  have hpath : ∀ c ∈ "My%20Show".toList, c ≠ '?' ∧ c ≠ '#' :=
    List.all_iff_forall_prop.1 (by decide)
  obtain ⟨-, hloaded, hserved⟩ := hgives.1 (List.all_iff_forall_prop.1 (by decide))
  subst hbytes
  refine ⟨hlist, hloaded.trans ?_, (hserved "My%20Show" hwrites hpath).trans ?_⟩
  · rw [textOf, Utf8.decode?_encode]
  · rw [Utf8.decode?_encode]

/-- A file that is listed under a name that may not be kept as it is, next to the file of the
    name that is left of it: the listed name loads the other file. -/
theorem not_own_text_of_underscore :
    (holding [("a_b.preset", "x:1\n"), ("ab.preset", "x:2\n")]).list = .ok ["a_b", "ab"] ∧
      (∀ name, SnapshotName.sanitize "a_b" = .ok name → name.text ≠ "a_b") ∧
      (holding [("a_b.preset", "x:1\n"), ("ab.preset", "x:2\n")]).load "a_b" = .ok "x:2\n" := by
  refine ⟨rfl, fun name hname => ?_, ?_⟩
  · exact SnapshotName.text_ne_of_sanitize hname (c := '_') (by decide) (by decide)
  · let other : SnapshotName := ⟨"ab", by decide, List.all_eq_true.1 (by decide)⟩
    have hother : SnapshotName.sanitize "a_b" = .ok other :=
      SnapshotName.sanitize_eq_ok_iff.2 (by decide)
    have hfile : (holding [("a_b.preset", "x:1\n"), ("ab.preset", "x:2\n")]).place.find?
        other.fileName = some (.file (Utf8.encode "x:2\n")) := rfl
    rw [load_eq_load_text hother, load_of_find? (Place.unblocked_folder _) hfile (by decide),
      textOf, Utf8.decode?_encode]

end Archive

end ShowRelay
