/-
  ShowRelay.Proofs.Http.Serving

  What the URLs below `/s/` are answered with. The answer depends on the text that
  the last part of the path was written for, and neither on the way in which it was
  written nor on what follows the path: it is found in the archive under the name
  that the text has before its ending (`Http.answer_of_writes`). A snapshot that was
  saved is therefore served under all URLs of its name, and with what was saved.

  The paths of the state and of the listing are not in the way. The one differs in
  its third character, and the other has nothing where these have the text.
-/

import ShowRelay.Proofs.Http.Escaping
import ShowRelay.Proofs.Snapshot.Returning

namespace ShowRelay

namespace Http

/-! ## Answers -/

/-- What a name that is asked for is answered with. -/
theorem snapshot_fst (archive : Archive) (name : String) :
    (snapshot archive name).1 = match archive.load name with
      | .ok text => ⟨200, text⟩
      | .error (.notFound _) => ⟨404, "not found\n"⟩
      | .error (.invalidName _) => ⟨404, "not found\n"⟩
      | .error (.persistence _ _) => ⟨500, "snapshot read failed\n"⟩ := by
  rw [snapshot]
  cases archive.load name with
  | ok text => rfl
  | error e =>
    cases e with
    | notFound other => rfl
    | invalidName other => rfl
    | persistence other fault => rfl

theorem dropBack?_of_other {file : String} (h : ∀ name, file ≠ name ++ ".preset") :
    Text.dropBack? SnapshotName.ending.toList file.toList = none := by
  rw [Option.eq_none_iff_forall_ne_some]
  intro stem hstem
  apply h (String.ofList stem)
  rw [← String.toList_inj, Text.dropBack?_eq_some_iff.1 hstem, String.toList_append,
    String.toList_ofList]
  rfl

/-- A request for a text, however it is written into the URL and whatever follows. A text
    without the ending of a snapshot is not found. Any other is answered as the archive answers
    the name before the ending: with the text of the snapshot, not at all, or with the word that
    it cannot be read. If the archive has just saved a snapshot under this name, or under any
    with the same reduction, then the answer is what was saved, unless a link in the place of the
    hidden file led to the snapshot itself. -/
theorem answer_of_writes (store : Store) (archive : Archive) {file segment trailer : String}
    (hfile : file ≠ "") (hwrites : Writes segment.toList (Utf8.encode file))
    (hpath : ∀ c ∈ segment.toList, c ≠ '?' ∧ c ≠ '#') (htrailer : Trailer trailer) :
    let answer := (route store archive ⟨"GET", "/s/" ++ segment ++ trailer⟩).1
    ((∀ name, file ≠ name ++ ".preset") → answer = ⟨404, "not found\n"⟩) ∧
    (∀ name, file = name ++ ".preset" → answer = match archive.load name with
      | .ok text => ⟨200, text⟩
      | .error (.notFound _) => ⟨404, "not found\n"⟩
      | .error (.invalidName _) => ⟨404, "not found\n"⟩
      | .error (.persistence _ _) => ⟨500, "snapshot read failed\n"⟩) ∧
    ∀ (before : Archive) (replies : List Saving.Reply) (name raw : String)
      (clean : SnapshotName) (contents path : String), file = name ++ ".preset" →
      SnapshotName.sanitize name = .ok clean → SnapshotName.sanitize raw = .ok clean →
      before.saveWith replies raw contents = (archive, .ok path) →
      answer = if before.Returns clean then ⟨500, "snapshot read failed\n"⟩
        else ⟨200, contents⟩ := by
  intro answer
  have hsegment := ne_empty_of_writes hwrites hfile
  have hroute : route store archive ⟨"GET", "/s/" ++ segment ++ trailer⟩ = _ :=
    route_of_segment store archive hsegment hpath htrailer
  rw [requestedName?_of_writes hwrites] at hroute
  have hnamed : ∀ name, file = name ++ ".preset" → answer = (snapshot archive name).1 := by
    rintro name rfl
    have hstem : Text.dropBack? SnapshotName.ending.toList (name ++ ".preset").toList =
        some name.toList := dropBack?_ending name
    rw [hstem, Option.map_some, String.ofList_toList] at hroute
    exact congrArg Prod.fst hroute
  refine ⟨fun hother => ?_, fun name hname => ?_, ?_⟩
  · rw [dropBack?_of_other hother, Option.map_none] at hroute
    exact congrArg Prod.fst hroute
  · rw [hnamed name hname, snapshot_fst]
  · intro before replies name raw clean contents path hname hclean hraw hsave
    have hload : archive.load name = archive.load raw := by
      rw [Archive.load, Archive.load, hclean, hraw]
    rw [hnamed name hname, snapshot_fst, hload, Archive.load_of_save hraw hsave]
    by_cases hreturns : before.Returns clean
    · simp only [if_pos hreturns]
    · simp only [if_neg hreturns]

/-- The archive that one save leaves in an empty folder. -/
def opened : Archive :=
  ((Archive.ofDisk "presets" { place := .absent } 1).save "My Show!" "x:1\n").1

/-- A snapshot is served under a name that is written with escapes, with a query after it. -/
theorem answer_of_spelling :
    (Archive.ofDisk "presets" { place := .absent } 1).save "My Show!" "x:1\n" =
      (opened, .ok "presets/My Show.preset") ∧
    (route Store.blank opened ⟨"GET", "/s/M%79%20Show%2Epreset" ++ "?t=1"⟩).1 =
      ⟨200, "x:1\n"⟩ := by
  have hsave : (Archive.ofDisk "presets" { place := .absent } 1).save "My Show!" "x:1\n" =
      (opened, .ok "presets/My Show.preset") := rfl
  have hwrites : Writes "M%79%20Show%2Epreset".toList (Utf8.encode "My Show.preset") :=
    .kept 'M' (by decide) <| .escaped 0x79 '7' '9' rfl rfl <| .escaped 0x20 '2' '0' rfl rfl <|
      (writes_encode (s := "Show") (by decide)).append <| .escaped 0x2E '2' 'E' rfl rfl <|
        writes_encode (s := "preset") (by decide)
  have hpath : ∀ c ∈ "M%79%20Show%2Epreset".toList, c ≠ '?' ∧ c ≠ '#' :=
    List.all_iff_forall_prop.1 (by decide)
  obtain ⟨clean, hclean⟩ : ∃ clean, SnapshotName.sanitize "My Show!" = .ok clean := ⟨_, rfl⟩
  have hsame : SnapshotName.sanitize "My Show" = SnapshotName.sanitize "My Show!" := by decide
  have hserved := (answer_of_writes Store.blank opened (by decide) hwrites hpath (.query "t=1")).2.2
    _ [] "My Show" "My Show!" clean _ _ rfl (hsame.trans hclean) hclean hsave
  rw [if_neg (Archive.not_returns_of_unlinked (Archive.unlinked_of_fresh rfl))] at hserved
  exact ⟨hsave, hserved⟩

/-- An archive with a link in the place of the first hidden file, which leads to where the
    snapshot will be. -/
def looped : Archive :=
  Archive.ofDisk "presets"
    { place := .folder (Table.empty.insert letterHidden (.link letter.fileName)) } 1

/-- A snapshot that was saved through a link to its own file is not served. -/
theorem not_served_of_link : ∃ after, looped.save "a" "x:1\n" = (after, .ok "presets/a.preset") ∧
    (route Store.blank after ⟨"GET", "/s/a.preset"⟩).1 = ⟨500, "snapshot read failed\n"⟩ := by
  have hname : SnapshotName.sanitize "a" = .ok letter := rfl
  have hentry : looped.place.find? letterHidden = some (.link letter.fileName) := rfl
  have hdiverts : looped.Diverts letterHidden (looped.placePath ++ [letter.fileName]) :=
    Disk.diverts_of_link rfl (Saving.direct_hiddenName letter 1 0) (by decide)
      letter.direct_fileName (by decide) rfl nofun
  obtain ⟨after, hsave⟩ := Archive.save_of_diverts hname hdiverts (by decide) nofun "x:1\n"
  have hload := Archive.load_of_save hname hsave
  rw [if_pos (Archive.returns_of_loop hentry (by decide) (by decide))] at hload
  have hroute : route Store.blank after ⟨"GET", "/s/a.preset"⟩ = snapshot after "a" := rfl
  refine ⟨after, hsave, ?_⟩
  rw [hroute, snapshot_fst, hload]

end Http

end ShowRelay
