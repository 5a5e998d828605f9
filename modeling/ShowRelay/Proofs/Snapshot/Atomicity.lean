/-
  ShowRelay.Proofs.Snapshot.Atomicity

  Any number of snapshots written side by side. A workshop is a folder with all
  calls that write to it, and its turns let one call begin or let one of them make
  its next request; each request may be refused, except the removal at the end.

  Whoever looks into the folder between two turns finds of every snapshot what was
  last renamed into its place (`Workshop.atomic`). Two facts carry this: a hidden
  file belongs to one call only, whose writing it reflects (`Saving.Intact`), and a
  request touches nothing but that file until it renames it (`Saving.Outcome`).
-/

import Mathlib.Data.List.Induction
import ShowRelay.Proofs.Snapshot.Entries

namespace ShowRelay

/-! ## One request -/

namespace Saving

/-- The hidden file of a writing, from its naming to its renaming or removal. -/
def hidden? (s : Saving) : Option FileName :=
  match s.stage with
  | .writing hidden _ => some hidden
  | .syncing hidden => some hidden
  | .renaming hidden => some hidden
  | .removing hidden _ => some hidden
  | _ => none

/-- The hidden file holds what has been written so far; to be removed, it is no folder. -/
def Intact (place : Place) (s : Saving) : Prop :=
  match s.stage with
  | .writing hidden rest => ∃ written, place.find? hidden = some (.file written) ∧
      written ++ rest = s.contents
  | .syncing hidden => place.find? hidden = some (.file s.contents)
  | .renaming hidden => place.find? hidden = some (.file s.contents)
  | .removing hidden _ => ∀ entries, place.find? hidden ≠ some (.folder entries)
  | _ => True

/-- No entry has the name that the hidden file is about to get. -/
def Fresh (archive : Archive) (s : Saving) : Prop :=
  archive.place.find? (hiddenName s.name archive.process archive.temporaries) = none

/-- Nothing but the hidden file matters. -/
theorem Intact.keep {place other : Place} {s : Saving} (h : Intact place s)
    (hsame : ∀ hidden, s.hidden? = some hidden → other.find? hidden = place.find? hidden) :
    Intact other s := by
  obtain ⟨name, contents, stage⟩ := s
  cases stage with
  | makingFolder => trivial
  | creating => trivial
  | writing hidden rest =>
    obtain ⟨written, hentry, hsum⟩ := h
    exact ⟨written, (hsame hidden rfl).trans hentry, hsum⟩
  | syncing hidden => exact (hsame hidden rfl).trans h
  | «renaming» hidden => exact (hsame hidden rfl).trans h
  | removing hidden fault =>
    intro entries hentry
    exact h entries ((hsame hidden rfl).symm.trans hentry)
  | finished fault => trivial

/-- Whether the next request is the renaming and is carried out. -/
def renames (archive : Archive) (s : Saving) (reply : Reply) : Bool :=
  match s.stage, (step archive s reply).2.stage with
  | .renaming _, .finished none => true
  | _, _ => false

/-- What a request can do, with the word whether it renames the hidden file. -/
inductive Outcome (archive : Archive) (s : Saving) : Bool → Archive → Saving → Prop where
  -- Nothing changes except perhaps what the hidden file holds.
  | work {place : Place} {stage : Stage} (hunblocked : place.Unblocked)
      (hframe : ∀ file, s.hidden? ≠ some file → place.find? file = archive.place.find? file)
      (hhidden : hidden? { s with stage } = s.hidden?) (hintact : Intact place { s with stage }) :
      Outcome archive s false { archive with place } { s with stage }
  -- The hidden file gets its name, whether or not it can be created.
  | name {place : Place} {stage : Stage} {hidden : FileName} (hunblocked : place.Unblocked)
      (hnone : s.hidden? = none)
      (hfresh : hidden = hiddenName s.name archive.process archive.temporaries)
      (hframe : ∀ file, file ≠ hidden → place.find? file = archive.place.find? file)
      (hhidden : hidden? { s with stage } = some hidden)
      (hintact : Intact place { s with stage }) :
      Outcome archive s false { archive with place, temporaries := archive.temporaries + 1 }
        { s with stage }
  | rename {place : Place} {hidden : FileName} (hunblocked : place.Unblocked)
      (hhidden : s.hidden? = some hidden)
      (hentries : ∀ file, place.find? file =
        if file = s.name.fileName then some (.file s.contents)
        else if file = hidden then none else archive.place.find? file) :
      Outcome archive s true { archive with place } { s with stage := .finished none }
  | remove {place : Place} {hidden : FileName} {fault : SystemFault} (hunblocked : place.Unblocked)
      (hhidden : s.hidden? = some hidden)
      (hentries : ∀ file, place.find? file =
        if file = hidden then none else archive.place.find? file) :
      Outcome archive s false { archive with place } { s with stage := .finished (some fault) }

/-- A request that leaves the folder as it is. -/
theorem Outcome.still {archive : Archive} {s : Saving} {stage : Stage}
    (hunblocked : archive.place.Unblocked) (hhidden : hidden? { s with stage } = s.hidden?)
    (hintact : Intact archive.place { s with stage }) :
    Outcome archive s false archive { s with stage } :=
  .work hunblocked (fun _ _ => rfl) hhidden hintact

/-- Every request is one of these. -/
theorem outcome_of_step {archive : Archive} {s : Saving} (hunblocked : archive.place.Unblocked)
    (hfresh : s.Fresh archive) (hintact : Intact archive.place s) (reply : Reply) :
    Outcome archive s (s.renames archive reply) (step archive s reply).1
      (step archive s reply).2 := by
  obtain ⟨name, contents, stage⟩ := s
  cases stage with
  | makingFolder =>
    cases reply with
    | refuse fault => exact .still hunblocked rfl trivial
    | grant piece =>
      obtain ⟨f, hmade, hentries⟩ := Place.makeFolder_eq_of_unblocked hunblocked
      simp only [renames, step, hmade]
      exact .work (Place.unblocked_folder f) (fun file _ => hentries file) rfl trivial
  | creating =>
    have hempty : ∀ entries,
        archive.place.find? (hiddenName name archive.process archive.temporaries) ≠
          some (.folder entries) := by
      rw [show archive.place.find? _ = none from hfresh]
      nofun
    cases reply with
    | refuse fault => exact .name hunblocked rfl rfl (fun _ _ => rfl) rfl hempty
    | grant piece =>
      have hlink : archive.Unlinked name := Archive.unlinked_of_fresh hfresh
      have hcreate := Disk.create_eq hlink
      cases hplace : archive.place.create (hiddenName name archive.process archive.temporaries) with
      | error fault =>
        simp only [renames, step, hcreate, hplace, Except.map]
        exact .name hunblocked rfl rfl (fun _ _ => rfl) rfl hempty
      | ok place =>
        obtain ⟨hmade, hentries⟩ := Place.find?_create hplace
        simp only [renames, step, hcreate, hplace, Except.map]
        refine .name hmade rfl rfl (fun file hfile => ?_) rfl ⟨[], ?_, rfl⟩
        · rw [hentries, if_neg hfile]
        · rw [hentries, if_pos rfl]
  | writing hidden rest =>
    obtain ⟨written, hentry, hsum⟩ := hintact
    cases reply with
    | refuse fault => exact .still hunblocked rfl (Place.not_folder_of_file hentry)
    | grant piece =>
      obtain ⟨hextended, hentries⟩ := Place.find?_extend hentry (rest.take piece)
      have hextend := Disk.extend_eq (Place.not_link_of_file hentry) (rest.take piece)
      have hall := List.take_append_drop piece rest
      have hframe : ∀ file, some hidden ≠ some file →
          (archive.place.extend hidden (rest.take piece)).find? file =
            archive.place.find? file := by
        intro file hfile
        rw [hentries, if_neg fun heq => hfile (congrArg some heq.symm)]
      simp only [renames, step, hextend]
      split
      · next hdone =>
        rw [hdone, List.append_nil] at hall
        refine .work hextended hframe rfl ?_
        show (archive.place.extend hidden (rest.take piece)).find? hidden = _
        rw [hentries, if_pos rfl, hall, hsum]
      · refine .work hextended hframe rfl ⟨written ++ rest.take piece, ?_, ?_⟩
        · rw [hentries, if_pos rfl]
        · rw [List.append_assoc, hall, hsum]
  | syncing hidden =>
    cases reply with
    | refuse fault => exact .still hunblocked rfl (Place.not_folder_of_file hintact)
    | grant piece => exact .still hunblocked rfl hintact
  | «renaming» hidden =>
    cases reply with
    | refuse fault => exact .still hunblocked rfl (Place.not_folder_of_file hintact)
    | grant piece =>
      cases hplace : archive.place.rename hidden name.fileName with
      | error fault =>
        simp only [renames, step, hplace]
        exact .still hunblocked rfl (Place.not_folder_of_file hintact)
      | ok place =>
        obtain ⟨hrenamed, node, hnode, hentries⟩ := Place.find?_rename hplace
        -- The hidden file has held the contents since before it was synced.
        have hwhole : archive.place.find? hidden = some (.file contents) := hintact
        simp only [renames, step, hplace]
        refine .rename hrenamed rfl fun file => ?_
        rw [hentries, ← hnode, hwhole]
  | removing hidden fault =>
    exact .remove (hunblocked.remove hidden) rfl fun file => Place.find?_remove hintact file
  | finished fault => exact .still hunblocked rfl trivial

end Saving
/-! ## Calls side by side -/

/-- A call that writes a text as a snapshot. -/
structure Call where
  text : String
  saving : Saving

/-- A folder of snapshots and all calls that have begun to write to it. -/
structure Workshop where
  archive : Archive
  calls : List Call

/-- What happens next in a workshop. -/
inductive Turn where
  -- A text is to be written under a name.
  | begin (name contents : String)
  -- A call makes its next request.
  | go (index : Nat) (reply : Saving.Reply)

namespace Workshop

/-- A workshop in which no call has begun. -/
def ofArchive (archive : Archive) : Workshop := ⟨archive, []⟩

/-- The workshop after a turn. A call whose name cannot stand fails at once, and calls that
    are finished or that do not exist make no requests. -/
def step (w : Workshop) : Turn → Workshop
  | .begin name contents =>
    match SnapshotName.sanitize name with
    | .error _ => w
    | .ok clean =>
      { w with calls := w.calls ++ [⟨contents, .start clean (Utf8.encode contents)⟩] }
  | .go index reply =>
    match w.calls[index]? with
    | none => w
    | some call =>
      let (archive, saving) := Saving.step w.archive call.saving reply
      { archive, calls := w.calls.set index { call with saving } }

/-- The workshop after some turns. -/
def run (w : Workshop) (turns : List Turn) : Workshop := turns.foldl step w

/-- What is renamed into place in a turn: the name of the snapshot and the text of the call. -/
def renamed (w : Workshop) : Turn → List (SnapshotName × String)
  | .begin _ _ => []
  | .go index reply =>
    match w.calls[index]? with
    | none => []
    | some call =>
      if call.saving.renames w.archive reply then [(call.saving.name, call.text)] else []

/-- What is renamed into place in some turns, one after the other. -/
def renames (w : Workshop) : List Turn → List (SnapshotName × String)
  | [] => []
  | turn :: turns => w.renamed turn ++ (w.step turn).renames turns

theorem run_concat (w : Workshop) (turns : List Turn) (turn : Turn) :
    w.run (turns ++ [turn]) = (w.run turns).step turn := by
  rw [run, List.foldl_append]
  rfl

theorem renames_concat (w : Workshop) (turns : List Turn) (turn : Turn) :
    w.renames (turns ++ [turn]) = w.renames turns ++ (w.run turns).renamed turn := by
  induction turns generalizing w with
  | nil => exact List.append_nil _
  | cons first turns ih =>
    rw [List.cons_append, renames, renames, ih, List.append_assoc]
    rfl

/-- The hidden file of a call, by number. -/
def hidden? (w : Workshop) (index : Nat) : Option FileName :=
  w.calls[index]?.bind fun call => call.saving.hidden?

/-! ## The invariant -/

/-- What holds of a workshop that has begun with the folder `first`. -/
structure Tidy (first : Archive) (renames : List (SnapshotName × String)) (w : Workshop) :
    Prop where
  process : w.archive.process = first.process
  shows : Archive.Shows first w.archive renames
  texts : ∀ {i : Nat} {call : Call}, w.calls[i]? = some call →
    call.saving.contents = Utf8.encode call.text
  intact : ∀ {i : Nat} {call : Call}, w.calls[i]? = some call → call.saving.Intact w.archive.place
  -- Hidden files are numbered by the count, and no two calls have the same.
  named : ∀ {i hidden}, w.hidden? i = some hidden → ∃ name, ∃ count < w.archive.temporaries,
    hidden = Saving.hiddenName name first.process count
  apart : ∀ {i j hidden}, w.hidden? i = some hidden → w.hidden? j = some hidden → i = j
  -- No hidden file is left behind.
  owned : ∀ name count,
    w.archive.place.find? (Saving.hiddenName name first.process count) ≠ none →
      ∃ i, w.hidden? i = some (Saving.hiddenName name first.process count)

theorem tidy_ofArchive {first : Archive} (h : first.Clear) : Tidy first [] (ofArchive first) where
  process := rfl
  shows := ⟨h.unblocked, fun _ _ => rfl⟩
  texts := nofun
  intact := nofun
  named := nofun
  apart := nofun
  owned name count hentry := absurd (h.noHidden name count) hentry

section

variable {first : Archive} {renames : List (SnapshotName × String)} {w : Workshop} {index : Nat}
  {call : Call} {saving : Saving}

theorem getElem?_set (hcall : w.calls[index]? = some call) (i : Nat) :
    (w.calls.set index { call with saving })[i]? =
      if i = index then some { call with saving } else w.calls[i]? := by
  obtain ⟨hlt, -⟩ := List.getElem?_eq_some_iff.1 hcall
  rw [List.getElem?_set, if_pos hlt]
  simp only [eq_comm]

theorem hidden?_set (archive : Archive) (hcall : w.calls[index]? = some call) (i : Nat) :
    hidden? ⟨archive, w.calls.set index { call with saving }⟩ i =
      if i = index then saving.hidden? else w.hidden? i := by
  rw [hidden?, getElem?_set hcall]
  split
  · rfl
  · rfl

theorem hidden?_of_call (hcall : w.calls[index]? = some call) :
    w.hidden? index = call.saving.hidden? := by
  rw [hidden?, hcall]
  rfl

/-- A request of one call does not change the texts of the calls. -/
theorem Tidy.texts_set (h : Tidy first renames w) (hcall : w.calls[index]? = some call)
    (hcontents : saving.contents = call.saving.contents) {i : Nat} {other : Call}
    (hother : (w.calls.set index { call with saving })[i]? = some other) :
    other.saving.contents = Utf8.encode other.text := by
  rw [getElem?_set hcall] at hother
  split at hother
  · cases hother
    exact hcontents.trans (h.texts hcall)
  · exact h.texts hother

/-- A request of one call leaves the hidden files of the others alone. -/
theorem Tidy.intact_set (h : Tidy first renames w) (hcall : w.calls[index]? = some call)
    {place : Place} (hintact : saving.Intact place)
    (hframe : ∀ {i hidden}, i ≠ index → w.hidden? i = some hidden →
      place.find? hidden = w.archive.place.find? hidden)
    {i : Nat} {other : Call} (hother : (w.calls.set index { call with saving })[i]? = some other) :
    other.saving.Intact place := by
  rw [getElem?_set hcall] at hother
  split at hother
  · cases hother
    exact hintact
  · next hne =>
    refine (h.intact hother).keep fun hidden hhidden => hframe hne ?_
    rw [hidden?_of_call hother, hhidden]

/-- The next hidden file gets a name that no entry has: of those that are there the counts were
    used before. -/
theorem Tidy.fresh (h : Tidy first renames w) (saving : Saving) : saving.Fresh w.archive := by
  rw [Saving.Fresh, h.process]
  by_contra hentry
  obtain ⟨i, hi⟩ := h.owned saving.name w.archive.temporaries hentry
  obtain ⟨name, count, hlt, heq⟩ := h.named hi
  have hcount := Saving.count_of_hiddenName heq
  omega

/-- A hidden file is none of those that a reader may find. -/
theorem Tidy.ne_of_hidden? (h : Tidy first renames w) {i : Nat} {hidden file : FileName}
    (hhidden : w.hidden? i = some hidden)
    (hfile : ∀ name count, file ≠ Saving.hiddenName name first.process count) : file ≠ hidden := by
  obtain ⟨name, count, -, rfl⟩ := h.named hhidden
  exact hfile name count

/-- A call does without a hidden file from now on, because it is gone. -/
theorem Tidy.release (h : Tidy first renames w) (hcall : w.calls[index]? = some call)
    {renames' : List (SnapshotName × String)} {place : Place} {hidden : FileName}
    (hshows : Archive.Shows first { w.archive with place } renames')
    (hhidden : call.saving.hidden? = some hidden) (hnone : saving.hidden? = none)
    (hcontents : saving.contents = call.saving.contents) (hintact : saving.Intact place)
    (hgone : place.find? hidden = none)
    (hframe : ∀ name count, Saving.hiddenName name first.process count ≠ hidden →
      place.find? (Saving.hiddenName name first.process count) =
        w.archive.place.find? (Saving.hiddenName name first.process count)) :
    Tidy first renames'
      ⟨{ w.archive with place }, w.calls.set index { call with saving }⟩ where
  process := h.process
  shows := hshows
  texts := h.texts_set hcall hcontents
  intact := by
    refine h.intact_set hcall hintact fun {i hidden'} hne hhidden' => ?_
    obtain ⟨name, count, -, rfl⟩ := h.named hhidden'
    apply hframe
    intro heq
    rw [heq] at hhidden'
    exact hne (h.apart hhidden' ((hidden?_of_call hcall).trans hhidden))
  named := by
    intro i hidden' hhidden'
    rw [hidden?_set _ hcall, hnone] at hhidden'
    split at hhidden'
    · cases hhidden'
    · exact h.named hhidden'
  apart := by
    intro i j hidden' hi hj
    rw [hidden?_set _ hcall, hnone] at hi hj
    split at hi
    · cases hi
    · split at hj
      · cases hj
      · exact h.apart hi hj
  owned := by
    intro name count hentry
    have hne : Saving.hiddenName name first.process count ≠ hidden := by
      intro heq
      rw [heq] at hentry
      exact hentry hgone
    have hentry' : w.archive.place.find? (Saving.hiddenName name first.process count) ≠ none := by
      rw [← hframe name count hne]
      exact hentry
    obtain ⟨i, hi⟩ := h.owned name count hentry'
    refine ⟨i, ?_⟩
    rw [hidden?_set _ hcall, if_neg, hi]
    rintro rfl
    rw [hidden?_of_call hcall, hhidden] at hi
    exact hne (Option.some.inj hi).symm

/-- A request of a call keeps the workshop tidy. -/
theorem Tidy.go (h : Tidy first renames w) (hcall : w.calls[index]? = some call) {renamed : Bool}
    {archive : Archive} (hout : Saving.Outcome w.archive call.saving renamed archive saving) :
    Tidy first (renames ++ if renamed then [(call.saving.name, call.text)] else [])
      ⟨archive, w.calls.set index { call with saving }⟩ := by
  have hindex := hidden?_of_call hcall
  cases hout with
  | @work place stage hunblocked hframe hhidden hintact =>
    have hall : ∀ i, hidden? ⟨{ w.archive with place },
        w.calls.set index { call with saving := { call.saving with stage } }⟩ i = w.hidden? i := by
      intro i
      rw [hidden?_set _ hcall, hhidden]
      split
      · next heq => rw [heq, hindex]
      · rfl
    have hcontents : ({ call.saving with stage } : Saving).contents = call.saving.contents := rfl
    have hother : ∀ {i hidden}, i ≠ index → w.hidden? i = some hidden →
        place.find? hidden = w.archive.place.find? hidden := by
      intro i hidden hne hi
      apply hframe
      intro heq
      exact hne (h.apart hi (hindex.trans heq))
    rw [if_neg Bool.false_ne_true, List.append_nil]
    refine ⟨h.process, ⟨hunblocked, fun file hfile => ?_⟩, h.texts_set hcall hcontents,
      h.intact_set hcall hintact hother, ?_, ?_, ?_⟩
    · rw [← h.shows.entries file hfile]
      apply hframe
      intro heq
      exact h.ne_of_hidden? (hindex.trans heq) hfile rfl
    · intro i hidden hi
      exact h.named ((hall i).symm.trans hi)
    · intro i j hidden hi hj
      exact h.apart ((hall i).symm.trans hi) ((hall j).symm.trans hj)
    · intro name count hentry
      by_cases hown : call.saving.hidden? = some (Saving.hiddenName name first.process count)
      · exact ⟨index, (hall index).trans (hindex.trans hown)⟩
      · have hsame := hframe _ hown
        obtain ⟨i, hi⟩ := h.owned name count (hsame ▸ hentry)
        exact ⟨i, (hall i).trans hi⟩
  | @name place stage hidden hunblocked hnone hfresh hframe hhidden hintact =>
    rw [h.process] at hfresh
    have hcontents : ({ call.saving with stage } : Saving).contents = call.saving.contents := rfl
    -- The count was not used before, and so the name is nobody else's.
    have hnew : ∀ i, w.hidden? i ≠ some hidden := by
      intro i hi
      obtain ⟨name, count, hlt, heq⟩ := h.named hi
      have hcount := Saving.count_of_hiddenName (hfresh.symm.trans heq)
      omega
    have hset : ∀ i, hidden? ⟨{ w.archive with place, temporaries := w.archive.temporaries + 1 },
        w.calls.set index { call with saving := { call.saving with stage } }⟩ i =
          if i = index then Saving.hidden? { call.saving with stage } else w.hidden? i :=
      hidden?_set _ hcall
    rw [if_neg Bool.false_ne_true, List.append_nil]
    refine ⟨h.process, ⟨hunblocked, fun file hfile => ?_⟩, h.texts_set hcall hcontents,
      h.intact_set hcall hintact ?_, ?_, ?_, ?_⟩
    · rw [← h.shows.entries file hfile]
      exact hframe file (hfresh ▸ hfile _ _)
    · intro i hidden' _ hi
      apply hframe
      rintro rfl
      exact hnew i hi
    · intro i hidden' hi
      rw [hset] at hi
      split at hi
      · rw [hhidden] at hi
        cases hi
        exact ⟨_, _, Nat.lt_succ_self _, hfresh⟩
      · obtain ⟨name, count, hlt, heq⟩ := h.named hi
        exact ⟨name, count, Nat.lt_succ_of_lt hlt, heq⟩
    · intro i j hidden' hi hj
      rw [hset, hhidden] at hi hj
      split at hi
      · split at hj
        · next hii hjj => rw [hii, hjj]
        · cases hi
          exact absurd hj (hnew j)
      · split at hj
        · cases hj
          exact absurd hi (hnew i)
        · exact h.apart hi hj
    · intro name count hentry
      by_cases heq : Saving.hiddenName name first.process count = hidden
      · refine ⟨index, ?_⟩
        rw [hset, if_pos rfl, hhidden, heq]
      · have hsame := hframe _ heq
        obtain ⟨i, hi⟩ := h.owned name count (hsame ▸ hentry)
        refine ⟨i, ?_⟩
        rw [hset, if_neg, hi]
        rintro rfl
        rw [hindex, hnone] at hi
        cases hi
  | @rename place hidden hunblocked hhidden hentries =>
    have htarget : ∀ name count, Saving.hiddenName name first.process count ≠
        call.saving.name.fileName := fun name count =>
      Saving.hiddenName_ne_fileName name first.process count call.saving.name
    obtain ⟨name, count, -, hform⟩ := h.named (hindex.trans hhidden)
    refine h.release hcall ⟨hunblocked, fun file hfile => ?_⟩ hhidden rfl rfl trivial ?_ ?_
    · have hfiles : Archive.files (renames ++ [(call.saving.name, call.text)]) =
          Archive.files renames ++ [(call.saving.name.fileName, .file call.saving.contents)] := by
        rw [Archive.files, List.map_append, h.texts hcall]
        rfl
      rw [if_pos rfl, hfiles, Entries.last?_concat, hentries]
      by_cases heq : file = call.saving.name.fileName
      · rw [if_pos heq, if_pos heq.symm, Option.some_or]
      · rw [if_neg heq, if_neg (Ne.symm heq), if_neg (h.ne_of_hidden? (hindex.trans hhidden) hfile),
          h.shows.entries file hfile]
    · rw [hentries, if_neg (hform ▸ htarget name count), if_pos rfl]
    · intro name count hne
      rw [hentries, if_neg (htarget name count), if_neg hne]
  | @remove place hidden fault hunblocked hhidden hentries =>
    rw [if_neg Bool.false_ne_true, List.append_nil]
    refine h.release hcall ⟨hunblocked, fun file hfile => ?_⟩ hhidden rfl rfl trivial ?_ ?_
    · rw [hentries, if_neg (h.ne_of_hidden? (hindex.trans hhidden) hfile),
        h.shows.entries file hfile]
    · rw [hentries, if_pos rfl]
    · intro name count hne
      rw [hentries, if_neg hne]

/-- A new call keeps the workshop tidy. -/
theorem Tidy.begin (h : Tidy first renames w) (name : SnapshotName) (text : String) :
    Tidy first renames
      { w with calls := w.calls ++ [⟨text, .start name (Utf8.encode text)⟩] } := by
  have hnew : ∀ {i : Nat} {call : Call},
      (w.calls ++ [⟨text, .start name (Utf8.encode text)⟩])[i]? = some call →
        w.calls[i]? = some call ∨ call = ⟨text, .start name (Utf8.encode text)⟩ := by
    intro i call hcall
    rw [List.getElem?_append] at hcall
    split at hcall
    · exact .inl hcall
    · exact .inr (List.mem_singleton.1 (List.mem_of_getElem? hcall))
  -- The new call has no hidden file yet.
  have hall : ∀ i,
      hidden? { w with calls := w.calls ++ [⟨text, .start name (Utf8.encode text)⟩] } i =
      w.hidden? i := by
    intro i
    simp only [hidden?, List.getElem?_append]
    split
    · rfl
    · next hge =>
      rw [List.getElem?_eq_none (Nat.le_of_not_lt hge)]
      cases hcall : [(⟨text, .start name (Utf8.encode text)⟩ : Call)][i - w.calls.length]? with
      | none => rfl
      | some call =>
        rw [List.mem_singleton.1 (List.mem_of_getElem? hcall)]
        rfl
  refine ⟨h.process, h.shows, ?_, ?_, ?_, ?_, ?_⟩
  · intro i call hcall
    rcases hnew hcall with hcall | rfl
    · exact h.texts hcall
    · rfl
  · intro i call hcall
    rcases hnew hcall with hcall | rfl
    · exact h.intact hcall
    · trivial
  · intro i hidden hi
    exact h.named ((hall i).symm.trans hi)
  · intro i j hidden hi hj
    exact h.apart ((hall i).symm.trans hi) ((hall j).symm.trans hj)
  · intro name count hentry
    obtain ⟨i, hi⟩ := h.owned name count hentry
    exact ⟨i, (hall i).trans hi⟩

theorem Tidy.step (h : Tidy first renames w) (turn : Turn) :
    Tidy first (renames ++ w.renamed turn) (w.step turn) := by
  cases turn with
  | begin name contents =>
    simp only [Workshop.step, renamed, List.append_nil]
    split
    · exact h
    · exact h.begin _ contents
  | go index reply =>
    simp only [Workshop.step, renamed]
    cases hcall : w.calls[index]? with
    | none =>
      rw [List.append_nil]
      exact h
    | some call =>
      exact h.go hcall (Saving.outcome_of_step h.shows.unblocked (h.fresh call.saving)
        (h.intact hcall)
        reply)

end

/-- Every workshop is tidy after every run, whatever the turns and their order. -/
theorem tidy_of_run {first : Archive} (hclear : first.Clear) (turns : List Turn) :
    Tidy first ((ofArchive first).renames turns) ((ofArchive first).run turns) := by
  induction turns using List.reverseRecOn with
  | nil => exact tidy_ofArchive hclear
  | append_singleton turns turn ih =>
    rw [run_concat, renames_concat]
    exact ih.step turn

/-! ## The result -/

/-- Whoever looks into a folder between any two requests of any number of calls that write to
    it, of which all may be refused except the removals, finds it as if there were nothing but
    whole renames. A name loads the whole text of the call that was last to rename its file to
    it, or what it loaded in the first place. The names that are listed are those listed in the
    first place and those renamed to; a hidden file is not among them. When all calls are
    finished, no hidden file is left. -/
theorem atomic {first : Archive} (hclear : first.Clear) (turns : List Turn) :
    let w := (ofArchive first).run turns
    let renames := (ofArchive first).renames turns
    (∀ raw name, SnapshotName.sanitize raw = .ok name →
      name.fileName.length ≤ FileName.maxLength →
        w.archive.load raw = match Entries.last? name renames with
          | some text => .ok text
          | none => first.load raw) ∧
    (∃ before after, first.list = .ok before ∧ w.archive.list = .ok after ∧
      ∀ listed, listed ∈ after ↔ listed ∈ before ∨ ∃ r ∈ renames, r.1.text = listed) ∧
    (∀ name count,
      Archive.listedName? (Saving.hiddenName name first.process count) = none) ∧
    ((∀ call ∈ w.calls, ∃ fault, call.saving.stage = .finished fault) → ∀ name count,
      w.archive.place.find? (Saving.hiddenName name first.process count) = none) := by
  intro w renames
  have htidy : Tidy first renames w := tidy_of_run hclear turns
  obtain ⟨before, after, hbefore, hafter, -, hlisted⟩ := htidy.shows.list hclear
  refine ⟨fun raw name hname hlength => htidy.shows.load hclear hname hlength,
    ⟨before, after, hbefore, hafter, hlisted⟩,
    fun name count => Archive.listedName?_hiddenName name first.process count, ?_⟩
  intro hfinished name count
  by_contra hentry
  obtain ⟨i, hi⟩ := htidy.owned name count hentry
  obtain ⟨call, hcall, hhidden⟩ := Option.bind_eq_some_iff.1 hi
  obtain ⟨fault, hstage⟩ := hfinished call (List.mem_of_getElem? hcall)
  rw [Saving.hidden?, hstage] at hhidden
  cases hhidden

/-- A folder that does not exist yet, for a process of number 7. -/
def opener : Archive := Archive.ofDisk "presets" { place := .absent } 7

/-- The name of the snapshot in the example. -/
def myShow : SnapshotName := ⟨"My Show", by decide, List.all_eq_true.1 (by decide)⟩

/-- Two calls that write the same snapshot. The second overtakes the first, which has written
    a part of its text and has not renamed its file yet. -/
def duet : List Turn :=
  [.begin "My Show" "x:1", .begin "My/ Show" "x:2", .go 0 (.grant 9), .go 1 (.grant 9),
    .go 1 (.grant 9), .go 0 (.grant 9), .go 0 (.grant 1), .go 1 (.grant 9), .go 1 (.grant 9),
    .go 1 (.grant 9), .go 0 (.grant 1)]

/-- The text of the call that has renamed its file is loaded, and of the other nothing. -/
theorem atomic_of_duet : opener.Clear ∧
    ((ofArchive opener).run duet).archive.load "My Show!" = .ok "x:2" := by
  have hclear : opener.Clear := ⟨nofun, nofun, fun _ _ => rfl⟩
  have hname : SnapshotName.sanitize "My Show!" = .ok myShow :=
    SnapshotName.sanitize_eq_ok_iff.2 (by decide)
  have hload := (atomic hclear duet).1 "My Show!" _ hname (by decide)
  have hlast : Entries.last? myShow ((ofArchive opener).renames duet) = some "x:2" := by decide
  rw [hlast] at hload
  exact ⟨hclear, hload⟩

end Workshop

end ShowRelay
