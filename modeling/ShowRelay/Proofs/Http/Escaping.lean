/-
  ShowRelay.Proofs.Http.Escaping

  The ways of writing a text into a URL. A writer may keep any character but the
  percent sign, and may write any byte as an escape, with digits in either case
  (`Http.Writes`), so that one text has many URLs. Whichever is chosen, it is read
  back as the bytes that were written, and a request for it asks for the snapshot
  that the text names (`Http.route_of_writes`).

  A question mark or a number sign that is kept ends the path, so that a URL needs
  these two escaped as well; one that does end the path may have anything after it
  (`Http.pathOf_append`).
-/

import ShowRelay.Http.Route
import ShowRelay.Proofs.Text
import ShowRelay.Proofs.Utf8
import Mathlib.Data.Bool.AllAny
import Mathlib.Data.List.TakeWhile

namespace ShowRelay

/-! ## Hexadecimal digits -/

namespace Text

theorem toNat_toLower (c : Char) :
    c.toLower.toNat = if 65 ≤ c.toNat ∧ c.toNat ≤ 90 then c.toNat + 32 else c.toNat := by
  have hupper : c.val ≥ 'A'.val ∧ c.val ≤ 'Z'.val ↔ 65 ≤ c.toNat ∧ c.toNat ≤ 90 := by
    rw [ge_iff_le, UInt32.le_iff_toNat_le, UInt32.le_iff_toNat_le]
    exact Iff.rfl
  unfold Char.toLower
  split
  · next h =>
    have hle := (hupper.1 h).2
    rw [if_pos (hupper.1 h)]
    show (c.toNat + 32) % 2 ^ 32 = c.toNat + 32
    omega
  · next h => rw [if_neg fun hu => h (hupper.2 hu)]

theorem toNat_digitChar {n : Nat} (h : n < 16) :
    n.digitChar.toNat = if n < 10 then 48 + n else 87 + n := by
  decide +revert

/-- A digit counts the same in either case. -/
theorem digitValue?_of_toLower {c : Char} {n : Nat} (hn : n < 16)
    (h : c.toLower = n.digitChar) : digitValue? 16 c = some n := by
  have hnat := congrArg Char.toNat h
  rw [toNat_toLower, toNat_digitChar hn] at hnat
  -- Digits below ten have one form, the others have two.
  have hforms : n < 10 ∧ c.toNat = 48 + n ∨ 10 ≤ n ∧ c.toNat = 87 + n ∨
      10 ≤ n ∧ c.toNat = 55 + n := by
    split at hnat
    · split at hnat
      · omega
      · omega
    · split at hnat
      · omega
      · omega
  rw [digitValue?_sixteen]
  rcases hforms with ⟨hten, hc⟩ | ⟨hten, hc⟩ | ⟨hten, hc⟩
  · rw [if_pos (by omega), hc, Nat.add_sub_cancel_left]
  · rw [if_neg (by omega), if_pos (by omega), hc, Nat.add_sub_cancel_left]
  · rw [if_neg (by omega), if_neg (by omega), if_pos (by omega), hc, Nat.add_sub_cancel_left]

end Text

namespace Http

/-! ## Writing -/

/-- A way of writing some bytes with escapes. -/
inductive Writes : List Char → Bytes → Prop where
  | nil : Writes [] []
  -- A character stands for its own bytes.
  | kept {segment : List Char} {bytes : Bytes} (c : Char) (hc : c ≠ '%')
      (h : Writes segment bytes) : Writes (c :: segment) (String.utf8EncodeChar c ++ bytes)
  -- A byte is written with two digits, each in either case.
  | escaped {segment : List Char} {bytes : Bytes} (byte : UInt8) (high low : Char)
      (hhigh : high.toLower = (byte.toNat / 16).digitChar)
      (hlow : low.toLower = (byte.toNat % 16).digitChar)
      (h : Writes segment bytes) : Writes ('%' :: high :: low :: segment) (byte :: bytes)

theorem Writes.append {first second : List Char} {xs ys : Bytes} (hfirst : Writes first xs)
    (hsecond : Writes second ys) : Writes (first ++ second) (xs ++ ys) := by
  induction hfirst with
  | nil => exact hsecond
  | kept c hc _ ih =>
    rw [List.cons_append, List.append_assoc]
    exact .kept c hc ih
  | escaped byte high low hhigh hlow _ ih => exact .escaped byte high low hhigh hlow ih

/-- A text without a percent sign may be kept as it is. -/
theorem writes_encode {s : String} (h : '%' ∉ s.toList) : Writes s.toList (Utf8.encode s) := by
  rw [Utf8.encode_eq_flatMap]
  generalize s.toList = chars at h
  induction chars with
  | nil => exact .nil
  | cons c chars ih =>
    rw [List.mem_cons, not_or] at h
    exact .kept c (Ne.symm h.1) (ih h.2)

theorem escapedByte?_of_toLower {byte : UInt8} {high low : Char}
    (hhigh : high.toLower = (byte.toNat / 16).digitChar)
    (hlow : low.toLower = (byte.toNat % 16).digitChar) : escapedByte? high low = some byte := by
  have hbyte : byte.toNat < 256 := byte.toNat_lt
  have hsum : 16 * (byte.toNat / 16) + byte.toNat % 16 = byte.toNat := Nat.div_add_mod _ 16
  have hvalues := And.intro (Text.digitValue?_of_toLower (by omega) hhigh)
    (Text.digitValue?_of_toLower (by omega) hlow)
  simp only [escapedByte?, hvalues, Option.bind_eq_bind, Option.bind_some, hsum,
    UInt8.ofNat_toNat, Option.pure_def]

/-- What was written is read back. -/
theorem unescapedBytes?_of_writes {segment : List Char} {bytes : Bytes}
    (h : Writes segment bytes) : unescapedBytes? segment = some bytes := by
  induction h with
  | nil => rfl
  | kept c hc _ ih =>
    rw [unescapedBytes?, if_neg hc, ih, Option.map_some]
    intro high low rest hpercent
    exact absurd hpercent hc
  | escaped byte high low hhigh hlow _ ih =>
    rw [unescapedBytes?, escapedByte?_of_toLower hhigh hlow, ih]
    rfl

/-! ## Requests -/

/-- A file name that was written into a URL is found there. -/
theorem requestedName?_of_writes {segment : List Char} {file : String}
    (h : Writes segment (Utf8.encode file)) :
    requestedName? segment =
      (Text.dropBack? SnapshotName.ending.toList file.toList).map String.ofList := by
  rw [requestedName?, unescape?, unescapedBytes?_of_writes h]
  simp only [Option.bind_eq_bind, Option.bind_some, Utf8.decode?_encode]
  cases Text.dropBack? SnapshotName.ending.toList file.toList with
  | none => rfl
  | some stem => rfl

/-- A text that ends as snapshots do has the name of one before the ending. -/
theorem dropBack?_ending (name : String) :
    Text.dropBack? SnapshotName.ending.toList (name ++ SnapshotName.ending).toList =
      some name.toList :=
  Text.dropBack?_eq_some_iff.2 String.toList_append

/-- What may follow the path of a URL. -/
inductive Trailer : String → Prop where
  | nothing : Trailer ""
  | query (text : String) : Trailer ("?" ++ text)
  | fragment (text : String) : Trailer ("#" ++ text)

/-- The path of a URL is found whatever follows it. -/
theorem pathOf_append {path trailer : String} (hpath : ∀ c ∈ path.toList, c ≠ '?' ∧ c ≠ '#')
    (htrailer : Trailer trailer) : pathOf (path ++ trailer) = path.toList := by
  have hkept : ∀ c ∈ path.toList, (c ≠ '?' && c ≠ '#') = true := by
    intro c hc
    rw [Bool.and_eq_true, decide_eq_true_iff, decide_eq_true_iff]
    exact hpath c hc
  have hrest : trailer.toList.takeWhile (fun c => c ≠ '?' && c ≠ '#') = [] := by
    cases htrailer with
    | nothing => rfl
    | query text =>
      rw [String.toList_append]
      exact List.takeWhile_cons_of_neg (by decide)
    | fragment text =>
      rw [String.toList_append]
      exact List.takeWhile_cons_of_neg (by decide)
  rw [pathOf, String.toList_append, List.takeWhile_append_of_pos hkept, hrest, List.append_nil]

/-- A request for anything below the path of the listing is for a snapshot. -/
theorem route_of_segment (store : Store) (archive : Archive) {segment trailer : String}
    (hsegment : segment ≠ "") (hpath : ∀ c ∈ segment.toList, c ≠ '?' ∧ c ≠ '#')
    (htrailer : Trailer trailer) :
    route store archive ⟨"GET", snapshotsPath ++ segment ++ trailer⟩ =
      match requestedName? segment.toList with
      | none => (.notFound, [])
      | some name => snapshot archive name := by
  have hurl : pathOf (snapshotsPath ++ segment ++ trailer) =
      snapshotsPath.toList ++ segment.toList := by
    rw [pathOf_append _ htrailer, String.toList_append]
    intro c hc
    rw [String.toList_append] at hc
    rcases List.mem_append.1 hc with hc | hc
    · have hfront : ∀ c ∈ snapshotsPath.toList, c ≠ '?' ∧ c ≠ '#' :=
        List.all_iff_forall_prop.1 (by decide)
      exact hfront c hc
    · exact hpath c hc
  have hnonempty : segment.toList ≠ [] := fun hnil => hsegment (String.toList_eq_nil_iff.1 hnil)
  have hstate : snapshotsPath.toList ++ segment.toList ≠ statePath.toList := by
    intro heq
    have hthird := congrArg (fun path => path[2]?) heq
    exact absurd hthird (by simp [snapshotsPath, statePath])
  have hlisting : ¬ (snapshotsPath.toList ++ segment.toList = snapshotsPath.toList ∨
      snapshotsPath.toList ++ segment.toList = "/s".toList) := by
    rintro (heq | heq)
    · exact hnonempty (List.append_right_eq_self.1 heq)
    · have hlength := congrArg List.length heq
      simp [snapshotsPath] at hlength
  have hfile : Text.dropFront? snapshotsPath.toList (snapshotsPath.toList ++ segment.toList) =
      some segment.toList := Text.dropFront?_eq_some_iff.2 rfl
  have hget : ¬ "GET" ≠ "GET" := fun h => h rfl
  cases hname : requestedName? segment.toList with
  | none => simp only [route, hurl, if_neg hget, if_neg hstate, if_neg hlisting, hfile, hname]
  | some name => simp only [route, hurl, if_neg hget, if_neg hstate, if_neg hlisting, hfile, hname]

/-- A text with something in it is written as a segment with something in it. -/
theorem ne_empty_of_writes {segment file : String} (h : Writes segment.toList (Utf8.encode file))
    (hfile : file ≠ "") : segment ≠ "" := by
  rintro rfl
  have hbytes : some [] = some (Utf8.encode file) := unescapedBytes?_of_writes h
  exact hfile (Utf8.encode_injective (Option.some.inj hbytes).symm)

/-- A request for a snapshot's file, however its name is written, is answered with what there
    is of the snapshot. -/
theorem route_of_writes (store : Store) (archive : Archive) {segment name : String}
    (h : Writes segment.toList (Utf8.encode (name ++ SnapshotName.ending)))
    (hpath : ∀ c ∈ segment.toList, c ≠ '?' ∧ c ≠ '#') :
    route store archive ⟨"GET", snapshotsPath ++ segment⟩ = snapshot archive name := by
  have hfile : name ++ SnapshotName.ending ≠ "" := by
    intro heq
    have hlength := congrArg String.length heq
    rw [String.length_append] at hlength
    exact absurd hlength (by simp [SnapshotName.ending])
  have hroute := route_of_segment store archive (ne_empty_of_writes h hfile) hpath .nothing
  rw [String.append_empty, requestedName?_of_writes h, dropBack?_ending] at hroute
  rw [hroute, Option.map_some, String.ofList_toList]

end Http

end ShowRelay
