/-
  ShowRelay.Proofs.Snapshot.Naming

  The names of the files in a snapshot folder. A snapshot's file has the
  snapshot's name with an ending, and a hidden file has a name made of the
  snapshot's name, a process number and a count. Names of snapshots may hold dots
  and digits themselves, and still a hidden file's name tells its count
  (`Saving.count_of_hiddenName`), and it is never the name of a snapshot's file,
  nor of any other file that is listed.
-/

import ShowRelay.Snapshot.Archive
import ShowRelay.Proofs.Utf8

namespace ShowRelay

/-! ## Decimal numbers in names -/

namespace Text

theorem dot_notMem_repr (n : Nat) : '.' ∉ n.repr.toList := by
  intro h
  rw [Nat.toList_repr] at h
  have hdigit := Nat.isDigit_of_mem_toDigits (by decide) (by decide) h
  exact absurd hdigit (by decide)

/-- What follows the last dot is a number, and the number is found there. -/
theorem eq_of_append_dot_repr {front front' : List Char} {m n : Nat}
    (h : front ++ '.' :: m.repr.toList = front' ++ '.' :: n.repr.toList) : m = n := by
  have hsplit : ∀ (front : List Char) (n : Nat),
      splitFirst? '.' (front ++ '.' :: n.repr.toList).reverse =
        some (n.repr.toList.reverse, front.reverse) := by
    intro front n
    rw [splitFirst?_eq_some_iff]
    constructor
    · rw [List.reverse_append, List.reverse_cons, List.append_assoc, List.singleton_append]
    · rw [List.mem_reverse]
      exact dot_notMem_repr n
  have heq := hsplit front m
  rw [h, hsplit, Option.some.injEq, Prod.mk.injEq, List.reverse_inj, Nat.toList_repr,
    Nat.toList_repr] at heq
  rw [← Nat.ofDigitChars_ten_toDigits (n := m), ← heq.1, Nat.ofDigitChars_ten_toDigits]

/-- A decimal number is written in ASCII. -/
theorem toNat_lt_of_mem_repr {n : Nat} {c : Char} (h : c ∈ n.repr.toList) : c.toNat < 128 := by
  rw [Nat.toList_repr] at h
  have hdigit := Nat.isDigit_of_mem_toDigits (by decide) (by decide) h
  rw [Char.isDigit_iff_toNat] at hdigit
  have hnine : '9'.toNat = 57 := rfl
  omega

end Text

/-! ## Snapshot files -/

namespace SnapshotName

theorem ext {name other : SnapshotName} (h : name.text = other.text) : name = other := by
  cases name
  cases other
  cases h
  rfl

/-- Different snapshots have different files. -/
theorem fileName_injective {name other : SnapshotName} (h : name.fileName = other.fileName) :
    name = other := by
  have htext := Utf8.encode_injective h
  rw [fileText, fileText, ← String.toList_inj, String.toList_append, String.toList_append,
    List.append_cancel_right_eq, String.toList_inj] at htext
  exact ext htext

/-- The characters that a name may keep, by their ranges. -/
def Allowed (c : Char) : Prop :=
  ('A' ≤ c ∧ c ≤ 'Z') ∨ ('a' ≤ c ∧ c ≤ 'z') ∨ ('0' ≤ c ∧ c ≤ '9') ∨ c = '.' ∨ c = ' '

theorem keeps_iff (c : Char) : keeps c = true ↔ Allowed c := by
  have hupper : c.isUpper = decide ('A' ≤ c ∧ c ≤ 'Z') := rfl
  have hlower : c.isLower = (decide ('a' ≤ c) && decide (c ≤ 'z')) := rfl
  have hdigit : c.isDigit = (decide ('0' ≤ c) && decide (c ≤ '9')) := rfl
  have halphanum : c.isAlphanum = (c.isUpper || c.isLower || c.isDigit) := rfl
  simp only [keeps, halphanum, hupper, hlower, hdigit, Bool.or_eq_true, Bool.and_eq_true,
    decide_eq_true_eq, beq_iff_eq, Allowed, or_assoc]

/-- A name is refused if and only if nothing of it may be kept. -/
theorem sanitize_eq_error_iff {raw : String} :
    (∃ e, sanitize raw = .error e) ↔ ∀ c ∈ raw.toList, ¬ Allowed c := by
  have hempty : String.ofList (raw.toList.filter keeps) = "" ↔ ∀ c ∈ raw.toList, ¬ Allowed c := by
    simp only [String.ofList_eq_empty_iff, List.filter_eq_nil_iff, keeps_iff]
  rw [← hempty, sanitize]
  split
  · next h => exact ⟨fun _ => h, fun _ => ⟨_, rfl⟩⟩
  · next h =>
    refine ⟨?_, fun h' => absurd h' h⟩
    rintro ⟨_, h'⟩
    cases h'

/-- A refused name is told as it was given. -/
theorem eq_invalidName_of_sanitize {raw : String} {e : SnapshotError}
    (h : sanitize raw = .error e) :
    e = .invalidName raw := by
  rw [sanitize] at h
  split at h
  · cases h
    rfl
  · cases h

/-- The characters of a name are ASCII. -/
theorem toNat_lt_of_allowed {c : Char} (h : Allowed c) : c.toNat < 128 := by
  have hle : ∀ d e : Char, d ≤ e ↔ d.toNat ≤ e.toNat := fun d e => UInt32.le_iff_toNat_le
  rw [Allowed, hle, hle, hle, hle, hle, hle] at h
  have hz : 'z'.toNat = 122 := rfl
  have hZ : 'Z'.toNat = 90 := rfl
  have hnine : '9'.toNat = 57 := rfl
  rcases h with h | h | h | rfl | rfl
  · omega
  · omega
  · omega
  · decide
  · decide

/-- A name has as many bytes as characters. -/
theorem length_encode_text (name : SnapshotName) :
    (Utf8.encode name.text).length = name.text.length :=
  Utf8.length_encode_of_ascii fun c hc => toNat_lt_of_allowed ((keeps_iff c).1 (name.kept c hc))

theorem length_fileName (name : SnapshotName) : name.fileName.length = name.text.length + 7 := by
  have hending : (Utf8.encode ending).length = 7 := by decide
  rw [fileName, fileText, Utf8.encode_append, List.length_append, length_encode_text, hending]

end SnapshotName

/-! ## Hidden files -/

namespace Saving

/-- The text of a hidden file's name, in pieces. -/
theorem toList_hidden (name : SnapshotName) (process count : Nat) :
    ("." ++ name.text ++ "." ++ process.repr ++ "." ++ count.repr ++ ".tmp").toList =
      ('.' :: name.text.toList ++ '.' :: process.repr.toList) ++ '.' :: count.repr.toList ++
        ".tmp".toList := by
  simp only [String.toList_append, List.append_assoc]
  rfl

/-- The name of a hidden file tells its count, whatever dots and digits stand before it. -/
theorem count_of_hiddenName {name name' : SnapshotName} {process process' count count' : Nat}
    (h : hiddenName name process count = hiddenName name' process' count') : count = count' := by
  have htext := congrArg String.toList (Utf8.encode_injective h)
  rw [toList_hidden, toList_hidden, List.append_cancel_right_eq] at htext
  exact Text.eq_of_append_dot_repr htext

/-- A hidden file does not end as a snapshot's does. -/
theorem hiddenName_ne_encode (name : SnapshotName) (process count : Nat) (stem : String) :
    hiddenName name process count ≠ Utf8.encode (stem ++ SnapshotName.ending) := by
  intro h
  have htext := congrArg (fun s => s.toList.getLast?) (Utf8.encode_injective h)
  have hhidden : (stem ++ SnapshotName.ending).toList.getLast? = some 't' := by
    rw [String.toList_append, List.getLast?_append]
    rfl
  have htmp : ".tmp".toList.getLast? = some 'p' := rfl
  rw [hhidden, toList_hidden, List.getLast?_append, htmp,
    Option.some_or] at htext
  exact absurd htext (by decide)

/-- A hidden file is no snapshot's file. -/
theorem hiddenName_ne_fileName (name : SnapshotName) (process count : Nat) (other : SnapshotName) :
    hiddenName name process count ≠ other.fileName :=
  hiddenName_ne_encode name process count other.text

/-- The number of bytes of a hidden file's name: the name, the dots and the ending, and the
    digits of two numbers. -/
theorem length_hiddenName (name : SnapshotName) (process count : Nat) :
    (hiddenName name process count).length =
      name.text.length + 7 + (process.repr.length + count.repr.length) := by
  have hdigits : ∀ n : Nat, (Utf8.encode n.repr).length = n.repr.length := fun n =>
    Utf8.length_encode_of_ascii fun c hc => Text.toNat_lt_of_mem_repr hc
  have hdot : (Utf8.encode ".").length = 1 := by decide
  have hending : (Utf8.encode ".tmp").length = 4 := by decide
  simp only [hiddenName, Utf8.encode_append, List.length_append, hdigits, hdot, hending,
    SnapshotName.length_encode_text]
  omega

end Saving

/-! ## Listed files -/

namespace Archive

/-- The files that are listed, and under which names. -/
theorem listedName?_eq_some_iff {file : FileName} {listed : String} :
    listedName? file = some listed ↔
      listed ≠ "" ∧ file = Utf8.encode (listed ++ SnapshotName.ending) := by
  simp only [listedName?, Option.bind_eq_bind, Option.bind_eq_some_iff, Utf8.decode?_eq_some_iff,
    Text.dropBack?_eq_some_iff]
  constructor
  · rintro ⟨text, rfl, stem, hstem, h⟩
    split at h
    · cases h
    next hne =>
    cases h
    constructor
    · rintro hempty
      apply hne
      rw [String.ofList_eq_empty_iff.1 hempty]
      rfl
    · have htext : text = String.ofList stem ++ SnapshotName.ending := by
        rw [← String.toList_inj, hstem, String.toList_append, String.toList_ofList]
      rw [htext]
  · rintro ⟨hne, rfl⟩
    refine ⟨_, rfl, listed.toList, String.toList_append, ?_⟩
    rw [if_neg, String.ofList_toList]
    rw [List.isEmpty_iff, String.toList_eq_nil_iff]
    exact hne

/-- A hidden file is not listed. -/
theorem listedName?_hiddenName (name : SnapshotName) (process count : Nat) :
    listedName? (Saving.hiddenName name process count) = none := by
  rw [Option.eq_none_iff_forall_ne_some]
  intro listed h
  exact Saving.hiddenName_ne_encode name process count listed (listedName?_eq_some_iff.1 h).2

end Archive

end ShowRelay
