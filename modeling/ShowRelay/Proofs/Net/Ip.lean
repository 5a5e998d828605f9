/-
  ShowRelay.Proofs.Net.Ip

  An IP address that is written is read again. Version 4 is four numerals with
  dots between them. An address of version 6 has one of three forms: all eight
  groups, two runs of groups about a `::`, or a dotted end. In each form groups
  are read as long as there are any (`Ipv6.readGroups_groupsText`), and the zero
  groups that were left out are as many as are missing.

  Wherever a group may stand, a dotted address is looked for first. It is not
  found in a group, since no dot follows one (`Ipv4.read_of_noDot`); this is also
  why no address of version 6 is taken for one of version 4.
-/

import ShowRelay.Net.Ip
import ShowRelay.Proofs.Text

namespace ShowRelay

/-! ## What follows a numeral -/

namespace Text

theorem noDigit_nil (base : Nat) : NoDigit base [] := nofun

theorem noDigit_cons {base : Nat} {c : Char} (h : isDigitOf base c = false) (s : List Char) :
    NoDigit base (c :: s) := by
  intro d hd
  obtain rfl := Option.some.inj hd
  exact h

/-- Decimal digits are hexadecimal ones. -/
theorem isDigitOf_sixteen {c : Char} (h : isDigitOf 10 c = true) : isDigitOf 16 c = true := by
  obtain ⟨value, hvalue⟩ : ∃ value : Option Nat, ∀ base,
      digitValue? base c = value.filter (· < base) := ⟨_, fun _ => rfl⟩
  rw [isDigitOf, hvalue] at h ⊢
  cases value with
  | none => exact h
  | some n =>
    rw [Option.isSome_filter, Option.any_some, decide_eq_true_iff] at h ⊢
    omega

theorem NoDigit.ten {s : List Char} (h : NoDigit 16 s) : NoDigit 10 s := by
  intro c hc
  rw [← Bool.not_eq_true]
  intro hten
  have hsixteen := h c hc
  rw [isDigitOf_sixteen hten] at hsixteen
  cases hsixteen

theorem readChar_cons (c : Char) (s : List Char) : readChar c (c :: s) = some s := by
  simp [readChar]

theorem readChar_eq_none {c : Char} {s : List Char} (h : s.head? ≠ some c) :
    readChar c s = none := by
  cases s with
  | nil => rfl
  | cons d s =>
    rw [readChar, if_neg]
    rintro rfl
    exact h rfl

/-- What is left after a numeral is what follows its digits. -/
theorem NumeralForm.rest_of_read {form : NumeralForm} {s rest : List Char} {n : Nat}
    (h : form.read s = some (n, rest)) : rest = s.dropWhile (isDigitOf form.base) := by
  simp only [read] at h
  split at h
  · cases h
  split at h
  · cases h
  split at h
  · cases h
  · obtain ⟨value, -, heq⟩ := Option.map_eq_some_iff.1 h
    exact (Prod.mk.inj heq).2.symm

end Text

/-! ## Version 4 -/

namespace Ipv4

open Text

theorem readOctet_octetText (n : UInt8) {s : List Char} (hs : NoDigit 10 s) :
    readOctet (octetText n ++ s) = some (n, s) := by
  have hn : n.toNat < 256 := n.toNat_lt
  have hlength : (Nat.toDigits 10 n.toNat).length ≤ 3 := by
    rw [Nat.length_toDigits_le_iff (by decide) (by decide)]
    omega
  have hread := NumeralForm.read_toDigits
    { base := 10, limit := 256, maxDigits := some 3, leadingZeros := false }
    (by decide) (by decide) hn (by simpa using hlength) hs
  simp only [readOctet, octetText, hread, Option.map_some, UInt8.ofNat_toNat]

/-- A dotted address is read as it is written. -/
theorem read_chars (ip : Ipv4) {s : List Char} (hs : NoDigit 10 s) :
    read (ip.chars ++ s) = some (ip, s) := by
  have hdot : ∀ t, NoDigit 10 ('.' :: t) := noDigit_cons (by decide)
  simp only [read, chars, List.append_assoc, List.cons_append, readOctet_octetText _ (hdot _),
    readChar_cons, readOctet_octetText _ hs, Option.bind_eq_bind, Option.bind_some,
    Option.pure_def]

/-- There is no dotted address where no dot follows the first digits. -/
theorem read_of_noDot {digits s : List Char} (hdigits : ∀ c ∈ digits, isDigitOf 16 c = true)
    (hs : NoDigit 16 s) (hdot : s.head? ≠ some '.') : read (digits ++ s) = none := by
  have hhead : ((digits ++ s).dropWhile (isDigitOf 10)).head? ≠ some '.' := by
    induction digits with
    | nil =>
      rwa [dropWhile_isDigitOf (by simp) hs.ten]
    | cons c digits ih =>
      rw [List.cons_append, List.dropWhile_cons]
      split
      · exact ih fun d hd => hdigits d (List.mem_cons_of_mem c hd)
      · intro heq
        obtain rfl := Option.some.inj heq
        have hhex := hdigits '.' List.mem_cons_self
        exact absurd hhex (by decide)
  cases hoctet : readOctet (digits ++ s) with
  | none => simp [read, hoctet]
  | some octet =>
    obtain ⟨n, rest⟩ := octet
    obtain ⟨⟨value, rest'⟩, hread, heq⟩ := Option.map_eq_some_iff.1 hoctet
    obtain ⟨-, rfl⟩ := Prod.mk.inj heq
    obtain rfl := NumeralForm.rest_of_read hread
    simp [read, hoctet, readChar_eq_none hhead]

theorem read_of_noDigit {s : List Char} (hs : NoDigit 10 s) : read s = none := by
  have hoctet : readOctet s = none := by
    rw [readOctet, NumeralForm.read_of_noDigit _ hs, Option.map_none]
  simp [read, hoctet]

/-- The groups of an address hold its octets. -/
theorem groups_ofGroups (high low : UInt16) : (ofGroups high low).groups = [high, low] := by
  have hsum : ∀ g : UInt16, (g / 256).toUInt8.toUInt16 * 256 + g.toUInt8.toUInt16 = g := by
    intro g
    have hg := g.toNat_lt
    apply UInt16.toNat_inj.1
    simp only [UInt16.toNat_add, UInt16.toNat_mul, UInt8.toNat_toUInt16, UInt16.toNat_toUInt8,
      UInt16.toNat_div]
    have h256 : (256 : UInt16).toNat = 256 := rfl
    rw [h256]
    omega
  simp only [groups, ofGroups, hsum]

end Ipv4

/-! ## Version 6 -/

namespace Ipv6

open Text

/-- Nothing at the front of a text goes on with a run of groups. -/
structure EndsGroups (s : List Char) : Prop where
  noDigit : NoDigit 16 s
  noDot : s.head? ≠ some '.'
  -- A colon may follow if no group does.
  noGroup : ∀ t, s = ':' :: t → NoDigit 16 t

theorem endsGroups_nil : EndsGroups [] := ⟨noDigit_nil 16, nofun, nofun⟩

theorem endsGroups_cons {c : Char} (hdigit : isDigitOf 16 c = false) (hdot : c ≠ '.')
    (hcolon : c ≠ ':') (s : List Char) : EndsGroups (c :: s) where
  noDigit := noDigit_cons hdigit s
  noDot h := hdot (Option.some.inj h)
  noGroup _ h := absurd (List.cons.inj h).1 hcolon

/-- A `::` ends a run of groups. -/
theorem endsGroups_colons (s : List Char) : EndsGroups (':' :: ':' :: s) where
  noDigit := noDigit_cons (by decide) _
  noDot := by simp
  noGroup t h := by
    obtain rfl := (List.cons.inj h).2
    exact noDigit_cons (by decide) s

/-! ### One group -/

theorem isDigitOf_of_mem_groupText {g : UInt16} {c : Char} (h : c ∈ groupText g) :
    isDigitOf 16 c = true :=
  isDigitOf_of_mem_toDigits (by decide) (by decide) h

theorem readGroup_groupText (g : UInt16) {s : List Char} (hs : NoDigit 16 s) :
    readGroup (groupText g ++ s) = some (g, s) := by
  have hg : g.toNat < 65536 := g.toNat_lt
  have hlength : (Nat.toDigits 16 g.toNat).length ≤ 4 := by
    rw [Nat.length_toDigits_le_iff (by decide) (by decide)]
    omega
  have hread := NumeralForm.read_toDigits { base := 16, limit := 65536, maxDigits := some 4 }
    (by decide) (by decide) hg (by simpa using hlength) hs
  simp only [readGroup, groupText, hexDigits, hread, Option.map_some, UInt16.ofNat_toNat]

theorem readGroup_of_noDigit {s : List Char} (hs : NoDigit 16 s) : readGroup s = none := by
  rw [readGroup, NumeralForm.read_of_noDigit _ hs, Option.map_none]

/-! ### A run of groups -/

/-- The text of the groups that follow another. -/
def furtherText (groups : List UInt16) : List Char := groups.flatMap fun g => ':' :: groupText g

theorem groupsText_cons (g : UInt16) (gs : List UInt16) :
    groupsText (g :: gs) = groupText g ++ furtherText gs := by
  rw [groupsText, List.map_cons, intercalate_cons, List.flatMap_map]
  rfl

section

variable {gs : List UInt16} {s : List Char}

/-- After a group comes a colon or what ends the run. -/
theorem noDigit_furtherText (hs : EndsGroups s) : NoDigit 16 (furtherText gs ++ s) := by
  cases gs with
  | nil => exact hs.noDigit
  | cons g gs => exact noDigit_cons (by decide) _

theorem noDot_furtherText (hs : EndsGroups s) : (furtherText gs ++ s).head? ≠ some '.' := by
  cases gs with
  | nil => exact hs.noDot
  | cons g gs => simp [furtherText]

/-- No dotted address begins with a group. -/
theorem ipv4_read_groupText (g : UInt16) (hs : EndsGroups s) :
    Ipv4.read (groupText g ++ (furtherText gs ++ s)) = none :=
  Ipv4.read_of_noDot (fun _ hc => isDigitOf_of_mem_groupText hc) (noDigit_furtherText hs)
    (noDot_furtherText hs)

theorem readGroups_of_noDigit {room : Nat} (hs : NoDigit 16 s) :
    readGroups room true s = ⟨[], false, s⟩ := by
  cases room with
  | zero => rfl
  | succ room =>
    simp [readGroups, Ipv4.read_of_noDigit hs.ten, readGroup_of_noDigit hs]

theorem readGroups_of_endsGroups {room : Nat} (hs : EndsGroups s) :
    readGroups room false s = ⟨[], false, s⟩ := by
  cases room with
  | zero => rfl
  | succ room =>
    by_cases hcolon : s.head? = some ':'
    · cases s with
      | nil => cases hcolon
      | cons c t =>
        obtain rfl := Option.some.inj hcolon
        have ht := hs.noGroup t rfl
        simp [readGroups, readChar_cons, Ipv4.read_of_noDigit ht.ten, readGroup_of_noDigit ht]
    · simp [readGroups, readChar_eq_none hcolon]

/-- Groups are read one by one, as far as there is room for them. -/
theorem readGroups_furtherText {room : Nat} (hroom : gs.length ≤ room) (hs : EndsGroups s) :
    readGroups room false (furtherText gs ++ s) = ⟨gs, false, s⟩ := by
  induction gs generalizing room with
  | nil => exact readGroups_of_endsGroups hs
  | cons g gs ih =>
    obtain ⟨room, rfl⟩ : ∃ r, room = r + 1 := ⟨room - 1, by rw [List.length_cons] at hroom; omega⟩
    have htext : furtherText (g :: gs) ++ s = ':' :: (groupText g ++ (furtherText gs ++ s)) := by
      simp [furtherText]
    have hrest := ih (Nat.le_of_succ_le_succ hroom)
    simp [readGroups, htext, readChar_cons, ipv4_read_groupText g hs,
      readGroup_groupText g (noDigit_furtherText hs), hrest]

theorem readGroups_groupsText {room : Nat} (hroom : gs.length ≤ room) (hs : EndsGroups s) :
    readGroups room true (groupsText gs ++ s) = ⟨gs, false, s⟩ := by
  cases gs with
  | nil => exact readGroups_of_noDigit hs.noDigit
  | cons g gs =>
    obtain ⟨room, rfl⟩ : ∃ r, room = r + 1 := ⟨room - 1, by rw [List.length_cons] at hroom; omega⟩
    have hrest := readGroups_furtherText (Nat.le_of_succ_le_succ hroom) hs
    simp [readGroups, groupsText_cons, ipv4_read_groupText g hs,
      readGroup_groupText g (noDigit_furtherText hs), hrest]

end

/-! ### Groups left out -/

theorem zeroRunAt_le (gs : List UInt16) (i : Nat) : zeroRunAt gs i ≤ gs.length - i := by
  rw [zeroRunAt, ← List.length_drop]
  exact (List.takeWhile_sublist _).length_le

/-- The longest run is found where it is. -/
theorem longestZeroRun_le (gs : List UInt16) :
    (longestZeroRun gs).2 ≤ zeroRunAt gs (longestZeroRun gs).1 := by
  have hfold : ∀ (positions : List Nat) (best : Nat × Nat), best.2 ≤ zeroRunAt gs best.1 →
      let found := positions.foldl
        (fun best i => if best.2 < zeroRunAt gs i then (i, zeroRunAt gs i) else best) best
      found.2 ≤ zeroRunAt gs found.1 := by
    intro positions
    induction positions with
    | nil => exact fun best h => h
    | cons i positions ih =>
      intro best h
      rw [List.foldl_cons]
      apply ih
      split
      · exact Nat.le_refl _
      · exact h
  exact hfold _ (0, 0) (Nat.zero_le _)

/-- Zero groups in a row may be left out. -/
theorem take_append_zeros (gs : List UInt16) {start length : Nat}
    (h : length ≤ zeroRunAt gs start) :
    gs.take start ++ List.replicate length 0 ++ gs.drop (start + length) = gs := by
  have hzeros : (gs.drop start).take length = List.replicate length 0 := by
    rw [List.eq_replicate_iff]
    refine ⟨?_, fun g hg => ?_⟩
    · rw [List.length_take, List.length_drop]
      have := zeroRunAt_le gs start
      omega
    · have hrun : (gs.drop start).take length <+: (gs.drop start).takeWhile (· = 0) := by
        rw [List.prefix_iff_eq_take.1 (List.takeWhile_prefix (fun g => decide (g = 0)))]
        exact List.take_prefix_take_left h
      have hzero := List.mem_takeWhile_imp (hrun.subset hg)
      simpa using hzero
  rw [← hzeros, List.append_assoc, ← List.drop_drop, List.take_append_drop,
    List.take_append_drop]

/-! ### Addresses -/

theorem ofGroups?_groups (ip : Ipv6) : ofGroups? ip.groups = some ip := dif_pos ip.length_groups

/-- Two runs of groups about a `::` are read as all groups, with zeros for those missing. -/
theorem read_of_colons {front back : List UInt16} {missing : Nat} (ip : Ipv6)
    (hgroups : ip.groups = front ++ List.replicate missing 0 ++ back) (hmissing : 0 < missing)
    {text : List Char} {dotted : Bool} {s : List Char}
    (hback : readGroups (7 - front.length) true text = ⟨back, dotted, s⟩) :
    read (groupsText front ++ ':' :: ':' :: text) = some (ip, s) := by
  have hlength : front.length + missing + back.length = 8 := by
    rw [← ip.length_groups, hgroups, List.length_append, List.length_append,
      List.length_replicate]
  have hfront := readGroups_groupsText (by omega : front.length ≤ 8)
    (endsGroups_colons text)
  have hcount : 8 - front.length - back.length = missing := by omega
  have hwhole := ofGroups?_groups ip
  rw [hgroups] at hwhole
  simp only [read, hfront, readChar_cons, Option.bind_eq_bind, Option.bind_some, hback, hcount,
    hwhole, Option.pure_def]
  rw [if_neg (by omega), if_neg (by decide)]

theorem groups_of_mapped {ip : Ipv6} {v4 : Ipv4} (h : ip.mapped? = some v4) :
    ip.groups = [] ++ List.replicate 5 0 ++ 0xFFFF :: v4.groups := by
  unfold mapped? at h
  split at h
  · next high low hgroups =>
    obtain rfl := Option.some.inj h
    rw [hgroups, Ipv4.groups_ofGroups]
    rfl
  · cases h

/-- After a group and a colon a dotted address ends the run. -/
theorem readGroups_dotted (g : UInt16) (v4 : Ipv4) {s : List Char} (hs : NoDigit 10 s)
    (room : Nat) :
    readGroups (room + 3) true (groupText g ++ ':' :: (v4.chars ++ s)) =
      ⟨g :: v4.groups, true, s⟩ := by
  have hcolon : NoDigit 16 (':' :: (v4.chars ++ s)) := noDigit_cons (by decide) _
  have hnone : Ipv4.read (groupText g ++ ':' :: (v4.chars ++ s)) = none :=
    Ipv4.read_of_noDot (fun _ hc => isDigitOf_of_mem_groupText hc) hcolon (by simp)
  simp [readGroups, hnone, readGroup_groupText g hcolon, readChar_cons, Ipv4.read_chars v4 hs]

/-- An address of version 6 is read as it is written. -/
theorem read_chars (ip : Ipv6) {s : List Char} (hs : EndsGroups s) :
    read (ip.chars ++ s) = some (ip, s) := by
  unfold chars
  split
  · next v4 hv4 =>
    have htext : "::ffff:".toList ++ v4.chars ++ s =
        groupsText [] ++ ':' :: ':' :: (groupText 0xFFFF ++ ':' :: (v4.chars ++ s)) := rfl
    rw [htext]
    exact read_of_colons ip (groups_of_mapped hv4) (by decide)
      (readGroups_dotted 0xFFFF v4 hs.noDigit.ten 4)
  · unfold compressed
    have hzeros := take_append_zeros ip.groups (longestZeroRun_le ip.groups)
    have hrun := longestZeroRun_le ip.groups
    generalize longestZeroRun ip.groups = run at hzeros hrun ⊢
    obtain ⟨start, length⟩ := run
    dsimp only at hzeros hrun ⊢
    have hbound := zeroRunAt_le ip.groups start
    rw [ip.length_groups] at hbound
    split
    · next hlong =>
      rw [List.append_assoc, List.append_assoc]
      have hback : (ip.groups.drop (start + length)).length ≤
          7 - (ip.groups.take start).length := by
        rw [List.length_drop, List.length_take, ip.length_groups]
        omega
      exact read_of_colons ip hzeros.symm (by omega) (readGroups_groupsText hback hs)
    · have hall := readGroups_groupsText (Nat.le_of_eq ip.length_groups) hs
      simp only [read, hall, ip.length_groups, if_true, ofGroups?_groups, Option.map_some]

/-- An address of version 6 begins with a colon or with a group and a colon. -/
theorem exists_colon (ip : Ipv6) :
    ∃ digits rest, (∀ c ∈ digits, isDigitOf 16 c = true) ∧ ip.chars = digits ++ ':' :: rest := by
  have hrun : ∀ (gs : List UInt16) (rest : List Char),
      ∃ digits rest', (∀ c ∈ digits, isDigitOf 16 c = true) ∧
        groupsText gs ++ ':' :: rest = digits ++ ':' :: rest' := by
    intro gs rest
    cases gs with
    | nil => exact ⟨[], rest, nofun, rfl⟩
    | cons g gs =>
      rw [groupsText_cons, List.append_assoc]
      cases gs with
      | nil => exact ⟨groupText g, rest, fun c => isDigitOf_of_mem_groupText, rfl⟩
      | cons g' gs => exact ⟨groupText g, _, fun c => isDigitOf_of_mem_groupText, rfl⟩
  unfold chars
  split
  · exact ⟨[], _, nofun, rfl⟩
  · unfold compressed
    generalize longestZeroRun ip.groups = run
    dsimp only
    split
    · rw [List.append_assoc]
      exact hrun _ _
    · obtain ⟨groups, hlength⟩ := ip
      match groups, hlength with
      | g :: g' :: gs, hlength =>
        rw [groupsText_cons]
        exact ⟨groupText g, _, fun c => isDigitOf_of_mem_groupText, rfl⟩

/-- No address of version 6 begins with a dotted one. -/
theorem ipv4_read_chars (ip : Ipv6) (s : List Char) : Ipv4.read (ip.chars ++ s) = none := by
  obtain ⟨digits, rest, hdigits, hchars⟩ := ip.exists_colon
  rw [hchars, List.append_assoc, List.cons_append]
  exact Ipv4.read_of_noDot hdigits (noDigit_cons (by decide) _) (by simp)

end Ipv6

/-! ## Either version -/

namespace IpAddress

open Text

/-- An address is read as it is written. -/
theorem read_chars (ip : IpAddress) {s : List Char} (hs : Ipv6.EndsGroups s) :
    read (ip.chars ++ s) = some (ip, s) := by
  cases ip with
  | v4 ip => simp [read, chars, Ipv4.read_chars ip hs.noDigit.ten]
  | v6 ip => simp [read, chars, Ipv6.ipv4_read_chars ip s, Ipv6.read_chars ip hs]

theorem ofChars?_chars (ip : IpAddress) : ofChars? ip.chars = some ip := by
  have hread := ip.read_chars Ipv6.endsGroups_nil
  rw [List.append_nil] at hread
  rw [ofChars?, hread]

/-- The text of an address writes it. -/
theorem ofText?_text (ip : IpAddress) : ofText? ip.text = some ip := by
  rw [ofText?, text, String.toList_ofList, ofChars?_chars]

end IpAddress

end ShowRelay
