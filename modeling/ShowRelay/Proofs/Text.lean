/-
  ShowRelay.Proofs.Text

  What is written for numbers, and for pieces with a separator between them.
  Numbers that are written out as digits are read again, whatever stands after
  them that is no digit (`Text.NumeralForm.read_toDigits`). The first digit of a
  number is a zero only if the number is, so that a form without superfluous
  zeros admits every number as it is written.
-/

import Mathlib.Data.List.TakeWhile
import ShowRelay.Text.Numeral

namespace ShowRelay.Text

/-! ## Pieces -/

/-- Joined pieces are the first one, and each of the others after a separator. -/
theorem intercalate_cons {α : Type} (sep : α) (piece : List α) (pieces : List (List α)) :
    [sep].intercalate (piece :: pieces) = piece ++ pieces.flatMap fun p => sep :: p := by
  induction pieces generalizing piece with
  | nil => simp
  | cons next pieces ih =>
    rw [List.intercalate_cons_cons, ih, List.flatMap_cons]
    simp

/-! ## Digits -/

theorem digitValue?_digitChar {base n : Nat} (hbase : base ≤ 16) (hn : n < base) :
    digitValue? base n.digitChar = some n := by
  have hall : ∀ base : Fin 17, ∀ n : Fin base, digitValue? base n.val.digitChar = some n.val := by
    decide
  exact hall ⟨base, by omega⟩ ⟨n, hn⟩

/-- The hexadecimal digits. -/
theorem digitValue?_sixteen (c : Char) :
    digitValue? 16 c =
      if 48 ≤ c.toNat ∧ c.toNat ≤ 57 then some (c.toNat - 48)
      else if 97 ≤ c.toNat ∧ c.toNat ≤ 102 then some (c.toNat - 87)
      else if 65 ≤ c.toNat ∧ c.toNat ≤ 70 then some (c.toNat - 55)
      else none := by
  have hzero : '0'.toNat = 48 ∧ '9'.toNat = 57 := ⟨rfl, rfl⟩
  have hsmall : 'a'.toNat = 97 ∧ 'f'.toNat = 102 := ⟨rfl, rfl⟩
  have hcapital : 'A'.toNat = 65 ∧ 'F'.toNat = 70 := ⟨rfl, rfl⟩
  have hbelow : ∀ {n m : Nat}, n = m → m < 16 → (some n).filter (· < 16) = some m := by
    rintro n _ rfl hn
    rw [Option.filter_some, if_pos (decide_eq_true hn)]
  simp only [digitValue?, hzero, hsmall, hcapital]
  split
  · exact hbelow rfl (by omega)
  · split
    · exact hbelow (by omega) (by omega)
    · split
      · exact hbelow (by omega) (by omega)
      · rfl

theorem isDigitOf_digitChar {base n : Nat} (hbase : base ≤ 16) (hn : n < base) :
    isDigitOf base n.digitChar = true := by
  rw [isDigitOf, digitValue?_digitChar hbase hn, Option.isSome_some]

theorem appendDigits_concat (base value : Nat) (digits : List Char) (c : Char) :
    appendDigits base value (digits ++ [c]) =
      appendDigits base value digits * base + (digitValue? base c).getD 0 := by
  rw [appendDigits, List.foldl_append]
  rfl

section

variable {base : Nat} (hone : 1 < base) (hbase : base ≤ 16)
include hone hbase

theorem isDigitOf_of_mem_toDigits {n : Nat} {c : Char} (h : c ∈ Nat.toDigits base n) :
    isDigitOf base c = true := by
  induction n using Nat.strongRecOn with
  | ind n ih =>
    rw [Nat.toDigits_eq_if hone] at h
    split at h
    · next hlt =>
      rw [List.mem_singleton.1 h]
      exact isDigitOf_digitChar hbase hlt
    · next hge =>
      rcases List.mem_append.1 h with h | h
      · exact ih (n / base) (Nat.div_lt_self (by omega) hone) h
      · rw [List.mem_singleton.1 h]
        exact isDigitOf_digitChar hbase (Nat.mod_lt n (by omega))

theorem digitsValue_toDigits (n : Nat) : digitsValue base (Nat.toDigits base n) = n := by
  induction n using Nat.strongRecOn with
  | ind n ih =>
    rw [Nat.toDigits_eq_if hone]
    split
    · next hlt => simp [digitsValue, appendDigits, digitValue?_digitChar hbase hlt]
    · next hge =>
      have hfront := ih (n / base) (Nat.div_lt_self (by omega) hone)
      have hlast := digitValue?_digitChar hbase (Nat.mod_lt n (by omega : 0 < base))
      rw [digitsValue] at hfront ⊢
      rw [appendDigits_concat, hfront, hlast, Option.getD_some]
      exact Nat.div_add_mod' n base

/-- Only the number zero begins with a zero. -/
theorem eq_zero_of_head?_toDigits {n : Nat} (h : (Nat.toDigits base n).head? = some '0') :
    n = 0 := by
  induction n using Nat.strongRecOn with
  | ind n ih =>
    rw [Nat.toDigits_eq_if hone] at h
    split at h
    · rw [List.head?_cons, Option.some.injEq, Nat.digitChar_eq_zero] at h
      exact h
    · next hge =>
      obtain ⟨c, digits, hcons⟩ := List.exists_cons_of_ne_nil
        (Nat.toDigits_ne_nil (n := n / base) (b := base))
      rw [hcons, List.cons_append, List.head?_cons, ← List.head?_cons (l := digits), ← hcons] at h
      have hzero := ih (n / base) (Nat.div_lt_self (by omega) hone) h
      rcases Nat.div_eq_zero_iff.1 hzero with hzero | hlt
      · omega
      · omega

end

/-! ## Numerals -/

/-- The next character does not go on with a numeral. -/
def NoDigit (base : Nat) (s : List Char) : Prop := ∀ c ∈ s.head?, isDigitOf base c = false

variable {base : Nat} {digits s : List Char}

theorem takeWhile_isDigitOf (hdigits : ∀ c ∈ digits, isDigitOf base c = true)
    (hs : NoDigit base s) : (digits ++ s).takeWhile (isDigitOf base) = digits := by
  rw [List.takeWhile_append_of_pos hdigits]
  cases s with
  | nil => rw [List.takeWhile_nil, List.append_nil]
  | cons c s =>
    have hc : ¬isDigitOf base c = true := by simp [hs c rfl]
    rw [List.takeWhile_cons_of_neg hc, List.append_nil]

theorem dropWhile_isDigitOf (hdigits : ∀ c ∈ digits, isDigitOf base c = true)
    (hs : NoDigit base s) : (digits ++ s).dropWhile (isDigitOf base) = s := by
  rw [List.dropWhile_append_of_pos hdigits]
  cases s with
  | nil => rfl
  | cons c s =>
    have hc : ¬isDigitOf base c = true := by simp [hs c rfl]
    rw [List.dropWhile_cons_of_neg hc]

/-- Without a digit there is no numeral. -/
theorem NumeralForm.read_of_noDigit (form : NumeralForm) (hs : NoDigit form.base s) :
    form.read s = none := by
  have hnone : s.takeWhile (isDigitOf form.base) = [] :=
    takeWhile_isDigitOf (by simp : ∀ c ∈ [], isDigitOf form.base c = true) hs
  simp only [read, hnone, List.isEmpty_nil, if_true]

/-- A number that is below the limit of a form, and not too long for it, is read as it is
    written. -/
theorem NumeralForm.read_toDigits (form : NumeralForm) (hone : 1 < form.base)
    (hbase : form.base ≤ 16) {n : Nat} (hn : n < form.limit)
    (hlength : ∀ m ∈ form.maxDigits, (Nat.toDigits form.base n).length ≤ m)
    (hs : NoDigit form.base s) :
    form.read (Nat.toDigits form.base n ++ s) = some (n, s) := by
  have hdigits : ∀ c ∈ Nat.toDigits form.base n, isDigitOf form.base c = true :=
    fun c hc => isDigitOf_of_mem_toDigits hone hbase hc
  have hvalue : appendDigits form.base 0 (Nat.toDigits form.base n) = n :=
    digitsValue_toDigits hone hbase n
  have hempty : (Nat.toDigits form.base n).isEmpty = false := by
    rw [List.isEmpty_eq_false_iff]
    exact Nat.toDigits_ne_nil
  have hlong : form.maxDigits.any (· < (Nat.toDigits form.base n).length) = false := by
    cases hm : form.maxDigits with
    | none => rfl
    | some m =>
      have hle := hlength m (by rw [hm, Option.mem_some_iff])
      simpa using hle
  have hzero : (!form.leadingZeros && (Nat.toDigits form.base n).head? = some '0' &&
      1 < (Nat.toDigits form.base n).length) = false := by
    by_cases hhead : (Nat.toDigits form.base n).head? = some '0'
    · obtain rfl := eq_zero_of_head?_toDigits hone hbase hhead
      have hsingle : (Nat.toDigits form.base 0).length = 1 := by
        rw [Nat.toDigits_of_lt_base (by omega), List.length_singleton]
      rw [hsingle]
      simp
    · simp [hhead]
  simp only [read, takeWhile_isDigitOf hdigits hs, dropWhile_isDigitOf hdigits hs, hempty, hlong,
    hzero, valueBelow?_eq (by omega : 0 < form.base) (by omega : 0 < form.limit), hvalue, if_pos hn]
  rfl

end ShowRelay.Text
