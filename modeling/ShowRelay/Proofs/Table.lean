/-
  ShowRelay.Proofs.Table

  More about entry lists and tables. The last entry of a key in a list to which
  entries are added at the end, what becomes of a key that is given a value and then
  another or none, and the keys of a table as an ascending list.
-/

import ShowRelay.Table

namespace ShowRelay

variable {κ υ : Type}

/-! ## The last entry of a key -/

namespace Entries

variable [DecidableEq κ]

theorem last?_append (key : κ) (xs ys : List (κ × υ)) :
    last? key (xs ++ ys) = (last? key ys).or (last? key xs) := by
  induction xs with
  | nil => rw [List.nil_append, last?, Option.or_none]
  | cons e xs ih => rw [List.cons_append, last?, last?, ih, Option.or_assoc]

theorem last?_concat (key : κ) (xs : List (κ × υ)) (e : κ × υ) :
    last? key (xs ++ [e]) = if e.1 = key then some e.2 else last? key xs := by
  rw [last?_append]
  by_cases h : e.1 = key
  · rw [last?, last?, Option.none_or, if_pos h, if_pos h, Option.some_or]
  · rw [last?, last?, Option.none_or, if_neg h, if_neg h, Option.none_or]

theorem mem_of_last? {key : κ} {value : υ} {xs : List (κ × υ)} (h : last? key xs = some value) :
    (key, value) ∈ xs := by
  induction xs with
  | nil => cases h
  | cons e xs ih =>
    rw [last?, Option.or_eq_some_iff] at h
    rcases h with h | ⟨-, h⟩
    · exact List.mem_cons_of_mem e (ih h)
    · split at h
      · next hkey =>
        cases h
        cases hkey
        exact List.mem_cons_self
      · cases h

theorem last?_eq_none_iff {key : κ} {xs : List (κ × υ)} :
    last? key xs = none ↔ ∀ e ∈ xs, e.1 ≠ key := by
  induction xs with
  | nil => exact ⟨fun _ => nofun, fun _ => rfl⟩
  | cons e xs ih =>
    have hfirst : (if e.1 = key then some e.2 else none) = none ↔ e.1 ≠ key := by
      rw [ite_eq_right_iff]
      exact ⟨fun h hkey => absurd (h hkey) nofun, fun h hkey => absurd hkey h⟩
    rw [last?, Option.or_eq_none_iff, ih, List.forall_mem_cons, hfirst, and_comm]

/-- Keys and values may be renamed, as long as no two keys become the same. -/
theorem last?_map {κ' υ' : Type} [DecidableEq κ'] {f : κ → κ'} (hf : ∀ {a b}, f a = f b → a = b)
    (g : υ → υ') (key : κ) (xs : List (κ × υ)) :
    last? (f key) (xs.map fun e => (f e.1, g e.2)) = (last? key xs).map g := by
  induction xs with
  | nil => rfl
  | cons e xs ih =>
    rw [List.map_cons, last?, last?, ih, Option.map_or]
    by_cases h : e.1 = key
    · rw [if_pos h, if_pos (congrArg f h), Option.map_some]
    · rw [if_neg h, if_neg fun heq => h (hf heq), Option.map_none]

end Entries

/-! ## Tables -/

namespace Table

/-- Removing several keys, one after the other. -/
theorem get?_foldl_erase [LT κ] [DecidableEq κ] (keys : List κ) (t : Table κ υ) (key : κ) :
    (keys.foldl Table.erase t).get? key = if key ∈ keys then none else t.get? key := by
  induction keys generalizing t with
  | nil => simp
  | cons k keys ih =>
    rw [List.foldl_cons, ih, Table.get?_erase]
    by_cases hk : key = k
    · simp [hk]
    · simp [hk]

section

variable [LE κ] [LT κ] [DecidableEq κ] [Std.IsLinearOrder κ] [Std.LawfulOrderLT κ]

/-- A key that has no value is not missed. -/
theorem erase_eq_self {t : Table κ υ} {key : κ} (h : t.get? key = none) : t.erase key = t := by
  apply ext_get?
  intro other
  rw [get?_erase]
  by_cases ho : other = key
  · rw [if_pos ho, ho, h]
  · rw [if_neg ho]

variable [DecidableLT κ]

/-- Of two values of a key the second stays. -/
theorem insert_insert (t : Table κ υ) (key : κ) (value last : υ) :
    (t.insert key value).insert key last = t.insert key last := by
  apply ext_get?
  intro other
  rw [get?_insert, get?_insert, get?_insert]
  by_cases ho : other = key
  · rw [if_pos ho, if_pos ho]
  · rw [if_neg ho, if_neg ho, if_neg ho]

/-- Erasing a new key undoes its insertion. -/
theorem erase_insert {t : Table κ υ} {key : κ} (h : t.get? key = none) (value : υ) :
    (t.insert key value).erase key = t := by
  apply ext_get?
  intro other
  rw [get?_erase, get?_insert]
  by_cases ho : other = key
  · rw [if_pos ho, ho, h]
  · rw [if_neg ho, if_neg ho]

end

theorem pairwise_keys [LT κ] (t : Table κ υ) : t.keys.Pairwise (· < ·) :=
  List.pairwise_map.2 t.ascending

theorem nodup_keys [LE κ] [LT κ] [Std.IsLinearOrder κ] [Std.LawfulOrderLT κ] (t : Table κ υ) :
    t.keys.Nodup := by
  refine t.pairwise_keys.imp fun hlt heq => ?_
  subst heq
  exact Std.lt_irrefl hlt

theorem mem_keys_iff [LE κ] [LT κ] [DecidableEq κ] [Std.LawfulOrderLT κ] {t : Table κ υ} {key : κ} :
    key ∈ t.keys ↔ ∃ value, t.get? key = some value := by
  simp only [keys, List.mem_map, Prod.exists, exists_and_right, exists_eq_right]
  constructor
  · rintro ⟨value, h⟩
    exact ⟨value, mem_entries_iff.1 h⟩
  · rintro ⟨value, h⟩
    exact ⟨value, mem_entries_iff.2 h⟩

/-- The keys of entries inserted into the empty table are theirs. -/
theorem mem_keys_insertAll_iff [LE κ] [LT κ] [DecidableLT κ] [DecidableEq κ]
    [Std.IsLinearOrder κ] [Std.LawfulOrderLT κ] {xs : List (κ × υ)} {key : κ} :
    key ∈ ((empty : Table κ υ).insertAll xs).keys ↔ ∃ value, (key, value) ∈ xs := by
  simp only [mem_keys_iff, get?_insertAll, get?_empty, Option.or_none]
  constructor
  · rintro ⟨value, h⟩
    exact ⟨value, Entries.mem_of_last? h⟩
  · rintro ⟨value, h⟩
    apply Option.ne_none_iff_exists'.1
    intro hnone
    exact Entries.last?_eq_none_iff.1 hnone _ h rfl

end Table

end ShowRelay
