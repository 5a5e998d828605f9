/-
  ShowRelay.Table

  Finite maps kept as lists of entries in strictly ascending key order. The
  order is part of the type, so a table is a canonical form: two tables with the
  same look-ups are equal (`Table.ext_get?`).

  Lists of entries are treated first, because the contents of a sub-folder are
  held as a bare list; tables then carry the order along.
-/

namespace ShowRelay

variable {κ υ : Type}

/-! ## Entry lists -/

namespace Entries

/-- Insertion before the first larger key, replacing an entry of the same key. -/
def insert [LT κ] [DecidableLT κ] [DecidableEq κ] (key : κ) (value : υ) :
    List (κ × υ) → List (κ × υ)
  | [] => [(key, value)]
  | (k, v) :: rest =>
    if key < k then (key, value) :: (k, v) :: rest
    else if key = k then (key, value) :: rest
    else (k, v) :: insert key value rest

/-- Removal of the entries of a key. -/
def erase [DecidableEq κ] (key : κ) (entries : List (κ × υ)) : List (κ × υ) :=
  entries.filter fun e => !decide (e.1 = key)

/-- The value of the first entry of a key. -/
def get? [DecidableEq κ] (key : κ) : List (κ × υ) → Option υ
  | [] => none
  | (k, v) :: rest => if k = key then some v else get? key rest

/-- The value of the last entry of a key. -/
def last? [DecidableEq κ] (key : κ) : List (κ × υ) → Option υ
  | [] => none
  | e :: rest => (last? key rest).or (if e.1 = key then some e.2 else none)

/-- Keys ascend strictly from entry to entry. -/
def Ascending [LT κ] (entries : List (κ × υ)) : Prop :=
  entries.Pairwise fun a b => a.1 < b.1

theorem mem_of_get? [DecidableEq κ] {key : κ} {value : υ} {entries : List (κ × υ)}
    (h : get? key entries = some value) : (key, value) ∈ entries := by
  induction entries with
  | nil => simp [get?] at h
  | cons e rest ih =>
    obtain ⟨k, v⟩ := e
    by_cases hk : k = key
    · simp only [get?, if_pos hk, Option.some.injEq] at h
      simp [hk, h]
    · simp only [get?, if_neg hk] at h
      exact List.mem_cons_of_mem _ (ih h)

theorem get?_eq_none_iff [DecidableEq κ] {key : κ} {entries : List (κ × υ)} :
    get? key entries = none ↔ ∀ e ∈ entries, e.1 ≠ key := by
  induction entries with
  | nil => simp [get?]
  | cons e rest ih =>
    obtain ⟨k, v⟩ := e
    by_cases hk : k = key <;> simp [get?, hk, ih]

theorem get?_erase [DecidableEq κ] (key other : κ) (entries : List (κ × υ)) :
    get? other (erase key entries) = if other = key then none else get? other entries := by
  induction entries with
  | nil => simp [erase, get?]
  | cons e rest ih =>
    obtain ⟨k, v⟩ := e
    have ih' : get? other (rest.filter fun e => !decide (e.1 = key)) = _ := ih
    by_cases hk : k = key
    · subst hk
      by_cases ho : other = k
      · subst ho
        simpa [erase] using ih'
      · simp [erase, get?, ih', ho, Ne.symm ho]
    · by_cases ho : other = key
      · subst ho
        simp [erase, get?, ih', hk]
      · simp [erase, get?, ih', hk, ho]

theorem ascending_erase [LT κ] [DecidableEq κ] {key : κ} {entries : List (κ × υ)}
    (h : Ascending entries) : Ascending (erase key entries) :=
  List.Pairwise.filter _ h

theorem mem_insert [LT κ] [DecidableLT κ] [DecidableEq κ] {key : κ} {value : υ}
    {entries : List (κ × υ)} {e : κ × υ}
    (h : e ∈ insert key value entries) : e = (key, value) ∨ e ∈ entries := by
  induction entries with
  | nil => simpa [insert] using h
  | cons f rest ih =>
    obtain ⟨k, v⟩ := f
    simp only [insert] at h
    split at h
    · simpa using h
    · split at h
      · rcases List.mem_cons.1 h with h | h
        · exact .inl h
        · exact .inr (List.mem_cons_of_mem _ h)
      · rcases List.mem_cons.1 h with h | h
        · exact .inr (List.mem_cons.2 (.inl h))
        · rcases ih h with h | h
          · exact .inl h
          · exact .inr (List.mem_cons_of_mem _ h)

theorem ascending_insert [LE κ] [LT κ] [DecidableLT κ] [DecidableEq κ]
    [Std.IsLinearOrder κ] [Std.LawfulOrderLT κ]
    {key : κ} {value : υ} {entries : List (κ × υ)}
    (h : Ascending entries) : Ascending (insert key value entries) := by
  induction entries with
  | nil => exact List.pairwise_singleton _ _
  | cons e rest ih =>
    obtain ⟨k, v⟩ := e
    obtain ⟨hk, hrest⟩ := List.pairwise_cons.1 h
    simp only [insert]
    split
    · next hlt =>
      refine List.pairwise_cons.2 ⟨fun f hf => ?_, h⟩
      rcases List.mem_cons.1 hf with rfl | hf
      · exact hlt
      · exact Std.lt_trans hlt (hk f hf)
    · split
      · next heq =>
        subst heq
        exact List.pairwise_cons.2 ⟨hk, hrest⟩
      · next hnlt hne =>
        have hgt : k < key := by
          rcases Std.lt_trichotomy key k with h | h | h
          · exact absurd h hnlt
          · exact absurd h hne
          · exact h
        refine List.pairwise_cons.2 ⟨fun f hf => ?_, ih hrest⟩
        rcases mem_insert hf with rfl | hf
        · exact hgt
        · exact hk f hf

theorem get?_insert [LT κ] [DecidableLT κ] [DecidableEq κ] (key other : κ) (value : υ)
    (entries : List (κ × υ)) :
    get? other (insert key value entries) =
      if other = key then some value else get? other entries := by
  induction entries with
  | nil => simp [insert, get?, eq_comm]
  | cons e rest ih =>
    obtain ⟨k, v⟩ := e
    simp only [insert]
    split
    · by_cases ho : other = key
      · simp [get?, ho]
      · simp [get?, ho, Ne.symm ho]
    · split
      · next heq =>
        subst heq
        by_cases ho : other = key
        · simp [get?, ho]
        · simp [get?, ho, Ne.symm ho]
      · next hnlt hne =>
        by_cases ho : other = key
        · subst ho
          simp [get?, Ne.symm hne, ih]
        · simp [get?, ho, ih]

end Entries

/-! ## Tables -/

/-- A finite map from keys to values, held in ascending key order. -/
structure Table (κ υ : Type) [LT κ] where
  entries : List (κ × υ)
  -- Each key is smaller than all keys after it.
  ascending : Entries.Ascending entries

namespace Table

section

variable [LT κ]

/-- The table without entries. -/
def empty : Table κ υ := ⟨[], List.Pairwise.nil⟩

instance : Inhabited (Table κ υ) := ⟨empty⟩

/-- The keys, ascending. -/
def keys (t : Table κ υ) : List κ := t.entries.map Prod.fst

/-- The values in the order of their keys. -/
def values (t : Table κ υ) : List υ := t.entries.map Prod.snd

/-- The number of entries. -/
def size (t : Table κ υ) : Nat := t.entries.length

/-- The value of a key. -/
def get? [DecidableEq κ] (t : Table κ υ) (key : κ) : Option υ := Entries.get? key t.entries

/-- Whether a key has a value. -/
def contains [DecidableEq κ] (t : Table κ υ) (key : κ) : Bool := (t.get? key).isSome

/-- The table without a key. -/
def erase [DecidableEq κ] (t : Table κ υ) (key : κ) : Table κ υ :=
  ⟨Entries.erase key t.entries, Entries.ascending_erase t.ascending⟩

theorem get?_empty [DecidableEq κ] (key : κ) : (empty : Table κ υ).get? key = none := rfl

theorem get?_erase [DecidableEq κ] (t : Table κ υ) (key other : κ) :
    (t.erase key).get? other = if other = key then none else t.get? other :=
  Entries.get?_erase key other t.entries

theorem ext {s t : Table κ υ} (h : s.entries = t.entries) : s = t := by
  cases s; cases t; cases h; rfl

end

theorem mem_entries_iff [LE κ] [LT κ] [DecidableEq κ] [Std.LawfulOrderLT κ]
    {t : Table κ υ} {key : κ} {value : υ} :
    (key, value) ∈ t.entries ↔ t.get? key = some value := by
  refine ⟨fun h => ?_, Entries.mem_of_get?⟩
  obtain ⟨entries, ascending⟩ := t
  simp only [get?] at *
  induction entries with
  | nil => simp at h
  | cons e rest ih =>
    obtain ⟨k, v⟩ := e
    obtain ⟨hk, hrest⟩ := List.pairwise_cons.1 ascending
    rcases List.mem_cons.1 h with h | h
    · cases h
      simp [Entries.get?]
    · have hlt : k < key := hk _ h
      have hne : k ≠ key := fun e => Std.lt_irrefl (e ▸ hlt)
      simp [Entries.get?, hne, ih hrest h]

variable [LE κ] [LT κ] [DecidableLT κ] [DecidableEq κ]
variable [Std.IsLinearOrder κ] [Std.LawfulOrderLT κ]

/-- The table with a key given a value, in place of any it had. -/
def insert (t : Table κ υ) (key : κ) (value : υ) : Table κ υ :=
  ⟨Entries.insert key value t.entries, Entries.ascending_insert t.ascending⟩

/-- The table with entries inserted from left to right; the last value of a key stays. -/
def insertAll (t : Table κ υ) (entries : List (κ × υ)) : Table κ υ :=
  entries.foldl (fun t e => t.insert e.1 e.2) t

/-- The table of some entries; the first value of a key counts. -/
def ofEntries (entries : List (κ × υ)) : Table κ υ :=
  entries.foldr (fun e t => t.insert e.1 e.2) empty

theorem get?_insert (t : Table κ υ) (key other : κ) (value : υ) :
    (t.insert key value).get? other = if other = key then some value else t.get? other :=
  Entries.get?_insert key other value t.entries

theorem get?_ofEntries (entries : List (κ × υ)) (key : κ) :
    (ofEntries entries).get? key = Entries.get? key entries := by
  induction entries with
  | nil => rfl
  | cons e rest ih =>
    have step : ofEntries (e :: rest) = (ofEntries rest).insert e.1 e.2 := rfl
    rw [step, get?_insert, ih, Entries.get?]
    by_cases h : e.1 = key
    · simp [h]
    · simp [h, Ne.symm h]

theorem insertAll_cons (t : Table κ υ) (e : κ × υ) (xs : List (κ × υ)) :
    t.insertAll (e :: xs) = (t.insert e.1 e.2).insertAll xs := rfl

/-- A key has the last value that was given to it, or else the one it had before. -/
theorem get?_insertAll (t : Table κ υ) (xs : List (κ × υ)) (key : κ) :
    (t.insertAll xs).get? key = (Entries.last? key xs).or (t.get? key) := by
  induction xs generalizing t with
  | nil => rfl
  | cons e xs ih =>
    rw [insertAll_cons, ih, get?_insert, Entries.last?, Option.or_assoc]
    by_cases h : e.1 = key
    · simp [h]
    · simp [h, Ne.symm h]

theorem insertAll_append (t : Table κ υ) (xs ys : List (κ × υ)) :
    t.insertAll (xs ++ ys) = (t.insertAll xs).insertAll ys := by
  simp [insertAll]

omit [DecidableLT κ] in
/-- Tables with the same look-ups are equal. -/
theorem ext_get? {s t : Table κ υ} (h : ∀ key, s.get? key = t.get? key) : s = t := by
  apply ext
  have hmem : ∀ e, e ∈ s.entries ↔ e ∈ t.entries := fun (key, value) => by
    rw [mem_entries_iff, mem_entries_iff, h]
  obtain ⟨xs, hxs⟩ := s
  obtain ⟨ys, hys⟩ := t
  simp only at hmem ⊢
  clear h
  induction xs generalizing ys with
  | nil =>
    cases ys with
    | nil => rfl
    | cons y ys => exact absurd ((hmem y).2 (by simp)) (by simp)
  | cons x xs ih =>
    obtain ⟨hx, hxs'⟩ := List.pairwise_cons.1 hxs
    cases ys with
    | nil => exact absurd ((hmem x).1 (by simp)) (by simp)
    | cons y ys =>
      obtain ⟨hy, hys'⟩ := List.pairwise_cons.1 hys
      have hxy : x = y := by
        rcases List.mem_cons.1 ((hmem x).1 (by simp)) with h1 | h1
        · exact h1
        · rcases List.mem_cons.1 ((hmem y).2 (by simp)) with h2 | h2
          · exact h2.symm
          · exact absurd (Std.lt_trans (hy x h1) (hx y h2)) Std.lt_irrefl
      subst hxy
      rw [ih hxs' ys hys']
      intro e
      have he := hmem e
      constructor
      · intro hm
        rcases List.mem_cons.1 (he.1 (List.mem_cons_of_mem _ hm)) with h1 | h1
        · exact absurd (h1 ▸ hx e hm) Std.lt_irrefl
        · exact h1
      · intro hm
        rcases List.mem_cons.1 (he.2 (List.mem_cons_of_mem _ hm)) with h1 | h1
        · exact absurd (h1 ▸ hy e hm) Std.lt_irrefl
        · exact h1

end Table

end ShowRelay
