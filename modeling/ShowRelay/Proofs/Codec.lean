/-
  ShowRelay.Proofs.Codec

  Deltas and stores as text. Reading undoes writing for plain settings, those
  with no space in them and no colon in their key (`Delta.decode_encode`), and
  reading gives no others. The stores that come about by merging messages are
  therefore plain, and a plain store can be told by its text
  (`Store.text_injective`).
-/

import ShowRelay.Store

namespace ShowRelay

/-! ## Settings -/

/-- A setting that can be written: there is no space in it, and no colon in its key. -/
structure Setting.Plain (s : Setting) : Prop where
  key_space : ' ' ∉ s.1.toList
  key_colon : ':' ∉ s.1.toList
  value_space : ' ' ∉ s.2.toList

theorem Setting.toList_text (s : Setting) : s.text.toList = s.1.toList ++ ':' :: s.2.toList := by
  rw [text, String.toList_append, String.toList_append, List.append_assoc]
  rfl

theorem Setting.Plain.space_notMem {s : Setting} (h : s.Plain) : ' ' ∉ s.text.toList := by
  rw [Setting.toList_text, List.mem_append, List.mem_cons, not_or, not_or]
  exact ⟨h.key_space, by decide, h.value_space⟩

/-- The token that is written for a setting is read as this setting. -/
theorem Setting.Plain.ofToken?_text {s : Setting} (h : s.Plain) :
    Setting.ofToken? s.text.toList = some s := by
  have hsplit : Text.splitFirst? ':' s.text.toList = some (s.1.toList, s.2.toList) :=
    Text.splitFirst?_eq_some_iff.2 ⟨s.toList_text, h.key_colon⟩
  simp only [Setting.ofToken?, hsplit, Option.map_some, String.ofList_toList]

/-- What is read from a token without a space is plain. -/
theorem Setting.plain_of_ofToken? {token : List Char} {s : Setting} (htoken : ' ' ∉ token)
    (h : Setting.ofToken? token = some s) : s.Plain := by
  obtain ⟨⟨front, back⟩, hsplit, rfl⟩ := Option.map_eq_some_iff.1 h
  obtain ⟨rfl, hcolon⟩ := Text.splitFirst?_eq_some_iff.1 hsplit
  simp only [List.mem_append, List.mem_cons, not_or] at htoken
  refine ⟨?_, ?_, ?_⟩
  · rw [String.toList_ofList]
    exact htoken.1
  · rw [String.toList_ofList]
    exact hcolon
  · rw [String.toList_ofList]
    exact htoken.2.2

/-! ## Deltas -/

namespace Delta

/-- All settings can be written. -/
def Plain (settings : Delta) : Prop := ∀ s ∈ settings, Setting.Plain s

theorem notMem_of_mem_splitOn {sep : Char} {chars token : List Char}
    (h : token ∈ chars.splitOn sep) : sep ∉ token := by
  induction chars generalizing token with
  | nil =>
    rw [List.splitOn_nil, List.mem_singleton] at h
    rw [h]
    exact List.not_mem_nil
  | cons c chars ih =>
    rw [List.splitOn_cons_eq_if_modifyHead] at h
    split at h
    · rcases List.mem_cons.1 h with rfl | h
      · exact List.not_mem_nil
      · exact ih h
    · next hc =>
      -- The first token of the rest is the one that gets the character.
      cases hrest : chars.splitOn sep with
      | nil => exact absurd hrest (List.splitOn_ne_nil sep chars)
      | cons first rest =>
        rw [hrest, List.modifyHead_cons] at h
        rw [hrest] at ih
        rcases List.mem_cons.1 h with rfl | h
        · rw [List.mem_cons, not_or]
          exact ⟨fun heq => hc (by rw [heq, beq_self_eq_true]), ih List.mem_cons_self⟩
        · exact ih (List.mem_cons_of_mem first h)

theorem plain_decode (message : String) : Plain (decode message) := by
  intro s hs
  obtain ⟨token, htoken, hsome⟩ := List.mem_filterMap.1 hs
  exact Setting.plain_of_ofToken? (notMem_of_mem_splitOn htoken) hsome

theorem toList_encode (settings : Delta) :
    (encode settings).toList = [' '].intercalate (settings.map fun s => s.text.toList) := by
  rw [encode, String.toList_intercalate, List.map_map]
  rfl

/-- Every written token is read as the setting that it was written for. -/
theorem filterMap_ofToken? {settings : Delta} (h : Plain settings) :
    (settings.map fun s => s.text.toList).filterMap Setting.ofToken? = settings := by
  induction settings with
  | nil => rfl
  | cons s rest ih =>
    have hs : s.Plain := h s List.mem_cons_self
    rw [List.map_cons, List.filterMap_cons, hs.ofToken?_text]
    exact congrArg (s :: ·) (ih fun t ht => h t (List.mem_cons_of_mem s ht))

/-- Reading undoes writing. -/
theorem decode_encode {settings : Delta} (h : Plain settings) :
    decode (encode settings) = settings := by
  rw [decode, toList_encode]
  cases settings with
  | nil => rfl
  | cons s rest =>
    rw [List.splitOn_intercalate]
    · exact filterMap_ofToken? h
    · intro token htoken
      obtain ⟨t, ht, rfl⟩ := List.mem_map.1 htoken
      exact (h t ht).space_notMem
    · exact List.cons_ne_nil _ _

/-- The last setting is written after all that is written for those before. -/
theorem encode_concat (settings : Delta) :
    ∃ front, ∀ s : Setting, encode (settings ++ [s]) = front ++ s.text := by
  cases settings with
  | nil => exact ⟨"", fun s => by rw [encode]; simp⟩
  | cons first rest =>
    refine ⟨encode (first :: rest) ++ " ", fun s => ?_⟩
    rw [encode, List.map_append, String.intercalate_append_of_ne_nil]
    · simp [encode]
    · simp
    · simp

end Delta

/-! ## Stores -/

namespace Entries

variable {κ υ : Type}

/-- Where keys ascend, the last value of a key is the first. -/
theorem last?_eq_get? [LE κ] [LT κ] [DecidableEq κ] [Std.IsLinearOrder κ]
    [Std.LawfulOrderLT κ] {entries : List (κ × υ)} (h : Ascending entries) (key : κ) :
    last? key entries = get? key entries := by
  induction entries with
  | nil => rfl
  | cons e rest ih =>
    obtain ⟨hlt, hrest⟩ := List.pairwise_cons.1 h
    rw [last?, get?, ih hrest]
    by_cases hkey : e.1 = key
    · have hnone : get? key rest = none := by
        rw [get?_eq_none_iff]
        intro f hf heq
        have hlt' := hlt f hf
        rw [heq, hkey] at hlt'
        exact Std.lt_irrefl hlt'
      rw [hnone, if_pos hkey]
      rfl
    · rw [if_neg hkey, if_neg hkey, Option.or_none]

end Entries

namespace Store

/-- All entries can be written. -/
def Plain (store : Store) : Prop := Delta.Plain store.entries

theorem plain_blank : Plain blank := by
  intro s hs
  cases hs

/-- Merging plain settings into a plain store leaves it plain. -/
theorem Plain.merge {store : Store} {delta : Delta} (h : Plain store) (hdelta : delta.Plain) :
    Plain (store.merge delta) := by
  induction delta generalizing store with
  | nil => exact h
  | cons s rest ih =>
    have hinsert : Plain (store.insert s.1 s.2) := by
      intro t ht
      rcases Entries.mem_insert ht with rfl | ht
      · exact hdelta s List.mem_cons_self
      · exact h t ht
    exact ih hinsert fun t ht => hdelta t (List.mem_cons_of_mem s ht)

/-- Reading the text of a store gives its entries. -/
theorem Plain.decode_text {store : Store} (h : Plain store) :
    Delta.decode store.text = store.entries :=
  Delta.decode_encode h

theorem text_injective {s t : Store} (hs : Plain s) (ht : Plain t) (h : s.text = t.text) :
    s = t := by
  apply Table.ext
  rw [← hs.decode_text, ← ht.decode_text, h]

/-- The entries of a store make the store again. -/
theorem merge_entries (store : Store) : blank.merge store.entries = store := by
  apply Table.ext_get?
  intro key
  rw [get?_merge, Entries.last?_eq_get? store.ascending]
  exact Option.or_none

/-- The store after some messages, one merged after the other. -/
def replay (store : Store) (messages : List String) : Store :=
  messages.foldl (fun store raw => store.merge (Delta.decode raw)) store

theorem replay_eq_merge (store : Store) (messages : List String) :
    store.replay messages = store.merge (messages.flatMap Delta.decode) := by
  induction messages generalizing store with
  | nil => rfl
  | cons raw messages ih =>
    rw [List.flatMap_cons, merge_append, ← ih]
    rfl

theorem replay_append (store : Store) (xs ys : List String) :
    store.replay (xs ++ ys) = (store.replay xs).replay ys :=
  List.foldl_append

/-- Whatever messages hold, they lead to plain stores. -/
theorem Plain.replay {store : Store} (h : Plain store) (messages : List String) :
    Plain (store.replay messages) := by
  induction messages generalizing store with
  | nil => exact h
  | cons raw messages ih => exact ih (h.merge (Delta.plain_decode raw))

end Store

end ShowRelay
