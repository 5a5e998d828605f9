/-
  ShowRelay.Proofs.Canonical

  The text of a store as its canonical form. What messages lead to is plain, so
  that its text can be read back (`Store.Plain.decode_text`): the reading lists
  each key once, with its value, in the order of the bytes of the keys, and it
  makes the same store again. Two such stores have the same text exactly if they
  have the same values, whatever messages have led to them
  (`Store.canonical_text`).

  A store of any settings whatever has no such text: a space within a value would
  be read as the end of it.
-/

import ShowRelay.Proofs.Codec
import ShowRelay.Proofs.Utf8

namespace ShowRelay

/-! ## Entries of a key -/

namespace Entries

variable {κ υ : Type} [LE κ] [LT κ] [DecidableEq κ] [Std.LawfulOrderLT κ]

/-- Where keys ascend, a key that has a value has one entry, and any other has none. -/
theorem filter_key {entries : List (κ × υ)} (h : Ascending entries) (key : κ) :
    entries.filter (fun e => e.1 = key) = ((get? key entries).map (key, ·)).toList := by
  induction entries with
  | nil => rfl
  | cons e rest ih =>
    obtain ⟨k, v⟩ := e
    obtain ⟨hlt, hrest⟩ := List.pairwise_cons.1 h
    by_cases hk : k = key
    · subst hk
      -- All keys that follow are larger, so none of them is the same.
      have hnone : rest.filter (fun e => e.1 = k) = [] := by
        rw [List.filter_eq_nil_iff]
        intro f hf heq
        have hk := hlt f hf
        rw [of_decide_eq_true heq] at hk
        exact Std.lt_irrefl hk
      have hfirst : ((k, v) :: rest).filter (fun e => e.1 = k) =
          (k, v) :: rest.filter (fun e => e.1 = k) := List.filter_cons_of_pos (decide_eq_true rfl)
      rw [hfirst, hnone, get?, if_pos rfl]
      rfl
    · have hskip : ((k, v) :: rest).filter (fun e => e.1 = key) =
          rest.filter (fun e => e.1 = key) :=
        List.filter_cons_of_neg fun heq => hk (of_decide_eq_true heq)
      rw [hskip, ih hrest, get?, if_neg hk]

end Entries

namespace Store

/-! ## Reading the text of a store -/

variable {store other : Store}

/-- Every key that has a value and the value itself can be written. -/
theorem Plain.setting (h : Plain store) {key value : String} (hget : store.get? key = some value) :
    Setting.Plain (key, value) :=
  h _ (Table.mem_entries_iff.2 hget)

/-- The reading of the text lists every key as often as it has a value. -/
theorem Plain.filter_decode_text (h : Plain store) (key : String) :
    (Delta.decode store.text).filter (fun s => s.1 = key) =
      ((store.get? key).map (key, ·)).toList := by
  rw [h.decode_text]
  exact Entries.filter_key store.ascending key

/-- The reading of the text is in the order of the bytes of the keys. -/
theorem Plain.pairwise_decode_text (h : Plain store) :
    (Delta.decode store.text).Pairwise fun s t => Utf8.encode s.1 < Utf8.encode t.1 := by
  rw [h.decode_text]
  exact store.ascending.imp Utf8.encode_lt_encode

/-- To give every key the value that it has changes nothing. -/
theorem merge_entries_self (store : Store) : store.merge store.entries = store := by
  apply Table.ext_get?
  intro key
  have hlast : Entries.last? key store.entries = store.get? key :=
    Entries.last?_eq_get? store.ascending key
  rw [get?_merge, hlast, Option.or_self]

/-- Two plain stores with the same text have the same values, and the other way round. -/
theorem Plain.text_eq_iff (h : Plain store) (hother : Plain other) :
    store.text = other.text ↔ ∀ key, store.get? key = other.get? key := by
  constructor
  · intro htext key
    rw [text_injective h hother htext]
  · intro hget
    rw [Table.ext_get? hget]

/-! ## The result -/

/-- The text of a store to which messages have led, and that of another. Whatever the messages
    hold, keys come out without spaces and colons and values without spaces. Reading the text
    lists each key exactly once with its value, ascending by bytes, and merging what is read
    makes the store out of nothing and changes nothing about the store itself. The texts of the
    two stores are the same if and only if their values are. -/
theorem canonical_text (messages others : List String) :
    (∀ key value, (blank.replay messages).get? key = some value →
      ' ' ∉ key.toList ∧ ':' ∉ key.toList ∧ ' ' ∉ value.toList) ∧
    (∀ key, (Delta.decode (blank.replay messages).text).filter (fun s => s.1 = key) =
      (((blank.replay messages).get? key).map (key, ·)).toList) ∧
    ((Delta.decode (blank.replay messages).text).Pairwise fun s t =>
      Utf8.encode s.1 < Utf8.encode t.1) ∧
    blank.merge (Delta.decode (blank.replay messages).text) = blank.replay messages ∧
    (blank.replay messages).merge (Delta.decode (blank.replay messages).text) =
      blank.replay messages ∧
    ((blank.replay messages).text = (blank.replay others).text ↔
      ∀ key, (blank.replay messages).get? key = (blank.replay others).get? key) := by
  have hplain : Plain (blank.replay messages) := plain_blank.replay messages
  have hother : Plain (blank.replay others) := plain_blank.replay others
  refine ⟨?_, hplain.filter_decode_text, hplain.pairwise_decode_text, ?_, ?_,
    hplain.text_eq_iff hother⟩
  · intro key value hget
    have hsetting := hplain.setting hget
    exact ⟨hsetting.key_space, hsetting.key_colon, hsetting.value_space⟩
  · rw [hplain.decode_text]
    exact merge_entries (blank.replay messages)
  · rw [hplain.decode_text]
    exact merge_entries_self (blank.replay messages)

/-- An empty key, a colon in a value, a letter outside ASCII and a token without a colon. -/
example : (blank.replay ["é:2 b:1:2 stray", "  :0 b:3:"]).text = ":0 b:3: é:2" := by
  decide

end Store

end ShowRelay
