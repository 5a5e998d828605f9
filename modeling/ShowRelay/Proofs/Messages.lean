/-
  ShowRelay.Proofs.Messages

  Where one message ends and the next begins. A message is read token by token, so
  that a space between two messages does what their boundary does: messages that
  are joined with spaces say what they said apart (`Delta.decode_intercalate`), and
  merging goes by the settings in their order and not by how they came in messages
  (`Store.replay_joined`).

  Within a message settings have to be told from each other. Those that can be told
  are the plain ones, which are just what messages say (`Delta.plain_iff_exists_decode`),
  so that writing and reading again loses nothing of what has been read once
  (`Delta.rereading`).
-/

import ShowRelay.Proofs.Codec
import ShowRelay.Proofs.Table

namespace ShowRelay

/-! ## What messages can say -/

namespace Delta

/-- Settings are what some message says if and only if they are plain. -/
theorem plain_iff_exists_decode {settings : Delta} :
    Plain settings ↔ ∃ message, decode message = settings := by
  constructor
  · intro h
    exact ⟨encode settings, decode_encode h⟩
  · rintro ⟨message, rfl⟩
    exact plain_decode message

theorem decode_encode_iff {settings : Delta} :
    decode (encode settings) = settings ↔ Plain settings := by
  constructor
  · intro h
    exact plain_iff_exists_decode.2 ⟨encode settings, h⟩
  · exact decode_encode

/-- Reading undoes writing for settings without a space in them and without a colon in a key,
    none or many, with empty keys and values and with keys that repeat, and for no others. What
    has been read from a message, whatever the message is, is among them. -/
theorem rereading (settings : Delta) (message : String) :
    (decode (encode settings) = settings ↔
      ∀ s ∈ settings, (' ' ∉ s.1.toList ∧ ':' ∉ s.1.toList) ∧ ' ' ∉ s.2.toList) ∧
    decode (encode (decode message)) = decode message := by
  constructor
  · rw [decode_encode_iff]
    constructor
    · intro h s hs
      have hplain : s.Plain := h s hs
      exact ⟨⟨hplain.key_space, hplain.key_colon⟩, hplain.value_space⟩
    · intro h s hs
      obtain ⟨⟨hspace, hcolon⟩, hvalue⟩ := h s hs
      exact ⟨hspace, hcolon, hvalue⟩
  · exact decode_encode (plain_decode message)

/-- A value with a colon is read as it was, a key with a colon is not. -/
example : decode (encode [("", "a:b"), ("", "")]) = [("", "a:b"), ("", "")] ∧
    decode (encode [("a:b", "c")]) = [("a", "b:c")] := by
  decide

/-! ## Boundaries -/

/-- A space between two messages keeps them apart, whatever they begin and end with. -/
theorem decode_append (first second : String) :
    decode (first ++ " " ++ second) = decode first ++ decode second := by
  have hspace : (first ++ " " ++ second).toList = first.toList ++ ' ' :: second.toList := by
    rw [String.toList_append, String.toList_append, List.append_assoc]
    rfl
  have hsplit : (first.toList ++ ' ' :: second.toList).splitOn ' ' =
      first.toList.splitOn ' ' ++ second.toList.splitOn ' ' :=
    List.splitOnP_append_cons first.toList second.toList (beq_self_eq_true ' ')
  rw [decode, hspace, hsplit, List.filterMap_append]
  rfl

/-- Joined messages say one after the other what they said apart. -/
theorem decode_intercalate (messages : List String) :
    decode (" ".intercalate messages) = messages.flatMap decode := by
  induction messages with
  | nil => rfl
  | cons first rest ih =>
    cases rest with
    | nil => rw [String.intercalate_singleton, List.flatMap_cons, List.flatMap_nil, List.append_nil]
    | cons second rest =>
      rw [String.intercalate_cons_cons, decode_append, ih]
      rfl

end Delta

/-! ## Merging in parts -/

namespace Entries

variable {κ υ : Type} [DecidableEq κ]

/-- The last entry of a key is the first from the end. -/
theorem last?_eq_find? (key : κ) (entries : List (κ × υ)) :
    last? key entries = (entries.reverse.find? fun e => e.1 = key).map Prod.snd := by
  induction entries with
  | nil => rfl
  | cons e rest ih =>
    rw [last?, ih, List.reverse_cons, List.find?_append, Option.map_or, List.find?_singleton]
    by_cases h : e.1 = key
    · rw [if_pos h, if_pos (decide_eq_true h), Option.map_some]
    · rw [if_neg h, if_neg fun heq => h (of_decide_eq_true heq), Option.map_none]

end Entries

namespace Store

theorem foldl_merge (store : Store) (deltas : List Delta) :
    deltas.foldl merge store = store.merge deltas.flatten := by
  induction deltas generalizing store with
  | nil => rfl
  | cons delta deltas ih => rw [List.foldl_cons, ih, List.flatten_cons, merge_append]

theorem replay_eq_merge_joined (store : Store) (messages : List String) :
    store.replay messages = store.merge (Delta.decode (" ".intercalate messages)) := by
  rw [replay_eq_merge, Delta.decode_intercalate]

/-- Messages merged one after the other lead to the same store, with the same text and as many
    keys, as the one message that they make when they are joined with spaces. Reading takes the
    space between two messages for their boundary. Deltas merged one after the other lead to
    what their concatenation does, in which a key gets the value that stands last for it and
    keeps the one it had if there is none. -/
theorem replay_joined (store : Store) (messages : List String) (first second : String)
    (deltas : List Delta) :
    let joined := store.merge (Delta.decode (" ".intercalate messages))
    store.replay messages = joined ∧
    (store.replay messages).text = joined.text ∧
    (store.replay messages).size = joined.size ∧
    Delta.decode (first ++ " " ++ second) = Delta.decode first ++ Delta.decode second ∧
    deltas.foldl merge store = store.merge deltas.flatten ∧
    ∀ key, (store.merge deltas.flatten).get? key =
      ((deltas.flatten.reverse.find? fun s => s.1 = key).map Prod.snd).or (store.get? key) := by
  intro joined
  have hjoined : store.replay messages = joined := replay_eq_merge_joined store messages
  refine ⟨hjoined, by rw [hjoined], by rw [hjoined], Delta.decode_append first second,
    foldl_merge store deltas, fun key => ?_⟩
  rw [get?_merge, Entries.last?_eq_find?]

/-- Messages with spaces at their ends, and one that is empty. -/
example : (blank.replay ["a:1  b:2 ", "", " stray b:20", "a:"]).text = "a: b:20" := by
  decide

end Store

end ShowRelay
