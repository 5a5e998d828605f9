/-
  ShowRelay.Proofs.Relay.Restoring

  A relay that begins with a snapshot. Saving puts one line end after the text
  of the store, and restoring takes away all line ends that the file ends with.
  If the last value ends with line ends of its own they are lost
  (`Relay.restored_contentsOf`); everything else comes back as it was.
-/

import ShowRelay.Proofs.Codec
import ShowRelay.Proofs.Snapshot.Returning
import ShowRelay.Relay.Start
import Mathlib.Data.List.DropRight

namespace ShowRelay

/-! ## Line ends -/

namespace Relay

theorem toList_withoutLineEnds (text : String) :
    (withoutLineEnds text).toList = text.toList.rdropWhile isLineEnd := by
  rw [withoutLineEnds, String.toList_ofList]
  rfl

/-- The line end that saving adds is taken away again. -/
theorem withoutLineEnds_lineEnd (text : String) :
    withoutLineEnds (text ++ "\n") = withoutLineEnds text := by
  rw [← String.toList_inj, toList_withoutLineEnds, toList_withoutLineEnds, String.toList_append]
  exact List.rdropWhile_concat_pos isLineEnd text.toList '\n' rfl

/-- A value is the last thing that line ends are taken away from. -/
theorem withoutLineEnds_setting (front : String) (s : Setting) :
    withoutLineEnds (front ++ s.text) = front ++ Setting.text (s.1, withoutLineEnds s.2) := by
  -- The colon is no line end, so what stands before it is out of reach.
  have hcolon : ∀ xs ys : List Char,
      (xs ++ ':' :: ys).rdropWhile isLineEnd = xs ++ ':' :: ys.rdropWhile isLineEnd := by
    intro xs ys
    induction ys using List.reverseRecOn with
    | nil => exact List.rdropWhile_concat_neg isLineEnd xs ':' (by decide)
    | append_singleton ys c ih =>
      rw [← List.cons_append, ← List.append_assoc]
      by_cases hc : isLineEnd c = true
      · rw [List.rdropWhile_concat_pos _ _ _ hc, List.rdropWhile_concat_pos _ _ _ hc, ih]
      · rw [List.rdropWhile_concat_neg _ _ _ hc, List.rdropWhile_concat_neg _ _ _ hc,
          List.append_assoc, List.cons_append]
  rw [← String.toList_inj, toList_withoutLineEnds, String.toList_append, String.toList_append,
    Setting.toList_text, Setting.toList_text, toList_withoutLineEnds, ← List.append_assoc, hcolon,
    List.append_assoc]

/-- A text stays as it is if it does not end with a line end. -/
theorem withoutLineEnds_eq_self_iff (text : String) :
    withoutLineEnds text = text ↔ text.toList.getLast?.any isLineEnd = false := by
  rw [← String.toList_inj, toList_withoutLineEnds, List.rdropWhile_eq_self_iff]
  cases hchars : text.toList using List.reverseRecOn with
  | nil => simp
  | append_singleton chars c => simp

end Relay

/-! ## Stores -/

namespace Store

/-- Whether the last value of a store ends with a line end. -/
def endsLine (store : Store) : Bool :=
  store.entries.getLast?.any fun s => s.2.toList.getLast?.any Relay.isLineEnd

/-- The store without the line ends that its last value ends with. -/
def trimmed (store : Store) : Store :=
  store.entries.getLast?.elim store fun s => store.insert s.1 (Relay.withoutLineEnds s.2)

theorem trimmed_eq_self_iff (store : Store) : store.trimmed = store ↔ store.endsLine = false := by
  rw [trimmed, endsLine]
  cases hlast : store.entries.getLast? with
  | none => simp
  | some s =>
    have hget : store.get? s.1 = some s.2 :=
      Table.mem_entries_iff.1 (List.mem_of_getLast? hlast)
    rw [Option.elim_some, Option.any_some, ← Relay.withoutLineEnds_eq_self_iff]
    constructor
    · intro h
      have hsame := congrArg (fun store => Table.get? store s.1) h
      simp only [Table.get?_insert, if_true, hget, Option.some.injEq] at hsame
      exact hsame
    · intro h
      apply Table.ext_get?
      intro key
      rw [Table.get?_insert, h]
      by_cases hkey : key = s.1
      · rw [if_pos hkey, hkey, hget]
      · rw [if_neg hkey]

/-- A setting that can be written can still be written when its value was trimmed. -/
theorem plain_withoutLineEnds {s : Setting} (h : s.Plain) :
    Setting.Plain (s.1, Relay.withoutLineEnds s.2) := by
  refine ⟨h.key_space, h.key_colon, ?_⟩
  rw [Relay.toList_withoutLineEnds]
  intro hspace
  exact h.value_space ((List.rdropWhile_prefix Relay.isLineEnd s.2.toList).subset hspace)

theorem Plain.trimmed {store : Store} (h : Plain store) : Plain store.trimmed := by
  rw [Store.trimmed]
  cases hlast : store.entries.getLast? with
  | none => exact h
  | some s =>
    intro t ht
    rcases Entries.mem_insert ht with rfl | ht
    · exact plain_withoutLineEnds (h s (List.mem_of_getLast? hlast))
    · exact h t ht

end Store

namespace Relay

/-- The snapshot of a store gives the store back, but for the line ends of its last value. -/
theorem restored_contentsOf {store : Store} (h : Store.Plain store) :
    restored (Archive.contentsOf store) = store.trimmed := by
  rw [restored, Archive.contentsOf, withoutLineEnds_lineEnd, Store.ofMessage]
  rcases List.eq_nil_or_concat' store.entries with hnil | ⟨settings, s, hconcat⟩
  · have hblank : store = Store.blank := Table.ext hnil
    rw [hblank]
    rfl
  · have hplain : ∀ t ∈ settings ++ [s], Setting.Plain t := hconcat ▸ h
    have hs : Setting.Plain s := hplain s (List.mem_append_right _ (List.mem_singleton_self s))
    have htrimmed : Delta.Plain (settings ++ [(s.1, withoutLineEnds s.2)]) := by
      intro t ht
      rcases List.mem_append.1 ht with ht | ht
      · exact hplain t (List.mem_append_left _ ht)
      · rw [List.mem_singleton.1 ht]
        exact Store.plain_withoutLineEnds hs
    obtain ⟨front, hfront⟩ := Delta.encode_concat settings
    have htext : withoutLineEnds store.text =
        Delta.encode (settings ++ [(s.1, withoutLineEnds s.2)]) := by
      rw [Store.text, Store.dump, hconcat, hfront, hfront, withoutLineEnds_setting]
    -- Both sides are the settings before the last one, with another last value.
    have hstore : store = (Store.blank.merge settings).insert s.1 s.2 := by
      rw [← Store.merge_entries store, hconcat, Store.merge_append]
      rfl
    have hlast : store.entries.getLast? = some s := by rw [hconcat, List.getLast?_concat]
    rw [htext, Delta.decode_encode htrimmed, Store.merge_append, Store.trimmed, hlast,
      Option.elim_some]
    apply Table.ext_get?
    intro key
    have hinsert : (Store.blank.merge settings).merge [(s.1, withoutLineEnds s.2)] =
        (Store.blank.merge settings).insert s.1 (withoutLineEnds s.2) := rfl
    rw [hinsert, Table.get?_insert, Table.get?_insert]
    by_cases hkey : key = s.1
    · rw [if_pos hkey, if_pos hkey]
    · rw [if_neg hkey, if_neg hkey, hstore, Table.get?_insert, if_neg hkey]

/-! ## Starting -/

/-- A relay that can bind its sockets and load its snapshot begins with it. -/
theorem start_of_load {hosts : HostLookup} {config : Config} {disk : Disk} {process : Nat}
    {link : Link} {binding : Binding} {name text : String} {sinks : List UdpSink}
    {webSocket http : SocketAddress} (hrestore : config.restore = some name)
    (hload : (Archive.ofDisk config.snapshotDir disk process).load name = .ok text)
    (hsinks : openSinks hosts config link binding = .ok sinks)
    (hwebSocket : binding .webSocket = .ok webSocket) (hhttp : binding .http = .ok http) :
    ∃ relay, start hosts config disk process link binding = .ok relay ∧
      relay.hub.store = restored text := by
  simp only [start, hsinks, restore, hrestore, hload, bind, hwebSocket, hhttp, Bind.bind,
    Except.bind, Except.mapError, pure, Except.pure, Except.ok.injEq, exists_eq_left', Hub.start]

/-- A relay that cannot load its snapshot does not begin. -/
theorem start_of_error {hosts : HostLookup} {config : Config} {disk : Disk} {process : Nat}
    {link : Link} {binding : Binding} {name : String} {e : SnapshotError} {sinks : List UdpSink}
    (hrestore : config.restore = some name)
    (hload : (Archive.ofDisk config.snapshotDir disk process).load name = .error e)
    (hsinks : openSinks hosts config link binding = .ok sinks) :
    start hosts config disk process link binding = .error (.restore e) := by
  simp only [start, hsinks, restore, hrestore, hload, Bind.bind, Except.bind, Except.mapError]

section

variable {messages : List String} {archive after : Archive} {replies : List Saving.Reply}
  {name path : String} {clean : SnapshotName} {config : Config} {hosts : HostLookup}
  {process : Nat} {link : Link} {binding : Binding} {sinks : List UdpSink}
  {webSocket http : SocketAddress}

/-- A relay that begins with a snapshot begins with the store as it was, but for the line ends
    of its last value. -/
theorem start_of_save (hname : SnapshotName.sanitize name = .ok clean)
    (hreturns : ¬ archive.Returns clean)
    (hsaved : archive.saveWith replies name (Archive.contentsOf (Store.blank.replay messages)) =
      (after, .ok path))
    (hrestore : config.restore = some name)
    (hsinks : openSinks hosts config link binding = .ok sinks)
    (hwebSocket : binding .webSocket = .ok webSocket) (hhttp : binding .http = .ok http) :
    ∃ relay, start hosts config after.toDisk process link binding = .ok relay ∧
      relay.hub.store = (Store.blank.replay messages).trimmed := by
  have hload := Archive.load_of_save hname hsaved
  rw [if_neg hreturns] at hload
  -- What is loaded depends on the disk alone.
  replace hload : (Archive.ofDisk config.snapshotDir after.toDisk process).load name = _ := hload
  obtain ⟨relay, hstart, hstore⟩ := start_of_load hrestore hload hsinks hwebSocket hhttp
  refine ⟨relay, hstart, ?_⟩
  rw [hstore, restored_contentsOf (Store.plain_blank.replay messages)]

/-- Saving the store to which any messages have led, and starting a relay with the snapshot gives
    the store and its text back exactly if its last value ends with no line end. If a link in the
    place of the hidden file led to the snapshot itself, then the relay does not start. -/
theorem restore_of_save (hname : SnapshotName.sanitize name = .ok clean)
    (hsaved : archive.saveWith replies name (Archive.contentsOf (Store.blank.replay messages)) =
      (after, .ok path))
    (hrestore : config.restore = some name)
    (hsinks : openSinks hosts config link binding = .ok sinks)
    (hwebSocket : binding .webSocket = .ok webSocket) (hhttp : binding .http = .ok http) :
    (archive.Returns clean → start hosts config after.toDisk process link binding =
      .error (.restore (.persistence clean.text .tooManyLinks))) ∧
    (¬ archive.Returns clean →
      ∃ relay, start hosts config after.toDisk process link binding = .ok relay ∧
        (relay.hub.store = Store.blank.replay messages ↔
          (Store.blank.replay messages).endsLine = false) ∧
        (relay.hub.store.text = (Store.blank.replay messages).text ↔
          (Store.blank.replay messages).endsLine = false)) := by
  refine ⟨fun hreturns => ?_, fun hreturns => ?_⟩
  · have hload := Archive.load_of_save hname hsaved
    rw [if_pos hreturns] at hload
    exact start_of_error hrestore hload hsinks
  obtain ⟨relay, hstart, hstore⟩ :=
    start_of_save hname hreturns hsaved hrestore hsinks hwebSocket hhttp
  have hplain := Store.plain_blank.replay messages
  have hsame : relay.hub.store = Store.blank.replay messages ↔
      (Store.blank.replay messages).endsLine = false := by
    rw [hstore]
    exact Store.trimmed_eq_self_iff _
  refine ⟨relay, hstart, hsame, ?_⟩
  rw [← hsame]
  constructor
  · -- Texts that can be written determine their stores.
    intro htext
    rw [hstore] at htext ⊢
    exact Store.text_injective hplain.trimmed hplain htext
  · intro heq
    rw [heq]

end

/-- A last value without a line end comes back, whatever there is in the values before. -/
theorem restore_of_save_opener :
    ∃ relay, start HostLookup.numeric { Config.default with sinks := [], restore := some "opener" }
        ((Archive.ofDisk "presets" { place := .absent } 1).save "opener"
          (Archive.contentsOf (Store.blank.replay ["x:1\n z:3", "y:2\r"]))).1.toDisk 2 .up
        (fun _ => .ok (.v4 .unspecified 8080)) = .ok relay ∧
      relay.hub.store = Store.blank.replay ["x:1\n z:3", "y:2\r"] := by
  have hsaved : (Archive.ofDisk "presets" { place := .absent } 1).saveWith [] "opener"
      (Archive.contentsOf (Store.blank.replay ["x:1\n z:3", "y:2\r"])) =
        (_, .ok "presets/opener.preset") := rfl
  obtain ⟨clean, hname⟩ : ∃ clean, SnapshotName.sanitize "opener" = .ok clean := ⟨_, rfl⟩
  obtain ⟨relay, hstart, hstore, _⟩ :=
    (@restore_of_save _ _ _ _ _ _ _ { Config.default with sinks := [], restore := some "opener" }
      .numeric 2 .up (fun _ => .ok (.v4 .unspecified 8080)) [] _ _ hname hsaved rfl rfl rfl rfl).2
      (Archive.not_returns_of_unlinked (Archive.unlinked_of_fresh rfl))
  exact ⟨relay, hstart, hstore.2 rfl⟩

/-- The line end of a last value is lost. -/
theorem not_restored_of_lineEnd :
    ((Archive.ofDisk "presets" { place := .absent } 1).save "r"
        (Archive.contentsOf (Store.blank.replay ["x:1\n"]))).2 = .ok "presets/r.preset" ∧
    ∃ relay, start HostLookup.numeric { Config.default with sinks := [], restore := some "r" }
        ((Archive.ofDisk "presets" { place := .absent } 1).save "r"
          (Archive.contentsOf (Store.blank.replay ["x:1\n"]))).1.toDisk 2 .up
        (fun _ => .ok (.v4 .unspecified 8080)) = .ok relay ∧
      relay.hub.store ≠ Store.blank.replay ["x:1\n"] ∧
      relay.hub.store.text = "x:1" ∧ (Store.blank.replay ["x:1\n"]).text = "x:1\n" := by
  have hsaved : ((Archive.ofDisk "presets" { place := .absent } 1).save "r"
      (Archive.contentsOf (Store.blank.replay ["x:1\n"]))).2 = .ok "presets/r.preset" := rfl
  obtain ⟨relay, hstart, hstore⟩ :=
    @start_of_save _ _ _ [] _ _ _ { Config.default with sinks := [], restore := some "r" }
      .numeric 2 .up (fun _ => .ok (.v4 .unspecified 8080)) [] _ _ rfl
      (Archive.not_returns_of_unlinked (Archive.unlinked_of_fresh rfl)) (Prod.ext rfl hsaved) rfl
      rfl rfl rfl
  refine ⟨hsaved, relay, hstart, ?_, ?_, rfl⟩
  · rw [hstore]
    intro heq
    have hline := (Store.trimmed_eq_self_iff _).1 heq
    cases hline
  · rw [hstore]
    rfl

end Relay

end ShowRelay
