/-
  ShowRelay.Proofs.Relay.Alike

  Relays whose disks hold different things. A message, a URL and the name of a
  snapshot to begin with may hold any characters (`Approach`); each of them asks
  for one snapshot at most, and by then its name is a reduced one.

  Only the snapshot writer touches the archive of a relay, and it never looks
  into a file. Two relays with archives that are alike therefore take the same
  steps, and end up the same but for their archives (`Relay.alike_of_run`). What
  files hold is seen only where a relay begins and where it answers over HTTP,
  and there it is one file that is asked for by name.
-/

import ShowRelay.Proofs.Snapshot.Alike
import ShowRelay.Relay.Step

namespace ShowRelay

/-! ## Texts from outside -/

/-- A text from outside that may ask for a snapshot. -/
inductive Approach where
  -- A message of a client.
  | message (raw : String)
  -- The URL of a request for a resource.
  | url (url : String)
  -- The name of the snapshot to begin with.
  | restore (name : String)
  deriving Repr, DecidableEq

namespace Approach

/-- The name that is asked for, as it comes. -/
def asked? : Approach → Option String
  | .message raw =>
    match Request.classify raw with
    | .save name => some name
    | .update _ => none
  | .url text =>
    (Text.dropFront? Http.snapshotsPath.toList (Http.pathOf text)).bind Http.requestedName?
  | .restore name => some name

/-- The snapshot that is asked for. -/
def snapshot? (approach : Approach) : Option SnapshotName :=
  approach.asked?.bind fun name => (SnapshotName.sanitize name).toOption

theorem snapshot?_eq_some {approach : Approach} {raw : String} {name : SnapshotName}
    (hasked : approach.asked? = some raw) (hname : SnapshotName.sanitize raw = .ok name) :
    approach.snapshot? = some name := by
  rw [snapshot?, hasked, Option.bind_some, hname]
  rfl

end Approach

/-- Of the snapshot that is asked for, if any, the entry is known and no symbolic link. -/
def Place.Knows (place : Place) (known : FileName → Prop) (approach : Approach) : Prop :=
  ∀ name, approach.snapshot? = some name →
    known name.fileName ∧ ∀ target, place.find? name.fileName ≠ some (.link target)

/-! ## Hubs with other archives -/

namespace Hub

variable {σ : Type}

/-- A hub whose snapshots are in another archive. -/
def withArchive (archive : Archive) (hub : Hub σ) : Hub σ := { hub with archive }

@[simp] theorem round_withArchive (archive : Archive) (hub : Hub σ) :
    (hub.withArchive archive).round = hub.round := rfl

@[simp] theorem mailboxOf?_withArchive (archive : Archive) (hub : Hub σ) (id : SessionId) :
    (hub.withArchive archive).mailboxOf? id = hub.mailboxOf? id := rfl

theorem handle_withArchive (archive : Archive) (hub : Hub σ) (event : Event) :
    (hub.withArchive archive).handle event = (hub.handle event).withArchive archive := by
  cases event with
  | connect id peer depth =>
    simp only [handle, connect, withArchive, note]
    split <;> rfl
  | message id raw =>
    simp only [handle, message, withArchive]
    cases hub.sessions.get? id with
    | none => rfl
    | some session =>
      cases Request.classify raw with
      | save name =>
        simp only [save]
        split <;> rfl
      | update raw => rfl
  | disconnect id =>
    simp only [handle, disconnect, withArchive]
    split <;> rfl

theorem evict_withArchive (archive : Archive) (hub : Hub σ) (id : SessionId) :
    (hub.withArchive archive).evict id = (hub.evict id).withArchive archive := by
  simp only [evict, withArchive]
  split <;> rfl

theorem answer_withArchive (archive : Archive) (hub : Hub σ) :
    (hub.withArchive archive).answer = hub.answer.map (withArchive archive) := by
  simp only [answer, withArchive]
  cases hub.outcome with
  | none => rfl
  | some outcome =>
    simp only [Option.bind_eq_bind, Option.bind_some]
    cases hub.mailboxes[outcome.mailbox]? with
    | none => rfl
    | some mailbox =>
      simp only
      split
      · rfl
      · split <;> rfl

theorem meet_withArchive (archive : Archive) (hub : Hub σ) (number : Nat) :
    (hub.withArchive archive).meet number = (hub.meet number).map (withArchive archive) := by
  simp only [meet, round_withArchive]
  cases hub.round with
  | none => rfl
  | some round =>
    simp only [Option.bind_eq_bind, Option.bind_some]
    cases round.pending.head? with
    | none => rfl
    | some id =>
      simp only [mailboxOf?_withArchive, Option.bind_some]
      cases hub.mailboxOf? id with
      | none => rfl
      | some found =>
        simp only [Option.bind_some]
        split <;> rfl

theorem meetAnswer_withArchive (archive : Archive) (hub : Hub σ) (number : Nat) :
    (hub.withArchive archive).meetAnswer number =
      (hub.meetAnswer number).map (withArchive archive) := by
  simp only [meetAnswer, withArchive]
  cases hub.outcome with
  | none => rfl
  | some outcome =>
    simp only [Option.bind_eq_bind, Option.bind_some]
    cases hub.mailboxes[number]? with
    | none => rfl
    | some mailbox =>
      simp only [Option.bind_some]
      split <;> rfl

/-- Writing has the same answer with an archive that is alike, unless a link leads it astray. -/
theorem write_withArchive {known : FileName → Prop} {other : Archive} {hub next : Hub σ}
    {replies : List Saving.Reply} (halike : hub.archive.Alike known other)
    (hlink : ∀ job, hub.jobs.head? = some job → hub.archive.Unlinked job.name)
    (hwrite : hub.write replies = some next) :
    ∃ later, (hub.withArchive other).write replies = some (next.withArchive later) ∧
      next.archive.Alike known later := by
  simp only [write, withArchive] at hwrite ⊢
  split at hwrite
  · next job jobs _ hjobs =>
    have hclean : ∀ clean, SnapshotName.sanitize job.name.text = .ok clean →
        hub.archive.Unlinked clean := by
      intro clean hname
      rw [SnapshotName.sanitize_text] at hname
      cases hname
      exact hlink job (by rw [hjobs]; rfl)
    obtain ⟨hresult, hlater⟩ := halike.saveWith replies hclean job.contents
    cases hwrite
    refine ⟨(other.saveWith replies job.name.text job.contents).1, ?_, hlater⟩
    rw [hresult]
  · cases hwrite

variable [Sink σ]

theorem conclude_withArchive (archive : Archive) (hub : Hub σ) (round : Round) :
    (hub.withArchive archive).conclude round = (hub.conclude round).withArchive archive := by
  have hevict : ∀ (ids : List SessionId) (hub : Hub σ),
      ids.foldl evict (hub.withArchive archive) = (ids.foldl evict hub).withArchive archive := by
    intro ids
    induction ids with
    | nil => exact fun _ => rfl
    | cons id ids ih =>
      intro hub
      rw [List.foldl_cons, evict_withArchive, ih, List.foldl_cons]
  have hrest := hevict round.failed { hub with round := none }
  simp only [conclude, withArchive] at hrest ⊢
  rw [hrest]
  split <;> rfl

theorem proceed_withArchive (archive : Archive) (hub : Hub σ) :
    (hub.withArchive archive).proceed = hub.proceed.map (withArchive archive) := by
  simp only [proceed, round_withArchive]
  cases hub.round with
  | none => rfl
  | some round =>
    simp only [Option.bind_eq_bind, Option.bind_some]
    cases round.pending with
    | nil => simp only [conclude_withArchive, Option.map_some]
    | cons id rest =>
      simp only [mailboxOf?_withArchive]
      cases hub.mailboxOf? id with
      | none => rfl
      | some found =>
        simp only
        split
        · rfl
        · split
          · rfl
          · split <;> rfl

/-- But for writing, a step is the same with any archive. -/
theorem step_withArchive (archive : Archive) (hub : Hub σ) {action : Action}
    (h : ∀ replies, action ≠ .write replies) :
    (hub.withArchive archive).step action = (hub.step action).map (withArchive archive) := by
  cases action with
  | handle event =>
    simp only [step, round_withArchive, handle_withArchive]
    split <;> rfl
  | proceed => exact proceed_withArchive archive hub
  | write replies => exact absurd rfl (h replies)
  | answer => exact answer_withArchive archive hub
  | take number =>
    simp only [step, take, withArchive]
    cases hub.mailboxes[number]? with
    | none => rfl
    | some mailbox =>
      simp only [Option.bind_eq_bind, Option.bind_some]
      cases mailbox.take? <;> rfl
  | meet number => exact meet_withArchive archive hub number
  | meetAnswer number => exact meetAnswer_withArchive archive hub number
  | leave number =>
    simp only [step, leave, withArchive]
    cases hub.mailboxes[number]? with
    | none => rfl
    | some mailbox =>
      simp only [Option.bind_eq_bind, Option.bind_some]
      split <;> rfl

end Hub

/-! ## Relays with other archives -/

namespace Relay

/-- A relay with its snapshots in another archive. -/
def withArchive (archive : Archive) (relay : Relay) : Relay :=
  { relay with hub := relay.hub.withArchive archive }

@[simp] theorem hub_withArchive (archive : Archive) (relay : Relay) :
    (relay.withArchive archive).hub = relay.hub.withArchive archive := rfl

@[simp] theorem connections_withArchive (archive : Archive) (relay : Relay) :
    (relay.withArchive archive).connections = relay.connections := rfl

@[simp] theorem running_withArchive (archive : Archive) (relay : Relay) :
    (relay.withArchive archive).running = relay.running := rfl

@[simp] theorem outgoing?_withArchive (archive : Archive) (relay : Relay) (c : Connection) :
    (relay.withArchive archive).outgoing? c = relay.outgoing? c := rfl

@[simp] theorem isCut_withArchive (archive : Archive) (relay : Relay) :
    (relay.withArchive archive).isCut = relay.isCut := rfl

theorem change_withArchive (archive : Archive) (relay : Relay) (id : SessionId)
    (step : Connection → Option Connection) :
    (relay.withArchive archive).change id step =
      (relay.change id step).map (withArchive archive) := by
  simp only [change, withArchive]
  cases relay.connections.get? id with
  | none => rfl
  | some c =>
    simp only [Option.bind_eq_bind, Option.bind_some]
    cases step c <;> rfl

theorem endWriter_withArchive (archive : Archive) (relay : Relay) (id : SessionId)
    (c : Connection) (reason : SessionEnd) :
    (relay.withArchive archive).endWriter id c reason =
      (relay.endWriter id c reason).withArchive archive := by
  simp only [endWriter]
  cases c.mailbox <;> rfl

theorem take_withArchive (archive : Archive) (hub : Hub UdpSink) (number : Nat) :
    (hub.withArchive archive).take number = (hub.take number).map (Hub.withArchive archive) := by
  have htake : ∀ replies, Hub.Action.take number ≠ .write replies := fun _ => nofun
  exact hub.step_withArchive archive htake

theorem write_withArchive (archive : Archive) (relay : Relay) (id : SessionId) :
    (relay.withArchive archive).write id = (relay.write id).map (withArchive archive) := by
  simp only [write, connections_withArchive, outgoing?_withArchive, hub_withArchive,
    take_withArchive]
  cases relay.connections.get? id with
  | none => rfl
  | some c =>
    simp only [Option.bind_eq_bind, Option.bind_some]
    cases relay.outgoing? c with
    | none => rfl
    | some found =>
      simp only [Option.bind_some]
      cases relay.hub.take found.1 <;> rfl

theorem failWrite_withArchive (archive : Archive) (relay : Relay) (id : SessionId) :
    (relay.withArchive archive).failWrite id = (relay.failWrite id).map (withArchive archive) := by
  simp only [failWrite, connections_withArchive, outgoing?_withArchive, hub_withArchive,
    take_withArchive]
  cases relay.connections.get? id with
  | none => rfl
  | some c =>
    simp only [Option.bind_eq_bind, Option.bind_some]
    cases relay.outgoing? c with
    | none => rfl
    | some found =>
      simp only [Option.bind_some]
      cases relay.hub.take found.1 with
      | none => rfl
      | some hub =>
        exact congrArg some (endWriter_withArchive archive { relay with hub } id c .failed)

theorem stopWriter_withArchive (archive : Archive) (relay : Relay) (id : SessionId) :
    (relay.withArchive archive).stopWriter id =
      (relay.stopWriter id).map (withArchive archive) := by
  simp only [stopWriter, connections_withArchive, running_withArchive, isCut_withArchive,
    endWriter_withArchive]
  cases relay.connections.get? id with
  | none => rfl
  | some c =>
    simp only [Option.bind_eq_bind, Option.bind_some]
    cases c.writerEnd? relay.running (c.mailbox.any relay.isCut) <;> rfl

theorem dispatch_withArchive (archive : Archive) (relay : Relay) (id : SessionId) :
    (relay.withArchive archive).dispatch id = (relay.dispatch id).map (withArchive archive) := by
  have hhandle : ∀ event, (relay.hub.withArchive archive).step (.handle event) =
      (relay.hub.step (.handle event)).map (Hub.withArchive archive) := fun event =>
    relay.hub.step_withArchive archive nofun
  simp only [dispatch, connections_withArchive, hub_withArchive, hhandle]
  cases relay.connections.get? id with
  | none => rfl
  | some c =>
    simp only [Option.bind_eq_bind, Option.bind_some]
    cases c.events.head? with
    | none => rfl
    | some event =>
      have hattending : (relay.withArchive archive).attending = relay.attending := rfl
      simp only [Option.bind_some, hattending]
      cases relay.attending with
      | false => rfl
      | true =>
        cases relay.hub.step (.handle event) with
        | none => rfl
        | some hub =>
          cases event with
          | connect other peer depth => cases c.writer <;> rfl
          | message other raw => rfl
          | disconnect other => rfl

/-- But for writing a snapshot, a step is the same with any archive. -/
theorem step_withArchive (archive : Archive) (relay : Relay) {action : Action}
    (h : ∀ replies, action ≠ .hub (.write replies)) :
    (relay.withArchive archive).step action =
      (relay.step action).map (withArchive archive) := by
  cases action with
  | accept peer =>
    obtain ⟨hub, depth, connections, number, running, listening, attending⟩ := relay
    cases listening <;> rfl
  | greet id => exact change_withArchive archive relay id _
  | refuse id => exact change_withArchive archive relay id _
  | send id frame => exact change_withArchive archive relay id _
  | read id => exact change_withArchive archive relay id _
  | failRead id => exact change_withArchive archive relay id _
  | notice id => exact change_withArchive archive relay id _
  | finish id => exact change_withArchive archive relay id _
  | write id => exact write_withArchive archive relay id
  | failWrite id => exact failWrite_withArchive archive relay id
  | failFlush id =>
    simp only [step, failFlush, connections_withArchive, endWriter_withArchive]
    cases relay.connections.get? id with
    | none => rfl
    | some c =>
      simp only [Option.bind_eq_bind, Option.bind_some]
      split <;> rfl
  | stopWriter id => exact stopWriter_withArchive archive relay id
  | dispatch id => exact dispatch_withArchive archive relay id
  | hub work =>
    have hwork : ∀ replies, work.action ≠ .write replies := by
      intro replies heq
      cases work with
      | write => exact h _ rfl
      | _ => cases heq
    have hhub := relay.hub.step_withArchive archive hwork
    simp only [step, withArchive, hhub]
    cases relay.hub.step work.action <;> rfl
  | stop => rfl
  | stopListener =>
    obtain ⟨hub, depth, connections, number, running, listening, attending⟩ := relay
    cases running <;> cases listening <;> rfl
  | stopHub =>
    have hround : (relay.hub.withArchive archive).round = relay.hub.round := rfl
    simp only [step, stopHub, withArchive, hround]
    cases relay.attending && !relay.running && relay.hub.round.isNone <;> rfl

/-! ## Runs with archives that are alike -/

variable {relay next : Relay} {action : Action} {known : FileName → Prop} {other : Archive}

/-- It leaves the archive as it is. -/
theorem archive_of_step (h : ∀ replies, action ≠ .hub (.write replies))
    (hstep : relay.step action = some next) : next.hub.archive = relay.hub.archive := by
  -- With its own archive the relay is what it is, and so is the next one.
  have hsame := step_withArchive relay.hub.archive relay h
  have hown : relay.withArchive relay.hub.archive = relay := rfl
  rw [hown, hstep, Option.map_some] at hsame
  rw [Option.some.inj hsame]
  rfl

theorem archive_of_run {actions : List Action} (h : ∀ replies, .hub (.write replies) ∉ actions)
    (hrun : relay.run actions = some next) : next.hub.archive = relay.hub.archive := by
  induction actions generalizing relay with
  | nil =>
    cases hrun
    rfl
  | cons action actions ih =>
    obtain ⟨middle, hstep, hrest⟩ := Option.bind_eq_some_iff.1 hrun
    have haction : ∀ replies, action ≠ .hub (.write replies) := by
      rintro replies rfl
      exact h replies List.mem_cons_self
    have hactions : ∀ replies, .hub (.write replies) ∉ actions := fun replies hmem =>
      h replies (List.mem_cons_of_mem action hmem)
    exact (ih hactions hrest).trans (archive_of_step haction hstep)

/-- The snapshot writer comes to a job in a run, with the archive as it is at that moment. -/
def Attempts (first : Relay) (actions : List Action) (archive : Archive) (job : Hub.Job) : Prop :=
  ∃ before middle replies, before ++ [.hub (.write replies)] <+: actions ∧
    first.run before = some middle ∧ middle.hub.archive = archive ∧
    middle.hub.jobs.head? = some job

theorem Attempts.front {first : Relay} {archive : Archive} {job : Hub.Job}
    (h : first.Attempts [action] archive job) (actions : List Action) :
    first.Attempts (action :: actions) archive job := by
  obtain ⟨before, middle, replies, hbefore, hat⟩ := h
  exact ⟨before, middle, replies, hbefore.trans ⟨actions, rfl⟩, hat⟩

theorem Attempts.cons {first : Relay} {actions : List Action} {archive : Archive} {job : Hub.Job}
    (hstep : first.step action = some next) (h : next.Attempts actions archive job) :
    first.Attempts (action :: actions) archive job := by
  obtain ⟨before, middle, replies, hbefore, hmiddle, hat⟩ := h
  exact ⟨action :: before, middle, replies, List.cons_prefix_cons.2 ⟨rfl, hbefore⟩,
    Option.bind_eq_some_iff.2 ⟨next, hstep, hmiddle⟩, hat⟩

/-- A step can be taken with either archive, leads to the same and keeps the archives alike. -/
theorem alike_of_step (halike : relay.hub.archive.Alike known other)
    (hlink : ∀ job, relay.Attempts [action] relay.hub.archive job →
      relay.hub.archive.Unlinked job.name) (hstep : relay.step action = some next) :
    ∃ later, (relay.withArchive other).step action = some (next.withArchive later) ∧
      next.hub.archive.Alike known later := by
  by_cases hwrite : ∃ replies, action = .hub (.write replies)
  · obtain ⟨replies, rfl⟩ := hwrite
    obtain ⟨hub, hhub, hnext⟩ := Option.bind_eq_some_iff.1 hstep
    cases hnext
    obtain ⟨later, hwritten, hlater⟩ := Hub.write_withArchive halike
      (fun job hjob => hlink job ⟨[], relay, replies, List.prefix_refl _, rfl, rfl, hjob⟩) hhub
    refine ⟨later, ?_, hlater⟩
    exact Option.bind_eq_some_iff.2 ⟨hub.withArchive later, hwritten, rfl⟩
  · have hother : ∀ replies, action ≠ .hub (.write replies) := fun replies heq =>
      hwrite ⟨replies, heq⟩
    refine ⟨other, ?_, ?_⟩
    · rw [step_withArchive other relay hother, hstep, Option.map_some]
    · rw [archive_of_step hother hstep]
      exact halike

/-- So can a run. -/
theorem alike_of_run {actions : List Action} (halike : relay.hub.archive.Alike known other)
    (hlink : ∀ archive job, relay.Attempts actions archive job → archive.Unlinked job.name)
    (hrun : relay.run actions = some next) :
    ∃ later, (relay.withArchive other).run actions = some (next.withArchive later) ∧
      next.hub.archive.Alike known later := by
  induction actions generalizing relay other with
  | nil =>
    cases hrun
    exact ⟨other, rfl, halike⟩
  | cons action actions ih =>
    obtain ⟨middle, hstep, hrest⟩ := Option.bind_eq_some_iff.1 hrun
    obtain ⟨between, hfirst, hmiddle⟩ :=
      alike_of_step halike (fun job hjob => hlink _ job (hjob.front actions)) hstep
    obtain ⟨later, hlater, hlast⟩ :=
      ih hmiddle (fun archive job hjob => hlink archive job (hjob.cons hstep)) hrest
    exact ⟨later, Option.bind_eq_some_iff.2 ⟨_, hfirst, hlater⟩, hlast⟩

end Relay

/-! ## Reading -/

section Reading

variable {archive other : Archive} {known : FileName → Prop}

/-- Loading what is asked for tells what is in a file that is known. -/
theorem Archive.Alike.load_asked (halike : archive.Alike known other) {approach : Approach}
    {raw : String} (hknows : archive.place.Knows known approach)
    (hasked : approach.asked? = some raw) :
    archive.load raw = other.load raw :=
  halike.load fun name hname => hknows name (Approach.snapshot?_eq_some hasked hname)

/-- An answer over HTTP tells names, and what is in the one file asked for. -/
theorem Http.route_alike (store : Store) (halike : archive.Alike known other)
    {request : Http.Request} (hknows : archive.place.Knows known (.url request.url)) :
    Http.route store archive request = Http.route store other request := by
  have hlisting : Http.listing archive = Http.listing other := by
    rw [Http.listing, Http.listing, halike.list]
  rw [Http.route, Http.route, hlisting]
  dsimp only
  split
  · rfl
  · split
    · rfl
    · split
      · rfl
      · cases hfile : Text.dropFront? Http.snapshotsPath.toList (Http.pathOf request.url) with
        | none => rfl
        | some file =>
          dsimp only
          cases hname : Http.requestedName? file with
          | none => rfl
          | some raw =>
            have hasked : (Approach.url request.url).asked? = some raw := by
              rw [Approach.asked?, hfile, Option.bind_some, hname]
            dsimp only
            rw [Http.snapshot, Http.snapshot, halike.load_asked hknows hasked]

end Reading

namespace Relay

variable {known : FileName → Prop}

/-- A relay begins with the one file that it is told to restore, and writes nothing. -/
theorem start_alike {config : Config} (hosts : HostLookup) (process : Nat) (link : Link)
    (binding : Binding) {disk other : Disk} (halike : Place.Alike known disk.place other.place)
    (hknows : ∀ name, config.restore = some name → disk.place.Knows known (.restore name)) :
    start hosts config other process link binding =
      (start hosts config disk process link binding).map
        (withArchive (.ofDisk config.snapshotDir other process)) := by
  have hofDisk : Archive.Alike known (.ofDisk config.snapshotDir disk process)
      (.ofDisk config.snapshotDir other process) := ⟨rfl, rfl, rfl, halike⟩
  have hrestore : restore config (.ofDisk config.snapshotDir disk process) =
      restore config (.ofDisk config.snapshotDir other process) := by
    cases hname : config.restore with
    | none => simp only [restore, hname]
    | some name =>
      have hasked : (Approach.restore name).asked? = some name := rfl
      have hload := hofDisk.load_asked (hknows name hname) hasked
      simp only [restore, hname, hload]
  simp only [start, hrestore]
  cases openSinks hosts config link binding with
  | error e => rfl
  | ok sinks =>
    cases restore config (.ofDisk config.snapshotDir other process) with
    | error e => rfl
    | ok begun =>
      cases bind binding .webSocket with
      | error e => rfl
      | ok webSocket =>
        cases bind binding .http with
        | error e => rfl
        | ok http => rfl

end Relay

end ShowRelay
