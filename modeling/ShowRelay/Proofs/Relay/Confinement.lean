/-
  ShowRelay.Proofs.Relay.Confinement

  What texts from outside can do to the disk of a relay, and what they can get
  from it, whatever characters they hold.

  A relay writes snapshots that messages of its clients have asked for
  (`Relay.exists_of_attempts`), and these are files directly inside the folder
  (`Archive.encloses`). It changes nothing else (`Relay.kept_of_run`), unless a
  symbolic link has the name of a hidden file, and is followed out of the folder
  or to another snapshot (`Relay.overwritten_of_link`).

  A relay shows what a file holds only to those who ask for the snapshot by its
  name; that anything else makes no difference is proved of two relays with
  different disks (`Relay.confined`).
-/

import ShowRelay.Proofs.Hub.Saving
import ShowRelay.Proofs.Relay.Alike
import ShowRelay.Proofs.Relay.Ordering
import ShowRelay.Proofs.Relay.Restoring
import ShowRelay.Proofs.Snapshot.Diverting

namespace ShowRelay

/-! ## What is asked for -/

/-- Jobs come from messages, under the names that these ask for. -/
theorem Hub.exists_of_mem_jobIn {σ : Type} {hub : Hub σ} {event : Event} {job : Job}
    (h : job ∈ hub.jobIn (.handle event)) : ∃ id raw, event = .message id raw ∧
      (Approach.message raw).snapshot? = some job.name := by
  cases event with
  | message id raw =>
    refine ⟨id, raw, rfl, ?_⟩
    simp only [jobIn] at h
    split at h
    · next session name hopen hraw =>
      have hasked : (Approach.message raw).asked? = some name := by
        simp only [Approach.asked?, hraw]
      split at h
      · next clean hname =>
        rw [List.mem_singleton.1 h]
        exact Approach.snapshot?_eq_some hasked hname
      · cases h
    · cases h
  | connect id peer depth => cases h
  | disconnect id => cases h

namespace Relay

variable {first relay next : Relay} {action : Action} {actions : List Action} {archive : Archive}

/-- A message that the hub takes up was sent by a client. -/
theorem exists_of_message (hfirst : first.Fresh) (hrun : first.run actions = some relay)
    {id : SessionId} {raw : String} (h : .message id raw ∈ first.history eventIn actions) :
    ∃ frame, .send id frame ∈ actions ∧ frame.message? = some raw := by
  have htext : raw ∈ Hub.textsOf id (first.history eventIn actions) :=
    List.mem_filterMap.2 ⟨.message id raw, List.mem_filter.2 ⟨h, decide_eq_true rfl⟩, rfl⟩
  have hsent := ((inbound_of_run hfirst hrun).texts id).subset htext
  obtain ⟨frame, hframe, hraw⟩ := List.mem_filterMap.1 hsent
  obtain ⟨middle, action, hmem, hin⟩ := exists_of_mem_history hframe
  refine ⟨frame, ?_, hraw⟩
  cases action with
  | send other found =>
    simp only [sentIn] at hin
    split at hin
    · next hid =>
      cases List.mem_singleton.1 hin
      exact hid ▸ hmem
    · cases hin
  | _ => cases hin

/-- The jobs of a relay come from messages that its hub has taken up. -/
def Asked (handled : List Hub.Event) (jobs : List Hub.Job) : Prop :=
  ∀ job ∈ jobs, ∃ id raw, .message id raw ∈ handled ∧
    (Approach.message raw).snapshot? = some job.name

theorem Asked.handle {handled : List Hub.Event} {jobs : List Hub.Job} (h : Asked handled jobs)
    (hub : Hub UdpSink) (event : Hub.Event) :
    Asked (handled ++ [event]) (jobs ++ hub.jobIn (.handle event)) := by
  intro job hjob
  rcases List.mem_append.1 hjob with hjob | hjob
  · obtain ⟨id, raw, hmem, hname⟩ := h job hjob
    exact ⟨id, raw, List.mem_append_left _ hmem, hname⟩
  · obtain ⟨id, raw, rfl, hname⟩ := Hub.exists_of_mem_jobIn hjob
    exact ⟨id, raw, List.mem_append_right _ (List.mem_singleton_self _), hname⟩

/-- Whatever a relay does, its archive was made by jobs that were asked for. -/
theorem recorded_of_move (hmove : Move relay action next) {handled : List Hub.Event}
    (h : ∃ asked tried given, Hub.Recorded archive relay.hub asked tried given ∧
      Asked handled asked) :
    ∃ asked tried given, Hub.Recorded archive next.hub asked tried given ∧
      Asked (handled ++ relay.eventIn action) asked := by
  obtain ⟨asked, tried, given, hrecorded, hasked⟩ := h
  -- Most steps leave the jobs and the archive alone, and take up no event.
  have hstill : relay.eventIn action = [] → ∀ hub : Hub UdpSink, hub.jobs = relay.hub.jobs →
      hub.archive = relay.hub.archive → hub.outcome = relay.hub.outcome →
      ∃ asked tried given, Hub.Recorded archive hub asked tried given ∧
        Asked (handled ++ relay.eventIn action) asked := by
    intro hnone hub hjobs harchive houtcome
    refine ⟨_, _, _, hrecorded.keep hjobs harchive houtcome, ?_⟩
    rw [hnone, List.append_nil, List.append_nil]
    exact hasked
  cases hmove with
  | accept peer => exact hstill rfl _ rfl rfl rfl
  | own _ id c changed hc hown => exact hstill (hown.unseen relay).1.event _ rfl rfl rfl
  | writer _ id c changed mailboxes hc hwrites =>
    exact hstill (hwrites.unseen relay).1.event _ rfl rfl rfl
  | register id other c peer depth events new hround hc hevents =>
    rw [eventIn_dispatch hc hevents]
    have hconnect := Hub.recorded_of_move (Hub.move_handle (.connect other peer depth) hround)
      hrecorded
    exact ⟨_, _, _, ⟨hconnect.order, hconnect.written, hconnect.answered⟩,
      hasked.handle relay.hub (.connect other peer depth)⟩
  | handle id c event events hround hc hevents hother =>
    rw [eventIn_dispatch hc hevents]
    exact ⟨_, _, _, Hub.recorded_of_move (Hub.move_handle event hround) hrecorded,
      hasked.handle relay.hub event⟩
  | work work hub hstep =>
    have hnone : relay.hub.jobIn work.action = [] := by
      cases work with
      | _ => rfl
    have hwork := Hub.recorded_of_move (Hub.move_of_step hstep) hrecorded
    refine ⟨_, _, _, hwork, ?_⟩
    rw [hnone, List.append_nil]
    exact (List.append_nil handled).symm ▸ hasked
  | wane _ running listening attending haction =>
    exact hstill (unseen_of_wane haction relay).1.event _ rfl rfl rfl

/-! ## Runs -/

/-- The jobs to which the snapshot writer comes were asked for by clients. -/
theorem exists_of_attempts (hfirst : first.Fresh) (hjobs : first.hub.jobs = [])
    (houtcome : first.hub.outcome = none) {job : Hub.Job} (h : first.Attempts actions archive job) :
    ∃ id frame raw, .send id frame ∈ actions ∧ frame.message? = some raw ∧
      (Approach.message raw).snapshot? = some job.name := by
  obtain ⟨before, middle, replies, hbefore, hmiddle, -, hhead⟩ := h
  have hrecorded : ∃ asked tried given,
      Hub.Recorded first.hub.archive middle.hub asked tried given ∧
        Asked (first.history eventIn before) asked := by
    refine run_induction (motive := fun actions relay => ∃ asked tried given,
      Hub.Recorded first.hub.archive relay.hub asked tried given ∧
        Asked (first.history eventIn actions) asked) ?_ ?_ hmiddle
    · refine ⟨[], [], [], ⟨hjobs, rfl, ?_⟩, nofun⟩
      rw [houtcome]
      rfl
    · intro actions relay action next hactions ih _ hmove
      rw [history_concat _ action hactions]
      exact recorded_of_move hmove ih
  obtain ⟨asked, tried, given, hrecorded, hasked⟩ := hrecorded
  -- What is still on the list was asked for, and what was asked for was sent.
  have hmem : job ∈ asked := by
    rw [← hrecorded.order]
    exact List.mem_append_right _ (List.mem_of_head? hhead)
  obtain ⟨id, raw, hmessage, hname⟩ := hasked job hmem
  obtain ⟨frame, hsent, hraw⟩ := exists_of_message hfirst hmiddle hmessage
  have hactions : before <+: actions := (List.prefix_append _ _).trans hbefore
  exact ⟨id, frame, raw, hactions.subset hsent, hraw, hname⟩

/-- If only the last step of a run can be a writing, then it finds the archive as it was. -/
theorem archive_of_attempts {last : Action} (hactions : ∀ replies, .hub (.write replies) ∉ actions)
    {job : Hub.Job} (h : first.Attempts (actions ++ [last]) archive job) :
    archive = first.hub.archive := by
  obtain ⟨before, middle, replies, hbefore, hmiddle, rfl, -⟩ := h
  rcases List.prefix_concat_iff.1 hbefore with heq | hbegins
  · obtain ⟨rfl, -⟩ := List.append_inj' heq rfl
    exact archive_of_run hactions hmiddle
  · exact absurd (hbegins.subset (by simp)) (hactions replies)

/-- A step changes only what the attempt at a job can change, if it makes one. -/
theorem kept_of_step (hstep : relay.step action = some next) :
    relay.hub.archive.Kept
      (fun path => ∃ archive job, relay.Attempts [action] archive job ∧
        archive.Exposes job.name path) next.hub.archive := by
  by_cases hwrite : ∃ replies, action = .hub (.write replies)
  · obtain ⟨replies, rfl⟩ := hwrite
    obtain ⟨hub, hhub, hnext⟩ := Option.bind_eq_some_iff.1 hstep
    cases hnext
    cases Hub.move_of_step hhub with
    | deliver _ _ _ _ _ _ _ haction => rcases haction with h | h <;> cases h
    | reply _ _ _ _ haction => rcases haction with h | h <;> cases h
    | write _ job jobs houtcome hjobs =>
      refine (Archive.kept_of_saveWith (SnapshotName.sanitize_text job.name) relay.hub.archive
        replies job.contents).mono ?_
      intro path hexposed
      have hhead : relay.hub.jobs.head? = some job := by
        rw [hjobs]
        rfl
      exact ⟨_, job, ⟨[], relay, replies, List.prefix_refl _, rfl, rfl, hhead⟩, hexposed⟩
  · have hother : ∀ replies, action ≠ .hub (.write replies) := fun replies heq =>
      hwrite ⟨replies, heq⟩
    rw [archive_of_step hother hstep]
    exact .refl _ _

/-- So does a run. -/
theorem kept_of_run (hrun : first.run actions = some relay) :
    first.hub.archive.Kept
      (fun path => ∃ archive job, first.Attempts actions archive job ∧
        archive.Exposes job.name path) relay.hub.archive := by
  induction actions generalizing first with
  | nil =>
    cases hrun
    exact .refl _ _
  | cons action actions ih =>
    obtain ⟨middle, hstep, hrest⟩ := Option.bind_eq_some_iff.1 hrun
    refine ((kept_of_step hstep).mono ?_).trans ((ih hrest).mono ?_)
    · rintro path ⟨archive, job, hjob, hexposed⟩
      exact ⟨archive, job, hjob.front actions, hexposed⟩
    · rintro path ⟨archive, job, hjob, hexposed⟩
      exact ⟨archive, job, hjob.cons hstep, hexposed⟩

/-- Two disks with the same kinds of things in their folders, in which some files are known to
    be the same, among them the one of the snapshot to begin with, if there is one.

    A relay begins the same with either of them, and leaves them as they are. Whatever its
    clients send, every snapshot that is asked for is in the folder, and only what messages ask
    for is ever written. A writing changes the snapshot's file and its own hidden file, at any
    moment and whatever is refused, and the file to which a link of the hidden file's name
    leads; a run changes nothing but what its writings do. If there are no such links, then the
    relay takes the same steps with the other disk and ends up the same; and so is every answer
    over HTTP for which no other file is asked for than one that is known. -/
theorem confined (hosts : HostLookup) (config : Config) (process : Nat) (link : Link)
    (binding : Binding) {known : FileName → Prop} {disk other : Disk}
    (halike : Place.Alike known disk.place other.place)
    (hrestore : ∀ name, config.restore = some name → disk.place.Knows known (.restore name)) :
    start hosts config other process link binding =
      (start hosts config disk process link binding).map
        (withArchive (.ofDisk config.snapshotDir other process)) ∧
    ∀ first actions relay, start hosts config disk process link binding = .ok first →
      first.run actions = some relay →
      first.hub.archive = .ofDisk config.snapshotDir disk process ∧
      (∀ (approach : Approach) (name : SnapshotName), approach.snapshot? = some name →
        relay.hub.archive.Encloses name) ∧
      (∀ archive job, first.Attempts actions archive job →
        ∃ id frame raw, .send id frame ∈ actions ∧ frame.message? = some raw ∧
          (Approach.message raw).snapshot? = some job.name) ∧
      (∀ (name : SnapshotName) (contents : Bytes) (replies : List Saving.Reply),
        relay.hub.archive.Kept (relay.hub.archive.Exposes name)
          (replies.foldl (fun (archive, s) reply => Saving.step archive s reply)
            (relay.hub.archive, .start name contents)).1) ∧
      first.hub.archive.Kept
        (fun path => ∃ archive job, first.Attempts actions archive job ∧
          archive.Exposes job.name path)
        relay.hub.archive ∧
      ((∀ archive job, first.Attempts actions archive job → archive.Unlinked job.name) →
        ∃ later,
          (first.withArchive (.ofDisk config.snapshotDir other process)).run actions =
            some (relay.withArchive later) ∧
          relay.hub.archive.Alike known later ∧
          ∀ request, relay.hub.archive.place.Knows known (.url request.url) →
            Http.route relay.hub.store relay.hub.archive request =
              Http.route relay.hub.store later request) := by
  refine ⟨start_alike hosts process link binding halike hrestore, ?_⟩
  intro first actions relay hstart hrun
  have hfresh := fresh_of_start hstart
  obtain ⟨store, sinks, log, rfl⟩ := exists_of_start hstart
  refine ⟨rfl, ?_, ?_, ?_, kept_of_run hrun, fun hlink => ?_⟩
  · intro approach name _
    exact relay.hub.archive.encloses name
  · intro archive job hjob
    exact exists_of_attempts hfresh rfl rfl hjob
  · intro name contents replies
    exact relay.hub.archive.kept_of_writing name contents replies
  · have hfirst : Archive.Alike known (.ofDisk config.snapshotDir disk process)
        (.ofDisk config.snapshotDir other process) := ⟨rfl, rfl, rfl, halike⟩
    obtain ⟨later, hlater, hlast⟩ := alike_of_run hfirst hlink hrun
    refine ⟨later, hlater, hlast, fun request hknows => ?_⟩
    exact Http.route_alike relay.hub.store hlast hknows

/-- What is left of the name `../show`. -/
def climber : SnapshotName := ⟨"..show", by decide, List.all_eq_true.1 (by decide)⟩

/-- The name of a snapshot that nobody asks for. -/
def secret : SnapshotName := ⟨"secret", by decide, List.all_eq_true.1 (by decide)⟩

theorem secret_ne_climber : secret.fileName ≠ climber.fileName := by decide

/-- A disk with two snapshots. -/
def vault (contents : String) : Disk where
  place := .folder ((Table.empty.insert climber.fileName (.file (Utf8.encode "x:1\n"))).insert
    secret.fileName (.file (Utf8.encode contents)))

theorem find?_vault (contents : String) (file : FileName) : (vault contents).place.find? file =
    if file = secret.fileName then some (.file (Utf8.encode contents))
    else if file = climber.fileName then some (.file (Utf8.encode "x:1\n")) else none := by
  have hclimber := Table.get?_insert Table.empty climber.fileName file
    (Node.file (Utf8.encode "x:1\n"))
  rw [← Table.get?_empty file, ← hclimber]
  exact Table.get?_insert _ secret.fileName file (Node.file (Utf8.encode contents))

theorem find?_vault_climber (contents : String) :
    (vault contents).place.find? climber.fileName = some (.file (Utf8.encode "x:1\n")) := by
  rw [find?_vault, if_neg secret_ne_climber.symm, if_pos rfl]

/-- Two such disks of which one snapshot is known to be the same. -/
theorem alike_vault (contents contents' : String) :
    Place.Alike (· = climber.fileName) (vault contents).place (vault contents').place := by
  refine .folder ⟨fun file => ?_, fun file hfile => ?_⟩
  · have hkind : Node.Alike ((vault contents).place.find? file)
        ((vault contents').place.find? file) := by
      rw [find?_vault, find?_vault]
      split
      · exact .file _ _
      · exact .refl _
    exact hkind
  · subst hfile
    exact (find?_vault_climber contents).trans (find?_vault_climber contents').symm

/-- The snapshot that is known may be asked for wherever its file still is. -/
theorem knows_climber {place : Place} {contents : Bytes} {approach : Approach}
    (hentry : place.find? climber.fileName = some (.file contents))
    (hasked : approach.snapshot? = some climber) :
    place.Knows (· = climber.fileName) approach := by
  intro name hname
  rw [hasked] at hname
  cases hname
  refine ⟨rfl, fun target => ?_⟩
  rw [hentry]
  nofun

/-- Settings with a name to begin with that would lead out of the folder. -/
def climbing : Config := { Config.default with sinks := [], restore := some "../show" }

/-- A client sends a request for a snapshot, up to the moment when the hub has passed it on. -/
def request (raw : String) : List Action :=
  [.accept "desk", .greet ⟨0⟩, .dispatch ⟨0⟩, .send ⟨0⟩ (.text raw), .read ⟨0⟩, .dispatch ⟨0⟩]

/-- A client asks for a snapshot under a name that would lead out of the folder. -/
def intrusion : List Action := request "save:/../../etc/passwd\x00" ++ [.hub (.write [])]

theorem load_climber :
    (Archive.ofDisk "presets" (vault "s:1") 1).load "../show" = .ok "x:1\n" := by
  have hname : SnapshotName.sanitize "../show" = .ok climber := rfl
  have hentry : (Archive.ofDisk "presets" (vault "s:1") 1).place.find? climber.fileName =
      some (.file (Utf8.encode "x:1\n")) := find?_vault_climber "s:1"
  rw [Archive.load_eq hname (Place.unblocked_folder _) (by rw [hentry]; nofun) (by decide),
    hentry]
  simp only [Utf8.decode?_encode]

/-- The snapshot is written in the archive as it was, and under no other name. -/
theorem attempt_of_intrusion (hfirst : first.Fresh) (hjobs : first.hub.jobs = [])
    (houtcome : first.hub.outcome = none) {job : Hub.Job}
    (h : first.Attempts intrusion archive job) :
    archive = first.hub.archive ∧ job.name.text = "....etcpasswd" := by
  refine ⟨archive_of_attempts (fun replies => by simp [request]) h, ?_⟩
  obtain ⟨id, frame, raw, hsent, hraw, hname⟩ := exists_of_attempts hfirst hjobs houtcome h
  obtain ⟨-, rfl⟩ : id = ⟨0⟩ ∧ frame = .text "save:/../../etc/passwd\x00" := by
    simpa [intrusion, request] using hsent
  cases hraw
  exact congrArg SnapshotName.text (Option.some.inj hname).symm

/-- No link has the name of a hidden file. -/
theorem unlinked_vault (contents : String) (name : SnapshotName) :
    (Archive.ofDisk "presets" (vault contents) 1).Unlinked name := by
  refine Archive.unlinked_of_fresh ?_
  refine (find?_vault contents _).trans ?_
  rw [if_neg (Saving.hiddenName_ne_fileName _ _ _ _),
    if_neg (Saving.hiddenName_ne_fileName _ _ _ _)]

/-- A relay begins with a snapshot and saves another, both by names that would lead out of the
    folder. The secret stays, and what it is cannot be told from the relay, nor from the answer
    to a URL that would lead out of the folder. -/
theorem confined_of_vault :
    ∃ first relay later,
      start .numeric climbing (vault "s:1") 1 .up (fun _ => .ok (.v4 .unspecified 8080)) =
        .ok first ∧
      first.run intrusion = some relay ∧
      start .numeric climbing (vault "s:2") 1 .up (fun _ => .ok (.v4 .unspecified 8080)) =
        .ok (first.withArchive (.ofDisk "presets" (vault "s:2") 1)) ∧
      (first.withArchive (.ofDisk "presets" (vault "s:2") 1)).run intrusion =
        some (relay.withArchive later) ∧
      relay.hub.archive.place.find? secret.fileName = some (.file (Utf8.encode "s:1")) ∧
      Http.route relay.hub.store relay.hub.archive ⟨"GET", "/s/..%2Fshow%00.preset"⟩ =
        Http.route relay.hub.store later ⟨"GET", "/s/..%2Fshow%00.preset"⟩ := by
  obtain ⟨first, hstart, -⟩ :=
    @start_of_load .numeric climbing (vault "s:1") 1 .up (fun _ => .ok (.v4 .unspecified 8080))
      _ _ _ _ _ rfl load_climber rfl rfl rfl
  obtain ⟨hbegin, hruns⟩ :=
    @confined .numeric climbing 1 .up (fun _ => .ok (.v4 .unspecified 8080)) _ _ _
      (alike_vault "s:1" "s:2") (fun _ hrestore => by
        cases hrestore
        exact knows_climber (find?_vault_climber "s:1") rfl)
  rw [hstart] at hbegin
  have hfresh := fresh_of_start hstart
  obtain ⟨store, sinks, log, hfirst⟩ := exists_of_start hstart
  have hjobs : first.hub.jobs = [] := by rw [hfirst]; rfl
  have houtcome : first.hub.outcome = none := by rw [hfirst]; rfl
  obtain ⟨relay, hrun⟩ : ∃ relay, first.run intrusion = some relay := by
    rw [hfirst]
    exact ⟨_, rfl⟩
  obtain ⟨harchive, -, -, -, hkept, hother⟩ := hruns first intrusion relay hstart hrun
  -- The one writing finds the archive as it was.
  have hattempt : ∀ archive job, first.Attempts intrusion archive job →
      archive = .ofDisk "presets" (vault "s:1") 1 ∧ job.name.text = "....etcpasswd" := by
    intro archive job hjob
    obtain ⟨hsame, htext⟩ := attempt_of_intrusion hfresh hjobs houtcome hjob
    exact ⟨hsame.trans harchive, htext⟩
  obtain ⟨later, hlater, -, hroute⟩ := hother fun archive job hjob => by
    rw [(hattempt archive job hjob).1]
    exact unlinked_vault "s:1" job.name
  -- The files of other snapshots stay.
  have hstays : ∀ (other : SnapshotName) (contents : Bytes), other.text ≠ "....etcpasswd" →
      (vault "s:1").place.find? other.fileName = some (.file contents) →
        relay.hub.archive.place.find? other.fileName = some (.file contents) := by
    intro other contents hname hentry
    rw [harchive] at hkept
    refine hkept.disk.find?_file hentry ?_
    rintro ⟨archive, job, hjob, hexposed⟩
    obtain ⟨rfl, htext⟩ := hattempt archive job hjob
    refine Archive.not_exposes (unlinked_vault "s:1" job.name) ?_ hexposed
    rintro rfl
    exact hname htext
  refine ⟨_, relay, later, hstart, hrun, hbegin, hlater, ?_, hroute _ ?_⟩
  · exact hstays secret _ (by decide) ((find?_vault "s:1" secret.fileName).trans (if_pos rfl))
  · exact knows_climber (hstays climber _ (by decide) (find?_vault_climber "s:1")) rfl

/-! ## Where a link leads -/

/-- A disk with a snapshot to which a link of the name of the hidden file leads. -/
def diverted : Disk where
  place := .folder ((Table.empty.insert secret.fileName (.file (Utf8.encode "s:1"))).insert
    letterHidden (.link secret.fileName))

/-- A client asks for one snapshot, and another is overwritten, to which a link leads that has the
    name of the hidden file. -/
theorem overwritten_of_link :
    ∃ first relay,
      start .numeric { Config.default with sinks := [] } diverted 1 .up
        (fun _ => .ok (.v4 .unspecified 8080)) = .ok first ∧
      first.run (request "save:a" ++ [.hub (.write [])]) = some relay ∧
      first.hub.archive.place.find? secret.fileName = some (.file (Utf8.encode "s:1")) ∧
      relay.hub.archive.place.find? secret.fileName = some (.file (Utf8.encode "\n")) ∧
      secret.fileName ≠ letter.fileName ∧ secret.fileName ≠ letterHidden := by
  have hdiverts : (Archive.ofDisk "presets" diverted 1).Diverts letterHidden
      ((Archive.ofDisk "presets" diverted 1).placePath ++ [secret.fileName]) := by
    refine Disk.diverts_of_link rfl (Saving.direct_hiddenName letter 1 0) (by decide)
      secret.direct_fileName (by decide) rfl ?_
    rintro node ⟨⟩
    exact ⟨_, rfl⟩
  have hname : SnapshotName.sanitize "a" = .ok letter := rfl
  obtain ⟨after, hsave⟩ := Archive.save_of_diverts hname hdiverts (by decide) nofun "\n"
  obtain ⟨-, -, found, hfound, hfile⟩ := Archive.diverts_of_saveWith hname rfl hsave
  cases hdiverts.eq hfound
  -- The request gets on the list of the writer.
  obtain ⟨first, hstart, hfirst, middle, hmiddle, hjobs, houtcome⟩ : ∃ first,
      start .numeric { Config.default with sinks := [] } diverted 1 .up
        (fun _ => .ok (.v4 .unspecified 8080)) = .ok first ∧
      first.hub.archive = .ofDisk "presets" diverted 1 ∧
      ∃ middle, first.run (request "save:a") = some middle ∧
        middle.hub.jobs = [⟨letter, "\n", 0⟩] ∧ middle.hub.outcome = none :=
    ⟨_, rfl, rfl, _, rfl, rfl, rfl⟩
  have harchive : middle.hub.archive = .ofDisk "presets" diverted 1 :=
    (archive_of_run (fun replies => by simp [request]) hmiddle).trans hfirst
  obtain ⟨relay, hstep, hwritten⟩ : ∃ relay, middle.step (.hub (.write [])) = some relay ∧
      relay.hub.archive = (middle.hub.archive.save "a" "\n").1 := by
    simp only [step, HubWork.action, Hub.step, Hub.write, houtcome, hjobs]
    exact ⟨_, rfl, rfl⟩
  refine ⟨first, relay, hstart, ?_, ?_, ?_, by decide, by decide⟩
  · rw [run_concat, hmiddle, Option.bind_some, hstep]
  · rw [hfirst]
    rfl
  · have hkept := Archive.kept_of_saveWith hname (.ofDisk "presets" diverted 1) [] "\n"
    have hsaved : (Archive.ofDisk "presets" diverted 1).saveWith [] "a" "\n" = _ := hsave
    rw [hsaved] at hkept
    have hplace := hkept.disk.placePath
    rw [hwritten, harchive, hsave, ← Disk.at?_tree_entry, hplace]
    exact hfile (by rw [hplace]; decide)

end Relay

end ShowRelay
