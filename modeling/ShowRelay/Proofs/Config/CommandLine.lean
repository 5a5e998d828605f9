/-
  ShowRelay.Proofs.Config.CommandLine

  The destinations of a command line. The values of `--sink` are the destinations,
  in their order and with none missing (`CommandLine.sinks_of_arguments`), and the
  plain argument is put in the place of the first destination, whatever that is.
  As long as it is the broadcast of the defaults nothing is lost. Where it is the
  first value of `--sink`, this value is lost, unless its address is among the
  others (`CommandLine.reached_of_configure`).
-/

import ShowRelay.CommandLine
import ShowRelay.Proofs.Config.Sinks

namespace ShowRelay.CommandLine

/-! ## The values of the option -/

/-- The values that some arguments give to the option for destinations, in their order. -/
def sinksGiven : List String → List String
  | [] => []
  | argument :: rest =>
    -- After a lone double dash there are no options.
    if argument = "--" then []
    else if argument = "--sink" then
      match rest with
      | [] => []
      | value :: rest => value :: sinksGiven rest
    else
      match Text.dropFront? "--sink=".toList argument.toList with
      | some value => String.ofList value :: sinksGiven rest
      | none => sinksGiven rest

theorem sinks_of_give {line line' : CommandLine} {value : String} {p : Parameter}
    (h : line.give value p = .ok line') :
    line'.sinks = line.sinks ++ if p = .sink then [value] else [] := by
  cases p with
  | sink =>
    cases h
    rfl
  | _ =>
    simp only [give, Bind.bind, Except.bind] at h
    split at h
    · cases h
    · cases h
      simp

section

variable {text : String} {value : List Char} (rest : List String)

theorem sinksGiven_end : sinksGiven ("--" :: rest) = [] := by
  rw [sinksGiven.eq_def]
  dsimp only
  rw [if_pos rfl]

theorem sinksGiven_joined (h : text.toList = "--sink=".toList ++ value) :
    sinksGiven (text :: rest) = String.ofList value :: sinksGiven rest := by
  have hend : text ≠ "--" := by
    rintro rfl
    simp at h
  have hoption : text ≠ "--sink" := by
    rintro rfl
    simp at h
  have hvalue : Text.dropFront? "--sink=".toList text.toList = some value :=
    Text.dropFront?_eq_some_iff.2 h
  rw [sinksGiven.eq_def]
  dsimp only
  rw [if_neg hend, if_neg hoption, hvalue]

theorem sinksGiven_of_other (hend : text ≠ "--") (hoption : text ≠ "--sink")
    (hjoined : ∀ value, text.toList ≠ "--sink=".toList ++ value) :
    sinksGiven (text :: rest) = sinksGiven rest := by
  have hnone : Text.dropFront? "--sink=".toList text.toList = none := by
    rw [Option.eq_none_iff_forall_ne_some]
    exact fun value h => hjoined value (Text.dropFront?_eq_some_iff.1 h)
  rw [sinksGiven.eq_def]
  dsimp only
  rw [if_neg hend, if_neg hoption, hnone]

end

/-- The option for destinations is known by one name. -/
theorem lookup_options_eq_sink {name : String} (h : options.lookup name = some .sink) :
    name = "sink" := by
  simp only [options, List.lookup_cons, List.lookup_nil] at h
  repeat' split at h
  all_goals simp_all

namespace Reading

/-- The destinations that are known after some arguments. -/
def held (r : Reading) : List String :=
  match r.pending with
  | some (.sink, some value) => r.line.sinks ++ [value]
  | _ => r.line.sinks

theorem settle_eq_ok {r r' : Reading} (h : r.settle = .ok r') :
    r'.line.sinks = r.held ∧ r'.pending = none ∧ r'.onlyPlain = r.onlyPlain ∧
      ∀ p, r.pending ≠ some (p, none) := by
  unfold settle at h
  split at h
  · next hpending =>
    cases h
    refine ⟨?_, hpending, rfl, ?_⟩
    · rw [held, hpending]
    · rw [hpending]
      nofun
  · cases h
  · next p value hpending =>
    simp only [Bind.bind, Except.bind] at h
    split at h
    · cases h
    · next line hline =>
      cases h
      refine ⟨?_, rfl, rfl, ?_⟩
      · rw [sinks_of_give hline, held, hpending]
        cases p <;> simp
      · rw [hpending]
        nofun

/-- The destinations that some further arguments lead to. -/
def due (r : Reading) (arguments : List String) : List String :=
  if r.onlyPlain then r.held
  else
    match r.pending with
    | some (.sink, none) => r.line.sinks ++ sinksGiven ("--sink" :: arguments)
    | _ => r.held ++ sinksGiven arguments

theorem due_of_onlyPlain {r : Reading} (h : r.onlyPlain = true) (arguments : List String) :
    r.due arguments = r.held := if_pos h

theorem due_of_complete {r : Reading} (honly : r.onlyPlain = false)
    (h : r.pending ≠ some (.sink, none)) (arguments : List String) :
    r.due arguments = r.held ++ sinksGiven arguments := by
  rw [due, if_neg (by simp [honly])]
  split
  · next hpending => exact absurd hpending h
  · rfl

/-- A long option and its value, as they are spelled. -/
structure Spells (text name : String) (value : Option String) : Prop where
  option : name = "sink" ∧ value = none ↔ text = "--sink"
  joined : ∀ v, name = "sink" ∧ value = some v ↔ text.toList = "--sink=".toList ++ v.toList
  notEnd : text ≠ "--"

theorem sinksGiven_of_spells {text name : String} {value : Option String}
    (h : Spells text name value) (hname : name ≠ "sink") (rest : List String) :
    sinksGiven (text :: rest) = sinksGiven rest := by
  refine sinksGiven_of_other rest h.notEnd (fun heq => hname (h.option.2 heq).1) fun v heq => ?_
  refine hname ((h.joined (String.ofList v)).2 ?_).1
  rw [heq, String.toList_ofList (l := v)]

theorem due_of_long {r r' : Reading} {text name : String} {value : Option String}
    (honly : r.onlyPlain = false) (hspells : Spells text name value)
    (h : r.long name value = .ok r') (rest : List String) :
    r'.onlyPlain = false ∧ r'.due rest = r.due (text :: rest) := by
  unfold long at h
  split at h
  · next p hlookup =>
    simp only [Bind.bind, Except.bind] at h
    split at h
    · cases h
    next settled hsettle =>
    cases h
    obtain ⟨hsinks, -, honly', hcomplete⟩ := settle_eq_ok hsettle
    rw [honly] at honly'
    refine ⟨honly', ?_⟩
    rw [due_of_complete honly (hcomplete .sink)]
    by_cases hp : p = .sink
    · subst hp
      rw [hspells.option.1 ⟨lookup_options_eq_sink hlookup, rfl⟩, ← hsinks]
      simp [due, honly']
    · have hname : name ≠ "sink" := by
        rintro rfl
        exact hp (Option.some.inj hlookup).symm
      rw [sinksGiven_of_spells hspells hname, ← hsinks]
      simp [due, honly', held, hp]
  · next p v hlookup =>
    simp only [Bind.bind, Except.bind] at h
    split at h
    · cases h
    next settled hsettle =>
    split at h
    · cases h
    next line hline =>
    cases h
    obtain ⟨hsinks, hpending, honly', hcomplete⟩ := settle_eq_ok hsettle
    rw [honly] at honly'
    refine ⟨honly', ?_⟩
    have hgiven := sinks_of_give hline
    rw [due_of_complete honly (hcomplete .sink)]
    by_cases hp : p = .sink
    · subst hp
      have htext := (hspells.joined v).1 ⟨lookup_options_eq_sink hlookup, rfl⟩
      rw [sinksGiven_joined rest htext, String.ofList_toList, ← hsinks]
      simp [due, honly', held, hpending, hgiven]
    · have hname : name ≠ "sink" := by
        rintro rfl
        exact hp (Option.some.inj hlookup).symm
      rw [sinksGiven_of_spells hspells hname, ← hsinks]
      simp [due, honly', held, hpending, hgiven, hp]
  · split at h
    · simp only [instead, Bind.bind, Except.bind] at h
      split at h
      · cases h
      · cases h
    · split at h
      · simp only [instead, Bind.bind, Except.bind] at h
        split at h
        · cases h
        · cases h
      · cases h
  · split at h
    · cases h
    · cases h

theorem spells_of_ofText {text name : String} {value : Option String}
    (h : Argument.ofText text = .long name value) : Spells text name value := by
  unfold Argument.ofText at h
  split at h
  · cases h
  · next rest hempty htext =>
    have hnotEnd : text ≠ "--" := by
      rintro rfl
      exact hempty (List.cons.inj (List.cons.inj htext).2).2.symm
    have hoption : text = "--sink" ↔ rest = "sink".toList := by
      rw [← String.toList_inj, htext]
      simp
    have hjoined : ∀ v : List Char, text.toList = "--sink=".toList ++ v ↔
        rest = "sink".toList ++ '=' :: v := by
      intro v
      rw [htext]
      simp
    split at h
    · next front back hsplit =>
      cases h
      obtain ⟨hrest, hfront⟩ := Text.splitFirst?_eq_some_iff.1 hsplit
      refine ⟨⟨fun h => (nomatch h.2), fun heq => ?_⟩, fun v => ?_, hnotEnd⟩
      · have hmem : '=' ∈ "sink".toList := by
          rw [← hoption.1 heq, hrest]
          simp
        exact absurd hmem (by decide)
      · rw [hjoined]
        constructor
        · rintro ⟨hname, hvalue⟩
          obtain rfl := Option.some.inj hvalue
          rw [hrest, ← hname, String.toList_ofList, String.toList_ofList]
        · intro heq
          have hsplit' := Text.splitFirst?_eq_some_iff.2 ⟨heq, by decide⟩
          rw [hsplit] at hsplit'
          obtain ⟨rfl, rfl⟩ := Prod.mk.inj (Option.some.inj hsplit')
          exact ⟨rfl, by rw [String.ofList_toList]⟩
    · next hsplit =>
      cases h
      rw [Text.splitFirst?_eq_none_iff] at hsplit
      refine ⟨?_, fun v => ⟨fun h => (nomatch h.2), fun heq => ?_⟩, hnotEnd⟩
      · rw [hoption, ← String.toList_inj, String.toList_ofList]
        exact and_iff_left rfl
      · rw [(hjoined _).1 heq] at hsplit
        exact absurd (List.mem_append_right _ List.mem_cons_self) hsplit
  · cases h
  · cases h

theorem eq_end_of_ofText {text : String} (h : Argument.ofText text = .endOfOptions) :
    text = "--" := by
  unfold Argument.ofText at h
  split at h
  · next htext => exact String.toList_inj.1 htext
  · split at h
    · cases h
    · cases h
  · cases h
  · cases h

/-- A plain argument is no value of an option by itself. -/
theorem sinksGiven_of_plain {text plain : String} (h : Argument.ofText text = .plain plain)
    (rest : List String) : plain = text ∧ sinksGiven (text :: rest) = sinksGiven rest := by
  unfold Argument.ofText at h
  split at h
  · cases h
  · split at h
    · cases h
    · cases h
  · cases h
  · next hend hlong hshort =>
    refine ⟨(Argument.plain.inj h).symm, sinksGiven_of_other rest ?_ ?_ ?_⟩
    · rintro rfl
      exact hend rfl
    · rintro rfl
      exact hlong _ rfl
    · exact fun v heq => hlong _ heq

theorem due_of_plain {r r' : Reading} {text : String} (honly : r.onlyPlain = false)
    (h : r.plain text = .ok r') (rest : List String)
    (hrest : sinksGiven (text :: rest) = sinksGiven rest) :
    r'.onlyPlain = false ∧ r'.due rest = r.due (text :: rest) := by
  unfold plain at h
  split at h
  · next p hpending _ =>
    cases h
    refine ⟨honly, ?_⟩
    by_cases hp : p = .sink
    · subst hp
      simp [due, honly, held, hpending, sinksGiven]
    · simp [due, honly, held, hpending, hp, hrest]
  · split at h
    · cases h
    simp only [Bind.bind, Except.bind] at h
    split at h
    · cases h
    next settled hsettle =>
    cases h
    obtain ⟨hsinks, -, honly', hcomplete⟩ := settle_eq_ok hsettle
    rw [honly] at honly'
    refine ⟨honly', ?_⟩
    rw [due_of_complete honly (hcomplete .sink), hrest, ← hsinks]
    simp [due, honly', held]

/-- After the end of the options nothing more is given to one. -/
theorem held_of_step {r r' : Reading} {text : String} (honly : r.onlyPlain = true)
    (h : r.step text = .ok r') :
    r'.onlyPlain = true ∧ r'.held = r.held ∧ ∀ p, r.pending ≠ some (p, none) := by
  simp only [step, honly, if_true, plain] at h
  split at h
  · next hfalse => cases hfalse
  split at h
  · cases h
  simp only [Bind.bind, Except.bind] at h
  split at h
  · cases h
  next settled hsettle =>
  cases h
  obtain ⟨hsinks, -, honly', hcomplete⟩ := settle_eq_ok hsettle
  rw [honly] at honly'
  exact ⟨honly', by rw [← hsinks]; simp [held], hcomplete⟩

/-- What arguments lead to is kept from one argument to the next. Only the end of the options
    must not come where a value is awaited. -/
theorem due_of_step {r r' : Reading} {text : String} (h : r.step text = .ok r')
    (hwaiting : r'.onlyPlain = true → ∀ p, r'.pending ≠ some (p, none)) (rest : List String) :
    r'.due rest = r.due (text :: rest) := by
  by_cases honly : r.onlyPlain = true
  · obtain ⟨honly', hheld, -⟩ := held_of_step honly h
    rw [due_of_onlyPlain honly', due_of_onlyPlain honly, hheld]
  rw [Bool.not_eq_true] at honly
  simp only [step, honly, Bool.false_eq_true, if_false] at h
  split at h
  · next htext =>
    cases h
    rw [due_of_onlyPlain rfl, due_of_complete honly (hwaiting rfl .sink), eq_end_of_ofText htext]
    rw [sinksGiven_end, List.append_nil]
    rfl
  · next htext => exact (due_of_long honly (spells_of_ofText htext) h rest).2
  · simp only [instead, Bind.bind, Except.bind] at h
    split at h
    · cases h
    · cases h
  · simp only [instead, Bind.bind, Except.bind] at h
    split at h
    · cases h
    · cases h
  · cases h
  · next htext =>
    obtain ⟨rfl, hrest⟩ := sinksGiven_of_plain htext rest
    exact (due_of_plain honly h rest hrest).2

/-- What arguments lead to is what is known in the end. -/
theorem sinks_of_foldlM {arguments : List String} {r r' last : Reading}
    (h : arguments.foldlM step r = .ok r') (hlast : r'.settle = .ok last) :
    last.line.sinks = r.due arguments ∧
      (r.onlyPlain = true → ∀ p, r.pending ≠ some (p, none)) := by
  induction arguments generalizing r with
  | nil =>
    cases h
    obtain ⟨hsinks, -, -, hcomplete⟩ := settle_eq_ok hlast
    refine ⟨?_, fun _ => hcomplete⟩
    rw [hsinks]
    cases honly : r'.onlyPlain with
    | true => rw [due_of_onlyPlain honly]
    | false => rw [due_of_complete honly (hcomplete .sink), sinksGiven, List.append_nil]
  | cons text rest ih =>
    simp only [List.foldlM_cons, Bind.bind, Except.bind] at h
    split at h
    · cases h
    next next hstep =>
    obtain ⟨hsinks, hwaiting⟩ := ih h
    exact ⟨hsinks.trans (due_of_step hstep hwaiting rest),
      fun honly => (held_of_step honly hstep).2.2⟩

end Reading

/-- The destinations of a command line are the values given to the option, all of them and in
    their order. -/
theorem sinks_of_arguments {arguments : List String} {line : CommandLine}
    (h : ofArguments arguments = .ok line) : line.sinks = sinksGiven arguments := by
  simp only [ofArguments, Bind.bind, Except.bind] at h
  split at h
  · cases h
  next r hread =>
  split at h
  · cases h
  next last hlast =>
  cases h
  exact (Reading.sinks_of_foldlM hread hlast).1

/-! ## The place of the plain argument -/

/-- The destinations that a command line puts in the place of those of some settings, before the
    primary one is set. -/
def destinations (line : CommandLine) (config : Config) : List String :=
  if line.sinks.isEmpty then config.sinks else line.sinks

theorem destinations_of_mem {line : CommandLine} {s : String} (h : s ∈ line.sinks)
    (config : Config) : line.destinations config = line.sinks := by
  rw [destinations, if_neg]
  rw [List.isEmpty_iff]
  exact List.ne_nil_of_mem h

theorem sinks_override (line : CommandLine) (config : Config) :
    (line.override config).sinks =
      match line.primarySink with
      | none => line.destinations config
      | some ip => (SocketAddress.ofIp ip 60000).text :: (line.destinations config).tail := by
  have hdestinations : (if line.sinks.isEmpty then config
      else { config with sinks := line.sinks }).sinks = line.destinations config := by
    unfold destinations
    split
    · rfl
    · rfl
  rw [override]
  cases line.primarySink with
  | none => exact hdestinations
  | some ip =>
    dsimp only [Option.elim_some]
    rw [Config.sinks_setPrimarySink, hdestinations]
    rfl

/-- The settings of a command line are those that it makes of some others, and all of their
    destinations have addresses. -/
theorem exists_of_configure {hosts : HostLookup} {files : String → Config.FileContents}
    {line : CommandLine} {config : Config} (h : line.configure hosts files = .ok config) :
    (∃ base, config = line.override base) ∧
      ∃ addresses, config.sinkAddresses hosts = .ok addresses := by
  obtain ⟨base, hbase⟩ : ∃ base, (do
      let _ ← (line.override base).sinkAddresses hosts
      return line.override base : Except ConfigError Config) = .ok config := by
    unfold configure at h
    split at h
    · exact ⟨Config.default, h⟩
    · next path _ =>
      cases hfile : Config.ofFile path (files path) with
      | error e =>
        rw [hfile] at h
        cases h
      | ok base =>
        rw [hfile] at h
        exact ⟨base, h⟩
  cases haddresses : (line.override base).sinkAddresses hosts with
  | error e =>
    rw [haddresses] at hbase
    cases hbase
  | ok addresses =>
    rw [haddresses] at hbase
    cases hbase
    exact ⟨⟨base, rfl⟩, addresses, haddresses⟩

/-- The first of the destinations given is not lost by setting a primary one: its address is the
    primary address, or another destination that was given has it too. -/
def FirstKept (hosts : HostLookup) (sinks : List String) (primary : Option IpAddress) : Prop :=
  ∀ ip first later, primary = some ip → sinks = first :: later →
    ∃ a, Sink.resolve hosts first = .ok a ∧
      (a = .ofIp ip 60000 ∨ ∃ s ∈ later, Sink.resolve hosts s = .ok a)

variable {hosts : HostLookup}

theorem firstKept_nil (primary : Option IpAddress) : FirstKept hosts [] primary := nofun

theorem firstKept_none (sinks : List String) : FirstKept hosts sinks none := nofun

theorem firstKept_iff {ip : IpAddress} {first : String} {later : List String} :
    FirstKept hosts (first :: later) (some ip) ↔
      ∃ a, Sink.resolve hosts first = .ok a ∧
        (a = .ofIp ip 60000 ∨ ∃ s ∈ later, Sink.resolve hosts s = .ok a) := by
  constructor
  · exact fun h => h ip first later rfl rfl
  · rintro h _ _ _ hprimary hcons
    cases hprimary
    cases hcons
    exact h

/-- Some addresses have that of a destination among them. -/
def Reaches (hosts : HostLookup) (addresses : List SocketAddress) (s : String) : Prop :=
  ∃ a ∈ addresses, Sink.resolve hosts s = .ok a

section

variable {config : Config} {addresses : List SocketAddress}
  (haddresses : config.sinkAddresses hosts = .ok addresses)
include haddresses

theorem reaches_iff {s : String} :
    Reaches hosts addresses s ↔
      ∃ a, Sink.resolve hosts s = .ok a ∧
        ∃ s' ∈ config.sinks, Sink.resolve hosts s' = .ok a := by
  simp only [Reaches, Config.mem_sinkAddresses_iff haddresses, and_comm]

/-- A destination that is kept has an address, since all of them have. -/
theorem reaches_of_mem {s : String} (hs : s ∈ config.sinks) : Reaches hosts addresses s := by
  obtain ⟨a, ha⟩ := (Config.exists_sinkAddresses_iff _).1 ⟨addresses, haddresses⟩ s hs
  exact (reaches_iff haddresses).2 ⟨a, ha, s, hs, ha⟩

/-- With a primary destination in the place of the first one given, what is given is reached
    exactly if the address of the first is still there. -/
theorem forall_reaches_iff {ip : IpAddress} {first : String} {later : List String}
    (hsinks : config.sinks = (SocketAddress.ofIp ip 60000).text :: later) :
    (∀ s ∈ first :: later, Reaches hosts addresses s) ↔
      FirstKept hosts (first :: later) (some ip) := by
  have hlater : ∀ s ∈ later, Reaches hosts addresses s := by
    intro s hs
    apply reaches_of_mem haddresses
    rw [hsinks]
    exact List.mem_cons_of_mem _ hs
  rw [List.forall_mem_cons, and_iff_left hlater, reaches_iff haddresses, hsinks, firstKept_iff]
  simp only [List.exists_mem_cons_iff, Sink.resolve_text, Except.ok.injEq, eq_comm]

end

/-- Whoever is named on a command line that gives settings is reached, however hosts are looked up:
    the plain argument at port 60000, and each value of `--sink` but the first. The first is reached
    too, and so none of them is lost, exactly if there is no plain argument or the value is kept
    nevertheless. -/
theorem reached_of_configure {hosts : HostLookup} {files : String → Config.FileContents}
    {arguments : List String} {line : CommandLine} {config : Config}
    (hline : ofArguments arguments = .ok line) (h : line.configure hosts files = .ok config) :
    ∃ addresses, config.sinkAddresses hosts = .ok addresses ∧
      (∀ ip ∈ line.primarySink, .ofIp ip 60000 ∈ addresses) ∧
      (∀ s ∈ (sinksGiven arguments).tail, Reaches hosts addresses s) ∧
      ((∀ s ∈ sinksGiven arguments, Reaches hosts addresses s) ↔
        FirstKept hosts (sinksGiven arguments) line.primarySink) := by
  obtain ⟨⟨base, rfl⟩, addresses, haddresses⟩ := exists_of_configure h
  have hsinks := sinks_override line base
  rw [← sinks_of_arguments hline]
  refine ⟨addresses, haddresses, ?_, ?_, ?_⟩
  · intro ip hip
    rw [Option.mem_def.1 hip] at hsinks
    refine (Config.mem_sinkAddresses_iff haddresses).2 ⟨_, ?_, Sink.resolve_text hosts _⟩
    rw [hsinks]
    exact List.mem_cons_self
  · intro s hs
    apply reaches_of_mem haddresses
    rw [hsinks, destinations_of_mem (List.mem_of_mem_tail hs)]
    cases line.primarySink with
    | none => exact List.mem_of_mem_tail hs
    | some ip => exact List.mem_cons_of_mem _ hs
  · cases hgiven : line.sinks with
    | nil => exact iff_of_true nofun (firstKept_nil _)
    | cons first later =>
      have hmem : first ∈ line.sinks := hgiven ▸ List.mem_cons_self
      rw [destinations_of_mem hmem, hgiven] at hsinks
      cases hip : line.primarySink with
      | none =>
        rw [hip] at hsinks
        refine iff_of_true (fun s hs => reaches_of_mem haddresses ?_) (firstKept_none _)
        rwa [hsinks]
      | some ip =>
        rw [hip] at hsinks
        exact forall_reaches_iff haddresses hsinks

/-- A machine that knows one name. -/
def oneHost : HostLookup := fun host port =>
  if host = "desk" then [.v4 ⟨192, 168, 0, 5⟩ port, .v4 ⟨127, 0, 0, 1⟩ port]
  else HostLookup.numeric host port

/-- Three destinations, one of them by the name of its host. The first has the address of the plain
    argument, and all are reached. -/
theorem reached_of_encore : ∃ line config addresses,
    ofArguments ["--sink=[::1]:60000", "::1", "--sink", "desk:+80", "--sink", "10.0.0.9"] =
      .ok line ∧
    line.configure oneHost (fun _ => .error .notText) = .ok config ∧
    config.sinkAddresses oneHost = .ok addresses ∧ .v4 ⟨192, 168, 0, 5⟩ 80 ∈ addresses ∧
    ∀ s ∈ ["[::1]:60000", "desk:+80", "10.0.0.9"], Reaches oneHost addresses s := by
  have hline : ofArguments
      ["--sink=[::1]:60000", "::1", "--sink", "desk:+80", "--sink", "10.0.0.9"] = .ok
      { primarySink := some (.v6 ⟨[0, 0, 0, 0, 0, 0, 0, 1], rfl⟩)
        sinks := ["[::1]:60000", "desk:+80", "10.0.0.9"] } := rfl
  have hconfig : configure oneHost (fun _ => .error .notText)
      { primarySink := some (.v6 ⟨[0, 0, 0, 0, 0, 0, 0, 1], rfl⟩)
        sinks := ["[::1]:60000", "desk:+80", "10.0.0.9"] } =
      .ok { Config.default with sinks := ["[::1]:60000", "desk:+80", "10.0.0.9"] } := rfl
  have hgiven : sinksGiven
      ["--sink=[::1]:60000", "::1", "--sink", "desk:+80", "--sink", "10.0.0.9"] =
      ["[::1]:60000", "desk:+80", "10.0.0.9"] := rfl
  have hfirst : Sink.resolve oneHost "[::1]:60000" =
      .ok (.ofIp (.v6 ⟨[0, 0, 0, 0, 0, 0, 0, 1], rfl⟩) 60000) := rfl
  have hdesk : Sink.resolve oneHost "desk:+80" = .ok (.v4 ⟨192, 168, 0, 5⟩ 80) := rfl
  obtain ⟨addresses, haddresses, -, -, hreached⟩ := reached_of_configure hline hconfig
  rw [hgiven] at hreached
  refine ⟨_, _, addresses, hline, hconfig, haddresses, ?_, hreached.2 ?_⟩
  · refine (Config.mem_sinkAddresses_iff haddresses).2 ⟨"desk:+80", ?_, hdesk⟩
    exact List.mem_cons_of_mem _ List.mem_cons_self
  · intro ip first later hprimary hsinks
    obtain rfl := Option.some.inj hprimary
    obtain ⟨rfl, -⟩ := List.cons.inj hsinks
    exact ⟨_, hfirst, .inl rfl⟩

/-- A value of `--sink` that is lost: the plain argument takes its place. -/
theorem lost_of_primary : ∃ line config,
    ofArguments ["10.0.0.7", "--sink", "1.2.3.4:80"] = .ok line ∧
    line.configure HostLookup.numeric (fun _ => .error .notText) = .ok config ∧
    config.sinkAddresses HostLookup.numeric = .ok [.v4 ⟨10, 0, 0, 7⟩ 60000] ∧
    "1.2.3.4:80" ∈ line.sinks ∧
    ¬Reaches HostLookup.numeric [.v4 ⟨10, 0, 0, 7⟩ 60000] "1.2.3.4:80" := by
  refine ⟨{ primarySink := some (.v4 ⟨10, 0, 0, 7⟩), sinks := ["1.2.3.4:80"] },
    { Config.default with sinks := ["10.0.0.7:60000"] }, rfl, rfl, rfl,
    List.mem_singleton_self _, ?_⟩
  rintro ⟨a, ha, hresolve⟩
  have hown : Sink.resolve HostLookup.numeric "1.2.3.4:80" = .ok (.v4 ⟨1, 2, 3, 4⟩ 80) := rfl
  rw [hown, Except.ok.injEq] at hresolve
  rw [← hresolve, List.mem_singleton] at ha
  cases ha

end ShowRelay.CommandLine
