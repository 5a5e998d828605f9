/-
  ShowRelay.Config.Document

  The settings as a JSON document: an object with any of the fields in any order,
  or a list of the first fields in their order. Fields left out keep their
  default. A field that is unknown or given twice ends the reading at once,
  before its value is looked at.
-/

import ShowRelay.Config.Basic
import ShowRelay.Json.Reader
import ShowRelay.Json.Writer

namespace ShowRelay.Config

/-- The fields of the settings. -/
inductive Field where
  | bind
  | wsPort
  | httpPort
  | snapshotDir
  | sinks
  | outboundQueueDepth
  | writeTimeoutMs
  | pollIntervalMs
  | restore
  deriving Repr, DecidableEq

namespace Field

/-- All fields in the order in which they are written. -/
def all : List Field :=
  [bind, wsPort, httpPort, snapshotDir, sinks, outboundQueueDepth, writeTimeoutMs,
    pollIntervalMs, restore]

/-- The name of a field in a document. -/
def name : Field → String
  | bind => "bind"
  | wsPort => "ws_port"
  | httpPort => "http_port"
  | snapshotDir => "snapshot_dir"
  | sinks => "sinks"
  | outboundQueueDepth => "outbound_queue_depth"
  | writeTimeoutMs => "write_timeout_ms"
  | pollIntervalMs => "poll_interval_ms"
  | restore => "restore"

/-- The field of a name. -/
def ofName? (name : String) : Option Field := all.find? fun field => field.name = name

/-- Settings with one field taken from other settings. -/
def copy (field : Field) (source target : Config) : Config :=
  match field with
  | bind => { target with bind := source.bind }
  | wsPort => { target with wsPort := source.wsPort }
  | httpPort => { target with httpPort := source.httpPort }
  | snapshotDir => { target with snapshotDir := source.snapshotDir }
  | sinks => { target with sinks := source.sinks }
  | outboundQueueDepth => { target with outboundQueueDepth := source.outboundQueueDepth }
  | writeTimeoutMs => { target with writeTimeoutMs := source.writeTimeoutMs }
  | pollIntervalMs => { target with pollIntervalMs := source.pollIntervalMs }
  | restore => { target with restore := source.restore }

/-! ## Writing -/

/-- The value of a field as it is written. -/
def write (config : Config) : Field → List Char
  | bind => Json.writeString config.bind.text
  | wsPort => Json.writeNatural config.wsPort.toNat
  | httpPort => Json.writeNatural config.httpPort.toNat
  | snapshotDir => Json.writeString config.snapshotDir
  | sinks => Json.writeList (config.sinks.map Json.writeString)
  | outboundQueueDepth => Json.writeNatural config.outboundQueueDepth.toNat
  | writeTimeoutMs => Json.writeNatural config.writeTimeoutMs.toNat
  | pollIntervalMs => Json.writeNatural config.pollIntervalMs.toNat
  | restore => Json.writeOptional config.restore

end Field

/-- The object that holds the given fields in the given order. -/
def writeFields (config : Config) (fields : List Field) : List Char :=
  Json.writeObject (fields.map fun field => (field.name, field.write config))

/-- The list of the values of the given fields. -/
def writeValues (config : Config) (fields : List Field) : List Char :=
  Json.writeList (fields.map fun field => field.write config)

/-- The settings as a document. -/
def json (config : Config) : String := String.ofList (config.writeFields Field.all)

/-! ## Reading -/

namespace Field

/-- An IP address, written as a string. -/
def readAddress (s : List Char) : Except Json.Fault (IpAddress × List Char) := do
  let (text, rest) ← Json.readString "IP address" s
  match IpAddress.ofText? text with
  | some ip => return (ip, rest)
  | none => throw (.malformed IpAddress.malformedMessage)

/-- The settings with the value of a field read from the front of a document. -/
def read (config : Config) (s : List Char) : Field → Except Json.Fault (Config × List Char)
  | bind => do
    let (ip, rest) ← readAddress s
    return ({ config with bind := ip }, rest)
  | wsPort => do
    let (n, rest) ← Json.readNatural "u16" UInt16.size s
    return ({ config with wsPort := UInt16.ofNat n }, rest)
  | httpPort => do
    let (n, rest) ← Json.readNatural "u16" UInt16.size s
    return ({ config with httpPort := UInt16.ofNat n }, rest)
  | snapshotDir => do
    let (text, rest) ← Json.readString "path string" s
    return ({ config with snapshotDir := text }, rest)
  | sinks => do
    let (texts, rest) ← Json.readStringList s
    return ({ config with sinks := texts }, rest)
  | outboundQueueDepth => do
    let (n, rest) ← Json.readNatural "usize" UInt64.size s
    return ({ config with outboundQueueDepth := UInt64.ofNat n }, rest)
  | writeTimeoutMs => do
    let (n, rest) ← Json.readNatural "u64" UInt64.size s
    return ({ config with writeTimeoutMs := UInt64.ofNat n }, rest)
  | pollIntervalMs => do
    let (n, rest) ← Json.readNatural "u64" UInt64.size s
    return ({ config with pollIntervalMs := UInt64.ofNat n }, rest)
  | restore => do
    let (text, rest) ← Json.readOptional "a string" s
    return ({ config with restore := text }, rest)

end Field

/-- The document after the colon that follows the name of a member. -/
def readColon (s : List Char) : Except Json.Fault (List Char) :=
  match Json.skipBlanks s with
  | [] => .error .endOfObject
  | ':' :: s => .ok s
  | _ => .error .expectedColon

/-- Where an object goes on: `none` at its closing brace, or else the document after
    the opening quote of the next name. A comma stands before every member but the
    `first`. -/
def nextMember (first : Bool) (s : List Char) : Except Json.Fault (Option (List Char)) :=
  match Json.skipBlanks s with
  | [] => .error .endOfObject
  | '\x7d' :: _ => .ok none
  | c :: s =>
    if first then if c = '"' then .ok (some s) else .error .keyNotString
    else if c = ',' then
      match Json.skipBlanks s with
      | [] => .error .endOfValue
      | '"' :: s => .ok (some s)
      | '\x7d' :: _ => .error .trailingComma
      | _ => .error .keyNotString
    else .error .expectedCommaOrBrace

/-- The field whose name is read after its opening quote, if it may be given yet. -/
def readName (missing : List Field) (s : List Char) :
    Except Json.Fault (Field × List Char) := do
  let (name, rest) ← Json.readChars s
  let name := String.ofList name
  match Field.ofName? name with
  | none => throw (.unknownField name (Field.all.map Field.name))
  | some field => if field ∈ missing then return (field, rest) else throw (.duplicateField name)

theorem mem_of_readName {missing : List Field} {s rest : List Char} {field : Field}
    (h : readName missing s = .ok (field, rest)) : field ∈ missing := by
  unfold readName at h
  cases hd : Json.readChars s with
  | error e => simp [hd, Bind.bind, Except.bind] at h
  | ok p =>
    simp only [hd, Bind.bind, Except.bind, pure, Except.pure, throw, throwThe,
      MonadExceptOf.throw] at h
    split at h
    · cases h
    · split at h
      · next hm =>
        cases h
        exact hm
      · cases h

/-- The settings with the members of an object, up to the closing brace, which is
    left. Only the fields in `missing` may still be given. -/
def readMembers (missing : List Field) (first : Bool) (config : Config) (s : List Char) :
    Except Json.Fault (Config × List Char) :=
  match nextMember first s with
  | .error e => .error e
  | .ok none => .ok (config, s)
  | .ok (some t) =>
    match _hname : readName missing t with
    | .error e => .error e
    | .ok (field, rest) => do
      let (config, rest) ← field.read config (← readColon rest)
      readMembers (missing.erase field) false config rest
termination_by missing.length
decreasing_by
  have hm := mem_of_readName _hname
  rw [List.length_erase_of_mem hm]
  have := List.length_pos_of_mem hm
  omega

/-- The settings with the elements of a list as the values of the given fields, up to
    the closing bracket or the last of the fields. -/
def readElements : (fields : List Field) → (first : Bool) → Config → List Char →
    Except Json.Fault (Config × List Char)
  | [], _, config, s => .ok (config, s)
  | field :: fields, first, config, s => do
    match ← Json.nextElement first s with
    | none => return (config, s)
    | some t =>
      let (config, rest) ← field.read config t
      readElements fields false config rest

/-- The document after the end of an object. -/
def endObject (s : List Char) : Except Json.Fault (List Char) :=
  match Json.skipBlanks s with
  | [] => .error .endOfObject
  | '\x7d' :: s => .ok s
  | ',' :: _ => .error .trailingComma
  | _ => .error .trailingCharacters

/-- The settings at the front of a document. -/
def read (s : List Char) : Except Json.Fault (Config × List Char) :=
  match Json.skipBlanks s with
  | [] => .error .endOfValue
  | '[' :: s => do
    let (config, rest) ← readElements Field.all true default s
    return (config, ← Json.endList rest)
  | '\x7b' :: s => do
    let (config, rest) ← readMembers Field.all true default s
    return (config, ← endObject rest)
  | s => .error (Json.misfit "struct RelayConfig" s)

/-- The settings that a whole document writes. -/
def ofJson (text : String) : Except ConfigError Config :=
  match read text.toList with
  | .error e => .error (.json e)
  | .ok (config, rest) =>
    if (Json.skipBlanks rest).isEmpty then .ok config else .error (.json .trailingCharacters)

/-- What reading a file gives: its bytes, or a refusal. -/
abbrev FileContents := Except SystemFault Bytes

/-- The settings in a file. -/
def ofFile (path : String) (contents : FileContents) : Except ConfigError Config :=
  match contents with
  | .error fault => .error (.io path fault)
  | .ok bytes =>
    match Utf8.decode? bytes with
    | none => .error (.io path .notText)
    | some text => ofJson text

end ShowRelay.Config
