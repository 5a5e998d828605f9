/-
  ShowRelay.Proofs.Config.Document

  Settings as a document. Each field is read as it is written (`Field.read_write`),
  so an object is read member by member: a field that is given is taken from the
  settings that were written, and is missing no longer (`readMembers_writeFrom`).
  A list is read in the same way, in the order of the fields.

  A member too many ends in a fault. Where the name is unknown, or the field has
  been given before, this is so at once. Otherwise the first of the two members
  that share a name is the one too many, and its value may be any text. Such a
  text may be no value, go on with further members or end the object, but the
  comma after it keeps the members after it in sight (`commaAhead_of_readMembers`):
  they are read too, until the second of the two is met, or something is left at
  the end.
-/

import Mathlib.Data.List.Nodup
import ShowRelay.Config.Document
import ShowRelay.Proofs.Json.Commas
import ShowRelay.Proofs.Json.Values
import ShowRelay.Proofs.Net.Ip

namespace ShowRelay.Config

open Json (CommaAhead BeginsName BeginsValue EndsNumber)

/-- Settings with the given fields taken from other settings. -/
def withFields (target : Config) (fields : List Field) (source : Config) : Config where
  bind := if .bind ∈ fields then source.bind else target.bind
  wsPort := if .wsPort ∈ fields then source.wsPort else target.wsPort
  httpPort := if .httpPort ∈ fields then source.httpPort else target.httpPort
  snapshotDir := if .snapshotDir ∈ fields then source.snapshotDir else target.snapshotDir
  sinks := if .sinks ∈ fields then source.sinks else target.sinks
  outboundQueueDepth :=
    if .outboundQueueDepth ∈ fields then source.outboundQueueDepth else target.outboundQueueDepth
  writeTimeoutMs :=
    if .writeTimeoutMs ∈ fields then source.writeTimeoutMs else target.writeTimeoutMs
  pollIntervalMs :=
    if .pollIntervalMs ∈ fields then source.pollIntervalMs else target.pollIntervalMs
  restore := if .restore ∈ fields then source.restore else target.restore

theorem withFields_nil (target source : Config) : target.withFields [] source = target := rfl

theorem withFields_cons (target : Config) (field : Field) (fields : List Field)
    (source : Config) :
    target.withFields (field :: fields) source =
      (field.copy source target).withFields fields source := by
  cases field <;> simp [withFields, Field.copy]

theorem withFields_all (target source : Config) : target.withFields Field.all source = source := rfl

/-! ## Values -/

namespace Field

theorem readAddress_writeString (ip : IpAddress) (s : List Char) :
    readAddress (Json.writeString ip.text ++ s) = .ok (ip, s) := by
  simp only [readAddress, Json.readString_writeString, Bind.bind, Except.bind, ip.ofText?_text]
  rfl

/-- A field is read as it is written. -/
theorem read_write (source target : Config) (field : Field) {s : List Char} (hs : EndsNumber s) :
    field.read target (field.write source ++ s) = .ok (field.copy source target, s) := by
  have hport : ∀ (expected : String) (port : UInt16),
      Json.readNatural expected UInt16.size (Json.writeNatural port.toNat ++ s) =
        .ok (port.toNat, s) :=
    fun expected port => Json.readNatural_writeNatural expected port.toNat_lt (by decide) hs
  have hnumber : ∀ (expected : String) (n : UInt64),
      Json.readNatural expected UInt64.size (Json.writeNatural n.toNat ++ s) = .ok (n.toNat, s) :=
    fun expected n => Json.readNatural_writeNatural expected n.toNat_lt (by decide) hs
  cases field <;>
    simp [read, write, copy, readAddress_writeString, hport, hnumber, Json.readString_writeString,
      Json.readStringList_writeList, Json.readOptional_writeOptional, Bind.bind, Except.bind, pure,
      Except.pure]

theorem beginsValue_write (config : Config) (field : Field) :
    BeginsValue (field.write config) := by
  cases field with
  | bind | snapshotDir => exact Json.beginsValue_writeString _
  | wsPort | httpPort | outboundQueueDepth | writeTimeoutMs | pollIntervalMs =>
    exact Json.beginsValue_writeNatural _
  | sinks => exact Json.beginsValue_writeList _
  | restore => exact Json.beginsValue_writeOptional _

/-- No value reaches far beyond a comma between members: it ends before it, or with the quote
    after it. -/
theorem commaAhead_of_read {after : List Char} (hafter : BeginsName after) {config target : Config}
    {field : Field} {s rest : List Char} (h : field.read target s = .ok (config, rest))
    (ahead : CommaAhead ('"' :: after) s) : CommaAhead ('"' :: after) rest ∨ rest = after := by
  cases field with
  | bind =>
    obtain ⟨⟨ip, s'⟩, hread, h⟩ := Json.bind_eq_ok_iff.1 h
    obtain ⟨⟨text, s''⟩, hstring, hread⟩ := Json.bind_eq_ok_iff.1 hread
    cases h
    have hs := Json.commaAhead_of_readString hstring ahead
    dsimp only at hread
    split at hread
    · cases hread
      exact hs
    · cases hread
  | snapshotDir =>
    obtain ⟨⟨text, s'⟩, hread, h⟩ := Json.bind_eq_ok_iff.1 h
    cases h
    exact Json.commaAhead_of_readString hread ahead
  | wsPort | httpPort | outboundQueueDepth | writeTimeoutMs | pollIntervalMs =>
    obtain ⟨⟨n, s'⟩, hread, h⟩ := Json.bind_eq_ok_iff.1 h
    cases h
    exact .inl (Json.commaAhead_of_readNatural hread ahead)
  | sinks =>
    obtain ⟨⟨texts, s'⟩, hread, h⟩ := Json.bind_eq_ok_iff.1 h
    cases h
    exact .inl (Json.commaAhead_of_readStringList hafter hread ahead)
  | restore =>
    obtain ⟨⟨text, s'⟩, hread, h⟩ := Json.bind_eq_ok_iff.1 h
    cases h
    exact Json.commaAhead_of_readOptional hread ahead

end Field

/-! ## Members -/

/-- A field with its name and its written value. -/
def member (config : Config) (field : Field) : String × List Char :=
  (field.name, field.write config)

/-- A member after the opening quote of its name. -/
def afterQuote (name : String) (value : List Char) : List Char :=
  name.toList.flatMap Json.writeChar ++ '"' :: ':' :: value

/-- The text of a member, as an object has it. -/
def memberText : String × List Char → List Char :=
  fun (name, value) => Json.writeString name ++ ':' :: value

theorem memberText_append (name : String) (value s : List Char) :
    memberText (name, value) ++ s = '"' :: afterQuote name (value ++ s) := by
  simp [memberText, afterQuote, Json.writeString]

theorem writeObject_eq (members : List (String × List Char)) :
    Json.writeObject members =
      '\x7b' :: (Json.writeFrom true (members.map memberText) ++ ['\x7d']) := by
  rw [Json.writeObject, Json.writeItems_eq_writeFrom]
  rfl

theorem ofName?_name (field : Field) : Field.ofName? field.name = some field := by
  cases field <;> decide

theorem beginsName_afterQuote (field : Field) (value : List Char) :
    BeginsName (afterQuote field.name value) where
  letter := by cases field <;> exact ⟨_, _, rfl, rfl⟩
  colon := ⟨_, _, Json.readChars_flatMap_writeChar _ _⟩

theorem nextMember_quote (first : Bool) (s : List Char) :
    nextMember first (Json.lead first ++ '"' :: s) = .ok (some s) := by
  cases first <;> rfl

theorem nextMember_brace (first : Bool) (s : List Char) :
    nextMember first ('\x7d' :: s) = .ok none := by
  cases first <;> rfl

section

variable {missing : List Field} {first : Bool} {target : Config} {s t : List Char}

theorem readName_of_unknown {name : String} (h : Field.ofName? name = none) (s : List Char) :
    readName missing (afterQuote name s) =
      .error (.unknownField name (Field.all.map Field.name)) := by
  simp only [readName, afterQuote, Json.readChars_flatMap_writeChar, Bind.bind, Except.bind,
    String.ofList_toList, h]
  rfl

theorem readName_of_mem {field : Field} (h : field ∈ missing) (s : List Char) :
    readName missing (afterQuote field.name s) = .ok (field, ':' :: s) := by
  simp only [readName, afterQuote, Json.readChars_flatMap_writeChar, Bind.bind, Except.bind,
    String.ofList_toList, ofName?_name, if_pos h]
  rfl

theorem readName_of_not_mem {field : Field} (h : field ∉ missing) (s : List Char) :
    readName missing (afterQuote field.name s) = .error (.duplicateField field.name) := by
  simp only [readName, afterQuote, Json.readChars_flatMap_writeChar, Bind.bind, Except.bind,
    String.ofList_toList, ofName?_name, if_neg h]
  rfl

theorem readMembers_of_end (h : nextMember first s = .ok none) :
    readMembers missing first target s = .ok (target, s) := by
  rw [readMembers, h]

theorem readMembers_error_of_nextMember {e : Json.Fault} (h : nextMember first s = .error e) :
    readMembers missing first target s = .error e := by
  rw [readMembers, h]

theorem readMembers_error_of_readName {e : Json.Fault} (hnext : nextMember first s = .ok (some t))
    (hname : readName missing t = .error e) :
    readMembers missing first target s = .error e := by
  rw [readMembers, hnext]
  dsimp only
  split
  · next heq => rw [hname] at heq; cases heq; rfl
  · next heq => rw [hname] at heq; cases heq

/-- A field that may be given is read, and may not be given again. -/
theorem readMembers_of_member {field : Field} {rest : List Char}
    (hnext : nextMember first s = .ok (some t))
    (hname : readName missing t = .ok (field, ':' :: rest)) :
    readMembers missing first target s =
      field.read target rest >>= fun (config, rest) =>
        readMembers (missing.erase field) false config rest := by
  rw [readMembers, hnext]
  dsimp only
  split
  · next heq => rw [hname] at heq; cases heq
  · next heq =>
    rw [hname] at heq
    cases heq
    rfl

end

/-- The fields that are given are read one by one. -/
theorem readMembers_writeFrom (source : Config) {fields missing : List Field}
    (hnodup : fields.Nodup) (hmissing : fields ⊆ missing) (first : Bool) (target : Config)
    {s : List Char} (hs : EndsNumber s) :
    readMembers missing first target
        (Json.writeFrom first (fields.map fun field => memberText (source.member field)) ++ s) =
      readMembers (missing.diff fields) (first && fields.isEmpty)
        (target.withFields fields source) s := by
  induction fields generalizing missing first target with
  | nil => simp [Json.writeFrom, withFields_nil]
  | cons field fields ih =>
    obtain ⟨hfield, hnodup⟩ := List.nodup_cons.1 hnodup
    have hmem : field ∈ missing := hmissing List.mem_cons_self
    have hfields : fields ⊆ missing.erase field := by
      intro f hf
      have hne : f ≠ field := by rintro rfl; exact hfield hf
      exact (List.mem_erase_of_ne hne).2 (hmissing (List.mem_cons_of_mem _ hf))
    have hends := Json.endsNumber_writeFrom hs
      (fields.map fun field => memberText (source.member field))
    rw [List.map_cons, Json.writeFrom, List.append_assoc, List.append_assoc, member,
      memberText_append, readMembers_of_member (nextMember_quote first _) (readName_of_mem hmem _),
      Field.read_write source target field hends]
    simp only [Bind.bind, Except.bind]
    rw [ih hnodup hfields, List.diff_cons, withFields_cons]
    simp

/-! ## Elements -/

theorem readElements_writeFrom (source : Config) (fields later : List Field) (first : Bool)
    (target : Config) (s : List Char) :
    readElements (fields ++ later) first target
        (Json.writeFrom first (fields.map fun field => field.write source) ++ ']' :: s) =
      .ok (target.withFields fields source, ']' :: s) := by
  induction fields generalizing first target with
  | nil =>
    cases later with
    | nil => rfl
    | cons field later => cases first <;> rfl
  | cons field fields ih =>
    have hbracket : EndsNumber (']' :: s) := Json.endsNumber_cons (by decide) s
    have hends := Json.endsNumber_writeFrom hbracket (fields.map fun field => field.write source)
    rw [List.map_cons, Json.writeFrom, List.append_assoc, List.cons_append, readElements,
      Json.nextElement_lead (field.beginsValue_write source)]
    simp only [Bind.bind, Except.bind, Field.read_write source target field hends]
    rw [ih, withFields_cons]

/-! ## A member too many -/

/-- No member goes on with a name without its opening quote. -/
theorem nextMember_of_beginsName {after : List Char} (h : BeginsName after) :
    nextMember false after = .error .expectedCommaOrBrace := by
  obtain ⟨c, t, rfl, hblanks, hcomma, -, -, hbrace⟩ := h.exists_cons
  simp [nextMember, hblanks, hcomma]

theorem readColon_of_beginsName {after : List Char} (h : BeginsName after) :
    readColon after = .error .expectedColon := by
  obtain ⟨c, t, rfl, hblanks, -, hcolon, -, -⟩ := h.exists_cons
  rw [readColon, hblanks]
  split
  · next heq => cases heq
  · next heq => exact absurd (List.cons.inj heq).1 hcolon
  · rfl

theorem commaAhead_of_readColon {mark s rest : List Char} (h : readColon s = .ok rest)
    (ahead : CommaAhead mark s) : CommaAhead mark rest := by
  have ahead' := ahead.skipBlanks
  unfold readColon at h
  split at h
  · cases h
  · next heq =>
    cases h
    rw [heq] at ahead'
    exact ahead'.tail (by decide)
  · cases h

theorem commaAhead_of_endObject {mark s rest : List Char} (h : endObject s = .ok rest)
    (ahead : CommaAhead mark s) : CommaAhead mark rest := by
  have ahead' := ahead.skipBlanks
  unfold endObject at h
  split at h
  · cases h
  · next heq =>
    cases h
    rw [heq] at ahead'
    exact ahead'.tail (by decide)
  · cases h
  · cases h

/-- The next name stands before the comma, or it is the one after it. -/
theorem commaAhead_of_nextMember {after s t : List Char} {first : Bool}
    (h : nextMember first s = .ok (some t)) (ahead : CommaAhead ('"' :: after) s) :
    CommaAhead ('"' :: after) t ∨ t = after := by
  have ahead' := ahead.skipBlanks
  unfold nextMember at h
  split at h
  · cases h
  · cases h
  · next c s' _ heq =>
    rw [heq] at ahead'
    split at h
    · split at h
      · next hc =>
        cases h
        exact .inl (ahead'.tail (by simp [hc]))
      · cases h
    · split at h
      · rcases ahead'.cases_cons with ⟨-, rfl⟩ | ahead'
        · cases h
          exact .inr rfl
        · have ahead' := ahead'.skipBlanks
          split at h
          · cases h
          · next heq' =>
            cases h
            rw [heq'] at ahead'
            exact .inl (ahead'.tail (by decide))
          · cases h
          · cases h
      · cases h

theorem commaAhead_of_readName {after s rest : List Char} {missing : List Field} {field : Field}
    (h : readName missing s = .ok (field, rest)) (ahead : CommaAhead ('"' :: after) s) :
    CommaAhead ('"' :: after) rest ∨ rest = after := by
  obtain ⟨⟨name, s'⟩, hread, h⟩ := Json.bind_eq_ok_iff.1 h
  have ahead' := Json.commaAhead_of_readChars hread ahead
  dsimp only at h
  split at h
  · cases h
  · split at h
    · cases h
      exact ahead'
    · cases h

/-- The text of an object after a value, if the given fields are still to come. -/
def further (source : Config) (fields : List Field) : List Char :=
  Json.writeFrom false (fields.map fun field => memberText (source.member field)) ++ ['\x7d']

theorem further_cons (source : Config) (field : Field) (fields : List Field) :
    source.further (field :: fields) =
      ',' :: '"' :: afterQuote field.name (field.write source ++ source.further fields) := by
  rw [further, List.map_cons, Json.writeFrom, List.append_assoc, List.append_assoc, member,
    memberText_append]
  rfl

theorem endsNumber_further (source : Config) (fields : List Field) :
    EndsNumber (source.further fields) :=
  Json.endsNumber_writeFrom (Json.endsNumber_cons (by decide) []) _

/-- After a value the members in sight are still to come. -/
theorem further_suffix_of_read {source config target target' : Config} {missing : List Field}
    {field next : Field} {fields : List Field} {s s' rest : List Char}
    (hread : field.read target s = .ok (target', s'))
    (h : readMembers missing false target' s' = .ok (config, rest))
    (ahead : source.further (next :: fields) <:+ s) : source.further (next :: fields) <:+ s' := by
  rw [further_cons] at ahead ⊢
  have hbegins := beginsName_afterQuote next (next.write source ++ source.further fields)
  rcases Field.commaAhead_of_read hbegins hread ahead with ahead | rfl
  · exact ahead
  · rw [readMembers_error_of_nextMember (nextMember_of_beginsName hbegins)] at h
    cases h

/-- An object does not end as long as a field is to come that may not be given: a comma is left
    behind wherever its members seem to end. The members in sight are read like any others, but
    for what the text before them leaves open. -/
theorem commaAhead_of_readMembers {source config target : Config} {missing fields : List Field}
    {first : Bool} {s rest : List Char}
    (h : readMembers missing first target s = .ok (config, rest)) {field : Field}
    (hfield : field ∈ fields) (hmissing : field ∉ missing) (ahead : source.further fields <:+ s) :
    ∃ mark, CommaAhead mark rest := by
  obtain ⟨next, fields', rfl⟩ := List.exists_cons_of_ne_nil (List.ne_nil_of_mem hfield)
  fun_induction readMembers missing first target s generalizing next fields' with
  | case1 => cases h
  | case2 =>
    cases h
    exact ⟨_, source.further_cons next fields' ▸ ahead⟩
  | case3 => cases h
  | case4 missing first target s t hnext g s' hname ih =>
    obtain ⟨u, hcolon, h⟩ := Json.bind_eq_ok_iff.1 h
    obtain ⟨⟨target', s''⟩, hread, h⟩ := Json.bind_eq_ok_iff.1 h
    have hbegins := beginsName_afterQuote next (next.write source ++ source.further fields')
    rw [further_cons] at ahead
    rcases commaAhead_of_nextMember hnext ahead with ahead | rfl
    · -- Another member comes before the one in sight.
      rcases commaAhead_of_readName hname ahead with ahead | rfl
      · have ahead := commaAhead_of_readColon hcolon ahead
        rw [CommaAhead, ← further_cons] at ahead
        have ahead := further_suffix_of_read hread h ahead
        exact ih _ _ h (fun hmem => hmissing (List.mem_of_mem_erase hmem)) _ _ hfield ahead
      · rw [readColon_of_beginsName hbegins] at hcolon
        cases hcolon
    · -- The member in sight is read as it was written.
      by_cases hmem : next ∈ missing
      · rw [readName_of_mem hmem] at hname
        cases hname
        cases hcolon
        rw [Field.read_write source target g (source.endsNumber_further fields')] at hread
        cases hread
        have hlater : field ∈ fields' := by
          rcases List.mem_cons.1 hfield with rfl | hlater
          · exact absurd hmem hmissing
          · exact hlater
        obtain ⟨next', fields'', rfl⟩ :=
          List.exists_cons_of_ne_nil (List.ne_nil_of_mem hlater)
        exact ih _ _ h (fun hmem => hmissing (List.mem_of_mem_erase hmem)) _ _ hlater
          (List.suffix_refl _)
      · rw [readName_of_not_mem hmem] at hname
        cases hname

/-- The text of an object up to a member, and from the member on. -/
theorem writeFrom_member (source : Config) (before after : List Field) (name : String)
    (value : List Char) :
    Json.writeFrom true
        ((before.map source.member ++ (name, value) :: after.map source.member).map memberText) ++
        ['\x7d'] =
      Json.writeFrom true (before.map fun field => memberText (source.member field)) ++
        (Json.lead (true && before.isEmpty) ++
          '"' :: afterQuote name (value ++ source.further after)) := by
  have hmember := memberText_append name value (source.further after)
  rw [List.map_append, List.map_map, List.map_cons, List.map_map, Json.writeFrom_append,
    Json.writeFrom, List.isEmpty_map, ← hmember, further]
  simp only [List.append_assoc]
  rfl

/-- A member too many makes the members end in a fault or before a comma. -/
theorem commaAhead_of_member {source config : Config} {before after : List Field} {name : String}
    {value rest : List Char} (hnodup : (before ++ after).Nodup)
    (hname : ∀ field : Field, field.name = name → field ∈ before ++ after)
    (h : readMembers Field.all true default (Json.writeFrom true
      ((before.map source.member ++ (name, value) :: after.map source.member).map memberText) ++
        ['\x7d']) = .ok (config, rest)) :
    ∃ mark, CommaAhead mark rest := by
  have hall : before ⊆ Field.all := fun field _ => by cases field <;> decide
  have hends : ∀ (first : Bool) (s : List Char), EndsNumber (Json.lead first ++ '"' :: s) := by
    intro first s
    cases first <;> exact Json.endsNumber_cons (by decide) _
  have hmissing : (Field.all.diff before).Nodup := List.Nodup.diff (by decide)
  rw [writeFrom_member, readMembers_writeFrom source (List.nodup_append.1 hnodup).1 hall _ _
    (hends _ _)] at h
  generalize hm : Field.all.diff before = missing at h hmissing
  cases hfield : Field.ofName? name with
  | none =>
    rw [readMembers_error_of_readName (nextMember_quote _ _) (readName_of_unknown hfield _)] at h
    cases h
  | some field =>
    obtain rfl : field.name = name := by simpa using List.find?_some hfield
    by_cases hmem : field ∈ missing
    · have hafter : field ∈ after := by
        rw [← hm, List.Nodup.mem_sdiff_iff (by decide)] at hmem
        rcases List.mem_append.1 (hname field rfl) with hbefore | hafter
        · exact absurd hbefore hmem.2
        · exact hafter
      obtain ⟨next, after, rfl⟩ := List.exists_cons_of_ne_nil (List.ne_nil_of_mem hafter)
      rw [readMembers_of_member (nextMember_quote _ _) (readName_of_mem hmem _)] at h
      obtain ⟨⟨target, s⟩, hread, h⟩ := Json.bind_eq_ok_iff.1 h
      have ahead := further_suffix_of_read hread h (List.suffix_append value _)
      exact commaAhead_of_readMembers h hafter hmissing.not_mem_erase ahead
    · rw [readMembers_error_of_readName (nextMember_quote _ _) (readName_of_not_mem hmem _)] at h
      cases h

/-! ## The result -/

theorem ofJson_of_read {s : List Char} {config : Config} (h : read s = .ok (config, [])) :
    ofJson (String.ofList s) = .ok config := by
  rw [ofJson, String.toList_ofList, h]
  rfl

theorem exists_fault_of_read {s : List Char}
    (h : ∀ config rest, read s = .ok (config, rest) → Json.skipBlanks rest ≠ []) :
    ∃ fault, ofJson (String.ofList s) = .error (.json fault) := by
  rw [ofJson, String.toList_ofList]
  cases hread : read s with
  | error e => exact ⟨e, rfl⟩
  | ok p =>
    have hleft := h p.1 p.2 hread
    dsimp only
    rw [if_neg (by rwa [List.isEmpty_iff])]
    exact ⟨_, rfl⟩

theorem read_brace (s : List Char) :
    read ('\x7b' :: s) =
      readMembers Field.all true default s >>= fun (config, rest) =>
        endObject rest >>= fun rest => pure (config, rest) := rfl

theorem read_bracket (s : List Char) :
    read ('[' :: s) =
      readElements Field.all true default s >>= fun (config, rest) =>
        Json.endList rest >>= fun rest => pure (config, rest) := rfl

/-- An object with any of the fields in any order. -/
theorem ofJson_writeFields (config : Config) {fields : List Field} (h : fields.Nodup) :
    ofJson (String.ofList (config.writeFields fields)) =
      .ok (default.withFields fields config) := by
  have hall : fields ⊆ Field.all := fun field _ => by cases field <;> decide
  have hmembers := readMembers_writeFrom config h hall true default
    (Json.endsNumber_cons (by decide) [] : EndsNumber ['\x7d'])
  rw [readMembers_of_end (nextMember_brace _ _)] at hmembers
  apply ofJson_of_read
  have hmap : fields.map (fun field => memberText (config.member field)) =
      (fields.map fun field => (field.name, field.write config)).map memberText := by
    rw [List.map_map]
    rfl
  rw [writeFields, writeObject_eq, read_brace, ← hmap, hmembers]
  rfl

/-- A list of the first fields. -/
theorem ofJson_writeValues (config : Config) (k : Nat) :
    ofJson (String.ofList (config.writeValues (Field.all.take k))) =
      .ok (default.withFields (Field.all.take k) config) := by
  have helements := readElements_writeFrom config (Field.all.take k) (Field.all.drop k) true
    default []
  rw [List.take_append_drop] at helements
  apply ofJson_of_read
  rw [writeValues, Json.writeList, Json.writeItems_eq_writeFrom, List.cons_append, read_bracket,
    helements]
  rfl

/-- An object with a member too many. -/
theorem exists_fault_of_member (config : Config) {before after : List Field} {name : String}
    (value : List Char) (hnodup : (before ++ after).Nodup)
    (hname : ∀ field : Field, field.name = name → field ∈ before ++ after) :
    ∃ fault, ofJson (String.ofList (Json.writeObject
      (before.map config.member ++ (name, value) :: after.map config.member))) =
        .error (.json fault) := by
  apply exists_fault_of_read
  intro config' rest hread
  rw [writeObject_eq, read_brace] at hread
  obtain ⟨⟨target, s⟩, hmembers, hread⟩ := Json.bind_eq_ok_iff.1 hread
  obtain ⟨s', hend, hread⟩ := Json.bind_eq_ok_iff.1 hread
  cases hread
  obtain ⟨mark, ahead⟩ := commaAhead_of_member hnodup hname hmembers
  exact (commaAhead_of_endObject hend ahead).skipBlanks.ne_nil

/-- Settings survive being written. An object with any of the fields, in any order, is read as
    the default settings with just these fields replaced; a document with all of them is read as
    the settings themselves; and a list of the first values replaces the first fields. A member
    too many anywhere in an object, of a name that is unknown or given already, ends in a fault
    of the document, whatever its value is. -/
theorem document_of_fields (config : Config) :
    (∀ fields : List Field, fields.Nodup →
      ofJson (String.ofList (config.writeFields fields)) =
        .ok (default.withFields fields config)) ∧
    ofJson config.json = .ok config ∧
    (∀ k, ofJson (String.ofList (config.writeValues (Field.all.take k))) =
      .ok (default.withFields (Field.all.take k) config)) ∧
    ∀ (before after : List Field) (name : String) (value : List Char), (before ++ after).Nodup →
      (∀ field : Field, field.name = name → field ∈ before ++ after) →
      ∃ fault, ofJson (String.ofList (Json.writeObject
        (before.map config.member ++ (name, value) :: after.map config.member))) =
          .error (.json fault) := by
  refine ⟨fun fields h => config.ofJson_writeFields h, ?_, config.ofJson_writeValues,
    fun before after name value => config.exists_fault_of_member value⟩
  rw [json, config.ofJson_writeFields (by decide), withFields_all]

/-- A document with two of the fields, the later one first, and the same with one of them given
    twice. -/
theorem document_of_loopback :
    let config : Config := { default with bind := .v4 .loopback, restore := some "opening" }
    let text := "\x7b\"restore\":\"opening\",\"bind\":\"127.0.0.1\"\x7d"
    let repeated := "\x7b\"restore\":\"opening\",\"bind\":[],\"bind\":\"127.0.0.1\"\x7d"
    ofJson text = .ok config ∧ ofJson config.json = .ok config ∧
      ∃ fault, ofJson repeated = .error (.json fault) := by
  intro config text repeated
  obtain ⟨hfields, hall, -, hmember⟩ := document_of_fields config
  refine ⟨?_, hall, ?_⟩
  · have htext : text = String.ofList (config.writeFields [.restore, .bind]) := by decide
    rw [htext]
    exact hfields [.restore, .bind] (by decide)
  · have hrepeated : repeated = String.ofList (Json.writeObject
        ([.restore].map config.member ++ ("bind", "[]".toList) :: [.bind].map config.member)) := by
      decide
    rw [hrepeated]
    refine hmember [.restore] [.bind] "bind" "[]".toList (by decide) ?_
    intro field
    cases field <;> decide

end ShowRelay.Config
