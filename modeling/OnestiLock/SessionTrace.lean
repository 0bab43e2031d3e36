import OnestiLock.AnswerForms
import OnestiLock.CommandMeaning
import OnestiLock.JsonLines
import OnestiLock.Packet
import OnestiLock.StateSave

/-! The frame log that the command line tool writes of a session
(`RedactingTracer` of `scripts/ble_cli.py`): one JSON object a line, secrets as
lengths unless they were asked for. -/

namespace OnestiLock

namespace Trace

open Python Json

abbrev Fields := List (Text × Value)

/-! Fields of the log. -/

/-- `_id_name` of a response. -/
def traceResponseName (responseId : Nat) : String := (responseName? responseId).getD s!"0x{hexByte responseId}"

def string (s : String) : Value := .str (text s)

def number (n : Nat) : Value := .int n

def hexValue (data : Bytes) : Value := .str (hexText data)

/-- `_packet_fields`. -/
def packetFields (data : Bytes) : Fields :=
  [(text "hex", hexValue data), (text "len", number data.length)] ++
    match Packet.fromBytes data with
    | .error e => [(text "parse_error", string e.message)]
    | .ok packet =>
      [(text "type", string packet.packetType.name), (text "seq", number packet.sequenceNumber)]

/-- `TRACE_PAYLOAD_COMMANDS`: none of them carries a secret. -/
def tracePayloadCommands : List CommandId :=
  [.exchangeKeyPubM, .deviceModelGet, .battInfoGet, .deviceLogGet, .deviceNameGet, .deviceNameSet, .currentTimeGet,
    .currentTimeSet, .ekeyOperate, .pinCodeClear, .scanRfidCode, .rfidCodeClear, .fingerprintScan, .fingerprintClear]

/-- `TRACE_PAYLOAD_RESPONSES`, by value. -/
def tracePayloadResponses : List Nat :=
  [CommandId.exchangeKeyPubM.value, CommandId.deviceModelGet.value, CommandId.battInfoGet.value,
    CommandId.deviceLogGet.value, CommandId.deviceNameGet.value, CommandId.currentTimeGet.value, responseLockStatus,
    responseUserAdded, CommandId.scanRfidCode.value, CommandId.fingerprintScan.value] ++
    statusOnlyResponses.map CommandId.value

/-! The calls of the tracer. -/

inductive TraceCall
  | packetOut (data : Bytes)
  | packetIn (data : Bytes)
  | command (command : Command)
  | response (response : Response)
  | dropped (error : String) (data : Bytes)
  | note (event : String) (fields : Fields)
  | secret (event : String) (fields : Fields)
  | close

/-- What `_write` is called with, if it is. -/
def TraceCall.event? (secrets : Bool) : TraceCall → Option (String × Fields)
  | packetOut data => some ("packet", (text "dir", string "out") :: packetFields data)
  | packetIn data => some ("packet", (text "dir", string "in") :: packetFields data)
  | command c =>
    some ("command", [(text "dir", string "out"), (text "id", string c.commandId.name),
      (text "ref", number c.commandRef), (text "len", number c.payload.length)] ++
      if secrets || tracePayloadCommands.contains c.commandId then [(text "payload", hexValue c.payload)] else [])
  | response r =>
    some ("response", [(text "dir", string "in"), (text "id", string (traceResponseName r.responseId)),
      (text "ref", number r.commandRef), (text "status", string (responseStatusName r.status)),
      (text "len", number r.payload.length)] ++
      (if r.isEvent then [(text "unsolicited", .bool true)] else []) ++
      if secrets || tracePayloadResponses.contains r.responseId then [(text "payload", hexValue r.payload)] else [])
  | dropped error data =>
    some ("dropped", [(text "dir", string "in"), (text "error", string error), (text "len", number data.length)] ++
      if secrets then [(text "data", hexValue data)] else [])
  | note event fields => some (event, fields)
  | secret event fields => if secrets then some (event, fields) else none
  | close => none

/-- `dict[key] = value`: a key keeps its place. -/
def putField : Fields → Text × Value → Fields
  | [], f => [f]
  | g :: l, f => if g.1 == f.1 then f :: l else g :: putField l f

/-- How the handle takes a line: written and flushed, or refused with an
`OSError` or a `ValueError` at either of the two. -/
inductive Attempt
  | flushed
  | writeFailed (failure : String)
  | flushFailed (failure : String)
  deriving DecidableEq, Repr

def Attempt.failure? : Attempt → Option String
  | flushed => none
  | writeFailed failure | flushFailed failure => some failure

def Attempt.taken : Attempt → Bool
  | writeFailed _ => false
  | _ => true

/-- The clocks at a call, and how a write would go then. -/
structure Moment where
  t : String
  dt : Json.Real
  attempt : Attempt

def Moment.record (m : Moment) (event : String) (fields : Fields) : Value :=
  .object (fields.foldl putField [(text "t", string m.t), (text "dt", .real m.dt), (text "event", string event)])

structure RedactingTracer where
  secrets : Bool
  isOpen : Bool
  written : Text
  failure : Option String

namespace RedactingTracer

variable (reprFloat : Json.Real → Text)

def start (secrets : Bool) : RedactingTracer := ⟨secrets, true, [], none⟩

/-- `_write`: the first failure is kept. -/
def write (tracer : RedactingTracer) (m : Moment) (event : String) (fields : Fields) : RedactingTracer :=
  if tracer.isOpen = false then tracer
  else
    { tracer with
      written := if m.attempt.taken then tracer.written ++ (dumps reprFloat (m.record event fields) ++ [code '\n'])
        else tracer.written
      failure := tracer.failure.or m.attempt.failure? }

def call (tracer : RedactingTracer) (c : TraceCall × Moment) : RedactingTracer :=
  match c.1 with
  | .close => { tracer with isOpen := false }
  | traced =>
    match traced.event? tracer.secrets with
    | some (event, fields) => tracer.write reprFloat c.2 event fields
    | none => tracer

def run (tracer : RedactingTracer) (calls : List (TraceCall × Moment)) : RedactingTracer :=
  calls.foldl (call reprFloat) tracer

end RedactingTracer

end Trace

/-! What the log cannot show. -/

namespace BuilderCall

/-- The call with its secrets blanked: the PIN and its slot, keys, challenge
answers and device ids. -/
def blanked : BuilderCall → BuilderCall
  | pinCodeSet _ pin _ => .pinCodeSet 800 (String.ofList (List.replicate pin.length '0')) false
  | masterPinCodeSet pin => .pinCodeSet 800 (String.ofList (List.replicate pin.length '0')) false
  | userAuthBegin _ _ => .userAuthBegin 0 (List.replicate deviceIdLength 0)
  | userAuthFinalize _ => .userAuthFinalize (List.replicate challengeLength 0)
  | userAuthUpdate _ _ _ => .userAuthUpdate 0 0 (List.replicate publicKeyLength 0)
  | deviceIdSet _ => .deviceIdSet (List.replicate deviceIdLength 0)
  | serverKeyUpdate _ => .serverKeyUpdate (List.replicate publicKeyLength 0)
  | c => c

theorem pinWire_size (slot : Int) (pin : String) : (pinWire slot pin).length = 3 + pin.length := by
  rw [pinWire, List.length_append, List.length_cons, slotWire, length_toLittleEndian, encodeAscii, List.length_map,
    String.length_toList]
  omega

/-- Blanking keeps the command and its length, and all of it where the log
writes the payload. -/
theorem blanked_shape {c : BuilderCall} (h : c.Acceptable) :
    c.blanked.commandId = c.commandId ∧ c.blanked.wire.length = c.wire.length ∧
      (Trace.tracePayloadCommands.contains c.commandId = true → c.blanked.wire = c.wire) := by
  cases c with
  | pinCodeSet slot pin ignoreSlotCheck =>
    refine ⟨rfl, ?_, fun hlisted => by cases hlisted⟩
    simp only [blanked, wire, pinWire_size, String.length_ofList, List.length_replicate]
  | masterPinCodeSet pin =>
    refine ⟨rfl, ?_, fun hlisted => by cases hlisted⟩
    simp only [blanked, wire, pinWire_size, String.length_ofList, List.length_replicate]
  | userAuthBegin userId deviceId =>
    refine ⟨rfl, ?_, fun hlisted => by cases hlisted⟩
    simp only [blanked, wire, List.length_append, List.length_replicate, h.1]
    rfl
  | userAuthFinalize challenge =>
    have hlength : challenge.length = challengeLength := h
    refine ⟨rfl, ?_, fun hlisted => by cases hlisted⟩
    simp only [blanked, wire, List.length_replicate, hlength]
  | userAuthUpdate userId credentials publicKey =>
    refine ⟨rfl, ?_, fun hlisted => by cases hlisted⟩
    simp only [blanked, wire, List.length_append, List.length_replicate, h.1]
    rfl
  | deviceIdSet deviceId =>
    have hlength : deviceId.length = deviceIdLength := h
    refine ⟨rfl, ?_, fun hlisted => by cases hlisted⟩
    simp only [blanked, wire, List.length_replicate, hlength]
  | serverKeyUpdate serverPublicKey =>
    have hlength : serverPublicKey.length = publicKeyLength := h
    refine ⟨rfl, ?_, fun hlisted => by cases hlisted⟩
    simp only [blanked, wire, List.length_replicate, hlength]
  | _ => exact ⟨rfl, rfl, fun _ => rfl⟩

end BuilderCall

namespace Trace

open Python Json

/-- The answers that hold a challenge, a key, a device id or what a login grants. -/
def secretAnswers : List CommandId :=
  [.userAuthBegin, .userAuthFinalize, .userAuthUpdate, .serverKeyUpdate, .deviceIdGet]

/-- Two calls of the tracer that differ in secrets of the same length only. -/
inductive SecretsAside : TraceCall → TraceCall → Prop
  | same (c : TraceCall) : SecretsAside c c
  | asked {a b : BuilderCall} {p q : CommandPayload} (ref : Nat) : a.build = .ok p → b.build = .ok q →
      a.blanked = b.blanked → SecretsAside (.command (p.withRef ref)) (.command (q.withRef ref))
  | answered {command : CommandId} {payload payload' : Bytes} (ref status : Nat) : command ∈ secretAnswers →
      payload.length = payload'.length →
      SecretsAside (.response ⟨command.value, ref, status, payload⟩) (.response ⟨command.value, ref, status, payload'⟩)
  | dropped (error : String) {data data' : Bytes} : data.length = data'.length →
      SecretsAside (.dropped error data) (.dropped error data')
  | secret (event event' : String) (fields fields' : Fields) :
      SecretsAside (.secret event fields) (.secret event' fields')

theorem event_asked {a b : BuilderCall} {p q : CommandPayload} {ref : Nat} (ha : a.build = .ok p)
    (hb : b.build = .ok q) (h : a.blanked = b.blanked) :
    (TraceCall.command (p.withRef ref)).event? false = (TraceCall.command (q.withRef ref)).event? false := by
  obtain ⟨hok, hp⟩ := BuilderCall.build_eq_ok.mp ha
  obtain ⟨hok', hq⟩ := BuilderCall.build_eq_ok.mp hb
  obtain ⟨hid, hlength, hwire⟩ := BuilderCall.blanked_shape hok
  obtain ⟨hid', hlength', hwire'⟩ := BuilderCall.blanked_shape hok'
  rw [h] at hid hlength hwire
  have hcommand : a.commandId = b.commandId := hid.symm.trans hid'
  have hsize : a.wire.length = b.wire.length := hlength.symm.trans hlength'
  simp only [TraceCall.event?, CommandPayload.withRef, hp, hq, hcommand, hsize, Bool.false_or]
  by_cases hlisted : tracePayloadCommands.contains b.commandId = true
  · have hsame : a.wire = b.wire := (hwire (hcommand ▸ hlisted)).symm.trans (hwire' hlisted)
    rw [hsame]
  · simp only [hlisted, Bool.false_eq_true, if_false]

theorem event_answered {command : CommandId} {payload payload' : Bytes} {ref status : Nat}
    (hmem : command ∈ secretAnswers) (h : payload.length = payload'.length) :
    (TraceCall.response ⟨command.value, ref, status, payload⟩).event? false =
      (TraceCall.response ⟨command.value, ref, status, payload'⟩).event? false := by
  have hall : secretAnswers.all (fun c => !tracePayloadResponses.contains c.value) = true := by decide
  have hhidden : tracePayloadResponses.contains command.value = false := by
    simpa using List.all_eq_true.mp hall command hmem
  simp only [TraceCall.event?, Response.isEvent, h, Bool.false_or, hhidden, Bool.false_eq_true, if_false]
  rfl

theorem event_secretsAside {c d : TraceCall} (h : SecretsAside c d) : c.event? false = d.event? false := by
  cases h with
  | same => rfl
  | asked ref ha hb hblank => exact event_asked ha hb hblank
  | answered ref status hmem hlength => exact event_answered hmem hlength
  | dropped error hlength => simp only [TraceCall.event?, hlength, Bool.false_eq_true, if_false]
  | secret => rfl

namespace RedactingTracer

variable {reprFloat : Json.Real → Text}

@[simp] theorem write_secrets (tracer : RedactingTracer) (m : Moment) (event : String) (fields : Fields) :
    (tracer.write reprFloat m event fields).secrets = tracer.secrets := by
  unfold write
  split <;> rfl

@[simp] theorem call_secrets (tracer : RedactingTracer) (c : TraceCall × Moment) :
    (tracer.call reprFloat c).secrets = tracer.secrets := by
  obtain ⟨c, m⟩ := c
  cases c with
  | close => rfl
  | secret event fields => cases h : tracer.secrets <;> simp [call, TraceCall.event?, h]
  | _ => simp only [call, TraceCall.event?, write_secrets]

theorem call_secretsAside {tracer : RedactingTracer} (hsecrets : tracer.secrets = false) {c d : TraceCall}
    (h : SecretsAside c d) (m : Moment) : tracer.call reprFloat (c, m) = tracer.call reprFloat (d, m) := by
  have hevent := event_secretsAside h
  cases h with
  | same => rfl
  | asked | answered | dropped | secret => simp only [call, hsecrets, hevent]

/-- Without `--trace-secrets`, runs that differ in secrets only leave the same log. -/
theorem run_secretsAside {tracer : RedactingTracer} (hsecrets : tracer.secrets = false)
    {calls calls' : List (TraceCall × Moment)}
    (h : List.Forall₂ (fun c d => SecretsAside c.1 d.1 ∧ c.2 = d.2) calls calls') :
    tracer.run reprFloat calls = tracer.run reprFloat calls' := by
  induction h generalizing tracer with
  | nil => rfl
  | cons hcd _ ih =>
    rename_i c d rest rest' _
    obtain ⟨c, m⟩ := c
    obtain ⟨d, n⟩ := d
    obtain ⟨haside, rfl⟩ := hcd
    have hcall : tracer.call reprFloat (c, m) = tracer.call reprFloat (d, m) := call_secretsAside hsecrets haside m
    have hnext : (tracer.call reprFloat (c, m)).secrets = false := by rw [call_secrets, hsecrets]
    have hrest := ih hnext
    simp only [run, List.foldl_cons] at hrest ⊢
    rw [hrest, hcall]

theorem run_secretsAside_pins :
    (start false).run (fun _ => text "0.5")
        [(.command ⟨.pinCodeSet, 1, [33, 3, 4, 49, 50, 51, 52], 0⟩, ⟨"06:00", .finite false 5 (-1), .flushed⟩)] =
      (start false).run (fun _ => text "0.5")
        [(.command ⟨.pinCodeSet, 1, [34, 3, 4, 57, 56, 55, 54], 0⟩, ⟨"06:00", .finite false 5 (-1), .flushed⟩)] := by
  have hasked : SecretsAside (.command ((⟨.pinCodeSet, [33, 3, 4, 49, 50, 51, 52]⟩ : CommandPayload).withRef 1))
      (.command ((⟨.pinCodeSet, [34, 3, 4, 57, 56, 55, 54]⟩ : CommandPayload).withRef 1)) :=
    .asked 1 (a := .pinCodeSet 801 "1234" false) (b := .pinCodeSet 802 "9876" false) (by decide) (by decide) rfl
  exact run_secretsAside rfl (.cons ⟨hasked, rfl⟩ .nil)

end RedactingTracer

end Trace

end OnestiLock
