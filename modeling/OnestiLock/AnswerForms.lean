import OnestiLock.ResponseReadings

/-! What the parsers accept: an answer in its form, at the front of a payload. -/

namespace OnestiLock

inductive ParsedAnswer
  | done
  | exchangeKeyPubL (publicKey : Bytes)
  | userAuthBegin (challenge : Bytes)
  | userAuthFinalize (credentials : Nat)
  | userAuthUpdate (publicKey : Bytes)
  | serverKeyUpdate (lockPublicKey : Bytes)
  | deviceId (deviceId : Bytes)
  | deviceName (name : String)
  | battInfo (info : BattInfo)
  | deviceModel (model : DeviceModel)
  | deviceLog (log : Bytes)
  | currentTime (minutes : Nat)
  | scanResult (result : ScanResult)
  deriving DecidableEq, Repr

/-- The parser of the answer to a command. -/
def parseAnswer (command : CommandId) (r : Response) : Except BleError ParsedAnswer :=
  match command with
  | .exchangeKeyPubM => .exchangeKeyPubL <$> parseExchangeKeyPubL r
  | .userAuthBegin => .userAuthBegin <$> parseUserAuthBegin r
  | .userAuthFinalize => .userAuthFinalize <$> parseUserAuthFinalize r
  | .userAuthUpdate => .userAuthUpdate <$> parseUserAuthUpdate r
  | .serverKeyUpdate => .serverKeyUpdate <$> parseServerKeyUpdate r
  | .deviceIdGet => .deviceId <$> parseDeviceIdGet r
  | .deviceNameGet => .deviceName <$> parseDeviceNameGet r
  | .battInfoGet => .battInfo <$> parseBattInfo r
  | .deviceModelGet => .deviceModel <$> parseDeviceModelRaw r
  | .deviceLogGet => .deviceLog <$> parseDeviceLog r
  | .currentTimeGet => .currentTime <$> parseCurrentTime r
  | .fingerprintScan => .scanResult <$> parseFingerprintScan r
  | .scanRfidCode => .scanResult <$> parseScanRfidCode r
  | command => (fun _ => .done) <$> checkStatusOnly r command

/-- The answers to a command, as the lock writes them. -/
inductive AnswerForm : CommandId → ParsedAnswer → Bytes → Prop
  | done {command} : command ∈ statusOnlyResponses → AnswerForm command .done []
  | exchangeKeyPubL {raw : Bytes} : raw.length = publicKeyLength →
      AnswerForm .exchangeKeyPubM (.exchangeKeyPubL raw) raw
  | userAuthBegin {raw : Bytes} : raw.length = challengeLength → AnswerForm .userAuthBegin (.userAuthBegin raw) raw
  | userAuthFinalize {n} : n < 256 → AnswerForm .userAuthFinalize (.userAuthFinalize n) (toLittleEndian n 1)
  | userAuthUpdate {raw : Bytes} : raw.length = publicKeyLength →
      AnswerForm .userAuthUpdate (.userAuthUpdate raw) raw
  | serverKeyUpdate {raw : Bytes} : raw.length = publicKeyLength →
      AnswerForm .serverKeyUpdate (.serverKeyUpdate raw) raw
  | deviceId {raw : Bytes} : raw.length = deviceIdLength → AnswerForm .deviceIdGet (.deviceId raw) raw
  | deviceName {chars filler : Bytes} : 0 ∉ chars → (chars ++ 0 :: filler).length = deviceNameMaxLength →
      AnswerForm .deviceNameGet (.deviceName (String.ofList (chars.map decodeAsciiByte))) (chars ++ 0 :: filler)
  | battInfo {level low percent} : level < 65536 → low < 256 → percent < 256 →
      AnswerForm .battInfoGet (.battInfo ⟨level, low == 1, percent⟩)
        (toLittleEndian level 2 ++ (toLittleEndian low 1 ++ toLittleEndian percent 1))
  | deviceModel {raw} : raw < 256 →
      AnswerForm .deviceModelGet (.deviceModel ⟨if raw ∈ lockModelIds then raw else lockModelUnknown, raw⟩)
        (toLittleEndian raw 1)
  | deviceLog {log : Bytes} : log.length < 256 →
      AnswerForm .deviceLogGet (.deviceLog log) (toLittleEndian log.length 1 ++ log)
  | currentTime {minutes} : minutes < 2 ^ 32 →
      AnswerForm .currentTimeGet (.currentTime minutes) (toLittleEndian minutes 4)
  | fingerprintScan {slot raw} : slot < 65536 → raw < 256 →
      AnswerForm .fingerprintScan (.scanResult ⟨slot, scanStatus raw⟩) (toLittleEndian slot 2 ++ toLittleEndian raw 1)
  | scanRfidCode {slot raw} : slot < 65536 → raw < 256 →
      AnswerForm .scanRfidCode (.scanResult ⟨slot, scanStatus raw⟩) (toLittleEndian slot 2 ++ toLittleEndian raw 1)

/-- The events, as the lock writes them. -/
inductive EventForm : LockEvent → Bytes → Prop
  | lockStatus {slot state method} : slot < 65536 → state ∈ [1, 2] → method ∈ [0, 1, 2, 3, 4, 5] →
      EventForm (.lockStatus slot state method)
        (toLittleEndian slot 2 ++ (toLittleEndian state 1 ++ toLittleEndian method 1))
  | userAdded {slot status} : slot < 65536 → status ∈ [0, 1, 2, 3, 4] →
      EventForm (.userAdded slot status) (toLittleEndian slot 2 ++ toLittleEndian status 1)

def LockEvent.responseId : LockEvent → Nat
  | lockStatus _ _ _ => responseLockStatus
  | userAdded _ _ => responseUserAdded

/-! The composed fields. -/

theorem reads_battInfo : Reads battInfoFields (fun info w => AnswerForm .battInfoGet (.battInfo info) w) := by
  have hparts := reads_uint16.seq fun level => reads_uint8.seq fun low => reads_uint8.check
    (f := fun percent => (.ok ⟨level, low == 1, percent⟩ : Except BleProtocolError BattInfo))
  have hfields : Reads battInfoFields _ := hparts
  refine hfields.congr fun info w => ?_
  constructor
  · rintro ⟨level, _, _, ⟨hlevel, rfl⟩, ⟨low, _, _, ⟨hlow, rfl⟩, ⟨percent, ⟨hpercent, rfl⟩, ⟨⟩⟩, rfl⟩, rfl⟩
    exact .battInfo hlevel hlow hpercent
  · rintro (_ | _)
    rename_i level low percent hlevel hlow hpercent
    exact ⟨level, _, _, ⟨hlevel, rfl⟩, ⟨low, _, _, ⟨hlow, rfl⟩, ⟨percent, ⟨hpercent, rfl⟩, rfl⟩, rfl⟩, rfl⟩

theorem reads_deviceModel :
    Reads deviceModelFields (fun model w => AnswerForm .deviceModelGet (.deviceModel model) w) := by
  have hparts := reads_uint8.check (f := fun raw =>
    (.ok ⟨if raw ∈ lockModelIds then raw else lockModelUnknown, raw⟩ : Except BleProtocolError DeviceModel))
  have hfields : Reads deviceModelFields _ := hparts
  refine hfields.congr fun model w => ?_
  constructor
  · rintro ⟨raw, ⟨hraw, rfl⟩, ⟨⟩⟩
    exact .deviceModel hraw
  · rintro (_ | _)
    rename_i raw hraw
    exact ⟨raw, ⟨hraw, rfl⟩, rfl⟩

theorem reads_deviceLog : Reads deviceLogFields (fun log w => AnswerForm .deviceLogGet (.deviceLog log) w) := by
  have hfields : Reads deviceLogFields _ := reads_uint8.seq fun length => reads_take length
  refine hfields.congr fun log w => ?_
  constructor
  · rintro ⟨length, _, _, ⟨hlength, rfl⟩, ⟨rfl, rfl⟩, rfl⟩
    exact .deviceLog hlength
  · rintro (_ | _)
    rename_i hlength
    exact ⟨log.length, _, _, ⟨hlength, rfl⟩, ⟨rfl, rfl⟩, rfl⟩

def ScanForm (result : ScanResult) (w : Bytes) : Prop :=
  ∃ raw, result.slot < 65536 ∧ raw < 256 ∧ result.status = scanStatus raw ∧
    w = toLittleEndian result.slot 2 ++ toLittleEndian raw 1

theorem reads_scan : Reads scanFields ScanForm := by
  have hparts := reads_uint16.seq fun slot =>
    reads_uint8.check (f := fun raw => (.ok ⟨slot, scanStatus raw⟩ : Except BleProtocolError ScanResult))
  have hfields : Reads scanFields _ := hparts
  refine hfields.congr fun result w => ?_
  constructor
  · rintro ⟨slot, _, _, ⟨hslot, rfl⟩, ⟨raw, ⟨hraw, rfl⟩, ⟨⟩⟩, rfl⟩
    exact ⟨raw, hslot, hraw, rfl, rfl⟩
  · rintro ⟨raw, hslot, hraw, hstatus, rfl⟩
    obtain ⟨slot, status⟩ := result
    cases hstatus
    exact ⟨slot, _, _, ⟨hslot, rfl⟩, ⟨raw, ⟨hraw, rfl⟩, rfl⟩, rfl⟩

theorem requiredMember_eq_ok {name : String} {members : List Nat} {value out : Nat} :
    requiredMember name members value = .ok out ↔ value ∈ members ∧ out = value := by
  unfold requiredMember
  by_cases h : value ∈ members
  · rw [if_pos h, Except.ok.injEq, and_iff_right h]
    exact eq_comm
  · rw [if_neg h]
    simp [h]

/-- A byte of an enumeration. -/
theorem required_form_iff {name : String} {members : List Nat} {value : Nat} {w : Bytes} :
    (∃ raw, NumberForm 1 raw w ∧ requiredMember name members raw = .ok value) ↔
      value ∈ members ∧ NumberForm 1 value w := by
  simp only [requiredMember_eq_ok]
  constructor
  · rintro ⟨raw, hform, hmem, rfl⟩
    exact ⟨hmem, hform⟩
  · rintro ⟨hmem, hform⟩
    exact ⟨value, hform, hmem, rfl⟩

theorem number_of_member {members : List Nat} {value : Nat} (hall : ∀ m ∈ members, m < 256) (h : value ∈ members) :
    NumberForm 1 value (toLittleEndian value 1) :=
  ⟨hall value h, rfl⟩

theorem reads_lockStatus :
    Reads lockStatusFields (fun event w => event.responseId = responseLockStatus ∧ EventForm event w) := by
  have hparts := reads_uint16.seq fun slot => reads_uint8.checkSeq (f := requiredMember "LockStateId" [1, 2])
    fun state => reads_uint8.checkSeq (f := requiredMember "DoorlockMethodId" [0, 1, 2, 3, 4, 5])
      fun method => Reads.pure (LockEvent.lockStatus slot state method)
  have hfields : Reads lockStatusFields _ := hparts
  refine hfields.congr fun event w => ?_
  simp only [required_form_iff]
  constructor
  · rintro ⟨slot, _, _, ⟨hslot, rfl⟩, ⟨state, _, _, ⟨hstate, -, rfl⟩, ⟨method, _, _, ⟨hmethod, -, rfl⟩,
      ⟨rfl, rfl⟩, rfl⟩, rfl⟩, rfl⟩
    rw [List.append_nil]
    exact ⟨rfl, .lockStatus hslot hstate hmethod⟩
  · rintro ⟨hid, hform⟩
    cases hform with
    | lockStatus hslot hstate hmethod =>
      exact ⟨_, _, _, ⟨hslot, rfl⟩, ⟨_, _, _, ⟨hstate, number_of_member (by decide) hstate⟩, ⟨_, _, _,
        ⟨hmethod, number_of_member (by decide) hmethod⟩, ⟨rfl, rfl⟩, (List.append_nil _).symm⟩, rfl⟩, rfl⟩
    | userAdded => exact absurd hid (show responseUserAdded ≠ responseLockStatus by decide)

theorem reads_userAdded :
    Reads userAddedFields (fun event w => event.responseId = responseUserAdded ∧ EventForm event w) := by
  have hparts := reads_uint16.seq fun slot => reads_uint8.checkSeq
    (f := requiredMember "UserAddedStatusId" [0, 1, 2, 3, 4]) fun status => Reads.pure (LockEvent.userAdded slot status)
  have hfields : Reads userAddedFields _ := hparts
  refine hfields.congr fun event w => ?_
  simp only [required_form_iff]
  constructor
  · rintro ⟨slot, _, _, ⟨hslot, rfl⟩, ⟨status, _, _, ⟨hstatus, -, rfl⟩, ⟨rfl, rfl⟩, rfl⟩, rfl⟩
    rw [List.append_nil]
    exact ⟨rfl, .userAdded hslot hstatus⟩
  · rintro ⟨hid, hform⟩
    cases hform with
    | lockStatus => exact absurd hid (show responseLockStatus ≠ responseUserAdded by decide)
    | userAdded hslot hstatus =>
      exact ⟨_, _, _, ⟨hslot, rfl⟩, ⟨_, _, _, ⟨hstatus, number_of_member (by decide) hstatus⟩, ⟨rfl, rfl⟩,
        (List.append_nil _).symm⟩, rfl⟩

/-! The parsers. -/

/-- The answer is to this command, and to nothing that failed. -/
def Succeeded (command : CommandId) (r : Response) : Prop :=
  r.responseId = expectedResponseId command ∧ r.status = statusSuccess

theorem raiseForStatus_cases (r : Response) :
    (r.status = statusSuccess ∧ r.raiseForStatus = .ok ()) ∨
      (r.status ≠ statusSuccess ∧ r.raiseForStatus = .error (.operation r.status r.responseId)) := by
  by_cases h : r.status = statusSuccess
  · exact .inl ⟨h, by simp [Response.raiseForStatus, Response.ok, h]⟩
  · exact .inr ⟨h, by simp [Response.raiseForStatus, Response.ok, errorForStatus, h]⟩

/-- The reader starts at the payload, or says which check failed. -/
theorem responseReader_cases (command : CommandId) (r : Response) :
    (Succeeded command r ∧ responseReader r (expectedResponseId command) = .ok r.payload) ∨
      (r.responseId ≠ expectedResponseId command ∧
        ∃ e, responseReader r (expectedResponseId command) = .error (.protocol e)) ∨
      (r.responseId = expectedResponseId command ∧ r.status ≠ statusSuccess ∧
        responseReader r (expectedResponseId command) = .error (.operation r.status r.responseId)) := by
  by_cases hid : r.responseId = expectedResponseId command
  · rcases raiseForStatus_cases r with ⟨hstatus, -⟩ | ⟨hstatus, hraise⟩
    · exact .inl ⟨⟨hid, hstatus⟩, responseReader_ok hid hstatus⟩
    · refine .inr (.inr ⟨hid, hstatus, ?_⟩)
      simp [responseReader, hid, hraise]
  · have hreader : responseReader r (expectedResponseId command) = .error (.protocol
        ⟨s!"Expected a {responseName (expectedResponseId command)} response, got {responseName r.responseId}"⟩) := by
      simp [responseReader, hid]
    exact .inr (.inl ⟨hid, _, hreader⟩)

/-- Why a parser refuses: the lock says that this command failed, or the
response is not the answer, or the payload is not. -/
def Refusal (command : CommandId) (r : Response) (e : BleError) : Prop :=
  (r.responseId = expectedResponseId command ∧ r.status ≠ statusSuccess ∧ e = .operation r.status r.responseId) ∨
    ((r.responseId ≠ expectedResponseId command ∨ r.status = statusSuccess) ∧ ∃ m, e = .protocol m)

section

variable {α : Type} {fields : Bytes → Except BleProtocolError (α × Bytes)} {form : α → Bytes → Prop}
variable {command : CommandId} {r : Response}

theorem parseFields_eq_ok (h : Reads fields form) (mk : α → ParsedAnswer) {a : ParsedAnswer} :
    mk <$> parseFields command fields r = .ok a ↔
      Succeeded command r ∧ ∃ w, (∃ x, a = mk x ∧ form x w) ∧ w <+: r.payload := by
  rcases responseReader_cases command r with ⟨hok, hreader⟩ | ⟨hid, e, hreader⟩ | ⟨-, hstatus, hreader⟩
  · rw [parseFields, hreader, ok_bind]
    constructor
    · intro hparse
      cases hfields : fields r.payload with
      | error e =>
        rw [hfields] at hparse
        cases hparse
      | ok p =>
        rw [hfields] at hparse
        cases hparse
        obtain ⟨w, hw, hprefix⟩ := h.front.mp ⟨p.2, hfields⟩
        exact ⟨hok, w, ⟨p.1, rfl, hw⟩, hprefix⟩
    · rintro ⟨-, w, ⟨x, rfl, hw⟩, hprefix⟩
      obtain ⟨rest, hfields⟩ := h.front.mpr ⟨w, hw, hprefix⟩
      rw [hfields]
      rfl
  · rw [parseFields, hreader]
    exact iff_of_false (fun hparse => by cases hparse) (fun hok => hid hok.1.1)
  · rw [parseFields, hreader]
    exact iff_of_false (fun hparse => by cases hparse) (fun hok => hstatus hok.1.2)

theorem parseFields_refusal (mk : α → ParsedAnswer) {e : BleError}
    (h : mk <$> parseFields command fields r = .error e) :
    Refusal command r e := by
  rcases responseReader_cases command r with ⟨hok, hreader⟩ | ⟨hid, m, hreader⟩ | ⟨hid, hstatus, hreader⟩
  · rw [parseFields, hreader, ok_bind] at h
    cases hfields : fields r.payload with
    | error m =>
      rw [hfields] at h
      cases h
      exact .inr ⟨.inr hok.2, m, rfl⟩
    | ok p =>
      rw [hfields] at h
      cases h
  · rw [parseFields, hreader] at h
    cases h
    exact .inr ⟨.inl hid, m, rfl⟩
  · rw [parseFields, hreader] at h
    cases h
    exact .inl ⟨hid, hstatus, rfl⟩

/-- The form of a field and the form of the answer made of it. -/
theorem parse_iff (h : Reads fields form) (mk : α → ParsedAnswer) {a : ParsedAnswer}
    (hmade : ∀ w, (∃ x, a = mk x ∧ form x w) ↔ AnswerForm command a w) :
    mk <$> parseFields command fields r = .ok a ↔
      Succeeded command r ∧ ∃ w, AnswerForm command a w ∧ w <+: r.payload := by
  rw [parseFields_eq_ok h mk]
  simp only [hmade]

end

/-- The commands whose answer carries a payload. -/
def payloadCommands : List CommandId :=
  [.exchangeKeyPubM, .userAuthBegin, .userAuthFinalize, .userAuthUpdate, .serverKeyUpdate, .deviceIdGet,
    .deviceNameGet, .battInfoGet, .deviceModelGet, .deviceLogGet, .currentTimeGet, .fingerprintScan, .scanRfidCode]

theorem parseAnswer_statusOnly {command : CommandId} (h : command ∉ payloadCommands) (r : Response) :
    parseAnswer command r = (fun _ => .done) <$> checkStatusOnly r command := by
  cases command <;> first | rfl | exact absurd (by decide) h

theorem answerForm_statusOnly {command : CommandId} (h : command ∉ payloadCommands) {a : ParsedAnswer} {w : Bytes} :
    AnswerForm command a w ↔ command ∈ statusOnlyResponses ∧ a = .done ∧ w = [] := by
  constructor
  · intro hform
    cases hform with
    | done hmem => exact ⟨hmem, rfl, rfl⟩
    | _ => exact absurd (by decide) h
  · rintro ⟨hmem, rfl, rfl⟩
    exact .done hmem

theorem checkStatusOnly_eq_ok {command : CommandId} {r : Response} {a : ParsedAnswer} :
    (fun _ => ParsedAnswer.done) <$> checkStatusOnly r command = .ok a ↔
      Succeeded command r ∧ command ∈ statusOnlyResponses ∧ a = .done := by
  by_cases hmem : command ∈ statusOnlyResponses
  · have hcheck : checkStatusOnly r command = responseReader r (expectedResponseId command) >>= fun _ => .ok () := by
      simp [checkStatusOnly, hmem]
    rcases responseReader_cases command r with ⟨hok, hreader⟩ | ⟨hid, e, hreader⟩ | ⟨-, hstatus, hreader⟩
    · rw [hcheck, hreader, ok_bind]
      constructor
      · intro h
        cases h
        exact ⟨hok, hmem, rfl⟩
      · rintro ⟨-, -, rfl⟩
        rfl
    · rw [hcheck, hreader]
      exact iff_of_false (fun h => by cases h) (fun h => hid h.1.1)
    · rw [hcheck, hreader]
      exact iff_of_false (fun h => by cases h) (fun h => hstatus h.1.2)
  · have hcheck : ∃ e, checkStatusOnly r command = .error e := by
      simp only [checkStatusOnly, hmem, not_false_eq_true, if_true, throw_eq_error, error_bind]
      exact ⟨_, rfl⟩
    obtain ⟨e, hcheck⟩ := hcheck
    rw [hcheck]
    exact iff_of_false (fun h => by cases h) (fun h => hmem h.2.1)

/-! The answer to each command, by the form of its fields. -/

theorem exchangeKeyPubL_form {a : ParsedAnswer} {w : Bytes} :
    (∃ raw, a = .exchangeKeyPubL raw ∧ BytesForm publicKeyLength raw w) ↔ AnswerForm .exchangeKeyPubM a w := by
  constructor
  · rintro ⟨raw, rfl, rfl, hlength⟩
    exact .exchangeKeyPubL hlength
  · intro h
    cases h with
    | done hmem => exact absurd hmem (by decide)
    | exchangeKeyPubL hlength => exact ⟨_, rfl, rfl, hlength⟩

theorem userAuthBegin_form {a : ParsedAnswer} {w : Bytes} :
    (∃ raw, a = .userAuthBegin raw ∧ BytesForm challengeLength raw w) ↔ AnswerForm .userAuthBegin a w := by
  constructor
  · rintro ⟨raw, rfl, rfl, hlength⟩
    exact .userAuthBegin hlength
  · intro h
    cases h with
    | done hmem => exact absurd hmem (by decide)
    | userAuthBegin hlength => exact ⟨_, rfl, rfl, hlength⟩

theorem userAuthFinalize_form {a : ParsedAnswer} {w : Bytes} :
    (∃ n, a = .userAuthFinalize n ∧ NumberForm 1 n w) ↔ AnswerForm .userAuthFinalize a w := by
  constructor
  · rintro ⟨n, rfl, hlt, rfl⟩
    exact .userAuthFinalize hlt
  · intro h
    cases h with
    | done hmem => exact absurd hmem (by decide)
    | userAuthFinalize hlt => exact ⟨_, rfl, hlt, rfl⟩

theorem userAuthUpdate_form {a : ParsedAnswer} {w : Bytes} :
    (∃ raw, a = .userAuthUpdate raw ∧ BytesForm publicKeyLength raw w) ↔ AnswerForm .userAuthUpdate a w := by
  constructor
  · rintro ⟨raw, rfl, rfl, hlength⟩
    exact .userAuthUpdate hlength
  · intro h
    cases h with
    | done hmem => exact absurd hmem (by decide)
    | userAuthUpdate hlength => exact ⟨_, rfl, rfl, hlength⟩

theorem serverKeyUpdate_form {a : ParsedAnswer} {w : Bytes} :
    (∃ raw, a = .serverKeyUpdate raw ∧ BytesForm publicKeyLength raw w) ↔ AnswerForm .serverKeyUpdate a w := by
  constructor
  · rintro ⟨raw, rfl, rfl, hlength⟩
    exact .serverKeyUpdate hlength
  · intro h
    cases h with
    | done hmem => exact absurd hmem (by decide)
    | serverKeyUpdate hlength => exact ⟨_, rfl, rfl, hlength⟩

theorem deviceId_form {a : ParsedAnswer} {w : Bytes} :
    (∃ raw, a = .deviceId raw ∧ BytesForm deviceIdLength raw w) ↔ AnswerForm .deviceIdGet a w := by
  constructor
  · rintro ⟨raw, rfl, rfl, hlength⟩
    exact .deviceId hlength
  · intro h
    cases h with
    | done hmem => exact absurd hmem (by decide)
    | deviceId hlength => exact ⟨_, rfl, rfl, hlength⟩

theorem deviceName_form {a : ParsedAnswer} {w : Bytes} :
    (∃ name, a = .deviceName name ∧ StringForm deviceNameMaxLength name w) ↔ AnswerForm .deviceNameGet a w := by
  constructor
  · rintro ⟨name, rfl, hlength, chars, filler, rfl, hchars, rfl⟩
    exact .deviceName hchars hlength
  · intro h
    cases h with
    | done hmem => exact absurd hmem (by decide)
    | deviceName hchars hlength => exact ⟨_, rfl, hlength, _, _, rfl, hchars, rfl⟩

theorem battInfo_form {a : ParsedAnswer} {w : Bytes} :
    (∃ info, a = .battInfo info ∧ AnswerForm .battInfoGet (.battInfo info) w) ↔ AnswerForm .battInfoGet a w := by
  constructor
  · rintro ⟨info, rfl, h⟩
    exact h
  · intro h
    cases h with
    | done hmem => exact absurd hmem (by decide)
    | battInfo hlevel hlow hpercent => exact ⟨_, rfl, .battInfo hlevel hlow hpercent⟩

theorem deviceModel_form {a : ParsedAnswer} {w : Bytes} :
    (∃ model, a = .deviceModel model ∧ AnswerForm .deviceModelGet (.deviceModel model) w) ↔
      AnswerForm .deviceModelGet a w := by
  constructor
  · rintro ⟨model, rfl, h⟩
    exact h
  · intro h
    cases h with
    | done hmem => exact absurd hmem (by decide)
    | deviceModel hraw => exact ⟨_, rfl, .deviceModel hraw⟩

theorem deviceLog_form {a : ParsedAnswer} {w : Bytes} :
    (∃ log, a = .deviceLog log ∧ AnswerForm .deviceLogGet (.deviceLog log) w) ↔ AnswerForm .deviceLogGet a w := by
  constructor
  · rintro ⟨log, rfl, h⟩
    exact h
  · intro h
    cases h with
    | done hmem => exact absurd hmem (by decide)
    | deviceLog hlength => exact ⟨_, rfl, .deviceLog hlength⟩

theorem currentTime_form {a : ParsedAnswer} {w : Bytes} :
    (∃ minutes, a = .currentTime minutes ∧ NumberForm 4 minutes w) ↔ AnswerForm .currentTimeGet a w := by
  constructor
  · rintro ⟨minutes, rfl, hlt, rfl⟩
    exact .currentTime hlt
  · intro h
    cases h with
    | done hmem => exact absurd hmem (by decide)
    | currentTime hlt => exact ⟨_, rfl, hlt, rfl⟩

theorem fingerprintScan_form {a : ParsedAnswer} {w : Bytes} :
    (∃ result, a = .scanResult result ∧ ScanForm result w) ↔ AnswerForm .fingerprintScan a w := by
  constructor
  · rintro ⟨⟨slot, status⟩, rfl, raw, hslot, hraw, hstatus, rfl⟩
    cases hstatus
    exact .fingerprintScan hslot hraw
  · intro h
    cases h with
    | done hmem => exact absurd hmem (by decide)
    | fingerprintScan hslot hraw => exact ⟨_, rfl, _, hslot, hraw, rfl, rfl⟩

theorem scanRfidCode_form {a : ParsedAnswer} {w : Bytes} :
    (∃ result, a = .scanResult result ∧ ScanForm result w) ↔ AnswerForm .scanRfidCode a w := by
  constructor
  · rintro ⟨⟨slot, status⟩, rfl, raw, hslot, hraw, hstatus, rfl⟩
    cases hstatus
    exact .scanRfidCode hslot hraw
  · intro h
    cases h with
    | done hmem => exact absurd hmem (by decide)
    | scanRfidCode hslot hraw => exact ⟨_, rfl, _, hslot, hraw, rfl, rfl⟩

/-- A parser gives an answer if and only if the lock says the command went well
and the payload starts with the answer as it is written. -/
theorem parseAnswer_eq_ok {command : CommandId} {r : Response} {a : ParsedAnswer} :
    parseAnswer command r = .ok a ↔ Succeeded command r ∧ ∃ w, AnswerForm command a w ∧ w <+: r.payload := by
  by_cases hpayload : command ∈ payloadCommands
  · cases command with
    | exchangeKeyPubM => exact parse_iff (reads_take publicKeyLength) .exchangeKeyPubL (fun _ => exchangeKeyPubL_form)
    | userAuthBegin => exact parse_iff (reads_take challengeLength) .userAuthBegin (fun _ => userAuthBegin_form)
    | userAuthFinalize => exact parse_iff reads_uint8 .userAuthFinalize (fun _ => userAuthFinalize_form)
    | userAuthUpdate => exact parse_iff (reads_take publicKeyLength) .userAuthUpdate (fun _ => userAuthUpdate_form)
    | serverKeyUpdate => exact parse_iff (reads_take publicKeyLength) .serverKeyUpdate (fun _ => serverKeyUpdate_form)
    | deviceIdGet => exact parse_iff (reads_take deviceIdLength) .deviceId (fun _ => deviceId_form)
    | deviceNameGet => exact parse_iff (reads_string deviceNameMaxLength) .deviceName (fun _ => deviceName_form)
    | battInfoGet => exact parse_iff reads_battInfo .battInfo (fun _ => battInfo_form)
    | deviceModelGet => exact parse_iff reads_deviceModel .deviceModel (fun _ => deviceModel_form)
    | deviceLogGet => exact parse_iff reads_deviceLog .deviceLog (fun _ => deviceLog_form)
    | currentTimeGet => exact parse_iff reads_uint32 .currentTime (fun _ => currentTime_form)
    | fingerprintScan => exact parse_iff reads_scan .scanResult (fun _ => fingerprintScan_form)
    | scanRfidCode => exact parse_iff reads_scan .scanResult (fun _ => scanRfidCode_form)
    | _ => exact absurd hpayload (by decide)
  · rw [parseAnswer_statusOnly hpayload, checkStatusOnly_eq_ok]
    simp only [answerForm_statusOnly hpayload]
    constructor
    · rintro ⟨hok, hmem, rfl⟩
      exact ⟨hok, [], ⟨hmem, rfl, rfl⟩, List.nil_prefix⟩
    · rintro ⟨hok, _, ⟨hmem, rfl, rfl⟩, -⟩
      exact ⟨hok, hmem, rfl⟩

/-- A command without a parser is refused before the response is looked at. -/
theorem parseAnswer_refusal {command : CommandId} {r : Response} {e : BleError}
    (h : parseAnswer command r = .error e) :
    Refusal command r e ∨ command ∉ payloadCommands ∧ command ∉ statusOnlyResponses := by
  by_cases hpayload : command ∈ payloadCommands
  · left
    cases command with
    | exchangeKeyPubM => exact parseFields_refusal .exchangeKeyPubL h
    | userAuthBegin => exact parseFields_refusal .userAuthBegin h
    | userAuthFinalize => exact parseFields_refusal .userAuthFinalize h
    | userAuthUpdate => exact parseFields_refusal .userAuthUpdate h
    | serverKeyUpdate => exact parseFields_refusal .serverKeyUpdate h
    | deviceIdGet => exact parseFields_refusal .deviceId h
    | deviceNameGet => exact parseFields_refusal .deviceName h
    | battInfoGet => exact parseFields_refusal .battInfo h
    | deviceModelGet => exact parseFields_refusal .deviceModel h
    | deviceLogGet => exact parseFields_refusal .deviceLog h
    | currentTimeGet => exact parseFields_refusal .currentTime h
    | fingerprintScan => exact parseFields_refusal .scanResult h
    | scanRfidCode => exact parseFields_refusal .scanResult h
    | _ => exact absurd hpayload (by decide)
  · by_cases hmem : command ∈ statusOnlyResponses
    · left
      rw [parseAnswer_statusOnly hpayload, checkStatusOnly, if_neg (not_not_intro hmem)] at h
      have hnothing : (fun _ => ParsedAnswer.done) <$> parseFields command (fun b => .ok ((), b)) r = .error e := h
      exact parseFields_refusal (fun _ => .done) hnothing
    · exact .inr ⟨hpayload, hmem⟩

/-! Events. -/

theorem parseLockStatus_eq (r : Response) : parseLockStatus r = Prod.fst <$> lockStatusFields r.payload := by
  unfold parseLockStatus lockStatusFields
  cases readUInt16 r.payload with
  | error e => rfl
  | ok slot =>
    simp only [ok_bind]
    cases readUInt8 slot.2 with
    | error e => rfl
    | ok state =>
      simp only [ok_bind]
      cases requiredMember "LockStateId" [1, 2] state.1 with
      | error e => rfl
      | ok _ =>
        simp only [ok_bind]
        cases readUInt8 state.2 with
        | error e => rfl
        | ok method =>
          simp only [ok_bind]
          cases requiredMember "DoorlockMethodId" [0, 1, 2, 3, 4, 5] method.1 <;> rfl

theorem parseUserAdded_eq (r : Response) : parseUserAdded r = Prod.fst <$> userAddedFields r.payload := by
  unfold parseUserAdded userAddedFields
  cases readUInt16 r.payload with
  | error e => rfl
  | ok slot =>
    simp only [ok_bind]
    cases readUInt8 slot.2 with
    | error e => rfl
    | ok status =>
      simp only [ok_bind]
      cases requiredMember "UserAddedStatusId" [0, 1, 2, 3, 4] status.1 <;> rfl

theorem map_fst_eq_ok {α : Type} {read : Bytes → Except BleProtocolError (α × Bytes)} {form : α → Bytes → Prop}
    (h : Reads read form) {b : Bytes} {x : α} :
    Prod.fst <$> read b = .ok x ↔ ∃ w, form x w ∧ w <+: b := by
  rw [← h.front]
  cases read b with
  | error e => exact iff_of_false (fun h => by cases h) (fun ⟨_, h⟩ => by cases h)
  | ok p =>
    constructor
    · intro hfst
      cases hfst
      exact ⟨p.2, rfl⟩
    · rintro ⟨rest, hp⟩
      cases hp
      rfl

theorem parseEvent_eq_some {r : Response} {event : LockEvent} :
    parseEvent r = .ok (some event) ↔
      r.isEvent = true ∧ r.responseId = event.responseId ∧ ∃ w, EventForm event w ∧ w <+: r.payload := by
  have hlock := map_fst_eq_ok reads_lockStatus (b := r.payload) (x := event)
  have hadded := map_fst_eq_ok reads_userAdded (b := r.payload) (x := event)
  rw [← parseLockStatus_eq] at hlock
  rw [← parseUserAdded_eq] at hadded
  unfold parseEvent
  by_cases hevent : r.isEvent = false
  · simp [hevent]
  · rw [if_neg hevent]
    rw [Bool.not_eq_false] at hevent
    by_cases hid : r.responseId = responseLockStatus
    · rw [if_pos hid]
      simp only [bind_eq_ok, pure_eq_ok, Except.ok.injEq, Option.some.injEq, exists_eq_right, hlock, hevent, hid,
        true_and]
      constructor
      · rintro ⟨w, ⟨hkind, hform⟩, hprefix⟩
        exact ⟨hkind.symm, w, hform, hprefix⟩
      · rintro ⟨hkind, w, hform, hprefix⟩
        exact ⟨w, ⟨hkind.symm, hform⟩, hprefix⟩
    · rw [if_neg hid]
      by_cases hid' : r.responseId = responseUserAdded
      · rw [if_pos hid']
        simp only [bind_eq_ok, pure_eq_ok, Except.ok.injEq, Option.some.injEq, exists_eq_right, hadded, hevent, hid',
          true_and]
        constructor
        · rintro ⟨w, ⟨hkind, hform⟩, hprefix⟩
          exact ⟨hkind.symm, w, hform, hprefix⟩
        · rintro ⟨hkind, w, hform, hprefix⟩
          exact ⟨w, ⟨hkind.symm, hform⟩, hprefix⟩
      · rw [if_neg hid']
        refine iff_of_false (fun h => by cases h) ?_
        rintro ⟨-, hkind, -⟩
        cases event with
        | lockStatus => exact hid hkind
        | userAdded => exact hid' hkind

/-- Whatever its id, an event is taken or refused; anything else is passed over. -/
theorem parseEvent_eq_none {r : Response} :
    parseEvent r = .ok none ↔
      r.isEvent = false ∨ r.responseId ≠ responseLockStatus ∧ r.responseId ≠ responseUserAdded := by
  unfold parseEvent
  by_cases hevent : r.isEvent = false
  · rw [if_pos hevent]
    exact iff_of_true rfl (Or.inl hevent)
  · rw [if_neg hevent]
    by_cases hid : r.responseId = responseLockStatus
    · rw [if_pos hid]
      refine iff_of_false ?_ (by simp [hevent, hid])
      cases parseLockStatus r <;> exact fun h => by cases h
    · rw [if_neg hid]
      by_cases hid' : r.responseId = responseUserAdded
      · rw [if_pos hid']
        refine iff_of_false ?_ (by simp [hevent, hid'])
        cases parseUserAdded r <;> exact fun h => by cases h
      · rw [if_neg hid']
        exact iff_of_true rfl (Or.inr ⟨hid, hid'⟩)

/-- A refused event has one of the two ids, and no event of that id in front. -/
theorem parseEvent_refusal {r : Response} {e : BleProtocolError} (h : parseEvent r = .error e) :
    r.isEvent = true ∧ (r.responseId = responseLockStatus ∨ r.responseId = responseUserAdded) ∧
      ∀ event w, r.responseId = event.responseId → EventForm event w → ¬ w <+: r.payload := by
  have hknown : ¬ (r.isEvent = false ∨ r.responseId ≠ responseLockStatus ∧ r.responseId ≠ responseUserAdded) := by
    intro hnone
    rw [parseEvent_eq_none.mpr hnone] at h
    cases h
  have hevent : r.isEvent = true := by
    by_contra hno
    exact hknown (Or.inl (Bool.eq_false_iff.mpr hno))
  refine ⟨hevent, ?_, ?_⟩
  · by_contra hno
    exact hknown (Or.inr (not_or.mp hno))
  · intro event w hid hform hprefix
    rw [parseEvent_eq_some.mpr ⟨hevent, hid, w, hform, hprefix⟩] at h
    cases h

/-- What the parsers take from a response: an answer that succeeded and an
event, in their forms at the front of the payload; and what they refuse. -/
theorem parsers_read (command : CommandId) (r : Response) :
    (∀ a, parseAnswer command r = .ok a ↔
      Succeeded command r ∧ ∃ w, AnswerForm command a w ∧ w <+: r.payload) ∧
    (∀ e, parseAnswer command r = .error e →
      Refusal command r e ∨ command ∉ payloadCommands ∧ command ∉ statusOnlyResponses) ∧
    (∀ event, parseEvent r = .ok (some event) ↔
      r.isEvent = true ∧ r.responseId = event.responseId ∧ ∃ w, EventForm event w ∧ w <+: r.payload) ∧
    (parseEvent r = .ok none ↔
      r.isEvent = false ∨ r.responseId ≠ responseLockStatus ∧ r.responseId ≠ responseUserAdded) ∧
    (∀ e, parseEvent r = .error e →
      r.isEvent = true ∧ (r.responseId = responseLockStatus ∨ r.responseId = responseUserAdded) ∧
      ∀ event w, r.responseId = event.responseId → EventForm event w → ¬ w <+: r.payload) :=
  ⟨fun _ => parseAnswer_eq_ok, fun _ h => parseAnswer_refusal h, fun _ => parseEvent_eq_some, parseEvent_eq_none,
    fun _ h => parseEvent_refusal h⟩

end OnestiLock
