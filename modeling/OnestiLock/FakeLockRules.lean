import OnestiLock.CipherModes
import OnestiLock.FakeLock

/-! What the lock in software does with each command, and the secrets it
shares with the phone. -/

namespace OnestiLock

variable {prim : Primitives}

/-! Both sides derive one secret. -/

theorem keyPairFromPrivateKey_ok {privateKey : Bytes} {pair : KeyPair}
    (h : keyPairFromPrivateKey prim privateKey = .ok pair) :
    loadPrivateKey prim privateKey = .ok (ofLittleEndian privateKey) ∧
      prim.validScalar (ofLittleEndian privateKey) = true ∧
      pair.publicKey = encodePublicKey (prim.publicNumbers (ofLittleEndian privateKey)) := by
  simp only [keyPairFromPrivateKey, bind_eq_ok, pure_eq_ok, Except.ok.injEq] at h
  obtain ⟨scalar, hload, rfl⟩ := h
  have hl := hload
  unfold loadPrivateKey at hl
  split_ifs at hl with hlen hvalid
  obtain rfl := Except.ok.inj hl
  exact ⟨hload, hvalid, rfl⟩

theorem EcdhLaws.point (laws : EcdhLaws prim) {k : Nat} (hk : prim.validScalar k = true) :
    (ofLittleEndian ((encodePublicKey (prim.publicNumbers k)).take coordinateLength),
      ofLittleEndian ((encodePublicKey (prim.publicNumbers k)).drop coordinateLength)) =
        prim.publicNumbers k := by
  obtain ⟨hx, hy⟩ := laws.coordinates k hk
  have htake : (encodePublicKey (prim.publicNumbers k)).take coordinateLength =
      toLittleEndian (prim.publicNumbers k).1 coordinateLength :=
    List.take_left' (length_toLittleEndian _ _)
  have hdrop : (encodePublicKey (prim.publicNumbers k)).drop coordinateLength =
      toLittleEndian (prim.publicNumbers k).2 coordinateLength :=
    List.drop_left' (length_toLittleEndian _ _)
  rw [htake, hdrop, ofLittleEndian_toLittleEndian hx, ofLittleEndian_toLittleEndian hy]

theorem EcdhLaws.ecdhReversed (laws : EcdhLaws prim) {k : Nat} (hk : prim.validScalar k = true)
    (privateKey : Bytes) :
    ecdhReversed prim privateKey (encodePublicKey (prim.publicNumbers k)) =
      .ok (prim.exchange (ofLittleEndian privateKey) (prim.publicNumbers k)).reverse := by
  simp only [OnestiLock.ecdhReversed, laws.point hk, laws.onCurve k hk, if_true]

theorem EcdhLaws.computeSharedSecret (laws : EcdhLaws prim) {k : Nat} (hk : prim.validScalar k = true)
    {privateKey : Bytes} {pair : KeyPair} (hp : keyPairFromPrivateKey prim privateKey = .ok pair) :
    computeSharedSecret prim privateKey (encodePublicKey (prim.publicNumbers k)) =
      .ok (prim.exchange (ofLittleEndian privateKey) (prim.publicNumbers k)).reverse := by
  have hload : loadPublicKey prim (encodePublicKey (prim.publicNumbers k)) = .ok (prim.publicNumbers k) := by
    simp only [loadPublicKey, encodePublicKey_length, ne_eq, not_true_eq_false, if_false, laws.point hk,
      laws.onCurve k hk, if_true]
  simp [OnestiLock.computeSharedSecret, (keyPairFromPrivateKey_ok hp).1, hload]

theorem EcdhLaws.agree (laws : EcdhLaws prim) {phone lock : Bytes} {phonePair lockPair : KeyPair}
    (hp : keyPairFromPrivateKey prim phone = .ok phonePair)
    (hl : keyPairFromPrivateKey prim lock = .ok lockPair) : ∃ secret,
      secret.length = sharedSecretLength ∧ OnestiLock.computeSharedSecret prim phone lockPair.publicKey = .ok secret ∧
        OnestiLock.ecdhReversed prim lock phonePair.publicKey = .ok secret := by
  obtain ⟨-, hpv, hpk⟩ := keyPairFromPrivateKey_ok hp
  obtain ⟨-, hlv, hlk⟩ := keyPairFromPrivateKey_ok hl
  refine ⟨(prim.exchange (ofLittleEndian phone) (prim.publicNumbers (ofLittleEndian lock))).reverse, ?_, ?_, ?_⟩
  · rw [List.length_reverse, prim.exchange_length]
  · rw [hlk, laws.computeSharedSecret hlv hp]
  · rw [hpk, laws.ecdhReversed hpv, laws.commutes _ _ hpv hlv]

theorem answerOwnerChallenge_ok {challenge key iv : Bytes} (hc : challenge.length = challengeLength)
    (hk : key.length = aesKeyLength) (hi : iv.length = aesBlockSize) :
    ∃ given, answerOwnerChallenge prim challenge key iv = .ok given ∧ given.length = challengeLength := by
  have hb : challenge.length = aesBlockSize := hc
  let aes : Aes128Cbc := ⟨key, iv, false, hk, hi⟩
  have hnew : Aes128Cbc.new key iv false = .ok aes := by simp [Aes128Cbc.new, hk, hi, aes]
  have hplain : aes.decrypt prim challenge = .ok (xorBytes (prim.decryptBlock key challenge) iv) := by
    have hmod : challenge.length % aesBlockSize = 0 := by simp [hb, aesBlockSize]
    simp [Aes128Cbc.decrypt, Aes128Cbc.run, Aes128Cbc.cbc, hmod, splitBlocks_block hb, cbcDecrypt, aes]
  have hlen : (bitInvert (xorBytes (prim.decryptBlock key challenge) iv)).length = aesBlockSize := by
    rw [bitInvert, List.length_map]
    exact xorBytes_length (prim.decryptBlock_length _ _ hb) hi
  refine ⟨aes.encrypt prim (bitInvert (xorBytes (prim.decryptBlock key challenge) iv)), ?_, ?_⟩
  · simp [answerOwnerChallenge, hc, hnew, hplain]
  · simp only [Aes128Cbc.encrypt, zeroPad_block hlen, Aes128Cbc.run, Aes128Cbc.cbc, splitBlocks_block hlen,
      cbcEncrypt, List.append_nil, aes]
    exact prim.encryptBlock_length _ _ (xorBytes_length hlen hi)

theorem FakeLock.expectedAnswer_eq (lock : FakeLock prim) (iv : Bytes) :
    lock.expectedAnswer iv = answerOwnerChallenge prim lock.challenge lock.ownerKey iv := by
  simp only [expectedAnswer, answerOwnerChallenge, lock.challenge_length, ne_eq, not_true_eq_false, if_false,
    pure_eq_ok]
  rfl

/-! What the lock does with a command. -/

theorem readBytes_all {n : Nat} {xs : Bytes} (h : xs.length = n) : readBytes n xs = .ok (xs, []) := by
  have hr := readBytes_append xs []
  rwa [List.append_nil, h] at hr

theorem parseBytes_answer (command : CommandId) (ref : Nat) {payload : Bytes} {count : Nat}
    (h : payload.length = count) :
    parseBytes command count ⟨command.value, ref, statusSuccess, payload⟩ = .ok payload := by
  have hok : Response.ok ⟨command.value, ref, statusSuccess, payload⟩ = true := by simp [Response.ok]
  simp [parseBytes, responseReader, expectedResponseId, Response.raiseForStatus, hok, readBytes_all h,
    liftProtocol]

theorem checkAnswer_success (commandId : CommandId) (ref : Nat) (payload : Bytes) :
    checkAnswer commandId ⟨commandId.value, ref, statusSuccess, payload⟩ =
      .ok ⟨commandId.value, ref, statusSuccess, payload⟩ := by
  simp [checkAnswer, Response.raiseForStatus, Response.ok, expectedResponseId]

theorem checkAnswer_ok {commandId : CommandId} {response r : Response}
    (h : checkAnswer commandId response = .ok r) : r = response ∧ response.status = statusSuccess := by
  simp only [checkAnswer, bind_eq_ok] at h
  obtain ⟨u, hstatus, h⟩ := h
  have hok : response.ok = true := by
    by_contra hok
    simp [Response.raiseForStatus, hok] at hstatus
  refine ⟨?_, by simpa [Response.ok] using hok⟩
  by_cases hid : response.responseId = expectedResponseId commandId
  · simpa [hid, eq_comm] using h
  · simp [hid] at h

namespace Scene

variable {s s' : Scene prim} {command : CommandPayload}

/-- A command did nothing, or the lock carried it out. -/
theorem send_cases {fate : Fate} {reply : Except Exn Response} (h : (reply, s') = s.send command fate) :
    s'.saved = s.saved ∧ s'.session.keys = s.session.keys ∧
      ((s'.lock = s.lock ∧ s'.transport = s.transport ∧ ∃ x, reply = .error x) ∨
        ∃ response, s.deliver command = .ok (s'.lock, s'.transport, response) ∧
          ∀ r, reply = .ok r → r = response ∧ response.status = statusSuccess) := by
  unfold send at h
  simp only at h
  split_ifs at h with hf
  · obtain ⟨rfl, rfl⟩ := Prod.mk.inj h
    exact ⟨rfl, rfl, .inl ⟨rfl, rfl, _, rfl⟩⟩
  · split at h
    · obtain ⟨rfl, rfl⟩ := Prod.mk.inj h
      exact ⟨rfl, rfl, .inl ⟨rfl, rfl, _, rfl⟩⟩
    · obtain ⟨rfl, rfl⟩ := Prod.mk.inj h
      exact ⟨rfl, rfl, .inl ⟨rfl, rfl, _, rfl⟩⟩
    · rename_i e lock transport response hd
      obtain ⟨rfl, rfl⟩ := Prod.mk.inj h
      exact ⟨rfl, rfl, .inr ⟨response, hd, by simp⟩⟩
    · obtain ⟨rfl, rfl⟩ := Prod.mk.inj h
      exact ⟨rfl, rfl, .inl ⟨rfl, rfl, _, rfl⟩⟩
    · rename_i lock transport response hd
      obtain ⟨rfl, rfl⟩ := Prod.mk.inj h
      refine ⟨rfl, rfl, .inr ⟨response, hd, ?_⟩⟩
      intro r hr
      cases hc : checkAnswer command.commandId response with
      | error b => simp [hc] at hr
      | ok a =>
        rw [hc, liftBle_ok, Except.ok.injEq] at hr
        exact checkAnswer_ok (hr ▸ hc)

/-- A command that needs a login, and what its handler made of it. -/
theorem deliver_closed {lock : FakeLock prim} {transport : FakeTransport} {response : Response}
    (handler : FakeLock prim → FakeTransport → Command → Handled prim)
    (hopen : command.commandId ∉ FakeLock.openCommands)
    (hh : ∀ received : Command, received.commandId = command.commandId → s.transport.authenticated = true →
      s.lock.handle s.transport received = handler s.lock s.transport received)
    (h : s.deliver command = .ok (lock, transport, response)) :
    (lock = s.lock ∧ transport = s.transport ∧ response.status = statusSecurityError) ∨
      ∃ ref, handler s.lock s.transport (command.withRef ref) = .ok (lock, transport, response) := by
  by_cases ha : s.transport.authenticated = true
  · right
    exact ⟨_, (hh (command.withRef s.session.refs.next.1) rfl ha).symm.trans h⟩
  · left
    have hid : (command.withRef s.session.refs.next.1).commandId ∉ FakeLock.openCommands := hopen
    simp only [deliver, FakeLock.handle, hid, not_false_eq_true, true_and, ha, if_true, Except.ok.injEq,
      Prod.mk.injEq] at h
    obtain ⟨rfl, rfl, rfl⟩ := h
    exact ⟨rfl, rfl, rfl⟩

theorem deliver_begin (s : Scene prim) {user : UInt8} {deviceId : Bytes}
    (hlen : deviceId.length = deviceIdLength) :
    s.deliver ⟨.userAuthBegin, user :: deviceId⟩ = .ok (s.lock,
      { s.transport with
        authenticated := false
        begunDeviceId := if user.toNat = 0 then some deviceId else none },
      ⟨CommandId.userAuthBegin.value, s.session.refs.next.1, statusSuccess, s.lock.challenge⟩) := by
  simp [deliver, FakeLock.handle, FakeLock.openCommands, FakeLock.onUserAuthBegin, CommandPayload.withRef,
    readBytes_all hlen, answer]

theorem deliver_finalize {command : CommandPayload} {lock : FakeLock prim} {transport : FakeTransport}
    {response : Response} (hid : command.commandId = .userAuthFinalize)
    (h : s.deliver command = .ok (lock, transport, response)) :
    lock = s.lock ∧ (response.status = statusSuccess → s.transport.begunDeviceId = some s.lock.deviceId) := by
  simp only [deliver, FakeLock.handle, CommandPayload.withRef, hid, FakeLock.openCommands, List.mem_cons,
    reduceCtorEq, true_or, or_true, not_true_eq_false, false_and, if_false, FakeLock.onUserAuthFinalize,
    bind_eq_ok] at h
  obtain ⟨⟨given, rest⟩, -, h⟩ := h
  cases hiv : s.transport.linkIv with
  | none => simp [hiv] at h
  | some iv =>
    simp only [hiv, bind_eq_ok] at h
    obtain ⟨expected, -, h⟩ := h
    split_ifs at h with hrefused
    · simp only [pure_eq_ok, Except.ok.injEq, Prod.mk.injEq] at h
      obtain ⟨rfl, -, rfl⟩ := h
      exact ⟨rfl, fun hs => absurd hs (by simp [answer, statusSecurityError, statusSuccess])⟩
    · simp only [pure_eq_ok, Except.ok.injEq, Prod.mk.injEq] at h
      obtain ⟨rfl, -, -⟩ := h
      rw [not_or, not_ne_iff] at hrefused
      exact ⟨rfl, fun _ => hrefused.1⟩

theorem userAuthUpdate_ok {publicKey : Bytes} (h : publicKey.length = publicKeyLength) :
    userAuthUpdate defaultAdminUserId ownerCredentials publicKey =
      .ok ⟨.userAuthUpdate, 0 :: 0 :: publicKey⟩ := by
  simp only [userAuthUpdate, checkLength, require, h, if_true, ok_bind]
  rfl

theorem deliver_update (laws : EcdhLaws prim) {pair : KeyPair} {lock : FakeLock prim}
    {transport : FakeTransport} {response : Response}
    (hpair : keyPairFromPrivateKey prim pair.privateKey = .ok pair)
    (h : s.deliver ⟨.userAuthUpdate, 0 :: 0 :: pair.publicKey⟩ = .ok (lock, transport, response)) :
    lock.deviceId = s.lock.deviceId ∧ (response.status = statusSuccess → ∃ ref lockKey,
      response = ⟨CommandId.userAuthUpdate.value, ref, statusSuccess, lockKey⟩ ∧
        lockKey.length = publicKeyLength ∧ deriveOwnerKey prim pair.privateKey lockKey = .ok lock.ownerKey) := by
  obtain ⟨lockPair, hlock⟩ := s.lock.updatePrivateKey_valid
  obtain ⟨secret, -, hours, htheirs⟩ := laws.agree hpair hlock
  have hlen := keyPairFromPrivateKey_publicKey_length hpair
  refine (deliver_closed FakeLock.onUserAuthUpdate (by simp [FakeLock.openCommands]) ?_ h).elim ?_ ?_
  · intro received hr ha
    simp [FakeLock.handle, hr, ha]
  · rintro ⟨rfl, -, hstatus⟩
    refine ⟨rfl, fun hs => ?_⟩
    rw [hs] at hstatus
    exact absurd hstatus (by decide)
  · rintro ⟨ref, hh⟩
    simp only [FakeLock.onUserAuthUpdate, CommandPayload.withRef, readUInt8_cons, readBytes_all hlen, parsed_ok,
      ok_bind, htheirs, publicKeyOf, hlock, validated_ok, pure_eq_ok, Except.ok.injEq, Prod.mk.injEq] at hh
    obtain ⟨rfl, -, rfl⟩ := hh
    refine ⟨rfl, fun _ => ⟨ref, lockPair.publicKey, rfl, keyPairFromPrivateKey_publicKey_length hlock, ?_⟩⟩
    simp only [deriveOwnerKey, hours, ok_bind, pure_eq_ok]
    rfl

/-! An undisturbed exchange. -/

theorem availability_enrollment {command : CommandPayload}
    (h : command.commandId ∈ [.userAuthBegin, .userAuthFinalize, .userAuthUpdate, .deviceIdSet,
      .currentTimeSet, .serverKeyUpdate, .deviceNameSet]) (firmware : FirmwareVersion) (model : Option Nat) :
    (availability command firmware model).isAvailable = true := by
  obtain ⟨commandId, data⟩ := command
  simp only [List.mem_cons, List.not_mem_nil, or_false] at h
  rcases h with rfl | rfl | rfl | rfl | rfl | rfl | rfl <;>
    simp [availability, isMasterPin, firmwareGated, DeviceFeature.isAvailable]

theorem send_answered {lock : FakeLock prim} {transport : FakeTransport} {ref : Nat} {payload : Bytes}
    (hf : (availability command s.session.firmware s.session.model).isAvailable = true)
    (hd : s.deliver command = .ok (lock, transport, ⟨command.commandId.value, ref, statusSuccess, payload⟩)) :
    s.send command .answered =
      (.ok ⟨command.commandId.value, ref, statusSuccess, payload⟩, s.after lock transport) := by
  simp [send, hf, hd, checkAnswer_success]

theorem send_refused {lock : FakeLock prim} {transport : FakeTransport} {ref : Nat} {payload : Bytes}
    (hf : (availability command s.session.firmware s.session.model).isAvailable = true)
    (hd : s.deliver command = .ok (lock, transport, ⟨command.commandId.value, ref, statusSecurityError, payload⟩)) :
    s.send command .answered =
      (.error (.ble (.operation statusSecurityError command.commandId.value)), s.after lock transport) := by
  have hok : Response.ok ⟨command.commandId.value, ref, statusSecurityError, payload⟩ = false := by
    simp [Response.ok, statusSecurityError, statusSuccess]
  have hstatus : errorForStatus statusSecurityError command.commandId.value =
      .operation statusSecurityError command.commandId.value := by
    simp [errorForStatus, statusSecurityError, statusSuccess]
  simp [send, hf, hd, checkAnswer, Response.raiseForStatus, hok, hstatus]

/-- The right answer logs in when the login names the device id on the lock. -/
theorem deliver_answer {iv given deviceId : Bytes} (hlen : given.length = challengeLength)
    (hiv : s.transport.linkIv = some iv) (hg : s.lock.expectedAnswer iv = .ok given)
    (hb : s.transport.begunDeviceId = some deviceId) :
    s.deliver ⟨.userAuthFinalize, given⟩ =
      if deviceId = s.lock.deviceId then .ok (s.lock, { s.transport with authenticated := true },
        ⟨CommandId.userAuthFinalize.value, s.session.refs.next.1, statusSuccess, [1]⟩)
      else .ok (s.lock, s.transport,
        ⟨CommandId.userAuthFinalize.value, s.session.refs.next.1, statusSecurityError, []⟩) := by
  simp only [deliver, FakeLock.handle, FakeLock.openCommands, CommandPayload.withRef, List.mem_cons,
    reduceCtorEq, true_or, or_true, not_true_eq_false, false_and, if_false, FakeLock.onUserAuthFinalize,
    readBytes_all hlen, parsed_ok, ok_bind, hiv, hg, hb]
  by_cases hd : deviceId = s.lock.deviceId
  · simp [hd, answer]
  · simp [hd, answer]

theorem readString_name {name : String} {data : Bytes} (h : writeString [] name deviceNameMaxLength = .ok data) :
    ∃ text, readString deviceNameMaxLength data = .ok text := by
  unfold writeString at h
  split_ifs at h with ha hl
  obtain rfl := Except.ok.inj h
  have hlen : (encodeAscii name).length = name.length := by
    rw [encodeAscii, List.length_map, String.length_toList]
  have htotal : ([] ++ (encodeAscii name ++ List.replicate (deviceNameMaxLength - name.length) (0 : UInt8))).length =
      deviceNameMaxLength := by
    simp only [List.nil_append, List.length_append, hlen, List.length_replicate]
    omega
  have hzero : ([] ++ (encodeAscii name ++ List.replicate (deviceNameMaxLength - name.length) (0 : UInt8))).contains 0 =
      true := by
    simp only [List.nil_append, List.contains_iff_mem, List.mem_append, List.mem_replicate]
    exact .inr (by simpa using by omega)
  have hread := readBytes_all htotal
  rw [readBytes] at hread
  simp only [readString, hread, ok_bind, hzero, if_true]
  exact ⟨_, rfl⟩

theorem deliver_step {e : Enrollment prim} {step : EnrollmentStep} (hauth : s.transport.authenticated = true)
    (hc : StepCommand e step command) : ∃ lock payload,
      s.deliver command = .ok (lock, s.transport,
        ⟨command.commandId.value, s.session.refs.next.1, statusSuccess, payload⟩) ∧
      (step = .serverKey → payload.length = publicKeyLength) := by
  have hname : deviceNameSet e.name = .ok command → ∃ lock payload,
      s.deliver command = .ok (lock, s.transport,
        ⟨command.commandId.value, s.session.refs.next.1, statusSuccess, payload⟩) := by
    intro hcommand
    simp only [deviceNameSet, bind_eq_ok, pure_eq_ok, Except.ok.injEq] at hcommand
    obtain ⟨data, hdata, rfl⟩ := hcommand
    obtain ⟨text, htext⟩ := readString_name hdata
    refine ⟨{ s.lock with name := text.1 }, [], ?_⟩
    simp [deliver, FakeLock.handle, hauth, FakeLock.onDeviceNameSet, CommandPayload.withRef, htext, answer]
  cases step with
  | ownerKey =>
    obtain ⟨lock, payload, hd⟩ := hname hc
    exact ⟨lock, payload, hd, by simp⟩
  | deviceId =>
    obtain rfl := Except.ok.inj ((deviceIdSet_ok e.valid.deviceId.1).symm.trans hc)
    refine ⟨{ s.lock with deviceId := e.deviceId }, [], ?_, by simp⟩
    simp [deliver, FakeLock.handle, hauth, FakeLock.onDeviceIdSet, CommandPayload.withRef,
      readBytes_all e.valid.deviceId.1, answer]
  | clock =>
    obtain ⟨moment, hm⟩ := hc
    simp only [clockCommand, bind_eq_ok] at hm
    obtain ⟨time, ht, hm⟩ := hm
    rw [currentTimeSet_ok (toLockTime_lt ht), validated_ok, Except.ok.injEq] at hm
    subst hm
    have hread := take_append (toLittleEndian time.toNat 4) []
    rw [List.append_nil, length_toLittleEndian] at hread
    refine ⟨{ s.lock with clock := some (ofLittleEndian (toLittleEndian time.toNat 4)) }, [], ?_, by simp⟩
    simp [deliver, FakeLock.handle, hauth, FakeLock.onCurrentTimeSet, CommandPayload.withRef, readUInt32, hread,
      answer]
  | serverKey =>
    obtain ⟨key, hkey, hcommand⟩ := hc
    obtain ⟨key', hkey', hlen⟩ := e.serverPublicKey_ok
    obtain rfl := Except.ok.inj (hkey'.symm.trans hkey)
    obtain rfl := Except.ok.inj ((serverKeyUpdate_ok hlen).symm.trans hcommand)
    obtain ⟨lockPair, hlock⟩ := s.lock.serverPrivateKey_valid
    refine ⟨{ s.lock with serverPublicKey := some key' }, lockPair.publicKey, ?_,
      fun _ => keyPairFromPrivateKey_publicKey_length hlock⟩
    simp [deliver, FakeLock.handle, hauth, FakeLock.onServerKeyUpdate, CommandPayload.withRef,
      readBytes_all hlen, publicKeyOf, hlock, answer]
  | name =>
    obtain ⟨lock, payload, hd⟩ := hname hc
    exact ⟨lock, payload, hd, by simp⟩

end Scene

end OnestiLock
