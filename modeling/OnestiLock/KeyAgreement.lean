import OnestiLock.CipherLaws
import OnestiLock.FakeLockRules

/-! The key exchange and the owner login work out on both ends: each side reads
the other's public key as the point it was made from, both derive one secret,
and the answer to a challenge is the one the lock compares with. -/

namespace OnestiLock

variable {prim : Primitives}

/-- A private scalar the curve takes, in wire encoding. -/
def ValidPrivateKey (prim : Primitives) (privateKey : Bytes) : Prop :=
  privateKey.length = privateKeyLength ∧ prim.validScalar (ofLittleEndian privateKey) = true

theorem ValidPrivateKey.keyPair {privateKey : Bytes} (h : ValidPrivateKey prim privateKey) :
    keyPairFromPrivateKey prim privateKey =
      .ok ⟨privateKey, encodePublicKey (prim.publicNumbers (ofLittleEndian privateKey))⟩ := by
  obtain ⟨hlen, hvalid⟩ := h
  have hload : loadPrivateKey prim privateKey = .ok (ofLittleEndian privateKey) := by
    simp [loadPrivateKey, hlen, hvalid]
  have hback : toLittleEndian (ofLittleEndian privateKey) privateKeyLength = privateKey := by
    rw [← hlen, toLittleEndian_ofLittleEndian]
  simp only [keyPairFromPrivateKey, hload, ok_bind, OnestiLock.keyPair, hback, pure_eq_ok]

theorem loadPublicKey_encodePublicKey {point : Nat × Nat} (hcurve : prim.onCurve point = true)
    (hx : point.1 < 2 ^ 256) (hy : point.2 < 2 ^ 256) :
    loadPublicKey prim (encodePublicKey point) = .ok point := by
  have htake : (encodePublicKey point).take coordinateLength = toLittleEndian point.1 coordinateLength :=
    List.take_left' (length_toLittleEndian _ _)
  have hdrop : (encodePublicKey point).drop coordinateLength = toLittleEndian point.2 coordinateLength :=
    List.drop_left' (length_toLittleEndian _ _)
  have hpoint : (ofLittleEndian ((encodePublicKey point).take coordinateLength),
      ofLittleEndian ((encodePublicKey point).drop coordinateLength)) = point := by
    rw [htake, hdrop, ofLittleEndian_toLittleEndian hx, ofLittleEndian_toLittleEndian hy]
  simp only [loadPublicKey, encodePublicKey_length, ne_eq, not_true_eq_false, if_false, hpoint, hcurve,
    if_true]

/-! What each side makes of one secret. -/

theorem fromSharedSecret_ok {secret : Bytes} (h : secret.length = sharedSecretLength) : ∃ keys,
    LinkKeys.fromSharedSecret secret = .ok keys ∧ keys.key = secret.take aesKeyLength ∧
      keys.iv = secret.drop aesKeyLength := by
  simp [LinkKeys.fromSharedSecret, h]

theorem deriveLinkKeys_ok {privateKey publicKey secret : Bytes}
    (hsecret : computeSharedSecret prim privateKey publicKey = .ok secret) {keys : LinkKeys}
    (hkeys : LinkKeys.fromSharedSecret secret = .ok keys) :
    deriveLinkKeys prim privateKey publicKey = .ok keys := by
  simp only [deriveLinkKeys, hsecret, ok_bind, hkeys, validated_ok]

theorem deriveOwnerKey_eq {privateKey publicKey secret : Bytes}
    (hsecret : computeSharedSecret prim privateKey publicKey = .ok secret) :
    deriveOwnerKey prim privateKey publicKey = .ok (secret.take aesKeyLength) := by
  simp only [deriveOwnerKey, hsecret, ok_bind, pure_eq_ok]

/-! The challenge. -/

theorem bitInvert_length (data : Bytes) : (bitInvert data).length = data.length := List.length_map _

theorem bitInvert_bitInvert (data : Bytes) : bitInvert (bitInvert data) = data := by
  induction data with
  | nil => rfl
  | cons b data ih =>
    have hb : (b ^^^ 0xFF) ^^^ 0xFF = b := by rw [UInt8.xor_assoc, UInt8.xor_self, UInt8.xor_zero]
    simp only [bitInvert, List.map_cons, List.map_map, List.cons.injEq] at ih ⊢
    exact ⟨hb, ih⟩

theorem answerOwnerChallenge_eq (hinverse : prim.BlockInverse) {challenge key iv : Bytes}
    (hc : challenge.length = challengeLength) (hk : key.length = aesKeyLength)
    (hi : iv.length = aesBlockSize) : ∃ plain, plain.length = aesBlockSize ∧
      (⟨key, iv, false, hk, hi⟩ : Aes128Cbc).decrypt prim challenge = .ok plain ∧
      answerOwnerChallenge prim challenge key iv =
        .ok ((⟨key, iv, false, hk, hi⟩ : Aes128Cbc).encrypt prim (bitInvert plain)) := by
  have hnew : Aes128Cbc.new key iv false = .ok ⟨key, iv, false, hk, hi⟩ := by simp [Aes128Cbc.new, hk, hi]
  have hwhole : aesBlockSize ∣ challenge.length := ⟨1, hc⟩
  obtain ⟨plain, hplain, hlen, -⟩ :=
    Aes128Cbc.encrypt_decrypt ⟨key, iv, false, hk, hi⟩ hinverse hwhole
  refine ⟨plain, hlen.trans hc, hplain, ?_⟩
  simp only [answerOwnerChallenge, hc, ne_eq, not_true_eq_false, if_false, hnew, validated_ok, hplain,
    parsed_ok, ok_bind, pure_eq_ok]

theorem Aes128Cbc.decrypt_encrypt_block (hinverse : prim.BlockInverse) (aes : Aes128Cbc) {block : Bytes}
    (h : block.length = aesBlockSize) : aes.decrypt prim (aes.encrypt prim block) = .ok block := by
  rw [aes.decrypt_encrypt hinverse, zeroPad_block h]

theorem Aes128Cbc.encrypt_of_decrypt (hinverse : prim.BlockInverse) (aes : Aes128Cbc)
    {ciphertext plain : Bytes} (hc : ciphertext.length = aesBlockSize)
    (h : aes.decrypt prim ciphertext = .ok plain) : aes.encrypt prim plain = ciphertext := by
  obtain ⟨found, hfound, -, hback⟩ := aes.encrypt_decrypt hinverse ⟨1, hc⟩
  obtain rfl : found = plain := Except.ok.inj (hfound.symm.trans h)
  exact hback

theorem answerOwnerChallenge_injective (hinverse : prim.BlockInverse) {key iv : Bytes}
    (hk : key.length = aesKeyLength) (hi : iv.length = aesBlockSize) {one two : Bytes}
    (h₁ : one.length = challengeLength) (h₂ : two.length = challengeLength)
    (h : answerOwnerChallenge prim one key iv = answerOwnerChallenge prim two key iv) : one = two := by
  let aes : Aes128Cbc := ⟨key, iv, false, hk, hi⟩
  obtain ⟨p, hp, hdp, hap⟩ := answerOwnerChallenge_eq hinverse h₁ hk hi
  obtain ⟨q, hq, hdq, haq⟩ := answerOwnerChallenge_eq hinverse h₂ hk hi
  have hsame : aes.encrypt prim (bitInvert p) = aes.encrypt prim (bitInvert q) :=
    Except.ok.inj (hap.symm.trans (h.trans haq))
  have hinv : bitInvert p = bitInvert q := by
    have hp' := aes.decrypt_encrypt_block hinverse ((bitInvert_length p).trans hp)
    have hq' := aes.decrypt_encrypt_block hinverse ((bitInvert_length q).trans hq)
    rw [hsame] at hp'
    exact Except.ok.inj (hp'.symm.trans hq')
  have hpq : p = q := by rw [← bitInvert_bitInvert p, hinv, bitInvert_bitInvert]
  calc one = aes.encrypt prim p := (aes.encrypt_of_decrypt hinverse h₁ hdp).symm
    _ = aes.encrypt prim q := by rw [hpq]
    _ = two := aes.encrypt_of_decrypt hinverse h₂ hdq

theorem FakeLock.onUserAuthFinalize_ok {lock : FakeLock prim} {transport : FakeTransport}
    {received : Command} {iv : Bytes} (hiv : transport.linkIv = some iv)
    (hbegun : transport.begunDeviceId = some lock.deviceId) (hlen : received.payload.length = challengeLength)
    (hanswer : answerOwnerChallenge prim lock.challenge lock.ownerKey iv = .ok received.payload) :
    lock.onUserAuthFinalize transport received =
      .ok (lock, { transport with authenticated := true }, answer received statusSuccess [1]) := by
  have hexpected := (lock.expectedAnswer_eq iv).trans hanswer
  simp [onUserAuthFinalize, readBytes_all hlen, hiv, hexpected, hbegun]

/-- Key agreement and login, on the phone's end and the lock's. -/
theorem exchange_agrees (prim : Primitives) (laws : EcdhLaws prim) (hinverse : prim.BlockInverse) :
    (∀ point, prim.onCurve point = true → point.1 < 2 ^ 256 → point.2 < 2 ^ 256 →
      loadPublicKey prim (encodePublicKey point) = .ok point) ∧
    (∀ a b, ValidPrivateKey prim a → ValidPrivateKey prim b → ∃ pairA pairB secret keys,
      keyPairFromPrivateKey prim a = .ok pairA ∧ keyPairFromPrivateKey prim b = .ok pairB ∧
      pairA.privateKey = a ∧ pairB.privateKey = b ∧
      loadPublicKey prim pairA.publicKey = .ok (prim.publicNumbers (ofLittleEndian a)) ∧
      loadPublicKey prim pairB.publicKey = .ok (prim.publicNumbers (ofLittleEndian b)) ∧
      secret = (prim.exchange (ofLittleEndian a) (prim.publicNumbers (ofLittleEndian b))).reverse ∧
      keys.key = secret.take aesKeyLength ∧ keys.iv = secret.drop aesKeyLength ∧
      deriveLinkKeys prim a pairB.publicKey = .ok keys ∧ deriveLinkKeys prim b pairA.publicKey = .ok keys ∧
      deriveOwnerKey prim a pairB.publicKey = .ok (secret.take aesKeyLength) ∧
      deriveOwnerKey prim b pairA.publicKey = .ok (secret.take aesKeyLength) ∧
      ecdhReversed prim b pairA.publicKey = .ok secret) ∧
    ∀ ownerKey linkIv : Bytes, ownerKey.length = aesKeyLength → linkIv.length = aesBlockSize →
      (∀ challenge : Bytes, challenge.length = challengeLength → ∃ cipher plain given,
        Aes128Cbc.new ownerKey linkIv false = .ok cipher ∧ cipher.decrypt prim challenge = .ok plain ∧
        answerOwnerChallenge prim challenge ownerKey linkIv = .ok given ∧
        given = cipher.encrypt prim (bitInvert plain) ∧ cipher.decrypt prim given = .ok (bitInvert plain) ∧
        ∀ (lock : FakeLock prim) (transport : FakeTransport) (received : Command),
          lock.challenge = challenge → lock.ownerKey = ownerKey → transport.linkIv = some linkIv →
          transport.begunDeviceId = some lock.deviceId → received.payload = given →
          lock.onUserAuthFinalize transport received =
            .ok (lock, { transport with authenticated := true }, answer received statusSuccess [1])) ∧
      ∀ one two : Bytes, one.length = challengeLength → two.length = challengeLength → one ≠ two →
        answerOwnerChallenge prim one ownerKey linkIv ≠ answerOwnerChallenge prim two ownerKey linkIv := by
  have hpoint : ∀ point, prim.onCurve point = true → point.1 < 2 ^ 256 → point.2 < 2 ^ 256 →
      loadPublicKey prim (encodePublicKey point) = .ok point :=
    fun point hcurve hx hy => loadPublicKey_encodePublicKey hcurve hx hy
  refine ⟨hpoint, ?_, ?_⟩
  · intro a b ha hb
    have hown : ∀ k, prim.validScalar k = true →
        loadPublicKey prim (encodePublicKey (prim.publicNumbers k)) = .ok (prim.publicNumbers k) := by
      intro k hk
      obtain ⟨hx, hy⟩ := laws.coordinates k hk
      exact hpoint _ (laws.onCurve k hk) hx hy
    have hsecret : (prim.exchange (ofLittleEndian a) (prim.publicNumbers (ofLittleEndian b))).reverse.length =
        sharedSecretLength := by
      rw [List.length_reverse, prim.exchange_length]
    obtain ⟨keys, hkeys, hkey, hiv⟩ := fromSharedSecret_ok hsecret
    have hab := laws.computeSharedSecret hb.2 ha.keyPair
    have hba := laws.computeSharedSecret ha.2 hb.keyPair
    rw [← laws.commutes _ _ ha.2 hb.2] at hba
    have hlock := laws.ecdhReversed ha.2 b
    rw [← laws.commutes _ _ ha.2 hb.2] at hlock
    exact ⟨_, _, _, keys, ha.keyPair, hb.keyPair, rfl, rfl, hown _ ha.2, hown _ hb.2, rfl, hkey, hiv,
      deriveLinkKeys_ok hab hkeys, deriveLinkKeys_ok hba hkeys, deriveOwnerKey_eq hab, deriveOwnerKey_eq hba,
      hlock⟩
  · intro ownerKey linkIv hk hi
    refine ⟨?_, ?_⟩
    · intro challenge hc
      obtain ⟨plain, hlen, hplain, hgiven⟩ := answerOwnerChallenge_eq hinverse hc hk hi
      have hanswer : ∃ given, answerOwnerChallenge prim challenge ownerKey linkIv = .ok given ∧
          given.length = challengeLength := answerOwnerChallenge_ok hc hk hi
      obtain ⟨given, hg, hglen⟩ := hanswer
      have hnew : Aes128Cbc.new ownerKey linkIv false = .ok ⟨ownerKey, linkIv, false, hk, hi⟩ := by
        simp [Aes128Cbc.new, hk, hi]
      refine ⟨_, plain, _, hnew, hplain, hgiven, rfl, ?_, ?_⟩
      · exact Aes128Cbc.decrypt_encrypt_block hinverse _ ((bitInvert_length plain).trans hlen)
      · rintro lock transport received rfl rfl hiv hbegun hpayload
        rw [hgiven] at hg
        have hread : received.payload.length = challengeLength := by
          rw [hpayload, Except.ok.inj hg, hglen]
        exact lock.onUserAuthFinalize_ok hiv hbegun hread (hpayload ▸ hgiven)
    · intro one two h₁ h₂ hne h
      exact hne (answerOwnerChallenge_injective hinverse hk hi h₁ h₂ h)

/-! An exchange between the private scalars 1 and 2, and a login with an owner key
of zeros, on a challenge that decrypts to zeros. -/

def doubled : Nat × Nat :=
  (0x7CF27B188D034F7E8A52380304B51AC3C08969E277F21B35A60B48FC47669978,
    0x07775510DB8ED040293D9AC69F7430DBBA7DADE63CE982299E04B79D227873D1)

def quadrupled : Nat × Nat :=
  (0xE2534A3532D08FBBA02DDE659EE62BD0031FE2DB785596EF509302446B030852,
    0xE0F1575A4C633CC719DFEE5FDA862D764EFC96C3F30EE0055C42C23F184ED8C6)

/-- The multiples of the generator that the scalars 1 and 2 lead to. -/
def multiple (scalar : Nat) : Nat × Nat :=
  if scalar = 1 then generator else if scalar = 2 then doubled else quadrupled

def zerosSecret : Bytes :=
  [0x66, 0xE9, 0x4B, 0xD4, 0xEF, 0x8A, 0x2C, 0x3B, 0x88, 0x4C, 0xFA, 0x59, 0xCA, 0x34, 0x2B, 0x2E]

def onesSecret : Bytes :=
  [0x3F, 0x5B, 0x8C, 0xC9, 0xEA, 0x85, 0x5A, 0x0A, 0xFA, 0x73, 0x47, 0xD2, 0x3E, 0x8D, 0x66, 0x4E]

/-- AES-128 with a key of zeros, on the blocks of zeros and of ones. Every other block is left as it is. -/
def Primitives.zeroKey : Primitives :=
  let swap (block : Bytes) : Bytes :=
    if block = List.replicate 16 0 then zerosSecret else if block = zerosSecret then List.replicate 16 0
    else if block = List.replicate 16 0xFF then onesSecret
    else if block = onesSecret then List.replicate 16 0xFF else block
  have hswap : ∀ _ block : Bytes, block.length = aesBlockSize → (swap block).length = aesBlockSize := by
    intro _ block h
    simp only [swap]
    split_ifs <;> first | exact h | rfl
  { validScalar := fun scalar => scalar == 1 || scalar == 2
    publicNumbers := multiple
    onCurve := fun point => point == generator || point == doubled
    exchange := fun scalar point =>
      (toLittleEndian (multiple (if point = doubled then 2 * scalar else scalar)).1 coordinateLength).reverse
    encryptBlock := fun _ => swap
    decryptBlock := fun _ => swap
    exchange_length := fun _ _ => by rw [List.length_reverse, length_toLittleEndian]; rfl
    encryptBlock_length := hswap
    decryptBlock_length := hswap }

theorem Primitives.zeroKey_inverse : Primitives.zeroKey.BlockInverse := by
  have hz : zerosSecret ≠ List.replicate 16 0 := by decide
  have ho : onesSecret ≠ List.replicate 16 0 := by decide
  have hf : List.replicate 16 (0xFF : UInt8) ≠ List.replicate 16 0 := by decide
  have hzo : onesSecret ≠ zerosSecret := by decide
  have hzf : List.replicate 16 (0xFF : UInt8) ≠ zerosSecret := by decide
  have hof : onesSecret ≠ List.replicate 16 0xFF := by decide
  intro _ block _
  simp only [zeroKey]
  split_ifs <;> simp_all

theorem Primitives.zeroKey_scalar {k : Nat} (h : Primitives.zeroKey.validScalar k = true) : k = 1 ∨ k = 2 := by
  have hk : (k == 1 || k == 2) = true := h
  simpa using hk

theorem Primitives.zeroKey_laws : EcdhLaws Primitives.zeroKey where
  onCurve k hk := by
    obtain rfl | rfl := Primitives.zeroKey_scalar hk
    · rfl
    · rfl
  coordinates k hk := by
    obtain rfl | rfl := Primitives.zeroKey_scalar hk
    · exact ⟨show generator.1 < 2 ^ 256 by decide, show generator.2 < 2 ^ 256 by decide⟩
    · exact ⟨show doubled.1 < 2 ^ 256 by decide, show doubled.2 < 2 ^ 256 by decide⟩
  commutes j k hj hk := by
    obtain rfl | rfl := Primitives.zeroKey_scalar hj
    · obtain rfl | rfl := Primitives.zeroKey_scalar hk
      · rfl
      · decide +kernel
    · obtain rfl | rfl := Primitives.zeroKey_scalar hk
      · decide +kernel
      · rfl

theorem exchange_agrees_one : ∃ one two keys cipher,
    keyPairFromPrivateKey Primitives.zeroKey (1 :: List.replicate 31 0) = .ok one ∧
    keyPairFromPrivateKey Primitives.zeroKey (2 :: List.replicate 31 0) = .ok two ∧
    deriveLinkKeys Primitives.zeroKey (1 :: List.replicate 31 0) two.publicKey = .ok keys ∧
    deriveLinkKeys Primitives.zeroKey (2 :: List.replicate 31 0) one.publicKey = .ok keys ∧
    Aes128Cbc.new (List.replicate 16 0) (List.replicate 16 0) false = .ok cipher ∧
    answerOwnerChallenge Primitives.zeroKey zerosSecret (List.replicate 16 0) (List.replicate 16 0) =
      .ok onesSecret ∧
    cipher.decrypt Primitives.zeroKey onesSecret = .ok (List.replicate 16 0xFF) := by
  obtain ⟨-, hagree, hlogin⟩ :=
    exchange_agrees Primitives.zeroKey Primitives.zeroKey_laws Primitives.zeroKey_inverse
  have hone : ValidPrivateKey Primitives.zeroKey (1 :: List.replicate 31 0) := ⟨rfl, by decide +kernel⟩
  have htwo : ValidPrivateKey Primitives.zeroKey (2 :: List.replicate 31 0) := ⟨rfl, by decide +kernel⟩
  obtain ⟨one, two, -, keys, hpair, hother, -, -, -, -, -, -, -, hkeys, hback', -⟩ := hagree _ _ hone htwo
  obtain ⟨cipher, plain, given, hnew, hplain, hgiven, -, hback, -⟩ :=
    (hlogin (List.replicate 16 0) (List.replicate 16 0) rfl rfl).1 zerosSecret rfl
  have hones : answerOwnerChallenge Primitives.zeroKey zerosSecret (List.replicate 16 0)
      (List.replicate 16 0) = .ok onesSecret := by decide +kernel
  obtain rfl : given = onesSecret := Except.ok.inj (hgiven.symm.trans hones)
  obtain rfl : cipher = ⟨List.replicate 16 0, List.replicate 16 0, false, rfl, rfl⟩ :=
    Except.ok.inj (hnew.symm.trans rfl)
  have hzeros : (⟨List.replicate 16 0, List.replicate 16 0, false, rfl, rfl⟩ : Aes128Cbc).decrypt
      Primitives.zeroKey zerosSecret = .ok (List.replicate 16 0) := by decide +kernel
  obtain rfl : plain = List.replicate 16 0 := Except.ok.inj (hplain.symm.trans hzeros)
  exact ⟨one, two, keys, _, hpair, hother, hkeys, hback', hnew, hones, hback⟩

end OnestiLock
