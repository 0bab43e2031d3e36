import OnestiLock.PacketStream

/-! Key exchange and encryption (`ble/crypto.py`). The curve and the AES block
come from a third-party package, so they are parameters. -/

namespace OnestiLock

def aesBlockSize : Nat := 16
def aesKeyLength : Nat := 16
def privateKeyLength : Nat := 32
def sharedSecretLength : Nat := 32
def coordinateLength : Nat := publicKeyLength / 2

def bitInvert (data : Bytes) : Bytes := data.map (· ^^^ 0xFF)

/-- Zero bytes up to a whole AES block. -/
def zeroPad (data : Bytes) : Bytes :=
  data ++ List.replicate ((aesBlockSize - data.length % aesBlockSize) % aesBlockSize) 0

theorem zeroPad_length_mod (data : Bytes) : (zeroPad data).length % aesBlockSize = 0 := by
  simp only [zeroPad, List.length_append, List.length_replicate, aesBlockSize]
  omega

/-- What `cryptography` provides: secp256r1 with raw ECDH, and AES on one block. -/
structure Primitives where
  /-- `derive_private_key` accepts the scalar. -/
  validScalar : Nat → Bool
  /-- The public numbers of a scalar's key. -/
  publicNumbers : Nat → Nat × Nat
  /-- `EllipticCurvePublicNumbers(x, y).public_key()` accepts the point. -/
  onCurve : Nat × Nat → Bool
  /-- `exchange(ECDH(), peer)`: the secret as the package returns it. -/
  exchange : Nat → Nat × Nat → Bytes
  encryptBlock : Bytes → Bytes → Bytes
  decryptBlock : Bytes → Bytes → Bytes
  exchange_length : ∀ scalar point, (exchange scalar point).length = sharedSecretLength
  encryptBlock_length : ∀ key block, block.length = aesBlockSize →
    (encryptBlock key block).length = aesBlockSize
  decryptBlock_length : ∀ key block, block.length = aesBlockSize →
    (decryptBlock key block).length = aesBlockSize

structure KeyPair where
  privateKey : Bytes
  publicKey : Bytes
  deriving DecidableEq, Repr

section

variable (prim : Primitives)

def loadPrivateKey (privateKey : Bytes) : Except BleValidationError Nat :=
  if privateKey.length ≠ privateKeyLength then
    .error ⟨s!"Private key must be {privateKeyLength} bytes, got {privateKey.length}"⟩
  else if prim.validScalar (ofLittleEndian privateKey) then .ok (ofLittleEndian privateKey)
  else .error ⟨"Private key is not a valid secp256r1 scalar"⟩

def loadPublicKey (publicKey : Bytes) : Except BleProtocolError (Nat × Nat) :=
  if publicKey.length ≠ publicKeyLength then
    .error ⟨s!"Public key must be {publicKeyLength} bytes, got {publicKey.length}"⟩
  else
    let point := (ofLittleEndian (publicKey.take coordinateLength),
      ofLittleEndian (publicKey.drop coordinateLength))
    if prim.onCurve point then .ok point
    else .error ⟨"Public key is not a point on secp256r1"⟩

/-- X then Y, each little endian. -/
def encodePublicKey (point : Nat × Nat) : Bytes :=
  toLittleEndian point.1 coordinateLength ++ toLittleEndian point.2 coordinateLength

/-- `_key_pair`. -/
def keyPair (scalar : Nat) : KeyPair :=
  ⟨toLittleEndian scalar privateKeyLength, encodePublicKey (prim.publicNumbers scalar)⟩

def keyPairFromPrivateKey (privateKey : Bytes) : Except BleValidationError KeyPair := do
  return keyPair prim (← loadPrivateKey prim privateKey)

/-- The ECDH secret, reversed. -/
def computeSharedSecret (privateKey peerPublicKey : Bytes) : Except Exn Bytes := do
  let scalar ← validated (loadPrivateKey prim privateKey)
  let point ← parsed (loadPublicKey prim peerPublicKey)
  return (prim.exchange scalar point).reverse

/-! AES-128-CBC without padding, in the app's two modes. -/

structure Aes128Cbc where
  key : Bytes
  iv : Bytes
  ivReset : Bool
  key_length : key.length = aesKeyLength
  iv_length : iv.length = aesBlockSize

def Aes128Cbc.new (key iv : Bytes) (ivReset : Bool) : Except BleValidationError Aes128Cbc :=
  if hk : key.length = aesKeyLength then
    if hi : iv.length = aesBlockSize then .ok ⟨key, iv, ivReset, hk, hi⟩
    else .error ⟨s!"AES IV must be {aesBlockSize} bytes, got {iv.length}"⟩
  else .error ⟨s!"AES key must be {aesKeyLength} bytes, got {key.length}"⟩

def xorBytes (xs ys : Bytes) : Bytes := List.zipWith (· ^^^ ·) xs ys

/-- `data[start : start + 16]` for each start. The fuel is the length. -/
def splitBlocks : Nat → Bytes → List Bytes
  | 0, _ => []
  | fuel + 1, data =>
    if data = [] then [] else data.take aesBlockSize :: splitBlocks fuel (data.drop aesBlockSize)

/-- One CBC run over whole blocks, from `chain` as the block before the first. -/
def cbcEncrypt (key : Bytes) : Bytes → List Bytes → Bytes
  | _, [] => []
  | chain, block :: rest =>
    let cipherBlock := prim.encryptBlock key (xorBytes block chain)
    cipherBlock ++ cbcEncrypt key cipherBlock rest

def cbcDecrypt (key : Bytes) : Bytes → List Bytes → Bytes
  | _, [] => []
  | chain, block :: rest =>
    xorBytes (prim.decryptBlock key block) chain ++ cbcDecrypt key block rest

namespace Aes128Cbc

def cbc (aes : Aes128Cbc) (data : Bytes) (decrypt : Bool) : Bytes :=
  if decrypt then cbcDecrypt prim aes.key aes.iv (splitBlocks data.length data)
  else cbcEncrypt prim aes.key aes.iv (splitBlocks data.length data)

def run (aes : Aes128Cbc) (data : Bytes) (decrypt : Bool) : Bytes :=
  if aes.ivReset then (splitBlocks data.length data).flatMap (fun block => aes.cbc prim block decrypt)
  else aes.cbc prim data decrypt

def encrypt (aes : Aes128Cbc) (plaintext : Bytes) : Bytes := aes.run prim (zeroPad plaintext) false

def decrypt (aes : Aes128Cbc) (ciphertext : Bytes) : Except BleProtocolError Bytes :=
  if ciphertext.length % aesBlockSize ≠ 0 then
    .error ⟨s!"Cannot decrypt {ciphertext.length} bytes, not a whole number of {aesBlockSize}-byte blocks"⟩
  else .ok (aes.run prim ciphertext true)

def payloadCipher (aes : Aes128Cbc) : PayloadCipher := ⟨aes.encrypt prim, aes.decrypt prim⟩

end Aes128Cbc

/-! Link and owner keys. -/

/-- Both halves are sixteen bytes, since the secret they split is thirty-two. -/
structure LinkKeys where
  key : Bytes
  iv : Bytes
  key_length : key.length = aesKeyLength
  iv_length : iv.length = aesBlockSize

def LinkKeys.fromSharedSecret (secret : Bytes) : Except BleValidationError LinkKeys :=
  if h : secret.length = sharedSecretLength then
    .ok ⟨secret.take aesKeyLength, secret.drop aesKeyLength,
      by simp [h, sharedSecretLength, aesKeyLength],
      by simp [h, sharedSecretLength, aesKeyLength, aesBlockSize]⟩
  else .error ⟨s!"Shared secret must be {sharedSecretLength} bytes, got {secret.length}"⟩

def LinkKeys.cipher (keys : LinkKeys) : Aes128Cbc :=
  ⟨keys.key, keys.iv, false, keys.key_length, keys.iv_length⟩

def deriveLinkKeys (privateKey lockPublicKey : Bytes) : Except Exn LinkKeys := do
  validated (LinkKeys.fromSharedSecret (← computeSharedSecret prim privateKey lockPublicKey))

/-- The first sixteen bytes of the reversed secret. -/
def deriveOwnerKey (privateKey lockPublicKey : Bytes) : Except Exn Bytes := do
  return (← computeSharedSecret prim privateKey lockPublicKey).take aesKeyLength

/-- The UserAuthFinalize payload for a UserAuthBegin challenge. -/
def answerOwnerChallenge (challenge ownerKey linkIv : Bytes) : Except Exn Bytes := do
  if challenge.length ≠ challengeLength then
    throw (.ble (.protocol ⟨s!"Challenge must be {challengeLength} bytes, got {challenge.length}"⟩))
  let cipher ← validated (Aes128Cbc.new ownerKey linkIv false)
  let plain ← parsed (cipher.decrypt prim challenge)
  return cipher.encrypt prim (bitInvert plain)

end

/-! The curve at the private scalar 1, whose public point is the generator. -/

def generator : Nat × Nat :=
  (0x6B17D1F2E12C4247F8BCE6E563A440F277037D812DEB33A0F4A13945D898C296,
    0x4FE342E2FE1A7F9B8EE7EB4A7C0F9E162BCE33576B315ECECBB6406837BF51F5)

/-- The block cipher is left out: a block stays as it is. -/
def Primitives.scalarOne : Primitives where
  validScalar scalar := scalar == 1
  publicNumbers _ := generator
  onCurve point := point == generator
  exchange _ point := (toLittleEndian point.1 coordinateLength).reverse
  encryptBlock _ block := block
  decryptBlock _ block := block
  exchange_length _ point := by rw [List.length_reverse, length_toLittleEndian]; rfl
  encryptBlock_length _ _ h := h
  decryptBlock_length _ _ h := h

end OnestiLock
