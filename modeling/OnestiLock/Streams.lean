import OnestiLock.Errors

/-! Little-endian byte reader and writer (`ble/protocol/streams.py`). A reader
is the bytes it has left; a writer is the bytes it has collected. -/

namespace OnestiLock

/-- `value.to_bytes(size, "little")`, for a value that fits. -/
def toLittleEndian (value : Nat) : Nat → Bytes
  | 0 => []
  | size + 1 => UInt8.ofNat value :: toLittleEndian (value / 256) size

/-- `int.from_bytes(bytes, "little")`. -/
def ofLittleEndian : Bytes → Nat
  | [] => 0
  | b :: bs => b.toNat + 256 * ofLittleEndian bs

@[simp] theorem length_toLittleEndian (value size : Nat) :
    (toLittleEndian value size).length = size := by
  induction size generalizing value with
  | zero => rfl
  | succ size ih => simp [toLittleEndian, ih]

theorem ofLittleEndian_toLittleEndian {value size : Nat} (h : value < 2 ^ (8 * size)) :
    ofLittleEndian (toLittleEndian value size) = value := by
  induction size generalizing value with
  | zero => simp at h; simp [toLittleEndian, ofLittleEndian, h]
  | succ size ih =>
    have hdiv : value / 256 < 2 ^ (8 * size) := by
      rw [Nat.div_lt_iff_lt_mul (by decide)]
      calc value < 2 ^ (8 * (size + 1)) := h
        _ = 2 ^ (8 * size) * 256 := by rw [Nat.mul_succ, Nat.pow_add]
    have hmod : (UInt8.ofNat value).toNat = value % 256 := by simp
    rw [toLittleEndian, ofLittleEndian, ih hdiv, hmod]
    omega

theorem ofLittleEndian_lt (bs : Bytes) : ofLittleEndian bs < 2 ^ (8 * bs.length) := by
  induction bs with
  | nil => simp [ofLittleEndian]
  | cons b bs ih =>
    have hb := b.toNat_lt
    rw [ofLittleEndian, List.length_cons, Nat.mul_succ, Nat.pow_add]
    omega

theorem toLittleEndian_ofLittleEndian (bs : Bytes) :
    toLittleEndian (ofLittleEndian bs) bs.length = bs := by
  induction bs with
  | nil => rfl
  | cons b bs ih =>
    have hb := b.toNat_lt
    have hdiv : (b.toNat + 256 * ofLittleEndian bs) / 256 = ofLittleEndian bs := by omega
    have hmod : UInt8.ofNat (b.toNat + 256 * ofLittleEndian bs) = b := by
      apply UInt8.toNat_inj.mp
      simp only [UInt8.toNat_ofNat']
      omega
    rw [ofLittleEndian, List.length_cons, toLittleEndian, hmod, hdiv, ih]

theorem toNat_ofNat_of_lt {n : Nat} (h : n < 256) : (UInt8.ofNat n).toNat = n := by
  simp only [UInt8.toNat_ofNat']
  omega

/-! The writer. -/

def writeUInt (buffer : Bytes) (value : Int) (size : Nat) : Except BleValidationError Bytes :=
  if 0 ≤ value ∧ value < 2 ^ (8 * size) then
    .ok (buffer ++ toLittleEndian value.toNat size)
  else
    .error ⟨s!"Value {value} does not fit an unsigned {8 * size}-bit field"⟩

def writeUInt8 (buffer : Bytes) (value : Int) := writeUInt buffer value 1
def writeUInt16 (buffer : Bytes) (value : Int) := writeUInt buffer value 2
def writeUInt32 (buffer : Bytes) (value : Int) := writeUInt buffer value 4

/-- A Python string as its code points; the protocol's fields are ASCII. -/
def isAscii (text : String) : Bool := text.toList.all (fun c => decide (c.toNat < 128))

def encodeAscii (text : String) : Bytes := text.toList.map (fun c => UInt8.ofNat c.toNat)

def writeRawString (buffer : Bytes) (text : String) : Except BleValidationError Bytes :=
  if isAscii text then .ok (buffer ++ encodeAscii text)
  else .error ⟨"String is not plain ASCII"⟩

/-- `text` in a field of `size` bytes, NUL-padded, with room for one NUL. -/
def writeString (buffer : Bytes) (text : String) (size : Nat) : Except BleValidationError Bytes :=
  if isAscii text = false then .error ⟨"String is not plain ASCII"⟩
  else if text.length ≥ size then
    .error ⟨s!"String of {text.length} characters does not fit a {size}-byte field"⟩
  else .ok (buffer ++ (encodeAscii text ++ List.replicate (size - text.length) 0))

theorem writeUInt_ok {buffer : Bytes} {value size : Nat} (h : value < 2 ^ (8 * size)) :
    writeUInt buffer value size = .ok (buffer ++ toLittleEndian value size) := by
  have hv : (value : Int) < 2 ^ (8 * size) := by exact_mod_cast h
  simp [writeUInt, hv]

@[simp] theorem writeUInt8_ok {buffer : Bytes} {value : Nat} (h : value < 256) :
    writeUInt8 buffer value = .ok (buffer ++ [UInt8.ofNat value]) := by
  rw [writeUInt8, writeUInt_ok (by simpa using h)]
  rfl

theorem writeUInt16_ok {buffer : Bytes} {value : Nat} (h : value < 65536) :
    writeUInt16 buffer value = .ok (buffer ++ toLittleEndian value 2) := by
  rw [writeUInt16, writeUInt_ok (by simpa using h)]

/-! The reader. -/

/-- `ByteReader._take`. -/
def take (count : Nat) (reader : Bytes) : Except BleProtocolError (Bytes × Bytes) :=
  if count > reader.length then
    .error ⟨s!"Tried to read {count} byte(s), but only {reader.length} remain"⟩
  else .ok (reader.take count, reader.drop count)

def readUInt8 (reader : Bytes) : Except BleProtocolError (Nat × Bytes) := do
  let (raw, rest) ← take 1 reader
  return (ofLittleEndian raw, rest)

def readUInt16 (reader : Bytes) : Except BleProtocolError (Nat × Bytes) := do
  let (raw, rest) ← take 2 reader
  return (ofLittleEndian raw, rest)

def readUInt32 (reader : Bytes) : Except BleProtocolError (Nat × Bytes) := do
  let (raw, rest) ← take 4 reader
  return (ofLittleEndian raw, rest)

def readBytes (count : Nat) (reader : Bytes) := take count reader

/-- The text of a NUL-terminated field; a byte outside ASCII reads as U+FFFD. -/
def readString (size : Nat) (reader : Bytes) : Except BleProtocolError (String × Bytes) := do
  let (raw, rest) ← take size reader
  if raw.contains 0 then
    return (String.ofList ((raw.takeWhile (· != 0)).map
      (fun b => if b.toNat < 128 then Char.ofNat b.toNat else Char.ofNat 0xFFFD)), rest)
  else throw ⟨s!"String field of {size} byte(s) has no NUL terminator"⟩

theorem take_append (xs ys : Bytes) : take xs.length (xs ++ ys) = .ok (xs, ys) := by
  have h : ¬ xs.length > (xs ++ ys).length := by simp
  rw [take, if_neg h, List.take_left, List.drop_left]

theorem take_eq_ok {count : Nat} {reader xs rest : Bytes} :
    take count reader = .ok (xs, rest) ↔ reader = xs ++ rest ∧ xs.length = count := by
  unfold take
  split
  · next h =>
    simp only [reduceCtorEq, false_iff]
    rintro ⟨rfl, rfl⟩
    simp only [List.length_append] at h
    omega
  · next h =>
    constructor
    · rintro ⟨⟩
      exact ⟨(List.take_append_drop count reader).symm, by simp; omega⟩
    · rintro ⟨rfl, rfl⟩
      rw [List.take_left, List.drop_left]

@[simp] theorem readUInt8_cons (b : UInt8) (rest : Bytes) :
    readUInt8 (b :: rest) = .ok (b.toNat, rest) := by
  have h : take 1 (b :: rest) = .ok ([b], rest) := take_append [b] rest
  simp [readUInt8, h, ofLittleEndian]

theorem readUInt16_append {value : Nat} (h : value < 65536) (rest : Bytes) :
    readUInt16 (toLittleEndian value 2 ++ rest) = .ok (value, rest) := by
  have ht := take_append (toLittleEndian value 2) rest
  simp only [length_toLittleEndian] at ht
  have hv : ofLittleEndian (toLittleEndian value 2) = value :=
    ofLittleEndian_toLittleEndian (by simpa using h)
  simp [readUInt16, ht, hv]

theorem readBytes_append (xs rest : Bytes) : readBytes xs.length (xs ++ rest) = .ok (xs, rest) :=
  take_append xs rest

theorem length_of_readBytes {count : Nat} {reader xs rest : Bytes}
    (h : readBytes count reader = .ok (xs, rest)) : xs.length = count :=
  (take_eq_ok.mp h).2

theorem readUInt8_lt {reader rest : Bytes} {value : Nat} (h : readUInt8 reader = .ok (value, rest)) :
    value < 256 := by
  cases htake : take 1 reader with
  | error e => simp [readUInt8, htake] at h
  | ok result =>
    obtain ⟨raw, tail⟩ := result
    have hlen := (take_eq_ok.mp htake).2
    have hlt := ofLittleEndian_lt raw
    simp only [readUInt8, htake, ok_bind, pure_eq_ok, Except.ok.injEq, Prod.mk.injEq] at h
    rw [← h.1]
    rw [hlen] at hlt
    simpa using hlt

end OnestiLock
