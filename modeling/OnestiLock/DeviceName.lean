import Mathlib.Data.List.TakeWhile
import OnestiLock.Enrollment

/-! The device name from the writer's field to the reader's text, and from
DeviceNameSet to the answer of DeviceNameGet. -/

namespace OnestiLock

/-- How the reader shows one byte of a text field. -/
def decodeAsciiByte (b : UInt8) : Char :=
  if b.toNat < 128 then Char.ofNat b.toNat else Char.ofNat 0xFFFD

theorem decodeAsciiByte_ofNat {c : Char} (hc : c.toNat < 128) :
    decodeAsciiByte (UInt8.ofNat c.toNat) = c := by
  have hbyte : (UInt8.ofNat c.toNat).toNat = c.toNat := toNat_ofNat_of_lt (by omega)
  unfold decodeAsciiByte
  rw [hbyte, if_pos hc, Char.ofNat_toNat]

theorem ofNat_toNat_ne_zero_iff {c : Char} (hc : c.toNat < 128) :
    UInt8.ofNat c.toNat ≠ 0 ↔ c ≠ '\x00' := by
  have hbyte : (UInt8.ofNat c.toNat).toNat = c.toNat := toNat_ofNat_of_lt (by omega)
  constructor
  · intro hne heq
    subst heq
    exact hne rfl
  · intro hne heq
    have hzero : c.toNat = 0 := by
      rw [← hbyte, heq]
      rfl
    have hc0 : Char.ofNat c.toNat = '\x00' := by rw [hzero]
    exact hne (by rw [← hc0, Char.ofNat_toNat])

/-- The text a reader finds in a written field: what stands before the first NUL. -/
def untilNul (text : List Char) : List Char := text.takeWhile (· != '\x00')

theorem untilNul_eq_self_iff {text : List Char} : untilNul text = text ↔ '\x00' ∉ text := by
  unfold untilNul
  rw [List.takeWhile_eq_self_iff]
  constructor
  · intro h hmem
    have hne := h '\x00' hmem
    simp at hne
  · intro h c hc
    have hne : c ≠ '\x00' := fun heq => h (heq ▸ hc)
    simpa using hne

/-- Reading stops in the text or in its padding, and takes the same characters. -/
theorem takeWhile_padded (text : List Char) (padding : Nat) (hascii : ∀ c ∈ text, c.toNat < 128) :
    ((text.map (fun c : Char => UInt8.ofNat c.toNat) ++ List.replicate padding 0).takeWhile (· != 0)).map
      decodeAsciiByte = untilNul text := by
  induction text with
  | nil =>
    cases padding with
    | zero => rfl
    | succ n => rfl
  | cons c text ih =>
    have hc := hascii c List.mem_cons_self
    have htail := ih (fun d hd => hascii d (List.mem_cons_of_mem c hd))
    by_cases hnul : c = '\x00'
    · subst hnul
      rfl
    · have hbyte := (ofNat_toNat_ne_zero_iff hc).mpr hnul
      have hb : (UInt8.ofNat c.toNat != 0) = true := by simpa using hbyte
      have hcb : (c != '\x00') = true := by simpa using hnul
      unfold untilNul at htail ⊢
      rw [List.map_cons, List.cons_append, List.takeWhile_cons, List.takeWhile_cons, if_pos hb, if_pos hcb,
        List.map_cons, decodeAsciiByte_ofNat hc, htail]

theorem writeString_eq_ok {buffer written : Bytes} {text : String} {size : Nat} :
    writeString buffer text size = .ok written ↔
      (∀ c ∈ text.toList, c.toNat < 128) ∧ text.length < size ∧
        written = buffer ++ (encodeAscii text ++ List.replicate (size - text.length) 0) := by
  have hascii : isAscii text = true ↔ ∀ c ∈ text.toList, c.toNat < 128 := by
    simp [isAscii]
  constructor
  · intro h
    unfold writeString at h
    split_ifs at h with ha hl
    have hall := hascii.mp (by simpa using ha)
    exact ⟨hall, by omega, (Except.ok.inj h).symm⟩
  · intro h
    have ha : ¬ isAscii text = false := by simp [hascii.mpr h.1]
    have hl : ¬ text.length ≥ size := by omega
    unfold writeString
    rw [if_neg ha, if_neg hl, h.2.2]

theorem readString_written {text : String} {size : Nat} {field : Bytes}
    (h : writeString [] text size = .ok field) (tail : Bytes) :
    readString size (field ++ tail) = .ok (String.ofList (untilNul text.toList), tail) := by
  have hw := writeString_eq_ok.mp h
  have hfield : field = encodeAscii text ++ List.replicate (size - text.length) 0 := hw.2.2
  have hsize : field.length = size := by
    have hlen : (encodeAscii text).length = text.length := by
      rw [encodeAscii, List.length_map, String.length_toList]
    rw [hfield, List.length_append, List.length_replicate, hlen]
    omega
  have htake : take size (field ++ tail) = .ok (field, tail) := by
    rw [← hsize]
    exact take_append field tail
  have hnul : field.contains 0 = true := by
    have hpos : size - text.length ≠ 0 := by omega
    rw [List.contains_iff_mem, hfield]
    exact List.mem_append_right _ (List.mem_replicate.mpr ⟨hpos, rfl⟩)
  have htext := takeWhile_padded text.toList (size - text.length) hw.1
  rw [readString, htake]
  simp only [ok_bind, hnul, if_true, pure_eq_ok, Except.ok.injEq, Prod.mk.injEq, and_true]
  congr 1
  rw [← htext, hfield]
  rfl

theorem readString_written_iff {text : String} {size : Nat} {field : Bytes}
    (h : writeString [] text size = .ok field) (tail : Bytes) :
    readString size (field ++ tail) = .ok (text, tail) ↔ '\x00' ∉ text.toList := by
  rw [readString_written h tail, ← untilNul_eq_self_iff]
  constructor
  · intro heq
    have htext : String.ofList (untilNul text.toList) = text := by simpa using heq
    calc untilNul text.toList = (String.ofList (untilNul text.toList)).toList := by simp
      _ = text.toList := by rw [htext]
  · intro heq
    rw [heq]
    simp

/-! The answer of a lock that keeps the field as it was sent. -/

def deviceNameAnswer (commandRef : Nat) (stored : Bytes) : Response :=
  ⟨expectedResponseId .deviceNameGet, commandRef, statusSuccess, stored⟩

theorem deviceNameSet_eq_ok {name : String} {command : CommandPayload} :
    deviceNameSet name = .ok command ↔ command.commandId = .deviceNameSet ∧
      writeString [] name deviceNameMaxLength = .ok command.data := by
  unfold deviceNameSet
  constructor
  · intro h
    obtain ⟨field, hfield, hcommand⟩ := bind_eq_ok.mp h
    cases hcommand
    exact ⟨rfl, hfield⟩
  · intro h
    obtain ⟨commandId, data⟩ := command
    have hid : commandId = .deviceNameSet := h.1
    rw [h.2, hid]
    rfl

theorem parseDeviceNameGet_answer {name : String} {command : CommandPayload}
    (h : deviceNameSet name = .ok command) (commandRef : Nat) :
    parseDeviceNameGet (deviceNameAnswer commandRef command.data) = .ok name ↔ '\x00' ∉ name.toList := by
  have hfield := (deviceNameSet_eq_ok.mp h).2
  have hread := readString_written hfield []
  have hiff := readString_written_iff hfield []
  have hreader : responseReader (deviceNameAnswer commandRef command.data)
      (expectedResponseId .deviceNameGet) = .ok command.data := responseReader_ok rfl rfl
  rw [List.append_nil] at hread hiff
  rw [← hiff, parseDeviceNameGet, hreader]
  simp only [ok_bind, hread, liftProtocol, pure_eq_ok, Except.ok.injEq, Prod.mk.injEq, and_true]

/-- Written, read back, asked for over the air and kept in the enrollment, a
name stays the same as long as no NUL stands in it. -/
theorem name_roundTrip_iff (prim : Primitives) :
    (∀ size text field, writeString [] text size = .ok field →
      ∀ tail, readString size (field ++ tail) = .ok (text, tail) ↔ '\x00' ∉ text.toList) ∧
    (∀ name command, deviceNameSet name = .ok command → ∀ commandRef,
      parseDeviceNameGet (deviceNameAnswer commandRef command.data) = .ok name ↔ '\x00' ∉ name.toList) ∧
    (∀ enrollment : Enrollment prim, ∃ command, deviceNameSet enrollment.name = .ok command ∧
      ∀ commandRef, parseDeviceNameGet (deviceNameAnswer commandRef command.data) = .ok enrollment.name ↔
        '\x00' ∉ enrollment.name.toList) := by
  have hset : ∀ name command, deviceNameSet name = .ok command → ∀ commandRef,
      parseDeviceNameGet (deviceNameAnswer commandRef command.data) = .ok name ↔
        '\x00' ∉ name.toList :=
    fun name command h commandRef => parseDeviceNameGet_answer h commandRef
  have henrolled : ∀ enrollment : Enrollment prim, ∃ command,
      deviceNameSet enrollment.name = .ok command ∧ ∀ commandRef,
        parseDeviceNameGet (deviceNameAnswer commandRef command.data) = .ok enrollment.name ↔
          '\x00' ∉ enrollment.name.toList := by
    intro enrollment
    obtain ⟨command, hcommand⟩ := enrollment.valid.name
    exact ⟨command, hcommand, hset enrollment.name command hcommand⟩
  exact ⟨fun size text field h tail => readString_written_iff h tail, hset, henrolled⟩

/-- The field of the text `a NUL b` reads back as `a`. -/
theorem name_lost_after_nul :
    writeString [] "a\x00b" 9 = .ok [97, 0, 98, 0, 0, 0, 0, 0, 0] ∧
      readString 9 [97, 0, 98, 0, 0, 0, 0, 0, 0] = .ok ("a", []) ∧ "a" ≠ "a\x00b" := by
  decide

end OnestiLock
