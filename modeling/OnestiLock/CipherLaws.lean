import Mathlib.Data.Set.Finite.List
import Mathlib.Order.Bounds.Basic
import OnestiLock.StackRoundTrip

/-! `Aes128Cbc` inverts itself in both modes, and a call on it leaves nothing
behind for the next. The decryption of a block is a left inverse of its
encryption, and a two-sided one since the blocks are finitely many. -/

namespace OnestiLock

/-! A self map of a finite set with a left inverse. -/

theorem rightInvOn_of_leftInvOn {α : Type*} {s : Set α} {f g : α → α} (hs : s.Finite)
    (hf : Set.MapsTo f s s) (hinv : Set.LeftInvOn g f s) : Set.RightInvOn g f s := by
  intro x hx
  have hbij : Set.BijOn f s s := (hs.injOn_iff_bijOn_of_mapsTo hf).mp hinv.injOn
  obtain ⟨y, hy, rfl⟩ := hbij.surjOn hx
  rw [hinv hy]

instance finiteByte : Finite UInt8 :=
  Finite.of_injective UInt8.toFin (fun _ _ h => UInt8.toFin_inj.mp h)

variable {prim : Primitives} {key chain : Bytes} {blocks : List Bytes}

theorem Primitives.BlockInverse.encrypt_decrypt (hinverse : prim.BlockInverse) {block : Bytes}
    (h : block.length = aesBlockSize) : prim.encryptBlock key (prim.decryptBlock key block) = block := by
  have hblocks : {b : Bytes | b.length = aesBlockSize}.Finite := List.finite_length_eq UInt8 aesBlockSize
  exact rightInvOn_of_leftInvOn hblocks (prim.encryptBlock_length key) (hinverse key) h

/-! One CBC run, from the ciphertext's side. -/

/-- The plaintext blocks of one CBC run. -/
def plainBlocks (prim : Primitives) (key : Bytes) : Bytes → List Bytes → List Bytes
  | _, [] => []
  | chain, block :: rest =>
    xorBytes (prim.decryptBlock key block) chain :: plainBlocks prim key block rest

theorem cbcDecrypt_eq (chain : Bytes) (blocks : List Bytes) :
    cbcDecrypt prim key chain blocks = (plainBlocks prim key chain blocks).flatten := by
  induction blocks generalizing chain with
  | nil => rfl
  | cons block blocks ih => simp only [cbcDecrypt, plainBlocks, List.flatten_cons, ih]

theorem length_plainBlocks (chain : Bytes) (blocks : List Bytes) :
    (plainBlocks prim key chain blocks).length = blocks.length := by
  induction blocks generalizing chain with
  | nil => rfl
  | cons block blocks ih => simp only [plainBlocks, List.length_cons, ih]

theorem plainBlocks_length (hchain : chain.length = aesBlockSize)
    (hblocks : ∀ b ∈ blocks, b.length = aesBlockSize) :
    ∀ p ∈ plainBlocks prim key chain blocks, p.length = aesBlockSize := by
  induction blocks generalizing chain with
  | nil => simp [plainBlocks]
  | cons block blocks ih =>
    intro p hp
    have hblock := hblocks block (by simp)
    simp only [plainBlocks, List.mem_cons] at hp
    rcases hp with rfl | hp
    · exact xorBytes_length (prim.decryptBlock_length _ _ hblock) hchain
    · exact ih hblock (fun b hb => hblocks b (by simp [hb])) p hp

theorem cbcBlocks_plainBlocks (hinverse : prim.BlockInverse) (hchain : chain.length = aesBlockSize)
    (hblocks : ∀ b ∈ blocks, b.length = aesBlockSize) :
    cbcBlocks prim key chain (plainBlocks prim key chain blocks) = blocks := by
  induction blocks generalizing chain with
  | nil => rfl
  | cons block blocks ih =>
    have hblock := hblocks block (by simp)
    have hplain := prim.decryptBlock_length key block hblock
    have hrest := ih hblock (fun b hb => hblocks b (by simp [hb]))
    have hfirst : prim.encryptBlock key
        (xorBytes (xorBytes (prim.decryptBlock key block) chain) chain) = block := by
      rw [xorBytes_cancel (by rw [hplain, hchain]), hinverse.encrypt_decrypt hblock]
    simp only [plainBlocks, cbcBlocks, hfirst, hrest]

/-! Padding, and splitting at a block boundary. -/

theorem zeroPad_whole {data : Bytes} (h : aesBlockSize ∣ data.length) : zeroPad data = data := by
  have hmod : data.length % aesBlockSize = 0 := Nat.mod_eq_zero_of_dvd h
  simp [zeroPad, hmod]

theorem zeroPad_append {whole : Bytes} (h : aesBlockSize ∣ whole.length) (rest : Bytes) :
    zeroPad (whole ++ rest) = whole ++ zeroPad rest := by
  have hmod : (whole ++ rest).length % aesBlockSize = rest.length % aesBlockSize := by
    have hzero : whole.length % aesBlockSize = 0 := Nat.mod_eq_zero_of_dvd h
    rw [List.length_append, Nat.add_mod, hzero, Nat.zero_add, Nat.mod_mod]
  simp only [zeroPad, hmod, List.append_assoc]

theorem zeroPad_length_isLeast (data : Bytes) :
    IsLeast {n | aesBlockSize ∣ n ∧ data.length ≤ n} (zeroPad data).length := by
  refine ⟨⟨Nat.dvd_of_mod_eq_zero (zeroPad_length_mod data), length_le_zeroPad data⟩, ?_⟩
  rintro n ⟨⟨k, rfl⟩, hle⟩
  simp only [zeroPad, List.length_append, List.length_replicate, aesBlockSize] at hle ⊢
  omega

theorem zeroPad_one {data : Bytes} (h : data.length ≤ aesBlockSize) :
    zeroPad data = [] ∨ (zeroPad data).length = aesBlockSize := by
  by_cases hnil : data = []
  · subst hnil
    exact .inl rfl
  · right
    have hpos := List.length_pos_iff.mpr hnil
    simp only [zeroPad, List.length_append, List.length_replicate, aesBlockSize] at h ⊢
    omega

theorem splitBlocks_fuel {data : Bytes} {fuel : Nat} (h : data.length ≤ fuel) :
    splitBlocks fuel data = splitBlocks data.length data := by
  induction fuel using Nat.strong_induction_on generalizing data with
  | _ fuel ih =>
    by_cases hnil : data = []
    · subst hnil
      cases fuel <;> simp [splitBlocks]
    · have hpos := List.length_pos_iff.mpr hnil
      obtain ⟨fuel, rfl⟩ : ∃ k, fuel = k + 1 := ⟨fuel - 1, by omega⟩
      obtain ⟨len, hlen⟩ : ∃ k, data.length = k + 1 := ⟨data.length - 1, by omega⟩
      have hdrop : (data.drop aesBlockSize).length ≤ len := by
        rw [List.length_drop, aesBlockSize]
        omega
      have hlong := ih fuel (by omega) (by omega : (data.drop aesBlockSize).length ≤ fuel)
      rw [hlen]
      simp only [splitBlocks, hnil, if_false, List.cons.injEq, true_and]
      by_cases hlt : len < fuel + 1
      · rw [hlong, ih len hlt hdrop]
      · have heq : len = fuel := by omega
        rw [heq]

theorem splitBlocks_splice {whole rest : Bytes} (h : aesBlockSize ∣ whole.length) :
    splitBlocks (whole ++ rest).length (whole ++ rest) =
      splitBlocks whole.length whole ++ splitBlocks rest.length rest := by
  have hmod : whole.length % aesBlockSize = 0 := Nat.mod_eq_zero_of_dvd h
  have hblocks := length_of_mem_splitBlocks hmod whole.length
  have hjoin : (splitBlocks whole.length whole).flatten = whole := flatten_splitBlocks (Nat.le_refl _)
  have hsplice : ∀ (blocks : List Bytes) (fuel : Nat), (∀ b ∈ blocks, b.length = aesBlockSize) →
      (blocks.flatten ++ rest).length ≤ fuel →
      splitBlocks fuel (blocks.flatten ++ rest) = blocks ++ splitBlocks rest.length rest := by
    intro blocks fuel hall hfuel
    induction blocks generalizing fuel with
    | nil => exact splitBlocks_fuel hfuel
    | cons block blocks ih =>
      have hblock := hall block (by simp)
      simp only [List.flatten_cons, List.append_assoc, List.length_append, hblock, aesBlockSize] at hfuel
      obtain ⟨fuel, rfl⟩ : ∃ k, fuel = k + 1 := ⟨fuel - 1, by omega⟩
      have hrest := ih fuel (fun b hb => hall b (by simp [hb]))
        (by rw [List.length_append]; omega)
      rw [List.flatten_cons, List.append_assoc, splitBlocks_append hblock, hrest, List.cons_append]
  have h := hsplice _ (whole ++ rest).length hblocks (by rw [hjoin])
  rwa [hjoin] at h

namespace Aes128Cbc

variable (aes : Aes128Cbc)

/-- The plaintext blocks of `decrypt`, in either mode. -/
def clearBlocks (prim : Primitives) (data : Bytes) : List Bytes :=
  if aes.ivReset then
    (splitBlocks data.length data).map (fun block => xorBytes (prim.decryptBlock aes.key block) aes.iv)
  else plainBlocks prim aes.key aes.iv (splitBlocks data.length data)

theorem run_decrypt {data : Bytes} (h : data.length % aesBlockSize = 0) :
    aes.run prim data true = (aes.clearBlocks prim data).flatten := by
  have hjoin : (splitBlocks data.length data).flatten = data := flatten_splitBlocks (Nat.le_refl _)
  rw [← hjoin, aes.run_decrypt_flatten (length_of_mem_splitBlocks h data.length), hjoin]
  by_cases hmode : aes.ivReset = true
  · simp only [hmode, if_true, clearBlocks, List.flatMap]
  · simp [hmode, clearBlocks, cbcDecrypt_eq]

theorem clearBlocks_length {data : Bytes} (h : data.length % aesBlockSize = 0) :
    ∀ p ∈ aes.clearBlocks prim data, p.length = aesBlockSize := by
  have hblocks := length_of_mem_splitBlocks h data.length
  by_cases hmode : aes.ivReset = true
  · intro p hp
    simp only [clearBlocks, hmode, if_true, List.mem_map] at hp
    obtain ⟨block, hblock, rfl⟩ := hp
    exact xorBytes_length (prim.decryptBlock_length _ _ (hblocks block hblock)) aes.iv_length
  · simp only [clearBlocks, hmode]
    exact plainBlocks_length aes.iv_length hblocks

theorem cipherBlocks_clearBlocks (hinverse : prim.BlockInverse) {data : Bytes}
    (h : data.length % aesBlockSize = 0) :
    aes.cipherBlocks prim (aes.clearBlocks prim data).flatten = splitBlocks data.length data := by
  have hblocks := length_of_mem_splitBlocks h data.length
  have hclear : ∀ p ∈ aes.clearBlocks prim data, p.length = aesBlockSize := aes.clearBlocks_length h
  have hcount : (aes.clearBlocks prim data).length ≤ (aes.clearBlocks prim data).flatten.length := by
    rw [flatten_length hclear, aesBlockSize]
    omega
  have hsplit := splitBlocks_flatten hclear hcount
  simp only [cipherBlocks, hsplit]
  by_cases hmode : aes.ivReset = true
  · simp only [hmode, if_true, clearBlocks, List.map_map]
    calc (splitBlocks data.length data).map _
        = (splitBlocks data.length data).map id := by
          refine List.map_congr_left ?_
          intro block hblock
          have hlen := hblocks block hblock
          have hplain := prim.decryptBlock_length aes.key block hlen
          simp only [Function.comp_apply, id]
          rw [xorBytes_cancel (by rw [hplain, aes.iv_length]), hinverse.encrypt_decrypt hlen]
      _ = splitBlocks data.length data := List.map_id _
  · simp only [hmode, clearBlocks]
    exact cbcBlocks_plainBlocks hinverse aes.iv_length hblocks

theorem run_length {data : Bytes} (h : data.length % aesBlockSize = 0) :
    (aes.run prim data true).length = data.length := by
  have hjoin : (splitBlocks data.length data).flatten = data := flatten_splitBlocks (Nat.le_refl _)
  have hcount : (aes.clearBlocks prim data).length = (splitBlocks data.length data).length := by
    by_cases hmode : aes.ivReset = true
    · simp [clearBlocks, hmode]
    · simp only [clearBlocks, hmode]
      exact length_plainBlocks _ _
  calc (aes.run prim data true).length
      = (aes.clearBlocks prim data).length * aesBlockSize := by
        rw [aes.run_decrypt h, flatten_length (aes.clearBlocks_length h)]
    _ = (splitBlocks data.length data).flatten.length := by
        rw [hcount, flatten_length (length_of_mem_splitBlocks h _)]
    _ = data.length := by rw [hjoin]

theorem run_run_decrypt (hinverse : prim.BlockInverse) {data : Bytes}
    (h : data.length % aesBlockSize = 0) :
    aes.run prim (aes.run prim data true) false = data := by
  have hlen : (aes.run prim data true).length = data.length := aes.run_length h
  rw [aes.run_encrypt (by rw [hlen, h]), aes.run_decrypt h, aes.cipherBlocks_clearBlocks hinverse h]
  exact flatten_splitBlocks (Nat.le_refl _)

theorem encrypt_decrypt (hinverse : prim.BlockInverse) {ciphertext : Bytes}
    (h : aesBlockSize ∣ ciphertext.length) : ∃ plain, aes.decrypt prim ciphertext = .ok plain ∧
      plain.length = ciphertext.length ∧ aes.encrypt prim plain = ciphertext := by
  have hmod : ciphertext.length % aesBlockSize = 0 := Nat.mod_eq_zero_of_dvd h
  have hlen : (aes.run prim ciphertext true).length = ciphertext.length := aes.run_length hmod
  refine ⟨aes.run prim ciphertext true, ?_, hlen, ?_⟩
  · simp only [decrypt, hmod, ne_eq, not_true, if_false]
  · rw [encrypt, zeroPad_whole (by rw [hlen]; exact h), aes.run_run_decrypt hinverse hmod]

theorem decrypt_refuses (ciphertext : Bytes) :
    (∃ e, aes.decrypt prim ciphertext = .error e) ↔ ¬ aesBlockSize ∣ ciphertext.length := by
  have hmod : aesBlockSize ∣ ciphertext.length ↔ ciphertext.length % aesBlockSize = 0 :=
    Nat.dvd_iff_mod_eq_zero
  by_cases h : ciphertext.length % aesBlockSize = 0 <;> simp [decrypt, hmod, h]

theorem encrypt_append (hmode : aes.ivReset = true) {whole : Bytes} (h : aesBlockSize ∣ whole.length)
    (rest : Bytes) : aes.encrypt prim (whole ++ rest) = aes.encrypt prim whole ++ aes.encrypt prim rest := by
  simp only [encrypt, zeroPad_append h, zeroPad_whole h, run, hmode, if_true, splitBlocks_splice h,
    List.flatMap_append]

theorem run_one {other : Aes128Cbc} (hkey : other.key = aes.key) (hiv : other.iv = aes.iv) {data : Bytes}
    (h : data = [] ∨ data.length = aesBlockSize) (decrypt : Bool) :
    aes.run prim data decrypt = other.run prim data decrypt := by
  have hcbc : ∀ block, aes.cbc prim block decrypt = other.cbc prim block decrypt := by
    intro block
    simp only [cbc, hkey, hiv]
  have hone : ∀ cipher : Aes128Cbc, cipher.run prim data decrypt = cipher.cbc prim data decrypt := by
    intro cipher
    rcases h with rfl | h
    · cases decrypt <;> simp [run, cbc, splitBlocks, cbcEncrypt, cbcDecrypt]
    · simp [run, splitBlocks_block h]
  rw [hone, hone, hcbc]

/-- The modes differ only from the second block on. -/
theorem modes_agree {other : Aes128Cbc} (hkey : other.key = aes.key) (hiv : other.iv = aes.iv)
    {message : Bytes} (h : message.length ≤ aesBlockSize) :
    aes.encrypt prim message = other.encrypt prim message ∧
      aes.decrypt prim message = other.decrypt prim message := by
  refine ⟨aes.run_one hkey hiv (zeroPad_one h) false, ?_⟩
  by_cases hmod : message.length % aesBlockSize = 0
  · have hone : message = [] ∨ message.length = aesBlockSize := by
      rw [← List.length_eq_zero_iff]
      simp only [aesBlockSize] at h hmod ⊢
      omega
    simp only [decrypt, hmod, ne_eq, not_true, if_false, aes.run_one hkey hiv hone true]
  · simp only [decrypt, hmod, ne_eq, not_false_eq_true, if_true]

end Aes128Cbc

/-! Calls on one object, one after another. -/

inductive CipherCall
  | encrypt (plaintext : Bytes)
  | decrypt (ciphertext : Bytes)

/-- A method call: what it returns, and the object after it. No method assigns to a field. -/
def CipherCall.on (prim : Primitives) (aes : Aes128Cbc) : CipherCall → Except BleProtocolError Bytes × Aes128Cbc
  | .encrypt plaintext => (.ok (aes.encrypt prim plaintext), aes)
  | .decrypt ciphertext => (aes.decrypt prim ciphertext, aes)

def answers (prim : Primitives) : Aes128Cbc → List CipherCall → List (Except BleProtocolError Bytes)
  | _, [] => []
  | aes, call :: calls => (call.on prim aes).1 :: answers prim (call.on prim aes).2 calls

theorem CipherCall.on_object (aes : Aes128Cbc) (call : CipherCall) : (call.on prim aes).2 = aes := by
  cases call <;> rfl

theorem answers_eq (aes : Aes128Cbc) (calls : List CipherCall) :
    answers prim aes calls = calls.map (fun call => (call.on prim aes).1) := by
  induction calls with
  | nil => rfl
  | cons call calls ih => simp only [answers, call.on_object, List.map_cons, ih]

/-- Decryption undoes encryption up to the zero padding, and encryption decryption;
what is not whole blocks is refused; with the IV reset blocks are independent; and
no call changes what the next one answers. -/
theorem aes128Cbc_inverts (prim : Primitives) (hinverse : prim.BlockInverse) (aes : Aes128Cbc) :
    (∀ message, aes.decrypt prim (aes.encrypt prim message) = .ok (zeroPad message) ∧
      IsLeast {n | aesBlockSize ∣ n ∧ message.length ≤ n} (aes.encrypt prim message).length) ∧
    (∀ ciphertext, aesBlockSize ∣ ciphertext.length → ∃ plain,
      aes.decrypt prim ciphertext = .ok plain ∧ aes.encrypt prim plain = ciphertext) ∧
    (∀ ciphertext, (∃ e, aes.decrypt prim ciphertext = .error e) ↔ ¬ aesBlockSize ∣ ciphertext.length) ∧
    (aes.ivReset = true → ∀ whole rest, aesBlockSize ∣ whole.length →
      aes.encrypt prim (whole ++ rest) = aes.encrypt prim whole ++ aes.encrypt prim rest) ∧
    (∀ other : Aes128Cbc, other.key = aes.key → other.iv = aes.iv → ∀ message : Bytes,
      message.length ≤ aesBlockSize → aes.encrypt prim message = other.encrypt prim message ∧
        aes.decrypt prim message = other.decrypt prim message) ∧
    ∀ calls, answers prim aes calls = calls.map (fun call => (call.on prim aes).1) := by
  refine ⟨?_, ?_, aes.decrypt_refuses, ?_, ?_, answers_eq aes⟩
  · intro message
    have hlen : (aes.encrypt prim message).length = (zeroPad message).length :=
      aes.run_encrypt_length (zeroPad_length_mod message)
    exact ⟨aes.decrypt_encrypt hinverse message, hlen ▸ zeroPad_length_isLeast message⟩
  · intro ciphertext h
    obtain ⟨plain, hplain, -, hback⟩ := aes.encrypt_decrypt hinverse h
    exact ⟨plain, hplain, hback⟩
  · intro hmode whole rest h
    exact aes.encrypt_append hmode h rest
  · intro other hkey hiv message h
    exact aes.modes_agree hkey hiv h

/-- The published AES-128 example under an IV of zeros, and a second block that
chaining turns into the first. -/
def chainedExample : Bytes :=
  [0x00, 0x11, 0x22, 0x33, 0x44, 0x55, 0x66, 0x77, 0x88, 0x99, 0xAA, 0xBB, 0xCC, 0xDD, 0xEE, 0xFF] ++
    [0x69, 0xD5, 0xC2, 0xEB, 0x2E, 0x2E, 0x62, 0x47, 0x50, 0x54, 0x1D, 0x3B, 0xBC, 0x69, 0x2B, 0xA5]

def chainedSecret : Bytes :=
  [0x69, 0xC4, 0xE0, 0xD8, 0x6A, 0x7B, 0x04, 0x30, 0xD8, 0xCD, 0xB7, 0x80, 0x70, 0xB4, 0xC5, 0x5A] ++
    [0x69, 0xC4, 0xE0, 0xD8, 0x6A, 0x7B, 0x04, 0x30, 0xD8, 0xCD, 0xB7, 0x80, 0x70, 0xB4, 0xC5, 0x5A]

theorem aes128Cbc_inverts_example : ∃ aes : Aes128Cbc, aes.ivReset = false ∧
    aes.encrypt Primitives.aesExample chainedExample = chainedSecret ∧
    aes.decrypt Primitives.aesExample chainedSecret = .ok chainedExample := by
  let aes : Aes128Cbc := ⟨[0, 1, 2, 3, 4, 5, 6, 7, 8, 9, 10, 11, 12, 13, 14, 15], List.replicate 16 0,
    false, rfl, rfl⟩
  obtain ⟨hround, -⟩ := aes128Cbc_inverts Primitives.aesExample (Primitives.knownBlock_inverse rfl rfl) aes
  have hcipher : aes.encrypt Primitives.aesExample chainedExample = chainedSecret := by decide +kernel
  have hback := (hround chainedExample).1
  rw [hcipher] at hback
  exact ⟨aes, rfl, hcipher, hback⟩

end OnestiLock
