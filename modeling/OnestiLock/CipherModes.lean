import Mathlib.Tactic.SplitIfs
import OnestiLock.FramingRoundTrip

/-! `Aes128Cbc.decrypt` gives back the padded plaintext, in both modes, when the
block cipher's decryption inverts its encryption. -/

namespace OnestiLock

/-! Splitting into blocks and joining them again. -/

theorem splitBlocks_append {block : Bytes} (h : block.length = aesBlockSize) (fuel : Nat)
    (rest : Bytes) : splitBlocks (fuel + 1) (block ++ rest) = block :: splitBlocks fuel rest := by
  have hne : block ++ rest ≠ [] := by
    intro hnil
    have hlen := congrArg List.length hnil
    simp only [List.length_append, h, aesBlockSize, List.length_nil] at hlen
    omega
  have htake : (block ++ rest).take aesBlockSize = block := by rw [← h, List.take_left]
  have hdrop : (block ++ rest).drop aesBlockSize = rest := by rw [← h, List.drop_left]
  simp only [splitBlocks, hne, if_false, htake, hdrop]

theorem splitBlocks_flatten {blocks : List Bytes} (h : ∀ b ∈ blocks, b.length = aesBlockSize)
    {fuel : Nat} (hfuel : blocks.length ≤ fuel) : splitBlocks fuel blocks.flatten = blocks := by
  induction blocks generalizing fuel with
  | nil => cases fuel <;> simp [splitBlocks]
  | cons block blocks ih =>
    cases fuel with
    | zero => simp at hfuel
    | succ fuel =>
      have hrest : splitBlocks fuel blocks.flatten = blocks :=
        ih (fun b hb => h b (by simp [hb])) (by simpa using hfuel)
      rw [List.flatten_cons, splitBlocks_append (h block (by simp)), hrest]

theorem flatten_length {blocks : List Bytes} (h : ∀ b ∈ blocks, b.length = aesBlockSize) :
    blocks.flatten.length = blocks.length * aesBlockSize := by
  induction blocks with
  | nil => rfl
  | cons block blocks ih =>
    have hblock := h block (by simp)
    have hrest := ih (fun b hb => h b (by simp [hb]))
    rw [List.flatten_cons, List.length_append, hblock, hrest, List.length_cons, Nat.succ_mul]
    omega

theorem flatten_splitBlocks {data : Bytes} {fuel : Nat} (hfuel : data.length ≤ fuel) :
    (splitBlocks fuel data).flatten = data := by
  induction fuel generalizing data with
  | zero =>
    have hnil := List.length_eq_zero_iff.mp (by omega : data.length = 0)
    simp [splitBlocks, hnil]
  | succ fuel ih =>
    by_cases hnil : data = []
    · simp [splitBlocks, hnil]
    · have hpos := List.length_pos_iff.mpr hnil
      have hdrop : (data.drop aesBlockSize).length ≤ fuel := by
        rw [List.length_drop, aesBlockSize]
        omega
      simp only [splitBlocks, hnil, if_false, List.flatten_cons, ih hdrop, List.take_append_drop]

theorem length_of_mem_splitBlocks {data : Bytes} (h : data.length % aesBlockSize = 0)
    (fuel : Nat) : ∀ b ∈ splitBlocks fuel data, b.length = aesBlockSize := by
  induction fuel generalizing data with
  | zero => simp [splitBlocks]
  | succ fuel ih =>
    intro b hb
    by_cases hnil : data = []
    · simp [splitBlocks, hnil] at hb
    · have hpos := List.length_pos_iff.mpr hnil
      have hfull : aesBlockSize ≤ data.length := by
        simp only [aesBlockSize] at h ⊢
        omega
      simp only [splitBlocks, hnil, if_false, List.mem_cons] at hb
      rcases hb with rfl | hb
      · rw [List.length_take, Nat.min_eq_left hfull]
      · refine ih ?_ b hb
        rw [List.length_drop]
        simp only [aesBlockSize] at h hfull ⊢
        omega

theorem splitBlocks_block {data : Bytes} (h : data.length = aesBlockSize) :
    splitBlocks data.length data = [data] := by
  have hsplit := splitBlocks_append h (aesBlockSize - 1) []
  rw [List.append_nil] at hsplit
  rw [h]
  exact hsplit

theorem zeroPad_block {data : Bytes} (h : data.length = aesBlockSize) : zeroPad data = data := by
  simp [zeroPad, h, aesBlockSize]

theorem length_le_zeroPad (data : Bytes) : data.length ≤ (zeroPad data).length := by
  rw [zeroPad, List.length_append]
  omega

theorem xorBytes_length {xs ys : Bytes} (hx : xs.length = aesBlockSize) (hy : ys.length = aesBlockSize) :
    (xorBytes xs ys).length = aesBlockSize := by
  simp [xorBytes, hx, hy]

theorem xorBytes_cancel {xs ys : Bytes} (h : xs.length = ys.length) :
    xorBytes (xorBytes xs ys) ys = xs := by
  induction xs generalizing ys with
  | nil => simp [xorBytes]
  | cons x xs ih =>
    cases ys with
    | nil => simp at h
    | cons y ys =>
      have hrest := ih (by simpa using h)
      simp only [xorBytes, List.zipWith_cons_cons, List.cons.injEq] at hrest ⊢
      refine ⟨?_, hrest⟩
      rw [UInt8.xor_assoc, UInt8.xor_self, UInt8.xor_zero]

/-- The block cipher's two directions, as AES keeps them. -/
def Primitives.BlockInverse (prim : Primitives) : Prop :=
  ∀ key block, block.length = aesBlockSize → prim.decryptBlock key (prim.encryptBlock key block) = block

/-- One block under one key, known from elsewhere. Every other block is left as it is. -/
def Primitives.knownBlock (key plain secret : Bytes) (hplain : plain.length = aesBlockSize)
    (hsecret : secret.length = aesBlockSize) : Primitives :=
  let swap (k block : Bytes) : Bytes :=
    if k ≠ key then block else if block = plain then secret else if block = secret then plain
    else block
  have hswap : ∀ k block : Bytes, block.length = aesBlockSize → (swap k block).length = aesBlockSize := by
    intro k block h
    simp only [swap]
    split_ifs <;> first | exact h | exact hsecret | exact hplain
  { Primitives.scalarOne with
    encryptBlock := swap
    decryptBlock := swap
    encryptBlock_length := hswap
    decryptBlock_length := hswap }

theorem Primitives.knownBlock_inverse {key plain secret : Bytes} (hplain : plain.length = aesBlockSize)
    (hsecret : secret.length = aesBlockSize) :
    (Primitives.knownBlock key plain secret hplain hsecret).BlockInverse := by
  intro k block _
  simp only [knownBlock]
  split_ifs <;> simp_all

section

variable {prim : Primitives} {key chain : Bytes} {blocks : List Bytes}

/-- The ciphertext blocks of one CBC run. -/
def cbcBlocks (prim : Primitives) (key : Bytes) : Bytes → List Bytes → List Bytes
  | _, [] => []
  | chain, block :: rest =>
    prim.encryptBlock key (xorBytes block chain) ::
      cbcBlocks prim key (prim.encryptBlock key (xorBytes block chain)) rest

theorem cbcEncrypt_eq (chain : Bytes) (blocks : List Bytes) :
    cbcEncrypt prim key chain blocks = (cbcBlocks prim key chain blocks).flatten := by
  induction blocks generalizing chain with
  | nil => rfl
  | cons block blocks ih => simp only [cbcEncrypt, cbcBlocks, List.flatten_cons, ih]

theorem length_cbcBlocks (chain : Bytes) (blocks : List Bytes) :
    (cbcBlocks prim key chain blocks).length = blocks.length := by
  induction blocks generalizing chain with
  | nil => rfl
  | cons block blocks ih => simp only [cbcBlocks, List.length_cons, ih]

theorem cbcBlocks_length (hchain : chain.length = aesBlockSize)
    (hblocks : ∀ b ∈ blocks, b.length = aesBlockSize) :
    ∀ c ∈ cbcBlocks prim key chain blocks, c.length = aesBlockSize := by
  induction blocks generalizing chain with
  | nil => simp [cbcBlocks]
  | cons block blocks ih =>
    intro c hc
    have hfirst : (prim.encryptBlock key (xorBytes block chain)).length = aesBlockSize :=
      prim.encryptBlock_length _ _ (xorBytes_length (hblocks block (by simp)) hchain)
    simp only [cbcBlocks, List.mem_cons] at hc
    rcases hc with rfl | hc
    · exact hfirst
    · exact ih hfirst (fun b hb => hblocks b (by simp [hb])) c hc

theorem cbcDecrypt_cbcBlocks (hinverse : prim.BlockInverse) (hchain : chain.length = aesBlockSize)
    (hblocks : ∀ b ∈ blocks, b.length = aesBlockSize) :
    cbcDecrypt prim key chain (cbcBlocks prim key chain blocks) = blocks.flatten := by
  induction blocks generalizing chain with
  | nil => rfl
  | cons block blocks ih =>
    have hblock := hblocks block (by simp)
    have hxor : (xorBytes block chain).length = aesBlockSize := xorBytes_length hblock hchain
    have hfirst : (prim.encryptBlock key (xorBytes block chain)).length = aesBlockSize :=
      prim.encryptBlock_length _ _ hxor
    have hrest := ih hfirst (fun b hb => hblocks b (by simp [hb]))
    simp only [cbcBlocks, cbcDecrypt, List.flatten_cons, hinverse key _ hxor, hrest]
    rw [xorBytes_cancel (by rw [hblock, hchain])]

end

namespace Aes128Cbc

variable {prim : Primitives} (aes : Aes128Cbc)

/-- The ciphertext blocks of `encrypt`, in either mode. -/
def cipherBlocks (prim : Primitives) (data : Bytes) : List Bytes :=
  if aes.ivReset then
    (splitBlocks data.length data).map (fun block => prim.encryptBlock aes.key (xorBytes block aes.iv))
  else cbcBlocks prim aes.key aes.iv (splitBlocks data.length data)

theorem cbc_encrypt_block {block : Bytes} (h : block.length = aesBlockSize) :
    aes.cbc prim block false = prim.encryptBlock aes.key (xorBytes block aes.iv) := by
  simp [cbc, splitBlocks_block h, cbcEncrypt]

theorem cbc_decrypt_block {block : Bytes} (h : block.length = aesBlockSize) :
    aes.cbc prim block true = xorBytes (prim.decryptBlock aes.key block) aes.iv := by
  simp [cbc, splitBlocks_block h, cbcDecrypt]

theorem run_encrypt {data : Bytes} (h : data.length % aesBlockSize = 0) :
    aes.run prim data false = (aes.cipherBlocks prim data).flatten := by
  have hblocks := length_of_mem_splitBlocks h data.length
  by_cases hmode : aes.ivReset = true
  · simp only [run, hmode, if_true, cipherBlocks, List.flatMap]
    refine congrArg List.flatten (List.map_congr_left ?_)
    intro block hblock
    exact aes.cbc_encrypt_block (hblocks block hblock)
  · simp [run, hmode, cipherBlocks, cbc, cbcEncrypt_eq]

theorem cipherBlocks_length {data : Bytes} (h : data.length % aesBlockSize = 0) :
    ∀ c ∈ aes.cipherBlocks prim data, c.length = aesBlockSize := by
  have hblocks := length_of_mem_splitBlocks h data.length
  by_cases hmode : aes.ivReset = true
  · intro c hc
    simp only [cipherBlocks, hmode, if_true, List.mem_map] at hc
    obtain ⟨block, hblock, rfl⟩ := hc
    exact prim.encryptBlock_length _ _ (xorBytes_length (hblocks block hblock) aes.iv_length)
  · simp only [cipherBlocks, hmode]
    exact cbcBlocks_length aes.iv_length hblocks

theorem run_decrypt_flatten {blocks : List Bytes} (h : ∀ c ∈ blocks, c.length = aesBlockSize) :
    aes.run prim blocks.flatten true =
      if aes.ivReset then
        blocks.flatMap (fun block => xorBytes (prim.decryptBlock aes.key block) aes.iv)
      else cbcDecrypt prim aes.key aes.iv blocks := by
  have hcount : blocks.length ≤ blocks.flatten.length := by
    rw [flatten_length h, aesBlockSize]
    omega
  have hsplit := splitBlocks_flatten h hcount
  by_cases hmode : aes.ivReset = true
  · simp only [run, hmode, if_true, hsplit, List.flatMap]
    refine congrArg List.flatten (List.map_congr_left ?_)
    intro block hblock
    exact aes.cbc_decrypt_block (h block hblock)
  · simp only [run, hmode, cbc, hsplit]
    rfl

theorem run_decrypt_run (hinverse : prim.BlockInverse) {data : Bytes}
    (h : data.length % aesBlockSize = 0) :
    aes.run prim (aes.run prim data false) true = data := by
  have hblocks := length_of_mem_splitBlocks h data.length
  rw [aes.run_encrypt h, aes.run_decrypt_flatten (aes.cipherBlocks_length h)]
  by_cases hmode : aes.ivReset = true
  · simp only [hmode, if_true, cipherBlocks, List.flatMap, List.map_map]
    calc ((splitBlocks data.length data).map _).flatten
        = ((splitBlocks data.length data).map id).flatten := by
          refine congrArg List.flatten (List.map_congr_left ?_)
          intro block hblock
          have hlen := hblocks block hblock
          have hxor : (xorBytes block aes.iv).length = aesBlockSize := xorBytes_length hlen aes.iv_length
          simp only [Function.comp_apply, hinverse aes.key _ hxor, id]
          exact xorBytes_cancel (by rw [hlen, aes.iv_length])
      _ = data := by rw [List.map_id, flatten_splitBlocks (Nat.le_refl _)]
  · simp only [hmode, cipherBlocks]
    exact (cbcDecrypt_cbcBlocks hinverse aes.iv_length hblocks).trans
      (flatten_splitBlocks (Nat.le_refl _))

theorem length_cipherBlocks (data : Bytes) :
    (aes.cipherBlocks prim data).length = (splitBlocks data.length data).length := by
  by_cases hmode : aes.ivReset = true
  · simp [cipherBlocks, hmode]
  · simp only [cipherBlocks, hmode]
    exact length_cbcBlocks _ _

theorem run_encrypt_length {data : Bytes} (h : data.length % aesBlockSize = 0) :
    (aes.run prim data false).length = data.length := by
  have hjoin : (splitBlocks data.length data).flatten = data := flatten_splitBlocks (Nat.le_refl _)
  calc (aes.run prim data false).length
      = (aes.cipherBlocks prim data).length * aesBlockSize := by
        rw [aes.run_encrypt h, flatten_length (aes.cipherBlocks_length h)]
    _ = (splitBlocks data.length data).flatten.length := by
        rw [aes.length_cipherBlocks, flatten_length (length_of_mem_splitBlocks h _)]
    _ = data.length := by rw [hjoin]

theorem decrypt_encrypt (hinverse : prim.BlockInverse) (plaintext : Bytes) :
    aes.decrypt prim (aes.encrypt prim plaintext) = .ok (zeroPad plaintext) := by
  have hpad := zeroPad_length_mod plaintext
  have hmod : (aes.encrypt prim plaintext).length % aesBlockSize = 0 := by
    rw [encrypt, aes.run_encrypt_length hpad, hpad]
  simp only [decrypt, hmod, ne_eq, not_true, if_false]
  rw [encrypt, aes.run_decrypt_run hinverse hpad]

/-- The link cipher on both ends. -/
theorem cipherPair (hinverse : prim.BlockInverse) :
    CipherPair (aes.payloadCipher prim) (aes.payloadCipher prim) := by
  refine ⟨aes.decrypt_encrypt hinverse, ?_⟩
  intro plaintext
  have hlen : (aes.encrypt prim plaintext).length = (zeroPad plaintext).length :=
    aes.run_encrypt_length (zeroPad_length_mod plaintext)
  exact (length_le_zeroPad plaintext).trans_eq hlen.symm

end Aes128Cbc

end OnestiLock
