import Mathlib.Data.List.GetD
import NextNfs.Krb5.Acceptor
import NextNfs.Lib.Blocks

set_option relaxedAutoImplicit false
set_option autoImplicit false

/-!
# Kerberos encryption types

This module models `krb5/src/crypto.rs`: the n-fold, the key derivations, AES with ciphertext
stealing, and the encryption and the checksum of the four enctypes.

## Main definitions

* `NextNfs.Krb5.Primitives` — HMAC and AES, which come from other crates.
* `NextNfs.Krb5.nFold`, `NextNfs.Krb5.derive` — key derivation.
* `NextNfs.Krb5.ctsEncrypt`, `NextNfs.Krb5.ctsDecrypt` — chaining with ciphertext stealing.
* `NextNfs.Krb5.encryptWithConfounder`, `NextNfs.Krb5.decrypt`, `NextNfs.Krb5.checksum`.

## Main results

* `NextNfs.Krb5.ctsDecrypt_ctsEncrypt` — ciphertext stealing is undone.
* `NextNfs.Krb5.decrypt_encryptWithConfounder` — what is encrypted is decrypted.
* `NextNfs.Krb5.cts_bijection` — ciphertext stealing is a bijection.

## Implementation notes

Of HMAC the lengths of the digests are assumed, and of AES that it permutes blocks for each key. The
slices that the source turns into blocks are all of 16 bytes, so that its `expect`s never fail.
-/

namespace NextNfs.Krb5

open Wire Blocks

/-! ### Primitives -/

/-- The crates' HMAC over each hash function, and AES for each key. -/
structure Primitives where
  hmacSha1 : Bytes → Bytes → Bytes
  hmacSha256 : Bytes → Bytes → Bytes
  hmacSha384 : Bytes → Bytes → Bytes
  aes : Bytes → Cipher 16
  length_hmacSha1 : ∀ key message, (hmacSha1 key message).length = 20
  length_hmacSha256 : ∀ key message, (hmacSha256 key message).length = 32
  length_hmacSha384 : ∀ key message, (hmacSha384 key message).length = 48

namespace Enctype

/-- `hmac_len`. -/
def hmacLen : Enctype → ℕ
  | aes128CtsHmacSha1_96 | aes256CtsHmacSha1_96 => 12
  | aes128CtsHmacSha256_128 => 16
  | aes256CtsHmacSha384_192 => 24

/-- `is_rfc8009`. -/
def isRfc8009 : Enctype → Bool
  | aes128CtsHmacSha256_128 | aes256CtsHmacSha384_192 => true
  | _ => false

/-- `rfc8009_mac_bits`. -/
def rfc8009MacBits : Enctype → UInt32
  | aes256CtsHmacSha384_192 => 192
  | _ => 128

end Enctype

/-- `ct_eq`. -/
def ctEq (a b : Bytes) : Bool :=
  a.length == b.length && (a.zip b).foldl (fun d p => d ||| (p.1 ^^^ p.2)) 0 == 0

/-- A byte string does not differ from itself. -/
lemma foldl_zip_self (a : Bytes) :
    (a.zip a).foldl (fun d p => d ||| (p.1 ^^^ p.2)) (0 : UInt8) = 0 := by
  induction a with
  | nil => rfl
  | cons x a ih =>
    rw [List.zip_cons_cons, List.foldl_cons, UInt8.xor_self]
    exact ih

lemma ctEq_self (a : Bytes) : ctEq a a = true := by
  rw [ctEq, foldl_zip_self, beq_self_eq_true, Bool.true_and, beq_self_eq_true]

section Functions

variable (P : Primitives)

/-- `AesKey::new`. -/
def aesKey (key : Bytes) : Except Error (Cipher 16) :=
  if key.length = 16 ∨ key.length = 32 then .ok (P.aes key)
  else .error (.crypto ("bad AES key length " ++ toString key.length))

/-- `hmac`, over the parts one after the other. -/
def hmac (enctype : Enctype) (key : Bytes) (parts : List Bytes) : Bytes :=
  match enctype with
  | .aes128CtsHmacSha1_96 | .aes256CtsHmacSha1_96 => P.hmacSha1 key parts.flatten
  | .aes128CtsHmacSha256_128 => P.hmacSha256 key parts.flatten
  | .aes256CtsHmacSha384_192 => P.hmacSha384 key parts.flatten

/-- A block of zeros. -/
def zeroBlock : Bytes := List.replicate 16 0

/-- `cts_encrypt`. -/
def ctsEncrypt (key input : Bytes) : Except Error Bytes := do
  if input.length < 16 then .error (.crypto "CTS input shorter than one block")
  else
    let aes ← aesKey P key
    let n := (input.length + 15) / 16
    let blocks := cbc aes.encrypt zeroBlock (chunks 16 input)
    if n = 1 then pure (blocks.getD 0 [])
    else
      let lastLen := input.length - 16 * (n - 1)
      pure ((blocks.take (n - 2)).flatten ++ blocks.getD (n - 1) [] ++
        (blocks.getD (n - 2) []).take lastLen)

/-- `cts_decrypt`. -/
def ctsDecrypt (key input : Bytes) : Except Error Bytes := do
  if input.length < 16 then .error (.crypto "CTS input shorter than one block")
  else
    let aes ← aesKey P key
    let n := (input.length + 15) / 16
    let front := (chunks 16 input).take (n - 2)
    let out := (uncbc aes.decrypt zeroBlock front).flatten
    let prev := front.getLastD zeroBlock
    if n = 1 then pure (out ++ aes.decrypt input)
    else
      let base := 16 * (n - 2)
      let lastLen := input.length - 16 * (n - 1)
      let swapped := (input.drop base).take 16
      let tail := input.drop (base + 16)
      let z := aes.decrypt swapped
      let cPrev := tail ++ z.drop lastLen
      let lastPlain := xorInto z cPrev
      let p := xorInto (aes.decrypt cPrev) prev
      pure (out ++ p ++ lastPlain.take lastLen)

end Functions

/-! ### n-fold -/

/-- `byte_at` in `n_fold`: byte `i` of the copies of the input, each rotated by 13 bits more. -/
def byteAt (input : Bytes) (i : ℕ) : UInt8 :=
  let inLen := input.length
  let inBits := inLen * 8
  let k := i / inLen
  let pos := i % inLen
  let rot := (13 * k) % inBits
  let bit := fun b : ℕ =>
    let src := (b + inBits - rot) % inBits
    (input.getD (src / 8) 0 >>> UInt8.ofNat (7 - src % 8)) &&& 1
  (List.range 8).foldl (fun acc j => (acc <<< 1) ||| bit (pos * 8 + j)) 0

/-- One pass of the carries from the last byte to the first, and the carry that is left. -/
def carryPass : List ℕ → List ℕ × ℕ
  | [] => ([], 0)
  | v :: acc =>
    let (acc, carry) := carryPass acc
    ((v + carry) % 256 :: acc, (v + carry) / 256)

/-- The number that the bytes are the digits of. -/
def digits : List ℕ → ℕ
  | [] => 0
  | v :: acc => v * 256 ^ acc.length + digits acc

lemma length_carryPass (acc : List ℕ) : (carryPass acc).1.length = acc.length := by
  induction acc with
  | nil => rfl
  | cons v acc ih => simp [carryPass, ih]

/-- A pass keeps the number but for the carry that is left. -/
lemma digits_carryPass (acc : List ℕ) :
    digits (carryPass acc).1 + (carryPass acc).2 * 256 ^ acc.length = digits acc := by
  induction acc with
  | nil => rfl
  | cons v acc ih =>
    simp only [carryPass, digits, length_carryPass, List.length_cons, pow_succ]
    have hv := Nat.mod_add_div (v + (carryPass acc).2) 256
    calc (v + (carryPass acc).2) % 256 * 256 ^ acc.length + digits (carryPass acc).1 +
          (v + (carryPass acc).2) / 256 * (256 ^ acc.length * 256)
        = ((v + (carryPass acc).2) % 256 + 256 * ((v + (carryPass acc).2) / 256)) *
            256 ^ acc.length + digits (carryPass acc).1 := by ring
      _ = v * 256 ^ acc.length + digits acc := by rw [hv, ← ih]; ring

/-- What is added to a digit has the weight of its place. -/
lemma digits_modify (acc : List ℕ) {p : ℕ} (hp : p < acc.length) (v : ℕ) :
    digits (acc.modify p (· + v)) = digits acc + v * 256 ^ (acc.length - 1 - p) := by
  induction acc generalizing p with
  | nil => exact absurd hp (Nat.not_lt_zero p)
  | cons w acc ih =>
    cases p with
    | zero =>
      rw [List.modify_zero_cons, digits, digits, List.length_cons, Nat.add_sub_cancel, Nat.sub_zero]
      ring
    | succ p =>
      have hlen : acc.length - 1 - p = acc.length - (p + 1) := by omega
      rw [List.modify_succ_cons, digits, List.length_modify, ih (Nat.lt_of_succ_lt_succ hp), digits,
        List.length_cons, Nat.add_sub_cancel, hlen, Nat.add_assoc]

/-- What is left to carry is added at the end. -/
lemma digits_endAround {acc : List ℕ} (h : (carryPass acc).2 ≠ 0) :
    digits ((carryPass acc).1.modify (acc.length - 1) (· + (carryPass acc).2)) =
      digits (carryPass acc).1 + (carryPass acc).2 := by
  have hne : acc ≠ [] := by
    rintro rfl
    exact h rfl
  have hpos := List.length_pos_of_ne_nil hne
  have hlen := length_carryPass acc
  rw [digits_modify _ (by omega), hlen, Nat.sub_self, pow_zero, Nat.mul_one]

/-- This makes the number smaller. -/
lemma digits_endAround_lt {acc : List ℕ} (h : (carryPass acc).2 ≠ 0) :
    digits ((carryPass acc).1.modify (acc.length - 1) (· + (carryPass acc).2)) < digits acc := by
  have hne : acc.length ≠ 0 := by
    rintro hzero
    rw [List.eq_nil_of_length_eq_zero hzero] at h
    exact h rfl
  have hmul : (carryPass acc).2 < (carryPass acc).2 * 256 ^ acc.length :=
    lt_mul_of_one_lt_right (Nat.pos_of_ne_zero h) (Nat.one_lt_pow hne (by norm_num))
  have hkeep := digits_carryPass acc
  rw [digits_endAround h]
  omega

/-- The loop of `n_fold` that adds the carry that is left at the end, until there is none. -/
def propagate (acc : List ℕ) : List ℕ :=
  if _h : (carryPass acc).2 = 0 then (carryPass acc).1
  else propagate ((carryPass acc).1.modify (acc.length - 1) (· + (carryPass acc).2))
termination_by digits acc
decreasing_by exact digits_endAround_lt _h

lemma length_propagate (acc : List ℕ) : (propagate acc).length = acc.length := by
  induction acc using propagate.induct with
  | case1 acc h => rw [propagate, dif_pos h, length_carryPass]
  | case2 acc h ih => rw [propagate, dif_neg h, ih, List.length_modify, length_carryPass]

/-- `n_fold`. -/
def nFold (input : Bytes) (outLen : ℕ) : Bytes :=
  let lcm := input.length / Nat.gcd input.length outLen * outLen
  let acc := (List.range lcm).foldl
    (fun acc i => acc.modify (i % outLen) (· + (byteAt input i).toNat)) (List.replicate outLen 0)
  (propagate acc).map UInt8.ofNat

/-- Bytes that are added to sums leave as many. -/
lemma length_foldl_modify (input : Bytes) (outLen : ℕ) (l acc : List ℕ) :
    (l.foldl (fun acc i => acc.modify (i % outLen) (· + (byteAt input i).toNat)) acc).length =
      acc.length := by
  induction l generalizing acc with
  | nil => rfl
  | cons i l ih => rw [List.foldl_cons, ih, List.length_modify]

@[simp] lemma length_nFold (input : Bytes) (outLen : ℕ) : (nFold input outLen).length = outLen := by
  rw [nFold, List.length_map, length_propagate, length_foldl_modify, List.length_replicate]

/-! ### Key derivation -/

/-- A block of 16 bytes. -/
abbrev Block := { b : Bytes // b.length = 16 }

/-- The loop of `dk`. -/
def dkLoop (aes : Cipher 16) (len : ℕ) (block : Block) (out : Bytes) : Bytes :=
  if out.length < len then
    dkLoop aes len ⟨aes.encrypt block.1, aes.length_encrypt _ block.2⟩ (out ++ aes.encrypt block.1)
  else out
termination_by len - out.length
decreasing_by
  rw [List.length_append, aes.length_encrypt _ block.2]
  omega

/-- The loop comes to an end with enough bytes. -/
lemma le_length_dkLoop (aes : Cipher 16) (len : ℕ) (block : Block) (out : Bytes) :
    len ≤ (dkLoop aes len block out).length := by
  induction block, out using dkLoop.induct aes len with
  | case1 block out h ih =>
    rw [dkLoop, if_pos h]
    exact ih
  | case2 block out h =>
    rw [dkLoop, if_neg h]
    omega

section Functions

variable (P : Primitives)

/-- `dk`. -/
def dk (key constant : Bytes) : Except Error Bytes := do
  let aes ← aesKey P key
  pure ((dkLoop aes key.length ⟨nFold constant 16, length_nFold constant 16⟩ []).take key.length)

/-- `kdf_hmac_sha2`. -/
def kdfHmacSha2 (enctype : Enctype) (key label : Bytes) (kBits : UInt32) : Bytes :=
  (hmac P enctype key [beBytes 4 1, label, [0], beBytes 4 kBits.toNat]).take (kBits.toNat / 8)

/-- `derive`. -/
def derive (enctype : Enctype) (base : Bytes) (usage : UInt32) (tag : UInt8) :
    Except Error Bytes :=
  if base.length ≠ enctype.keyLen then
    .error (.crypto ("key length " ++ toString base.length ++ " does not match " ++ enctype.debug))
  else
    let label := beBytes 4 usage.toNat ++ [tag]
    if enctype.isRfc8009 then
      let bits := if tag = 0xAA then UInt32.ofNat (enctype.keyLen * 8) else enctype.rfc8009MacBits
      .ok (kdfHmacSha2 P enctype base label bits)
    else dk P base label

/-- `encrypt_with_confounder`. -/
def encryptWithConfounder (enctype : Enctype) (baseKey : Bytes) (usage : UInt32) (plaintext : Bytes)
    (confounder : Block) : Except Error Bytes := do
  let ke ← derive P enctype baseKey usage 0xAA
  let ki ← derive P enctype baseKey usage 0x55
  let data := confounder.1 ++ plaintext
  let out ← ctsEncrypt P ke data
  let mac := if enctype.isRfc8009 then hmac P enctype ki [zeroBlock, out]
    else hmac P enctype ki [data]
  pure (out ++ mac.take enctype.hmacLen)

/-- `encrypt`, with what `random_bytes(16)` gives. -/
def encrypt (random : Except Error Block) (enctype : Enctype) (baseKey : Bytes) (usage : UInt32)
    (plaintext : Bytes) : Except Error Bytes := do
  let confounder ← random
  encryptWithConfounder P enctype baseKey usage plaintext confounder

/-- `decrypt`. -/
def decrypt (enctype : Enctype) (baseKey : Bytes) (usage : UInt32) (ciphertext : Bytes) :
    Except Error Bytes :=
  let h := enctype.hmacLen
  if ciphertext.length < 16 + h then .error .integrity
  else do
    let c := ciphertext.take (ciphertext.length - h)
    let mac := ciphertext.drop (ciphertext.length - h)
    let ke ← derive P enctype baseKey usage 0xAA
    let ki ← derive P enctype baseKey usage 0x55
    if enctype.isRfc8009 then
      if !ctEq ((hmac P enctype ki [zeroBlock, c]).take h) mac then .error .integrity
      else
        let data ← ctsDecrypt P ke c
        pure (data.drop 16)
    else
      let data ← ctsDecrypt P ke c
      if !ctEq ((hmac P enctype ki [data]).take h) mac then .error .integrity
      else pure (data.drop 16)

/-- `checksum`, over the parts of a message. -/
def checksum (enctype : Enctype) (baseKey : Bytes) (usage : UInt32) (message : List Bytes) :
    Except Error Bytes := do
  let kc ← derive P enctype baseKey usage 0x99
  pure ((hmac P enctype kc message).take enctype.hmacLen)

end Functions

/-! ### Ciphertext stealing is undone -/

section Stealing

variable {P : Primitives} {key input : Bytes}

@[simp] lemma length_zeroBlock : zeroBlock.length = 16 := List.length_replicate

/-- An input of one block or more is full blocks followed by one that is not empty; of these there
are `n`. -/
lemma exists_blocks_of_length (h : 16 ≤ input.length) : ∃ (blocks : List Bytes) (last : Bytes),
    input = blocks.flatten ++ last ∧ (∀ b ∈ blocks, b.length = 16) ∧ last ≠ [] ∧
      last.length ≤ 16 ∧ (input.length + 15) / 16 = blocks.length + 1 := by
  obtain ⟨blocks, last, rfl, hblocks, hlast, hlen⟩ :=
    exists_blocks (l := input) (k := 16) (by norm_num) (by rintro rfl; simp at h)
  have hpos := List.length_pos_of_ne_nil hlast
  refine ⟨blocks, last, rfl, hblocks, hlast, hlen, ?_⟩
  rw [List.length_append, length_flatten hblocks]
  omega

/-- One block is encrypted by itself. -/
lemma ctsEncrypt_one (hkey : aesKey P key = .ok (P.aes key)) (h : input.length = 16) :
    ctsEncrypt P key input = .ok ((P.aes key).encrypt (xorInto zeroBlock input)) := by
  have hne : input ≠ [] := by rintro rfl; simp at h
  rw [ctsEncrypt, if_neg (by omega), hkey, chunks_of_length_le hne (le_of_eq h), except_ok_bind, h]
  rfl

/-- Of two blocks and more the last two change places, and the shorter one is cut. -/
lemma ctsEncrypt_blocks (hkey : aesKey P key = .ok (P.aes key)) {front : List Bytes} {x y : Bytes}
    (hfront : ∀ b ∈ front, b.length = 16) (hx : x.length = 16) (hy : y ≠ [])
    (hylen : y.length ≤ 16) :
    let enc := (P.aes key).encrypt
    let cs := cbc enc zeroBlock front
    let cx := enc (xorInto (cs.getLastD zeroBlock) x)
    ctsEncrypt P key (front.flatten ++ (x ++ y)) =
      .ok (cs.flatten ++ (enc (xorInto cx y) ++ cx.take y.length)) := by
  intro enc cs cx
  have hpos := List.length_pos_of_ne_nil hy
  have hblocks : ∀ b ∈ front ++ [x], b.length = 16 := by
    simpa [or_imp, forall_and, hx] using hfront
  have hinput : front.flatten ++ (x ++ y) = (front ++ [x]).flatten ++ y := by
    simp only [List.flatten_append, List.flatten_cons, List.flatten_nil, List.append_nil,
      List.append_assoc]
  have hlen : (front.flatten ++ (x ++ y)).length = 16 * front.length + (16 + y.length) := by
    rw [List.length_append, List.length_append, length_flatten hfront, hx]
  have hcbc : cbc enc zeroBlock (chunks 16 (front.flatten ++ (x ++ y))) =
      cs ++ [cx, enc (xorInto cx y)] := by
    rw [hinput, chunks_flatten_append hblocks hy hylen, List.append_assoc, cbc_append]
    rfl
  have hn : (16 * front.length + (16 + y.length) + 15) / 16 = front.length + 2 := by omega
  have hlast : 16 * front.length + (16 + y.length) - 16 * (front.length + 2 - 1) = y.length := by
    omega
  have hcs : cs.length = front.length := length_cbc enc zeroBlock front
  rw [ctsEncrypt, hlen, if_neg (by omega), hkey, except_ok_bind]
  simp only
  rw [hn, if_neg (by omega), hlast, hcbc, Nat.add_sub_cancel, ← hcs,
    List.take_left, List.getD_append_right _ _ _ _ (by omega),
    List.getD_append_right _ _ _ _ (le_refl _), Nat.sub_self,
    show cs.length + 2 - 1 - cs.length = 1 by omega, List.append_assoc]
  rfl

/-- The blocks that were swapped are put back, and the shorter one is filled up. -/
lemma ctsDecrypt_blocks (hkey : aesKey P key = .ok (P.aes key)) {cs : List Bytes} {w t : Bytes}
    (hcs : ∀ b ∈ cs, b.length = 16) (hw : w.length = 16) (ht : t ≠ []) (htlen : t.length ≤ 16) :
    let dec := (P.aes key).decrypt
    let cPrev := t ++ (dec w).drop t.length
    ctsDecrypt P key (cs.flatten ++ (w ++ t)) =
      .ok ((uncbc dec zeroBlock cs).flatten ++ xorInto (dec cPrev) (cs.getLastD zeroBlock) ++
        (xorInto (dec w) cPrev).take t.length) := by
  intro dec cPrev
  have hpos := List.length_pos_of_ne_nil ht
  have hflat := length_flatten hcs
  have hblocks : ∀ b ∈ cs ++ [w], b.length = 16 := by
    simpa [or_imp, forall_and, hw] using hcs
  have hinput : cs.flatten ++ (w ++ t) = (cs ++ [w]).flatten ++ t := by
    simp only [List.flatten_append, List.flatten_cons, List.flatten_nil, List.append_nil,
      List.append_assoc]
  have hlen : (cs.flatten ++ (w ++ t)).length = 16 * cs.length + (16 + t.length) := by
    rw [List.length_append, List.length_append, hflat, hw]
  have hchunks : (chunks 16 (cs.flatten ++ (w ++ t))).take cs.length = cs := by
    rw [hinput, chunks_flatten_append hblocks ht htlen, List.append_assoc, List.take_left]
  have hn : (16 * cs.length + (16 + t.length) + 15) / 16 = cs.length + 2 := by omega
  have hlast : 16 * cs.length + (16 + t.length) - 16 * (cs.length + 2 - 1) = t.length := by
    omega
  have hswapped : ((cs.flatten ++ (w ++ t)).drop (16 * cs.length)).take 16 = w := by
    rw [← hflat, List.drop_left, List.take_left' hw]
  have htail : (cs.flatten ++ (w ++ t)).drop (16 * cs.length + 16) = t := by
    rw [← List.append_assoc]
    exact List.drop_left' (by rw [List.length_append, hflat, hw])
  rw [ctsDecrypt, hlen, if_neg (by omega), hkey, except_ok_bind]
  simp only
  rw [hn, Nat.add_sub_cancel, hchunks, if_neg (by omega), hlast, hswapped, htail]
  rfl

variable (P input) in
/-- Ciphertext stealing keeps the length, and is undone. -/
lemma ctsDecrypt_ctsEncrypt (hkey : key.length = 16 ∨ key.length = 32) (h : 16 ≤ input.length) :
    ∃ c, ctsEncrypt P key input = .ok c ∧ c.length = input.length ∧
      ctsDecrypt P key c = .ok input := by
  have haes : aesKey P key = .ok (P.aes key) := by rw [aesKey, if_pos hkey]
  obtain ⟨blocks, y, rfl, hblocks, hy, hylen, -⟩ := exists_blocks_of_length h
  rcases List.eq_nil_or_concat blocks with rfl | ⟨front, x, rfl⟩
  · -- a single block
    have hylen' : y.length = 16 := le_antisymm hylen (by simpa using h)
    have hin : (xorInto zeroBlock y).length = 16 := by simp
    have hout := (P.aes key).length_encrypt _ hin
    refine ⟨_, ctsEncrypt_one haes (by simpa using hylen'), by simp [hout, hylen'], ?_⟩
    have hzero : xorInto zeroBlock y = y := by
      rw [zeroBlock, ← hylen']
      exact zero_xorInto y
    rw [ctsDecrypt, List.flatten_nil, List.nil_append, hout, if_neg (by omega), haes, except_ok_bind]
    show Except.ok _ = _
    rw [(P.aes key).decrypt_encrypt _ hin, hzero]
    rfl
  · -- the last two blocks
    rw [List.concat_eq_append] at hblocks ⊢
    have hfront : ∀ b ∈ front, b.length = 16 := fun b hb => hblocks b (List.mem_append_left _ hb)
    have hx : x.length = 16 := hblocks x (by simp)
    set cs := cbc (P.aes key).encrypt zeroBlock front with hcs
    set prev := cs.getLastD zeroBlock with hprevdef
    set cx := (P.aes key).encrypt (xorInto prev x) with hcx
    have hcslen : ∀ b ∈ cs, b.length = 16 := length_of_mem_cbc _ length_zeroBlock
    have hprev : prev.length = 16 := length_getLastD_cbc _ length_zeroBlock
    have hpx : (xorInto prev x).length = 16 := by simpa using hprev
    have hcxlen : cx.length = 16 := (P.aes key).length_encrypt _ hpx
    have hcxy : (xorInto cx y).length = 16 := by simpa using hcxlen
    have htake : (cx.take y.length).length = y.length := by
      rw [List.length_take, hcxlen, Nat.min_eq_left hylen]
    have hw := (P.aes key).length_encrypt _ hcxy
    have hne : cx.take y.length ≠ [] := by
      rw [← List.length_pos_iff_ne_nil, htake]
      exact List.length_pos_of_ne_nil hy
    have hinput : (front ++ [x]).flatten ++ y = front.flatten ++ (x ++ y) := by
      simp only [List.flatten_append, List.flatten_cons, List.flatten_nil, List.append_nil,
        List.append_assoc]
    rw [hinput]
    refine ⟨_, ctsEncrypt_blocks haes hfront hx hy hylen, ?_, ?_⟩
    · have hcount : cs.length = front.length := length_cbc _ _ _
      rw [List.length_append, List.length_append, length_flatten hcslen, hw, htake, hcount,
        List.length_append, List.length_append, length_flatten hfront, hx]
    · have hfill : cx.take y.length ++ (xorInto cx y).drop (cx.take y.length).length = cx := by
        rw [htake, drop_xorInto, List.take_append_drop]
      rw [ctsDecrypt_blocks haes hcslen hw hne (by rw [htake]; exact hylen),
        (P.aes key).decrypt_encrypt _ hcxy, hfill, (P.aes key).decrypt_encrypt _ hpx, htake,
        take_xorInto_xorInto (by rw [hcxlen]; exact hylen), xorInto_xorInto (by rw [hx, hprev]),
        uncbc_cbc _ length_zeroBlock hfront, List.append_assoc]

variable (P input) in
/-- Every byte string of a block or more is a ciphertext: its length has finitely many, and
encryption does not merge two of them. -/
lemma ctsEncrypt_ctsDecrypt (hkey : key.length = 16 ∨ key.length = 32) (h : 16 ≤ input.length) :
    ∃ p, ctsDecrypt P key input = .ok p ∧ p.length = input.length ∧
      ctsEncrypt P key p = .ok input := by
  choose enc henc hlen hback using fun b : { b : Bytes // b.length = input.length } =>
    ctsDecrypt_ctsEncrypt P b.1 hkey (h.trans_eq b.2.symm)
  let f : { b : Bytes // b.length = input.length } → { b : Bytes // b.length = input.length } :=
    fun b => ⟨enc b, (hlen b).trans b.2⟩
  have hinj : Function.Injective f := by
    intro a b hab
    have heq : enc a = enc b := congrArg Subtype.val hab
    exact Subtype.ext (Except.ok.inj ((hback a).symm.trans (heq ▸ hback b)))
  obtain ⟨p, hp⟩ := Finite.surjective_of_injective hinj ⟨input, rfl⟩
  have hinput : enc p = input := congrArg Subtype.val hp
  have hdecrypt := hback p
  have hencrypt := henc p
  rw [hinput] at hdecrypt hencrypt
  exact ⟨p.1, hdecrypt, p.2, hencrypt⟩

end Stealing

/-! ### Encryption and decryption -/

section Encryption

variable (P : Primitives) (enctype : Enctype) (base : Bytes) (usage : UInt32)

/-- The digest of an enctype is at least as long as what is kept of it. -/
lemma hmacLen_le_length_hmac (key : Bytes) (parts : List Bytes) :
    enctype.hmacLen ≤ (hmac P enctype key parts).length := by
  cases enctype <;>
    simp [hmac, Enctype.hmacLen, P.length_hmacSha1, P.length_hmacSha256, P.length_hmacSha384]

lemma length_take_hmac (key : Bytes) (parts : List Bytes) :
    ((hmac P enctype key parts).take enctype.hmacLen).length = enctype.hmacLen := by
  rw [List.length_take, Nat.min_eq_left (hmacLen_le_length_hmac P enctype key parts)]

lemma keyLen_eq : enctype.keyLen = 16 ∨ enctype.keyLen = 32 := by
  cases enctype <;> simp [Enctype.keyLen]

/-- A key of the enctype's length gives keys for every usage, and the one to encrypt with is as
long. -/
lemma exists_derive (h : base.length = enctype.keyLen) (tag : UInt8) :
    ∃ k, derive P enctype base usage tag = .ok k ∧ (tag = 0xAA → k.length = enctype.keyLen) := by
  have haes : aesKey P base = .ok (P.aes base) := by
    rw [aesKey, if_pos (h ▸ keyLen_eq enctype)]
  rw [derive, if_neg (by simpa using h)]
  cases h8009 : enctype.isRfc8009 with
  | false =>
    refine ⟨_, by simp only [Bool.false_eq_true, if_false, dk, haes, except_ok_bind]; rfl, fun _ => ?_⟩
    rw [List.length_take, h, Nat.min_eq_left (le_length_dkLoop _ _ _ _)]
  | true =>
    refine ⟨_, rfl, fun htag => ?_⟩
    rw [if_pos htag, kdfHmacSha2, List.length_take]
    cases enctype with
    | aes128CtsHmacSha256_128 => simp [hmac, P.length_hmacSha256, Enctype.keyLen]
    | aes256CtsHmacSha384_192 => simp [hmac, P.length_hmacSha384, Enctype.keyLen]
    | _ => cases h8009

/-- A key of another length gives no key. -/
lemma derive_of_ne (h : base.length ≠ enctype.keyLen) (tag : UInt8) :
    ∃ e, derive P enctype base usage tag = .error e := by
  rw [derive, if_pos h]
  exact ⟨_, rfl⟩

/-- **Decryption undoes encryption**, for every key of the enctype's length, usage, plaintext and
confounder. -/
lemma decrypt_encryptWithConfounder (h : base.length = enctype.keyLen) (plaintext : Bytes)
    (confounder : Block) :
    ∃ c, encryptWithConfounder P enctype base usage plaintext confounder = .ok c ∧
      c.length = 16 + plaintext.length + enctype.hmacLen ∧
      decrypt P enctype base usage c = .ok plaintext := by
  obtain ⟨ke, hke, hkelen⟩ := exists_derive P enctype base usage h 0xAA
  obtain ⟨ki, hki, -⟩ := exists_derive P enctype base usage h 0x55
  have hkey : ke.length = 16 ∨ ke.length = 32 := by
    rw [hkelen rfl]
    exact keyLen_eq enctype
  have hdata : (confounder.1 ++ plaintext).length = 16 + plaintext.length := by
    rw [List.length_append, confounder.2]
  obtain ⟨out, hout, houtlen, hback⟩ :=
    ctsDecrypt_ctsEncrypt P (confounder.1 ++ plaintext) hkey (by omega)
  set mac := if enctype.isRfc8009 then hmac P enctype ki [zeroBlock, out]
    else hmac P enctype ki [confounder.1 ++ plaintext] with hmac'
  have hmaclen : (mac.take enctype.hmacLen).length = enctype.hmacLen := by
    rw [hmac']
    split_ifs <;> exact length_take_hmac P enctype ki _
  have hlen : (out ++ mac.take enctype.hmacLen).length =
      16 + plaintext.length + enctype.hmacLen := by
    rw [List.length_append, houtlen, hdata, hmaclen]
  have hsplit : (out ++ mac.take enctype.hmacLen).length - enctype.hmacLen = out.length := by
    rw [hlen, houtlen, hdata, Nat.add_sub_cancel]
  refine ⟨out ++ mac.take enctype.hmacLen, ?_, hlen, ?_⟩
  · rw [encryptWithConfounder, hke, except_ok_bind, hki, except_ok_bind]
    simp only
    rw [hout, except_ok_bind]
    rfl
  · rw [decrypt, if_neg (by omega)]
    simp only
    rw [hsplit, List.take_left, List.drop_left, hke, except_ok_bind, hki, except_ok_bind, hback]
    cases h8009 : enctype.isRfc8009 with
    | true =>
      rw [hmac', h8009, if_pos rfl, if_pos rfl, ctEq_self]
      simp only [Bool.not_true, Bool.false_eq_true, if_false, except_ok_bind]
      rw [List.drop_left' confounder.2]
      rfl
    | false =>
      rw [hmac', h8009]
      simp only [Bool.false_eq_true, if_false, except_ok_bind, ctEq_self, Bool.not_true]
      rw [List.drop_left' confounder.2]
      rfl

/-- A checksum is made with a key of the enctype's length. -/
lemma exists_checksum (h : base.length = enctype.keyLen) (message : List Bytes) :
    ∃ c, checksum P enctype base usage message = .ok c ∧ c.length = enctype.hmacLen := by
  obtain ⟨kc, hkc, -⟩ := exists_derive P enctype base usage h 0x99
  exact ⟨_, by rw [checksum, hkc, except_ok_bind]; rfl, length_take_hmac P enctype kc message⟩

end Encryption

/-- **Ciphertext stealing is a bijection.** For every cipher and every key of a length it takes,
encryption of the byte strings of a block or more keeps their length and has decryption as its
inverse, from both sides; and what an enctype encrypts it decrypts.

**Proof sketch.** The last two blocks are read back by `ctsDecrypt_blocks`, and the blocks in front
of them by induction. What is undone does not merge two strings, and there are finitely many of a
length. -/
theorem cts_bijection (P : Primitives) :
    (∀ key input : Bytes, key.length = 16 ∨ key.length = 32 → 16 ≤ input.length →
      (∃ c, ctsEncrypt P key input = .ok c ∧ c.length = input.length ∧
        ctsDecrypt P key c = .ok input) ∧
      ∃ p, ctsDecrypt P key input = .ok p ∧ p.length = input.length ∧
        ctsEncrypt P key p = .ok input) ∧
    ∀ (enctype : Enctype) (base : Bytes) (usage : UInt32) (plaintext : Bytes) (confounder : Block),
      base.length = enctype.keyLen →
      ∃ c, encryptWithConfounder P enctype base usage plaintext confounder = .ok c ∧
        decrypt P enctype base usage c = .ok plaintext := by
  refine ⟨fun key input hkey h => ⟨ctsDecrypt_ctsEncrypt P input hkey h,
    ctsEncrypt_ctsDecrypt P input hkey h⟩, fun enctype base usage plaintext confounder h => ?_⟩
  obtain ⟨c, hc, -, hback⟩ := decrypt_encryptWithConfounder P enctype base usage h plaintext confounder
  exact ⟨c, hc, hback⟩

/-- Digests of zeros, and a permutation that leaves blocks as they are. -/
def samplePrimitives : Primitives where
  hmacSha1 _ _ := List.replicate 20 0
  hmacSha256 _ _ := List.replicate 32 0
  hmacSha384 _ _ := List.replicate 48 0
  aes _ := ⟨id, id, fun _ h => h, fun _ _ => rfl⟩
  length_hmacSha1 _ _ := List.length_replicate
  length_hmacSha256 _ _ := List.length_replicate
  length_hmacSha384 _ _ := List.length_replicate

/-- **Ciphertext stealing is a bijection**, on 17 bytes. -/
theorem cts_bijection_sample : ∃ c, ctsEncrypt samplePrimitives (List.replicate 16 0)
    (List.replicate 17 1) = .ok c ∧ c.length = 17 ∧
      ctsDecrypt samplePrimitives (List.replicate 16 0) c = .ok (List.replicate 17 1) :=
  ((cts_bijection samplePrimitives).1 _ _ (.inl (by decide)) (by decide)).1

end NextNfs.Krb5
