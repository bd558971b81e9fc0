import Mathlib.Algebra.BigOperators.Group.Finset.Basic
import NextNfs.Lib.Blocks

set_option relaxedAutoImplicit false
set_option autoImplicit false

/-!
# Bits and digits of byte strings

A byte string is a big-endian number in two ways: of its bytes, with the base 256, and of its bits.
This module relates the bits of the number to those of the bytes, rotates byte strings by bits, and
adds the blocks of a byte string up.

## Main definitions

* `Wire.bits` — the bits of a byte string, the first byte at the top.
* `Wire.rotateRight` — a byte string, rotated by bits.

## Main results

* `Wire.getMsbD_bits` — a bit of a byte string is one of one of its bytes.
* `Wire.testBit_rotateRight` — a bit of a rotated byte string.
* `Wire.sum_chunks` — the sum of the blocks of a byte string, byte by byte.
-/

namespace Wire

open Blocks

/-! ### Bits -/

/-- The bits of a byte string, the first byte at the top. -/
def bits (bs : Bytes) : BitVec (8 * bs.length) := BitVec.ofNat _ (ofBytes bs)

/-- A byte string, rotated right by `r` bits. -/
def rotateRight (bs : Bytes) (r : ℕ) : Bytes := beBytes bs.length ((bits bs).rotateRight r).toNat

@[simp] lemma length_rotateRight (bs : Bytes) (r : ℕ) : (rotateRight bs r).length = bs.length :=
  length_beBytes _ _

lemma rotateRight_zero (bs : Bytes) : rotateRight bs 0 = bs := by
  have hlt : ofBytes bs < 2 ^ (8 * bs.length) := by
    rw [pow_mul]
    exact ofBytes_lt bs
  have hbits : ((bits bs).rotateRight 0).toNat = ofBytes bs := by
    rw [BitVec.rotateRight_def, Nat.zero_mod, Nat.sub_zero, BitVec.shiftLeft_eq_zero le_rfl]
    simp [bits, Nat.mod_eq_of_lt hlt]
  rw [rotateRight, hbits, beBytes_ofBytes]

/-- A bit of a word is one of one of its bytes. -/
lemma testBit_beBytes {k n p r : ℕ} (hp : p < k) (hr : r < 8) :
    ((beBytes k n).getD p 0).toNat.testBit r = n.testBit (8 * (k - 1 - p) + r) := by
  induction k generalizing p with
  | zero => exact absurd hp (Nat.not_lt_zero p)
  | succ k ih =>
    cases p with
    | zero =>
      have hbyte : ((beBytes (k + 1) n).getD 0 0).toNat = n / 2 ^ (8 * k) % 2 ^ 8 := by
        rw [pow_mul]
        simp [beBytes]
      rw [hbyte, Nat.testBit_mod_two_pow, Nat.testBit_div_two_pow, decide_eq_true hr,
        Bool.true_and]
      congr 1
      omega
    | succ p =>
      rw [beBytes, List.getD_cons_succ, ih (by omega)]
      congr 2
      omega

/-- A bit of a byte string is one of one of its bytes. -/
lemma getMsbD_bits {bs : Bytes} {i : ℕ} (hi : i < 8 * bs.length) :
    (bits bs).getMsbD i = (bs.getD (i / 8) 0).toNat.testBit (7 - i % 8) := by
  have hbyte := testBit_beBytes (n := ofBytes bs) (p := i / 8) (r := 7 - i % 8) (k := bs.length)
    (by omega) (by omega)
  rw [beBytes_ofBytes] at hbyte
  rw [hbyte, BitVec.getMsbD, decide_eq_true hi, Bool.true_and, bits, BitVec.getLsbD_ofNat,
    decide_eq_true (by omega), Bool.true_and]
  congr 1
  omega

/-- A bit of a rotated byte string. -/
lemma testBit_rotateRight {bs : Bytes} {r p j : ℕ} (hp : p < bs.length) (hj : j < 8) :
    ((rotateRight bs r).getD p 0).toNat.testBit (7 - j) =
      (bits bs).getMsbD ((8 * p + j + 8 * bs.length - r % (8 * bs.length)) % (8 * bs.length)) := by
  have hrot : r % (8 * bs.length) < 8 * bs.length := Nat.mod_lt _ (by omega)
  have hplace : 8 * bs.length - 1 - (8 * (bs.length - 1 - p) + (7 - j)) = 8 * p + j := by omega
  rw [rotateRight, testBit_beBytes hp (by omega), BitVec.testBit_toNat, BitVec.getLsbD_eq_getMsbD,
    hplace, decide_eq_true (by omega), Bool.true_and, BitVec.getMsbD_rotateRight,
    decide_eq_true (by omega), Bool.true_and]
  split_ifs with hwrap
  · rw [Nat.add_comm (8 * bs.length)]
  · have hsub : 8 * p + j + 8 * bs.length - r % (8 * bs.length) =
        8 * p + j - r % (8 * bs.length) + 8 * bs.length := by omega
    have hlt : 8 * p + j - r % (8 * bs.length) < 8 * bs.length := by omega
    rw [hsub, Nat.add_mod_right, Nat.mod_eq_of_lt hlt]

/-! ### Bytes from bits -/

/-- Bytes are the same if their bits are. -/
lemma eq_of_testBit {a b : UInt8}
    (h : ∀ j < 8, a.toNat.testBit (7 - j) = b.toNat.testBit (7 - j)) : a = b := by
  refine UInt8.toNat_inj.1 (Nat.eq_of_testBit_eq fun r => ?_)
  by_cases hr : r < 8
  · have hbit := h (7 - r) (by omega)
    rwa [show 7 - (7 - r) = r by omega] at hbit
  · have hpow : 2 ^ 8 ≤ 2 ^ r := Nat.pow_le_pow_right two_pos (not_lt.1 hr)
    rw [Nat.testBit_lt_two_pow (a.toNat_lt.trans_le hpow),
      Nat.testBit_lt_two_pow (b.toNat_lt.trans_le hpow)]

/-- A bit that is shifted down and masked is a number below two, with the bit at the bottom. -/
lemma shiftRight_and_one (a : UInt8) {s : ℕ} (hs : s < 8) :
    ((a >>> UInt8.ofNat s) &&& 1).toNat = (a.toNat.testBit s).toNat := by
  have hshift : (UInt8.ofNat s).toNat % 8 = s := by
    rw [UInt8.toNat_ofNat']
    omega
  rw [UInt8.toNat_and, UInt8.toNat_shiftRight, hshift, UInt8.toNat_one, Nat.and_one_is_mod,
    Nat.toNat_testBit, Nat.shiftRight_eq_div_pow]

/-- Bits that are shifted in one after the other are those of the byte, the first at the top. -/
lemma testBit_foldl_shiftLeft {f : ℕ → UInt8} {b : ℕ → Bool} (hf : ∀ j, (f j).toNat = (b j).toNat)
    (m : ℕ) {r : ℕ} (hr : r < 8) :
    ((List.range m).foldl (fun (acc : UInt8) j => acc <<< 1 ||| f j) 0).toNat.testBit r =
      (decide (r < m) && b (m - 1 - r)) := by
  induction m generalizing r with
  | zero => simp
  | succ m ih =>
    rw [List.range_succ, List.foldl_append, List.foldl_cons, List.foldl_nil, UInt8.toNat_or,
      Nat.testBit_or, UInt8.toNat_shiftLeft, Nat.testBit_mod_two_pow, Nat.testBit_shiftLeft, hf]
    cases r with
    | zero => cases hbit : b m <;> simp [hbit]
    | succ r =>
      have hlow : (b m).toNat.testBit (r + 1) = false := by
        rw [Nat.testBit_bool_toNat]
        rfl
      have hone : (UInt8.toNat 1) % 8 = 1 := rfl
      have hplace : m + 1 - 1 - (r + 1) = m - 1 - r := by omega
      rw [hlow, hone, Nat.add_sub_cancel, ih (by omega), hplace]
      simp [hr]

/-! ### Bytes as digits -/

lemma ofBytes_eq_sum (bs : Bytes) : ofBytes bs =
    ∑ i ∈ Finset.range bs.length, (bs.getD i 0).toNat * 256 ^ (bs.length - 1 - i) := by
  induction bs with
  | nil => rfl
  | cons b bs ih =>
    rw [ofBytes_cons, ih, List.length_cons, Finset.sum_range_succ', Nat.add_comm]
    congr 1
    refine Finset.sum_congr rfl fun i _ => ?_
    rw [List.getD_cons_succ]
    congr 2
    omega

/-- The sum of the blocks of a byte string: a byte has the weight of its place in its block. -/
lemma sum_chunks {n : ℕ} (hn : 0 < n) {bs : Bytes} (hdvd : n ∣ bs.length) :
    ((chunks n bs).map ofBytes).sum =
      ∑ i ∈ Finset.range bs.length, (bs.getD i 0).toNat * 256 ^ (n - 1 - i % n) := by
  obtain ⟨q, hq⟩ := hdvd
  induction q generalizing bs with
  | zero =>
    obtain rfl := List.eq_nil_of_length_eq_zero hq
    simp [chunks]
  | succ q ih =>
    have hlen : n ≤ bs.length := by
      rw [hq]
      exact Nat.le_mul_of_pos_right n q.succ_pos
    have hdrop : (bs.drop n).length = n * q := by
      rw [List.length_drop, hq, Nat.mul_succ, Nat.add_sub_cancel]
    have htake : (bs.take n).length = n := List.length_take_of_le hlen
    rw [chunks_of_ne (List.ne_nil_of_length_pos (by omega)) hn, List.map_cons, List.sum_cons,
      ih hdrop, ofBytes_eq_sum, htake, hdrop, hq, Nat.mul_succ, Nat.add_comm (n * q),
      Finset.sum_range_add]
    congr 1
    · refine Finset.sum_congr rfl fun i hi => ?_
      have hlt := Finset.mem_range.1 hi
      rw [Nat.mod_eq_of_lt hlt]
      congr 2
      simp [List.getD, hlt]
    · refine Finset.sum_congr rfl fun i _ => ?_
      rw [Nat.add_mod_left]
      congr 2
      simp [List.getD]

end Wire
