import Mathlib.Data.Nat.ModEq
import NextNfs.Krb5.Crypto
import NextNfs.Lib.ByteBits

set_option relaxedAutoImplicit false
set_option autoImplicit false

/-!
# The n-fold

The n-fold of a byte string is a sum in ones' complement: of the copies of the string, each rotated
by 13 bits more than the one before, cut into blocks as long as the result. This module proves that
`n_fold` computes it.

## Main definitions

* `NextNfs.Krb5.nFoldU32` — `n_fold` with its sums in `u32`.
* `NextNfs.Krb5.copies`, `NextNfs.Krb5.blockSum` — the copies of the input, and the sum of their
  blocks.

## Main results

* `NextNfs.Krb5.nFoldU32_eq` — if no sum overflows, this is `nFold`.
* `NextNfs.Krb5.n_fold_sum` — the result is the sum of the blocks, modulo `256 ^ outLen - 1`, and
  zero only for zeros.

## Implementation notes

An addition that overflows ends `nFoldU32` with `none`. Lengths and indices are numbers.
-/

namespace NextNfs.Krb5

open Wire Blocks

/-! ### Sums in `u32` -/

/-- `+` of `u32`, or `none` if it overflows. -/
def addU32 (a b : UInt32) : Option UInt32 :=
  if a.toNat + b.toNat < 2 ^ 32 then some (a + b) else none

/-- `lcm` in `n_fold`: how many bytes the copies have. -/
def foldLcm (inLen outLen : ℕ) : ℕ := inLen / Nat.gcd inLen outLen * outLen

lemma foldLcm_eq (inLen outLen : ℕ) : foldLcm inLen outLen = Nat.lcm inLen outLen :=
  Nat.div_mul_right_comm (Nat.gcd_dvd_left inLen outLen) outLen

/-- The loop of `n_fold` that adds the first `m` bytes of the copies up. -/
def sumBytesU32 (input : Bytes) (outLen m : ℕ) : Option (List UInt32) :=
  (List.range m).foldlM (fun acc i => do
    let v ← addU32 (acc.getD (i % outLen) 0) (byteAt input i).toUInt32
    pure (acc.set (i % outLen) v)) (List.replicate outLen 0)

/-- One pass of the carries, as `carryPass`. -/
def carryPassU32 : List UInt32 → Option (List UInt32 × UInt32)
  | [] => some ([], 0)
  | v :: acc => do
    let (acc, carry) ← carryPassU32 acc
    let v ← addU32 v carry
    pure ((v &&& 0xff) :: acc, v >>> 8)

lemma addU32_eq_some {a b c : UInt32} : addU32 a b = some c ↔ a.toNat + b.toNat = c.toNat := by
  unfold addU32
  split_ifs with h
  · rw [Option.some.injEq, ← UInt32.toNat_inj, UInt32.toNat_add, Nat.mod_eq_of_lt h]
  · have hc := c.toNat_lt
    exact iff_of_false nofun (by omega)

/-- Setting a sum is adding to it. -/
lemma map_set_eq_modify {acc : List UInt32} {p : ℕ} {v w : UInt32}
    (h : addU32 (acc.getD p 0) w = some v) :
    (acc.set p v).map UInt32.toNat = (acc.map UInt32.toNat).modify p (· + w.toNat) := by
  have hv := addU32_eq_some.1 h
  refine List.ext_getElem? fun i => ?_
  rw [List.getElem?_map, List.getElem?_set, List.getElem?_modify, List.getElem?_map]
  by_cases hi : p = i
  · subst hi
    cases hget : acc[p]? with
    | none => simp [List.getElem?_eq_none_iff.1 hget]
    | some a =>
      have hlt := (List.getElem?_eq_some_iff.1 hget).1
      rw [List.getD, hget, Option.getD_some] at hv
      simp [hlt, hv]
  · simp [hi]

lemma toNat_and_0xff (v : UInt32) : (v &&& 0xff).toNat = v.toNat % 256 := by
  rw [UInt32.toNat_and]
  exact Nat.and_two_pow_sub_one_eq_mod v.toNat 8

lemma toNat_shiftRight_8 (v : UInt32) : (v >>> 8).toNat = v.toNat / 256 := by
  rw [UInt32.toNat_shiftRight, Nat.shiftRight_eq_div_pow]
  rfl

/-- The pass does what it does with numbers. -/
lemma carryPassU32_eq {acc acc' : List UInt32} {carry : UInt32}
    (h : carryPassU32 acc = some (acc', carry)) :
    carryPass (acc.map UInt32.toNat) = (acc'.map UInt32.toNat, carry.toNat) := by
  induction acc generalizing acc' carry with
  | nil =>
    cases h
    rfl
  | cons v acc ih =>
    obtain ⟨⟨acc₁, carry₁⟩, hrest, h⟩ := Option.bind_eq_some_iff.1 h
    obtain ⟨w, hadd, h⟩ := Option.bind_eq_some_iff.1 h
    cases h
    rw [List.map_cons, carryPass, ih hrest, List.map_cons, toNat_and_0xff, toNat_shiftRight_8,
      ← addU32_eq_some.1 hadd]

/-- The loop of `n_fold` that adds the carry that is left at the end, as `propagate`. -/
def propagateU32 (acc : List UInt32) : Option (List UInt32) :=
  match _h : carryPassU32 acc with
  | none => none
  | some (acc', carry) =>
    if _hcarry : carry = 0 then some acc'
    else
      match _hadd : addU32 (acc'.getD (acc.length - 1) 0) carry with
      | none => none
      | some v => propagateU32 (acc'.set (acc.length - 1) v)
termination_by digits (acc.map UInt32.toNat)
decreasing_by
  have hpass := carryPassU32_eq _h
  have hcarry : (carryPass (acc.map UInt32.toNat)).2 ≠ 0 := by
    rw [hpass]
    exact fun hzero => _hcarry (UInt32.toNat_inj.1 hzero)
  have hlt := digits_endAround_lt hcarry
  rwa [hpass, List.length_map, ← map_set_eq_modify _hadd] at hlt

/-- `n_fold`, with its sums in `u32`. -/
def nFoldU32 (input : Bytes) (outLen : ℕ) : Option Bytes := do
  let acc ← sumBytesU32 input outLen (foldLcm input.length outLen)
  let acc ← propagateU32 acc
  pure (acc.map UInt32.toUInt8)

/-- One turn of the loop. -/
lemma propagateU32_of_pass {acc acc' : List UInt32} {carry : UInt32}
    (h : carryPassU32 acc = some (acc', carry)) :
    propagateU32 acc = if carry = 0 then some acc' else
      (addU32 (acc'.getD (acc.length - 1) 0) carry).bind fun v =>
        propagateU32 (acc'.set (acc.length - 1) v) := by
  rw [propagateU32]
  split
  · next hpass => cases h.symm.trans hpass
  · next hpass =>
    cases h.symm.trans hpass
    split_ifs
    · rfl
    · split
      · next hadd => rw [hadd, Option.bind_none]
      · next hadd => rw [hadd, Option.bind_some]

/-- The loop does what it does with numbers. -/
lemma propagateU32_eq {acc out : List UInt32} (h : propagateU32 acc = some out) :
    propagate (acc.map UInt32.toNat) = out.map UInt32.toNat := by
  induction acc using propagateU32.induct with
  | case1 acc hpass =>
    rw [propagateU32, hpass] at h
    cases h
  | case2 acc acc' hpass =>
    rw [propagateU32_of_pass hpass, if_pos rfl] at h
    cases h
    rw [propagate, carryPassU32_eq hpass]
    rfl
  | case3 acc acc' carry hpass hcarry hadd =>
    rw [propagateU32_of_pass hpass, if_neg hcarry, hadd] at h
    cases h
  | case4 acc acc' carry hpass hcarry v hadd ih =>
    rw [propagateU32_of_pass hpass, if_neg hcarry, hadd] at h
    have hne : carry.toNat ≠ 0 := fun hzero => hcarry (UInt32.toNat_inj.1 hzero)
    rw [propagate, carryPassU32_eq hpass, dif_neg hne, List.length_map, ← map_set_eq_modify hadd]
    exact ih h

/-! ### The sums of the bytes -/

/-- The loop of `n_fold` that adds the first `m` bytes of the copies up, with numbers. -/
def sumBytes (input : Bytes) (outLen m : ℕ) : List ℕ :=
  (List.range m).foldl (fun acc i => acc.modify (i % outLen) (· + (byteAt input i).toNat))
    (List.replicate outLen 0)

section SumBytes

variable (input : Bytes) (outLen m : ℕ)

lemma sumBytesU32_succ : sumBytesU32 input outLen (m + 1) =
    (sumBytesU32 input outLen m).bind fun acc =>
      (addU32 (acc.getD (m % outLen) 0) (byteAt input m).toUInt32).map
        fun v => acc.set (m % outLen) v := by
  rw [sumBytesU32, List.range_succ, List.foldlM_append]
  refine congrArg _ (funext fun acc => ?_)
  simp [Option.map_eq_bind]

lemma sumBytes_succ : sumBytes input outLen (m + 1) =
    (sumBytes input outLen m).modify (m % outLen) (· + (byteAt input m).toNat) := by
  rw [sumBytes, List.range_succ, List.foldl_append]
  rfl

@[simp] lemma length_sumBytes : (sumBytes input outLen m).length = outLen := by
  rw [sumBytes, length_foldl_modify, List.length_replicate]

lemma nFold_eq : nFold input outLen =
    (propagate (sumBytes input outLen (foldLcm input.length outLen))).map UInt8.ofNat := rfl

variable {input outLen m}

/-- The sums are what they are with numbers. -/
lemma sumBytesU32_eq {acc : List UInt32} (h : sumBytesU32 input outLen m = some acc) :
    acc.map UInt32.toNat = sumBytes input outLen m := by
  induction m generalizing acc with
  | zero =>
    cases h
    simp [sumBytes]
  | succ m ih =>
    rw [sumBytesU32_succ] at h
    obtain ⟨acc₁, hacc, h⟩ := Option.bind_eq_some_iff.1 h
    obtain ⟨v, hadd, rfl⟩ := Option.map_eq_some_iff.1 h
    rw [map_set_eq_modify hadd, ih hacc, sumBytes_succ, UInt8.toNat_toUInt32]

lemma nFoldU32_of_sums {acc acc' : List UInt32}
    (hsum : sumBytesU32 input outLen (foldLcm input.length outLen) = some acc)
    (hloop : propagateU32 acc = some acc') :
    nFoldU32 input outLen = some (acc'.map UInt32.toUInt8) := by
  unfold nFoldU32
  rw [hsum, Option.bind_eq_bind, Option.bind_some, hloop]
  rfl

/-- If no sum overflows, the result is that with numbers. -/
lemma nFoldU32_eq {out : Bytes} (h : nFoldU32 input outLen = some out) :
    nFold input outLen = out := by
  obtain ⟨acc, hsum, h⟩ := Option.bind_eq_some_iff.1 h
  obtain ⟨acc', hloop, h⟩ := Option.bind_eq_some_iff.1 h
  cases h
  rw [nFold_eq, ← sumBytesU32_eq hsum, propagateU32_eq hloop, List.map_map]
  rfl

lemma digits_replicate_zero (n : ℕ) : digits (List.replicate n 0) = 0 := by
  induction n with
  | zero => rfl
  | succ n ih => rw [List.replicate_succ, digits, ih, Nat.zero_mul]

/-- The sums as digits: a byte has the weight of its place in its block. -/
lemma digits_sumBytes (hout : 0 < outLen) : digits (sumBytes input outLen m) =
    ∑ i ∈ Finset.range m, (byteAt input i).toNat * 256 ^ (outLen - 1 - i % outLen) := by
  induction m with
  | zero => exact digits_replicate_zero outLen
  | succ m ih =>
    have hlt : m % outLen < (sumBytes input outLen m).length := by
      rw [length_sumBytes]
      exact Nat.mod_lt m hout
    rw [sumBytes_succ, digits_modify _ hlt, ih, length_sumBytes, Finset.sum_range_succ]

/-- What is left of a block does not begin another. -/
lemma div_blockEnd (hout : 0 < outLen) (m : ℕ) :
    (m + (outLen - 1 - m % outLen)) / outLen = m / outLen := by
  have hlt := Nat.mod_lt m hout
  have hsplit : m + (outLen - 1 - m % outLen) = outLen - 1 + outLen * (m / outLen) := by
    have := Nat.div_add_mod m outLen
    omega
  rw [hsplit, Nat.add_mul_div_left _ _ hout, Nat.div_eq_of_lt (by omega), Nat.zero_add]

/-- After `m` bytes, a sum has at most as many of them as blocks have begun at its place. -/
lemma sumBytes_le (hout : 0 < outLen) {p : ℕ} (hp : p < outLen) :
    (sumBytes input outLen m).getD p 0 ≤ 255 * ((m + (outLen - 1 - p)) / outLen) := by
  induction m with
  | zero => simp [sumBytes]
  | succ m ih =>
    have hbyte : (byteAt input m).toNat ≤ 255 := Nat.le_of_lt_succ (byteAt input m).toNat_lt
    have hget : (sumBytes input outLen (m + 1)).getD p 0 = (sumBytes input outLen m).getD p 0 +
        if m % outLen = p then (byteAt input m).toNat else 0 := by
      have hlt : p < (sumBytes input outLen m).length := by rwa [length_sumBytes]
      rw [sumBytes_succ, List.getD, List.getD, List.getElem?_modify, List.getElem?_eq_getElem hlt]
      split_ifs <;> rfl
    rw [hget]
    split_ifs with hm
    · -- The byte begins a new block at its place.
      subst hm
      have hfull : m + 1 + (outLen - 1 - m % outLen) = outLen + outLen * (m / outLen) := by
        have := Nat.div_add_mod m outLen
        omega
      have hafter : (m + 1 + (outLen - 1 - m % outLen)) / outLen =
          (m + (outLen - 1 - m % outLen)) / outLen + 1 := by
        rw [hfull, Nat.add_mul_div_left _ _ hout, Nat.div_self hout, div_blockEnd hout,
          Nat.add_comm]
      rw [hafter]
      omega
    · have hmono : (m + (outLen - 1 - p)) / outLen ≤ (m + 1 + (outLen - 1 - p)) / outLen :=
        Nat.div_le_div_right (by omega)
      omega

/-- The same of the sums in `u32`. -/
lemma le_of_sumBytesU32 (hout : 0 < outLen) {acc : List UInt32}
    (h : sumBytesU32 input outLen m = some acc) {p : ℕ} (hp : p < outLen) :
    (acc.getD p 0).toNat ≤ 255 * ((m + (outLen - 1 - p)) / outLen) := by
  have hle : (sumBytes input outLen m).getD p 0 ≤ 255 * ((m + (outLen - 1 - p)) / outLen) :=
    sumBytes_le hout hp
  have hget : (acc.map UInt32.toNat).getD p (UInt32.toNat 0) = (acc.getD p 0).toNat :=
    acc.getD_map 0 UInt32.toNat
  rwa [← sumBytesU32_eq h, ← UInt32.toNat_zero, hget] at hle

end SumBytes

/-! ### No overflow -/

/-- A pass over sums of at most `n` bytes does not overflow, and leaves less than `n` to carry. -/
lemma exists_carryPassU32 {acc : List UInt32} {n : ℕ} (hpos : 0 < n) (hn : n ≤ 2 ^ 24)
    (hacc : ∀ v ∈ acc, v.toNat ≤ 255 * n) : ∃ acc' carry,
    carryPassU32 acc = some (acc', carry) ∧ carry.toNat < n ∧ ∀ v ∈ acc', v.toNat ≤ 255 := by
  induction acc with
  | nil => exact ⟨[], 0, rfl, hpos, nofun⟩
  | cons v acc ih =>
    obtain ⟨acc', carry, hpass, hcarry, hacc'⟩ := ih fun w hw => hacc w (List.mem_cons_of_mem _ hw)
    have hv := hacc v List.mem_cons_self
    have hlt : v.toNat + carry.toNat < 2 ^ 32 := by omega
    have hadd : addU32 v carry = some (v + carry) := if_pos hlt
    have hsum := addU32_eq_some.1 hadd
    refine ⟨((v + carry) &&& 0xff) :: acc', (v + carry) >>> 8, ?_, ?_, ?_⟩
    · rw [carryPassU32, hpass]
      dsimp only [Option.bind_eq_bind, Option.bind_some]
      rw [hadd]
      rfl
    · rw [toNat_shiftRight_8]
      omega
    · rintro w (_ | ⟨_, hw⟩)
      · rw [toNat_and_0xff]
        omega
      · exact hacc' w hw

lemma getD_le {acc : List UInt32} {b : ℕ} (h : ∀ v ∈ acc, v.toNat ≤ b) (i : ℕ) :
    (acc.getD i 0).toNat ≤ b := by
  by_cases hi : i < acc.length
  · rw [List.getD_eq_getElem acc 0 hi]
    exact h _ (List.getElem_mem hi)
  · rw [List.getD_eq_default acc 0 (not_lt.1 hi)]
    exact Nat.zero_le b

/-- The loop does not overflow. -/
lemma exists_propagateU32 {acc : List UInt32} {n : ℕ} (hpos : 0 < n) (hn : n ≤ 2 ^ 24)
    (hacc : ∀ v ∈ acc, v.toNat ≤ 255 * n) : ∃ out, propagateU32 acc = some out := by
  obtain ⟨acc₁, carry₁, hpass₁, hcarry₁, hacc₁⟩ := exists_carryPassU32 hpos hn hacc
  have hlast := getD_le hacc₁ (acc.length - 1)
  induction acc using propagateU32.induct generalizing acc₁ carry₁ with
  | case1 acc hpass => cases hpass₁.symm.trans hpass
  | case2 acc acc' hpass => exact ⟨acc', by rw [propagateU32_of_pass hpass, if_pos rfl]⟩
  | case3 acc acc' carry hpass hcarry hadd =>
    cases hpass₁.symm.trans hpass
    have hlt : (acc'.getD (acc.length - 1) 0).toNat + carry.toNat < 2 ^ 32 := by omega
    rw [addU32, if_pos hlt] at hadd
    cases hadd
  | case4 acc acc' carry hpass hcarry v hadd ih =>
    cases hpass₁.symm.trans hpass
    rw [propagateU32_of_pass hpass, if_neg hcarry, hadd, Option.bind_some]
    have hset : ∀ w ∈ acc'.set (acc.length - 1) v, w.toNat ≤ 255 * n := by
      intro w hw
      obtain hw | rfl := List.mem_or_eq_of_mem_set hw
      · have := hacc₁ w hw
        omega
      · have := addU32_eq_some.1 hadd
        omega
    obtain ⟨acc₂, carry₂, hpass₂, hcarry₂, hacc₂⟩ := exists_carryPassU32 hpos hn hset
    exact ih hset _ _ hpass₂ hcarry₂ hacc₂ (getD_le hacc₂ _)

/-- The loop that adds the bytes of `n` blocks up does not overflow. -/
lemma exists_sumBytesU32 (input : Bytes) {outLen n m : ℕ} (hout : 0 < outLen) (hn : n ≤ 2 ^ 24)
    (hm : m ≤ n * outLen) : ∃ acc, sumBytesU32 input outLen m = some acc := by
  induction m with
  | zero => exact ⟨_, rfl⟩
  | succ m ih =>
    obtain ⟨acc, hacc⟩ := ih (by omega)
    have hp : m % outLen < outLen := Nat.mod_lt m hout
    have hbyte := (byteAt input m).toNat_lt
    have hblock : (m + (outLen - 1 - m % outLen)) / outLen < n := by
      rw [div_blockEnd hout]
      exact Nat.div_lt_of_lt_mul (by rw [Nat.mul_comm]; omega)
    have hle := le_of_sumBytesU32 hout hacc hp
    rw [sumBytesU32_succ, hacc, Option.bind_some, addU32, if_pos]
    · exact ⟨_, rfl⟩
    · rw [UInt8.toNat_toUInt32]
      omega

/-- With at most `2 ^ 24` blocks, no sum overflows. -/
lemma exists_nFoldU32 {input : Bytes} {outLen : ℕ} (hin : input ≠ []) (hout : 0 < outLen)
    (hfit : input.length / Nat.gcd input.length outLen ≤ 2 ^ 24) :
    ∃ out, nFoldU32 input outLen = some out := by
  have hpos : 0 < input.length / Nat.gcd input.length outLen :=
    Nat.div_pos (Nat.gcd_le_left outLen (List.length_pos_of_ne_nil hin))
      (Nat.gcd_pos_of_pos_right _ hout)
  obtain ⟨acc, hacc⟩ := exists_sumBytesU32 input hout hfit le_rfl
  have hle : ∀ v ∈ acc, v.toNat ≤ 255 * (input.length / Nat.gcd input.length outLen) := by
    intro v hv
    obtain ⟨p, hp, rfl⟩ := List.getElem_of_mem hv
    have hlen : acc.length = outLen := by
      rw [← List.length_map UInt32.toNat, sumBytesU32_eq hacc, length_sumBytes]
    have hp' : p < outLen := hlen ▸ hp
    have hsum := le_of_sumBytesU32 hout hacc hp'
    rw [Nat.add_comm, Nat.add_mul_div_right _ _ hout, Nat.div_eq_of_lt (by omega), Nat.zero_add,
      List.getD_eq_getElem acc 0 hp] at hsum
    exact hsum
  obtain ⟨out, hloop⟩ := exists_propagateU32 hpos hfit hle
  exact ⟨_, nFoldU32_of_sums hacc hloop⟩

/-! ### The copies of the input -/

/-- The input as often as its copies fill whole blocks, each copy rotated by 13 bits more. -/
def copies (input : Bytes) (outLen : ℕ) : Bytes :=
  (List.range (Nat.lcm input.length outLen / input.length)).flatMap
    fun k => rotateRight input (13 * k)

/-- The sum of the blocks of the copies. -/
def blockSum (input : Bytes) (outLen : ℕ) : ℕ :=
  ((chunks outLen (copies input outLen)).map ofBytes).sum

/-- `src` in `byte_at`: the bit of the input that comes to the place `b` of copy `k`. -/
def sourceBit (inLen k b : ℕ) : ℕ := (b + inLen * 8 - 13 * k % (inLen * 8)) % (inLen * 8)

/-- A byte of a copy is what `byte_at` puts together from its bits. -/
lemma byteAt_eq {input : Bytes} {k p : ℕ} (hp : p < input.length) :
    byteAt input (k * input.length + p) = (rotateRight input (13 * k)).getD p 0 := by
  have hdiv : (k * input.length + p) / input.length = k := by
    rw [Nat.add_comm, Nat.add_mul_div_right _ _ (by omega), Nat.div_eq_of_lt hp, Nat.zero_add]
  have hmod : (k * input.length + p) % input.length = p := by
    rw [Nat.add_comm, Nat.add_mul_mod_self_right, Nat.mod_eq_of_lt hp]
  have hbit : ∀ j, ((input.getD (sourceBit input.length k (p * 8 + j) / 8) 0 >>>
      UInt8.ofNat (7 - sourceBit input.length k (p * 8 + j) % 8)) &&& 1).toNat =
      ((bits input).getMsbD (sourceBit input.length k (p * 8 + j))).toNat := by
    intro j
    have hlt : sourceBit input.length k (p * 8 + j) < input.length * 8 := Nat.mod_lt _ (by omega)
    rw [getMsbD_bits (by omega), shiftRight_and_one _ (by omega)]
  refine eq_of_testBit fun j hj => ?_
  have hplace : 8 - 1 - (7 - j) = j := by omega
  have hsource : (8 * p + j + 8 * input.length - 13 * k % (8 * input.length)) %
      (8 * input.length) = sourceBit input.length k (p * 8 + j) := by
    rw [sourceBit, Nat.mul_comm 8 p, Nat.mul_comm 8 input.length]
  have hfold := testBit_foldl_shiftLeft hbit 8 (show 7 - j < 8 by omega)
  rw [hplace, decide_eq_true (by omega), Bool.true_and] at hfold
  rw [testBit_rotateRight hp hj, hsource, byteAt, hdiv, hmod]
  exact hfold

/-- The bytes of a copy. -/
lemma rotateRight_eq_map (input : Bytes) (k : ℕ) : rotateRight input (13 * k) =
    (List.range input.length).map fun p => byteAt input (k * input.length + p) := by
  refine List.ext_getElem (by simp) fun p hp hp' => ?_
  have hlt : p < input.length := by simpa using hp
  rw [List.getElem_map, List.getElem_range, byteAt_eq hlt, List.getD_eq_getElem _ _ hp]

/-- The first `n` copies have the first bytes that `n_fold` adds up. -/
lemma flatMap_rotateRight (input : Bytes) (n : ℕ) :
    (List.range n).flatMap (fun k => rotateRight input (13 * k)) =
      (List.range (n * input.length)).map (byteAt input) := by
  induction n with
  | zero => simp
  | succ n ih =>
    rw [List.range_succ, List.flatMap_append, ih, Nat.succ_mul, List.range_add, List.map_append,
      List.map_map]
    simp [rotateRight_eq_map, Function.comp_def]

/-- The copies have the bytes that `n_fold` adds up. -/
lemma copies_eq (input : Bytes) (outLen : ℕ) : copies input outLen =
    (List.range (foldLcm input.length outLen)).map (byteAt input) := by
  rw [copies, flatMap_rotateRight, Nat.div_mul_cancel (Nat.dvd_lcm_left _ _), foldLcm_eq]

/-- The sum of the blocks is that of the bytes that `n_fold` adds up. -/
lemma blockSum_eq {input : Bytes} {outLen : ℕ} (hout : 0 < outLen) :
    blockSum input outLen = digits (sumBytes input outLen (foldLcm input.length outLen)) := by
  have hlen : (copies input outLen).length = foldLcm input.length outLen := by
    rw [copies_eq, List.length_map, List.length_range]
  rw [blockSum, sum_chunks hout (hlen ▸ Nat.dvd_mul_left _ _), digits_sumBytes hout, hlen]
  refine Finset.sum_congr rfl fun i hi => ?_
  rw [copies_eq, List.getD_eq_getElem _ _ (by simpa using hi), List.getElem_map,
    List.getElem_range]

/-! ### Ones' complement -/

/-- The loop keeps the number modulo the largest. -/
lemma digits_propagate (acc : List ℕ) :
    digits (propagate acc) ≡ digits acc [MOD 256 ^ acc.length - 1] := by
  induction acc using propagate.induct with
  | case1 acc h =>
    have hkeep := digits_carryPass acc
    rw [h, Nat.zero_mul, Nat.add_zero] at hkeep
    rw [propagate, dif_pos h, hkeep]
  | case2 acc h ih =>
    rw [List.length_modify, length_carryPass] at ih
    rw [propagate, dif_neg h]
    have hone : 256 ^ acc.length ≡ 1 [MOD 256 ^ acc.length - 1] :=
      Nat.modEq_sub (Nat.one_le_pow _ _ (by norm_num))
    have hcarry : (carryPass acc).2 ≡ (carryPass acc).2 * 256 ^ acc.length
        [MOD 256 ^ acc.length - 1] := by
      simpa using (hone.mul_left (carryPass acc).2).symm
    calc digits (propagate ((carryPass acc).1.modify (acc.length - 1) (· + (carryPass acc).2)))
        ≡ digits ((carryPass acc).1.modify (acc.length - 1) (· + (carryPass acc).2))
          [MOD 256 ^ acc.length - 1] := ih
      _ = digits (carryPass acc).1 + (carryPass acc).2 := digits_endAround h
      _ ≡ digits (carryPass acc).1 + (carryPass acc).2 * 256 ^ acc.length
          [MOD 256 ^ acc.length - 1] := hcarry.add_left _
      _ = digits acc := digits_carryPass acc

/-- The loop makes nothing zero. -/
lemma digits_eq_zero_of_propagate {acc : List ℕ} (h : digits (propagate acc) = 0) :
    digits acc = 0 := by
  induction acc using propagate.induct with
  | case1 acc hcarry =>
    have hkeep := digits_carryPass acc
    rw [propagate, dif_pos hcarry] at h
    rw [← hkeep, h, hcarry, Nat.zero_mul]
  | case2 acc hcarry ih =>
    rw [propagate, dif_neg hcarry] at h
    have hzero := digits_endAround hcarry ▸ ih h
    exact absurd (Nat.eq_zero_of_add_eq_zero_left hzero) hcarry

lemma carryPass_lt (acc : List ℕ) : ∀ v ∈ (carryPass acc).1, v < 256 := by
  induction acc with
  | nil => exact nofun
  | cons v acc ih =>
    rintro w (_ | ⟨_, hw⟩)
    · exact Nat.mod_lt _ (by norm_num)
    · exact ih w hw

/-- The loop leaves bytes. -/
lemma propagate_lt (acc : List ℕ) : ∀ v ∈ propagate acc, v < 256 := by
  induction acc using propagate.induct with
  | case1 acc h =>
    rw [propagate, dif_pos h]
    exact carryPass_lt acc
  | case2 acc h ih =>
    rw [propagate, dif_neg h]
    exact ih

lemma ofBytes_map_ofNat {l : List ℕ} (h : ∀ v ∈ l, v < 256) :
    ofBytes (l.map UInt8.ofNat) = digits l := by
  induction l with
  | nil => rfl
  | cons v l ih =>
    rw [List.map_cons, ofBytes_cons, ih fun w hw => h w (List.mem_cons_of_mem _ hw), digits,
      List.length_map, UInt8.toNat_ofNat_of_lt' (h v List.mem_cons_self)]

/-- The bytes add up to zero only if the input is zeros: the first copy is the input. -/
lemma eq_zero_of_digits_sumBytes {input : Bytes} {outLen : ℕ} (hout : 0 < outLen)
    (h : digits (sumBytes input outLen (foldLcm input.length outLen)) = 0) :
    ∀ b ∈ input, b = 0 := by
  intro b hb
  obtain ⟨p, hp, rfl⟩ := List.getElem_of_mem hb
  have hlcm : input.length ≤ foldLcm input.length outLen := by
    rw [foldLcm_eq]
    exact Nat.le_of_dvd (Nat.lcm_pos (by omega) hout) (Nat.dvd_lcm_left _ _)
  rw [digits_sumBytes hout, Finset.sum_eq_zero_iff] at h
  have hbyte := h p (Finset.mem_range.2 (hp.trans_le hlcm))
  have hcopy : byteAt input p = input[p] := by
    have hfirst := byteAt_eq (k := 0) hp
    rwa [Nat.zero_mul, Nat.zero_add, Nat.mul_zero, rotateRight_zero,
      List.getD_eq_getElem _ _ hp] at hfirst
  rw [hcopy, Nat.mul_eq_zero] at hbyte
  exact UInt8.toNat_inj.1 (hbyte.resolve_right (pow_ne_zero _ (by norm_num)))

/-- **The n-fold is a sum in ones' complement.** If no sum overflows a `u32`, and none does with at
most `2 ^ 24` blocks, the carries come to an end, and the result is, modulo the largest number of
its length, the sum of the blocks of the copies of the input, each copy rotated by 13 bits more than
the one before. It is zero only if the input is zeros.

**Proof sketch.** A byte that is added has the weight of its place in its block, so that the sums
are the digits of the sum of the blocks. A turn of the loop takes a multiple of the largest number
away, and never the number itself. -/
theorem n_fold_sum {input : Bytes} {outLen : ℕ} (hin : input ≠ []) (hout : 0 < outLen) :
    (input.length / Nat.gcd input.length outLen ≤ 2 ^ 24 →
      ∃ out, nFoldU32 input outLen = some out) ∧
    ∀ out, nFoldU32 input outLen = some out → out.length = outLen ∧
      ofBytes out ≡ blockSum input outLen [MOD 256 ^ outLen - 1] ∧
      (ofBytes out = 0 → ∀ b ∈ input, b = 0) := by
  refine ⟨exists_nFoldU32 hin hout, fun out h => ?_⟩
  have hnumber : ofBytes out =
      digits (propagate (sumBytes input outLen (foldLcm input.length outLen))) := by
    rw [← nFoldU32_eq h, nFold_eq, ofBytes_map_ofNat (propagate_lt _)]
  refine ⟨?_, ?_, fun hzero => ?_⟩
  · rw [← nFoldU32_eq h, length_nFold]
  · have hsum := digits_propagate (sumBytes input outLen (foldLcm input.length outLen))
    rwa [length_sumBytes, ← hnumber, ← blockSum_eq hout] at hsum
  · exact eq_zero_of_digits_sumBytes hout (digits_eq_zero_of_propagate (hnumber ▸ hzero))

/-- `kerberos`. -/
def kerberos : Bytes := [0x6b, 0x65, 0x72, 0x62, 0x65, 0x72, 0x6f, 0x73]

/-- **The n-fold** of `kerberos` to 16 bytes, from the test `rfc3961_n_fold` of the source. -/
theorem n_fold_sum_kerberos :
    nFoldU32 kerberos 16 = some (kerberos ++ [0x7b, 0x9b, 0x5b, 0x2b, 0x93, 0x13, 0x2b, 0x93]) ∧
    0x6b65726265726f737b9b5b2b93132b93 ≡ blockSum kerberos 16 [MOD 256 ^ 16 - 1] := by
  have hsum : sumBytesU32 kerberos 16 16 = some [0x6b, 0x65, 0x72, 0x62, 0x65, 0x72, 0x6f, 0x73,
      0x7b, 0x9b, 0x5b, 0x2b, 0x93, 0x13, 0x2b, 0x93] := by decide +kernel
  -- No sum is above 255, so that there is nothing to carry.
  have hpass : carryPassU32 [0x6b, 0x65, 0x72, 0x62, 0x65, 0x72, 0x6f, 0x73,
      0x7b, 0x9b, 0x5b, 0x2b, 0x93, 0x13, 0x2b, 0x93] =
      some ([0x6b, 0x65, 0x72, 0x62, 0x65, 0x72, 0x6f, 0x73,
        0x7b, 0x9b, 0x5b, 0x2b, 0x93, 0x13, 0x2b, 0x93], 0) := by decide +kernel
  have hfold := nFoldU32_of_sums hsum ((propagateU32_of_pass hpass).trans (if_pos rfl))
  exact ⟨hfold, ((n_fold_sum (by decide) (by decide)).2 _ hfold).2.1⟩

end NextNfs.Krb5
