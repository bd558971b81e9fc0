import Mathlib.Data.List.Basic
import Mathlib.Data.Set.Finite.List
import NextNfs.Lib.Wire

set_option relaxedAutoImplicit false
set_option autoImplicit false

/-!
# Blocks and chaining

Byte strings cut into blocks, and block ciphers that chain the blocks of a message.

## Main definitions

* `Blocks.chunks` — the chunks of a list, the last of which may be shorter.
* `Blocks.xorInto` — the bytes of one string changed by those of another.
* `Blocks.Cipher` — a permutation of blocks and its inverse.
* `Blocks.cbc`, `Blocks.uncbc` — cipher block chaining and its inverse.

## Main results

* `Blocks.chunks_flatten_append` — the chunks of full blocks followed by a shorter one.
* `Blocks.uncbc_cbc` — chained blocks are read back.
-/

namespace Blocks

open Wire

/-! ### Chunks -/

/-- The chunks of `k` elements; the last one has those that are left. -/
def chunks {α : Type} (k : ℕ) (l : List α) : List (List α) :=
  if _h : l = [] ∨ k = 0 then [] else l.take k :: chunks k (l.drop k)
termination_by l.length
decreasing_by
  have := List.length_pos_of_ne_nil (fun h => _h (.inl h))
  rw [List.length_drop]
  omega

section Chunks

variable {α : Type} {k : ℕ} {l : List α}

lemma chunks_of_ne (hl : l ≠ []) (hk : 0 < k) : chunks k l = l.take k :: chunks k (l.drop k) := by
  rw [chunks, dif_neg (by simp [hl, hk.ne'])]

/-- A list of at most `k` elements is one chunk. -/
lemma chunks_of_length_le (hl : l ≠ []) (h : l.length ≤ k) : chunks k l = [l] := by
  have hk : 0 < k := lt_of_lt_of_le (List.length_pos_of_ne_nil hl) h
  rw [chunks_of_ne hl hk, List.take_of_length_le h, List.drop_of_length_le h, chunks]
  simp

/-- The chunks of full blocks followed by a shorter one. -/
lemma chunks_flatten_append {blocks : List (List α)} (hblocks : ∀ b ∈ blocks, b.length = k)
    (hl : l ≠ []) (h : l.length ≤ k) : chunks k (blocks.flatten ++ l) = blocks ++ [l] := by
  have hk : 0 < k := lt_of_lt_of_le (List.length_pos_of_ne_nil hl) h
  induction blocks with
  | nil => exact chunks_of_length_le hl h
  | cons b blocks ih =>
    have hb : b.length = k := hblocks b List.mem_cons_self
    rw [List.flatten_cons, List.append_assoc, chunks_of_ne (by simp [hl]) hk,
      List.take_left' hb, List.drop_left' hb, ih fun b' hb' => hblocks b' (List.mem_cons_of_mem _ hb')]
    rfl

/-- Every list that is not empty is full blocks followed by a block that is not empty. -/
lemma exists_blocks (hk : 0 < k) (hl : l ≠ []) : ∃ (blocks : List (List α)) (last : List α),
    l = blocks.flatten ++ last ∧ (∀ b ∈ blocks, b.length = k) ∧ last ≠ [] ∧ last.length ≤ k := by
  induction hn : l.length using Nat.strong_induction_on generalizing l with
  | _ n ih =>
    subst hn
    by_cases hle : l.length ≤ k
    · exact ⟨[], l, rfl, by simp, hl, hle⟩
    · have hlen : (l.drop k).length = l.length - k := List.length_drop
      obtain ⟨blocks, last, heq, hblocks, hlast, hlastlen⟩ :=
        ih (l.drop k).length (by omega) (l := l.drop k) (by
          rw [← List.length_pos_iff_ne_nil]
          omega) rfl
      refine ⟨l.take k :: blocks, last, ?_, ?_, hlast, hlastlen⟩
      · rw [List.flatten_cons, List.append_assoc, ← heq, List.take_append_drop]
      · rintro b (_ | ⟨_, hb⟩)
        · rw [List.length_take]
          omega
        · exact hblocks b hb

end Chunks

/-- Full blocks have `k` times as many elements as there are blocks. -/
lemma length_flatten {α : Type} {k : ℕ} {blocks : List (List α)}
    (h : ∀ b ∈ blocks, b.length = k) : blocks.flatten.length = k * blocks.length := by
  induction blocks with
  | nil => rfl
  | cons b blocks ih =>
    rw [List.flatten_cons, List.length_append, h b List.mem_cons_self,
      ih fun b' hb' => h b' (List.mem_cons_of_mem _ hb'), List.length_cons, Nat.mul_add]
    omega

/-! ### Exclusive or -/

/-- The bytes of `a`, each changed by the byte of `b` at its place, if there is one. -/
def xorInto : Bytes → Bytes → Bytes
  | x :: a, y :: b => (x ^^^ y) :: xorInto a b
  | a, _ => a

@[simp] lemma length_xorInto (a b : Bytes) : (xorInto a b).length = a.length := by
  induction a generalizing b with
  | nil => rfl
  | cons x a ih => cases b <;> simp [xorInto, ih]

/-- Past the end of the second string nothing is changed. -/
lemma drop_xorInto (a b : Bytes) : (xorInto a b).drop b.length = a.drop b.length := by
  induction a generalizing b with
  | nil => rfl
  | cons x a ih =>
    cases b with
    | nil => rfl
    | cons y b => exact ih b

/-- Changing twice by the same bytes leaves the second string. -/
lemma take_xorInto_xorInto {a b : Bytes} (h : b.length ≤ a.length) :
    (xorInto (xorInto a b) a).take b.length = b := by
  induction a generalizing b with
  | nil =>
    cases b with
    | nil => rfl
    | cons y b => simp at h
  | cons x a ih =>
    cases b with
    | nil => rfl
    | cons y b =>
      have hxy : x ^^^ y ^^^ x = y := by
        rw [UInt8.xor_comm x y, UInt8.xor_assoc, UInt8.xor_self, UInt8.xor_zero]
      simp only [xorInto, hxy, List.length_cons, List.take_succ_cons]
      rw [ih (by simpa using h)]

/-- Zeros are changed to the bytes they are changed by. -/
lemma zero_xorInto (b : Bytes) : xorInto (List.replicate b.length 0) b = b := by
  induction b with
  | nil => rfl
  | cons y b ih =>
    rw [List.length_cons, List.replicate_succ, xorInto, ih, UInt8.zero_xor]

lemma xorInto_xorInto {a b : Bytes} (h : b.length = a.length) : xorInto (xorInto a b) a = b := by
  have htake := take_xorInto_xorInto (a := a) (b := b) (le_of_eq h)
  rwa [List.take_of_length_le (by simp [h])] at htake

/-- There are finitely many byte strings of a length. -/
instance finite_bytes (n : ℕ) : Finite { b : Bytes // b.length = n } :=
  have : Finite UInt8 := Finite.of_injective UInt8.toFin fun _ _ => UInt8.toFin_inj.1
  (List.finite_length_eq UInt8 n).to_subtype

/-! ### Chaining -/

/-- A permutation of the blocks of `k` bytes, with its inverse. -/
structure Cipher (k : ℕ) where
  encrypt : Bytes → Bytes
  decrypt : Bytes → Bytes
  length_encrypt : ∀ b, b.length = k → (encrypt b).length = k
  decrypt_encrypt : ∀ b, b.length = k → decrypt (encrypt b) = b

/-- Cipher block chaining from a start block: each block is changed by the one written before. -/
def cbc (encrypt : Bytes → Bytes) : Bytes → List Bytes → List Bytes
  | _, [] => []
  | prev, b :: bs => encrypt (xorInto prev b) :: cbc encrypt (encrypt (xorInto prev b)) bs

/-- The inverse of chaining. -/
def uncbc (decrypt : Bytes → Bytes) : Bytes → List Bytes → List Bytes
  | _, [] => []
  | prev, b :: bs => xorInto (decrypt b) prev :: uncbc decrypt b bs

@[simp] lemma length_cbc (encrypt : Bytes → Bytes) (prev : Bytes) (bs : List Bytes) :
    (cbc encrypt prev bs).length = bs.length := by
  induction bs generalizing prev with
  | nil => rfl
  | cons b bs ih => simp [cbc, ih]

/-- Chaining goes on from the last block written. -/
lemma cbc_append (encrypt : Bytes → Bytes) (prev : Bytes) (bs cs : List Bytes) :
    cbc encrypt prev (bs ++ cs) =
      cbc encrypt prev bs ++ cbc encrypt ((cbc encrypt prev bs).getLastD prev) cs := by
  induction bs generalizing prev with
  | nil => rfl
  | cons b bs ih =>
    simp only [List.cons_append, cbc, ih]
    congr 3
    cases bs <;> simp [cbc, List.getLastD]

section Cipher

variable {k : ℕ} (C : Cipher k) {prev : Bytes} {bs : List Bytes}

/-- The blocks written are full, also for blocks that are not. -/
lemma length_of_mem_cbc (hprev : prev.length = k) : ∀ b ∈ cbc C.encrypt prev bs, b.length = k := by
  induction bs generalizing prev with
  | nil => simp [cbc]
  | cons b bs ih =>
    have hb := C.length_encrypt (xorInto prev b) (by simpa using hprev)
    rintro c (_ | ⟨_, hc⟩)
    · exact hb
    · exact ih hb c hc

lemma length_getLastD_cbc (hprev : prev.length = k) :
    ((cbc C.encrypt prev bs).getLastD prev).length = k := by
  cases hc : cbc C.encrypt prev bs with
  | nil => exact hprev
  | cons c cs =>
    rw [List.getLastD_cons]
    exact length_of_mem_cbc C hprev _ (hc ▸ List.getLastD_mem_cons)

/-- Chained blocks are read back. -/
lemma uncbc_cbc (hprev : prev.length = k) (hbs : ∀ b ∈ bs, b.length = k) :
    uncbc C.decrypt prev (cbc C.encrypt prev bs) = bs := by
  induction bs generalizing prev with
  | nil => rfl
  | cons b bs ih =>
    have hb : b.length = k := hbs b List.mem_cons_self
    have hx : (xorInto prev b).length = k := by simpa using hprev
    simp only [cbc, uncbc]
    rw [C.decrypt_encrypt _ hx, xorInto_xorInto (by rw [hb, hprev]),
      ih (C.length_encrypt _ hx) fun c hc => hbs c (List.mem_cons_of_mem _ hc)]

end Cipher

end Blocks
