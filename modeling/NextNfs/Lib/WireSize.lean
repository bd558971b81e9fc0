import NextNfs.Lib.Wire

set_option relaxedAutoImplicit false
set_option autoImplicit false

/-!
# The sizes of encodings

How many bytes a codec writes for a value, given by a function of the value alone. A writer may
still refuse the value; what it writes if it does not has the size.

## Main definitions

* `Wire.HasSize` — what is written has a size.
* `Wire.Codec.Sized` — the codec writes values by a size function.

## Main results

* `Wire.Codec.Sized.seq`, `Wire.Codec.sized_fixed`, `Wire.Codec.sized_bytes` — the sizes of lists
  and of data.
-/

namespace Wire

variable {ε α : Type}

/-- What is written, if anything is, has `n` bytes. -/
def HasSize (x : Except ε Bytes) (n : ℕ) : Prop := ∀ bs, x = .ok bs → bs.length = n

lemma hasSize_ok (bs : Bytes) : HasSize (.ok bs : Except ε Bytes) bs.length := by
  rintro _ ⟨⟩
  rfl

lemma hasSize_word (k n : ℕ) : HasSize (.ok (beBytes k n) : Except ε Bytes) k := by
  rintro _ ⟨⟩
  exact length_beBytes k n

lemma hasSize_error (e : ε) (n : ℕ) : HasSize (.error e : Except ε Bytes) n := nofun

/-- A size may be written another way. -/
lemma HasSize.of_eq {x : Except ε Bytes} {m n : ℕ} (h : HasSize x m) (heq : m = n) : HasSize x n :=
  heq ▸ h

/-- One part after another. -/
lemma HasSize.append {x y : Except ε Bytes} {m n : ℕ} (hx : HasSize x m) (hy : HasSize y n) :
    HasSize (do
      let bs ← x
      let cs ← y
      pure (bs ++ cs)) (m + n) := by
  intro out h
  obtain ⟨bs, hbs, h⟩ := except_bind_eq_ok.1 h
  obtain ⟨cs, hcs, h⟩ := except_bind_eq_ok.1 h
  cases h
  rw [List.length_append, hx bs hbs, hy cs hcs]

namespace Codec

/-- What a codec writes for a value has the size of the value. -/
def Sized (c : Codec ε α) (size : α → ℕ) : Prop := ∀ ν a, HasSize (c.put ν a) (size a)

variable {c : Codec ε α} {sizeA : α → ℕ}

lemma sized_word {eof : ε} {k : ℕ} {toNat : α → ℕ} {ofNat : ℕ → α} {lt : ∀ a, toNat a < 256 ^ k}
    {inv : ∀ a, ofNat (toNat a) = a} : (word eof k toNat ofNat lt inv).Sized fun _ => k :=
  fun _ _ => hasSize_word k _

lemma sized_natWord {eof : ε} {tooLong : ℕ → ε} {k : ℕ} :
    (natWord eof tooLong k).Sized fun _ => k := by
  intro ν n
  change HasSize (if n < 256 ^ k then .ok (beBytes k n) else .error (tooLong n)) k
  split_ifs
  · exact hasSize_word k n
  · exact hasSize_error _ _

lemma Sized.putAll (hc : c.Sized sizeA) (ν : Numbering) (as : List α) :
    HasSize (c.putAll ν as) (as.map sizeA).sum := by
  induction as with
  | nil => exact hasSize_ok []
  | cons a as ih =>
    rw [List.map_cons, List.sum_cons]
    exact (hc ν a).append ih

/-- A list is its count and its elements. -/
lemma Sized.seq {eof : ε} {tooLong : ℕ → ε} (hc : c.Sized sizeA) :
    (seq eof tooLong c).Sized fun as => 4 + (as.map sizeA).sum :=
  fun ν as => (sized_natWord ν as.length).append (hc.putAll ν as)

lemma sized_fixed {eof : ε} {n : ℕ} : (fixed eof n).Sized fun _ => n + padding n := by
  rintro ν v _ ⟨⟩
  rw [List.length_append, List.length_replicate, v.2]

/-- Data of variable length is its length, the data and the padding. -/
lemma sized_bytes {eof short : ε} {tooLong : ℕ → ε} :
    (bytes eof short tooLong).Sized fun bs => 4 + (bs.length + padding bs.length) := by
  intro ν bs out h
  obtain ⟨n, hn, h⟩ := except_bind_eq_ok.1 h
  cases h
  rw [List.length_append, List.length_append, List.length_replicate, sized_natWord ν _ n hn]

end Codec

end Wire
