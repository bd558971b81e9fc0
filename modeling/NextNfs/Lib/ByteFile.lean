import Mathlib.Data.List.GetD
import Mathlib.Data.List.Induction
import Mathlib.Data.List.TakeDrop
import Mathlib.Order.Lattice
import Mathlib.Tactic.SplitIfs

set_option relaxedAutoImplicit false
set_option autoImplicit false

/-!
# Files as lists

The contents of a file are a list. A write at a position replaces what is there; a gap between the
end of the file and the position is filled with a given element.

## Main definitions

* `ByteFile.splice` — a positional write.
* `ByteFile.Store`, `ByteFile.replay` — writes, and a list of them in order.
* `ByteFile.Tiles` — writes that follow upon one another.

## Main results

* `ByteFile.getD_splice` — the file after a write.
* `ByteFile.getD_replay_of_outside` — what no write has touched is unchanged.
* `ByteFile.Tiles.snoc` — one more write.
-/

namespace ByteFile

variable {α : Type} (z : α)

/-- The file after a write. A write of nothing changes nothing. -/
def splice (c : List α) (pos : ℕ) (bs : List α) : List α :=
  if bs.isEmpty then c else c.takeD pos z ++ bs ++ c.drop (pos + bs.length)

variable {z} {c bs : List α} {pos : ℕ}

@[simp] lemma splice_nil (c : List α) (pos : ℕ) : splice z c pos [] = c := rfl

lemma splice_of_ne_nil (h : bs ≠ []) :
    splice z c pos bs = c.takeD pos z ++ bs ++ c.drop (pos + bs.length) := by
  unfold splice
  rw [if_neg]
  simpa using h

lemma getD_takeD (c : List α) (n p : ℕ) :
    (c.takeD n z).getD p z = if p < n then c.getD p z else z := by
  induction n generalizing c p with
  | zero => simp
  | succ n ih =>
    cases p with
    | zero => cases c <;> simp [List.takeD]
    | succ p =>
      cases c with
      | nil => simp [List.takeD]
      | cons x c =>
        have h := ih c p
        simpa [List.takeD] using h

/-- The elements of the file after a write. -/
lemma getD_splice (c : List α) (pos : ℕ) (bs : List α) (p : ℕ) :
    (splice z c pos bs).getD p z =
      if pos ≤ p ∧ p < pos + bs.length then bs.getD (p - pos) z else c.getD p z := by
  by_cases hbs : bs = []
  · subst hbs
    rw [splice_nil, if_neg]
    rw [List.length_nil]
    omega
  rw [splice_of_ne_nil hbs]
  by_cases hlt : p < pos
  · rw [if_neg (by omega), List.append_assoc, List.getD_append _ _ _ _ (by simpa using hlt),
      getD_takeD, if_pos hlt]
  · by_cases hin : p < pos + bs.length
    · rw [if_pos ⟨by omega, hin⟩, List.append_assoc, List.getD_append_right _ _ _ _ (by simp; omega),
        List.takeD_length, List.getD_append _ _ _ _ (by omega)]
    · rw [if_neg (by omega), List.getD_append_right _ _ _ _ (by simp; omega)]
      simp only [List.length_append, List.takeD_length, List.getD_eq_getElem?_getD,
        List.getElem?_drop]
      congr 2
      omega

/-! ### Several writes -/

/-- A write. -/
structure Store (α : Type) where
  pos : ℕ
  bytes : List α

/-- The write reaches a position. -/
def Store.Covers (s : Store α) (p : ℕ) : Prop := s.pos ≤ p ∧ p < s.pos + s.bytes.length

variable (z) in
/-- The file after several writes. -/
def replay (c : List α) (l : List (Store α)) : List α :=
  l.foldl (fun c s => splice z c s.pos s.bytes) c

/-- Writes that follow upon one another from a position on, and what they write together. -/
inductive Tiles (pos : ℕ) : List (Store α) → List α → Prop
  | nil : Tiles pos [] []
  | snoc {l : List (Store α)} {bs : List α} {s : Store α} (h : Tiles pos l bs)
      (hpos : s.pos = pos + bs.length) : Tiles pos (l ++ [s]) (bs ++ s.bytes)

variable {l : List (Store α)} {s : Store α} {p : ℕ}

lemma replay_append_singleton (c : List α) (l : List (Store α)) (s : Store α) :
    replay z c (l ++ [s]) = splice z (replay z c l) s.pos s.bytes := by
  simp [replay]

/-- What no write reaches is unchanged. -/
lemma getD_replay_of_outside (c : List α) (h : ∀ s ∈ l, ¬ s.Covers p) :
    (replay z c l).getD p z = c.getD p z := by
  induction l using List.reverseRecOn with
  | nil => rfl
  | append_singleton l s ih =>
    have hlast : ¬ (s.pos ≤ p ∧ p < s.pos + s.bytes.length) := h s (by simp)
    rw [replay_append_singleton, getD_splice, if_neg hlast]
    exact ih fun s' hs' => h s' (List.mem_append_left _ hs')

/-- Writes that follow upon one another stay within what they write together. -/
lemma Tiles.of_covers (h : Tiles pos l bs) (hs : s ∈ l) (hp : s.Covers p) :
    pos ≤ p ∧ p < pos + bs.length := by
  obtain ⟨hle, hlt⟩ := hp
  induction h with
  | nil => cases hs
  | snoc _ hpos ih =>
    rw [List.length_append]
    rcases List.mem_append.1 hs with hold | hlast
    · have := ih hold
      omega
    · rw [List.mem_singleton.1 hlast] at hle hlt
      omega

end ByteFile
