import Mathlib.Data.Set.Insert
import Mathlib.Order.Nat

set_option relaxedAutoImplicit false
set_option autoImplicit false

/-!
# Sliding windows

A sliding window lets each number pass at most once. It keeps the newest number that has passed and,
for a fixed number of numbers up to that, a bit that says whether the number has passed. Numbers
that have fallen out of the window do not pass.

## Main definitions

* `SlidingWindow` — the window, with `SlidingWindow.accept`.
* `SlidingWindow.Admits` — what a window is for: a number that has not passed and has not fallen
  out.
* `SlidingWindow.Keeps` — the window knows the numbers that have passed.

## Main results

* `SlidingWindow.accept_keeps` — the window accepts exactly what it is for, and then knows it.
-/

/-- A window over numbers: the newest that has passed, and a bit `d` for the one `d` below it. -/
structure SlidingWindow (W : ℕ) where
  newest : Option ℕ
  seen : BitVec W

namespace SlidingWindow

variable {W : ℕ}

/-- Let a number pass, unless it has passed or has fallen out of the window. -/
def accept (w : SlidingWindow W) (n : ℕ) : SlidingWindow W × Bool :=
  match w.newest with
  | none => (⟨some n, 1#W⟩, true)
  | some m =>
    if m < n then (⟨some n, w.seen <<< (n - m) ||| 1#W⟩, true)
    else if W ≤ m - n ∨ w.seen.getLsbD (m - n) = true then (w, false)
    else (⟨some m, w.seen ||| 1#W <<< (m - n)⟩, true)

/-- A number is to pass when it is new and near enough to all that have passed. -/
def Admits (W : ℕ) (passed : Set ℕ) (n : ℕ) : Prop := n ∉ passed ∧ ∀ m ∈ passed, m < n + W

/-- The window knows the numbers that have passed, as far as it reaches. -/
def Keeps (w : SlidingWindow W) (passed : Set ℕ) : Prop :=
  match w.newest with
  | none => passed = ∅
  | some m => m ∈ passed ∧ (∀ n ∈ passed, n ≤ m) ∧
      ∀ d, w.seen.getLsbD d = true ↔ d < W ∧ d ≤ m ∧ m - d ∈ passed

variable {w w' : SlidingWindow W} {passed : Set ℕ} {m n : ℕ} {b : Bool}

/-- A newer number moves the window. -/
lemma keeps_shift (hm : w.newest = some m) (hkeeps : w.Keeps passed) (hlt : m < n) :
    (⟨some n, w.seen <<< (n - m) ||| 1#W⟩ : SlidingWindow W).Keeps (insert n passed) := by
  simp only [Keeps, hm] at hkeeps
  obtain ⟨hmem, hle, hseen⟩ := hkeeps
  refine ⟨Set.mem_insert n passed, ?_, fun d => ?_⟩
  · rintro a (rfl | ha)
    · exact le_rfl
    · exact (hle a ha).trans hlt.le
  · have hnew : n ∉ passed := fun h => absurd (hle n h) (not_le.2 hlt)
    simp only [BitVec.getLsbD_or, BitVec.getLsbD_shiftLeft, BitVec.getLsbD_one, Bool.or_eq_true,
      Bool.and_eq_true, decide_eq_true_eq, Bool.not_eq_true', decide_eq_false_iff_not, hseen,
      Set.mem_insert_iff]
    by_cases hd : d = 0
    · subst hd
      simp only [Nat.sub_zero, true_or, and_true]
      omega
    · by_cases hshort : d < n - m
      · have hout : n - d ∉ passed := by
          intro h
          have := hle _ h
          omega
        simp only [hshort, hd, hout, or_false, not_true_eq_false, and_false, false_and, false_iff,
          not_and]
        intro hW hdn
        omega
      · have heq : m - (d - (n - m)) = n - d := by omega
        rw [heq]
        constructor
        · rintro (⟨⟨hdW, -⟩, -, hdm, hpassed⟩ | ⟨-, h0⟩)
          · exact ⟨hdW, by omega, .inr hpassed⟩
          · exact absurd h0 hd
        · rintro ⟨hdW, hdn, heq' | hpassed⟩
          · omega
          · exact .inl ⟨⟨hdW, hshort⟩, by omega, by omega, hpassed⟩

/-- An older number fills its place in the window. -/
lemma keeps_fill (hm : w.newest = some m) (hkeeps : w.Keeps passed) (hle : n ≤ m) (hin : m - n < W) :
    (⟨some m, w.seen ||| 1#W <<< (m - n)⟩ : SlidingWindow W).Keeps (insert n passed) := by
  simp only [Keeps, hm] at hkeeps
  obtain ⟨hmem, hmax, hseen⟩ := hkeeps
  refine ⟨Set.mem_insert_of_mem n hmem, ?_, fun d => ?_⟩
  · rintro a (rfl | ha)
    · exact hle
    · exact hmax a ha
  · simp only [BitVec.getLsbD_or, BitVec.getLsbD_shiftLeft, BitVec.getLsbD_one, Bool.or_eq_true,
      Bool.and_eq_true, decide_eq_true_eq, Bool.not_eq_true', decide_eq_false_iff_not, hseen,
      Set.mem_insert_iff]
    by_cases hd : m - d ∈ passed
    · simp only [hd, or_true, and_true]
      omega
    · simp only [hd, or_false, and_false, false_or]
      omega

/-- **The window is right.** It accepts a number exactly when it is to pass, and then knows it. -/
lemma accept_keeps (hkeeps : w.Keeps passed) (h : w.accept n = (w', b)) :
    (b = true ↔ Admits W passed n) ∧ w'.Keeps (if b then insert n passed else passed) := by
  unfold accept at h
  cases hm : w.newest with
  | none =>
    simp only [hm] at h
    simp only [Keeps, hm] at hkeeps
    cases h
    subst hkeeps
    refine ⟨by simp [Admits], ?_⟩
    refine ⟨by simp, by simp, fun d => ?_⟩
    simp only [BitVec.getLsbD_one, Bool.and_eq_true, decide_eq_true_eq, if_true,
      Set.mem_insert_iff, Set.mem_empty_iff_false, or_false]
    omega
  | some m =>
    have hall := hkeeps
    simp only [Keeps, hm] at hall
    obtain ⟨hmem, hmax, hseen⟩ := hall
    simp only [hm] at h
    split_ifs at h with hlt hout <;> cases h
    · refine ⟨?_, keeps_shift hm hkeeps hlt⟩
      simp only [true_iff]
      refine ⟨fun hn => absurd (hmax n hn) (not_le.2 hlt), fun a ha => ?_⟩
      have := hmax a ha
      omega
    · refine ⟨?_, hkeeps⟩
      simp only [Bool.false_eq_true, false_iff]
      rintro ⟨hnew, hnear⟩
      have hnm := hnear m hmem
      rcases hout with hfar | hbit
      · omega
      · have hold := ((hseen (m - n)).1 hbit).2.2
        rw [show m - (m - n) = n by omega] at hold
        exact hnew hold
    · have hin : m - n < W := by omega
      have hle : n ≤ m := by omega
      refine ⟨?_, keeps_fill hm hkeeps hle hin⟩
      simp only [true_iff]
      refine ⟨fun hn => hout (Or.inr ((hseen (m - n)).2 ⟨hin, by omega, ?_⟩)), fun a ha => ?_⟩
      · rwa [show m - (m - n) = n by omega]
      · have := hmax a ha
        omega

end SlidingWindow
