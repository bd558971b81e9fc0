import Mathlib.Algebra.Order.Field.Basic
import Mathlib.Algebra.BigOperators.Group.List.Basic
import Mathlib.Tactic.Linarith
import Mathlib.Tactic.Ring

set_option relaxedAutoImplicit false
set_option autoImplicit false

/-!
# Token buckets

A bucket fills with time up to a capacity, and calls take from it. A call may take more than the
bucket holds when it is full, which leaves it in debt.

## Main definitions

* `TokenBucket.Bucket`, `TokenBucket.level` — a bucket, and what is in it at a time.
* `TokenBucket.Step`, `TokenBucket.Calls` — a call, and calls one after the other.
* `TokenBucket.taken` — what is taken in an interval.

## Main results

* `TokenBucket.Calls.taken_le` — in an interval no more is taken than the capacity, what flows in,
  and the largest debt.

## Implementation notes

The potential is what is in the bucket and what still flows in until the end of the interval: it
pays for every call, but for the debt that the last one may leave.
-/

namespace TokenBucket

variable {K : Type} [Field K] [LinearOrder K]

/-- The tokens in a bucket, below zero for a debt, and the time it was last refilled. -/
structure Bucket (K : Type) where
  tokens : K
  last : K

section

variable (cap rate : K)

/-- What is in the bucket at a time. -/
def level (b : Bucket K) (now : K) : K := min cap (b.tokens + rate * (now - b.last))

/-- A call at a time, and what it takes: the bucket is not touched, or refilled, or what is taken is
in it or is more than it can hold. -/
inductive Step : Bucket K → K → K → Bucket K → Prop
  | skip (b : Bucket K) (now : K) : Step b now 0 b
  | refill (b : Bucket K) (now : K) : Step b now 0 ⟨level cap rate b now, now⟩
  | take (b : Bucket K) (now x : K) (h : min x cap ≤ level cap rate b now) :
    Step b now x ⟨level cap rate b now - x, now⟩

/-- Calls one after the other, with the time of each and what it takes. -/
inductive Calls : Bucket K → List (K × K) → Prop
  | nil (b : Bucket K) : Calls b []
  | cons {b b' : Bucket K} {now x : K} {calls : List (K × K)} (h : Step cap rate b now x b')
    (hs : Calls b' calls) : Calls b ((now, x) :: calls)

end

/-- What is taken from a time to another. -/
def taken (a e : K) (calls : List (K × K)) : K :=
  ((calls.filter fun c => a ≤ c.1 ∧ c.1 ≤ e).map Prod.snd).sum

@[simp] lemma taken_nil (a e : K) : taken a e [] = 0 := rfl

lemma taken_cons_of_mem {a e : K} {c : K × K} (h : a ≤ c.1 ∧ c.1 ≤ e) (calls : List (K × K)) :
    taken a e (c :: calls) = c.2 + taken a e calls := by
  simp [taken, h]

lemma taken_cons_of_notMem {a e : K} {c : K × K} (h : ¬(a ≤ c.1 ∧ c.1 ≤ e))
    (calls : List (K × K)) : taken a e (c :: calls) = taken a e calls := by
  simp [taken, h]

/-- Intervals with the same calls in them. -/
lemma taken_congr {a a' e e' : K} {calls : List (K × K)}
    (h : ∀ c ∈ calls, (a ≤ c.1 ∧ c.1 ≤ e) ↔ (a' ≤ c.1 ∧ c.1 ≤ e')) :
    taken a e calls = taken a' e' calls := by
  unfold taken
  rw [List.filter_congr fun c hc => decide_eq_decide.2 (h c hc)]

lemma taken_eq_zero {a e : K} {calls : List (K × K)} (h : ∀ c ∈ calls, ¬(a ≤ c.1 ∧ c.1 ≤ e)) :
    taken a e calls = 0 := by
  unfold taken
  rw [List.filter_eq_nil_iff.2 fun c hc => by simpa using h c hc]
  rfl

variable {cap rate : K} {b b' : Bucket K} {now x : K} {calls : List (K × K)}

variable (cap rate b now) in
lemma level_le : level cap rate b now ≤ cap := min_le_left _ _

variable [IsStrictOrderedRing K]

/-- What is in the bucket later is there already, or flows in. -/
lemma level_le_add (cap : K) (b : Bucket K) (hrate : 0 ≤ rate) {a : K} (h : a ≤ now) :
    level cap rate b now ≤ level cap rate b a + rate * (now - a) := by
  have hflow : 0 ≤ rate * (now - a) := mul_nonneg hrate (sub_nonneg.2 h)
  have hsplit : b.tokens + rate * (now - b.last) =
      b.tokens + rate * (a - b.last) + rate * (now - a) := by ring
  unfold level
  rw [hsplit, min_add]
  exact min_le_min (le_add_of_nonneg_right hflow) le_rfl

/-- A call takes what it says. -/
lemma Step.level_add_le (h : Step cap rate b now x b') :
    level cap rate b' now + x ≤ level cap rate b now := by
  cases h with
  | skip => rw [add_zero]
  | refill =>
    rw [add_zero]
    refine (min_le_right _ _).trans_eq ?_
    rw [sub_self, mul_zero, add_zero]
  | take _ h =>
    have hle : level cap rate ⟨level cap rate b now - x, now⟩ now ≤ level cap rate b now - x := by
      refine (min_le_right _ _).trans_eq ?_
      rw [sub_self, mul_zero, add_zero]
    linarith

/-- A call takes nothing, or no more than is there and may be owed. -/
lemma Step.eq_zero_or_le (h : Step cap rate b now x b') {debt : K} (hdebt : 0 ≤ debt)
    (hx : x ≤ cap + debt) : x = 0 ∨ x ≤ level cap rate b now + debt := by
  cases h with
  | skip => exact .inl rfl
  | refill => exact .inl rfl
  | take _ h =>
    right
    rcases min_le_iff.1 h with hle | hle
    · linarith
    · linarith

/-- From a time on nothing is taken, or no more than there is then, what flows in, and the debt. -/
lemma Calls.taken_le_level (h : Calls cap rate b calls) (hrate : 0 ≤ rate) {a e debt : K}
    (hae : a ≤ e) (hdebt : 0 ≤ debt) (hfrom : ∀ c ∈ calls, a ≤ c.1)
    (hsorted : calls.Pairwise fun c c' => c.1 ≤ c'.1)
    (hle : ∀ c ∈ calls, c.1 ≤ e → c.2 ≤ cap + debt) :
    taken a e calls = 0 ∨ taken a e calls ≤ level cap rate b a + rate * (e - a) + debt := by
  induction h generalizing a with
  | nil b => exact .inl rfl
  | @cons b b' now x calls h hs ih =>
    obtain ⟨hfirst, hsorted⟩ := List.pairwise_cons.1 hsorted
    have hnow : a ≤ now := hfrom (now, x) List.mem_cons_self
    by_cases hin : now ≤ e
    · -- what is left after the call pays for the rest
      have hflow := level_le_add cap b hrate hnow
      have hcall := h.level_add_le
      have hsplit : rate * (e - a) = rate * (now - a) + rate * (e - now) := by ring
      have hnext : 0 ≤ rate * (e - now) := mul_nonneg hrate (sub_nonneg.2 hin)
      have hfrom' : taken a e calls = taken now e calls := taken_congr fun c hc =>
        and_congr_left fun _ => iff_of_true (hnow.trans (hfirst c hc)) (hfirst c hc)
      rw [taken_cons_of_mem ⟨hnow, hin⟩, hfrom']
      rcases ih hin hfirst hsorted fun c hc => hle c (List.mem_cons_of_mem _ hc) with hrest | hrest
      · rw [hrest, add_zero]
        rcases h.eq_zero_or_le hdebt (hle _ List.mem_cons_self hin) with hx | hx
        · exact .inl hx
        · exact .inr (by dsimp only; linarith)
      · exact .inr (by dsimp only; linarith)
    · -- the interval is over
      refine .inl (taken_eq_zero ?_)
      rintro c (_ | ⟨_, hc⟩) ⟨-, hce⟩
      · exact hin hce
      · exact hin ((hfirst c hc).trans hce)

/-- **In an interval no more is taken than the capacity, what flows in, and the largest debt.** -/
theorem Calls.taken_le (h : Calls cap rate b calls) (hcap : 0 ≤ cap) (hrate : 0 ≤ rate)
    {a e debt : K} (hae : a ≤ e) (hdebt : 0 ≤ debt)
    (hsorted : calls.Pairwise fun c c' => c.1 ≤ c'.1)
    (hle : ∀ c ∈ calls, a ≤ c.1 → c.1 ≤ e → c.2 ≤ cap + debt) :
    taken a e calls ≤ cap + rate * (e - a) + debt := by
  have hflow : 0 ≤ rate * (e - a) := mul_nonneg hrate (sub_nonneg.2 hae)
  induction h with
  | nil b => rw [taken_nil]; linarith
  | @cons b b' now x calls h hs ih =>
    obtain ⟨hfirst, hsorted'⟩ := List.pairwise_cons.1 hsorted
    by_cases hin : a ≤ now
    · -- the first call of the interval
      have hfrom : ∀ c ∈ (now, x) :: calls, a ≤ c.1 := by
        rintro c (_ | ⟨_, hc⟩)
        · exact hin
        · exact hin.trans (hfirst c hc)
      rcases (Calls.cons h hs).taken_le_level hrate hae hdebt hfrom hsorted
        fun c hc => hle c hc (hfrom c hc) with htaken | htaken
      · rw [htaken]
        linarith
      · have hlevel := level_le cap rate b a
        linarith
    · rw [taken_cons_of_notMem fun hmem => hin hmem.1]
      exact ih hsorted' fun c hc => hle c (List.mem_cons_of_mem _ hc)

end TokenBucket
