import Mathlib.Data.Nat.Notation
import Mathlib.Tactic.SplitIfs

set_option relaxedAutoImplicit false
set_option autoImplicit false

/-!
# Leases

A lease is held from a stamp on, which is the time of its last renewal. From time to time a sweep
comes: it marks a lease that has run out, and takes back one that was marked before and has been out
for long. A renewal removes the mark, unless it comes too late.

## Main definitions

* `Lease.Held`, `Lease.Held.step`, `Lease.Held.after` — a lease, and what is left of it after
  renewals and sweeps.
* `Lease.Timely` — everything comes soon after the last renewal.

## Main results

* `Lease.after_of_timely`, `Lease.after_unmarked` — a lease that is renewed in time is kept, and is
  never marked.
* `Lease.after_eq_none_iff` — when a lease that is not renewed is taken back.
-/

namespace Lease

/-- How long after its stamp a lease has run out; may be taken back, if it is marked; and cannot be
renewed any more, if it is marked. -/
structure Terms where
  out : ℕ
  back : ℕ
  lost : ℕ

/-- A lease that is held. -/
structure Held where
  stamp : ℕ
  marked : Bool
deriving DecidableEq

/-- What happens to a lease. -/
inductive Event
  | renew
  | sweep
deriving DecidableEq

/-- The lease can be renewed. -/
def Held.renewable (h : Held) (t : Terms) (now : ℕ) : Bool :=
  !(h.marked && decide (t.lost ≤ now - h.stamp))

/-- A renewal or a sweep at a time. -/
def Held.step (h : Held) (t : Terms) : ℕ × Event → Option Held
  | (now, .renew) => some (if h.renewable t now then ⟨now, false⟩ else h)
  | (now, .sweep) =>
    if h.marked && decide (t.back ≤ now - h.stamp) then none
    else some { h with marked := h.marked || decide (t.out ≤ now - h.stamp) }

/-- What is left of a lease after renewals and sweeps. -/
def Held.after (h : Held) (t : Terms) (es : List (ℕ × Event)) : Option Held :=
  es.foldlM (fun h e => h.step t e) h

/-- Every renewal and every sweep comes less than `g` after the last renewal. -/
def Timely (g : ℕ) : ℕ → List (ℕ × Event) → Prop
  | _, [] => True
  | stamp, (now, .renew) :: es => now - stamp < g ∧ Timely g now es
  | stamp, (now, .sweep) :: es => now - stamp < g ∧ Timely g stamp es

/-- The time of the last renewal. -/
def lastRenewal : ℕ → List (ℕ × Event) → ℕ
  | stamp, [] => stamp
  | _, (now, .renew) :: es => lastRenewal now es
  | stamp, (_, .sweep) :: es => lastRenewal stamp es

variable {t : Terms} {stamp : ℕ} {es : List (ℕ × Event)}

@[simp] lemma after_nil (h : Held) : h.after t [] = some h := rfl

@[simp] lemma after_cons (h : Held) (e : ℕ × Event) :
    h.after t (e :: es) = (h.step t e).bind fun h' => h'.after t es := rfl

/-! ### Leases that are renewed -/

/-- What comes in time does not take back the lease. -/
lemma step_of_timely (hterms : t.back ≤ t.lost) {e : ℕ × Event}
    (htimely : Timely t.back stamp (e :: es)) (m : Bool) :
    ∃ stamp' m', Held.step ⟨stamp, m⟩ t e = some ⟨stamp', m'⟩ ∧ Timely t.back stamp' es ∧
      lastRenewal stamp (e :: es) = lastRenewal stamp' es := by
  obtain ⟨now, event⟩ := e
  cases event with
  | renew =>
    obtain ⟨hsoon, hrest⟩ := htimely
    have hrenewable : Held.renewable ⟨stamp, m⟩ t now = true := by
      simp [Held.renewable, Nat.lt_of_lt_of_le hsoon hterms]
    exact ⟨now, false, by simp [Held.step, hrenewable], hrest, rfl⟩
  | sweep =>
    obtain ⟨hsoon, hrest⟩ := htimely
    exact ⟨stamp, m || decide (t.out ≤ now - stamp), by simp [Held.step, Nat.not_le.2 hsoon],
      hrest, rfl⟩

/-- A lease that is renewed in time is kept. -/
lemma after_of_timely (hterms : t.back ≤ t.lost) (htimely : Timely t.back stamp es) (m : Bool) :
    ∃ m', Held.after ⟨stamp, m⟩ t es = some ⟨lastRenewal stamp es, m'⟩ := by
  induction es generalizing stamp m with
  | nil => exact ⟨m, rfl⟩
  | cons e es ih =>
    obtain ⟨stamp', m', hstep, hrest, hlast⟩ := step_of_timely hterms htimely m
    rw [after_cons, hstep, hlast]
    exact ih hrest m'

/-- A lease that is renewed before it runs out is never marked. -/
lemma after_unmarked (htimely : Timely t.out stamp es) :
    Held.after ⟨stamp, false⟩ t es = some ⟨lastRenewal stamp es, false⟩ := by
  induction es generalizing stamp with
  | nil => rfl
  | cons e es ih =>
    obtain ⟨now, event⟩ := e
    cases event with
    | renew =>
      have hafter := ih htimely.2
      simpa [Held.step, Held.renewable, lastRenewal] using hafter
    | sweep =>
      have hafter := ih htimely.2
      simpa [Held.step, Nat.not_le.2 htimely.1, lastRenewal] using hafter

/-! ### Leases that are not renewed -/

/-- A lease that is not renewed is taken back exactly by a sweep that comes long after its stamp,
when it is marked, or was marked by an earlier sweep, which came after it had run out. -/
lemma after_eq_none_iff (hsweeps : ∀ e ∈ es, e.2 = .sweep) (m : Bool) :
    Held.after ⟨stamp, m⟩ t es = none ↔
      ∃ before t₂ rest, es = before ++ (t₂, .sweep) :: rest ∧ t.back ≤ t₂ - stamp ∧
        (m = true ∨ ∃ t₁, (t₁, .sweep) ∈ before ∧ t.out ≤ t₁ - stamp) := by
  induction es generalizing m with
  | nil => simp
  | cons e es ih =>
    obtain ⟨now, event⟩ := e
    obtain rfl : event = .sweep := hsweeps _ List.mem_cons_self
    have ih := ih (fun e he => hsweeps e (List.mem_cons_of_mem _ he))
      (m || decide (t.out ≤ now - stamp))
    rw [after_cons, Held.step]
    dsimp only
    split_ifs with htaken
    · simp only [Bool.and_eq_true, decide_eq_true_eq] at htaken
      exact iff_of_true rfl ⟨[], now, es, rfl, htaken.2, .inl htaken.1⟩
    rw [Option.bind_some, ih]
    constructor
    · rintro ⟨before, t₂, rest, rfl, hback, hmarked⟩
      refine ⟨(now, .sweep) :: before, t₂, rest, rfl, hback, ?_⟩
      simp only [Bool.or_eq_true, decide_eq_true_eq] at hmarked
      obtain (hm | hout) | ⟨t₁, ht₁, hout⟩ := hmarked
      · exact .inl hm
      · exact .inr ⟨now, List.mem_cons_self, hout⟩
      · exact .inr ⟨t₁, List.mem_cons_of_mem _ ht₁, hout⟩
    · rintro ⟨before, t₂, rest, heq, hback, hmarked⟩
      cases before with
      | nil =>
        -- the first sweep takes back only what is marked
        cases heq
        obtain rfl | ⟨t₁, ht₁, -⟩ := hmarked
        · simp [hback] at htaken
        · cases ht₁
      | cons e before =>
        cases heq
        refine ⟨before, t₂, rest, rfl, hback, ?_⟩
        obtain rfl | ⟨t₁, ht₁, hout⟩ := hmarked
        · exact .inl rfl
        · rcases List.mem_cons.1 ht₁ with hfirst | ht₁
          · cases hfirst
            exact .inl (by simp [hout])
          · exact .inr ⟨t₁, ht₁, hout⟩

end Lease
