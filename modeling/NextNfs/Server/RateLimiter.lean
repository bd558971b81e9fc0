import Mathlib.Data.Rat.Lemmas
import NextNfs.Lib.TokenBucket

set_option relaxedAutoImplicit false
set_option autoImplicit false

/-!
# The rate limiter of an export

`RateLimiter` in `export_manager.rs` has a bucket for operations and one for the bytes of READs and
WRITEs. An operation passes when both have room for it.

## Main definitions

* `NextNfs.RateLimiter` — the buckets, with `new`, `refill` and `tryConsume`.
* `NextNfs.RateLimiter.served`, `NextNfs.RateLimiter.after` — calls one after the other.

## Main results

* `NextNfs.RateLimiter.rate_limiter_bound` — what is admitted in any interval.

## Implementation notes

Tokens and times are rational numbers, where the source has floating point numbers. A time is what
`Instant::now` gives, in seconds.
-/

namespace NextNfs

open TokenBucket

/-- `QosConfig`; zero is no limit. -/
structure QosConfig where
  maxOpsPerSec : UInt64
  maxBytesPerSec : UInt64

/-- `RateLimiter`. -/
structure RateLimiter where
  opsTokens : ℚ
  bytesTokens : ℚ
  lastRefill : ℚ
  config : QosConfig

namespace RateLimiter

/-- `new`, at a time. -/
def new (config : QosConfig) (now : ℚ) : RateLimiter where
  opsTokens := config.maxOpsPerSec.toNat
  bytesTokens := config.maxBytesPerSec.toNat
  lastRefill := now
  config := config

/-- A bucket of `refill`, with the limit, its tokens and the time that went by. -/
def refilled (limit : UInt64) (tokens elapsed : ℚ) : ℚ :=
  if limit > 0 then
    let tokens := tokens + elapsed * limit.toNat
    if tokens > limit.toNat then limit.toNat else tokens
  else tokens

/-- `refill`. `duration_since` is zero for a time that has not come yet. -/
def refill (s : RateLimiter) (now : ℚ) : RateLimiter :=
  let elapsed := max 0 (now - s.lastRefill)
  { s with
    lastRefill := now
    opsTokens := refilled s.config.maxOpsPerSec s.opsTokens elapsed
    bytesTokens := refilled s.config.maxBytesPerSec s.bytesTokens elapsed }

/-- `ops_limited`. -/
abbrev OpsLimited (s : RateLimiter) : Prop := s.config.maxOpsPerSec > 0

/-- `bytes_limited`. -/
abbrev BytesLimited (s : RateLimiter) (bytes : UInt64) : Prop :=
  s.config.maxBytesPerSec > 0 ∧ bytes > 0

/-- `try_consume`. -/
def tryConsume (s : RateLimiter) (now : ℚ) (bytes : UInt64) : Bool × RateLimiter :=
  if ¬s.OpsLimited ∧ ¬s.BytesLimited bytes then (true, s)
  else
    let r := s.refill now
    if s.OpsLimited ∧ r.opsTokens < 1 then (false, r)
    else
      let needed : ℚ := bytes.toNat
      let capacity : ℚ := s.config.maxBytesPerSec.toNat
      if s.BytesLimited bytes ∧ r.bytesTokens < min needed capacity then (false, r)
      else
        let r := if s.BytesLimited bytes then { r with bytesTokens := r.bytesTokens - needed }
          else r
        let r := if s.OpsLimited then { r with opsTokens := r.opsTokens - 1 } else r
        (true, r)

/-- A call of `try_consume`. -/
structure Call where
  now : ℚ
  bytes : UInt64

/-- Calls one after the other, with the answer to each. -/
def served : RateLimiter → List Call → List (Call × Bool)
  | _, [] => []
  | s, c :: calls =>
    (c, (s.tryConsume c.now c.bytes).1) :: served (s.tryConsume c.now c.bytes).2 calls

/-- The limiter after the calls. -/
def after (s : RateLimiter) (calls : List Call) : RateLimiter :=
  calls.foldl (fun s c => (s.tryConsume c.now c.bytes).2) s

/-- The calls admitted from a time to another. -/
def admitted (a e : ℚ) (answers : List (Call × Bool)) : List Call :=
  (answers.filter fun r => r.2 && a ≤ r.1.now && r.1.now ≤ e).map Prod.fst

/-! ### One call -/

variable {s : RateLimiter} {now : ℚ} {bytes : UInt64}

lemma cast_pos {n : UInt64} : (0 : ℚ) < n.toNat ↔ n > 0 := by
  rw [Nat.cast_pos, gt_iff_lt, UInt64.lt_iff_toNat_lt]
  rfl

/-- A bucket fills up to its limit. -/
lemma refilled_eq {limit : UInt64} (h : limit > 0) (tokens elapsed : ℚ) :
    refilled limit tokens elapsed = min (limit.toNat : ℚ) (tokens + limit.toNat * elapsed) := by
  unfold refilled
  rw [if_pos h, mul_comm elapsed]
  dsimp only
  split_ifs with hfull
  · exact (min_eq_left hfull.le).symm
  · exact (min_eq_right (not_lt.1 hfull)).symm

/-- A refill adds to a bucket that is not beyond its limit. -/
lemma le_refilled {limit : UInt64} {tokens elapsed : ℚ} (h : tokens ≤ limit.toNat)
    (helapsed : 0 ≤ elapsed) :
    tokens ≤ refilled limit tokens elapsed ∧ refilled limit tokens elapsed ≤ limit.toNat := by
  by_cases hlimit : limit > 0
  · rw [refilled_eq hlimit]
    refine ⟨le_min h (le_add_of_nonneg_right ?_), min_le_left _ _⟩
    exact mul_nonneg (cast_pos.2 hlimit).le helapsed
  · rw [refilled, if_neg hlimit]
    exact ⟨le_rfl, h⟩

/-- The limiter after a call that takes from both buckets. -/
def charged (s : RateLimiter) (now : ℚ) (bytes : UInt64) : RateLimiter :=
  { s.refill now with
    bytesTokens := (s.refill now).bytesTokens - if s.BytesLimited bytes then bytes.toNat else 0
    opsTokens := (s.refill now).opsTokens - if s.OpsLimited then 1 else 0 }

/-- What `try_consume` does: it passes a call that no limit applies to, or refuses it, or takes from
both buckets. -/
lemma tryConsume_cases (s : RateLimiter) (now : ℚ) (bytes : UInt64) :
    (¬s.OpsLimited ∧ ¬s.BytesLimited bytes ∧ s.tryConsume now bytes = (true, s)) ∨
    ((s.OpsLimited ∧ (s.refill now).opsTokens < 1 ∨ s.BytesLimited bytes ∧
        (s.refill now).bytesTokens < min (bytes.toNat : ℚ) s.config.maxBytesPerSec.toNat) ∧
      s.tryConsume now bytes = (false, s.refill now)) ∨
    ((s.OpsLimited → 1 ≤ (s.refill now).opsTokens) ∧
      (s.BytesLimited bytes →
        min (bytes.toNat : ℚ) s.config.maxBytesPerSec.toNat ≤ (s.refill now).bytesTokens) ∧
      s.tryConsume now bytes = (true, s.charged now bytes)) := by
  unfold tryConsume
  by_cases hskip : ¬s.OpsLimited ∧ ¬s.BytesLimited bytes
  · exact .inl ⟨hskip.1, hskip.2, if_pos hskip⟩
  rw [if_neg hskip]
  dsimp only
  by_cases hfew : s.OpsLimited ∧ (s.refill now).opsTokens < 1
  · exact .inr (.inl ⟨.inl hfew, if_pos hfew⟩)
  rw [if_neg hfew]
  by_cases hless : s.BytesLimited bytes ∧
      (s.refill now).bytesTokens < min (bytes.toNat : ℚ) s.config.maxBytesPerSec.toNat
  · exact .inr (.inl ⟨.inr hless, if_pos hless⟩)
  rw [if_neg hless]
  refine .inr (.inr ⟨fun h => not_lt.1 fun hlt => hfew ⟨h, hlt⟩,
    fun h => not_lt.1 fun hlt => hless ⟨h, hlt⟩, ?_⟩)
  unfold charged
  split_ifs <;> simp

/-- The bucket of bytes. -/
def bytesBucket (s : RateLimiter) : Bucket ℚ := ⟨s.bytesTokens, s.lastRefill⟩

/-- The bucket of operations. -/
def opsBucket (s : RateLimiter) : Bucket ℚ := ⟨s.opsTokens, s.lastRefill⟩

/-- A limit as a number. -/
abbrev rate (limit : UInt64) : ℚ := limit.toNat

lemma bytesBucket_refill (hlimit : s.config.maxBytesPerSec > 0) (h : s.lastRefill ≤ now) :
    (s.refill now).bytesBucket = ⟨level (rate s.config.maxBytesPerSec)
      (rate s.config.maxBytesPerSec) s.bytesBucket now, now⟩ := by
  show Bucket.mk (refilled _ _ (max 0 (now - s.lastRefill))) now = _
  rw [max_eq_right (sub_nonneg.2 h), refilled_eq hlimit]
  rfl

lemma opsBucket_refill (hlimit : s.config.maxOpsPerSec > 0) (h : s.lastRefill ≤ now) :
    (s.refill now).opsBucket = ⟨level (rate s.config.maxOpsPerSec)
      (rate s.config.maxOpsPerSec) s.opsBucket now, now⟩ := by
  show Bucket.mk (refilled _ _ (max 0 (now - s.lastRefill))) now = _
  rw [max_eq_right (sub_nonneg.2 h), refilled_eq hlimit]
  rfl

lemma bytes_step (bytes : UInt64) (hlimit : s.config.maxBytesPerSec > 0) (h : s.lastRefill ≤ now) :
    Step (rate s.config.maxBytesPerSec) (rate s.config.maxBytesPerSec) s.bytesBucket now
      (if (s.tryConsume now bytes).1 then (bytes.toNat : ℚ) else 0)
      (s.tryConsume now bytes).2.bytesBucket := by
  have hrefill := bytesBucket_refill hlimit h
  have htokens : (s.refill now).bytesTokens = level (rate s.config.maxBytesPerSec)
      (rate s.config.maxBytesPerSec) s.bytesBucket now := congrArg Bucket.tokens hrefill
  have hzero : ¬s.BytesLimited bytes → (bytes.toNat : ℚ) = 0 := fun hb =>
    le_antisymm (not_lt.1 fun hpos => hb ⟨hlimit, cast_pos.1 hpos⟩) (Nat.cast_nonneg _)
  obtain ⟨-, hb, heq⟩ | ⟨-, heq⟩ | ⟨-, hroom, heq⟩ := s.tryConsume_cases now bytes
  · rw [heq, if_pos rfl, hzero hb]
    exact .skip _ _
  · rw [heq, if_neg Bool.false_ne_true, hrefill]
    exact .refill _ _
  · rw [heq, if_pos rfl]
    by_cases hb : s.BytesLimited bytes
    · have hcharged : (s.charged now bytes).bytesBucket = ⟨level (rate s.config.maxBytesPerSec)
          (rate s.config.maxBytesPerSec) s.bytesBucket now - bytes.toNat, now⟩ := by
        rw [← htokens]
        simp [charged, bytesBucket, hb, refill]
      rw [hcharged]
      exact .take _ _ _ (htokens ▸ hroom hb)
    · have hcharged : (s.charged now bytes).bytesBucket = (s.refill now).bytesBucket := by
        simp [charged, bytesBucket, hb]
      rw [hcharged, hrefill, hzero hb]
      exact .refill _ _

lemma ops_step (bytes : UInt64) (hlimit : s.config.maxOpsPerSec > 0) (h : s.lastRefill ≤ now) :
    Step (rate s.config.maxOpsPerSec) (rate s.config.maxOpsPerSec) s.opsBucket now
      (if (s.tryConsume now bytes).1 then 1 else 0) (s.tryConsume now bytes).2.opsBucket := by
  have hrefill := opsBucket_refill hlimit h
  have htokens : (s.refill now).opsTokens = level (rate s.config.maxOpsPerSec)
      (rate s.config.maxOpsPerSec) s.opsBucket now := congrArg Bucket.tokens hrefill
  obtain ⟨hops, -⟩ | ⟨-, heq⟩ | ⟨hroom, -, heq⟩ := s.tryConsume_cases now bytes
  · exact absurd hlimit hops
  · rw [heq, if_neg Bool.false_ne_true, hrefill]
    exact .refill _ _
  · have hcharged : (s.charged now bytes).opsBucket = ⟨level (rate s.config.maxOpsPerSec)
        (rate s.config.maxOpsPerSec) s.opsBucket now - 1, now⟩ := by
      rw [← htokens]
      simp [charged, opsBucket, hlimit, refill]
    rw [heq, if_pos rfl, hcharged]
    exact .take _ _ _ ((min_le_left _ _).trans (htokens ▸ hroom hlimit))

/-- A call keeps the configuration, and its time is not before the last refill. -/
lemma tryConsume_keeps (bytes : UInt64) (h : s.lastRefill ≤ now) :
    (s.tryConsume now bytes).2.config = s.config ∧
      (s.tryConsume now bytes).2.lastRefill ≤ now := by
  obtain ⟨-, -, heq⟩ | ⟨-, heq⟩ | ⟨-, -, heq⟩ := s.tryConsume_cases now bytes
  · rw [heq]
    exact ⟨rfl, h⟩
  · rw [heq]
    exact ⟨rfl, le_rfl⟩
  · rw [heq]
    exact ⟨rfl, le_rfl⟩

/-! ### Calls one after the other -/

/-- What the calls take, with a weight for each. -/
def takes (w : Call → ℚ) (answers : List (Call × Bool)) : List (ℚ × ℚ) :=
  answers.map fun r => (r.1.now, if r.2 then w r.1 else 0)

/-- What is taken is what the admitted calls weigh. -/
lemma taken_takes (w : Call → ℚ) (a e : ℚ) (answers : List (Call × Bool)) :
    taken a e (takes w answers) = ((admitted a e answers).map w).sum := by
  induction answers with
  | nil => rfl
  | cons r answers ih =>
    obtain ⟨c, answer⟩ := r
    by_cases hin : a ≤ c.now ∧ c.now ≤ e
    · rw [takes, List.map_cons, taken_cons_of_mem hin, ← takes, ih]
      cases answer <;> simp [admitted, hin]
    · rw [takes, List.map_cons, taken_cons_of_notMem hin, ← takes, ih]
      have hnot : (answer && a ≤ c.now && c.now ≤ e) = false := by
        simpa [Bool.and_assoc] using fun _ => not_and.1 hin
      rw [admitted, admitted, List.filter_cons_of_neg (by simp [hnot])]

/-- Each bucket is one to which the calls are made in turn. -/
lemma calls_takes (bucket : RateLimiter → Bucket ℚ) (calls : List Call) {s : RateLimiter}
    {w : Call → ℚ} {cap : ℚ}
    (hstep : ∀ t : RateLimiter, t.config = s.config → ∀ c : Call, t.lastRefill ≤ c.now →
      Step cap cap (bucket t) c.now (if (t.tryConsume c.now c.bytes).1 then w c else 0)
        (bucket (t.tryConsume c.now c.bytes).2))
    (hstart : ∀ c ∈ calls, s.lastRefill ≤ c.now)
    (hsorted : calls.Pairwise fun c c' => c.now ≤ c'.now) :
    Calls cap cap (bucket s) (takes w (s.served calls)) := by
  induction calls generalizing s with
  | nil => exact .nil _
  | cons c calls ih =>
    obtain ⟨hfirst, hsorted⟩ := List.pairwise_cons.1 hsorted
    have hc := hstart c List.mem_cons_self
    obtain ⟨hconfig, hlast⟩ := tryConsume_keeps c.bytes hc
    refine .cons (hstep s rfl c hc) (ih (fun t ht => hstep t (ht.trans hconfig)) ?_ hsorted)
    exact fun c' hc' => hlast.trans (hfirst c' hc')

lemma map_fst_served (s : RateLimiter) (calls : List Call) :
    (s.served calls).map Prod.fst = calls := by
  induction calls generalizing s with
  | nil => rfl
  | cons c calls ih => rw [served, List.map_cons, ih]

lemma pairwise_takes (w : Call → ℚ) (s : RateLimiter) {calls : List Call}
    (hsorted : calls.Pairwise fun c c' => c.now ≤ c'.now) :
    (takes w (s.served calls)).Pairwise fun r r' => r.1 ≤ r'.1 := by
  rw [← map_fst_served s calls, List.pairwise_map] at hsorted
  rw [takes, List.pairwise_map]
  exact hsorted

/-- In an interval the admitted calls weigh no more than the capacity, what flows in, and the
largest debt. -/
lemma sum_admitted_le {calls : List Call} {w : Call → ℚ} {cap debt a e : ℚ} {b : Bucket ℚ}
    (hcalls : Calls cap cap b (takes w (s.served calls))) (hcap : 0 ≤ cap) (hdebt : 0 ≤ debt)
    (hae : a ≤ e) (hsorted : calls.Pairwise fun c c' => c.now ≤ c'.now)
    (hle : ∀ c ∈ calls, a ≤ c.now → c.now ≤ e → w c ≤ cap + debt) :
    ((admitted a e (s.served calls)).map w).sum ≤ cap + cap * (e - a) + debt := by
  rw [← taken_takes]
  refine hcalls.taken_le hcap hcap hae hdebt (pairwise_takes w s hsorted) ?_
  rintro r hr ha he
  obtain ⟨⟨c, answer⟩, hc, rfl⟩ := List.mem_map.1 hr
  have hmem : c ∈ calls := map_fst_served s calls ▸ List.mem_map_of_mem hc
  cases answer with
  | false => exact add_nonneg hcap hdebt
  | true => exact hle c hmem ha he

/-- The buckets are within the limits. -/
structure WithinLimits (s : RateLimiter) : Prop where
  bytes : s.bytesTokens ≤ rate s.config.maxBytesPerSec
  ops : s.opsTokens ≤ rate s.config.maxOpsPerSec

lemma withinLimits_new (config : QosConfig) (now : ℚ) : (new config now).WithinLimits :=
  ⟨le_rfl, le_rfl⟩

lemma WithinLimits.refill (h : s.WithinLimits) (now : ℚ) : (s.refill now).WithinLimits :=
  ⟨(le_refilled h.bytes (le_max_left _ _)).2, (le_refilled h.ops (le_max_left _ _)).2⟩

lemma WithinLimits.tryConsume (h : s.WithinLimits) (now : ℚ) (bytes : UInt64) :
    (s.tryConsume now bytes).2.WithinLimits := by
  have hrefill := h.refill now
  obtain ⟨-, -, heq⟩ | ⟨-, heq⟩ | ⟨-, -, heq⟩ := s.tryConsume_cases now bytes
  · rw [heq]
    exact h
  · rw [heq]
    exact hrefill
  · rw [heq]
    refine ⟨(sub_le_self _ ?_).trans hrefill.bytes, (sub_le_self _ ?_).trans hrefill.ops⟩
    · split_ifs
      · exact Nat.cast_nonneg _
      · exact le_rfl
    · split_ifs
      · exact zero_le_one
      · exact le_rfl

/-- The buckets stay within the limits, which stay as they are. -/
lemma withinLimits_after (h : s.WithinLimits) (calls : List Call) :
    (s.after calls).WithinLimits ∧ (s.after calls).config = s.config := by
  induction calls generalizing s with
  | nil => exact ⟨h, rfl⟩
  | cons c calls ih =>
    have hconfig : (s.tryConsume c.now c.bytes).2.config = s.config := by
      obtain ⟨-, -, heq⟩ | ⟨-, heq⟩ | ⟨-, -, heq⟩ := s.tryConsume_cases c.now c.bytes
      · rw [heq]
      · rw [heq]
        rfl
      · rw [heq]
        rfl
    obtain ⟨hwithin, hafter⟩ := ih (h.tryConsume c.now c.bytes)
    exact ⟨hwithin, hafter.trans hconfig⟩

/-- A refused call leaves the buckets refilled. -/
lemma tryConsume_refused (h : (s.tryConsume now bytes).1 = false) :
    (s.tryConsume now bytes).2 = s.refill now := by
  obtain ⟨-, -, heq⟩ | ⟨-, heq⟩ | ⟨-, -, heq⟩ := s.tryConsume_cases now bytes
  · rw [heq] at h
    cases h
  · rw [heq]
  · rw [heq] at h
    cases h

/-- A full bucket of bytes lets every call through. -/
lemma tryConsume_of_full (hfull : (s.refill now).bytesTokens = rate s.config.maxBytesPerSec)
    (hops : s.config.maxOpsPerSec = 0 ∨ 1 ≤ (s.refill now).opsTokens) :
    (s.tryConsume now bytes).1 = true := by
  obtain ⟨-, -, heq⟩ | ⟨hrefused, heq⟩ | ⟨-, -, heq⟩ := s.tryConsume_cases now bytes
  · rw [heq]
  · exfalso
    rcases hrefused with ⟨hlimit, hfew⟩ | ⟨-, hless⟩
    · rcases hops with hops | hops
      · exact absurd hlimit (by simp [OpsLimited, hops])
      · exact absurd hfew (not_lt.2 hops)
    · rw [hfull] at hless
      exact absurd hless (not_lt.2 (min_le_right _ _))
  · rw [heq]

/-- **Rate limiter bound.** With limits of `C` bytes and `R` operations per second the buckets hold
no more than that, a refused call takes nothing, in an interval of length `d` no more than `C + C *
d + max 0 (B - C)` bytes are admitted, where `B` bounds the calls in it, and no more than `R + R *
d` operations, and a call of more than `C` bytes passes when the bucket of bytes is full.

**Proof sketch.** Each bucket is a token bucket whose refills may be late. What is in it and what
flows in until the end of the interval pays for the calls, but for the debt of the last one, and
operations leave no debt. -/
theorem rate_limiter_bound (config : QosConfig) (start : ℚ) (calls : List Call)
    (hstart : ∀ c ∈ calls, start ≤ c.now)
    (hsorted : calls.Pairwise fun c c' => c.now ≤ c'.now) :
    let C : ℚ := config.maxBytesPerSec.toNat
    let R : ℚ := config.maxOpsPerSec.toNat
    let s := (new config start).after calls
    let answers := (new config start).served calls
    (s.bytesTokens ≤ C ∧ s.opsTokens ≤ R) ∧
    (∀ now bytes, (s.tryConsume now bytes).1 = false →
      s.bytesTokens ≤ (s.tryConsume now bytes).2.bytesTokens ∧
        s.opsTokens ≤ (s.tryConsume now bytes).2.opsTokens) ∧
    (∀ a d B : ℚ, 0 ≤ d → 0 < C →
      (∀ c ∈ calls, a ≤ c.now → c.now ≤ a + d → (c.bytes.toNat : ℚ) ≤ B) →
      ((admitted a (a + d) answers).map fun c => (c.bytes.toNat : ℚ)).sum ≤
        C + C * d + max 0 (B - C)) ∧
    (∀ a d : ℚ, 0 ≤ d → 0 < R → ((admitted a (a + d) answers).length : ℚ) ≤ R + R * d) ∧
    ∀ now bytes, C < bytes.toNat → (s.refill now).bytesTokens = C →
      (R = 0 ∨ 1 ≤ (s.refill now).opsTokens) → (s.tryConsume now bytes).1 = true := by
  intro C R s answers
  obtain ⟨hwithin, hconfig⟩ := withinLimits_after (withinLimits_new config start) calls
  have hC : (s.config.maxBytesPerSec.toNat : ℚ) = C := by rw [hconfig]; rfl
  have hR : (s.config.maxOpsPerSec.toNat : ℚ) = R := by rw [hconfig]; rfl
  refine ⟨⟨hC ▸ hwithin.bytes, hR ▸ hwithin.ops⟩, fun now bytes hrefused => ?_,
    fun a d B hd hpos hle => ?_, fun a d hd hpos => ?_, fun now bytes _ hfull hops => ?_⟩
  · rw [tryConsume_refused hrefused]
    exact ⟨(le_refilled hwithin.bytes (le_max_left _ _)).1,
      (le_refilled hwithin.ops (le_max_left _ _)).1⟩
  · have hlimit : config.maxBytesPerSec > 0 := cast_pos.1 hpos
    have hcalls : Calls C C (new config start).bytesBucket
        (takes (fun c => (c.bytes.toNat : ℚ)) answers) := by
      refine calls_takes bytesBucket calls (fun t ht c hc => ?_) hstart hsorted
      have hstep := bytes_step (s := t) c.bytes (by rw [ht]; exact hlimit) hc
      rwa [ht] at hstep
    have hsum := sum_admitted_le (a := a) (e := a + d) hcalls hpos.le (le_max_left 0 (B - C))
      (le_add_of_nonneg_right hd) hsorted fun c hc ha he => by
        linarith [hle c hc ha he, le_max_right 0 (B - C)]
    rwa [add_sub_cancel_left] at hsum
  · have hlimit : config.maxOpsPerSec > 0 := cast_pos.1 hpos
    have hone : 1 ≤ R := by
      have hnat : 1 ≤ config.maxOpsPerSec.toNat := Nat.cast_pos.1 hpos
      exact Nat.one_le_cast.2 hnat
    have hcalls : Calls R R (new config start).opsBucket (takes (fun _ => 1) answers) := by
      refine calls_takes opsBucket calls (fun t ht c hc => ?_) hstart hsorted
      have hstep := ops_step (s := t) c.bytes (by rw [ht]; exact hlimit) hc
      rwa [ht] at hstep
    have hsum := sum_admitted_le (a := a) (e := a + d) hcalls hpos.le le_rfl
      (le_add_of_nonneg_right hd) hsorted fun c _ _ _ => by linarith
    simpa [add_sub_cancel_left] using hsum
  · refine tryConsume_of_full (hfull.trans hC.symm) (hops.imp_left fun h => ?_)
    rw [hconfig]
    exact UInt64.toNat_inj.1 (Nat.cast_eq_zero.1 h)

/-- **Rate limiter bound**, of a call that fits the bucket and one that does not. -/
theorem rate_limiter_bound_sample :
    ((admitted 0 (0 + 2) ((new ⟨2, 1000⟩ 0).served [⟨0, 600⟩, ⟨2, 5000⟩])).map
      fun c => (c.bytes.toNat : ℚ)).sum ≤ 1000 + 1000 * 2 + max 0 (5000 - 1000) := by
  have hlimit : ((1000 : UInt64).toNat : ℚ) = 1000 := by
    rw [show (1000 : UInt64).toNat = 1000 from rfl]
    rfl
  have hle : ∀ c ∈ [(⟨0, 600⟩ : Call), ⟨2, 5000⟩], 0 ≤ c.now → c.now ≤ 0 + 2 →
      (c.bytes.toNat : ℚ) ≤ 5000 := by
    simp
  have hbytes := (rate_limiter_bound ⟨2, 1000⟩ 0 [⟨0, 600⟩, ⟨2, 5000⟩] (by simp)
    (by simp)).2.2.1 0 2 5000 (by norm_num) (by dsimp only; rw [hlimit]; norm_num) hle
  dsimp only at hbytes
  rwa [hlimit] at hbytes

end RateLimiter

end NextNfs
