import NextNfs.Lib.Run
import NextNfs.Server.ClientTable

set_option relaxedAutoImplicit false
set_option autoImplicit false

/-!
# Leases

A client has a lease, which it takes with SETCLIENTID and SETCLIENTID_CONFIRM and renews with RENEW.
The sweeper marks the clients whose lease has run out, and removes them when it has run out twice.
This module is about when it does.

## Main definitions

* `NextNfs.Leases.Leased`, `NextNfs.Leases.Leased.step` — a server with a clock, and what its sweeps
  did.
* `NextNfs.Leases.Safe` — no sweep marked or removed a client too early.
* `NextNfs.Leases.Stamped` — the clients that a sweep finds were not set up since their records were
  stamped, or that was long ago too.

## Main results

* `NextNfs.Leases.safe_of_step` — when a step keeps the server safe.
* `NextNfs.Leases.holds_safe_iff` — when a run does.

## Implementation notes

The time of a record is that of the SETCLIENTID that made it, or of the last RENEW; a confirmation
does not change it. Times are in nanoseconds, the lease is in seconds.
-/

namespace NextNfs

namespace Leases

open ClientManager ClientTable

/-! ### The server -/

/-- A nanosecond is this part of a second. -/
def second : ℕ := 1000000000

/-- What a sweep did to a client: how long after its last operation, and whether an earlier sweep
had marked it. -/
structure Mark where
  clientId : UInt64
  age : ℕ
  earlier : Bool
deriving DecidableEq

/-- A server with its clock, the times at which each client was last set up (by SETCLIENTID or
SETCLIENTID_CONFIRM) and renewed its lease, and the clients that were marked and removed. -/
structure Leased where
  cm : ClientManager
  now : ℕ
  setUp : UInt64 → ℕ
  renewed : UInt64 → ℕ
  marked : List Mark
  purged : List Mark

/-- What is asked of it. -/
inductive Op
  | setClientId (order : Order) (verifier : List.Vector UInt8 8) (id : String)
      (callback : ClientCallback) (principal : Option String) (token : ConfirmToken)
  | setClientIdConfirm (order : Order) (clientId : UInt64) (token : ConfirmToken)
      (principal : Option String)
  | renew (clientId : UInt64)
  | sweepLeases

namespace Leased

/-- A server without clients. -/
def start (leaseTime : ℕ) : Leased :=
  ⟨{ ClientManager.new with leaseTime := leaseTime }, 0, fun _ => 0, fun _ => 0, [], []⟩

/-- The time of the last successful SETCLIENTID, SETCLIENTID_CONFIRM or RENEW of a client. -/
def lastOperation (s : Leased) (clientId : UInt64) : ℕ :=
  max (s.setUp clientId) (s.renewed clientId)

/-- What a sweep does to a client. -/
def mark (s : Leased) (now : ℕ) (clientId : UInt64) : Mark :=
  ⟨clientId, now - s.lastOperation clientId, s.marked.any fun m => m.clientId == clientId⟩

/-- A step, some time after the one before. -/
def step (s : Leased) (a : ℕ × Op) : Option Leased :=
  let now := s.now + a.1
  match a.2 with
  | .setClientId order verifier id callback principal token => do
    let (cm, r) ← s.cm.upsertClient order.1 now verifier id callback principal token
    match r with
    | .ok entry =>
      pure { s with cm := cm, now := now, setUp := Function.update s.setUp entry.clientid now }
    | .error _ => pure { s with cm := cm, now := now }
  | .setClientIdConfirm order clientId token principal =>
    match s.cm.confirmClient order.1 clientId token principal with
    | (cm, .ok _) =>
      some { s with cm := cm, now := now, setUp := Function.update s.setUp clientId now }
    | (cm, .error _) => some { s with cm := cm, now := now }
  | .renew clientId =>
    match s.cm.renewLeases now clientId with
    | (cm, .ok _) =>
      some { s with cm := cm, now := now, renewed := Function.update s.renewed clientId now }
    | (cm, .error _) => some { s with cm := cm, now := now }
  | .sweepLeases =>
    let (cm, expired) := s.cm.sweepLeases now
    let lapsed := (s.cm.db.select (s.cm.lapses now)).map ClientEntry.clientid
    some { s with
      cm := cm
      now := now
      marked := lapsed.map (s.mark now) ++ s.marked
      purged := expired.map (s.mark now) ++ s.purged }

end Leased

open Leased

/-- A client was marked only when its lease had run out since its last operation, and removed only
when it had run out twice and an earlier sweep had marked it. -/
structure Safe (s : Leased) : Prop where
  marked : ∀ m ∈ s.marked, s.cm.leaseTime * second ≤ m.age
  purged : ∀ m ∈ s.purged, 2 * (s.cm.leaseTime * second) ≤ m.age ∧ m.earlier = true

/-- When a sweep finds a record whose time is long past, so is the last SETCLIENTID or
SETCLIENTID_CONFIRM of its client. -/
def Stamped (s : Leased) (a : ℕ × Op) : Prop :=
  match a.2 with
  | .sweepLeases => ∀ e ∈ s.cm.db,
    (s.cm.lapses (s.now + a.1) e = true →
      s.setUp e.clientid + s.cm.leaseTime * second ≤ s.now + a.1) ∧
    (s.cm.expires (s.now + a.1) e = true →
      s.setUp e.clientid + 2 * (s.cm.leaseTime * second) ≤ s.now + a.1)
  | _ => True

/-- The invariant: a record has not an earlier time than the last RENEW of its client, and a client
whose record is marked was marked by a sweep. -/
structure Sound (s : Leased) : Prop where
  renewed : ∀ e ∈ s.cm.db, s.renewed e.clientid ≤ e.lastRenewed
  marked : ∀ e ∈ s.cm.db, e.courtesy = true → ∃ m ∈ s.marked, m.clientId = e.clientid
  clock : ∀ c, s.lastOperation c ≤ s.now

/-! ### What the operations do to the records -/

/-- The records are of the same client and time as before, and marked if they were. -/
def SameTimes (db db' : ClientDb) : Prop :=
  ∀ e ∈ db', ∃ e₀ ∈ db, e₀.clientid = e.clientid ∧ e₀.lastRenewed = e.lastRenewed ∧
    e₀.courtesy = e.courtesy

variable {cm cm' : ClientManager} {db db' : ClientDb} {s s' : Leased}

lemma sameTimes_of_subset (h : ∀ e ∈ db', e ∈ db) : SameTimes db db' :=
  fun e he => ⟨e, h e he, rfl, rfl, rfl⟩

/-- SETCLIENTID_CONFIRM does not stamp the record. -/
lemma confirmClient_sameTimes (cm : ClientManager) (order : Order) (clientId : UInt64)
    (token : ConfirmToken) (principal : Option String) :
    SameTimes cm.db (cm.confirmClient order.1 clientId token principal).1.db := by
  obtain ⟨-, heq⟩ | ⟨-, heq⟩ | ⟨-, -, older, -, ⟨-, heq⟩ | ⟨entry, -, -, -, heq⟩⟩ :=
    confirmClient_cases cm order clientId token principal
  all_goals rw [heq]
  · exact sameTimes_of_subset fun e he => he
  · exact sameTimes_of_subset fun e he => he
  · exact sameTimes_of_subset fun e he => (mem_without.1 he).1
  · intro e he
    obtain ⟨e₀, he₀, rfl⟩ := mem_confirmedAt.1 he
    refine ⟨e₀, (mem_without.1 he₀).1, ?_⟩
    split_ifs
    · exact ⟨rfl, rfl, rfl⟩
    · exact ⟨rfl, rfl, rfl⟩

/-! ### What the operations do to the lease time -/

lemma upsertClient_leaseTime {order : Order} {now : ℕ} {verifier : List.Vector UInt8 8}
    {id : String} {callback : ClientCallback} {principal : Option String} {token : ConfirmToken}
    {r : Except NfsStat4 ClientEntry}
    (h : cm.upsertClient order.1 now verifier id callback principal token = some (cm', r)) :
    cm'.leaseTime = cm.leaseTime := by
  unfold upsertClient at h
  dsimp only at h
  split_ifs at h
  · cases h
    rfl
  · obtain ⟨⟨cm₁, entry⟩, hadd, heq⟩ := Option.bind_eq_some_iff.1 h
    cases heq
    obtain ⟨db, -, heq⟩ := Option.bind_eq_some_iff.1 hadd
    cases heq
    rfl

lemma confirmClient_leaseTime (cm : ClientManager) (order : Order) (clientId : UInt64)
    (token : ConfirmToken) (principal : Option String) :
    (cm.confirmClient order.1 clientId token principal).1.leaseTime = cm.leaseTime := by
  obtain ⟨-, heq⟩ | ⟨-, heq⟩ | ⟨-, -, older, -, ⟨-, heq⟩ | ⟨entry, -, -, -, heq⟩⟩ :=
    confirmClient_cases cm order clientId token principal
  all_goals rw [heq]

lemma renewLeases_leaseTime (cm : ClientManager) (now : ℕ) (clientId : UInt64) :
    (cm.renewLeases now clientId).1.leaseTime = cm.leaseTime := by
  unfold renewLeases
  dsimp only
  split_ifs <;> rfl

/-- RENEW is refused, or stamps all records of the client. -/
lemma renewLeases_cases (cm : ClientManager) (now : ℕ) (clientId : UInt64) :
    (∃ status, cm.renewLeases now clientId = (cm, .error status)) ∨
      ((cm.renewLeases now clientId).2 = .ok () ∧
        ∀ e ∈ (cm.renewLeases now clientId).1.db,
          (e.clientid = clientId ∧ e.lastRenewed = now ∧ e.courtesy = false) ∨
            (e.clientid ≠ clientId ∧ e ∈ cm.db)) := by
  unfold renewLeases
  dsimp only
  split_ifs
  · exact Or.inl ⟨_, rfl⟩
  · exact Or.inl ⟨_, rfl⟩
  · refine Or.inr ⟨rfl, fun e he => ?_⟩
    obtain ⟨e₀, he₀, rfl⟩ := (@mem_modify cm.db _
      (fun e => { e with lastRenewed := now, courtesy := false }) (fun _ => rfl) e).1 he
    split_ifs with hclient
    · exact Or.inl ⟨by simpa using hclient, rfl, rfl⟩
    · exact Or.inr ⟨by simpa using hclient, he₀⟩

/-- A sweep changes no time, and marks only the clients whose lease has run out. -/
lemma mem_sweepLeases {now : ℕ} {e : ClientEntry} (he : e ∈ (cm.sweepLeases now).1.db) :
    ∃ e₀ ∈ cm.db, e₀.clientid = e.clientid ∧ e₀.lastRenewed = e.lastRenewed ∧
      (e.courtesy = true → e₀.courtesy = true ∨
        e.clientid ∈ (cm.db.select (cm.lapses now)).map ClientEntry.clientid) := by
  obtain ⟨hmod, -⟩ := Table.mem_erase.1 he
  obtain ⟨e₀, he₀, rfl⟩ := mem_modify.1 hmod
  refine ⟨e₀, he₀, ?_⟩
  split_ifs with hlapsed
  · exact ⟨rfl, rfl, fun _ => Or.inr (List.contains_iff_mem.1 hlapsed)⟩
  · exact ⟨rfl, rfl, Or.inl⟩

/-! ### The invariant -/

/-- The time of the last operation after another one. -/
lemma lastOperation_update_setUp {clientId c : UInt64} {now : ℕ}
    (h : ∀ c, s.lastOperation c ≤ now) :
    max (Function.update s.setUp clientId now c) (s.renewed c) ≤ now := by
  have hc := h c
  unfold lastOperation at hc
  rw [Function.update_apply]
  split_ifs <;> omega

lemma lastOperation_update_renewed {clientId c : UInt64} {now : ℕ}
    (h : ∀ c, s.lastOperation c ≤ now) :
    max (s.setUp c) (Function.update s.renewed clientId now c) ≤ now := by
  have hc := h c
  unfold lastOperation at hc
  rw [Function.update_apply]
  split_ifs <;> omega

lemma sound_start (leaseTime : ℕ) : Sound (start leaseTime) :=
  ⟨fun _ he => absurd he Table.not_mem_empty, fun _ he => absurd he Table.not_mem_empty,
    fun _ => Nat.le_refl 0⟩

/-- A step keeps the invariant, and the lease. -/
lemma Sound.of_step (h : Sound s) {a : ℕ × Op} (hstep : s.step a = some s') :
    Sound s' ∧ s'.cm.leaseTime = s.cm.leaseTime := by
  have hclock : ∀ c, s.lastOperation c ≤ s.now + a.1 := fun c =>
    (h.clock c).trans (Nat.le_add_right _ _)
  obtain ⟨wait, op⟩ := a
  cases op with
  | setClientId order verifier id callback principal token =>
    obtain ⟨⟨cm, r⟩, hupsert, hrest⟩ := Option.bind_eq_some_iff.1 hstep
    have hlease : cm.leaseTime = s.cm.leaseTime := upsertClient_leaseTime hupsert
    obtain ⟨rfl, status, rfl⟩ | ⟨entry, rfl, -, hstamp, hcourtesy, hkept⟩ :=
      upsertClient_kept hupsert
    · cases hrest
      exact ⟨⟨h.renewed, h.marked, hclock⟩, rfl⟩
    · cases hrest
      refine ⟨⟨fun e he => ?_, fun e he hmarked => ?_, fun c => ?_⟩, hlease⟩
      · rcases hkept e he with rfl | ⟨hold, -⟩
        · rw [hstamp]
          exact (le_max_right _ _).trans (hclock _)
        · exact h.renewed e hold
      · rcases hkept e he with rfl | ⟨hold, -⟩
        · rw [hcourtesy] at hmarked
          cases hmarked
        · exact h.marked e hold hmarked
      · exact lastOperation_update_setUp hclock
  | setClientIdConfirm order clientId token principal =>
    have htimes := confirmClient_sameTimes s.cm order clientId token principal
    have hlease := confirmClient_leaseTime s.cm order clientId token principal
    have hrenewed : ∀ e ∈ (s.cm.confirmClient order.1 clientId token principal).1.db,
        s.renewed e.clientid ≤ e.lastRenewed := by
      intro e he
      obtain ⟨e₀, he₀, hclient, htime, -⟩ := htimes e he
      rw [← hclient, ← htime]
      exact h.renewed e₀ he₀
    have hmarked : ∀ e ∈ (s.cm.confirmClient order.1 clientId token principal).1.db,
        e.courtesy = true → ∃ m ∈ s.marked, m.clientId = e.clientid := by
      intro e he hcourtesy
      obtain ⟨e₀, he₀, hclient, -, hsame⟩ := htimes e he
      rw [← hclient]
      exact h.marked e₀ he₀ (hsame.trans hcourtesy)
    unfold step at hstep
    dsimp only at hstep
    split at hstep
    · rename_i cm entry heq
      cases hstep
      rw [heq] at hrenewed hmarked hlease
      exact ⟨⟨hrenewed, hmarked, fun c => lastOperation_update_setUp hclock⟩, hlease⟩
    · rename_i cm status heq
      cases hstep
      rw [heq] at hrenewed hmarked hlease
      exact ⟨⟨hrenewed, hmarked, hclock⟩, hlease⟩
  | renew clientId =>
    have hlease := renewLeases_leaseTime s.cm (s.now + wait) clientId
    unfold step at hstep
    dsimp only at hstep
    obtain ⟨status, heq⟩ | ⟨hok, hkept⟩ := renewLeases_cases s.cm (s.now + wait) clientId
    · rw [heq] at hstep
      cases hstep
      exact ⟨⟨h.renewed, h.marked, hclock⟩, rfl⟩
    · rw [← Prod.mk.eta (p := s.cm.renewLeases (s.now + wait) clientId), hok] at hstep
      cases hstep
      refine ⟨⟨fun e he => ?_, fun e he hcourtesy => ?_, fun c => ?_⟩, hlease⟩
      · show Function.update s.renewed clientId (s.now + wait) e.clientid ≤ e.lastRenewed
        rw [Function.update_apply]
        rcases hkept e he with ⟨hclient, htime, -⟩ | ⟨hclient, hold⟩
        · rw [if_pos hclient, htime]
        · rw [if_neg hclient]
          exact h.renewed e hold
      · rcases hkept e he with ⟨-, -, hnot⟩ | ⟨-, hold⟩
        · rw [hnot] at hcourtesy
          cases hcourtesy
        · exact h.marked e hold hcourtesy
      · exact lastOperation_update_renewed hclock
  | sweepLeases =>
    cases hstep
    refine ⟨⟨fun e he => ?_, fun e he hcourtesy => ?_, hclock⟩, rfl⟩
    · obtain ⟨e₀, he₀, hclient, htime, -⟩ := mem_sweepLeases he
      rw [← hclient, ← htime]
      exact h.renewed e₀ he₀
    · obtain ⟨e₀, he₀, hclient, -, hmark⟩ := mem_sweepLeases he
      rcases hmark hcourtesy with hold | hlapsed
      · obtain ⟨m, hm, heq⟩ := h.marked e₀ he₀ hold
        exact ⟨m, List.mem_append_right _ hm, heq.trans hclient⟩
      · exact ⟨_, List.mem_append_left _ (List.mem_map_of_mem hlapsed), rfl⟩

/-! ### Sweeps -/

/-- A lease has run out when that many nanoseconds have passed. -/
lemma le_elapsed_iff {e : ClientEntry} {now k : ℕ} :
    k ≤ e.elapsed now ↔ k * second ≤ now - e.lastRenewed :=
  Nat.le_div_iff_mul_le (by decide)

lemma lapses_iff {now : ℕ} {e : ClientEntry} :
    cm.lapses now e = true ↔
      e.confirmed = true ∧ cm.leaseTime * second ≤ now - e.lastRenewed ∧ e.courtesy = false := by
  simp [lapses, le_elapsed_iff]

lemma expires_iff {now : ℕ} {e : ClientEntry} :
    cm.expires now e = true ↔
      e.confirmed = true ∧ e.courtesy = true ∧
        2 * (cm.leaseTime * second) ≤ now - e.lastRenewed := by
  simp only [expires, Bool.and_eq_true, decide_eq_true_eq, ge_iff_le, le_elapsed_iff]
  rw [Nat.mul_comm cm.leaseTime 2, Nat.mul_assoc]

/-- The age of a client whose record is old, and was last renewed before. -/
lemma le_age_iff (h : Sound s) {now k : ℕ} (hnow : s.now ≤ now) {e : ClientEntry} (he : e ∈ s.cm.db)
    (hold : k ≤ now - e.lastRenewed) :
    k ≤ (s.mark now e.clientid).age ↔ s.setUp e.clientid + k ≤ now := by
  have hrenewed := h.renewed e he
  have hclock := h.clock e.clientid
  unfold mark lastOperation at *
  dsimp only at *
  constructor
  · intro hage
    omega
  · intro hset
    omega

/-- The clients that a sweep marks are old enough exactly when their last SETCLIENTID or
SETCLIENTID_CONFIRM is. -/
lemma marked_iff (h : Sound s) {now : ℕ} (hnow : s.now ≤ now) :
    (∀ m ∈ ((s.cm.db.select (s.cm.lapses now)).map ClientEntry.clientid).map (s.mark now),
        s.cm.leaseTime * second ≤ m.age) ↔
      ∀ e ∈ s.cm.db, s.cm.lapses now e = true →
        s.setUp e.clientid + s.cm.leaseTime * second ≤ now := by
  simp only [List.forall_mem_map, Table.mem_select, and_imp]
  refine forall₃_congr fun e he hlapses => ?_
  exact le_age_iff h hnow he (lapses_iff.1 hlapses).2.1

/-- So are those that it removes, which an earlier sweep had marked. -/
lemma purged_iff (h : Sound s) {now : ℕ} (hnow : s.now ≤ now) :
    (∀ m ∈ ((s.cm.db.select (s.cm.expires now)).map ClientEntry.clientid).map (s.mark now),
        2 * (s.cm.leaseTime * second) ≤ m.age ∧ m.earlier = true) ↔
      ∀ e ∈ s.cm.db, s.cm.expires now e = true →
        s.setUp e.clientid + 2 * (s.cm.leaseTime * second) ≤ now := by
  simp only [List.forall_mem_map, Table.mem_select, and_imp]
  refine forall₃_congr fun e he hexpires => ?_
  obtain ⟨-, hcourtesy, hold⟩ := expires_iff.1 hexpires
  have hearlier : (s.mark now e.clientid).earlier = true := by
    obtain ⟨m, hm, heq⟩ := h.marked e he hcourtesy
    exact List.any_eq_true.2 ⟨m, hm, by simpa using heq⟩
  rw [and_iff_left hearlier]
  exact le_age_iff h hnow he hold

/-- A step keeps the server safe exactly when it is not a sweep that finds a record older than the
last SETCLIENTID or SETCLIENTID_CONFIRM of its client. -/
lemma safe_of_step (h : Sound s) (hsafe : Safe s) {a : ℕ × Op} (hstep : s.step a = some s') :
    Safe s' ↔ Stamped s a := by
  have hlease := (h.of_step hstep).2
  obtain ⟨wait, op⟩ := a
  -- only a sweep adds marks
  have hsame : s'.marked = s.marked → s'.purged = s.purged → Safe s' := by
    intro hmarked hpurged
    refine ⟨?_, ?_⟩
    · rw [hmarked, hlease]
      exact hsafe.marked
    · rw [hpurged, hlease]
      exact hsafe.purged
  cases op with
  | setClientId order verifier id callback principal token =>
    obtain ⟨⟨cm, r⟩, -, hrest⟩ := Option.bind_eq_some_iff.1 hstep
    refine iff_of_true ?_ trivial
    cases r <;> cases hrest <;> exact hsame rfl rfl
  | setClientIdConfirm order clientId token principal =>
    refine iff_of_true ?_ trivial
    unfold step at hstep
    dsimp only at hstep
    split at hstep <;> cases hstep <;> exact hsame rfl rfl
  | renew clientId =>
    refine iff_of_true ?_ trivial
    unfold step at hstep
    dsimp only at hstep
    split at hstep <;> cases hstep <;> exact hsame rfl rfl
  | sweepLeases =>
    cases hstep
    have hnow : s.now ≤ s.now + wait := Nat.le_add_right _ _
    have hmarked := marked_iff h hnow
    have hpurged := purged_iff h hnow
    constructor
    · intro hsafe' e he
      refine ⟨hmarked.1 (fun m hm => ?_) e he, hpurged.1 (fun m hm => ?_) e he⟩
      · exact hsafe'.marked m (List.mem_append_left _ hm)
      · exact hsafe'.purged m (List.mem_append_left _ hm)
    · intro hstamped
      refine ⟨fun m hm => ?_, fun m hm => ?_⟩
      · rcases List.mem_append.1 hm with hnew | hold
        · exact hmarked.2 (fun e he => (hstamped e he).1) m hnew
        · exact hsafe.marked m hold
      · rcases List.mem_append.1 hm with hnew | hold
        · exact hpurged.2 (fun e he => (hstamped e he).2) m hnew
        · exact hsafe.purged m hold

/-- **Leases.** In a run no sweep marks or removes a client too early exactly when no sweep finds a
record whose time is a lease ago (or two) though its client was set up since. -/
theorem holds_safe_iff (leaseTime : ℕ) (as : List (ℕ × Op)) :
    Run.Holds step Safe (start leaseTime) as ↔ Run.Meets step Stamped (start leaseTime) as := by
  refine Run.holds_iff_meets_of_invariant (fun s a s' h _ hstep => (h.of_step hstep).1)
    (fun s a s' h hsafe hstep => safe_of_step h hsafe hstep) (sound_start leaseTime) ?_ as
  exact ⟨fun m hm => absurd hm List.not_mem_nil, fun m hm => absurd hm List.not_mem_nil⟩

section Examples

/-- A client confirms its id 170 seconds after it was given, is marked by the sweep 10 seconds later
and removed by the next one. -/
theorem not_safe_late_confirmation :
    ¬ Run.Holds step Safe (start 90)
      [(0, .setClientId ⟨fun l => l, fun l => List.Perm.refl l⟩ (List.Vector.replicate 8 0) "a"
          ⟨0, "", "", 0⟩ none (List.Vector.replicate 8 1)),
        (170 * second, .setClientIdConfirm ⟨fun l => l, fun l => List.Perm.refl l⟩ 1
          (List.Vector.replicate 8 1) none),
        (10 * second, .sweepLeases), (30 * second, .sweepLeases)] := by
  intro h
  have hsafe := (((h.2 _ rfl).2 _ rfl).2 _ rfl).2 _ rfl
  have hage := hsafe.purged ⟨1, 40 * second, true⟩ (by decide)
  exact absurd hage.1 (by decide)

end Examples

end Leases

end NextNfs
