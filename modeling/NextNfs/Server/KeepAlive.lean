import NextNfs.Lib.Lease
import NextNfs.Server.Leases

set_option relaxedAutoImplicit false
set_option autoImplicit false

/-!
# Keeping a client alive

The table of clients is one for all of them, and the sweeper goes over all of them at once. This
module is about what a client can rely on all the same, whatever the others do: the lease of its
record depends on its own messages and on the times of the sweeps only.

## Main definitions

* `NextNfs.Leases.terms`, `NextNfs.Leases.lease` — the leases of the records.
* `NextNfs.Leases.events` — what happens to the lease of a client in a run.
* `NextNfs.Leases.Replaces`, `NextNfs.Leases.Interferes` — the messages in the name of a client that
  replace its record, and those that come between its SETCLIENTID and SETCLIENTID_CONFIRM.
* `NextNfs.Leases.Tracks` — the record of a client is as its lease says.

## Main results

* `NextNfs.Leases.lease_refines` — the record of a client and the answers to its RENEWs are those of
  its lease alone.
* `NextNfs.Leases.kept_alive` — a client that renews its lease in time keeps its record.
* `NextNfs.Leases.removed_iff` — when the records of a client that does not come back are removed.
* `NextNfs.Leases.handshake_completes` — SETCLIENTID and SETCLIENTID_CONFIRM make one confirmed
  record, whatever comes in between.

## Implementation notes

A run has fewer than `2 ^ 64` messages, so that no client id is given twice.
-/

namespace NextNfs

namespace Leases

open ClientManager ClientTable Leased

/-! ### Leases of records -/

/-- The leases of the clients. RENEW counts whole seconds, so that it comes too late only one second
after a sweep may remove the client. -/
def terms (leaseTime : ℕ) : Lease.Terms where
  out := leaseTime * second
  back := 2 * (leaseTime * second)
  lost := (2 * leaseTime + 1) * second

lemma back_le_lost (leaseTime : ℕ) : (terms leaseTime).back ≤ (terms leaseTime).lost := by
  show 2 * (leaseTime * second) ≤ (2 * leaseTime + 1) * second
  rw [Nat.add_mul, Nat.mul_assoc]
  exact Nat.le_add_right _ _

/-- The lease of a record. -/
def lease (e : ClientEntry) : Lease.Held := ⟨e.lastRenewed, e.courtesy⟩

/-- The record under another lease. -/
def withLease (e : ClientEntry) (h : Lease.Held) : ClientEntry :=
  { e with lastRenewed := h.stamp, courtesy := h.marked }

/-- What an operation is for the lease of a client. -/
def Op.event (clientId : UInt64) : Op → Option Lease.Event
  | .renew c => if c = clientId then some .renew else none
  | .sweepLeases => some .sweep
  | _ => none

/-- What happens to the lease of a client in a run, with the times. -/
def events (clientId : UInt64) : ℕ → List (ℕ × Op) → List (ℕ × Lease.Event)
  | _, [] => []
  | now, a :: as =>
    ((a.2.event clientId).map fun ev => (now + a.1, ev)).toList ++ events clientId (now + a.1) as

/-- The confirmation of another record of the client, by the same principal. -/
def Replaces (e : ClientEntry) : Op → Prop
  | .setClientIdConfirm _ clientId token principal =>
    clientId = e.clientid ∧ principal = e.principal ∧ token ≠ e.setclientidConfirm
  | _ => False

/-- The record of a client is there under its lease; without a lease no record of the client is
there. -/
def Tracks (e : ClientEntry) (db : ClientDb) : Option Lease.Held → Prop
  | some h => withLease e h ∈ db
  | none => ∀ e' ∈ db, e'.clientid ≠ e.clientid

/-- The answer to a RENEW. -/
def answer (t : Lease.Terms) (now : ℕ) : Option Lease.Held → Except NfsStat4 Unit
  | some h => if h.renewable t now then .ok () else .error .nfs4errExpired
  | none => .error .nfs4errStaleClientid

/-! ### The operations -/

/-- What an operation makes of the table. -/
def Becomes (cm : ClientManager) (now : ℕ) (cm' : ClientManager) : Op → Prop
  | .setClientId order verifier id callback principal token =>
    ∃ r, cm.upsertClient order.1 now verifier id callback principal token = some (cm', r)
  | .setClientIdConfirm order clientId token principal =>
    (cm.confirmClient order.1 clientId token principal).1 = cm'
  | .renew clientId => (cm.renewLeases now clientId).1 = cm'
  | .sweepLeases => (cm.sweepLeases now).1 = cm'

variable {cm cm' : ClientManager} {db : ClientDb} {s s' : Leased} {e : ClientEntry}

/-- A step. -/
lemma becomes_of_step {a : ℕ × Op} (hstep : s.step a = some s') :
    s'.now = s.now + a.1 ∧ Becomes s.cm (s.now + a.1) s'.cm a.2 := by
  obtain ⟨wait, op⟩ := a
  cases op with
  | setClientId order verifier id callback principal token =>
    obtain ⟨⟨cm, r⟩, hupsert, hrest⟩ := Option.bind_eq_some_iff.1 hstep
    cases r <;> cases hrest <;> exact ⟨rfl, _, hupsert⟩
  | setClientIdConfirm order clientId token principal =>
    unfold step at hstep
    dsimp only at hstep
    split at hstep
    all_goals
      rename_i heq
      cases hstep
      exact ⟨rfl, congrArg Prod.fst heq⟩
  | renew clientId =>
    unfold step at hstep
    dsimp only at hstep
    split at hstep
    all_goals
      rename_i heq
      cases hstep
      exact ⟨rfl, congrArg Prod.fst heq⟩
  | sweepLeases =>
    cases hstep
    exact ⟨rfl, rfl⟩

lemma Becomes.leaseTime {now : ℕ} {op : Op} (h : Becomes cm now cm' op) :
    cm'.leaseTime = cm.leaseTime := by
  cases op with
  | setClientId =>
    obtain ⟨r, hupsert⟩ := h
    exact upsertClient_leaseTime hupsert
  | setClientIdConfirm order clientId token principal =>
    rw [← h]
    exact confirmClient_leaseTime cm order clientId token principal
  | renew clientId =>
    rw [← h]
    exact renewLeases_leaseTime cm now clientId
  | sweepLeases =>
    rw [← h]
    rfl

/-- An operation makes at most one client id. -/
lemma Becomes.numbered {n now : ℕ} {op : Op} (h : Becomes cm now cm' op) (hn : Numbered n cm)
    (hroom : n + 1 < 2 ^ 64) : Numbered (n + 1) cm' := by
  cases op with
  | setClientId =>
    obtain ⟨r, hupsert⟩ := h
    exact hn.of_upsertClient hroom hupsert
  | setClientIdConfirm order clientId token principal =>
    subst h
    have hconfirm := confirmClient_subsumed order.1 cm clientId token principal
    have hcon := hn.consistent.of_confirmClient order clientId token principal
    exact (hn.of_subsumed hcon hconfirm.1 hconfirm.2).mono n.le_succ
  | renew clientId =>
    subst h
    have hrenew := renewLeases_subsumed cm now clientId
    have hcon := hn.consistent.of_derived (renewLeases_derived cm now clientId)
    exact (hn.of_subsumed hcon hrenew.1 hrenew.2).mono n.le_succ
  | sweepLeases =>
    subst h
    have hsweep := sweepLeases_subsumed cm now
    have hcon := hn.consistent.of_derived (sweepLeases_derived cm now)
    exact (hn.of_subsumed hcon hsweep.1 hsweep.2).mono n.le_succ

/-- An operation does not use a client id again that is not in the table any more. -/
lemma Becomes.vacant {n now : ℕ} {op : Op} (h : Becomes cm now cm' op) (hn : Numbered n cm)
    (hroom : n + 1 < 2 ^ 64) {c : UInt64} (hbelow : c.toNat ≤ cm.clientIdSeq.toNat) :
    c.toNat ≤ cm'.clientIdSeq.toNat ∧
      ((∀ e ∈ cm.db, e.clientid ≠ c) → ∀ e ∈ cm'.db, e.clientid ≠ c) := by
  have hsubsumed : ∀ {cm' : ClientManager},
      Subsumed cm.db cm'.db ∧ cm'.clientIdSeq = cm.clientIdSeq →
        c.toNat ≤ cm'.clientIdSeq.toNat ∧
          ((∀ e ∈ cm.db, e.clientid ≠ c) → ∀ e ∈ cm'.db, e.clientid ≠ c) := by
    rintro cm' ⟨hsub, hseq⟩
    refine ⟨by rwa [hseq], fun hvacant e he => ?_⟩
    obtain ⟨e₀, he₀, -, hclient⟩ := hsub e he
    rw [← hclient]
    exact hvacant e₀ he₀
  cases op with
  | setClientId =>
    obtain ⟨r, hupsert⟩ := h
    obtain ⟨rfl, -⟩ | ⟨entry, -, -, hmem, hnumber⟩ := upsertClient_cases hupsert
    · exact ⟨hbelow, fun hvacant => hvacant⟩
    obtain ⟨e₀, he₀, -, hclient, hseq⟩ | ⟨-, hclient, hseq⟩ := hnumber
    · refine ⟨by rwa [hseq], fun hvacant e he => ?_⟩
      rcases hmem e he with rfl | hold
      · rw [← hclient]
        exact hvacant e₀ he₀
      · exact hvacant e hold
    · have hroom' : cm.clientIdSeq.toNat + 1 < 2 ^ 64 := by
        have := hn.seq
        omega
      have hsucc : (cm.clientIdSeq + 1).toNat = cm.clientIdSeq.toNat + 1 :=
        ClientIds.toNat_succ (n := 0) (by omega)
      refine ⟨by rw [hseq, hsucc]; omega, fun hvacant e he => ?_⟩
      rcases hmem e he with rfl | hold
      · rintro rfl
        rw [hclient, hsucc] at hbelow
        omega
      · exact hvacant e hold
  | setClientIdConfirm order clientId token principal =>
    subst h
    exact hsubsumed (confirmClient_subsumed order.1 cm clientId token principal)
  | renew clientId =>
    subst h
    exact hsubsumed (renewLeases_subsumed cm now clientId)
  | sweepLeases =>
    subst h
    exact hsubsumed (sweepLeases_subsumed cm now)

/-! ### The record of a client -/

/-- The confirmed records with one client id are one. -/
lemma eq_of_clientid (h : ClientTable.Consistent db) {e' : ClientEntry} (he : e ∈ db)
    (he' : e' ∈ db) (hclient : e.clientid = e'.clientid) (hconfirmed : e.confirmed = true)
    (hconfirmed' : e'.confirmed = true) : e = e' :=
  h.unique e he e' he' (h.apart e he e' he' hclient) (hconfirmed.trans hconfirmed'.symm)

/-- SETCLIENTID removes only records of its client that are not confirmed. -/
lemma mem_of_upsertClient {order : Order} {now : ℕ} {verifier : List.Vector UInt8 8} {id : String}
    {callback : ClientCallback} {principal : Option String} {token : ConfirmToken}
    {r : Except NfsStat4 ClientEntry}
    (h : cm.upsertClient order.1 now verifier id callback principal token = some (cm', r))
    (he : e ∈ cm.db) (hkeep : e.id = id → e.confirmed = true) : e ∈ cm'.db := by
  unfold upsertClient at h
  dsimp only at h
  split_ifs at h
  · cases h
    exact he
  · obtain ⟨⟨cm₁, entry⟩, hadd, heq⟩ := Option.bind_eq_some_iff.1 h
    cases heq
    obtain ⟨db, hdb, heq⟩ := Option.bind_eq_some_iff.1 hadd
    cases heq
    refine (Table.mem_insert hdb).2 (.inl (Table.mem_erase.2 ⟨he, ?_⟩))
    cases hsame : e.id == id with
    | false => rfl
    | true =>
      rw [hkeep (beq_iff_eq.1 hsame)]
      rfl

/-- SETCLIENTID_CONFIRM keeps a confirmed record that it does not replace. -/
lemma mem_of_confirmClient (order : Order) {clientId : UInt64} {token : ConfirmToken}
    {principal : Option String} (he : e ∈ cm.db) (hconfirmed : e.confirmed = true)
    (hkeeps : ¬ (clientId = e.clientid ∧ principal = e.principal ∧
      token ≠ e.setclientidConfirm)) :
    e ∈ (cm.confirmClient order.1 clientId token principal).1.db := by
  obtain ⟨-, heq⟩ | ⟨-, heq⟩ | ⟨-, hprincipal, older, holder, hrest⟩ :=
    confirmClient_cases cm order clientId token principal
  · rw [heq]
    exact he
  · rw [heq]
    exact he
  have hstays : e ∈ without cm.db older := by
    refine mem_without.2 ⟨he, fun o ho htoken => ?_⟩
    obtain ⟨hodb, hoclient, -, hotoken⟩ := holder.some o ho
    obtain rfl : e = o := eq_of_token he hodb htoken
    exact hkeeps ⟨hoclient.symm, (hprincipal e he hoclient).symm, hotoken.symm⟩
  obtain ⟨-, heq⟩ | ⟨entry, -, -, -, heq⟩ := hrest
  · rw [heq]
    exact hstays
  · rw [heq]
    refine mem_confirmedAt.2 ⟨e, hstays, ?_⟩
    split_ifs
    · rw [← hconfirmed]
    · rfl

/-- The records after some leases were renewed. -/
lemma mem_renewed {now : ℕ} {p : ClientEntry → Bool} :
    e ∈ modify db p (fun e => { e with lastRenewed := now, courtesy := false }) (fun _ => rfl) ↔
      ∃ a ∈ db, (if p a then withLease a ⟨now, false⟩ else a) = e :=
  mem_modify

/-- The records after some were marked. -/
lemma mem_marked {p : ClientEntry → Bool} :
    e ∈ modify db p (fun e => { e with courtesy := true }) (fun _ => rfl) ↔
      ∃ a ∈ db, (if p a then withLease a ⟨a.lastRenewed, true⟩ else a) = e :=
  mem_modify

/-- RENEW of another client leaves the record. -/
lemma mem_renewLeases_of_ne {now : ℕ} {clientId : UInt64} (he : e ∈ cm.db)
    (hne : e.clientid ≠ clientId) : e ∈ (cm.renewLeases now clientId).1.db := by
  unfold renewLeases
  dsimp only
  split_ifs
  · exact he
  · exact he
  · exact mem_renewed.2 ⟨e, he, if_neg (by simpa using hne)⟩

/-- RENEW comes too late. -/
lemma lost_iff {now : ℕ} :
    e.elapsed now > cm.leaseTime * 2 ↔ (terms cm.leaseTime).lost ≤ now - e.lastRenewed := by
  show _ ↔ (2 * cm.leaseTime + 1) * second ≤ _
  rw [← le_elapsed_iff]
  omega

/-- RENEW of a client with a confirmed record. -/
lemma renewLeases_of_confirmed (hcon : ClientTable.Consistent cm.db) (he : e ∈ cm.db)
    (hconfirmed : e.confirmed = true) (now : ℕ) :
    (cm.renewLeases now e.clientid).2 = answer (terms cm.leaseTime) now (some (lease e)) ∧
      Tracks e (cm.renewLeases now e.clientid).1.db
        ((lease e).step (terms cm.leaseTime) (now, .renew)) := by
  have hsome : (cm.db.select fun e' => e'.clientid == e.clientid).isEmpty = false := by
    rw [List.isEmpty_eq_false_iff_exists_mem]
    exact ⟨e, Table.mem_select.2 ⟨he, beq_self_eq_true _⟩⟩
  have hlate : (cm.db.select fun e' => e'.clientid == e.clientid).any (fun e' =>
      e'.confirmed && e'.courtesy && decide (e'.elapsed now > cm.leaseTime * 2)) =
        !(lease e).renewable (terms cm.leaseTime) now := by
    rw [Lease.Held.renewable, Bool.not_not, Bool.eq_iff_iff, List.any_eq_true]
    simp only [Bool.and_eq_true, decide_eq_true_eq, lost_iff]
    constructor
    · rintro ⟨e', he', ⟨hconfirmed', hcourtesy⟩, hlost⟩
      obtain ⟨hdb, hclient⟩ := Table.mem_select.1 he'
      obtain rfl := eq_of_clientid hcon hdb he (beq_iff_eq.1 hclient) hconfirmed' hconfirmed
      exact ⟨hcourtesy, hlost⟩
    · rintro ⟨hcourtesy, hlost⟩
      exact ⟨e, Table.mem_select.2 ⟨he, beq_self_eq_true _⟩, ⟨hconfirmed, hcourtesy⟩, hlost⟩
  unfold renewLeases answer Lease.Held.step
  dsimp only
  rw [hsome, hlate]
  cases (lease e).renewable (terms cm.leaseTime) now with
  | false => exact ⟨rfl, he⟩
  | true => exact ⟨rfl, mem_renewed.2 ⟨e, he, if_pos (beq_self_eq_true _)⟩⟩

/-- What a sweep finds of a client with a confirmed record. -/
lemma contains_clientid (hcon : ClientTable.Consistent db) (he : e ∈ db)
    (hconfirmed : e.confirmed = true) {p : ClientEntry → Bool}
    (hp : ∀ e, p e = true → e.confirmed = true) :
    ((db.select p).map ClientEntry.clientid).contains e.clientid = p e := by
  rw [Bool.eq_iff_iff, List.contains_iff_mem, List.mem_map]
  constructor
  · rintro ⟨e', he', hclient⟩
    obtain ⟨hdb, hpe⟩ := Table.mem_select.1 he'
    obtain rfl := eq_of_clientid hcon hdb he hclient (hp e' hpe) hconfirmed
    exact hpe
  · intro hpe
    exact ⟨e, Table.mem_select.2 ⟨he, hpe⟩, rfl⟩

/-- A sweep. -/
lemma sweepLeases_of_confirmed (hcon : ClientTable.Consistent cm.db) (he : e ∈ cm.db)
    (hconfirmed : e.confirmed = true) (now : ℕ) :
    Tracks e (cm.sweepLeases now).1.db ((lease e).step (terms cm.leaseTime) (now, .sweep)) := by
  have hlapsed := contains_clientid hcon he hconfirmed
    fun e (h : cm.lapses now e = true) => (lapses_iff.1 h).1
  have hexpired := contains_clientid hcon he hconfirmed
    fun e (h : cm.expires now e = true) => (expires_iff.1 h).1
  have hback : cm.expires now e =
      ((lease e).marked && decide ((terms cm.leaseTime).back ≤ now - (lease e).stamp)) := by
    rw [Bool.eq_iff_iff, expires_iff]
    simp only [Bool.and_eq_true, decide_eq_true_eq]
    exact and_iff_right hconfirmed
  have hout : (cm.lapses now e || e.courtesy) =
      ((lease e).marked || decide ((terms cm.leaseTime).out ≤ now - (lease e).stamp)) := by
    rw [Bool.eq_iff_iff, Bool.or_eq_true, lapses_iff]
    simp only [Bool.or_eq_true, decide_eq_true_eq]
    show _ ↔ e.courtesy = true ∨ cm.leaseTime * second ≤ now - e.lastRenewed
    cases e.courtesy <;> simp [hconfirmed]
  unfold sweepLeases Lease.Held.step
  dsimp only
  rw [← hback, ← hout]
  split_ifs with hexpires
  · intro e' he' hclient
    rw [← hclient] at hexpired
    have hkept := (Table.mem_erase.1 he').2
    rw [hexpired, hexpires] at hkept
    cases hkept
  · refine Table.mem_erase.2 ⟨mem_marked.2 ⟨e, he, ?_⟩, hexpired.trans (by simpa using hexpires)⟩
    rw [hlapsed]
    cases cm.lapses now e <;> rfl

/-! ### The lease of a client -/

/-- What an operation does to a lease. -/
def carry (t : Lease.Terms) (now : ℕ) (l : Option Lease.Held) :
    Option Lease.Event → Option Lease.Held
  | some ev => l.bind fun h => h.step t (now, ev)
  | none => l

lemma tracks_withLease {h : Lease.Held} {l : Option Lease.Held} :
    Tracks (withLease e h) db l ↔ Tracks e db l := by
  cases l <;> rfl

/-- An operation does to the record what it does to the lease. -/
lemma Tracks.of_becomes {n now : ℕ} {op : Op} {l : Option Lease.Held} (h : Tracks e cm.db l)
    (hop : Becomes cm now cm' op) (hn : Numbered n cm) (hroom : n + 1 < 2 ^ 64)
    (hbelow : e.clientid.toNat ≤ cm.clientIdSeq.toNat) (hconfirmed : e.confirmed = true)
    (hkeeps : ¬ Replaces e op) :
    Tracks e cm'.db (carry (terms cm.leaseTime) now l (op.event e.clientid)) := by
  cases l with
  | none =>
    have hnone : carry (terms cm.leaseTime) now none (op.event e.clientid) = none := by
      cases op.event e.clientid <;> rfl
    rw [hnone]
    exact (hop.vacant hn hroom hbelow).2 h
  | some held =>
    have he : withLease e held ∈ cm.db := h
    cases op with
    | setClientId =>
      obtain ⟨r, hupsert⟩ := hop
      exact mem_of_upsertClient hupsert he fun _ => hconfirmed
    | setClientIdConfirm order clientId token principal =>
      subst hop
      exact mem_of_confirmClient order he hconfirmed hkeeps
    | renew clientId =>
      subst hop
      unfold Op.event
      dsimp only
      split_ifs with hclient
      · subst hclient
        exact tracks_withLease.1 (renewLeases_of_confirmed hn.consistent he hconfirmed now).2
      · exact mem_renewLeases_of_ne he (Ne.symm hclient)
    | sweepLeases =>
      subst hop
      exact tracks_withLease.1 (sweepLeases_of_confirmed hn.consistent he hconfirmed now)

/-- The invariant: after `n` operations the record of a client is as its lease says. -/
structure Follows (leaseTime : ℕ) (e : ClientEntry) (n : ℕ) (cm : ClientManager)
    (l : Option Lease.Held) : Prop where
  term : cm.leaseTime = leaseTime
  numbered : Numbered n cm
  below : e.clientid.toNat ≤ cm.clientIdSeq.toNat
  tracks : Tracks e cm.db l

section Follows

variable {leaseTime n : ℕ} {l : Option Lease.Held} {before after : List (ℕ × Op)}

lemma Follows.of_step (h : Follows leaseTime e n s.cm l) (hconfirmed : e.confirmed = true)
    (hroom : n + 1 < 2 ^ 64) {a : ℕ × Op} (hkeeps : ¬ Replaces e a.2)
    (hstep : s.step a = some s') :
    Follows leaseTime e (n + 1) s'.cm
      (carry (terms leaseTime) (s.now + a.1) l (a.2.event e.clientid)) := by
  obtain ⟨-, hop⟩ := becomes_of_step hstep
  have htracks := h.tracks.of_becomes hop h.numbered hroom h.below hconfirmed hkeeps
  rw [h.term] at htracks
  exact ⟨hop.leaseTime.trans h.term, hop.numbered h.numbered hroom,
    (hop.vacant h.numbered hroom h.below).1, htracks⟩

/-- The first operation of a run, and the others. -/
lemma bind_after_events (t : Lease.Terms) (c : UInt64) (now : ℕ) (a : ℕ × Op) :
    (l.bind fun h => h.after t (events c now (a :: after))) =
      (carry t (now + a.1) l (a.2.event c)).bind fun h =>
        h.after t (events c (now + a.1) after) := by
  rw [events]
  cases a.2.event c with
  | none => rfl
  | some ev => cases l <;> rfl

/-- A run. -/
lemma Follows.of_run (h : Follows leaseTime e n s.cm l) (hconfirmed : e.confirmed = true)
    (hroom : n + after.length + 1 < 2 ^ 64) (hkeeps : ∀ a ∈ after, ¬ Replaces e a.2)
    (hrun : after.foldlM step s = some s') :
    Follows leaseTime e (n + after.length) s'.cm
      (l.bind fun h => h.after (terms leaseTime) (events e.clientid s.now after)) := by
  induction after generalizing s n l with
  | nil =>
    cases hrun
    cases l <;> exact h
  | cons a after ih =>
    obtain ⟨s₁, hstep, hrest⟩ := Option.bind_eq_some_iff.1 hrun
    rw [List.length_cons] at hroom ⊢
    have h₁ := h.of_step hconfirmed (by omega) (hkeeps a List.mem_cons_self) hstep
    have hnext := ih h₁ (by omega) (fun b hb => hkeeps b (List.mem_cons_of_mem _ hb)) hrest
    rw [(becomes_of_step hstep).1, Nat.add_right_comm] at hnext
    rw [bind_after_events]
    exact hnext

/-- The number of operations bounds the client ids. -/
lemma numbered_of_run (hn : Numbered n s.cm) (hroom : n + after.length + 1 < 2 ^ 64)
    (hrun : after.foldlM step s = some s') :
    s'.cm.leaseTime = s.cm.leaseTime ∧ Numbered (n + after.length) s'.cm := by
  induction after generalizing s n with
  | nil =>
    cases hrun
    exact ⟨rfl, hn⟩
  | cons a after ih =>
    obtain ⟨s₁, hstep, hrest⟩ := Option.bind_eq_some_iff.1 hrun
    rw [List.length_cons] at hroom ⊢
    obtain ⟨-, hop⟩ := becomes_of_step hstep
    obtain ⟨hterm, hn₁⟩ := ih (hop.numbered hn (by omega)) (by omega) hrest
    rw [Nat.add_right_comm] at hn₁
    exact ⟨hterm.trans hop.leaseTime, hn₁⟩

lemma numbered_of_start (hbefore : before.foldlM step (start leaseTime) = some s)
    (hlength : before.length + 1 < 2 ^ 64) :
    s.cm.leaseTime = leaseTime ∧ Numbered before.length s.cm := by
  have hnew : Numbered 0 ClientManager.new := numbered_new
  have hstart : Numbered 0 (start leaseTime).cm := ⟨hnew.consistent, hnew.below, hnew.seq⟩
  have hn := numbered_of_run hstart (by omega) hbefore
  rwa [Nat.zero_add] at hn

/-- A record in a reachable table. -/
lemma follows_of_start (hbefore : before.foldlM step (start leaseTime) = some s)
    (hlength : before.length + 1 < 2 ^ 64) (he : e ∈ s.cm.db) :
    Follows leaseTime e before.length s.cm (some (lease e)) := by
  obtain ⟨hterm, hn⟩ := numbered_of_start hbefore hlength
  exact ⟨hterm, hn, hn.below e he, he⟩

/-- A record in a reachable table, and a run from there. -/
lemma follows_of_runs (hbefore : before.foldlM step (start leaseTime) = some s)
    (he : e ∈ s.cm.db) (hconfirmed : e.confirmed = true)
    (hafter : after.foldlM step s = some s') (hlength : before.length + after.length + 1 < 2 ^ 64)
    (hkeeps : ∀ a ∈ after, ¬ Replaces e a.2) :
    Follows leaseTime e (before.length + after.length) s'.cm
      ((lease e).after (terms leaseTime) (events e.clientid s.now after)) :=
  (follows_of_start hbefore (by omega) he).of_run hconfirmed hlength hkeeps hafter

/-- RENEW is answered as the lease says. -/
lemma Follows.answers (h : Follows leaseTime e n cm l) (hconfirmed : e.confirmed = true)
    (now : ℕ) : (cm.renewLeases now e.clientid).2 = answer (terms leaseTime) now l := by
  cases l with
  | none =>
    have hempty : (cm.db.select fun e' => e'.clientid == e.clientid).isEmpty = true := by
      rw [List.isEmpty_iff, List.eq_nil_iff_forall_not_mem]
      intro e' he'
      obtain ⟨hdb, hclient⟩ := Table.mem_select.1 he'
      exact h.tracks e' hdb (beq_iff_eq.1 hclient)
    unfold renewLeases
    dsimp only
    rw [if_pos hempty]
    rfl
  | some held =>
    rw [← h.term]
    exact (renewLeases_of_confirmed h.numbered.consistent h.tracks hconfirmed now).1

/-- **The lease of a client.** From any reachable state on, whatever the other clients do and
however often the sweeper comes, the confirmed record of a client, and the answers to its RENEWs,
are those of its lease alone, as long as the client does not replace the record.

Proof sketch. Each operation does to the record what it does to the lease (`Tracks.of_becomes`): the
messages of others leave it, since no other confirmed record has its client id. Once the record is
removed no record gets its client id again, since there are fewer messages than client ids. -/
theorem lease_refines (hbefore : before.foldlM step (start leaseTime) = some s)
    (he : e ∈ s.cm.db) (hconfirmed : e.confirmed = true)
    (hafter : after.foldlM step s = some s') (hlength : before.length + after.length + 1 < 2 ^ 64)
    (hkeeps : ∀ a ∈ after, ¬ Replaces e a.2) :
    Tracks e s'.cm.db
        ((lease e).after (terms leaseTime) (events e.clientid s.now after)) ∧
      ∀ now, (s'.cm.renewLeases now e.clientid).2 = answer (terms leaseTime) now
        ((lease e).after (terms leaseTime) (events e.clientid s.now after)) := by
  have hfollows := follows_of_runs hbefore he hconfirmed hafter hlength hkeeps
  exact ⟨hfollows.tracks, hfollows.answers hconfirmed⟩

/-- SETCLIENTID of a client. -/
def setsClient (id : String) (b : UInt8) : Op :=
  .setClientId ⟨fun l => l, fun l => List.Perm.refl l⟩ (List.Vector.replicate 8 0) id
    ⟨0, "", "", 0⟩ none (List.Vector.replicate 8 b)

/-- A client sets up its id. -/
def setsUpA : List (ℕ × Op) :=
  [(0, setsClient "a" 1), (0, .setClientIdConfirm ⟨fun l => l, fun l => List.Perm.refl l⟩ 1
    (List.Vector.replicate 8 1) none)]

/-- Its record. -/
def recordA : ClientEntry :=
  ⟨none, List.Vector.replicate 8 0, "a", 1, ⟨0, "", "", 0⟩, List.Vector.replicate 8 1, true, 0,
    false⟩

/-- The client is gone, another one comes, and the sweeper. -/
def sweepsTwice : List (ℕ × Op) :=
  [(100 * second, .sweepLeases), (50 * second, setsClient "b" 2), (50 * second, .sweepLeases)]

lemma sweepsTwice_run :
    ∃ s s', setsUpA.foldlM step (start 90) = some s ∧ sweepsTwice.foldlM step s = some s' ∧
      recordA ∈ s.cm.db ∧ s.now = 0 :=
  ⟨_, _, rfl, rfl, List.Mem.head _, rfl⟩

/-- The client is marked, removed and told so. -/
theorem lease_refines_gone :
    ∃ s s', setsUpA.foldlM step (start 90) = some s ∧ sweepsTwice.foldlM step s = some s' ∧
      (∀ e ∈ s'.cm.db, e.clientid ≠ 1) ∧
      ∀ now, (s'.cm.renewLeases now 1).2 = .error .nfs4errStaleClientid := by
  obtain ⟨s, s', hbefore, hafter, hmem, hnow⟩ := sweepsTwice_run
  have hnone : (lease recordA).after (terms 90) (events recordA.clientid 0 sweepsTwice) = none := by
    decide +kernel
  have hrefines := lease_refines hbefore hmem rfl hafter (by decide)
    (by simp [sweepsTwice, setsClient, Replaces])
  rw [hnow, hnone] at hrefines
  exact ⟨s, s', hbefore, hafter, hrefines⟩

/-- **Keeping a client alive.** A confirmed client that sends RENEW in time, so that every sweep and
every RENEW comes less than twice the lease time after the RENEW before, keeps its record, whatever
the other clients do, and its next RENEW is answered `NFS4_OK`. If they all come less than the lease
time after the RENEW before, its record is never marked. -/
theorem kept_alive (hbefore : before.foldlM step (start leaseTime) = some s)
    (he : e ∈ s.cm.db) (hconfirmed : e.confirmed = true)
    (hafter : after.foldlM step s = some s') (hlength : before.length + after.length + 1 < 2 ^ 64)
    (hkeeps : ∀ a ∈ after, ¬ Replaces e a.2)
    (htimely : Lease.Timely (2 * (leaseTime * second)) e.lastRenewed
      (events e.clientid s.now after)) :
    ∃ m, withLease e
        ⟨Lease.lastRenewal e.lastRenewed (events e.clientid s.now after), m⟩ ∈ s'.cm.db ∧
      (e.courtesy = false → Lease.Timely (leaseTime * second) e.lastRenewed
        (events e.clientid s.now after) → m = false) ∧
      ∀ now, now - Lease.lastRenewal e.lastRenewed (events e.clientid s.now after) <
        (2 * leaseTime + 1) * second → (s'.cm.renewLeases now e.clientid).2 = .ok () := by
  have hfollows := follows_of_runs hbefore he hconfirmed hafter hlength hkeeps
  obtain ⟨m, hm⟩ := Lease.after_of_timely (back_le_lost leaseTime) htimely e.courtesy
  have hlease : (lease e).after (terms leaseTime) (events e.clientid s.now after) =
      some ⟨_, m⟩ := hm
  rw [hlease] at hfollows
  refine ⟨m, hfollows.tracks, fun hunmarked hsoon => ?_, fun now hnow => ?_⟩
  · rw [hunmarked, @Lease.after_unmarked (terms leaseTime) _ _ hsoon] at hm
    cases hm
    rfl
  · rw [hfollows.answers hconfirmed now]
    have hlost : ¬ (terms leaseTime).lost ≤ now - _ := Nat.not_le.2 hnow
    simp [answer, Lease.Held.renewable, hlost]

/-- The client sends RENEW every eighty seconds, while another one comes, and the sweeper. -/
def renewsTwice : List (ℕ × Op) :=
  [(80 * second, .renew 1), (0, setsClient "b" 2), (20 * second, .sweepLeases),
    (60 * second, .renew 1), (40 * second, .sweepLeases)]

/-- It is still there after two hundred seconds, and not marked. -/
theorem kept_alive_renewing :
    ∃ s s', setsUpA.foldlM step (start 90) = some s ∧ renewsTwice.foldlM step s = some s' ∧
      withLease recordA ⟨160 * second, false⟩ ∈ s'.cm.db ∧
      (s'.cm.renewLeases (300 * second) 1).2 = .ok () := by
  obtain ⟨s, s', hbefore, hafter, hmem, hnow⟩ : ∃ s s', setsUpA.foldlM step (start 90) = some s ∧
      renewsTwice.foldlM step s = some s' ∧ recordA ∈ s.cm.db ∧ s.now = 0 :=
    ⟨_, _, rfl, rfl, List.Mem.head _, rfl⟩
  have hevents : events recordA.clientid s.now renewsTwice = [(80 * second, .renew),
      (100 * second, .sweep), (160 * second, .renew), (200 * second, .sweep)] := by
    rw [hnow]
    decide +kernel
  have hsoon : Lease.Timely (90 * second) recordA.lastRenewed
      (events recordA.clientid s.now renewsTwice) := by
    rw [hevents]
    simp [Lease.Timely, recordA, second]
  have htimely : Lease.Timely (2 * (90 * second)) recordA.lastRenewed
      (events recordA.clientid s.now renewsTwice) := by
    rw [hevents]
    simp [Lease.Timely, recordA, second]
  obtain ⟨m, hkept, hunmarked, hanswers⟩ := kept_alive hbefore hmem rfl hafter (by decide)
    (by simp [renewsTwice, setsClient, Replaces]) htimely
  rw [hunmarked rfl hsoon, hevents] at hkept
  rw [hevents] at hanswers
  exact ⟨s, s', hbefore, hafter, hkept, hanswers _ (by decide +kernel)⟩

/-- Without a RENEW only sweeps happen to a lease. -/
lemma sweeps_of_gone {c : UInt64} (hgone : ∀ a ∈ after, a.2 ≠ .renew c) {now : ℕ} :
    ∀ ev ∈ events c now after, ev.2 = .sweep := by
  induction after generalizing now with
  | nil => simp [events]
  | cons a after ih =>
    intro ev hev
    rcases List.mem_append.1 hev with hfirst | hrest
    · obtain ⟨wait, op⟩ := a
      have hne := hgone _ List.mem_cons_self
      cases op with
      | setClientId => simp [Op.event] at hfirst
      | setClientIdConfirm => simp [Op.event] at hfirst
      | renew clientId =>
        have hclient : clientId ≠ c := fun h => hne (congrArg Op.renew h)
        simp [Op.event, hclient] at hfirst
      | sweepLeases =>
        have heq : ev = (now + wait, .sweep) := by simpa [Op.event] using hfirst
        rw [heq]
    · exact ih (fun b hb => hgone b (List.mem_cons_of_mem _ hb)) ev hrest

/-- **Clients that do not come back.** When a confirmed client sends no RENEW any more, its records
are removed, and its client id is not used again, from exactly the first sweep on that comes twice
the lease time after its last RENEW and after a sweep that came the lease time after it (unless its
record was marked before). -/
theorem removed_iff (hbefore : before.foldlM step (start leaseTime) = some s)
    (he : e ∈ s.cm.db) (hconfirmed : e.confirmed = true)
    (hafter : after.foldlM step s = some s') (hlength : before.length + after.length + 1 < 2 ^ 64)
    (hkeeps : ∀ a ∈ after, ¬ Replaces e a.2) (hgone : ∀ a ∈ after, a.2 ≠ .renew e.clientid) :
    (∀ e' ∈ s'.cm.db, e'.clientid ≠ e.clientid) ↔
      ∃ sweeps t₂ rest, events e.clientid s.now after = sweeps ++ (t₂, .sweep) :: rest ∧
        2 * (leaseTime * second) ≤ t₂ - e.lastRenewed ∧
        (e.courtesy = true ∨
          ∃ t₁, (t₁, .sweep) ∈ sweeps ∧ leaseTime * second ≤ t₁ - e.lastRenewed) := by
  have hfollows := follows_of_runs hbefore he hconfirmed hafter hlength hkeeps
  have htracks := hfollows.tracks
  refine Iff.trans ?_ (@Lease.after_eq_none_iff (terms leaseTime) _ _ (sweeps_of_gone hgone)
    e.courtesy)
  show _ ↔ (lease e).after (terms leaseTime) (events e.clientid s.now after) = none
  cases hlease : (lease e).after (terms leaseTime) (events e.clientid s.now after) with
  | none =>
    rw [hlease] at htracks
    exact iff_of_true htracks rfl
  | some h =>
    rw [hlease] at htracks
    exact iff_of_false (fun hnone => hnone _ htracks rfl) (by simp)

/-- The client is removed by the second sweep. -/
theorem removed_iff_second_sweep :
    ∃ s s', setsUpA.foldlM step (start 90) = some s ∧ sweepsTwice.foldlM step s = some s' ∧
      ∀ e ∈ s'.cm.db, e.clientid ≠ 1 := by
  obtain ⟨s, s', hbefore, hafter, hmem, hnow⟩ := sweepsTwice_run
  have hevents : events recordA.clientid s.now sweepsTwice =
      [(100 * second, .sweep)] ++ (200 * second, .sweep) :: [] := by
    rw [hnow]
    decide +kernel
  refine ⟨s, s', hbefore, hafter, (removed_iff hbefore hmem rfl hafter (by decide)
    (by simp [sweepsTwice, setsClient, Replaces]) (by simp [sweepsTwice, setsClient])).2 ?_⟩
  refine ⟨_, _, _, hevents, by decide +kernel, .inr ⟨_, List.mem_singleton_self _, ?_⟩⟩
  decide +kernel

end Follows

/-! ### Setting up a client -/

/-- A message that comes between SETCLIENTID and SETCLIENTID_CONFIRM of a record and undoes them: a
SETCLIENTID with the same id, from the same principal or, where the client has no confirmed record,
from anyone; or a SETCLIENTID_CONFIRM of the client id from the same principal. -/
def Interferes (entry : ClientEntry) (held : Prop) : Op → Prop
  | .setClientId _ _ id _ principal _ =>
    id = entry.id ∧ (principal = entry.principal ∨ ¬ held)
  | .setClientIdConfirm _ clientId _ principal =>
    clientId = entry.clientid ∧ principal = entry.principal
  | _ => False

/-- The record of a client that is confirmed already, beside the one that waits. -/
structure Precedes (entry o : ClientEntry) : Prop where
  id : o.id = entry.id
  clientid : o.clientid = entry.clientid
  confirmed : o.confirmed = true
  principal : o.principal = entry.principal

/-- A record waits to be confirmed. The only other record of the client is the confirmed one, if
there is one. -/
structure Awaits (entry : ClientEntry) (old : Option ClientEntry) (db : ClientDb) : Prop where
  new : ∃ h, withLease entry h ∈ db
  only : ∀ e ∈ db, e.id = entry.id →
    (∃ h, e = withLease entry h) ∨ ∃ o ∈ old, ∃ h, e = withLease o h

/-- What SETCLIENTID answers. -/
lemma upsertClient_ok {order : Order} {now : ℕ} {verifier : List.Vector UInt8 8} {id : String}
    {callback : ClientCallback} {principal : Option String} {token : ConfirmToken}
    (h : cm.upsertClient order.1 now verifier id callback principal token = some (cm', .ok e)) :
    (e.principal = principal ∧ e.setclientidConfirm = token ∧ e ∈ cm'.db) ∧
      ∀ o ∈ cm.db, o.id = id → o.confirmed = true → o.principal = principal := by
  unfold upsertClient at h
  dsimp only at h
  split_ifs at h with hinuse
  · cases h
  · obtain ⟨⟨cm₁, entry⟩, hadd, heq⟩ := Option.bind_eq_some_iff.1 h
    cases heq
    obtain ⟨db, hdb, heq⟩ := Option.bind_eq_some_iff.1 hadd
    cases heq
    refine ⟨⟨rfl, rfl, (Table.mem_insert hdb).2 (.inr rfl)⟩, fun o ho hid hconfirmed => ?_⟩
    by_contra hne
    refine hinuse (List.any_eq_true.2 ⟨o, (order.2 _).mem_iff.2 ?_, ?_⟩)
    · exact Table.mem_select.2 ⟨ho, beq_iff_eq.2 hid⟩
    · simpa [hconfirmed] using hne

/-- SETCLIENTID is refused where another principal has a confirmed record. -/
lemma upsertClient_refused {order : Order} {now : ℕ} {verifier : List.Vector UInt8 8} {id : String}
    {callback : ClientCallback} {principal : Option String} {token : ConfirmToken}
    {r : Except NfsStat4 ClientEntry}
    (h : cm.upsertClient order.1 now verifier id callback principal token = some (cm', r))
    (he : e ∈ cm.db) (hid : e.id = id) (hconfirmed : e.confirmed = true)
    (hne : e.principal ≠ principal) : cm' = cm := by
  obtain ⟨rfl, -⟩ | ⟨entry, rfl, -⟩ := upsertClient_kept h
  · rfl
  · exact absurd ((upsertClient_ok h).2 e he hid hconfirmed) hne

/-- SETCLIENTID_CONFIRM is refused where the client has a record of another principal. -/
lemma confirmClient_refused (order : Order) {clientId : UInt64} (token : ConfirmToken)
    {principal : Option String} (he : e ∈ cm.db) (hclient : e.clientid = clientId)
    (hne : e.principal ≠ principal) :
    (cm.confirmClient order.1 clientId token principal).1 = cm := by
  obtain ⟨-, heq⟩ | ⟨-, heq⟩ | ⟨-, hprincipal, -⟩ :=
    confirmClient_cases cm order clientId token principal
  · rw [heq]
  · rw [heq]
  · exact absurd (hprincipal e he hclient) hne

/-- SETCLIENTID_CONFIRM leaves the records of other clients. -/
lemma mem_confirmClient_of_ne (order : Order) {clientId : UInt64} (token : ConfirmToken)
    (principal : Option String) (hne : e.clientid ≠ clientId) :
    e ∈ (cm.confirmClient order.1 clientId token principal).1.db ↔ e ∈ cm.db := by
  obtain ⟨-, heq⟩ | ⟨-, heq⟩ | ⟨-, -, older, holder, hrest⟩ :=
    confirmClient_cases cm order clientId token principal
  · rw [heq]
  · rw [heq]
  have hwithout : e ∈ without cm.db older ↔ e ∈ cm.db := by
    rw [mem_without, and_iff_left_iff_imp]
    intro he o ho htoken
    obtain ⟨hodb, hoclient, -⟩ := holder.some o ho
    obtain rfl := eq_of_token he hodb htoken
    exact hne hoclient
  obtain ⟨-, heq⟩ | ⟨entry, hentry, hclient, htoken, heq⟩ := hrest
  · rw [heq]
    exact hwithout
  rw [heq, mem_confirmedAt, ← hwithout]
  -- the record that is confirmed is of the client
  have hother : ∀ e₀ ∈ without cm.db older, e₀.clientid ≠ clientId →
      (e₀.setclientidConfirm == token) = false := by
    intro e₀ he₀ hne₀
    refine beq_eq_false_iff_ne.2 fun htoken₀ => hne₀ ?_
    rw [eq_of_token (mem_without.1 he₀).1 hentry (htoken₀.trans htoken.symm), hclient]
  constructor
  · rintro ⟨e₀, he₀, rfl⟩
    have hclient₀ : e₀.clientid ≠ clientId := by
      split_ifs at hne <;> exact hne
    rw [hother e₀ he₀ hclient₀]
    exact he₀
  · intro he
    exact ⟨e, he, by rw [hother e he hne]; rfl⟩

/-- RENEW keeps the records, some under other leases. -/
lemma renewLeases_withLease (cm : ClientManager) (now : ℕ) (clientId : UInt64) :
    (∀ e ∈ cm.db, ∃ h, withLease e h ∈ (cm.renewLeases now clientId).1.db) ∧
      ∀ e' ∈ (cm.renewLeases now clientId).1.db, ∃ e ∈ cm.db, ∃ h, e' = withLease e h := by
  unfold renewLeases
  dsimp only
  split_ifs
  · exact ⟨fun e he => ⟨lease e, he⟩, fun e he => ⟨e, he, lease e, rfl⟩⟩
  · exact ⟨fun e he => ⟨lease e, he⟩, fun e he => ⟨e, he, lease e, rfl⟩⟩
  · refine ⟨fun e he => ?_, fun e' he' => ?_⟩
    · by_cases hclient : e.clientid == clientId
      · exact ⟨⟨now, false⟩, mem_renewed.2 ⟨e, he, if_pos hclient⟩⟩
      · exact ⟨lease e, mem_renewed.2 ⟨e, he, if_neg hclient⟩⟩
    · obtain ⟨e, he, rfl⟩ := mem_renewed.1 he'
      split_ifs
      · exact ⟨e, he, _, rfl⟩
      · exact ⟨e, he, lease e, rfl⟩

/-- A sweep keeps the records, some under other leases, but for those of a client whose confirmed
record has expired. -/
lemma sweepLeases_withLease (cm : ClientManager) (now : ℕ) :
    (∀ e ∈ cm.db, (∃ h, withLease e h ∈ (cm.sweepLeases now).1.db) ∨
        (∃ o ∈ cm.db, o.clientid = e.clientid ∧ o.confirmed = true) ∧
          ∀ e' ∈ (cm.sweepLeases now).1.db, e'.clientid ≠ e.clientid) ∧
      ∀ e' ∈ (cm.sweepLeases now).1.db, ∃ e ∈ cm.db, ∃ h, e' = withLease e h := by
  unfold sweepLeases
  dsimp only
  refine ⟨fun e he => ?_, fun e' he' => ?_⟩
  · by_cases hexpired : ((cm.db.select (cm.expires now)).map ClientEntry.clientid).contains
        e.clientid = true
    · right
      obtain ⟨o, ho, hclient⟩ := List.mem_map.1 (List.contains_iff_mem.1 hexpired)
      obtain ⟨hodb, hexpires⟩ := Table.mem_select.1 ho
      refine ⟨⟨o, hodb, hclient, (expires_iff.1 hexpires).1⟩, fun e' he' hclient' => ?_⟩
      have hkept := (Table.mem_erase.1 he').2
      rw [hclient', hexpired] at hkept
      cases hkept
    · left
      rw [Bool.not_eq_true] at hexpired
      by_cases hlapsed : ((cm.db.select (cm.lapses now)).map ClientEntry.clientid).contains
          e.clientid = true
      · exact ⟨_, Table.mem_erase.2 ⟨mem_marked.2 ⟨e, he, if_pos hlapsed⟩, hexpired⟩⟩
      · exact ⟨lease e, Table.mem_erase.2 ⟨mem_marked.2 ⟨e, he, if_neg hlapsed⟩, hexpired⟩⟩
  · obtain ⟨e, he, rfl⟩ := mem_marked.1 (Table.mem_erase.1 he').1
    split_ifs
    · exact ⟨e, he, _, rfl⟩
    · exact ⟨e, he, lease e, rfl⟩

section Awaits

variable {entry : ClientEntry} {old : Option ClientEntry} {held : Prop}

/-- Records under other leases are still of the same client. -/
lemma Awaits.of_withLease {db' : ClientDb} (h : Awaits entry old db)
    (hnew : ∀ h, withLease entry h ∈ db → ∃ h', withLease entry h' ∈ db')
    (honly : ∀ e' ∈ db', ∃ e ∈ db, ∃ h, e' = withLease e h) : Awaits entry old db' := by
  obtain ⟨h₀, hmem⟩ := h.new
  refine ⟨hnew h₀ hmem, fun e' he' hid => ?_⟩
  obtain ⟨e, he, h', rfl⟩ := honly e' he'
  obtain ⟨h₁, rfl⟩ | ⟨o, ho, h₁, rfl⟩ := h.only e he hid
  · exact .inl ⟨h', rfl⟩
  · exact .inr ⟨o, ho, h', rfl⟩

/-- An operation that does not interfere leaves the record waiting. -/
lemma Awaits.of_becomes {now : ℕ} {op : Op} (h : Awaits entry old cm.db)
    (hop : Becomes cm now cm' op) (hcon : ClientTable.Consistent cm.db)
    (hold : ∀ o ∈ old, Precedes entry o) (hunconfirmed : entry.confirmed = false)
    (hheld : old = none → ¬ held) (hquiet : ¬ Interferes entry held op)
    (hkept : ∀ o ∈ old, (∃ h, withLease o h ∈ cm.db) ∧ ∃ h, withLease o h ∈ cm'.db) :
    Awaits entry old cm'.db := by
  obtain ⟨h₀, hmem⟩ := h.new
  cases op with
  | setClientId order verifier id callback principal token =>
    obtain ⟨r, hupsert⟩ := hop
    by_cases hid : id = entry.id
    · cases old with
      | none => exact absurd ⟨hid, .inr (hheld rfl)⟩ hquiet
      | some o =>
        have ho := hold o rfl
        obtain ⟨⟨h₁, ho₁⟩, -⟩ := hkept o rfl
        have hne : o.principal ≠ principal := fun heq =>
          hquiet ⟨hid, .inl (heq.symm.trans ho.principal)⟩
        rw [upsertClient_refused hupsert ho₁ (ho.id.trans hid.symm) ho.confirmed hne]
        exact h
    · refine ⟨⟨h₀, mem_of_upsertClient hupsert hmem fun hid' => absurd hid'.symm hid⟩,
        fun e he hsame => ?_⟩
      obtain ⟨rfl, -⟩ | ⟨entry', -, hid', hrest, -⟩ := upsertClient_cases hupsert
      · exact h.only e he hsame
      · rcases hrest e he with rfl | hdb
        · exact absurd (hid'.symm.trans hsame) hid
        · exact h.only e hdb hsame
  | setClientIdConfirm order clientId token principal =>
    subst hop
    by_cases hclient : entry.clientid = clientId
    · have hne : entry.principal ≠ principal := fun heq => hquiet ⟨hclient.symm, heq.symm⟩
      rw [confirmClient_refused order token hmem hclient hne]
      exact h
    · have hstays := (@mem_confirmClient_of_ne cm (withLease entry h₀) order clientId token
        principal hclient).2 hmem
      refine ⟨⟨h₀, hstays⟩, fun e he hsame => ?_⟩
      obtain ⟨e₀, he₀, hid₀, hclient₀⟩ :=
        (confirmClient_subsumed order.1 cm clientId token principal).1 e he
      have hshared : e₀.clientid = entry.clientid :=
        hcon.shared e₀ he₀ (withLease entry h₀) hmem (hid₀.trans hsame)
      refine h.only e ((mem_confirmClient_of_ne order token principal ?_).1 he) hsame
      rw [← hclient₀, hshared]
      exact hclient
  | renew clientId =>
    subst hop
    have hrenew := renewLeases_withLease cm now clientId
    exact h.of_withLease (fun h hmem => hrenew.1 (withLease entry h) hmem) hrenew.2
  | sweepLeases =>
    subst hop
    have hsweep := sweepLeases_withLease cm now
    refine h.of_withLease (fun h₁ hmem₁ => ?_) hsweep.2
    obtain hstays | ⟨⟨o, ho, hclient, hconfirmed⟩, hgone⟩ := hsweep.1 (withLease entry h₁) hmem₁
    · exact hstays
    -- only a confirmed record of the client expires, and that one stays
    have hsame := hcon.apart o ho (withLease entry h₁) hmem₁ hclient
    obtain ⟨h₂, rfl⟩ | ⟨o', ho', h₂, rfl⟩ := h.only o ho hsame
    · exact absurd (hunconfirmed.symm.trans hconfirmed) (by decide)
    · obtain ⟨-, h₃, hmem₃⟩ := hkept o' ho'
      exact absurd (hold o' ho').clientid (hgone (withLease o' h₃) hmem₃)

/-- An operation that comes in time leaves the confirmed record. -/
lemma held_of_step {n : ℕ} {h : Lease.Held} {a : ℕ × Op} {as : List (ℕ × Op)}
    (he : withLease e h ∈ s.cm.db) (hconfirmed : e.confirmed = true) (hn : Numbered n s.cm)
    (hroom : n + 1 < 2 ^ 64) (hkeeps : ¬ Replaces e a.2) (hstep : s.step a = some s')
    (htimely : Lease.Timely (terms s.cm.leaseTime).back h.stamp
      (events e.clientid s.now (a :: as))) :
    ∃ h', withLease e h' ∈ s'.cm.db ∧
      Lease.Timely (terms s.cm.leaseTime).back h'.stamp (events e.clientid s'.now as) := by
  obtain ⟨hnow, hop⟩ := becomes_of_step hstep
  have hbelow : e.clientid.toNat ≤ s.cm.clientIdSeq.toNat := hn.below (withLease e h) he
  have htracks : Tracks e s.cm.db (some h) := he
  have htracks' := htracks.of_becomes hop hn hroom hbelow hconfirmed hkeeps
  rw [hnow]
  rw [events] at htimely
  cases hevent : a.2.event e.clientid with
  | none =>
    rw [hevent] at htracks' htimely
    exact ⟨h, htracks', htimely⟩
  | some ev =>
    rw [hevent] at htracks' htimely
    obtain ⟨stamp', m', hheld, hrest, -⟩ :=
      Lease.step_of_timely (back_le_lost s.cm.leaseTime) htimely h.marked
    have hcarry : carry (terms s.cm.leaseTime) (s.now + a.1) (some h) (some ev) =
        some ⟨stamp', m'⟩ := hheld
    rw [hcarry] at htracks'
    exact ⟨_, htracks', hrest⟩

/-- A run. -/
lemma Awaits.of_run {n : ℕ} {as : List (ℕ × Op)} (h : Awaits entry old s.cm.db)
    (hn : Numbered n s.cm) (hroom : n + as.length + 1 < 2 ^ 64)
    (hold : ∀ o ∈ old, Precedes entry o) (hunconfirmed : entry.confirmed = false)
    (hheld : old = none → ¬ held) (hquiet : ∀ a ∈ as, ¬ Interferes entry held a.2)
    (htimely : ∀ o ∈ old, ∃ h, withLease o h ∈ s.cm.db ∧
      Lease.Timely (terms s.cm.leaseTime).back h.stamp (events o.clientid s.now as))
    (hrun : as.foldlM step s = some s') : Awaits entry old s'.cm.db := by
  induction as generalizing s n with
  | nil =>
    cases hrun
    exact h
  | cons a as ih =>
    obtain ⟨s₁, hstep, hrest⟩ := Option.bind_eq_some_iff.1 hrun
    rw [List.length_cons] at hroom
    obtain ⟨-, hop⟩ := becomes_of_step hstep
    have hquiet' := hquiet a List.mem_cons_self
    have hnext : ∀ o ∈ old, ∃ h, withLease o h ∈ s₁.cm.db ∧
        Lease.Timely (terms s₁.cm.leaseTime).back h.stamp (events o.clientid s₁.now as) := by
      intro o ho
      obtain ⟨h₁, hmem, hsoon⟩ := htimely o ho
      have hprecedes := hold o ho
      have hkeeps : ¬ Replaces o a.2 := by
        intro hreplaces
        apply hquiet'
        cases hkind : a.2 with
        | setClientIdConfirm order clientId token principal =>
          rw [hkind] at hreplaces
          exact ⟨hreplaces.1.trans hprecedes.clientid, hreplaces.2.1.trans hprecedes.principal⟩
        | _ =>
          rw [hkind] at hreplaces
          exact hreplaces.elim
      rw [hop.leaseTime]
      exact held_of_step hmem hprecedes.confirmed hn (by omega) hkeeps hstep hsoon
    have hkept : ∀ o ∈ old, (∃ h, withLease o h ∈ s.cm.db) ∧ ∃ h, withLease o h ∈ s₁.cm.db := by
      intro o ho
      obtain ⟨h₁, hmem, -⟩ := htimely o ho
      obtain ⟨h₂, hmem₂, -⟩ := hnext o ho
      exact ⟨⟨h₁, hmem⟩, h₂, hmem₂⟩
    exact ih (h.of_becomes hop hn.consistent hold hunconfirmed hheld hquiet' hkept)
      (hop.numbered hn (by omega)) (by omega) (fun b hb => hquiet b (List.mem_cons_of_mem _ hb))
      hnext hrest

/-- A record that waits is confirmed, and replaces the other one. -/
lemma Awaits.confirmed (h : Awaits entry old cm.db) (order : Order)
    (hcon : ClientTable.Consistent cm.db) (hold : ∀ o ∈ old, Precedes entry o) {id : String}
    (hid : entry.id = id) {principal : Option String} (hprincipal : entry.principal = principal)
    {token : ConfirmToken} (htoken : entry.setclientidConfirm = token) :
    ∃ h cm', cm.confirmClient order.1 entry.clientid token principal =
        (cm', .ok { withLease entry h with confirmed := true }) ∧
      ∀ e, (e ∈ cm'.db ∧ e.id = id) ↔ e = { withLease entry h with confirmed := true } := by
  obtain ⟨h₀, hmem⟩ := h.new
  have hclient : ∀ e ∈ cm.db, e.clientid = entry.clientid → e.principal = principal := by
    intro e he hclient
    obtain ⟨h₁, rfl⟩ | ⟨o, ho, h₁, rfl⟩ :=
      h.only e he (hcon.apart e he (withLease entry h₀) hmem hclient)
    · exact hprincipal
    · exact (hold o ho).principal.trans hprincipal
  obtain ⟨hvacant, -⟩ | ⟨⟨e, he, hsame, hne⟩, -⟩ | ⟨-, -, older, holder, ⟨hno, -⟩ |
    ⟨e, he, hsame, hetoken, heq⟩⟩ :=
      confirmClient_cases cm order entry.clientid token principal
  · exact absurd rfl (hvacant (withLease entry h₀) hmem)
  · exact absurd (hclient e he hsame) hne
  · exact absurd htoken (hno (withLease entry h₀) hmem rfl)
  obtain rfl : e = withLease entry h₀ := eq_of_token he hmem (hetoken.trans htoken.symm)
  refine ⟨h₀, _, heq, fun e => ⟨?_, ?_⟩⟩
  · rintro ⟨he', heid⟩
    obtain ⟨e₀, he₀, rfl⟩ := mem_confirmedAt.1 he'
    have hdb := (mem_without.1 he₀).1
    have heid₀ : e₀.id = entry.id := by
      rw [hid, ← heid]
      split_ifs <;> rfl
    have htoken₀ : e₀.setclientidConfirm = token := by
      obtain ⟨h₁, rfl⟩ | ⟨o, ho, h₁, rfl⟩ := h.only e₀ hdb heid₀
      · exact htoken
      · exact hcon.token_of_confirmed holder he₀ (hold o ho).clientid (hold o ho).confirmed
    rw [if_pos (beq_iff_eq.2 htoken₀), eq_of_token hdb hmem (htoken₀.trans htoken.symm)]
  · rintro rfl
    refine ⟨mem_confirmedAt.2 ⟨_, mem_without.2 ⟨hmem, fun o ho => ?_⟩,
      if_pos (beq_iff_eq.2 htoken)⟩, hid⟩
    exact fun hotoken => (holder.some o ho).2.2.2 (hotoken.symm.trans htoken)

end Awaits

/-- **Setting up a client.** After a SETCLIENTID that succeeded, SETCLIENTID_CONFIRM with the client
id and the token of its answer succeeds, whatever comes in between, but for the messages that
interfere, if the record that the client had before stays alive meanwhile. From then on the
confirmed record is the only one of the client.

Proof sketch. The new record and the confirmed one, if there is one, are all that the client has
(`Awaits`). Only a sweep could remove the new one, with the confirmed one when that has expired. -/
theorem handshake_completes {leaseTime wait : ℕ} {before between : List (ℕ × Op)}
    {s s₁ s₂ : Leased} {order order' : Order} {verifier : List.Vector UInt8 8} {id : String}
    {callback : ClientCallback} {principal : Option String} {token : ConfirmToken}
    {entry : ClientEntry} (hbefore : before.foldlM step (start leaseTime) = some s)
    (hset : s.step (wait, .setClientId order verifier id callback principal token) = some s₁)
    (hanswer : s.cm.upsertClient order.1 (s.now + wait) verifier id callback principal token =
      some (s₁.cm, .ok entry))
    (hbetween : between.foldlM step s₁ = some s₂)
    (hlength : before.length + between.length + 2 < 2 ^ 64)
    (hquiet : ∀ a ∈ between,
      ¬ Interferes entry (∃ o ∈ s.cm.db, o.id = id ∧ o.confirmed = true) a.2)
    (htimely : ∀ o ∈ s.cm.db, o.id = id → o.confirmed = true →
      Lease.Timely (2 * (leaseTime * second)) o.lastRenewed (events o.clientid s₁.now between)) :
    ∃ h cm, s₂.cm.confirmClient order'.1 entry.clientid token principal =
        (cm, .ok { withLease entry h with confirmed := true }) ∧
      ∀ e, (e ∈ cm.db ∧ e.id = id) ↔ e = { withLease entry h with confirmed := true } := by
  obtain ⟨hterm, hn⟩ := numbered_of_start hbefore (by omega)
  obtain ⟨-, hop⟩ := becomes_of_step hset
  have hn₁ := hop.numbered hn (by omega)
  have hterm₁ : s₁.cm.leaseTime = leaseTime := hop.leaseTime.trans hterm
  obtain ⟨⟨hprincipal, htoken, hentry⟩, hsame⟩ := upsertClient_ok hanswer
  obtain ⟨-, -, status, hstatus⟩ | ⟨entry', heq, hid, -, -⟩ := upsertClient_cases hanswer
  · cases hstatus
  cases heq
  obtain ⟨-, status, hstatus⟩ | ⟨entry', heq, hunconfirmed, -, -, hkept⟩ :=
    upsertClient_kept hanswer
  · cases hstatus
  cases heq
  -- the confirmed record that the client had before
  obtain ⟨old, hold, hnone⟩ : ∃ old : Option ClientEntry,
      (∀ o ∈ old, o ∈ s.cm.db ∧ o.id = id ∧ o.confirmed = true) ∧
        (old = none → ¬ ∃ o ∈ s.cm.db, o.id = id ∧ o.confirmed = true) := by
    by_cases hheld : ∃ o ∈ s.cm.db, o.id = id ∧ o.confirmed = true
    · obtain ⟨o, ho⟩ := hheld
      refine ⟨some o, fun o' ho' => ?_, fun h => by cases h⟩
      cases ho'
      exact ho
    · exact ⟨none, fun o ho => (Option.not_mem_none o ho).elim, fun _ => hheld⟩
  have hstays : ∀ o ∈ old, o ∈ s₁.cm.db := fun o ho =>
    mem_of_upsertClient hanswer (hold o ho).1 fun _ => (hold o ho).2.2
  have hprecedes : ∀ o ∈ old, Precedes entry o := by
    intro o ho
    obtain ⟨hdb, hoid, hconfirmed⟩ := hold o ho
    have hoid' : o.id = entry.id := hoid.trans hid.symm
    exact ⟨hoid', hn₁.consistent.shared o (hstays o ho) entry hentry hoid', hconfirmed,
      (hsame o hdb hoid hconfirmed).trans hprincipal.symm⟩
  have hawaits : Awaits entry old s₁.cm.db := by
    refine ⟨⟨lease entry, hentry⟩, fun e he hsameid => ?_⟩
    rcases hkept e he with rfl | ⟨hdb, hconfirmed⟩
    · exact .inl ⟨lease e, rfl⟩
    · right
      have heid : e.id = id := hsameid.trans hid
      cases old with
      | none => exact absurd ⟨e, hdb, heid, hconfirmed heid⟩ (hnone rfl)
      | some o =>
        obtain ⟨hodb, hoid, hoconfirmed⟩ := hold o rfl
        refine ⟨o, rfl, lease o, ?_⟩
        exact hn.consistent.unique e hdb o hodb (heid.trans hoid.symm)
          ((hconfirmed heid).trans hoconfirmed.symm)
  have hrun : Awaits entry old s₂.cm.db := by
    refine hawaits.of_run hn₁ (by omega) hprecedes hunconfirmed hnone hquiet (fun o ho => ?_)
      hbetween
    obtain ⟨hdb, hoid, hconfirmed⟩ := hold o ho
    rw [hterm₁]
    exact ⟨lease o, hstays o ho, htimely o hdb hoid hconfirmed⟩
  obtain ⟨-, hn₂⟩ := numbered_of_run hn₁ (by omega) hbetween
  exact hrun.confirmed order' hn₂.consistent hprecedes hid hprincipal htoken

/-- A client that has a confirmed record sets up its id again, and renews its lease meanwhile. -/
def renewsBetween : List (ℕ × Op) :=
  [(0, setsClient "b" 3), (60 * second, .renew 1), (60 * second, .sweepLeases)]

/-- It has one record then, the new one. -/
theorem handshake_completes_again :
    ∃ s s₁ s₂, setsUpA.foldlM step (start 90) = some s ∧ s.step (0, setsClient "a" 2) = some s₁ ∧
      renewsBetween.foldlM step s₁ = some s₂ ∧ ∃ cm entry,
        s₂.cm.confirmClient (fun l => l) 1 (List.Vector.replicate 8 2) none = (cm, .ok entry) ∧
          ∀ e, (e ∈ cm.db ∧ e.id = "a") ↔ e = entry := by
  obtain ⟨s, s₁, s₂, entry, hbefore, hset, hbetween, hanswer, hclient, hid, hentries, hnow⟩ :
      ∃ s s₁ s₂ entry, setsUpA.foldlM step (start 90) = some s ∧
        s.step (0, setsClient "a" 2) = some s₁ ∧ renewsBetween.foldlM step s₁ = some s₂ ∧
        s.cm.upsertClient (fun l => l) (s.now + 0) (List.Vector.replicate 8 0) "a" ⟨0, "", "", 0⟩
          none (List.Vector.replicate 8 2) = some (s₁.cm, .ok entry) ∧
        entry.clientid = 1 ∧ entry.id = "a" ∧ s.cm.db.entries = [recordA] ∧ s₁.now = 0 :=
    ⟨_, _, _, _, rfl, rfl, rfl, rfl, rfl, rfl, rfl, rfl⟩
  have hevents : events 1 s₁.now renewsBetween =
      [(60 * second, .renew), (120 * second, .sweep)] := by
    rw [hnow]
    decide +kernel
  obtain ⟨h, cm, hconfirm, honly⟩ := @handshake_completes 90 0 _ _ _ _ _ _
    ⟨fun l => l, fun l => List.Perm.refl l⟩ _ _ _ _ _ _ hbefore hset hanswer hbetween
    (by decide) (by simp [renewsBetween, setsClient, Interferes, hid]) (fun o ho _ _ => by
      rw [Table.mem_def, hentries, List.mem_singleton] at ho
      subst ho
      show Lease.Timely _ 0 (events 1 s₁.now renewsBetween)
      rw [hevents]
      simp [Lease.Timely, second])
  rw [hclient] at hconfirm
  exact ⟨s, s₁, s₂, hbefore, hset, hbetween, cm, _, hconfirm, honly⟩

end Leases

end NextNfs
