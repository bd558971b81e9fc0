import NextNfs.Server.ClientManager
import NextNfs.Server.SessionManager

set_option relaxedAutoImplicit false
set_option autoImplicit false

/-!
# Client ids

NFSv4.0 clients get their ids from the client manager (SETCLIENTID), NFSv4.1 clients from the
session manager (EXCHANGE_ID). Locks and opens of both are kept under these ids in one table. This
module is about which ids are given to whom.

## Main definitions

* `NextNfs.ClientIds.Identities`, `NextNfs.ClientIds.Identities.step` — the two managers, with the
  ids that were returned.
* `NextNfs.ClientIds.Identities.Disjoint` — no two clients were given the same id.

## Main results

* `NextNfs.ClientManager.upsertClient_cases` — the id that SETCLIENTID returns.
* `NextNfs.ClientIds.Sound.of_step` — each manager by itself gives different ids to different
  clients.
* `NextNfs.ClientIds.Initial.recovered` — so do the records that a server recovers.
* `NextNfs.ClientIds.disjoint_iff_apart` — when the ids of both together are disjoint.
-/

namespace NextNfs

open Wire

namespace ClientManager

/-! ### What the messages do to the ids -/

/-- The records of a table are of clients that had a record with the same id before. -/
def Subsumed (db db' : ClientDb) : Prop :=
  ∀ e ∈ db', ∃ e₀ ∈ db, e₀.id = e.id ∧ e₀.clientid = e.clientid

/-- A permutation of the records that the table lists. -/
abbrev Order := { f : List ClientEntry → List ClientEntry // ∀ l, (f l).Perm l }

variable {cm cm' : ClientManager} {db db' db'' : ClientDb}

lemma subsumed_refl (db : ClientDb) : Subsumed db db := fun e he => ⟨e, he, rfl, rfl⟩

lemma subsumed_erase (db : ClientDb) (p : ClientEntry → Bool) : Subsumed db (db.erase p) :=
  fun e he => ⟨e, (Table.mem_erase.1 he).1, rfl, rfl⟩

lemma Subsumed.trans (h : Subsumed db db') (h' : Subsumed db' db'') : Subsumed db db'' := by
  intro e he
  obtain ⟨e₁, he₁, hid₁, hclient₁⟩ := h' e he
  obtain ⟨e₀, he₀, hid₀, hclient₀⟩ := h e₁ he₁
  exact ⟨e₀, he₀, hid₀.trans hid₁, hclient₀.trans hclient₁⟩

lemma subsumed_modify (db : ClientDb) (p : ClientEntry → Bool) {f : ClientEntry → ClientEntry}
    (hf : ∀ e, (f e).setclientidConfirm = e.setclientidConfirm)
    (hid : ∀ e, (f e).id = e.id ∧ (f e).clientid = e.clientid) :
    Subsumed db (modify db p f hf) := by
  intro e he
  obtain ⟨e₀, he₀, rfl⟩ := mem_modify.1 he
  refine ⟨e₀, he₀, ?_⟩
  split_ifs
  · exact ⟨(hid e₀).1.symm, (hid e₀).2.symm⟩
  · exact ⟨rfl, rfl⟩

lemma confirmClient_subsumed (order : List ClientEntry → List ClientEntry) (cm : ClientManager)
    (clientId : UInt64) (token : ConfirmToken) (principal : Option String) :
    Subsumed cm.db (cm.confirmClient order clientId token principal).1.db ∧
      (cm.confirmClient order clientId token principal).1.clientIdSeq = cm.clientIdSeq := by
  have holder : ∀ older : Option ClientEntry, Subsumed cm.db (older.elim cm.db fun o =>
      cm.db.erase fun e => e.setclientidConfirm == o.setclientidConfirm) := by
    intro older
    cases older with
    | none => exact subsumed_refl _
    | some o => exact subsumed_erase _ _
  unfold confirmClient
  dsimp only
  split_ifs
  · exact ⟨subsumed_refl _, rfl⟩
  · exact ⟨subsumed_refl _, rfl⟩
  · split
    · refine ⟨(holder _).trans (subsumed_modify _ _ ?_ ?_), rfl⟩
      · exact fun _ => rfl
      · exact fun _ => ⟨rfl, rfl⟩
    · exact ⟨holder _, rfl⟩

lemma renewLeases_subsumed (cm : ClientManager) (now : ℕ) (clientId : UInt64) :
    Subsumed cm.db (cm.renewLeases now clientId).1.db ∧
      (cm.renewLeases now clientId).1.clientIdSeq = cm.clientIdSeq := by
  unfold renewLeases
  dsimp only
  split_ifs
  · exact ⟨subsumed_refl _, rfl⟩
  · exact ⟨subsumed_refl _, rfl⟩
  · refine ⟨subsumed_modify _ _ ?_ ?_, rfl⟩
    · exact fun _ => rfl
    · exact fun _ => ⟨rfl, rfl⟩

lemma sweepLeases_subsumed (cm : ClientManager) (now : ℕ) :
    Subsumed cm.db (cm.sweepLeases now).1.db ∧
      (cm.sweepLeases now).1.clientIdSeq = cm.clientIdSeq := by
  refine ⟨?_, rfl⟩
  unfold sweepLeases
  dsimp only
  refine Subsumed.trans (subsumed_modify cm.db _ ?_ ?_) (subsumed_erase _ _)
  · exact fun _ => rfl
  · exact fun _ => ⟨rfl, rfl⟩

/-- What SETCLIENTID does: it is refused; or the client has a record, and gets the id of the record;
or it has none, and gets the next id. -/
lemma upsertClient_cases {order : Order} {now : ℕ} {verifier : List.Vector UInt8 8} {id : String}
    {callback : ClientCallback} {principal : Option String} {token : ConfirmToken}
    {r : Except NfsStat4 ClientEntry}
    (h : cm.upsertClient order.1 now verifier id callback principal token = some (cm', r)) :
    (cm' = cm ∧ (∃ e, e ∈ cm.db) ∧ ∃ status, r = .error status) ∨
    ∃ entry, r = .ok entry ∧ entry.id = id ∧
      (∀ e ∈ cm'.db, e = entry ∨ e ∈ cm.db) ∧
      ((∃ e₀ ∈ cm.db, e₀.id = id ∧ e₀.clientid = entry.clientid ∧
          cm'.clientIdSeq = cm.clientIdSeq) ∨
        (∀ e₀ ∈ cm.db, e₀.id ≠ id) ∧ entry.clientid = cm.clientIdSeq + 1 ∧
          cm'.clientIdSeq = cm.clientIdSeq + 1) := by
  unfold upsertClient at h
  dsimp only at h
  have hmem : ∀ e, e ∈ order.1 (cm.db.select fun e => e.id == id) ↔ e ∈ cm.db ∧ e.id = id := by
    intro e
    rw [(order.2 _).mem_iff]
    simp
  split_ifs at h with hinuse
  · cases h
    obtain ⟨e, he, -⟩ := List.any_eq_true.1 hinuse
    exact Or.inl ⟨rfl, ⟨e, ((hmem e).1 he).1⟩, _, rfl⟩
  · obtain ⟨⟨cm₁, entry⟩, hadd, heq⟩ := Option.bind_eq_some_iff.1 h
    cases heq
    obtain ⟨db, hdb, heq⟩ := Option.bind_eq_some_iff.1 hadd
    cases heq
    refine Or.inr ⟨_, rfl, rfl, fun e he => ?_, ?_⟩
    · rcases (Table.mem_insert hdb).1 he with hold | rfl
      · exact Or.inr (Table.mem_erase.1 hold).1
      · exact Or.inl rfl
    · cases hlast : (order.1 (cm.db.select fun e => e.id == id)).getLast? with
      | none =>
        right
        have hnil := List.getLast?_eq_none_iff.1 hlast
        refine ⟨fun e₀ he₀ hid => ?_, rfl, rfl⟩
        have hin := (hmem e₀).2 ⟨he₀, hid⟩
        rw [hnil] at hin
        cases hin
      | some e₀ =>
        left
        obtain ⟨he₀, hid⟩ := (hmem e₀).1 (List.mem_of_getLast? hlast)
        exact ⟨e₀, he₀, hid, rfl, rfl⟩

end ClientManager

namespace ClientIds

open Dispatcher ClientManager

/-! ### The two managers -/

/-- A client, by the name it gives itself. -/
inductive Client
  | v40 (id : String)
  | v41 (ownerid : Bytes)
deriving DecidableEq

/-- The two managers, with the client ids that were returned and to whom. -/
structure Identities where
  cm : ClientManager
  sm : SessionManager
  returned : List (Client × UInt64)

/-- What is asked of them. SETCLIENTID and SETCLIENTID_CONFIRM come without a principal. -/
inductive Request
  | setClientId (order : Order) (now : ℕ) (verifier : List.Vector UInt8 8) (id : String)
      (callback : ClientCallback) (token : ConfirmToken)
  | setClientIdConfirm (order : Order) (clientId : UInt64) (token : ConfirmToken)
  | renew (now : ℕ) (clientId : UInt64)
  | sweepLeases (now : ℕ)
  | revokeCourtesyClient (clientId : UInt64)
  | exchangeId (ownerid : Bytes)

/-- SETCLIENTID. -/
def Request.isSetClientId : Request → Bool
  | setClientId .. => true
  | _ => false

/-- EXCHANGE_ID. -/
def Request.isExchangeId : Request → Bool
  | exchangeId _ => true
  | _ => false

namespace Identities

/-- A server that starts with the records of some clients, which have their ids from before. -/
def start (cm : ClientManager) : Identities :=
  ⟨cm, .new, cm.db.entries.map fun e => (.v40 e.id, e.clientid)⟩

/-- A step. -/
def step (s : Identities) : Request → Option Identities
  | .setClientId order now verifier id callback token => do
    let (cm, r) ← s.cm.upsertClient order.1 now verifier id callback none token
    match r with
    | .ok entry => pure { s with cm := cm, returned := (.v40 id, entry.clientid) :: s.returned }
    | .error _ => pure { s with cm := cm }
  | .setClientIdConfirm order clientId token =>
    some { s with cm := (s.cm.confirmClient order.1 clientId token none).1 }
  | .renew now clientId => some { s with cm := (s.cm.renewLeases now clientId).1 }
  | .sweepLeases now => some { s with cm := (s.cm.sweepLeases now).1 }
  | .revokeCourtesyClient clientId => some { s with cm := s.cm.revokeCourtesyClient clientId }
  | .exchangeId ownerid =>
    some { s with
      sm := { s.sm with nextClientId := s.sm.nextClientId + 1 }
      returned := (.v41 ownerid, s.sm.nextClientId) :: s.returned }

/-- No two clients were given the same id. -/
def Disjoint (s : Identities) : Prop :=
  ∀ x ∈ s.returned, ∀ y ∈ s.returned, x.1 ≠ y.1 → x.2 ≠ y.2

/-- The managers make no record and give no id. -/
structure Quiet (s s' : Identities) : Prop where
  records : Subsumed s.cm.db s'.cm.db
  seq : s'.cm.clientIdSeq = s.cm.clientIdSeq
  sm : s'.sm = s.sm
  returned : s'.returned = s.returned

/-- SETCLIENTID returns an id: that of a record of the client, or the next. -/
structure Gives40 (s s' : Identities) (entry : ClientEntry) : Prop where
  records : ∀ e ∈ s'.cm.db, e = entry ∨ e ∈ s.cm.db
  sm : s'.sm = s.sm
  returned : s'.returned = (.v40 entry.id, entry.clientid) :: s.returned
  id : (∃ e₀ ∈ s.cm.db, e₀.id = entry.id ∧ e₀.clientid = entry.clientid ∧
      s'.cm.clientIdSeq = s.cm.clientIdSeq) ∨
    (∀ e₀ ∈ s.cm.db, e₀.id ≠ entry.id) ∧ entry.clientid = s.cm.clientIdSeq + 1 ∧
      s'.cm.clientIdSeq = s.cm.clientIdSeq + 1

/-- EXCHANGE_ID returns the next id. -/
structure Gives41 (s s' : Identities) (ownerid : Bytes) : Prop where
  cm : s'.cm = s.cm
  next : s'.sm.nextClientId = s.sm.nextClientId + 1
  returned : s'.returned = (.v41 ownerid, s.sm.nextClientId) :: s.returned

/-- What a step does. SETCLIENTID is only refused if there is a record. -/
lemma step_cases {s s' : Identities} {req : Request} (h : s.step req = some s') :
    (Quiet s s' ∧ req.isExchangeId = false ∧ (req.isSetClientId = true → ∃ e, e ∈ s.cm.db)) ∨
    (∃ entry, Gives40 s s' entry ∧ req.isExchangeId = false ∧ req.isSetClientId = true) ∨
    ∃ ownerid, Gives41 s s' ownerid ∧ req.isExchangeId = true ∧ req.isSetClientId = false := by
  cases req with
  | setClientId order now verifier id callback token =>
    obtain ⟨⟨cm, r⟩, hupsert, heq⟩ := Option.bind_eq_some_iff.1 h
    obtain ⟨rfl, hrecord, status, rfl⟩ | ⟨entry, rfl, rfl, hdb, hid⟩ := upsertClient_cases hupsert
    · cases heq
      exact Or.inl ⟨⟨subsumed_refl _, rfl, rfl, rfl⟩, rfl, fun _ => hrecord⟩
    · cases heq
      exact Or.inr (Or.inl ⟨entry, ⟨hdb, rfl, rfl, hid⟩, rfl, rfl⟩)
  | setClientIdConfirm order clientId token =>
    cases h
    have hconfirm := confirmClient_subsumed order.1 s.cm clientId token none
    exact Or.inl ⟨⟨hconfirm.1, hconfirm.2, rfl, rfl⟩, rfl, fun hset => by cases hset⟩
  | renew now clientId =>
    cases h
    have hrenew := renewLeases_subsumed s.cm now clientId
    exact Or.inl ⟨⟨hrenew.1, hrenew.2, rfl, rfl⟩, rfl, fun hset => by cases hset⟩
  | sweepLeases now =>
    cases h
    have hsweep := sweepLeases_subsumed s.cm now
    exact Or.inl ⟨⟨hsweep.1, hsweep.2, rfl, rfl⟩, rfl, fun hset => by cases hset⟩
  | revokeCourtesyClient clientId =>
    cases h
    exact Or.inl ⟨⟨subsumed_erase _ _, rfl, rfl, rfl⟩, rfl, fun hset => by cases hset⟩
  | exchangeId ownerid =>
    cases h
    exact Or.inr (Or.inr ⟨ownerid, ⟨rfl, rfl, rfl⟩, rfl, rfl⟩)

end Identities

open Identities

/-! ### Each manager by itself -/

/-- The records of different clients have different ids, which the counter is past. -/
structure Recovered (cm : ClientManager) : Prop where
  positive : ∀ e ∈ cm.db, 0 < e.clientid.toNat
  below : ∀ e ∈ cm.db, e.clientid.toNat ≤ cm.clientIdSeq.toNat
  apart : ∀ e ∈ cm.db, ∀ e' ∈ cm.db, e.clientid = e'.clientid → e.id = e'.id

/-- The invariant: each manager by itself has given different ids to different clients, and its
counter is past them; `n` more ids can be given. -/
structure Sound (n : ℕ) (s : Identities) : Prop where
  recorded : ∀ e ∈ s.cm.db, (.v40 e.id, e.clientid) ∈ s.returned
  bounds40 : ∀ x a, (.v40 x, a) ∈ s.returned → 0 < a.toNat ∧ a.toNat ≤ s.cm.clientIdSeq.toNat
  apart40 : ∀ x y a, (.v40 x, a) ∈ s.returned → (.v40 y, a) ∈ s.returned → x = y
  bounds41 : ∀ x a, (.v41 x, a) ∈ s.returned → 0 < a.toNat ∧ a.toNat < s.sm.nextClientId.toNat
  apart41 : ∀ x y a, (.v41 x, a) ∈ s.returned → (.v41 y, a) ∈ s.returned → x = y
  positive41 : 0 < s.sm.nextClientId.toNat
  room40 : s.cm.clientIdSeq.toNat + n < 2 ^ 64
  room41 : s.sm.nextClientId.toNat + n < 2 ^ 64

section Sound

variable {n : ℕ} {s s' : Identities}

/-- The counter of a manager, when there is room. -/
lemma toNat_succ {c : UInt64} (h : c.toNat + (n + 1) < 2 ^ 64) : (c + 1).toNat = c.toNat + 1 := by
  rw [UInt64.toNat_add]
  have hone : (1 : UInt64).toNat = 1 := rfl
  rw [hone, Nat.mod_eq_of_lt (by omega)]

/-- The ids that were returned by a manager, after the other has returned one. -/
lemma mem_returned_cons {c c' : Client} {a a' : UInt64} {l : List (Client × UInt64)} :
    (c, a) ∈ (c', a') :: l ↔ (c = c' ∧ a = a') ∨ (c, a) ∈ l := by
  rw [List.mem_cons, Prod.mk.injEq]

lemma Sound.start {cm : ClientManager} (h : Recovered cm)
    (hroom : cm.clientIdSeq.toNat + (n + 1) < 2 ^ 64) : Sound n (start cm) := by
  have hmem : ∀ {c : Client} {a : UInt64}, (c, a) ∈ (Identities.start cm).returned →
      ∃ e ∈ cm.db, .v40 e.id = c ∧ e.clientid = a := by
    intro c a hmem
    obtain ⟨e, he, heq⟩ := List.mem_map.1 hmem
    cases heq
    exact ⟨e, he, rfl, rfl⟩
  have hone : (Identities.start cm).sm.nextClientId.toNat = 1 := rfl
  constructor
  · intro e he
    exact List.mem_map.2 ⟨e, he, rfl⟩
  · intro x a hx
    obtain ⟨e, he, -, rfl⟩ := hmem hx
    exact ⟨h.positive e he, h.below e he⟩
  · intro x y a hx hy
    obtain ⟨e, he, hname, rfl⟩ := hmem hx
    obtain ⟨e', he', hname', heq⟩ := hmem hy
    cases hname
    cases hname'
    exact h.apart e he e' he' heq.symm
  · intro x a hx
    obtain ⟨e, -, hname, -⟩ := hmem hx
    cases hname
  · intro x y a hx
    obtain ⟨e, -, hname, -⟩ := hmem hx
    cases hname
  · rw [hone]
    exact Nat.one_pos
  · show cm.clientIdSeq.toNat + n < 2 ^ 64
    omega
  · rw [hone]
    omega

/-- A step that gives no id. -/
lemma Sound.of_quiet (h : Sound (n + 1) s) (hstep : Quiet s s') : Sound n s' := by
  have hroom40 := h.room40
  have hroom41 := h.room41
  constructor
  · intro e he
    obtain ⟨e₀, he₀, hid, hclient⟩ := hstep.records e he
    rw [hstep.returned, ← hid, ← hclient]
    exact h.recorded e₀ he₀
  · rw [hstep.returned, hstep.seq]
    exact h.bounds40
  · rw [hstep.returned]
    exact h.apart40
  · rw [hstep.returned, hstep.sm]
    exact h.bounds41
  · rw [hstep.returned]
    exact h.apart41
  · rw [hstep.sm]
    exact h.positive41
  · rw [hstep.seq]
    omega
  · rw [hstep.sm]
    omega

/-- SETCLIENTID: the id is one that the client has, or was never given. -/
lemma Sound.of_gives40 {entry : ClientEntry} (h : Sound (n + 1) s) (hstep : Gives40 s s' entry) :
    Sound n s' := by
  have hroom40 := h.room40
  have hroom41 := h.room41
  have hsucc := toNat_succ hroom40
  have hseq : s.cm.clientIdSeq.toNat ≤ s'.cm.clientIdSeq.toNat ∧
      s'.cm.clientIdSeq.toNat + n < 2 ^ 64 ∧
      0 < entry.clientid.toNat ∧ entry.clientid.toNat ≤ s'.cm.clientIdSeq.toNat := by
    rcases hstep.id with ⟨e₀, he₀, -, hclient, hseq⟩ | ⟨-, hclient, hseq⟩
    · have := h.bounds40 _ _ (h.recorded e₀ he₀)
      rw [hseq, ← hclient]
      omega
    · rw [hseq, hclient]
      omega
  have howner : ∀ x, (.v40 x, entry.clientid) ∈ s.returned → x = entry.id := by
    intro x hx
    rcases hstep.id with ⟨e₀, he₀, hid, hclient, -⟩ | ⟨-, hclient, -⟩
    · rw [← hid]
      refine h.apart40 _ _ _ hx ?_
      rw [← hclient]
      exact h.recorded e₀ he₀
    · have := h.bounds40 x _ hx
      rw [hclient] at this
      omega
  constructor
  · intro e he
    rw [hstep.returned]
    rcases hstep.records e he with rfl | hold
    · exact List.mem_cons_self
    · exact List.mem_cons_of_mem _ (h.recorded e hold)
  · intro x a hx
    rw [hstep.returned, mem_returned_cons] at hx
    rcases hx with ⟨-, rfl⟩ | hx
    · exact hseq.2.2
    · exact ⟨(h.bounds40 x a hx).1, (h.bounds40 x a hx).2.trans hseq.1⟩
  · intro x y a hx hy
    rw [hstep.returned, mem_returned_cons] at hx hy
    rcases hx with ⟨hname, rfl⟩ | hx
    · cases hname
      rcases hy with ⟨hname', -⟩ | hy
      · cases hname'
        rfl
      · exact (howner y hy).symm
    · rcases hy with ⟨hname', rfl⟩ | hy
      · cases hname'
        exact howner x hx
      · exact h.apart40 x y a hx hy
  · intro x a hx
    rw [hstep.returned, mem_returned_cons] at hx
    rcases hx with ⟨hname, -⟩ | hx
    · cases hname
    · rw [hstep.sm]
      exact h.bounds41 x a hx
  · intro x y a hx hy
    rw [hstep.returned, mem_returned_cons] at hx hy
    rcases hx with ⟨hname, -⟩ | hx
    · cases hname
    · rcases hy with ⟨hname, -⟩ | hy
      · cases hname
      · exact h.apart41 x y a hx hy
  · rw [hstep.sm]
    exact h.positive41
  · exact hseq.2.1
  · rw [hstep.sm]
    omega

/-- EXCHANGE_ID: the id was never given. -/
lemma Sound.of_gives41 {ownerid : Bytes} (h : Sound (n + 1) s) (hstep : Gives41 s s' ownerid) :
    Sound n s' := by
  have hroom40 := h.room40
  have hroom41 := h.room41
  have hsucc := toNat_succ hroom41
  have hfresh : ∀ x, (.v41 x, s.sm.nextClientId) ∈ s.returned → False := by
    intro x hx
    exact absurd (h.bounds41 x _ hx).2 (lt_irrefl _)
  have hold : ∀ {x : String} {a : UInt64}, (.v40 x, a) ∈ s'.returned → (.v40 x, a) ∈ s.returned := by
    intro x a hx
    rw [hstep.returned, mem_returned_cons] at hx
    rcases hx with ⟨hname, -⟩ | hx
    · cases hname
    · exact hx
  constructor
  · intro e he
    rw [hstep.cm] at he
    rw [hstep.returned]
    exact List.mem_cons_of_mem _ (h.recorded e he)
  · intro x a hx
    rw [hstep.cm]
    exact h.bounds40 x a (hold hx)
  · intro x y a hx hy
    exact h.apart40 x y a (hold hx) (hold hy)
  · intro x a hx
    rw [hstep.next, hsucc]
    rw [hstep.returned, mem_returned_cons] at hx
    rcases hx with ⟨-, rfl⟩ | hx
    · exact ⟨h.positive41, Nat.lt_succ_self _⟩
    · exact ⟨(h.bounds41 x a hx).1, Nat.lt_succ_of_lt (h.bounds41 x a hx).2⟩
  · intro x y a hx hy
    rw [hstep.returned, mem_returned_cons] at hx hy
    rcases hx with ⟨hname, rfl⟩ | hx
    · cases hname
      rcases hy with ⟨hname', -⟩ | hy
      · cases hname'
        rfl
      · exact (hfresh y hy).elim
    · rcases hy with ⟨-, rfl⟩ | hy
      · exact (hfresh x hx).elim
      · exact h.apart41 x y a hx hy
  · rw [hstep.next, hsucc]
    exact Nat.succ_pos _
  · rw [hstep.cm]
    omega
  · rw [hstep.next, hsucc]
    omega

/-- Each manager by itself gives different ids to different clients. -/
lemma Sound.of_step (h : Sound (n + 1) s) {req : Request} (hstep : s.step req = some s') :
    Sound n s' := by
  obtain ⟨hquiet, -⟩ | ⟨entry, hgives, -⟩ | ⟨ownerid, hgives, -⟩ := step_cases hstep
  · exact h.of_quiet hquiet
  · exact h.of_gives40 hgives
  · exact h.of_gives41 hgives

/-- Along a run. -/
lemma Sound.of_run {reqs : List Request} (h : Sound (n + reqs.length) s)
    (hrun : reqs.foldlM Identities.step s = some s') : Sound n s' := by
  induction reqs generalizing s with
  | nil =>
    cases hrun
    exact h
  | cons req reqs ih =>
    obtain ⟨s₁, hstep, hrest⟩ := Option.bind_eq_some_iff.1 hrun
    exact ih (Sound.of_step h hstep) hrest

end Sound

/-! ### Recovery -/

/-- The snapshot of a record. -/
def snapshot (e : ClientEntry) : ClientSnapshot :=
  ⟨e.principal, e.verifier, e.id, e.clientid, e.callback, e.confirmed⟩

/-- The records with which a server can start: none, or those that an earlier server saved at some
time in its run. -/
inductive Initial : ClientManager → Prop
  | new : Initial .new
  | recover {cm cm' : ClientManager} {reqs : List Request} {s : Identities} {now : ℕ}
      {tokens : List ConfirmToken} (hinitial : Initial cm)
      (hroom : cm.clientIdSeq.toNat + (reqs.length + 2) < 2 ^ 64)
      (hrun : reqs.foldlM step (start cm) = some s)
      (hrestore : ClientManager.new.restoreClients now
        (((s.cm.db.select ClientEntry.confirmed).map snapshot).zip tokens) = some cm') :
      Initial cm'

section Initial

variable {now : ℕ} {ids : String → UInt64 → Prop} {cm cm' : ClientManager}

/-- The records are among those of the snapshot, and the counter is past them. -/
structure Restored (ids : String → UInt64 → Prop) (cm : ClientManager) : Prop where
  known : ∀ e ∈ cm.db, ids e.id e.clientid
  below : ∀ e ∈ cm.db, e.clientid.toNat ≤ cm.clientIdSeq.toNat

lemma Restored.of_restoreClient (h : Restored ids cm) {snap : ClientSnapshot × ConfirmToken}
    (hknown : ids snap.1.id snap.1.clientid) (hroom : snap.1.clientid.toNat + 1 < 2 ^ 64)
    (hstep : restoreClient now cm snap = some cm') : Restored ids cm' := by
  unfold restoreClient at hstep
  split at hstep
  · cases hstep
    exact h
  · obtain ⟨db, hdb, heq⟩ := Option.bind_eq_some_iff.1 hstep
    cases heq
    have hsucc : (snap.1.clientid + 1).toNat = snap.1.clientid.toNat + 1 := toNat_succ (n := 0) hroom
    have hseq : cm.clientIdSeq.toNat ≤
          (if snap.1.clientid ≥ cm.clientIdSeq then snap.1.clientid + 1
            else cm.clientIdSeq).toNat ∧
        snap.1.clientid.toNat ≤ (if snap.1.clientid ≥ cm.clientIdSeq then snap.1.clientid + 1
          else cm.clientIdSeq).toNat := by
      split_ifs with hge
      · have := UInt64.le_iff_toNat_le.1 hge
        rw [hsucc]
        omega
      · have := UInt64.lt_iff_toNat_lt.1 (UInt64.not_le.1 hge)
        omega
    constructor
    · intro e he
      rcases (Table.mem_insert hdb).1 he with hold | rfl
      · exact h.known e hold
      · exact hknown
    · intro e he
      rcases (Table.mem_insert hdb).1 he with hold | rfl
      · exact (h.below e hold).trans hseq.1
      · exact hseq.2

lemma Restored.of_restoreClients {clients : List (ClientSnapshot × ConfirmToken)}
    (h : Restored ids cm) (hknown : ∀ c ∈ clients, ids c.1.id c.1.clientid)
    (hroom : ∀ c ∈ clients, c.1.clientid.toNat + 1 < 2 ^ 64)
    (hrun : cm.restoreClients now clients = some cm') : Restored ids cm' := by
  unfold restoreClients at hrun
  induction clients generalizing cm with
  | nil =>
    cases hrun
    exact h
  | cons c clients ih =>
    obtain ⟨cm₁, hstep, hrest⟩ := Option.bind_eq_some_iff.1 hrun
    have h₁ := h.of_restoreClient (hknown c List.mem_cons_self) (hroom c List.mem_cons_self) hstep
    exact ih h₁ (fun c' hc' => hknown c' (List.mem_cons_of_mem _ hc'))
      (fun c' hc' => hroom c' (List.mem_cons_of_mem _ hc')) hrest

/-- A server starts with different ids for different clients. -/
lemma Initial.recovered (h : Initial cm) : Recovered cm := by
  induction h with
  | new =>
    refine ⟨fun e he => ?_, fun e he => ?_, fun e he => ?_⟩
    all_goals exact absurd he Table.not_mem_empty
  | @recover cm cm' reqs s now tokens _ hroom hrun hrestore ih =>
    have hsound : Sound 1 s := by
      refine Sound.of_run (Sound.start ih ?_) hrun
      omega
    have hknown : ∀ c ∈ ((s.cm.db.select ClientEntry.confirmed).map snapshot).zip tokens,
        (.v40 c.1.id, c.1.clientid) ∈ s.returned := by
      intro c hc
      obtain ⟨e, he, heq⟩ := List.mem_map.1 (List.of_mem_zip hc).1
      rw [← heq]
      exact hsound.recorded e (Table.mem_select.1 he).1
    have hrestored : Restored (fun x a => (.v40 x, a) ∈ s.returned) cm' := by
      refine Restored.of_restoreClients ⟨fun e he => ?_, fun e he => ?_⟩ hknown ?_ hrestore
      · exact absurd he Table.not_mem_empty
      · exact absurd he Table.not_mem_empty
      · intro c hc
        have hbound := (hsound.bounds40 _ _ (hknown c hc)).2
        have hroom := hsound.room40
        omega
    refine ⟨fun e he => ?_, hrestored.below, fun e he e' he' heq => ?_⟩
    · exact (hsound.bounds40 _ _ (hrestored.known e he)).1
    · have hx := hrestored.known e he
      rw [heq] at hx
      exact hsound.apart40 _ _ _ hx (hrestored.known e' he')

end Initial

/-! ### The two managers together -/

/-- The EXCHANGE_IDs in a run. -/
def exchanges (reqs : List Request) : ℕ := reqs.countP Request.isExchangeId

/-- The ids that the EXCHANGE_IDs return, the first ones, are below those that the clients of
SETCLIENTID have from before or can get. -/
def Apart (cm : ClientManager) (reqs : List Request) : Prop :=
  (∀ e ∈ cm.db, exchanges reqs < e.clientid.toNat) ∧
    (reqs.any Request.isSetClientId = true → exchanges reqs ≤ cm.clientIdSeq.toNat)

/-- What the ids tell of the run: `EXCHANGE_ID` has given the first ones, and `SETCLIENTID` only
those from before and later ones, of which it gave the first if there was none before. -/
structure History (cm : ClientManager) (past : List Request) (s : Identities) : Prop where
  next : s.sm.nextClientId.toNat = exchanges past + 1
  first41 : ∀ a : UInt64, 0 < a.toNat → a.toNat ≤ exchanges past → ∃ x, (.v41 x, a) ∈ s.returned
  kept : ∀ e ∈ cm.db, (.v40 e.id, e.clientid) ∈ s.returned
  seq : cm.clientIdSeq.toNat ≤ s.cm.clientIdSeq.toNat
  later40 : ∀ x a, (.v40 x, a) ∈ s.returned → (∃ e ∈ cm.db, e.clientid = a) ∨
    past.any Request.isSetClientId = true ∧ cm.clientIdSeq.toNat < a.toNat
  idle : (∀ e, ¬ e ∈ cm.db) → past.any Request.isSetClientId = false →
    (∀ e, ¬ e ∈ s.cm.db) ∧ s.cm.clientIdSeq = cm.clientIdSeq
  first40 : (∀ e, ¬ e ∈ cm.db) → past.any Request.isSetClientId = true →
    ∃ x, (.v40 x, cm.clientIdSeq + 1) ∈ s.returned

section History

variable {n : ℕ} {cm : ClientManager} {past : List Request} {req : Request} {s s' : Identities}

lemma History.start (cm : ClientManager) : History cm [] (start cm) := by
  constructor
  · rfl
  · intro a hpos hle
    exact absurd (hpos.trans_le hle) (lt_irrefl _)
  · intro e he
    exact List.mem_map.2 ⟨e, he, rfl⟩
  · exact le_rfl
  · intro x a hx
    obtain ⟨e, he, heq⟩ := List.mem_map.1 hx
    cases heq
    exact Or.inl ⟨e, he, rfl⟩
  · intro hempty _
    exact ⟨hempty, rfl⟩
  · intro _ hset
    cases hset

lemma History.of_quiet (h : History cm past s) (hstep : Quiet s s')
    (hexchange : req.isExchangeId = false)
    (hset : req.isSetClientId = true → ∃ e, e ∈ s.cm.db) : History cm (past ++ [req]) s' := by
  have hcount : exchanges (past ++ [req]) = exchanges past := by
    simp [exchanges, hexchange]
  constructor
  · rw [hstep.sm, hcount]
    exact h.next
  · rw [hstep.returned, hcount]
    exact h.first41
  · rw [hstep.returned]
    exact h.kept
  · rw [hstep.seq]
    exact h.seq
  · intro x a hx
    rw [hstep.returned] at hx
    rcases h.later40 x a hx with hold | ⟨hpast, hlt⟩
    · exact Or.inl hold
    · right
      rw [List.any_append, hpast]
      exact ⟨rfl, hlt⟩
  · intro hempty hnone
    rw [List.any_append, Bool.or_eq_false_iff] at hnone
    obtain ⟨hidle, hseq⟩ := h.idle hempty hnone.1
    refine ⟨fun e he => ?_, hstep.seq.trans hseq⟩
    obtain ⟨e₀, he₀, -⟩ := hstep.records e he
    exact hidle e₀ he₀
  · intro hempty hsome
    rw [hstep.returned]
    by_cases hpast : past.any Request.isSetClientId = true
    · exact h.first40 hempty hpast
    · -- The request is SETCLIENTID and was refused, so there is a record.
      have hpast' := Bool.eq_false_iff.2 hpast
      rw [List.any_append, hpast'] at hsome
      obtain ⟨e, he⟩ := hset (by simpa using hsome)
      exact absurd he ((h.idle hempty hpast').1 e)

lemma History.of_gives40 {entry : ClientEntry} (h : History cm past s) (hsound : Sound (n + 1) s)
    (hstep : Gives40 s s' entry) (hexchange : req.isExchangeId = false)
    (hset : req.isSetClientId = true) : History cm (past ++ [req]) s' := by
  have hcount : exchanges (past ++ [req]) = exchanges past := by
    simp [exchanges, hexchange]
  have hany : (past ++ [req]).any Request.isSetClientId = true := by
    simp [hset]
  have hsucc := toNat_succ hsound.room40
  have hseq := h.seq
  constructor
  · rw [hstep.sm, hcount]
    exact h.next
  · intro a hpos hle
    rw [hcount] at hle
    obtain ⟨x, hx⟩ := h.first41 a hpos hle
    rw [hstep.returned]
    exact ⟨x, List.mem_cons_of_mem _ hx⟩
  · intro e he
    rw [hstep.returned]
    exact List.mem_cons_of_mem _ (h.kept e he)
  · rcases hstep.id with ⟨-, -, -, -, heq⟩ | ⟨-, -, heq⟩
    · rw [heq]
      exact hseq
    · rw [heq]
      omega
  · intro x a hx
    rw [hany]
    rw [hstep.returned, mem_returned_cons] at hx
    rcases hx with ⟨-, rfl⟩ | hx
    · rcases hstep.id with ⟨e₀, he₀, -, hclient, -⟩ | ⟨-, hclient, -⟩
      · rw [← hclient]
        exact (h.later40 _ _ (hsound.recorded e₀ he₀)).imp id fun hlater => ⟨rfl, hlater.2⟩
      · right
        rw [hclient]
        exact ⟨rfl, by omega⟩
    · exact (h.later40 x a hx).imp id fun hlater => ⟨rfl, hlater.2⟩
  · intro _ hnone
    rw [hany] at hnone
    cases hnone
  · intro hempty _
    rw [hstep.returned]
    by_cases hpast : past.any Request.isSetClientId = true
    · obtain ⟨x, hx⟩ := h.first40 hempty hpast
      exact ⟨x, List.mem_cons_of_mem _ hx⟩
    · -- The first SETCLIENTID finds no record.
      obtain ⟨hidle, hsame⟩ := h.idle hempty (Bool.eq_false_iff.2 hpast)
      rcases hstep.id with ⟨e₀, he₀, -⟩ | ⟨-, hclient, -⟩
      · exact absurd he₀ (hidle e₀)
      · rw [hclient, hsame]
        exact ⟨_, List.mem_cons_self⟩

lemma History.of_gives41 {ownerid : Bytes} (h : History cm past s) (hsound : Sound (n + 1) s)
    (hstep : Gives41 s s' ownerid) (hexchange : req.isExchangeId = true)
    (hset : req.isSetClientId = false) : History cm (past ++ [req]) s' := by
  have hcount : exchanges (past ++ [req]) = exchanges past + 1 := by
    simp [exchanges, hexchange]
  have hany : (past ++ [req]).any Request.isSetClientId = past.any Request.isSetClientId := by
    simp [hset]
  have hsucc := toNat_succ hsound.room41
  have hnext := h.next
  constructor
  · rw [hstep.next, hsucc, hnext, hcount]
  · intro a hpos hle
    rw [hstep.returned]
    rw [hcount] at hle
    rcases Nat.lt_or_ge (exchanges past) a.toNat with hlt | hge
    · have hlast : a = s.sm.nextClientId := UInt64.toNat_inj.1 (by omega)
      rw [hlast]
      exact ⟨_, List.mem_cons_self⟩
    · obtain ⟨x, hx⟩ := h.first41 a hpos hge
      exact ⟨x, List.mem_cons_of_mem _ hx⟩
  · intro e he
    rw [hstep.returned]
    exact List.mem_cons_of_mem _ (h.kept e he)
  · rw [hstep.cm]
    exact h.seq
  · intro x a hx
    rw [hany]
    rw [hstep.returned, mem_returned_cons] at hx
    rcases hx with ⟨hname, -⟩ | hx
    · cases hname
    · exact h.later40 x a hx
  · rw [hany, hstep.cm]
    exact h.idle
  · intro hempty hsome
    rw [hany] at hsome
    obtain ⟨x, hx⟩ := h.first40 hempty hsome
    rw [hstep.returned]
    exact ⟨x, List.mem_cons_of_mem _ hx⟩

lemma History.of_step (h : History cm past s) (hsound : Sound (n + 1) s)
    (hstep : s.step req = some s') : History cm (past ++ [req]) s' := by
  obtain ⟨hquiet, hexchange, hset⟩ | ⟨entry, hgives, hexchange, hset⟩ |
    ⟨ownerid, hgives, hexchange, hset⟩ := step_cases hstep
  · exact h.of_quiet hquiet hexchange hset
  · exact h.of_gives40 hsound hgives hexchange hset
  · exact h.of_gives41 hsound hgives hexchange hset

/-- Along a run. -/
lemma History.of_run {reqs : List Request} (h : History cm past s)
    (hsound : Sound (n + reqs.length) s) (hrun : reqs.foldlM step s = some s') :
    History cm (past ++ reqs) s' := by
  induction reqs generalizing s past with
  | nil =>
    cases hrun
    rw [List.append_nil]
    exact h
  | cons req reqs ih =>
    obtain ⟨s₁, hstep, hrest⟩ := Option.bind_eq_some_iff.1 hrun
    have hrun' := ih (h.of_step hsound hstep) (hsound.of_step hstep) hrest
    rw [List.append_assoc] at hrun'
    exact hrun'

/-- The ids are disjoint if the first ones are not enough to reach those of `SETCLIENTID`. -/
lemma History.disjoint_of_apart (h : History cm past s) (hsound : Sound n s)
    (hapart : Apart cm past) : s.Disjoint := by
  have hcross : ∀ x y a, (.v40 x, a) ∈ s.returned → (.v41 y, a) ∈ s.returned → False := by
    intro x y a hx hy
    have hbound := (hsound.bounds41 y a hy).2
    rw [h.next] at hbound
    rcases h.later40 x a hx with ⟨e, he, rfl⟩ | ⟨hset, hlt⟩
    · have := hapart.1 e he
      omega
    · have := hapart.2 hset
      omega
  rintro ⟨c, a⟩ hx ⟨c', a'⟩ hy hne heq
  dsimp only at hne heq
  subst heq
  cases c with
  | v40 x =>
    cases c' with
    | v40 y =>
      rw [hsound.apart40 x y a hx hy] at hne
      exact hne rfl
    | v41 y => exact hcross x y a hx hy
  | v41 x =>
    cases c' with
    | v40 y => exact hcross y x a hy hx
    | v41 y =>
      rw [hsound.apart41 x y a hx hy] at hne
      exact hne rfl

/-- And only then. -/
lemma History.apart_of_disjoint (h : History cm past s) (hrecovered : Recovered cm)
    (hroom : cm.clientIdSeq.toNat + (n + 1) < 2 ^ 64) (hdisjoint : s.Disjoint) : Apart cm past := by
  have hcross : ∀ x (a : UInt64), (.v40 x, a) ∈ s.returned → 0 < a.toNat →
      exchanges past < a.toNat := by
    intro x a hx hpos
    by_contra hle
    obtain ⟨y, hy⟩ := h.first41 a hpos (Nat.le_of_not_lt hle)
    exact hdisjoint _ hx _ hy (fun hname => by cases hname) rfl
  have hrecords : ∀ e ∈ cm.db, exchanges past < e.clientid.toNat := fun e he =>
    hcross _ _ (h.kept e he) (hrecovered.positive e he)
  refine ⟨hrecords, fun hset => ?_⟩
  by_cases hempty : ∀ e, ¬ e ∈ cm.db
  · obtain ⟨x, hx⟩ := h.first40 hempty hset
    have hsucc := toNat_succ hroom
    have hlt := hcross x _ hx (by omega)
    omega
  · obtain ⟨e, he⟩ := not_forall_not.1 hempty
    have hlt := hrecords e he
    have hbelow := hrecovered.below e he
    omega

end History

/-- **Client ids.** No two clients are given the same id exactly when the ids that the EXCHANGE_IDs
return stay below those of the clients of SETCLIENTID. On a server that starts without records this
is so when only one of the two is used. -/
theorem disjoint_iff_apart {cm : ClientManager} (hinitial : Initial cm) {reqs : List Request}
    (hroom : cm.clientIdSeq.toNat + (reqs.length + 1) < 2 ^ 64) {s : Identities}
    (hrun : reqs.foldlM step (start cm) = some s) : s.Disjoint ↔ Apart cm reqs := by
  have hstart : Sound (0 + reqs.length) (start cm) := by
    rw [Nat.zero_add]
    exact Sound.start hinitial.recovered hroom
  have hsound : Sound 0 s := hstart.of_run hrun
  have hhistory : History cm reqs s := (History.start cm).of_run hstart hrun
  constructor
  · intro hdisjoint
    exact hhistory.apart_of_disjoint hinitial.recovered hroom hdisjoint
  · intro hapart
    exact hhistory.disjoint_of_apart hsound hapart

section Examples

/-- SETCLIENTID of a client. -/
def registers (id : String) (token : ConfirmToken) : Request :=
  .setClientId ⟨fun l => l, fun l => List.Perm.refl l⟩ 0 (List.Vector.replicate 8 0) id ⟨0, "", "", 0⟩ token

/-- Two NFSv4.0 clients. -/
theorem disjoint_iff_apart_two_clients :
    ∃ s, [registers "a" (List.Vector.replicate 8 1),
        registers "b" (List.Vector.replicate 8 2)].foldlM step (start .new) = some s ∧
      s.Disjoint := by
  refine ⟨_, rfl, ?_⟩
  refine (@disjoint_iff_apart .new .new [registers "a" (List.Vector.replicate 8 1),
    registers "b" (List.Vector.replicate 8 2)] ?_ _ rfl).2 ⟨?_, ?_⟩
  · decide
  · intro e he
    exact absurd he Table.not_mem_empty
  · intro _
    exact Nat.zero_le _

/-- The first NFSv4.0 client and the first NFSv4.1 client are given the same id. -/
theorem not_disjoint_two_versions :
    ∃ s, [registers "a" (List.Vector.replicate 8 1),
        .exchangeId [98]].foldlM step (start .new) = some s ∧ ¬ s.Disjoint := by
  refine ⟨_, rfl, fun hdisjoint => ?_⟩
  exact hdisjoint (.v41 [98], 1) List.mem_cons_self (.v40 "a", 1)
    (List.mem_cons_of_mem _ List.mem_cons_self) (fun hname => by cases hname) rfl

end Examples

end ClientIds

end NextNfs
