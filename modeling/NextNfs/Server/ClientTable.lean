import NextNfs.Server.ClientIds
import Mathlib.Data.Fintype.BigOperators

set_option relaxedAutoImplicit false
set_option autoImplicit false

/-!
# The table of clients

The messages of the client manager remove, change and insert records under three indexes: the name a
client gives itself, its client id and the token for the confirmation. Only the token is unique.
This module is about what holds of the table all the same, in every run with restarts and
recoveries.

## Main definitions

* `NextNfs.ClientTable.Valid` — a client has one client id, and at most one record that is confirmed
  and one that is not.
* `NextNfs.ClientTable.Managed`, `NextNfs.ClientTable.Managed.step` — a server with the snapshots
  that it saved.
* `NextNfs.ClientTable.Unseats` — the confirmations that fail and remove a record.

## Main results

* `NextNfs.ClientTable.Sound.of_step` — the invariant of the steps.
* `NextNfs.ClientTable.valid_of_run` — the table is valid in every run.
* `NextNfs.ClientTable.unchanged_iff` — when a message that fails leaves the table as it is.

## Implementation notes

A token is eight bytes below 255, as the source draws them. So there are fewer tokens than client
ids, and the counter of a run with different tokens does not wrap around.
-/

namespace NextNfs

namespace ClientTable

open ClientManager ClientIds

/-! ### Tokens -/

/-- A token as it is drawn. -/
abbrev Draw := List.Vector (Fin 255) 8

/-- The token. -/
def Draw.token (d : Draw) : ConfirmToken := d.map fun b => UInt8.ofNat b.val

/-- There are fewer tokens than client ids. -/
lemma length_lt_of_nodup {draws : List Draw} (h : draws.Nodup) : draws.length + 1 < 2 ^ 64 := by
  have hcard : Fintype.card Draw = 255 ^ 8 := by
    rw [card_vector, Fintype.card_fin]
  have hle := h.length_le_card
  rw [hcard] at hle
  omega

/-! ### Valid tables -/

/-- A client has at most one record that is confirmed and one that is not, all with its client id,
which no other client has. The ids are not past the counter, and the next one is free. -/
structure Valid (cm : ClientManager) : Prop where
  single : ∀ (id : String) (confirmed : Bool),
    (cm.db.select fun e => e.id == id && e.confirmed == confirmed).length ≤ 1
  shared : ∀ e ∈ cm.db, ∀ e' ∈ cm.db, e.id = e'.id → e.clientid = e'.clientid
  apart : ∀ e ∈ cm.db, ∀ e' ∈ cm.db, e.id ≠ e'.id → e.clientid ≠ e'.clientid
  below : ∀ e ∈ cm.db, e.clientid ≤ cm.clientIdSeq
  fresh : ∀ e ∈ cm.db, e.clientid ≠ cm.clientIdSeq + 1

/-- The records of a table, by client and client id. -/
structure Consistent (db : ClientDb) : Prop where
  unique : ∀ e ∈ db, ∀ e' ∈ db, e.id = e'.id → e.confirmed = e'.confirmed → e = e'
  shared : ∀ e ∈ db, ∀ e' ∈ db, e.id = e'.id → e.clientid = e'.clientid
  apart : ∀ e ∈ db, ∀ e' ∈ db, e.clientid = e'.clientid → e.id = e'.id

/-- The records of a table were changed and removed, but none got another name or was confirmed. -/
def Derived (db db' : ClientDb) : Prop :=
  ∃ g : ClientEntry → ClientEntry,
    (∀ e, (g e).id = e.id ∧ (g e).clientid = e.clientid ∧ (g e).confirmed = e.confirmed) ∧
      ∀ e' ∈ db', ∃ e ∈ db, g e = e'

variable {cm cm' : ClientManager} {db db' db'' : ClientDb}

lemma derived_refl (db : ClientDb) : Derived db db :=
  ⟨fun e => e, fun _ => ⟨rfl, rfl, rfl⟩, fun e he => ⟨e, he, rfl⟩⟩

lemma derived_erase (db : ClientDb) (p : ClientEntry → Bool) : Derived db (db.erase p) :=
  ⟨fun e => e, fun _ => ⟨rfl, rfl, rfl⟩, fun e he => ⟨e, (Table.mem_erase.1 he).1, rfl⟩⟩

lemma derived_modify (db : ClientDb) (p : ClientEntry → Bool) {f : ClientEntry → ClientEntry}
    (hf : ∀ e, (f e).setclientidConfirm = e.setclientidConfirm)
    (hkeeps : ∀ e, (f e).id = e.id ∧ (f e).clientid = e.clientid ∧ (f e).confirmed = e.confirmed) :
    Derived db (modify db p f hf) := by
  refine ⟨fun e => if p e then f e else e, fun e => ?_, fun e he => ?_⟩
  · dsimp only
    split_ifs
    · exact hkeeps e
    · exact ⟨rfl, rfl, rfl⟩
  · obtain ⟨e₀, he₀, heq⟩ := mem_modify.1 he
    exact ⟨e₀, he₀, heq⟩

lemma Derived.trans (h : Derived db db') (h' : Derived db' db'') : Derived db db'' := by
  obtain ⟨g, hg, hmem⟩ := h
  obtain ⟨g', hg', hmem'⟩ := h'
  refine ⟨fun e => g' (g e), fun e => ?_, fun e he => ?_⟩
  · obtain ⟨hid, hclient, hconfirmed⟩ := hg e
    obtain ⟨hid', hclient', hconfirmed'⟩ := hg' (g e)
    exact ⟨hid'.trans hid, hclient'.trans hclient, hconfirmed'.trans hconfirmed⟩
  · obtain ⟨e₁, he₁, rfl⟩ := hmem' e he
    obtain ⟨e₀, he₀, rfl⟩ := hmem e₁ he₁
    exact ⟨e₀, he₀, rfl⟩

/-- A table without records. -/
lemma Consistent.of_empty (h : ∀ e, ¬ e ∈ db) : Consistent db :=
  ⟨fun e he => absurd he (h e), fun e he => absurd he (h e), fun e he => absurd he (h e)⟩

lemma Consistent.of_derived (h : Consistent db) (hderived : Derived db db') : Consistent db' := by
  obtain ⟨g, hg, hmem⟩ := hderived
  constructor
  · intro a ha b hb hid hconfirmed
    obtain ⟨e, he, rfl⟩ := hmem a ha
    obtain ⟨e', he', rfl⟩ := hmem b hb
    rw [(hg e).1, (hg e').1] at hid
    rw [(hg e).2.2, (hg e').2.2] at hconfirmed
    rw [h.unique e he e' he' hid hconfirmed]
  · intro a ha b hb hid
    obtain ⟨e, he, rfl⟩ := hmem a ha
    obtain ⟨e', he', rfl⟩ := hmem b hb
    rw [(hg e).1, (hg e').1] at hid
    rw [(hg e).2.1, (hg e').2.1]
    exact h.shared e he e' he' hid
  · intro a ha b hb hclient
    obtain ⟨e, he, rfl⟩ := hmem a ha
    obtain ⟨e', he', rfl⟩ := hmem b hb
    rw [(hg e).2.1, (hg e').2.1] at hclient
    rw [(hg e).1, (hg e').1]
    exact h.apart e he e' he' hclient

/-- A new record of a client: its other records have the same client id, and none is confirmed
exactly when the new one is. -/
lemma Consistent.of_insert (h : Consistent db) {n : ClientEntry}
    (hshared : ∀ e ∈ db, e.id = n.id → e.clientid = n.clientid ∧ e.confirmed ≠ n.confirmed)
    (hapart : ∀ e ∈ db, e.clientid = n.clientid → e.id = n.id)
    (hinsert : ∀ e ∈ db', e = n ∨ e ∈ db) : Consistent db' := by
  constructor
  · intro a ha b hb hid hconfirmed
    rcases hinsert a ha with rfl | hold
    · rcases hinsert b hb with rfl | hold'
      · rfl
      · exact absurd hconfirmed.symm (hshared b hold' hid.symm).2
    · rcases hinsert b hb with rfl | hold'
      · exact absurd hconfirmed (hshared a hold hid).2
      · exact h.unique a hold b hold' hid hconfirmed
  · intro a ha b hb hid
    rcases hinsert a ha with rfl | hold
    · rcases hinsert b hb with rfl | hold'
      · rfl
      · exact (hshared b hold' hid.symm).1.symm
    · rcases hinsert b hb with rfl | hold'
      · exact (hshared a hold hid).1
      · exact h.shared a hold b hold' hid
  · intro a ha b hb hclient
    rcases hinsert a ha with rfl | hold
    · rcases hinsert b hb with rfl | hold'
      · rfl
      · exact (hapart b hold' hclient.symm).symm
    · rcases hinsert b hb with rfl | hold'
      · exact hapart a hold hclient
      · exact h.apart a hold b hold' hclient

/-- Records that are all equal are at most one: the tokens of two are different. -/
lemma length_select_le_one {p : ClientEntry → Bool}
    (h : ∀ e ∈ db, ∀ e' ∈ db, p e = true → p e' = true → e = e') : (db.select p).length ≤ 1 := by
  have hdistinct : (db.select p).Pairwise fun a b =>
      (a.setclientidConfirm == b.setclientidConfirm) = false := db.distinct.filter _
  cases hsel : db.select p with
  | nil => exact Nat.zero_le 1
  | cons a rest =>
    cases rest with
    | nil => exact Nat.le_refl 1
    | cons b rest =>
      exfalso
      have ha : a ∈ db ∧ p a = true := by
        apply Table.mem_select.1
        rw [hsel]
        exact List.mem_cons_self
      have hb : b ∈ db ∧ p b = true := by
        apply Table.mem_select.1
        rw [hsel]
        exact List.mem_cons_of_mem _ List.mem_cons_self
      have heq := h a ha.1 b hb.1 ha.2 hb.2
      rw [hsel] at hdistinct
      have hne := (List.pairwise_cons.1 hdistinct).1 b List.mem_cons_self
      rw [heq] at hne
      simp at hne

/-! ### The messages -/

/-- The messages that return a result. -/
inductive ClientCall
  | upsertClient (order : Order) (now : ℕ) (verifier : List.Vector UInt8 8) (id : String)
      (callback : ClientCallback) (principal : Option String) (draw : Draw)
  | confirmClient (order : Order) (clientId : UInt64) (token : ConfirmToken)
      (principal : Option String)
  | renewLeases (now : ℕ) (clientId : UInt64)

/-- What the manager does with a message, and whether it fails. -/
def ClientCall.execute (cm : ClientManager) :
    ClientCall → Option (ClientManager × Except NfsStat4 Unit)
  | .upsertClient order now verifier id callback principal draw =>
    (cm.upsertClient order.1 now verifier id callback principal draw.token).map fun r =>
      (r.1, r.2.map fun _ => ())
  | .confirmClient order clientId token principal =>
    let r := cm.confirmClient order.1 clientId token principal
    some (r.1, r.2.map fun _ => ())
  | .renewLeases now clientId => some (cm.renewLeases now clientId)

/-- SETCLIENTID: the other records of the client that stay are confirmed. -/
lemma upsertClient_kept {order : Order} {now : ℕ} {verifier : List.Vector UInt8 8} {id : String}
    {callback : ClientCallback} {principal : Option String} {token : ConfirmToken}
    {r : Except NfsStat4 ClientEntry}
    (h : cm.upsertClient order.1 now verifier id callback principal token = some (cm', r)) :
    (cm' = cm ∧ ∃ status, r = .error status) ∨
    ∃ entry, r = .ok entry ∧ entry.confirmed = false ∧ entry.lastRenewed = now ∧
      entry.courtesy = false ∧
      ∀ e ∈ cm'.db, e = entry ∨ (e ∈ cm.db ∧ (e.id = id → e.confirmed = true)) := by
  unfold upsertClient at h
  dsimp only at h
  split_ifs at h
  · cases h
    exact Or.inl ⟨rfl, _, rfl⟩
  · obtain ⟨⟨cm₁, entry⟩, hadd, heq⟩ := Option.bind_eq_some_iff.1 h
    cases heq
    obtain ⟨db, hdb, heq⟩ := Option.bind_eq_some_iff.1 hadd
    cases heq
    refine Or.inr ⟨_, rfl, rfl, rfl, rfl, fun e he => ?_⟩
    rcases (Table.mem_insert hdb).1 he with hold | rfl
    · obtain ⟨hmem, hp⟩ := Table.mem_erase.1 hold
      refine Or.inr ⟨hmem, fun hid => ?_⟩
      simpa [hid] using hp
    · exact Or.inl rfl

/-- The records that `confirm_client` looks at. -/
lemma mem_order_select {order : Order} {clientId : UInt64} {e : ClientEntry} :
    e ∈ order.1 (cm.db.select fun e => e.clientid == clientId) ↔
      e ∈ cm.db ∧ e.clientid = clientId := by
  rw [(order.2 _).mem_iff]
  simp

/-- A record that gives way to the one with the token: one that is confirmed under another token, if
there is any. -/
structure Older (db : ClientDb) (clientId : UInt64) (token : ConfirmToken)
    (older : Option ClientEntry) : Prop where
  some : ∀ o ∈ older, o ∈ db ∧ o.clientid = clientId ∧ o.confirmed = true ∧
    o.setclientidConfirm ≠ token
  none : older = none → ∀ e ∈ db, e.clientid = clientId → e.confirmed = true →
    e.setclientidConfirm = token

/-- The records without the one that gives way. -/
def without (db : ClientDb) (older : Option ClientEntry) : ClientDb :=
  older.elim db fun o => db.erase fun e => e.setclientidConfirm == o.setclientidConfirm

lemma setclientidConfirm_confirmed (e : ClientEntry) :
    { e with confirmed := true }.setclientidConfirm = e.setclientidConfirm := rfl

/-- The record with the token is confirmed. -/
def confirmedAt (db : ClientDb) (token : ConfirmToken) : ClientDb :=
  modify db (fun e => e.setclientidConfirm == token) (fun e => { e with confirmed := true })
    setclientidConfirm_confirmed

lemma mem_without {older : Option ClientEntry} {e : ClientEntry} :
    e ∈ without db older ↔ e ∈ db ∧ ∀ o ∈ older, e.setclientidConfirm ≠ o.setclientidConfirm := by
  cases older <;> simp [without]

lemma mem_confirmedAt {token : ConfirmToken} {e : ClientEntry} :
    e ∈ confirmedAt db token ↔ ∃ e₀ ∈ db,
      (if e₀.setclientidConfirm == token then { e₀ with confirmed := true } else e₀) = e :=
  mem_modify

/-- What SETCLIENTID_CONFIRM finds: no record; a record of another principal; no record with the
token; or the record with the token. In the last two cases it removes an older record. -/
lemma confirmClient_cases (cm : ClientManager) (order : Order) (clientId : UInt64)
    (token : ConfirmToken) (principal : Option String) :
    ((∀ e ∈ cm.db, e.clientid ≠ clientId) ∧
      cm.confirmClient order.1 clientId token principal = (cm, .error .nfs4errStaleClientid)) ∨
    ((∃ e ∈ cm.db, e.clientid = clientId ∧ e.principal ≠ principal) ∧
      cm.confirmClient order.1 clientId token principal = (cm, .error .nfs4errClidInuse)) ∨
    ((∃ e ∈ cm.db, e.clientid = clientId) ∧
      (∀ e ∈ cm.db, e.clientid = clientId → e.principal = principal) ∧
      ∃ older, Older cm.db clientId token older ∧
        (((∀ e ∈ cm.db, e.clientid = clientId → e.setclientidConfirm ≠ token) ∧
          cm.confirmClient order.1 clientId token principal =
            ({ cm with db := without cm.db older }, .error .nfs4errStaleClientid)) ∨
        ∃ entry ∈ cm.db, entry.clientid = clientId ∧ entry.setclientidConfirm = token ∧
          cm.confirmClient order.1 clientId token principal =
            ({ cm with db := confirmedAt (without cm.db older) token },
              .ok { entry with confirmed := true }))) := by
  have hmem : ∀ e, e ∈ (order.1 (cm.db.select fun e => e.clientid == clientId)).reverse ↔
      e ∈ cm.db ∧ e.clientid = clientId := by
    intro e
    rw [List.mem_reverse]
    exact mem_order_select
  unfold confirmClient
  dsimp only
  split_ifs with hempty hinuse
  · left
    refine ⟨fun e he hclient => ?_, rfl⟩
    have hin := (hmem e).2 ⟨he, hclient⟩
    rw [List.isEmpty_iff.1 hempty] at hin
    cases hin
  · right; left
    obtain ⟨e, he, hne⟩ := List.any_eq_true.1 hinuse
    obtain ⟨hdb, hclient⟩ := (hmem e).1 (List.mem_reverse.2 he)
    exact ⟨⟨e, hdb, hclient, by simpa using hne⟩, rfl⟩
  · right; right
    have hprincipal : ∀ e ∈ cm.db, e.clientid = clientId → e.principal = principal := by
      intro e he hclient
      by_contra hne
      apply hinuse
      exact List.any_eq_true.2 ⟨e, List.mem_reverse.1 ((hmem e).2 ⟨he, hclient⟩), by simpa using hne⟩
    have hsome : ∃ e ∈ cm.db, e.clientid = clientId := by
      obtain ⟨e, he⟩ := List.exists_mem_of_ne_nil _ fun hnil => hempty (List.isEmpty_iff.2 hnil)
      exact ⟨e, (hmem e).1 (List.mem_reverse.2 he)⟩
    have holder : Older cm.db clientId token
        ((order.1 (cm.db.select fun e => e.clientid == clientId)).reverse.find? fun e =>
          e.confirmed && e.setclientidConfirm != token) := by
      constructor
      · intro o ho
        obtain ⟨hdb, hclient⟩ := (hmem o).1 (List.mem_of_find?_eq_some ho)
        have hp := List.find?_some ho
        simp only [Bool.and_eq_true, bne_iff_ne] at hp
        exact ⟨hdb, hclient, hp⟩
      · intro hnone e he hclient hconfirmed
        have hp := List.find?_eq_none.1 hnone e ((hmem e).2 ⟨he, hclient⟩)
        simpa [hconfirmed] using hp
    refine ⟨hsome, hprincipal, _, holder, ?_⟩
    split
    · rename_i entry hfind
      right
      obtain ⟨hdb, hclient⟩ := (hmem entry).1 (List.mem_of_find?_eq_some hfind)
      exact ⟨entry, hdb, hclient, by simpa using List.find?_some hfind, rfl⟩
    · rename_i hfind
      left
      refine ⟨fun e he hclient => ?_, rfl⟩
      simpa using List.find?_eq_none.1 hfind e ((hmem e).2 ⟨he, hclient⟩)

/-- Two records with the same token are the same. -/
lemma eq_of_token {e e' : ClientEntry} (he : e ∈ db) (he' : e' ∈ db)
    (h : e.setclientidConfirm = e'.setclientidConfirm) : e = e' := by
  refine Table.eq_of_clash (fun a b => ?_) he he' (by simpa using h)
  rw [Bool.eq_iff_iff, beq_iff_eq, beq_iff_eq]
  exact eq_comm

/-- The confirmed records of a client that stay without the older one have the token. -/
lemma Consistent.token_of_confirmed (h : Consistent db) {clientId : UInt64} {token : ConfirmToken}
    {older : Option ClientEntry} (holder : Older db clientId token older) {e : ClientEntry}
    (he : e ∈ without db older) (hclient : e.clientid = clientId) (hconfirmed : e.confirmed = true) :
    e.setclientidConfirm = token := by
  obtain ⟨hdb, hstays⟩ := mem_without.1 he
  cases older with
  | none => exact holder.none rfl e hdb hclient hconfirmed
  | some o =>
    obtain ⟨ho, hoclient, hoconfirmed, -⟩ := holder.some o rfl
    have hid : e.id = o.id := h.apart e hdb o ho (hclient.trans hoclient.symm)
    have hsame : e = o := h.unique e hdb o ho hid (hconfirmed.trans hoconfirmed.symm)
    exact absurd (congrArg ClientEntry.setclientidConfirm hsame) (hstays o rfl)

/-- SETCLIENTID_CONFIRM keeps the table consistent. -/
lemma Consistent.of_confirmClient (h : Consistent cm.db) (order : Order) (clientId : UInt64)
    (token : ConfirmToken) (principal : Option String) :
    Consistent (cm.confirmClient order.1 clientId token principal).1.db := by
  have hwithout : ∀ older, Consistent (without cm.db older) := fun older =>
    h.of_derived ⟨fun e => e, fun _ => ⟨rfl, rfl, rfl⟩, fun e he => ⟨e, (mem_without.1 he).1, rfl⟩⟩
  obtain ⟨-, heq⟩ | ⟨-, heq⟩ | ⟨-, -, older, holder, ⟨-, heq⟩ |
    ⟨entry, hentry, hclient, htoken, heq⟩⟩ := confirmClient_cases cm order clientId token principal
  · rw [heq]
    exact h
  · rw [heq]
    exact h
  · rw [heq]
    exact hwithout older
  · rw [heq]
    have hkept : Consistent ((without cm.db older).erase fun e => e.setclientidConfirm == token) :=
      (hwithout older).of_derived (derived_erase _ _)
    refine hkept.of_insert (n := { entry with confirmed := true }) ?_ ?_ ?_
    · intro e he hid
      obtain ⟨hstays, hne⟩ := Table.mem_erase.1 he
      have hshared := h.shared e (mem_without.1 hstays).1 entry hentry hid
      refine ⟨hshared, fun hconfirmed => ?_⟩
      have htok := h.token_of_confirmed holder hstays (hshared.trans hclient) hconfirmed
      rw [htok] at hne
      simp at hne
    · intro e he
      exact h.apart e (mem_without.1 (Table.mem_erase.1 he).1).1 entry hentry
    · intro e he
      obtain ⟨e₀, he₀, rfl⟩ := mem_confirmedAt.1 he
      split_ifs with htok
      · left
        have hsame : e₀ = entry :=
          eq_of_token (mem_without.1 he₀).1 hentry ((beq_iff_eq.1 htok).trans htoken.symm)
        rw [hsame]
      · right
        exact Table.mem_erase.2 ⟨he₀, by simpa using htok⟩

/-! ### Ids and the counter -/

/-- The records are consistent, the counter is past their ids, and at most `n`. -/
structure Numbered (n : ℕ) (cm : ClientManager) : Prop where
  consistent : Consistent cm.db
  below : ∀ e ∈ cm.db, e.clientid.toNat ≤ cm.clientIdSeq.toNat
  seq : cm.clientIdSeq.toNat ≤ n

/-- The records of a snapshot are of different clients, with ids of at most `n`. -/
structure Saved (n : ℕ) (snaps : List ClientSnapshot) : Prop where
  apart : snaps.Pairwise fun a b => a.id ≠ b.id ∧ a.clientid ≠ b.clientid
  below : ∀ c ∈ snaps, c.clientid.toNat ≤ n

section Numbered

variable {n m : ℕ}

lemma Numbered.mono (h : Numbered n cm) (hle : n ≤ m) : Numbered m cm :=
  ⟨h.consistent, h.below, h.seq.trans hle⟩

lemma Saved.mono {snaps : List ClientSnapshot} (h : Saved n snaps) (hle : n ≤ m) : Saved m snaps :=
  ⟨h.apart, fun c hc => (h.below c hc).trans hle⟩

lemma numbered_new : Numbered n .new :=
  ⟨.of_empty fun _ => Table.not_mem_empty, fun _ he => absurd he Table.not_mem_empty, Nat.zero_le n⟩

/-- A message that makes no record and leaves the counter. -/
lemma Numbered.of_subsumed (h : Numbered n cm) (hcon : Consistent cm'.db)
    (hsub : Subsumed cm.db cm'.db) (hseq : cm'.clientIdSeq = cm.clientIdSeq) : Numbered n cm' := by
  refine ⟨hcon, fun e he => ?_, ?_⟩
  · obtain ⟨e₀, he₀, -, hclient⟩ := hsub e he
    rw [hseq, ← hclient]
    exact h.below e₀ he₀
  · rw [hseq]
    exact h.seq

/-- SETCLIENTID: the new record has the id of the client's other records, or the next one, which no
record has. -/
lemma Numbered.of_upsertClient (h : Numbered n cm) (hroom : n + 1 < 2 ^ 64) {order : Order}
    {now : ℕ} {verifier : List.Vector UInt8 8} {id : String} {callback : ClientCallback}
    {principal : Option String} {token : ConfirmToken} {r : Except NfsStat4 ClientEntry}
    (hcall : cm.upsertClient order.1 now verifier id callback principal token = some (cm', r)) :
    Numbered (n + 1) cm' := by
  obtain ⟨rfl, -⟩ | ⟨entry, rfl, hunconfirmed, -, -, hkept⟩ := upsertClient_kept hcall
  · exact h.mono n.le_succ
  obtain ⟨-, -, status, hr⟩ | ⟨entry', hr, hid, -, hnumber⟩ := upsertClient_cases hcall
  · cases hr
  cases hr
  have hseq := h.seq
  -- the records that stay, with the new one
  have hnew : Consistent (cm.db.erase fun e => e.id == id && !e.confirmed) :=
    h.consistent.of_derived (derived_erase _ _)
  have hinsert : ∀ e ∈ cm'.db, e = entry ∨ e ∈ cm.db.erase fun e => e.id == id && !e.confirmed := by
    intro e he
    rcases hkept e he with rfl | ⟨hdb, hconfirmed⟩
    · exact Or.inl rfl
    · refine Or.inr (Table.mem_erase.2 ⟨hdb, ?_⟩)
      cases hsame : e.id == id with
      | false => rfl
      | true =>
        rw [hconfirmed (beq_iff_eq.1 hsame)]
        rfl
  have hstays : ∀ e ∈ cm.db.erase (fun e => e.id == id && !e.confirmed),
      e ∈ cm.db ∧ (e.id = entry.id → e.confirmed ≠ entry.confirmed) := by
    intro e he
    obtain ⟨hdb, hp⟩ := Table.mem_erase.1 he
    refine ⟨hdb, fun hsame hconfirmed => ?_⟩
    rw [hunconfirmed] at hconfirmed
    simp [hsame, hid, hconfirmed] at hp
  obtain ⟨e₀, he₀, hid₀, hclient₀, hseq'⟩ | ⟨hfree, hclient, hseq'⟩ := hnumber
  · refine ⟨hnew.of_insert (n := entry) ?_ ?_ hinsert, ?_, ?_⟩
    · intro e he hsame
      obtain ⟨hdb, hconfirmed⟩ := hstays e he
      have hshared := h.consistent.shared e hdb e₀ he₀ (hsame.trans (hid.trans hid₀.symm))
      exact ⟨hshared.trans hclient₀, hconfirmed hsame⟩
    · intro e he hclient
      have hsame := h.consistent.apart e (hstays e he).1 e₀ he₀ (hclient.trans hclient₀.symm)
      exact hsame.trans (hid₀.trans hid.symm)
    · intro e he
      rw [hseq']
      rcases hinsert e he with rfl | hold
      · rw [← hclient₀]
        exact h.below e₀ he₀
      · exact h.below e (hstays e hold).1
    · rw [hseq']
      omega
  · have hsucc : (cm.clientIdSeq + 1).toNat = cm.clientIdSeq.toNat + 1 :=
      toNat_succ (n := 0) (by omega)
    refine ⟨hnew.of_insert (n := entry) ?_ ?_ hinsert, ?_, ?_⟩
    · intro e he hsame
      exact absurd (hsame.trans hid) (hfree e (hstays e he).1)
    · intro e he hsame
      exfalso
      have hbelow := h.below e (hstays e he).1
      rw [hsame, hclient, hsucc] at hbelow
      omega
    · intro e he
      rw [hseq', hsucc]
      rcases hinsert e he with rfl | hold
      · rw [hclient, hsucc]
      · have := h.below e (hstays e hold).1
        omega
    · rw [hseq', hsucc]
      omega

/-- A snapshot of the confirmed records, in any order. -/
lemma Numbered.saved (h : Numbered n cm) (order : Order) :
    Saved n ((order.1 (cm.db.select ClientEntry.confirmed)).map snapshot) := by
  have hperm := order.2 (cm.db.select ClientEntry.confirmed)
  constructor
  · rw [List.pairwise_map]
    refine (hperm.pairwise_iff fun {a b} hab => ⟨hab.1.symm, hab.2.symm⟩).2 ?_
    have hdistinct : (cm.db.select ClientEntry.confirmed).Pairwise fun a b =>
        (a.setclientidConfirm == b.setclientidConfirm) = false := cm.db.distinct.filter _
    refine hdistinct.imp_of_mem fun {a b} ha hb hne => ?_
    obtain ⟨ha, haconfirmed⟩ := Table.mem_select.1 ha
    obtain ⟨hb, hbconfirmed⟩ := Table.mem_select.1 hb
    have hid : a.id ≠ b.id := by
      intro hid
      rw [h.consistent.unique a ha b hb hid (haconfirmed.trans hbconfirmed.symm)] at hne
      simp at hne
    exact ⟨hid, fun hclient => hid (h.consistent.apart a ha b hb hclient)⟩
  · intro c hc
    obtain ⟨e, he, rfl⟩ := List.mem_map.1 hc
    have hmem := (Table.mem_select.1 (hperm.mem_iff.1 he)).1
    exact (h.below e hmem).trans h.seq

/-- A record of a snapshot is restored, beside those of other clients. -/
lemma Numbered.of_restoreClient (h : Numbered n cm) (hroom : n + 1 < 2 ^ 64) {now : ℕ}
    {c : ClientSnapshot × ConfirmToken} (hbelow : c.1.clientid.toNat ≤ n)
    (hapart : ∀ e ∈ cm.db, e.id ≠ c.1.id ∧ e.clientid ≠ c.1.clientid)
    (hstep : restoreClient now cm c = some cm') :
    Numbered (n + 1) cm' ∧
      ∀ e ∈ cm'.db, e ∈ cm.db ∨ (e.id = c.1.id ∧ e.clientid = c.1.clientid) := by
  have hrestored : Restored (fun _ _ => True) cm' :=
    Restored.of_restoreClient ⟨fun _ _ => trivial, h.below⟩ trivial (by omega) hstep
  unfold restoreClient at hstep
  split at hstep
  · cases hstep
    exact ⟨h.mono n.le_succ, fun e he => Or.inl he⟩
  · obtain ⟨db, hdb, heq⟩ := Option.bind_eq_some_iff.1 hstep
    cases heq
    have hmem := fun e => Table.mem_insert (b := e) hdb
    refine ⟨⟨h.consistent.of_insert ?_ ?_ fun e he => ((hmem e).1 he).symm, hrestored.below, ?_⟩,
      fun e he => ?_⟩
    · intro e he hid
      exact absurd hid (hapart e he).1
    · intro e he hclient
      exact absurd hclient (hapart e he).2
    · have hsucc : (c.1.clientid + 1).toNat = c.1.clientid.toNat + 1 :=
        toNat_succ (n := 0) (by omega)
      have hseq := h.seq
      show (if c.1.clientid ≥ cm.clientIdSeq then c.1.clientid + 1 else cm.clientIdSeq).toNat ≤ n + 1
      split_ifs
      · rw [hsucc]
        omega
      · omega
    · rcases (hmem e).1 he with hold | rfl
      · exact Or.inl hold
      · exact Or.inr ⟨rfl, rfl⟩

/-- The records of a snapshot are restored, one after another. -/
lemma Numbered.of_restoreClients {now : ℕ} {clients : List (ClientSnapshot × ConfirmToken)}
    (h : Numbered n cm) (hsaved : Saved n (clients.map Prod.fst))
    (hroom : n + clients.length + 1 < 2 ^ 64)
    (hapart : ∀ e ∈ cm.db, ∀ c ∈ clients, e.id ≠ c.1.id ∧ e.clientid ≠ c.1.clientid)
    (hrun : cm.restoreClients now clients = some cm') : Numbered (n + clients.length) cm' := by
  unfold restoreClients at hrun
  induction clients generalizing cm n with
  | nil =>
    cases hrun
    exact h
  | cons c clients ih =>
    obtain ⟨cm₁, hstep, hrest⟩ := Option.bind_eq_some_iff.1 hrun
    rw [List.length_cons] at hroom ⊢
    have hpairwise := List.pairwise_cons.1 hsaved.apart
    obtain ⟨h₁, hmem⟩ := h.of_restoreClient (by omega) (hsaved.below c.1 List.mem_cons_self)
      (fun e he => hapart e he c List.mem_cons_self) hstep
    have hsaved₁ : Saved (n + 1) (clients.map Prod.fst) := by
      refine ⟨hpairwise.2, fun c' hc' => ?_⟩
      exact (hsaved.below c' (List.mem_cons_of_mem _ hc')).trans n.le_succ
    have hnext := ih h₁ hsaved₁ (by omega) ?_ hrest
    · exact hnext.mono (by omega)
    · intro e he c' hc'
      rcases hmem e he with hold | ⟨hid, hclient⟩
      · exact hapart e hold c' (List.mem_cons_of_mem _ hc')
      · have hne := hpairwise.1 c'.1 (List.mem_map_of_mem hc')
        rw [hid, hclient]
        exact hne

end Numbered

/-! ### The server -/

/-- A server with the snapshots that it saved, the last one first. -/
structure Managed where
  cm : ClientManager
  snapshots : List (List ClientSnapshot)

/-- What happens to a server. It saves the records that are confirmed; it is started again, and
restores a snapshot. -/
inductive Request
  | call (c : ClientCall)
  | sweepLeases (now : ℕ)
  | revokeCourtesyClient (clientId : UInt64)
  | getAllClients (order : Order)
  | restart
  | restoreClients (now : ℕ) (i : ℕ) (draws : List Draw)

/-- The tokens that are drawn. -/
def Request.draws : Request → List Draw
  | call (.upsertClient _ _ _ _ _ _ draw) => [draw]
  | restoreClients _ _ draws => draws
  | _ => []

namespace Managed

/-- A server without records. -/
def start : Managed := ⟨.new, []⟩

/-- A step. A snapshot is restored into a table without records, with a token for each of its
records. -/
def step (s : Managed) : Request → Option Managed
  | .call c => do
    let (cm, _) ← c.execute s.cm
    pure { s with cm := cm }
  | .sweepLeases now => some { s with cm := (s.cm.sweepLeases now).1 }
  | .revokeCourtesyClient clientId => some { s with cm := s.cm.revokeCourtesyClient clientId }
  | .getAllClients order =>
    some { s with
      snapshots := (order.1 (s.cm.db.select ClientEntry.confirmed)).map snapshot :: s.snapshots }
  | .restart => some { s with cm := .new }
  | .restoreClients now i draws => do
    let snaps ← s.snapshots[i]?
    if s.cm.db.entries.isEmpty && snaps.length == draws.length then
      let cm ← s.cm.restoreClients now (snaps.zip (draws.map Draw.token))
      pure { s with cm := cm }
    else none

end Managed

open Managed

/-- The invariant: `n` tokens were drawn, which bounds the counter and the ids in the table and in
the snapshots. -/
structure Sound (n : ℕ) (s : Managed) : Prop where
  numbered : Numbered n s.cm
  saved : ∀ snaps ∈ s.snapshots, Saved n snaps

section Sound

variable {n : ℕ} {s s' : Managed} {req : Request}

lemma sound_start : Sound n start := ⟨numbered_new, fun _ h => absurd h List.not_mem_nil⟩

/-- A valid table. -/
lemma Numbered.valid (h : Numbered n cm) (hroom : n + 1 < 2 ^ 64) : Valid cm := by
  constructor
  · intro id confirmed
    refine length_select_le_one fun e he e' he' hp hp' => ?_
    simp only [Bool.and_eq_true, beq_iff_eq] at hp hp'
    exact h.consistent.unique e he e' he' (hp.1.trans hp'.1.symm) (hp.2.trans hp'.2.symm)
  · exact h.consistent.shared
  · intro e he e' he' hid hclient
    exact hid (h.consistent.apart e he e' he' hclient)
  · intro e he
    exact UInt64.le_iff_toNat_le.2 (h.below e he)
  · intro e he hclient
    have hseq := h.seq
    have hbelow := h.below e he
    rw [hclient, toNat_succ (n := 0) (by omega)] at hbelow
    omega

lemma renewLeases_derived (cm : ClientManager) (now : ℕ) (clientId : UInt64) :
    Derived cm.db (cm.renewLeases now clientId).1.db := by
  unfold renewLeases
  dsimp only
  split_ifs
  · exact derived_refl _
  · exact derived_refl _
  · refine derived_modify cm.db _ ?_ ?_
    · exact fun _ => rfl
    · exact fun _ => ⟨rfl, rfl, rfl⟩

/-- The messages that return a result keep the table consistent, and count the tokens. -/
lemma Numbered.of_execute (h : Numbered n cm) {c : ClientCall} {r : Except NfsStat4 Unit}
    (hroom : n + 1 < 2 ^ 64) (hcall : c.execute cm = some (cm', r)) :
    Numbered (n + (Request.call c).draws.length) cm' := by
  cases c with
  | upsertClient order now verifier id callback principal draw =>
    obtain ⟨⟨cm₁, r₁⟩, hupsert, heq⟩ := Option.map_eq_some_iff.1 hcall
    cases heq
    exact h.of_upsertClient hroom hupsert
  | confirmClient order clientId token principal =>
    cases hcall
    have hconfirm := confirmClient_subsumed order.1 cm clientId token principal
    exact h.of_subsumed (h.consistent.of_confirmClient order clientId token principal) hconfirm.1
      hconfirm.2
  | renewLeases now clientId =>
    have heq := Option.some.inj hcall
    have hrenew := renewLeases_subsumed cm now clientId
    have hderived := renewLeases_derived cm now clientId
    rw [heq] at hrenew hderived
    exact h.of_subsumed (h.consistent.of_derived hderived) hrenew.1 hrenew.2

lemma sweepLeases_derived (cm : ClientManager) (now : ℕ) :
    Derived cm.db (cm.sweepLeases now).1.db := by
  unfold sweepLeases
  dsimp only
  refine Derived.trans (derived_modify cm.db _ ?_ ?_) (derived_erase _ _)
  · exact fun _ => rfl
  · exact fun _ => ⟨rfl, rfl, rfl⟩

/-- One step, by the message. -/
lemma Sound.of_step (h : Sound n s) (hroom : n + req.draws.length + 1 < 2 ^ 64)
    (hroom' : n + 1 < 2 ^ 64) (hstep : s.step req = some s') :
    Sound (n + req.draws.length) s' := by
  have hsaved : ∀ snaps ∈ s.snapshots, Saved (n + req.draws.length) snaps := fun snaps hsnaps =>
    (h.saved snaps hsnaps).mono (Nat.le_add_right _ _)
  cases req with
  | call c =>
    obtain ⟨⟨cm, r⟩, hcall, heq⟩ := Option.bind_eq_some_iff.1 hstep
    cases heq
    exact ⟨h.numbered.of_execute hroom' hcall, hsaved⟩
  | sweepLeases now =>
    cases hstep
    have hsweep := sweepLeases_subsumed s.cm now
    have hcon := h.numbered.consistent.of_derived (sweepLeases_derived s.cm now)
    exact ⟨h.numbered.of_subsumed hcon hsweep.1 hsweep.2, hsaved⟩
  | revokeCourtesyClient clientId =>
    cases hstep
    have hcon := h.numbered.consistent.of_derived
      (derived_erase s.cm.db fun e => e.clientid == clientId)
    exact ⟨h.numbered.of_subsumed hcon (subsumed_erase _ _) rfl, hsaved⟩
  | getAllClients order =>
    cases hstep
    refine ⟨h.numbered, fun snaps hsnaps => ?_⟩
    rcases List.mem_cons.1 hsnaps with rfl | hold
    · exact h.numbered.saved order
    · exact hsaved snaps hold
  | restart =>
    cases hstep
    exact ⟨numbered_new, hsaved⟩
  | restoreClients now i draws =>
    obtain ⟨snaps, hsnaps, hstep⟩ := Option.bind_eq_some_iff.1 hstep
    split_ifs at hstep with hempty
    simp only [Bool.and_eq_true, List.isEmpty_iff, beq_iff_eq] at hempty
    obtain ⟨cm, hrestore, heq⟩ := Option.bind_eq_some_iff.1 hstep
    cases heq
    have hlength : (snaps.zip (draws.map Draw.token)).length = draws.length := by
      rw [List.length_zip, List.length_map, hempty.2, Nat.min_self]
    have hfst : (snaps.zip (draws.map Draw.token)).map Prod.fst = snaps := by
      apply List.map_fst_zip
      rw [List.length_map, hempty.2]
    have hrestored : Numbered (n + (snaps.zip (draws.map Draw.token)).length) cm := by
      refine h.numbered.of_restoreClients ?_ ?_ ?_ hrestore
      · rw [hfst]
        exact h.saved snaps (List.mem_of_getElem? hsnaps)
      · rw [hlength]
        exact hroom
      · intro e he
        rw [Table.mem_def, hempty.1] at he
        cases he
    rw [hlength] at hrestored
    exact ⟨hrestored, hsaved⟩

/-- A run. -/
lemma Sound.of_run {reqs : List Request} (h : Sound n s)
    (hroom : n + (reqs.flatMap Request.draws).length + 1 < 2 ^ 64)
    (hrun : reqs.foldlM Managed.step s = some s') :
    Sound (n + (reqs.flatMap Request.draws).length) s' := by
  induction reqs generalizing s n with
  | nil =>
    cases hrun
    exact h
  | cons req reqs ih =>
    obtain ⟨s₁, hstep, hrest⟩ := Option.bind_eq_some_iff.1 hrun
    rw [List.flatMap_cons, List.length_append] at hroom ⊢
    have hnext := ih (h.of_step (by omega) (by omega) hstep) (by omega) hrest
    rw [Nat.add_assoc] at hnext
    exact hnext

end Sound

/-- **The table of clients.** In every run in which no token is drawn twice, a client has one client
id, which no other client has, and at most one record that is confirmed and one that is not; the ids
are not past the counter, and the next one is free.

Proof sketch. A new client id costs a token, and a recovery moves the counter past the ids of a
snapshot by at most one, and draws a token for each. So the counter is at most the number of tokens,
of which there are fewer than client ids. -/
theorem valid_of_run {reqs : List Request} (htokens : (reqs.flatMap Request.draws).Nodup)
    {s : Managed} (hrun : reqs.foldlM step start = some s) : Valid s.cm := by
  have hroom := length_lt_of_nodup htokens
  have hsound : Sound (0 + (reqs.flatMap Request.draws).length) s :=
    sound_start.of_run (by omega) hrun
  rw [Nat.zero_add] at hsound
  exact hsound.numbered.valid hroom

section Examples

/-- SETCLIENTID of a client. -/
def sets (id : String) (now : ℕ) (b : Fin 255) : Request :=
  .call (.upsertClient ⟨fun l => l, fun l => List.Perm.refl l⟩ now (List.Vector.replicate 8 0) id
    ⟨0, "", "", 0⟩ none (List.Vector.replicate 8 b))

/-- SETCLIENTID_CONFIRM. -/
def confirms (clientId : UInt64) (b : UInt8) : Request :=
  .call (.confirmClient ⟨fun l => l, fun l => List.Perm.refl l⟩ clientId (List.Vector.replicate 8 b)
    none)

/-- A confirmed client is saved and restored, and another one comes. -/
theorem valid_of_run_recovery :
    ∃ s, [sets "a" 0 1, confirms 1 1, .getAllClients ⟨fun l => l, fun l => List.Perm.refl l⟩,
        .restart, .restoreClients 5 0 [List.Vector.replicate 8 2], sets "b" 6 3].foldlM step start =
          some s ∧ Valid s.cm :=
  ⟨_, rfl, @valid_of_run [sets "a" 0 1, confirms 1 1,
    .getAllClients ⟨fun l => l, fun l => List.Perm.refl l⟩, .restart,
    .restoreClients 5 0 [List.Vector.replicate 8 2], sets "b" 6 3] (by decide) _ rfl⟩

end Examples

/-! ### Messages that fail -/

/-- SETCLIENTID_CONFIRM with a token that no record of the client has, when a record of the client
is confirmed and all are of the principal. -/
def Unseats (cm : ClientManager) : ClientCall → Prop
  | .confirmClient _ clientId token principal =>
    (∃ e ∈ cm.db, e.clientid = clientId ∧ e.confirmed = true) ∧
      ∀ e ∈ cm.db, e.clientid = clientId → e.principal = principal ∧ e.setclientidConfirm ≠ token
  | _ => False

lemma map_eq_error {ε α β : Type} {r : Except ε α} {f : α → β} {e : ε} :
    r.map f = .error e ↔ r = .error e := by
  cases r <;> simp [Except.map]

/-- SETCLIENTID_CONFIRM fails and leaves the table as it is, unless the token is of no record. -/
lemma confirmClient_unchanged_iff (order : Order) (clientId : UInt64) (token : ConfirmToken)
    (principal : Option String) :
    (∀ status, (cm.confirmClient order.1 clientId token principal).2 = .error status →
        (cm.confirmClient order.1 clientId token principal).1 = cm) ↔
      ¬ Unseats cm (.confirmClient order clientId token principal) := by
  obtain ⟨hnone, heq⟩ | ⟨⟨e, he, hclient, hne⟩, heq⟩ | ⟨-, hprincipal, older, holder, ⟨htoken, heq⟩ |
    ⟨entry, hentry, hclient, htoken, heq⟩⟩ := confirmClient_cases cm order clientId token principal
  · rw [heq]
    refine iff_of_true (fun _ _ => rfl) ?_
    rintro ⟨⟨e, he, hclient, -⟩, -⟩
    exact hnone e he hclient
  · rw [heq]
    refine iff_of_true (fun _ _ => rfl) ?_
    rintro ⟨-, hall⟩
    exact hne (hall e he hclient).1
  · rw [heq]
    cases older with
    | none =>
      refine iff_of_true (fun _ _ => rfl) ?_
      rintro ⟨⟨e, he, hclient, hconfirmed⟩, -⟩
      exact htoken e he hclient (holder.none rfl e he hclient hconfirmed)
    | some o =>
      obtain ⟨ho, hclient, hconfirmed, -⟩ := holder.some o rfl
      refine iff_of_false (fun hsame => ?_) (not_not_intro ⟨⟨o, ho, hclient, hconfirmed⟩, ?_⟩)
      · -- the older record is not there any more
        have hdb : without cm.db (some o) = cm.db := congrArg ClientManager.db (hsame _ rfl)
        rw [← hdb] at ho
        exact (mem_without.1 ho).2 o rfl rfl
      · exact fun e he hclient => ⟨hprincipal e he hclient, htoken e he hclient⟩
  · rw [heq]
    refine iff_of_true (fun status herror => by cases herror) ?_
    rintro ⟨-, hall⟩
    exact (hall entry hentry hclient).2 htoken

/-- **Messages that fail.** A message that fails leaves the table as it is, unless it is a
SETCLIENTID_CONFIRM of a client with a confirmed record, whose token is of none of its records. -/
theorem unchanged_iff (cm : ClientManager) (c : ClientCall) :
    (∀ cm' status, c.execute cm = some (cm', .error status) → cm' = cm) ↔ ¬ Unseats cm c := by
  cases c with
  | upsertClient order now verifier id callback principal draw =>
    refine iff_of_true (fun cm' status hcall => ?_) (fun hunseats => hunseats)
    obtain ⟨⟨cm₁, r⟩, hupsert, heq⟩ := Option.map_eq_some_iff.1 hcall
    obtain ⟨rfl, -⟩ | ⟨entry, rfl, -⟩ := upsertClient_kept hupsert
    · exact (congrArg Prod.fst heq).symm
    · cases congrArg Prod.snd heq
  | confirmClient order clientId token principal =>
    rw [← confirmClient_unchanged_iff]
    have hexecute : ∀ cm' status,
        (ClientCall.confirmClient order clientId token principal).execute cm =
            some (cm', .error status) ↔
          (cm.confirmClient order.1 clientId token principal).1 = cm' ∧
            (cm.confirmClient order.1 clientId token principal).2 = .error status := by
      intro cm' status
      rw [← map_eq_error (f := fun _ : ClientEntry => ()), ← Prod.mk.injEq]
      exact Option.some_inj
    constructor
    · intro h status herror
      exact h _ status ((hexecute _ _).2 ⟨rfl, herror⟩)
    · intro h cm' status hcall
      obtain ⟨rfl, herror⟩ := (hexecute _ _).1 hcall
      exact h status herror
  | renewLeases now clientId =>
    refine iff_of_true (fun cm' status hcall => ?_) (fun hunseats => hunseats)
    have heq : cm.renewLeases now clientId = (cm', .error status) := Option.some.inj hcall
    unfold renewLeases at heq
    dsimp only at heq
    split_ifs at heq
    · exact (congrArg Prod.fst heq).symm
    · exact (congrArg Prod.fst heq).symm
    · cases congrArg Prod.snd heq

section Examples

/-- A client is confirmed; a SETCLIENTID_CONFIRM with another token fails, and the client is gone.
-/
theorem not_unchanged_wrong_token :
    ∃ s, [sets "a" 0 1, confirms 1 1].foldlM step start = some s ∧
      ∃ cm, ClientCall.execute s.cm (.confirmClient ⟨fun l => l, fun l => List.Perm.refl l⟩ 1
          (List.Vector.replicate 8 2) none) = some (cm, .error .nfs4errStaleClientid) ∧
        cm.db.entries = [] ∧ s.cm.db.entries.length = 1 :=
  ⟨_, rfl, _, rfl, by decide, by decide⟩

end Examples

end ClientTable

end NextNfs
