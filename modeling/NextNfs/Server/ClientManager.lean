import NextNfs.Lib.Table
import NextNfs.Proto.Results

set_option relaxedAutoImplicit false
set_option autoImplicit false

/-!
# The client manager

This module models `clientmanager.rs`: the records of the NFSv4.0 clients, which SETCLIENTID makes
and SETCLIENTID_CONFIRM confirms, their leases, and the recovery of the records from a snapshot.

## Main definitions

* `NextNfs.ClientEntry`, `NextNfs.ClientManager` — a record, and the table of records.
* `NextNfs.ClientManager.upsertClient` and its siblings — the messages.

## Implementation notes

The tokens for the confirmation are drawn at random; here they are given. A record that is inserted
under a token in use panics, and has no result. The order in which the table lists the records of
one client is not specified; it is the parameter `order`. Times are in nanoseconds. The map from
addresses to filehandles is left out: nothing reads it.
-/

namespace NextNfs

open Wire

/-! ### Records -/

/-- `ClientCallback`. -/
structure ClientCallback where
  program : UInt32
  rnetid : String
  raddr : String
  callbackIdent : UInt32
deriving DecidableEq

/-- The token of a record. -/
abbrev ConfirmToken := List.Vector UInt8 8

/-- `ClientEntry`. -/
structure ClientEntry where
  principal : Option String
  verifier : List.Vector UInt8 8
  id : String
  clientid : UInt64
  callback : ClientCallback
  setclientidConfirm : ConfirmToken
  confirmed : Bool
  lastRenewed : ℕ
  courtesy : Bool
deriving DecidableEq

/-- `ClientDb`: the records, under unique tokens. -/
abbrev ClientDb := Table ClientEntry fun a b => a.setclientidConfirm == b.setclientidConfirm

/-- `ClientManager`. -/
structure ClientManager where
  db : ClientDb
  clientIdSeq : UInt64
  /-- In seconds. -/
  leaseTime : ℕ

/-- `ClientSnapshot`. -/
structure ClientSnapshot where
  principal : Option String
  verifier : List.Vector UInt8 8
  id : String
  clientid : UInt64
  callback : ClientCallback
  confirmed : Bool

/-- The seconds since a record was renewed. -/
def ClientEntry.elapsed (e : ClientEntry) (now : ℕ) : ℕ := (now - e.lastRenewed) / 1000000000

namespace ClientManager

/-- `ClientManager::new`. -/
def new : ClientManager := ⟨Table.empty, 0, 90⟩

/-- Change the records that satisfy `p`, but not their tokens. -/
def modify (db : ClientDb) (p : ClientEntry → Bool) (f : ClientEntry → ClientEntry)
    (hf : ∀ e, (f e).setclientidConfirm = e.setclientidConfirm) : ClientDb :=
  Table.modify db (fun e => if p e then f e else e) fun a b => by
    have hkey : ∀ e, (if p e then f e else e).setclientidConfirm = e.setclientidConfirm := by
      intro e
      split_ifs
      · exact hf e
      · rfl
    rw [hkey, hkey]

/-- The records after some were changed. -/
lemma mem_modify {db : ClientDb} {p : ClientEntry → Bool} {f : ClientEntry → ClientEntry}
    {hf : ∀ e, (f e).setclientidConfirm = e.setclientidConfirm} {e : ClientEntry} :
    e ∈ modify db p f hf ↔ ∃ a ∈ db, (if p a then f a else a) = e :=
  Table.mem_modify

/-! ### Making and confirming records -/

/-- `add_client_record`: a new record, with a new client id unless one is given. -/
def addClientRecord (cm : ClientManager) (now : ℕ) (verifier : List.Vector UInt8 8) (id : String)
    (callback : ClientCallback) (principal : Option String) (clientId : Option UInt64)
    (token : ConfirmToken) : Option (ClientManager × ClientEntry) := do
  let clientid := clientId.getD (cm.clientIdSeq + 1)
  let entry : ClientEntry :=
    ⟨principal, verifier, id, clientid, callback, token, false, now, false⟩
  let db ← cm.db.insert entry
  pure ({ cm with
    db := db
    clientIdSeq := if clientId.isSome then cm.clientIdSeq else cm.clientIdSeq + 1 }, entry)

variable (order : List ClientEntry → List ClientEntry)

/-- `upsert_client`: records of the same client that are not confirmed give way to the new one,
which gets the client id of the last record. -/
def upsertClient (cm : ClientManager) (now : ℕ) (verifier : List.Vector UInt8 8) (id : String)
    (callback : ClientCallback) (principal : Option String) (token : ConfirmToken) :
    Option (ClientManager × Except NfsStat4 ClientEntry) :=
  let entries := order (cm.db.select fun e => e.id == id)
  if entries.any fun e => e.confirmed && e.principal != principal then
    some (cm, .error .nfs4errClidInuse)
  else do
    let cm' := { cm with db := cm.db.erase fun e => e.id == id && !e.confirmed }
    let (cm, entry) ← cm'.addClientRecord now verifier id callback principal
      (entries.getLast?.map ClientEntry.clientid) token
    pure (cm, .ok entry)

/-- `confirm_client`: the record with the token is confirmed, and an older confirmed one is removed,
also if there is none with the token. -/
def confirmClient (cm : ClientManager) (clientId : UInt64) (token : ConfirmToken)
    (principal : Option String) : ClientManager × Except NfsStat4 ClientEntry :=
  let entries := order (cm.db.select fun e => e.clientid == clientId)
  if entries.isEmpty then (cm, .error .nfs4errStaleClientid)
  else if entries.any fun e => e.principal != principal then (cm, .error .nfs4errClidInuse)
  else
    let older := entries.reverse.find? fun e => e.confirmed && e.setclientidConfirm != token
    let db := older.elim cm.db fun o =>
      cm.db.erase fun e => e.setclientidConfirm == o.setclientidConfirm
    match entries.reverse.find? fun e => e.setclientidConfirm == token with
    | some entry =>
      let db := modify db (fun e => e.setclientidConfirm == token)
        (fun e => { e with confirmed := true }) fun _ => rfl
      ({ cm with db := db }, .ok { entry with confirmed := true })
    | none => ({ cm with db := db }, .error .nfs4errStaleClientid)

/-! ### Leases -/

/-- `renew_leases`. -/
def renewLeases (cm : ClientManager) (now : ℕ) (clientId : UInt64) :
    ClientManager × Except NfsStat4 Unit :=
  let entries := cm.db.select fun e => e.clientid == clientId
  if entries.isEmpty then (cm, .error .nfs4errStaleClientid)
  else if entries.any fun e => e.confirmed && e.courtesy && decide (e.elapsed now > cm.leaseTime * 2)
  then (cm, .error .nfs4errExpired)
  else
    let db := modify cm.db (fun e => e.clientid == clientId)
      (fun e => { e with lastRenewed := now, courtesy := false }) fun _ => rfl
    ({ cm with db := db }, .ok ())

/-- The lease of a client has just run out. -/
def lapses (cm : ClientManager) (now : ℕ) (e : ClientEntry) : Bool :=
  e.confirmed && (decide (e.elapsed now ≥ cm.leaseTime) && !e.courtesy)

/-- The time of grace after it has run out too. -/
def expires (cm : ClientManager) (now : ℕ) (e : ClientEntry) : Bool :=
  e.confirmed && (e.courtesy && decide (e.elapsed now ≥ cm.leaseTime * 2))

/-- `sweep_leases`: clients whose lease has run out are marked, and those that were marked long ago
are removed. Returns the ids of the latter. -/
def sweepLeases (cm : ClientManager) (now : ℕ) : ClientManager × List UInt64 :=
  let lapsed := (cm.db.select (cm.lapses now)).map ClientEntry.clientid
  let expired := (cm.db.select (cm.expires now)).map ClientEntry.clientid
  let db := modify cm.db (fun e => lapsed.contains e.clientid)
    (fun e => { e with courtesy := true }) fun _ => rfl
  ({ cm with db := db.erase fun e => expired.contains e.clientid }, expired)

/-- `is_courtesy_client`. -/
def isCourtesyClient (cm : ClientManager) (clientId : UInt64) : Bool :=
  (cm.db.select fun e => e.clientid == clientId).any ClientEntry.courtesy

/-- `revoke_courtesy_client`. -/
def revokeCourtesyClient (cm : ClientManager) (clientId : UInt64) : ClientManager :=
  { cm with db := cm.db.erase fun e => e.clientid == clientId }

/-! ### Recovery -/

/-- One record of `restore_clients`. -/
def restoreClient (now : ℕ) (cm : ClientManager) (snap : ClientSnapshot × ConfirmToken) :
    Option ClientManager :=
  if !snap.1.confirmed then some cm
  else do
    let db ← cm.db.insert ⟨snap.1.principal, snap.1.verifier, snap.1.id, snap.1.clientid,
      snap.1.callback, snap.2, true, now, false⟩
    pure { cm with
      db := db
      clientIdSeq := if snap.1.clientid ≥ cm.clientIdSeq then snap.1.clientid + 1
        else cm.clientIdSeq }

/-- `restore_clients`, with a token for each record. -/
def restoreClients (now : ℕ) (cm : ClientManager) (clients : List (ClientSnapshot × ConfirmToken)) :
    Option ClientManager :=
  clients.foldlM (restoreClient now) cm

end ClientManager

end NextNfs
