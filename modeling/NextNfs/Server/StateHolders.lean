import NextNfs.Lib.Run
import NextNfs.Server.ByteRangeLocks
import NextNfs.Server.CheckedObject
import NextNfs.Server.ClientTable
import NextNfs.Server.StateOps

set_option relaxedAutoImplicit false
set_option autoImplicit false

/-!
# The holders of opens and locks

The records of clients are in the client manager, the opens and the locks of clients in the lock
tables of the exports. This module puts them together and is about whether the opens and locks go
when their client goes, or closes the file.

## Main definitions

* `NextNfs.FileManagerActor.entryOf` — the entry that a message inserts into the lock table.
* `NextNfs.StateHolders.Server`, `NextNfs.StateHolders.Server.step` — a client manager and the file
  managers of all exports.
* `NextNfs.StateHolders.Follows` — a client that was removed holds nothing, and one that closed a
  file holds nothing on it.
* `NextNfs.StateHolders.Releases` — the steps that leave nothing behind.

## Main results

* `NextNfs.FileManagerActor.handleMessage_inserts` — a message inserts its entry, or nothing.
* `NextNfs.StateHolders.follows_of_step` — when a step leaves nothing behind.
* `NextNfs.StateHolders.holds_follows_iff` — when a run does.

## Implementation notes

A LOCK by an existing lock owner, which names itself by a stateid, is recorded under client id 0.
The server here remembers the owner that held the stateid.
-/

namespace NextNfs

open Wire LockTable

/-! ### What a message inserts -/

namespace FileManagerActor

variable {F : Type} [FileSystem F]

/-- The entry that a message inserts into the lock table, once it has a stateid: an open of a file
that is found or could be created, or a lock that no entry stands in the way of. -/
def entryOf (order : List LockingState → List LockingState) (a : FileManagerActor F) :
    FileManagerMessage → Option (StateidOther → LockingState)
  | .createFile path clientId owner shareAccess shareDeny =>
    (a.toFileManager.createFile path).map fun created stateid =>
      .newSharedReservation created.2.id stateid clientId owner shareAccess shareDeny
  | .createOpenState path clientId owner shareAccess shareDeny =>
    some fun stateid => .newSharedReservation (a.toFileManager.getFilehandle path).2.id stateid
      clientId owner shareAccess shareDeny
  | .lockFile id clientId owner lockType offset length =>
    match a.locks.firstConflict order id clientId owner lockType offset length with
    | some _ => none
    | none => some fun stateid =>
      .newByteRangeLock id stateid clientId owner lockType offset length
  | _ => none

/-- The entry that a message inserts, under the next stateid. -/
def nextEntry (order : List LockingState → List LockingState) (a : FileManagerActor F)
    (msg : FileManagerMessage) : Option LockingState :=
  (a.entryOf order msg).map fun entry => entry (lockingstateId a.locks.nextStateidId)

variable {order : List LockingState → List LockingState} {a : FileManagerActor F}
  {msg : FileManagerMessage}

/-- The entry that a message inserts is under the stateid that it gets. -/
lemma stateid_of_entryOf {entry : StateidOther → LockingState}
    (h : a.entryOf order msg = some entry) (stateid : StateidOther) :
    (entry stateid).stateid = stateid := by
  unfold entryOf at h
  split at h
  · obtain ⟨created, -, rfl⟩ := Option.map_eq_some_iff.1 h
    rfl
  · cases h
    rfl
  · split at h
    · cases h
    · cases h
      rfl
  · cases h

/-- A message that inserts nothing may remove entries. -/
lemma handleMessage_inserts {res : FileManagerActor F × msg.Reply}
    (h : a.handleMessage order msg = some res) :
    (a.entryOf order msg = none ∧ ∀ e ∈ res.1.locks.lockdb, e ∈ a.locks.lockdb) ∨
    ∃ entry, a.entryOf order msg = some entry ∧ a.locks.insertNew entry = some res.1.locks := by
  have hsame : ∀ {t : LockTable}, t = a.locks → ∀ e ∈ t.lockdb, e ∈ a.locks.lockdb := by
    rintro t rfl e he
    exact he
  have herase : ∀ (p : LockingState → Bool), ∀ e ∈ a.locks.lockdb.erase p, e ∈ a.locks.lockdb :=
    fun p e he => (Table.mem_erase.1 he).1
  cases msg with
  | getRootFilehandle =>
    obtain rfl := Option.some.inj h
    exact Or.inl ⟨rfl, hsame (FileManager.sameWorld_getFilehandle _ _).locks⟩
  | getFilehandle path filehandle =>
    rcases filehandle with _ | id
    · rcases path with _ | path
      · obtain rfl := Option.some.inj h
        exact Or.inl ⟨rfl, hsame (FileManager.sameWorld_getFilehandle _ _).locks⟩
      · obtain rfl := Option.some.inj h
        exact Or.inl ⟨rfl, hsame (FileManager.sameWorld_getFilehandleForPath _ _).locks⟩
    · obtain rfl := Option.some.inj h
      exact Or.inl ⟨rfl, hsame (FileManager.sameWorld_getFilehandleForId _ _).locks⟩
  | getFilehandleAttrs id =>
    obtain rfl := Option.some.inj h
    exact Or.inl ⟨rfl, hsame (FileManager.sameWorld_filehandleAttrs _ _).locks⟩
  | createFile path clientId owner shareAccess shareDeny =>
    obtain ⟨⟨fm, res⟩, hcreate, heq⟩ := Option.bind_eq_some_iff.1 h
    cases heq
    obtain ⟨hnone, rfl, -⟩ | ⟨created, lock, fh, hsome, -, hinsert, -⟩ :=
      createFileMsg_eq_some hcreate
    · left
      refine ⟨?_, hsame rfl⟩
      show (a.toFileManager.createFile path).map _ = none
      rw [hnone]
      rfl
    · right
      refine ⟨_, ?_, hinsert⟩
      show (a.toFileManager.createFile path).map _ = _
      rw [hsome]
      rfl
  | createOpenState path clientId owner shareAccess shareDeny =>
    obtain ⟨⟨fm, lock⟩, hopen, heq⟩ := Option.bind_eq_some_iff.1 h
    cases heq
    exact Or.inr ⟨_, rfl, (createOpenState_eq_some hopen).1⟩
  | lockFile id clientId owner lockType offset length =>
    obtain ⟨⟨t, result⟩, hlock, heq⟩ := Option.bind_eq_some_iff.1 h
    cases heq
    unfold LockTable.handleLock at hlock
    unfold entryOf
    split at hlock
    · rename_i lock hfirst
      cases hlock
      left
      dsimp only
      rw [hfirst]
      exact ⟨rfl, hsame rfl⟩
    · rename_i hfirst
      obtain ⟨t₁, hinsert, heq⟩ := Option.bind_eq_some_iff.1 hlock
      cases heq
      right
      dsimp only
      rw [hfirst]
      exact ⟨_, rfl, hinsert⟩
  | unlockFile stateid offset length =>
    obtain rfl := Option.some.inj h
    refine Or.inl ⟨rfl, fun e he => ?_⟩
    dsimp only [LockTable.handleUnlock] at he
    split at he
    · exact herase _ e he
    · exact he
  | testLock id clientId owner lockType offset length =>
    obtain rfl := Option.some.inj h
    exact Or.inl ⟨rfl, hsame rfl⟩
  | releaseLockOwner clientId owner =>
    obtain rfl := Option.some.inj h
    exact Or.inl ⟨rfl, herase _⟩
  | renamePath oldPath newPath newVfsPath =>
    obtain rfl := Option.some.inj h
    exact Or.inl ⟨rfl, hsame (FileManager.handleRenamePath_locks _ _ _)⟩
  | closeFile stateid =>
    obtain rfl := Option.some.inj h
    exact Or.inl ⟨rfl, herase _⟩
  | removeFile path =>
    obtain rfl := Option.some.inj h
    refine Or.inl ⟨rfl, fun e he => @mem_of_mem_removeFile F _ a.toFileManager path e ?_⟩
    rw [← removeFile_locks]
    exact he
  | touchFile id =>
    obtain rfl := Option.some.inj h
    exact Or.inl ⟨rfl, hsame (FileManager.sameWorld_touchFile _ _).locks⟩
  | getWriteCacheHandle fh =>
    obtain rfl := Option.some.inj h
    exact Or.inl ⟨rfl, hsame (getCacheHandle_locks _ _)⟩
  | dropWriteCacheHandle id =>
    obtain rfl := Option.some.inj h
    exact Or.inl ⟨rfl, hsame (FileManager.sameWorld_dropCacheHandle _ _).locks⟩
  | updateFilehandle fh =>
    obtain rfl := Option.some.inj h
    exact Or.inl ⟨rfl, hsame rfl⟩
  | openNamedAttrDir fileid createdir =>
    obtain rfl := Option.some.inj h
    exact Or.inl ⟨rfl, hsame (FileManager.openNamedAttrDir_locks _ _ _)⟩
  | grantDelegation id clientId isWrite =>
    obtain rfl := Option.some.inj h
    refine Or.inl ⟨rfl, fun e he => ?_⟩
    unfold grantDelegation at he
    split at he
    · split_ifs at he <;> exact he
    · exact he
  | returnDelegation id stateid =>
    obtain rfl := Option.some.inj h
    exact Or.inl ⟨rfl, hsame (returnDelegation_locks _ _ _)⟩
  | getDelegation id =>
    obtain rfl := Option.some.inj h
    exact Or.inl ⟨rfl, hsame rfl⟩

end FileManagerActor

namespace StateHolders

open ClientTable ClientManager FileManagerActor

variable {F : Type}

/-! ### The server -/

/-- The client manager and the file managers of the exports, with what happened to the clients. -/
structure Server (F : Type) where
  clients : ClientManager
  exports : UInt8 → FileManagerActor F
  /-- The owners of the locks that were taken by an existing lock owner. -/
  again : UInt8 → StateidOther → Option (UInt64 × Bytes)
  /-- The clients that were removed, and are not known again. -/
  purged : Set UInt64
  /-- The files that clients closed, and did not open again, by export. -/
  closed : Set (UInt8 × UInt64 × NfsFh4)

/-- What happens to the server: messages, LOCKs by an existing lock owner, and what happens outside.
The lock owner of such a LOCK is named by a stateid. -/
inductive Act (F : Type)
  | client (call : ClientCall)
  | sweepLeases (now : ℕ)
  | revokeCourtesyClient (clientId : UInt64)
  | message (x : UInt8) (order : List LockingState → List LockingState) (msg : FileManagerMessage)
  | lockAgain (x : UInt8) (order : List LockingState → List LockingState) (id : NfsFh4)
      (stateid : StateidOther) (lockType : NfsLockType4) (offset length : UInt64)
  | sweepPendingDeletes (x : UInt8) (ids : List NfsFh4)
  | outside (x : UInt8) (fs : F) (now : ℕ)

namespace Server

/-- The entries of an export. -/
def entries (s : Server F) (x : UInt8) : LockingStateDb := (s.exports x).locks.lockdb

/-- The owner that an entry is of, with its client. -/
def ownerOf (s : Server F) (x : UInt8) (e : LockingState) : UInt64 × Bytes :=
  (s.again x e.stateid).getD (e.clientId, e.owner)

/-- The client that an entry is of. -/
def holderOf (s : Server F) (x : UInt8) (e : LockingState) : UInt64 := (s.ownerOf x e).1

/-- The export, the client and the file that an entry is about. -/
def key (s : Server F) (x : UInt8) (e : LockingState) : UInt8 × UInt64 × NfsFh4 :=
  (x, s.holderOf x e, e.filehandleId)

/-- A client has a file open. -/
def HasOpen (s : Server F) (k : UInt8 × UInt64 × NfsFh4) : Prop :=
  ∃ e ∈ s.entries k.1, e.lockType = .openLock ∧ s.key k.1 e = k

/-- A client holds nothing. -/
def HoldsNothing (s : Server F) (c : UInt64) : Prop :=
  ∀ x, ∀ e ∈ s.entries x, s.holderOf x e ≠ c

/-- The owner of the entry under a stateid. -/
def ownerAt (s : Server F) (x : UInt8) (stateid : StateidOther) : Option (UInt64 × Bytes) :=
  ((s.entries x).find? fun e => e.stateid == stateid).map (s.ownerOf x)

/-- The server after the client manager has handled a message and removed some clients. -/
def withClients (s : Server F) (cm : ClientManager) (removed : Set UInt64) : Server F :=
  { s with
    clients := cm
    purged := {c | (c ∈ s.purged ∨ c ∈ removed) ∧ ∀ e ∈ cm.db, e.clientid ≠ c} }

/-- The server after a file manager has handled a message; `label` is the owner of the entry that
was inserted, if any, where that is not the one it names, and `closes` says that it was a CLOSE. -/
def withExport (s : Server F) (x : UInt8) (a : FileManagerActor F)
    (label : Option (Option (UInt64 × Bytes))) (closes : Bool) : Server F :=
  let stateid := lockingstateId (s.exports x).locks.nextStateidId
  let s' := { s with
    exports := Function.update s.exports x a
    again := label.elim s.again fun c =>
      Function.update s.again x (Function.update (s.again x) stateid c) }
  { s' with closed := {k | ¬ s'.HasOpen k ∧ (k ∈ s.closed ∨ closes = true ∧ s.HasOpen k)} }

/-- A message is a CLOSE. -/
def isClose : FileManagerMessage → Bool
  | .closeFile _ => true
  | _ => false

/-- The message of a LOCK by an existing lock owner. -/
def lockAgainMsg (id : NfsFh4) (stateid : StateidOther) (lockType : NfsLockType4)
    (offset length : UInt64) : FileManagerMessage :=
  .lockFile id 0 stateid.toList lockType offset length

variable [FileSystem F]

/-- A server that starts with some clients, but no opens or locks. -/
def start (cm : ClientManager) (fs : UInt8 → F) (now : ℕ) : Server F :=
  ⟨cm, fun x => .new (fs x) now (some x.toUInt64), fun _ _ => none, ∅, ∅⟩

/-- A step of the server. -/
def step (s : Server F) : Act F → Option (Server F)
  | .client call => (call.execute s.clients).map fun r => s.withClients r.1 ∅
  | .sweepLeases now =>
    let (cm, expired) := s.clients.sweepLeases now
    some (s.withClients cm {c | c ∈ expired})
  | .revokeCourtesyClient clientId =>
    some (s.withClients (s.clients.revokeCourtesyClient clientId)
      {c | c = clientId ∧ ∃ e ∈ s.clients.db, e.clientid = c})
  | .message x order msg =>
    ((s.exports x).handleMessage order msg).map fun res =>
      s.withExport x res.1 (((s.exports x).entryOf order msg).map fun _ => none) (isClose msg)
  | .lockAgain x order id stateid lockType offset length =>
    let msg := lockAgainMsg id stateid lockType offset length
    ((s.exports x).handleMessage order msg).map fun res =>
      s.withExport x res.1 (((s.exports x).entryOf order msg).map fun _ => s.ownerAt x stateid) false
  | .sweepPendingDeletes x ids =>
    some (s.withExport x ((s.exports x).sweepPendingDeletes ids) none false)
  | .outside x fs now => some (s.withExport x { s.exports x with fs := fs, now := now } none false)

end Server

/-! ### What holds, and when -/

/-- A client that was removed holds nothing, and one that closed a file holds nothing on it. -/
structure Follows (s : Server F) : Prop where
  purged : ∀ x, ∀ e ∈ s.entries x, s.holderOf x e ∉ s.purged
  closed : ∀ x, ∀ e ∈ s.entries x, s.key x e ∉ s.closed

/-- A CLOSE ends the last open that a client has of a file only when that is all it holds on it. -/
def ClosesAll (s : Server F) (x : UInt8) (stateid : StateidOther) : Prop :=
  ∀ e ∈ s.entries x, e.stateid = stateid → e.lockType = .openLock →
    (∀ e' ∈ s.entries x, e'.lockType = .openLock → s.key x e' = s.key x e → e' = e) →
    ∀ e' ∈ s.entries x, s.key x e' = s.key x e → e' = e

/-- An entry may be inserted for a client: it was not removed and, for a lock, did not close the
file. -/
def Admits (s : Server F) (x : UInt8) (c : UInt64) (e : LockingState) : Prop :=
  c ∉ s.purged ∧ (e.lockType = .byteRange → (x, c, e.filehandleId) ∉ s.closed)

/-- The steps that leave nothing behind: clients are removed when they hold nothing, a file is
closed when nothing else is held on it, and nothing is granted to a client that was removed, and no
lock to one that closed the file. -/
def Releases [FileSystem F] (s : Server F) : Act F → Prop
  | .sweepLeases now => ∀ e ∈ s.clients.db, s.clients.expires now e = true →
    s.HoldsNothing e.clientid
  | .revokeCourtesyClient clientId => (∃ e ∈ s.clients.db, e.clientid = clientId) →
    s.HoldsNothing clientId
  | .message x order msg =>
    (∀ e, (s.exports x).nextEntry order msg = some e → Admits s x e.clientId e) ∧
    ∀ stateid, msg = .closeFile stateid → ClosesAll s x stateid
  | .lockAgain x order id stateid lockType offset length =>
    ∀ e, (s.exports x).nextEntry order
        (Server.lockAgainMsg id stateid lockType offset length) = some e →
      Admits s x ((s.ownerAt x stateid).getD (e.clientId, e.owner)).1 e
  | _ => True

/-! ### Steps -/

variable {s s' : Server F} {x : UInt8} {a : FileManagerActor F}

/-- An open says that it is not closed. -/
lemma Follows.not_closed (h : Follows s) {k : UInt8 × UInt64 × NfsFh4} (hopen : s.HasOpen k) :
    k ∉ s.closed := by
  obtain ⟨e, he, -, hkey⟩ := hopen
  have hnot := h.closed k.1 e he
  rw [hkey] at hnot
  exact hnot

/-- Only the clients that are removed can hold something that they should not. -/
lemma follows_withClients (h : Follows s) {cm : ClientManager} {removed : Set UInt64} :
    Follows (s.withClients cm removed) ↔
      ∀ c ∈ removed, (∀ e ∈ cm.db, e.clientid ≠ c) → s.HoldsNothing c := by
  constructor
  · intro h' c hc hknown y e he heq
    apply h'.purged y e he
    show s.holderOf y e ∈ (s.withClients cm removed).purged
    rw [heq]
    exact ⟨Or.inr hc, hknown⟩
  · intro hnothing
    refine ⟨fun y e he => ?_, h.closed⟩
    rintro ⟨hold | hnew, hknown⟩
    · exact h.purged y e he hold
    · exact hnothing _ hnew hknown y e he rfl

lemma entries_withExport_same {label : Option (Option (UInt64 × Bytes))} {closes : Bool} :
    (s.withExport x a label closes).entries x = a.locks.lockdb := by
  show (Function.update s.exports x a x).locks.lockdb = _
  rw [Function.update_self]

lemma entries_withExport_of_ne {label : Option (Option (UInt64 × Bytes))} {closes : Bool} {y : UInt8}
    (hne : y ≠ x) : (s.withExport x a label closes).entries y = s.entries y := by
  show (Function.update s.exports x a y).locks.lockdb = _
  rw [Function.update_of_ne hne]
  rfl

/-- The files that are closed after a message. -/
lemma mem_closed_withExport {label : Option (Option (UInt64 × Bytes))} {closes : Bool}
    {k : UInt8 × UInt64 × NfsFh4} :
    k ∈ (s.withExport x a label closes).closed ↔
      ¬ (s.withExport x a label closes).HasOpen k ∧
        (k ∈ s.closed ∨ closes = true ∧ s.HasOpen k) := Iff.rfl

/-- When entries only go, what is left is to be of clients that did not just close the file. -/
lemma follows_withExport_of_subset (h : Follows s) {closes : Bool}
    (hsub : ∀ e ∈ a.locks.lockdb, e ∈ s.entries x) :
    Follows (s.withExport x a none closes) ↔
      (closes = true → ∀ e ∈ a.locks.lockdb, s.HasOpen (s.key x e) →
        ∃ e' ∈ a.locks.lockdb, e'.lockType = .openLock ∧ s.key x e' = s.key x e) := by
  have hopen : ∀ k : UInt8 × UInt64 × NfsFh4, k.1 = x →
      ((s.withExport x a none closes).HasOpen k ↔
        ∃ e' ∈ a.locks.lockdb, e'.lockType = .openLock ∧ s.key x e' = k) := by
    rintro k rfl
    unfold Server.HasOpen
    rw [entries_withExport_same]
    rfl
  constructor
  · intro h' hcloses e he hhas
    by_contra hnot
    have he' : e ∈ (s.withExport x a none closes).entries x := by
      rw [entries_withExport_same]
      exact he
    refine h'.closed x e he' (mem_closed_withExport.2 ⟨?_, Or.inr ⟨hcloses, hhas⟩⟩)
    intro hstill
    exact hnot ((hopen (s.key x e) rfl).1 hstill)
  · intro hclosed
    have hold : ∀ y, ∀ e ∈ (s.withExport x a none closes).entries y, e ∈ s.entries y := by
      intro y e he
      by_cases hy : y = x
      · subst hy
        rw [entries_withExport_same] at he
        exact hsub e he
      · rw [entries_withExport_of_ne hy] at he
        exact he
    refine ⟨fun y e he => h.purged y e (hold y e he), fun y e he hclose => ?_⟩
    obtain ⟨hnot, hkey | ⟨hcloses, hhas⟩⟩ := mem_closed_withExport.1 hclose
    · exact h.closed y e (hold y e he) hkey
    · by_cases hy : y = x
      · subst hy
        rw [entries_withExport_same] at he
        exact hnot ((hopen (s.key y e) rfl).2 (hclosed hcloses e he hhas))
      · obtain ⟨e₁, he₁, hlock, hkey⟩ := hhas
        refine hnot ⟨e₁, ?_, hlock, hkey⟩
        show e₁ ∈ (s.withExport x a none closes).entries y
        rw [entries_withExport_of_ne hy]
        exact he₁

/-- When an entry is inserted, its client is to be one that it may be inserted for. -/
lemma follows_withExport_of_insert (h : Follows s) {entry : StateidOther → LockingState}
    (hinsert : (s.exports x).locks.insertNew entry = some a.locks)
    (hentry : ∀ stateid, (entry stateid).stateid = stateid) {new : LockingState}
    (hnew : entry (lockingstateId (s.exports x).locks.nextStateidId) = new)
    (label : Option (UInt64 × Bytes)) :
    Follows (s.withExport x a (some label) false) ↔
      Admits s x (label.getD (new.clientId, new.owner)).1 new := by
  have hmem := (of_insertNew hinsert).2
  have hfresh := ne_of_insertNew hinsert
  rw [hnew] at hmem hfresh
  have hstateid : new.stateid = lockingstateId (s.exports x).locks.nextStateidId := by
    rw [← hnew, hentry]
  -- the entries from before have the clients they had
  have hholder : ∀ y, ∀ e ∈ s.entries y,
      (s.withExport x a (some label) false).holderOf y e = s.holderOf y e := by
    intro y e he
    show ((Function.update s.again x (Function.update (s.again x) _ label) y e.stateid).getD _).1 = _
    by_cases hy : y = x
    · subst hy
      rw [Function.update_self, Function.update_of_ne]
      · rfl
      · intro heq
        exact hfresh e he (heq.trans hstateid.symm)
    · rw [Function.update_of_ne hy]
      rfl
  have hkeys : ∀ y, ∀ e ∈ s.entries y,
      (s.withExport x a (some label) false).key y e = s.key y e := by
    intro y e he
    unfold Server.key
    rw [hholder y e he]
  have hlabel : (s.withExport x a (some label) false).holderOf x new =
      (label.getD (new.clientId, new.owner)).1 := by
    show ((Function.update s.again x (Function.update (s.again x) _ label) x new.stateid).getD _).1 = _
    rw [Function.update_self, hstateid, Function.update_self]
  have hin : new ∈ (s.withExport x a (some label) false).entries x := by
    rw [entries_withExport_same]
    exact (hmem new).2 (Or.inr rfl)
  have hcases : ∀ y, ∀ e ∈ (s.withExport x a (some label) false).entries y,
      e ∈ s.entries y ∨ (y = x ∧ e = new) := by
    intro y e he
    by_cases hy : y = x
    · subst hy
      rw [entries_withExport_same] at he
      exact ((hmem e).1 he).imp_right fun heq => ⟨rfl, heq⟩
    · rw [entries_withExport_of_ne hy] at he
      exact Or.inl he
  have hkey : (s.withExport x a (some label) false).key x new =
      (x, (label.getD (new.clientId, new.owner)).1, new.filehandleId) := by
    unfold Server.key
    rw [hlabel]
  constructor
  · intro h'
    refine ⟨fun hpurged => h'.purged x new hin ?_, fun hrange hclosed => h'.closed x new hin ?_⟩
    · rw [hlabel]
      exact hpurged
    · rw [hkey, mem_closed_withExport]
      refine ⟨?_, Or.inl hclosed⟩
      rintro ⟨e, he, hopen, heq⟩
      rcases hcases x e he with hold | ⟨-, rfl⟩
      · apply h.closed x e hold
        have hsame : s.key x e = (x, (label.getD (new.clientId, new.owner)).1, new.filehandleId) := by
          rw [← heq, hkeys x e hold]
        rw [hsame]
        exact hclosed
      · rw [hopen] at hrange
        cases hrange
  · rintro ⟨hpurged, hclosed⟩
    refine ⟨fun y e he => ?_, fun y e he => ?_⟩
    · rcases hcases y e he with hold | ⟨rfl, rfl⟩
      · rw [hholder y e hold]
        exact h.purged y e hold
      · rw [hlabel]
        exact hpurged
    · intro hclose
      obtain ⟨hnot, hkeyclosed | ⟨hfalse, -⟩⟩ := mem_closed_withExport.1 hclose
      · rcases hcases y e he with hold | ⟨rfl, rfl⟩
        · rw [hkeys y e hold] at hkeyclosed
          exact h.closed y e hold hkeyclosed
        · rw [hkey] at hkeyclosed
          cases hlock : e.lockType with
          | openLock => exact hnot ⟨e, hin, hlock, rfl⟩
          | byteRange => exact hclosed hlock hkeyclosed
      · cases hfalse

/-- After a CLOSE, a client that has no open of a file holds nothing on it, exactly when the open
that was closed was all that its client held. -/
lemma closed_iff_closesAll (s : Server F) (x : UInt8) (stateid : StateidOther) :
    (∀ e ∈ ((s.exports x).closeFile stateid).locks.lockdb, s.HasOpen (s.key x e) →
        ∃ e' ∈ ((s.exports x).closeFile stateid).locks.lockdb, e'.lockType = .openLock ∧
          s.key x e' = s.key x e) ↔
      ClosesAll s x stateid := by
  have hmem : ∀ e, e ∈ ((s.exports x).closeFile stateid).locks.lockdb ↔
      e ∈ s.entries x ∧ e.stateid ≠ stateid := by
    intro e
    refine Table.mem_erase.trans (and_congr_right fun _ => ?_)
    simp
  constructor
  · intro hclosed e he hstateid hopen honly e' he' hkey
    by_contra hne
    have hother : e'.stateid ≠ stateid := fun heq =>
      hne (LockTable.eq_of_stateid_eq he' he (heq.trans hstateid.symm))
    obtain ⟨e₁, he₁, hopen₁, hkey₁⟩ :=
      hclosed e' ((hmem e').2 ⟨he', hother⟩) ⟨e, he, hopen, hkey.symm⟩
    obtain ⟨hin, hne₁⟩ := (hmem e₁).1 he₁
    have heq := honly e₁ hin hopen₁ (hkey₁.trans hkey)
    exact hne₁ (by rw [heq, hstateid])
  · rintro hall e he ⟨e₁, he₁, hopen₁, hkey₁⟩
    obtain ⟨hin, hother⟩ := (hmem e).1 he
    by_contra hnot
    -- the open under the stateid is the last one, and the entry is another of the same client
    have hlast : ∀ e' ∈ s.entries x, e'.lockType = .openLock → s.key x e' = s.key x e →
        e'.stateid = stateid := by
      intro e' he' hopen' hkey'
      by_contra hne
      exact hnot ⟨e', (hmem e').2 ⟨he', hne⟩, hopen', hkey'⟩
    have hstateid := hlast e₁ he₁ hopen₁ hkey₁
    have heq := hall e₁ he₁ hstateid hopen₁ (fun e' he' hopen' hkey' =>
      LockTable.eq_of_stateid_eq he' he₁
        ((hlast e' he' hopen' (hkey'.trans hkey₁)).trans hstateid.symm)) e hin hkey₁.symm
    exact hother (by rw [heq, hstateid])

/-- A message that closes nothing and inserts nothing leaves nothing behind. -/
lemma follows_of_subset (h : Follows s) (hsub : ∀ e ∈ a.locks.lockdb, e ∈ s.entries x) :
    Follows (s.withExport x a none false) :=
  (follows_withExport_of_subset h hsub).2 fun hfalse => by cases hfalse

variable [FileSystem F]

/-- One message to a file manager. -/
lemma follows_of_message (h : Follows s) {order : List LockingState → List LockingState}
    {msg : FileManagerMessage} (hstep : s.step (.message x order msg) = some s') :
    Follows s' ↔ Releases s (.message x order msg) := by
  obtain ⟨res, hmsg, rfl⟩ := Option.map_eq_some_iff.1 hstep
  obtain ⟨hnone, hsub⟩ | ⟨entry, hsome, hinsert⟩ := handleMessage_inserts hmsg
  · have hnext : (s.exports x).nextEntry order msg = none := by
      unfold nextEntry
      rw [hnone]
      rfl
    rw [hnone]
    apply (follows_withExport_of_subset h hsub).trans
    cases msg with
    | closeFile stateid =>
      cases hmsg
      constructor
      · intro hclosed
        refine ⟨fun e he => ?_, fun stateid' heq => ?_⟩
        · rw [hnext] at he
          cases he
        · cases heq
          exact (closed_iff_closesAll s x stateid).1 (hclosed rfl)
      · intro hreleases _
        exact (closed_iff_closesAll s x stateid).2 (hreleases.2 stateid rfl)
    | _ =>
      refine iff_of_true (fun hfalse => by cases hfalse) ⟨fun e he => ?_, ?_⟩
      · rw [hnext] at he
        cases he
      · rintro stateid ⟨⟩
  · have hnext : (s.exports x).nextEntry order msg =
        some (entry (lockingstateId (s.exports x).locks.nextStateidId)) := by
      unfold nextEntry
      rw [hsome]
      rfl
    have hclose : Server.isClose msg = false := by
      cases msg with
      | closeFile stateid => cases hsome
      | _ => rfl
    rw [hsome, hclose]
    apply (follows_withExport_of_insert h hinsert (stateid_of_entryOf hsome) rfl none).trans
    constructor
    · intro hadmits
      refine ⟨fun e he => ?_, fun stateid heq => ?_⟩
      · rw [hnext] at he
        cases he
        exact hadmits
      · subst heq
        cases hsome
    · intro hreleases
      exact hreleases.1 _ hnext

/-- A LOCK by an existing lock owner. -/
lemma follows_of_lockAgain (h : Follows s) {order : List LockingState → List LockingState}
    {id : NfsFh4} {stateid : StateidOther} {lockType : NfsLockType4} {offset length : UInt64}
    (hstep : s.step (.lockAgain x order id stateid lockType offset length) = some s') :
    Follows s' ↔ Releases s (.lockAgain x order id stateid lockType offset length) := by
  obtain ⟨res, hmsg, rfl⟩ := Option.map_eq_some_iff.1 hstep
  obtain ⟨hnone, hsub⟩ | ⟨entry, hsome, hinsert⟩ := handleMessage_inserts hmsg
  · rw [hnone]
    refine iff_of_true (follows_of_subset h hsub) fun e he => ?_
    unfold nextEntry at he
    rw [hnone] at he
    cases he
  · have hnext : (s.exports x).nextEntry order
        (Server.lockAgainMsg id stateid lockType offset length) =
        some (entry (lockingstateId (s.exports x).locks.nextStateidId)) := by
      unfold nextEntry
      rw [hsome]
      rfl
    rw [hsome]
    apply (follows_withExport_of_insert h hinsert (stateid_of_entryOf hsome) rfl _).trans
    constructor
    · intro hadmits e he
      rw [hnext] at he
      cases he
      exact hadmits
    · intro hreleases
      exact hreleases _ hnext

/-- A step leaves nothing behind exactly when it releases what its clients hold. -/
lemma follows_of_step (h : Follows s) {b : Act F} (hstep : s.step b = some s') :
    Follows s' ↔ Releases s b := by
  cases b with
  | client call =>
    obtain ⟨res, -, rfl⟩ := Option.map_eq_some_iff.1 hstep
    refine iff_of_true ((follows_withClients h).2 ?_) trivial
    rintro c ⟨⟩
  | sweepLeases now =>
    cases hstep
    apply (follows_withClients h).trans
    constructor
    · intro hnothing e he hexpires
      have hexpired : e.clientid ∈ (s.clients.sweepLeases now).2 :=
        List.mem_map_of_mem (Table.mem_select.2 ⟨he, hexpires⟩)
      refine hnothing e.clientid hexpired fun e' he' heq => ?_
      have hkept : (s.clients.sweepLeases now).2.contains e'.clientid = false :=
        (Table.mem_erase.1 he').2
      rw [heq, List.contains_iff_mem.2 hexpired] at hkept
      cases hkept
    · intro hreleases c hc _
      obtain ⟨e, he, rfl⟩ := List.mem_map.1 hc
      obtain ⟨hdb, hexpires⟩ := Table.mem_select.1 he
      exact hreleases e hdb hexpires
  | revokeCourtesyClient clientId =>
    cases hstep
    apply (follows_withClients h).trans
    constructor
    · intro hnothing hknown
      refine hnothing clientId ⟨rfl, hknown⟩ fun e he heq => ?_
      have hkept := (Table.mem_erase.1 he).2
      simp [heq] at hkept
    · rintro hreleases c ⟨rfl, hknown⟩ -
      exact hreleases hknown
  | message x order msg => exact follows_of_message h hstep
  | lockAgain x order id stateid lockType offset length => exact follows_of_lockAgain h hstep
  | sweepPendingDeletes x ids =>
    cases hstep
    refine iff_of_true (follows_of_subset h fun e he => ?_) trivial
    rw [FileManagerActor.sweepPendingDeletes_locks] at he
    exact he
  | outside x fs now =>
    cases hstep
    exact iff_of_true (follows_of_subset h fun e he => he) trivial

/-- A server starts without entries. -/
lemma follows_start (cm : ClientManager) (fs : UInt8 → F) (now : ℕ) :
    Follows (Server.start cm fs now) := by
  have hempty : ∀ x e, ¬ e ∈ (Server.start cm fs now).entries x := by
    intro x e he
    have hlocks : (FileManagerActor.new (fs x) now (some x.toUInt64)).locks = LockTable.new :=
      (FileManager.sameWorld_getFilehandle _ _).locks
    rw [show (Server.start cm fs now).entries x = LockTable.new.lockdb from
      congrArg LockTable.lockdb hlocks] at he
    exact absurd he Table.not_mem_empty
  exact ⟨fun x e he => absurd he (hempty x e), fun x e he => absurd he (hempty x e)⟩

omit [FileSystem F] in
/-- Then no client that was removed, or has closed the file, makes the server deny a LOCK. -/
lemma Follows.not_denied (h : Follows s) {order : List LockingState → List LockingState}
    (horder : ∀ l, (order l).Perm l) {id : NfsFh4} {clientId : UInt64} {owner : Bytes}
    {lockType : NfsLockType4} {offset length : UInt64} {e : LockingState}
    (hfirst : (s.exports x).locks.firstConflict order id clientId owner lockType offset length =
      some e) : s.holderOf x e ∉ s.purged ∧ s.key x e ∉ s.closed := by
  have he : e ∈ s.entries x := by
    have hin := (horder _).mem_iff.1 (List.mem_of_find?_eq_some hfirst)
    exact (Table.mem_select.1 hin).1
  exact ⟨h.purged x e he, h.closed x e he⟩

omit [FileSystem F] in
/-- Nor does one keep a file that is removed from being deleted. -/
lemma Follows.hasLocks_eq_false (h : Follows s) {id : NfsFh4}
    (hgone : ∀ e ∈ s.entries x, e.filehandleId = id →
      s.holderOf x e ∈ s.purged ∨ s.key x e ∈ s.closed) :
    (s.exports x).locks.hasLocks id = false := by
  have hempty : (s.exports x).locks.lockdb.select (fun e => e.filehandleId == id) = [] := by
    apply List.eq_nil_iff_forall_not_mem.2
    intro e he
    obtain ⟨hin, hfile⟩ := Table.mem_select.1 he
    rcases hgone e hin (by simpa using hfile) with hpurged | hclosed
    · exact h.purged x e hin hpurged
    · exact h.closed x e hin hclosed
  unfold LockTable.hasLocks
  rw [hempty]
  rfl

/-- **State follows its holder.** In a run a client that was removed holds nothing in any export,
and one that closed a file holds nothing on it, exactly when clients are removed only when they hold
nothing, a file is closed by its last open only when nothing else is held on it, and nothing is
granted to a client that was removed, nor a lock to one that closed the file.

**Proof sketch.** A message inserts its entry under a stateid that was not in use, or only removes
entries; the client manager leaves the lock tables as they are. -/
theorem holds_follows_iff (cm : ClientManager) (fs : UInt8 → F) (now : ℕ) (as : List (Act F)) :
    Run.Holds Server.step Follows (Server.start cm fs now) as ↔
      Run.Meets Server.step Releases (Server.start cm fs now) as :=
  Run.holds_iff_meets (fun _ _ _ h hstep => follows_of_step h hstep) (follows_start cm fs now) as

section Examples

/-- A message to the first export. -/
def sends (msg : FileManagerMessage) : Act FlatFs := .message 1 (fun l => l) msg

lemma plain_sharedFile : ∀ c ∈ ["f"], PlainName c := by decide

/-- The file in it. -/
def sharedFile : VfsPath := ⟨["f"], plain_sharedFile⟩

/-- Client 1 opens a file, locks it and closes it; the lock stays. -/
theorem not_follows_closed_with_lock :
    ¬ Run.Holds Server.step Follows (Server.start .new (fun _ => sharedFs) 0)
      [sends (.createOpenState sharedFile 1 [1] 3 0),
        sends (.lockFile (inodeId 1 (64, 3)) 1 [1] .writeLt 0 10),
        sends (.closeFile (lockingstateId 100))] := by
  intro h
  have hrun : ∃ s, [sends (.createOpenState sharedFile 1 [1] 3 0),
        sends (.lockFile (inodeId 1 (64, 3)) 1 [1] .writeLt 0 10),
        sends (.closeFile (lockingstateId 100))].foldlM Server.step
          (Server.start .new (fun _ => sharedFs) 0) = some s ∧
      ∃ e, e ∈ s.entries 1 ∧ s.key 1 e ∈ s.closed := by
    refine ⟨_, rfl, _, List.mem_cons_self, ?_, Or.inr ⟨rfl, _, List.mem_cons_self, rfl, rfl⟩⟩
    rintro ⟨e, he, hopen, -⟩
    obtain rfl := List.mem_singleton.1 he
    cases hopen
  obtain ⟨s, hs, e, he, hclosed⟩ := hrun
  exact (h.last hs).closed 1 e he hclosed

end Examples

end StateHolders

end NextNfs
