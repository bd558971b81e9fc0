import NextNfs.Lib.Table
import NextNfs.Proto.Results

set_option relaxedAutoImplicit false
set_option autoImplicit false

/-!
# The lock table

This module models the locking part of the file manager: `filemanager/locking.rs`, the
functions `handle_lock`, `handle_unlock`, `handle_test_lock` and `handle_release_lock_owner` of
`filemanager/mod.rs`, and the operations LOCK, LOCKT, LOCKU and RELEASE_LOCKOWNER
(`nfs40/op_lock.rs` and its siblings) that call them. One table holds share reservations (from
OPEN) and byte-range locks.

## Main definitions

* `NextNfs.LockingState` — an entry, and `NextNfs.LockingState.conflictsWith`, the conflict test.
* `NextNfs.LockTable` — the entries and the counter for stateids.
* `NextNfs.LockTable.handleLock` and its siblings — the operations of the file manager.
* `NextNfs.Lock4args.execute` and its siblings — the operations of the protocol.
* `NextNfs.ByteLock` — what a byte-range lock says, and `NextNfs.InRange`, the positions it is
  about.

## Main results

* `NextNfs.LockingState.conflictsWith_iff` — the conflict test, in terms of positions: it never
  looks at the last one.
* `NextNfs.LockTable.handleLock_cases` — what LOCK can do.

## Implementation notes

An insertion under a stateid that is in use panics, and with it the file manager is gone. An
operation that panics has no result. The order in which the table lists the entries of one file
is not specified; it is the parameter `order`, and it matters only for which of several
conflicting locks a denial reports.
-/

namespace NextNfs

open Wire

/-! ### Entries -/

/-- The part of a stateid that identifies the state. -/
abbrev StateidOther := List.Vector UInt8 12

/-- `LockType`. -/
inductive LockType
  | openLock | byteRange
deriving DecidableEq

/-- `LockingState`: an entry of the lock table. Both ways to make one give a byte-range lock
its range and its type. -/
structure LockingState where
  stateid : StateidOther
  seqid : UInt32
  clientId : UInt64
  owner : Bytes
  lockType : LockType
  filehandleId : NfsFh4
  start : Option UInt64
  length : Option UInt64
  shareAccess : Option UInt32
  shareDeny : Option UInt32
  nfsLockType : Option NfsLockType4
  ranged : lockType = .byteRange →
    start.isSome = true ∧ length.isSome = true ∧ nfsLockType.isSome = true
deriving DecidableEq

/-- `LockingState::new_shared_reservation`. -/
def LockingState.newSharedReservation (filehandleId : NfsFh4) (stateid : StateidOther)
    (clientId : UInt64) (owner : Bytes) (shareAccess shareDeny : UInt32) : LockingState where
  stateid := stateid
  seqid := 1
  clientId := clientId
  owner := owner
  lockType := .openLock
  filehandleId := filehandleId
  start := none
  length := none
  shareAccess := some shareAccess
  shareDeny := some shareDeny
  nfsLockType := none
  ranged := nofun

/-- `LockingState::new_byte_range_lock`. -/
def LockingState.newByteRangeLock (filehandleId : NfsFh4) (stateid : StateidOther)
    (clientId : UInt64) (owner : Bytes) (lockType : NfsLockType4) (offset length : UInt64) :
    LockingState where
  stateid := stateid
  seqid := 1
  clientId := clientId
  owner := owner
  lockType := .byteRange
  filehandleId := filehandleId
  start := some offset
  length := some length
  shareAccess := none
  shareDeny := none
  nfsLockType := some lockType
  ranged := fun _ => ⟨rfl, rfl, rfl⟩

/-- Whether a lock type is one of the two write types. -/
def NfsLockType4.isWrite : NfsLockType4 → Bool
  | .writeLt | .writewLt => true
  | .readLt | .readwLt => false

/-- `u64::MAX`, the last position of a file. -/
def lastPosition : UInt64 := 0xFFFFFFFFFFFFFFFF

/-- `u64::saturating_add`. -/
def saturatingAdd (a b : UInt64) : UInt64 :=
  if a.toNat + b.toNat < 2 ^ 64 then a + b else lastPosition

/-- The end of a range in the conflict test, exclusive. Length 0 means to the end of the
file. -/
def rangeEnd (start length : UInt64) : UInt64 :=
  if length = 0 then lastPosition else saturatingAdd start length

/-- `LockingState::conflicts_with`: whether an entry stands in the way of a byte-range lock. -/
def LockingState.conflictsWith (e : LockingState) (offset length : UInt64)
    (lockType : NfsLockType4) (owner : Bytes) (clientId : UInt64) : Bool :=
  match e.lockType, e.start, e.length with
  | .byteRange, some myStart, some myLength =>
    if e.clientId = clientId ∧ e.owner = owner then false
    else
      let myEnd := rangeEnd myStart myLength
      let reqEnd := rangeEnd offset length
      if myStart ≥ reqEnd ∨ offset ≥ myEnd then false
      else e.nfsLockType.any NfsLockType4.isWrite || lockType.isWrite
  | _, _, _ => false

/-! ### The table -/

/-- `LockingStateDb`: the entries, under unique stateids. -/
abbrev LockingStateDb := Table LockingState fun a b => a.stateid == b.stateid

/-- The locking part of `FileManager`. -/
structure LockTable where
  lockdb : LockingStateDb
  nextStateidId : UInt64

/-- The table a file manager starts with. -/
def LockTable.new : LockTable := ⟨Table.empty, 100⟩

/-- `LockResult`. -/
inductive LockResult
  | ok (stateid : Stateid4)
  | denied (offset length : UInt64) (lockType : NfsLockType4) (ownerClientid : UInt64)
      (owner : Bytes)
  | error (status : NfsStat4)

/-- `UnlockResult`. -/
inductive UnlockResult
  | ok (stateid : Stateid4)
  | error (status : NfsStat4)

/-- `TestLockResult`. -/
inductive TestLockResult
  | ok
  | denied (offset length : UInt64) (lockType : NfsLockType4) (ownerClientid : UInt64)
      (owner : Bytes)

namespace LockTable

/-- `get_by_filehandle_id(..).is_empty()`, negated: a file has entries. -/
def hasLocks (t : LockTable) (filehandleId : NfsFh4) : Bool :=
  !(t.lockdb.select fun e => e.filehandleId == filehandleId).isEmpty

/-- The stateid that `get_new_lockingstate_id` makes of the counter. -/
def lockingstateId (n : UInt64) : StateidOther :=
  ⟨[0, 0, 0, 0] ++ beBytes 8 n.toNat, by simp [length_beBytes]⟩

/-- `get_new_lockingstate_id` and the insertion of the entry made with it. -/
def insertNew (t : LockTable) (entry : StateidOther → LockingState) : Option LockTable := do
  let lockdb ← t.lockdb.insert (entry (lockingstateId t.nextStateidId))
  pure ⟨lockdb, t.nextStateidId + 1⟩

variable (order : List LockingState → List LockingState)

/-- The first entry of a file that stands in the way of a lock. -/
def firstConflict (t : LockTable) (filehandleId : NfsFh4) (clientId : UInt64) (owner : Bytes)
    (lockType : NfsLockType4) (offset length : UInt64) : Option LockingState :=
  (order (t.lockdb.select fun e => e.filehandleId == filehandleId)).find? fun e =>
    e.conflictsWith offset length lockType owner clientId

/-- `handle_lock`. -/
def handleLock (t : LockTable) (filehandleId : NfsFh4) (clientId : UInt64) (owner : Bytes)
    (lockType : NfsLockType4) (offset length : UInt64) : Option (LockTable × LockResult) :=
  match t.firstConflict order filehandleId clientId owner lockType offset length with
  | some lock =>
    some (t, .denied (lock.start.getD 0) (lock.length.getD 0) (lock.nfsLockType.getD .readLt)
      lock.clientId lock.owner)
  | none => do
    let stateid := lockingstateId t.nextStateidId
    let t ← t.insertNew fun stateid =>
      .newByteRangeLock filehandleId stateid clientId owner lockType offset length
    pure (t, .ok ⟨1, stateid⟩)

/-- `handle_unlock`. The range is not looked at. -/
def handleUnlock (t : LockTable) (lockStateid : StateidOther) (_offset _length : UInt64) :
    LockTable × UnlockResult :=
  match t.lockdb.find? fun e => e.stateid == lockStateid with
  | some lock =>
    ({ t with lockdb := t.lockdb.erase fun e => e.stateid == lockStateid },
      .ok ⟨lock.seqid + 1, lock.stateid⟩)
  | none => (t, .error .nfs4errBadStateid)

/-- `handle_test_lock`. -/
def handleTestLock (t : LockTable) (filehandleId : NfsFh4) (clientId : UInt64) (owner : Bytes)
    (lockType : NfsLockType4) (offset length : UInt64) : TestLockResult :=
  match t.firstConflict order filehandleId clientId owner lockType offset length with
  | some lock =>
    .denied (lock.start.getD 0) (lock.length.getD 0) (lock.nfsLockType.getD .readLt)
      lock.clientId lock.owner
  | none => .ok

/-- `handle_release_lock_owner`: removes the byte-range locks of an owner on all files. -/
def handleReleaseLockOwner (t : LockTable) (clientId : UInt64) (owner : Bytes) :
    LockTable × NfsStat4 :=
  ({ t with lockdb := t.lockdb.erase fun e =>
      e.clientId == clientId && (e.lockType == .byteRange && e.owner == owner) }, .nfs4Ok)

end LockTable

/-! ### The operations -/

/-- What an operation answers: `NfsOpResponse` without the request. -/
structure OpResponse where
  result : Option NfsResOp4
  status : NfsStat4

section Operations

variable (order : List LockingState → List LockingState)

/-- The owner LOCK works for. For an existing lock owner it is made up from the stateid. -/
def Lock4args.lockOwner (args : Lock4args) : UInt64 × Bytes :=
  match args.locker with
  | .openOwner otl => (otl.lockOwner.clientid, otl.lockOwner.owner)
  | .lockOwner el => (0, el.lockStateid.other.toList)

/-- The response LOCK makes of the file manager's result. -/
def LockResult.response : LockResult → OpResponse
  | .ok stateid => ⟨some (.oplock (.resok4 ⟨stateid⟩)), .nfs4Ok⟩
  | .denied offset length lockType clientid owner =>
    ⟨some (.oplock (.denied ⟨offset, length, lockType, ⟨clientid, owner⟩⟩)), .nfs4errDenied⟩
  | .error status => ⟨none, status⟩

/-- LOCK: `Lock4args::execute`, with the id of the current filehandle. -/
def Lock4args.execute (args : Lock4args) (fh : Option NfsFh4) (t : LockTable) :
    Option (LockTable × OpResponse) :=
  match fh with
  | none => some (t, ⟨none, .nfs4errNofilehandle⟩)
  | some fh => do
    let (t, result) ← t.handleLock order fh args.lockOwner.1 args.lockOwner.2 args.locktype
      args.offset args.length
    pure (t, result.response)

/-- LOCKT: `Lockt4args::execute`. A lock that would be granted is answered with a body too. -/
def Lockt4args.execute (args : Lockt4args) (fh : Option NfsFh4) (t : LockTable) : OpResponse :=
  match fh with
  | none => ⟨none, .nfs4errNofilehandle⟩
  | some fh =>
    match t.handleTestLock order fh args.owner.clientid args.owner.owner args.locktype
      args.offset args.length with
    | .ok => ⟨some (.oplockt (.denied ⟨0, 0, args.locktype, args.owner⟩)), .nfs4Ok⟩
    | .denied offset length lockType clientid owner =>
      ⟨some (.oplockt (.denied ⟨offset, length, lockType, ⟨clientid, owner⟩⟩)), .nfs4errDenied⟩

/-- LOCKU: `Locku4args::execute`. -/
def Locku4args.execute (args : Locku4args) (t : LockTable) : LockTable × OpResponse :=
  match t.handleUnlock args.lockStateid.other args.offset args.length with
  | (t, .ok stateid) => (t, ⟨some (.oplocku (.lockStateid stateid)), .nfs4Ok⟩)
  | (t, .error status) => (t, ⟨none, status⟩)

/-- RELEASE_LOCKOWNER: `ReleaseLockowner4args::execute`. -/
def ReleaseLockowner4args.execute (args : ReleaseLockowner4args) (t : LockTable) :
    LockTable × OpResponse :=
  let (t, status) := t.handleReleaseLockOwner args.lockOwner.clientid args.lockOwner.owner
  (t, ⟨some (.opreleaseLockOwner ⟨status⟩), status⟩)

end Operations

/-! ### Byte-range locks -/

/-- What a byte-range lock says. -/
structure ByteLock where
  file : NfsFh4
  clientId : UInt64
  owner : Bytes
  offset : UInt64
  length : UInt64
  type : NfsLockType4

/-- The byte-range lock of an entry, unless it is a share reservation. -/
def LockingState.byteLock (e : LockingState) : Option ByteLock :=
  match e.lockType, e.start, e.length, e.nfsLockType with
  | .byteRange, some offset, some length, some type =>
    some ⟨e.filehandleId, e.clientId, e.owner, offset, length, type⟩
  | _, _, _, _ => none

/-- The positions of a range. Lengths 0 and 2^64-1 both mean to the last position. -/
def InRange (offset length p : UInt64) : Prop :=
  offset ≤ p ∧ (length = 0 ∨ length = lastPosition ∨ p.toNat < offset.toNat + length.toNat)

instance (offset length p : UInt64) : Decidable (InRange offset length p) :=
  inferInstanceAs (Decidable (_ ∧ _))

/-- The byte-range lock of a new entry is the one it was made for. -/
@[simp] lemma byteLock_newByteRangeLock (fh : NfsFh4) (stateid : StateidOther)
    (clientId : UInt64) (owner : Bytes) (type : NfsLockType4) (offset length : UInt64) :
    (LockingState.newByteRangeLock fh stateid clientId owner type offset length).byteLock =
      some ⟨fh, clientId, owner, offset, length, type⟩ := rfl

/-- The fields of an entry, read off its byte-range lock. -/
lemma LockingState.byteLock_eq_some {e : LockingState} {b : ByteLock} :
    e.byteLock = some b ↔ e.lockType = .byteRange ∧ e.start = some b.offset ∧
      e.length = some b.length ∧ e.nfsLockType = some b.type ∧ e.filehandleId = b.file ∧
      e.clientId = b.clientId ∧ e.owner = b.owner := by
  unfold LockingState.byteLock
  obtain ⟨file, clientId, owner, offset, length, type⟩ := b
  split
  · simp_all only [Option.some.injEq, ByteLock.mk.injEq, true_and]
    tauto
  · rename_i hnone
    simp only [reduceCtorEq, false_iff]
    rintro ⟨h₁, h₂, h₃, h₄, -⟩
    exact hnone _ _ _ h₁ h₂ h₃ h₄

/-- Every entry is a share reservation or has a byte-range lock. -/
lemma LockingState.byteLock_isSome {e : LockingState} (h : e.lockType = .byteRange) :
    ∃ b, e.byteLock = some b := by
  obtain ⟨hstart, hlength, htype⟩ := e.ranged h
  obtain ⟨offset, hoffset⟩ := Option.isSome_iff_exists.1 hstart
  obtain ⟨length, hlen⟩ := Option.isSome_iff_exists.1 hlength
  obtain ⟨type, hty⟩ := Option.isSome_iff_exists.1 htype
  exact ⟨⟨e.filehandleId, e.clientId, e.owner, offset, length, type⟩,
    LockingState.byteLock_eq_some.2 ⟨h, hoffset, hlen, hty, rfl, rfl, rfl⟩⟩

/-- A range is not empty: it has its first position. -/
lemma inRange_start (offset length : UInt64) : InRange offset length offset := by
  refine ⟨UInt64.le_refl _, ?_⟩
  by_cases hzero : length = 0
  · exact Or.inl hzero
  · have hpos : length.toNat ≠ 0 := fun h => hzero (UInt64.toNat_inj.1 h)
    exact Or.inr (Or.inr (by omega))

/-- The ends of the conflict test: the range up to its end, exclusive, is the range without the
last position. -/
lemma lt_rangeEnd_iff {offset length p : UInt64} (h : offset ≤ p) :
    p < rangeEnd offset length ↔ InRange offset length p ∧ p ≠ lastPosition := by
  have hlast : lastPosition.toNat = 2 ^ 64 - 1 := rfl
  have hp := p.toNat_lt
  have hlen := length.toNat_lt
  have hzero : (0 : UInt64).toNat = 0 := rfl
  unfold rangeEnd InRange saturatingAdd
  simp only [UInt64.lt_iff_toNat_lt, UInt64.le_iff_toNat_le, ← UInt64.toNat_inj, ne_eq] at h ⊢
  split_ifs with h0 hsum
  · omega
  · rw [UInt64.toNat_add, Nat.mod_eq_of_lt hsum]
    omega
  · omega

/-- Two ranges overlap in the conflict test exactly when they share a position other than the
last. -/
lemma overlap_iff (offset length offset' length' : UInt64) :
    ¬ (offset ≥ rangeEnd offset' length' ∨ offset' ≥ rangeEnd offset length) ↔
      ∃ p, p ≠ lastPosition ∧ InRange offset length p ∧ InRange offset' length' p := by
  simp only [ge_iff_le, not_or, UInt64.not_le]
  constructor
  · rintro ⟨h, h'⟩
    -- the later of the two starts is a shared position
    rcases UInt64.le_total offset offset' with hle | hle
    · obtain ⟨hin, hne⟩ := (lt_rangeEnd_iff hle).1 h'
      exact ⟨offset', hne, hin, inRange_start offset' length'⟩
    · obtain ⟨hin, hne⟩ := (lt_rangeEnd_iff hle).1 h
      exact ⟨offset, hne, inRange_start offset length, hin⟩
  · rintro ⟨p, hne, hin, hin'⟩
    exact ⟨UInt64.lt_of_le_of_lt hin.1 ((lt_rangeEnd_iff hin'.1).2 ⟨hin', hne⟩),
      UInt64.lt_of_le_of_lt hin'.1 ((lt_rangeEnd_iff hin.1).2 ⟨hin, hne⟩)⟩

/-- The conflict test, in terms of positions. -/
lemma LockingState.conflictsWith_iff {e : LockingState} {offset length : UInt64}
    {type : NfsLockType4} {owner : Bytes} {clientId : UInt64} :
    e.conflictsWith offset length type owner clientId = true ↔
      ∃ b, e.byteLock = some b ∧ ¬ (b.clientId = clientId ∧ b.owner = owner) ∧
        (b.type.isWrite = true ∨ type.isWrite = true) ∧
        ∃ p, p ≠ lastPosition ∧ InRange b.offset b.length p ∧ InRange offset length p := by
  cases htype : e.lockType with
  | openLock =>
    have hnone : ∀ b, e.byteLock ≠ some b := by
      intro b hb
      rw [(LockingState.byteLock_eq_some.1 hb).1] at htype
      cases htype
    simp [LockingState.conflictsWith, htype, hnone]
  | byteRange =>
    obtain ⟨b, hb⟩ := LockingState.byteLock_isSome htype
    obtain ⟨-, hstart, hlength, htype', -, hclient, howner⟩ := LockingState.byteLock_eq_some.1 hb
    rw [hb, LockingState.conflictsWith, htype, hstart, hlength, htype', hclient, howner]
    simp only [Option.some.injEq, exists_eq_left', Option.any_some, ← overlap_iff]
    split_ifs with hsame hapart
    · simp [hsame]
    · simp [hapart]
    · simp [hsame, hapart]

/-- A filehandle for examples. -/
def exampleFh : NfsFh4 := List.Vector.replicate 26 1

/-! ### What the operations can do -/

namespace LockTable

variable {order : List LockingState → List LockingState} {t t' : LockTable} {fh : NfsFh4}
  {clientId : UInt64} {owner : Bytes} {type : NfsLockType4} {offset length : UInt64}
  {result : LockResult}

/-- A LOCK that an entry stands in the way of is denied, and reports the entry. -/
lemma handleLock_of_firstConflict {lock : LockingState}
    (h : t.firstConflict order fh clientId owner type offset length = some lock) :
    t.handleLock order fh clientId owner type offset length =
      some (t, .denied (lock.start.getD 0) (lock.length.getD 0) (lock.nfsLockType.getD .readLt)
        lock.clientId lock.owner) := by
  rw [handleLock, h]

/-- A LOCK that no entry stands in the way of is granted, under the next stateid. -/
lemma handleLock_eq_some_of_unopposed
    (h : t.firstConflict order fh clientId owner type offset length = none) :
    t.handleLock order fh clientId owner type offset length = some (t', result) ↔
      result = .ok ⟨1, lockingstateId t.nextStateidId⟩ ∧
        t.lockdb.insert (.newByteRangeLock fh (lockingstateId t.nextStateidId) clientId owner
          type offset length) = some t'.lockdb ∧
        t'.nextStateidId = t.nextStateidId + 1 := by
  rw [handleLock, h]
  obtain ⟨db', next'⟩ := t'
  simp only [insertNew, Option.bind_eq_bind, Option.bind_eq_some_iff, Option.pure_def,
    Option.some.injEq, Prod.mk.injEq]
  constructor
  · rintro ⟨_, ⟨db, hinsert, rfl⟩, heq, rfl⟩
    cases heq
    exact ⟨rfl, hinsert, rfl⟩
  · rintro ⟨rfl, hinsert, rfl⟩
    exact ⟨_, ⟨db', hinsert, rfl⟩, rfl, rfl⟩

/-- LOCK inserts the lock if no entry of the file conflicts with it; otherwise it changes
nothing. -/
lemma handleLock_cases (horder : ∀ l, (order l).Perm l)
    (h : t.handleLock order fh clientId owner type offset length = some (t', result)) :
    (t' = t ∧ (∀ s, result ≠ .ok s) ∧ ∃ e ∈ t.lockdb, e.filehandleId = fh ∧
        e.conflictsWith offset length type owner clientId = true) ∨
      (result = .ok ⟨1, lockingstateId t.nextStateidId⟩ ∧
        t.lockdb.insert (.newByteRangeLock fh (lockingstateId t.nextStateidId) clientId owner
          type offset length) = some t'.lockdb ∧
        t'.nextStateidId = t.nextStateidId + 1 ∧
        ∀ e ∈ t.lockdb, e.filehandleId = fh →
          e.conflictsWith offset length type owner clientId = false) := by
  have hmem : ∀ e, e ∈ order (t.lockdb.select fun e => e.filehandleId == fh) ↔
      e ∈ t.lockdb ∧ e.filehandleId = fh := by
    intro e
    rw [(horder _).mem_iff]
    simp
  cases hfirst : t.firstConflict order fh clientId owner type offset length with
  | some lock =>
    rw [handleLock_of_firstConflict hfirst] at h
    cases h
    have hlock := (hmem lock).1 (List.mem_of_find?_eq_some hfirst)
    refine Or.inl ⟨rfl, fun s hs => ?_, lock, hlock.1, hlock.2, ?_⟩
    · cases hs
    · simpa using List.find?_some hfirst
  | none =>
    obtain ⟨hresult, hinsert, hnext⟩ := (handleLock_eq_some_of_unopposed hfirst).1 h
    refine Or.inr ⟨hresult, hinsert, hnext, fun e he hfh => ?_⟩
    have := List.find?_eq_none.1 hfirst e ((hmem e).2 ⟨he, hfh⟩)
    simpa using this

end LockTable

end NextNfs
