import NextNfs.Server.OpenStates
import NextNfs.Server.StateHolders

set_option relaxedAutoImplicit false
set_option autoImplicit false

/-!
# Crash recovery

A server saves a snapshot of its state from time to time, and starts with the last one after a
crash, without a grace period (`state_recovery.rs`, `lib.rs`). This module is about whether the
opens and locks that clients have from before the crash are safe from others.

## Main definitions

* `NextNfs.StateSnapshot`, `NextNfs.StateRecovery.load` — snapshots, and when one is used.
* `NextNfs.CrashRecovery.Server`, `NextNfs.CrashRecovery.Server.step` — a server that crashes and
  starts again, with what its clients have from before.
* `NextNfs.CrashRecovery.Safe` — nothing can be granted that contends with what a client has.
* `NextNfs.CrashRecovery.RestartsIdle` — a client that is restored had nothing to contend for.

## Main results

* `NextNfs.CrashRecovery.exists_grant` — right after a restart, everything that a client had may be
  granted to another one.
* `NextNfs.CrashRecovery.recovery_safe_iff` — when a run is safe.

## Implementation notes

The file of the state directory holds the snapshot that was saved, and a save is atomic: it renames
a complete file. Only the clients of a snapshot are set and read. The flag for a grace period is
never set. A crash may happen between any two steps; it loses all but the file, and the file systems
are as they are found after it.
-/

namespace NextNfs

open Wire LockTable

/-! ### Snapshots -/

/-- `LockSnapshot`. -/
structure LockSnapshot where
  stateid : StateidOther
  seqid : UInt32
  clientId : UInt64
  owner : Bytes
  lockType : String
  filehandleId : NfsFh4
  start : Option UInt64
  length : Option UInt64
  shareAccess : Option UInt32
  shareDeny : Option UInt32
  nfsLockType : Option String

/-- `StateSnapshot`. -/
structure StateSnapshot where
  version : UInt32
  bootTime : UInt64
  writtenAt : UInt64
  clients : List ClientSnapshot
  locks : List LockSnapshot

/-- `StateSnapshot::new`. -/
def StateSnapshot.new (bootTime now : UInt64) : StateSnapshot := ⟨1, bootTime, now, [], []⟩

namespace StateRecovery

/-- The snapshot of the periodic save. -/
def periodic (clients : List ClientEntry) (bootTime now : UInt64) : StateSnapshot :=
  { StateSnapshot.new bootTime now with clients := clients.map ClientIds.snapshot }

/-- The age of a snapshot, in seconds: a `saturating_sub`. -/
def age (snapshot : StateSnapshot) (now : UInt64) : UInt64 :=
  if now < snapshot.writtenAt then 0 else now - snapshot.writtenAt

/-- `StateRecovery::load`. -/
def load (file : Option StateSnapshot) (now : UInt64) : Except String StateSnapshot :=
  match file with
  | none => .error "no state file found"
  | some snapshot =>
    if snapshot.version ≠ 1 then
      .error ("unsupported state version: " ++ toString snapshot.version)
    else if age snapshot now > 300 then
      .error ("state file is stale: " ++ toString (age snapshot now) ++ " seconds old")
    else .ok snapshot

end StateRecovery

namespace CrashRecovery

open ClientTable ClientManager StateHolders FileManagerActor

/-! ### The server -/

variable {F : Type}

/-- An open or a lock that an owner was granted. -/
structure Claim where
  x : UInt8
  owner : UInt64 × Bytes
  entry : LockingState

/-- A server with its state file, and what the clients have from before the last crash. -/
structure Server (F : Type) where
  server : StateHolders.Server F
  file : Option StateSnapshot
  owed : Set Claim

/-- What happens to the server: it works, saves its state, or crashes and is started again. -/
inductive Act (F : Type)
  | serve (act : StateHolders.Act F)
  | save (order : Order) (bootTime now : UInt64)
  | restart (fs : UInt8 → F) (now : ℕ) (epoch : UInt64) (draws : List Draw)

/-- The clients that a snapshot restores. -/
def restored (snapshot : StateSnapshot) : Set UInt64 :=
  {c | ∃ k ∈ snapshot.clients, k.confirmed = true ∧ k.clientid = c}

namespace Server

variable [FileSystem F]

/-- A message gives up an open or a lock. -/
def releases (s : StateHolders.Server F) (act : StateHolders.Act F) (o : Claim) : Prop :=
  match act with
  | .message x _ (.closeFile stateid) => o.x = x ∧ o.entry.stateid = stateid
  | .message x _ (.unlockFile stateid _ _) => o.x = x ∧ o.entry.stateid = stateid
  | .message x _ (.releaseLockOwner clientId owner) =>
    o.x = x ∧ o.entry.lockType = .byteRange ∧ o.owner = (clientId, owner)
  | .message x _ (.removeFile path) =>
    o.x = x ∧ (s.exports x).toFileManager.forgotten path = some o.entry.filehandleId
  | _ => False

/-- What the clients that a snapshot restores have from before: their entries, and what they had
already from before an earlier crash; and the file of an open is still there. -/
def owedAfter (s : Server F) (snapshot : StateSnapshot) (fs : UInt8 → F) (now : ℕ) : Set Claim :=
  {o | (o.entry ∈ s.server.entries o.x ∧ o.owner = s.server.ownerOf o.x o.entry ∨ o ∈ s.owed) ∧
    o.owner.1 ∈ restored snapshot ∧
    (o.entry.lockType = .openLock → ∃ path, (((StateHolders.Server.start .new fs now).exports
      o.x).toFileManager.getFilehandle path).2.id = o.entry.filehandleId)}

/-- A step of the server. -/
def step (s : Server F) : Act F → Option (Server F)
  | .serve act =>
    (s.server.step act).map fun server =>
      { s with
        server := server
        owed := {o | o ∈ s.owed ∧ ¬ releases s.server act o ∧
          ∃ e ∈ server.clients.db, e.clientid = o.owner.1} }
  | .save order bootTime now =>
    let clients := order.1 (s.server.clients.db.select ClientEntry.confirmed)
    some { s with file := some (StateRecovery.periodic clients bootTime now) }
  | .restart fs now epoch draws =>
    match StateRecovery.load s.file epoch with
    | .error _ => some ⟨.start .new fs now, s.file, ∅⟩
    | .ok snapshot =>
      if snapshot.clients.length == draws.length then
        (restoreClients now .new (snapshot.clients.zip (draws.map Draw.token))).map fun cm =>
          ⟨.start cm fs now, none, s.owedAfter snapshot fs now⟩
      else none

end Server

open Server

/-! ### What is safe -/

section Safety

variable [FileSystem F]

/-- An entry that a server can grant now, and the owner it is granted to. -/
def Grants (s : StateHolders.Server F) (x : UInt8) (owner : UInt64 × Bytes) (e : LockingState) :
    Prop :=
  (∃ order msg, ((s.exports x).handleMessage order msg).isSome = true ∧
    (s.exports x).nextEntry order msg = some e ∧ owner = (e.clientId, e.owner)) ∨
  ∃ order id stateid lockType offset length,
    let msg := StateHolders.Server.lockAgainMsg id stateid lockType offset length
    ((s.exports x).handleMessage order msg).isSome = true ∧
      (s.exports x).nextEntry order msg = some e ∧
        owner = (s.ownerAt x stateid).getD (e.clientId, e.owner)

/-- An entry granted to an owner contends with what another one has: two locks overlap, one being a
write lock, or one of two opens denies some of the access of the other. -/
def Contends (owner : UInt64 × Bytes) (e : LockingState) (o : Claim) : Prop :=
  e.filehandleId = o.entry.filehandleId ∧ owner ≠ o.owner ∧
    ((∃ b b', e.byteLock = some b ∧ o.entry.byteLock = some b' ∧
        (b.type.isWrite = true ∨ b'.type.isWrite = true) ∧ b.Overlap b') ∨
      (e.lockType = .openLock ∧ o.entry.lockType = .openLock ∧
        (e.Denies o.entry ∨ o.entry.Denies e)))

/-- Nothing can be granted that contends with what a client has from before the crash. -/
def Safe (s : Server F) : Prop :=
  ∀ o ∈ s.owed, ∀ owner e, Grants s.server o.x owner e → ¬ Contends owner e o

/-- There is something to contend for: a lock, or an open that allows or denies something. -/
def Contestable (e : LockingState) : Prop :=
  e.lockType = .byteRange ∨ e.shareAccess.getD 0 ≠ 0 ∨ e.shareDeny.getD 0 ≠ 0

/-- The clients have nothing from before that others could contend for. -/
def Idle (owed : Set Claim) : Prop := ∀ o ∈ owed, ¬ Contestable o.entry

/-- A restart that uses a snapshot restores no client that had something to contend for. -/
def RestartsIdle (s : Server F) : Act F → Prop
  | .restart fs now epoch _ => ∀ snapshot, StateRecovery.load s.file epoch = .ok snapshot →
    Idle (s.owedAfter snapshot fs now)
  | _ => True

variable {s s' : Server F}

/-- Where there is nothing to contend for, nothing contends. -/
lemma safe_of_idle (h : Idle s.owed) : Safe s := by
  rintro o ho owner e - ⟨-, -, ⟨b, b', -, hb', -, -⟩ | ⟨-, -, hdenies⟩⟩
  · exact h o ho (Or.inl (LockingState.byteLock_eq_some.1 hb').1)
  · apply h o ho
    right
    rcases hdenies with hdenies | hdenies
    · left
      intro hzero
      apply hdenies
      rw [hzero]
      exact UInt32.and_zero
    · right
      intro hzero
      apply hdenies
      rw [hzero]
      exact UInt32.zero_and

/-- A server that has just started has no entries. -/
lemma start_locks (cm : ClientManager) (fs : UInt8 → F) (now : ℕ) (x : UInt8) :
    ((StateHolders.Server.start cm fs now).exports x).locks = LockTable.new :=
  (FileManager.sameWorld_getFilehandle _ _).locks

/-- **Everything may be granted again.** A server that has just started grants an entry that
contends with any open of a file that is there, and with any lock.

**Proof sketch.** A write lock on the same range, by another owner of the client; or an OPEN that
denies the access, or asks for the access that is denied. The tables are empty, so both are
granted. -/
lemma exists_grant (cm : ClientManager) (fs : UInt8 → F) (now : ℕ) {o : Claim}
    (hcontest : Contestable o.entry)
    (hthere : o.entry.lockType = .openLock → ∃ path,
      (((StateHolders.Server.start cm fs now).exports o.x).toFileManager.getFilehandle path).2.id =
        o.entry.filehandleId) :
    ∃ owner e, Grants (StateHolders.Server.start cm fs now) o.x owner e ∧ Contends owner e o := by
  have hlocks := start_locks cm fs now o.x
  have hhandled : ∀ msg, (((StateHolders.Server.start cm fs now).exports o.x).handleMessage
      (fun l => l) msg).isSome = true := by
    intro msg
    have hfresh : ((StateHolders.Server.start cm fs now).exports o.x).locks.Fresh := by
      rw [hlocks]
      intro e he
      exact absurd he Table.not_mem_empty
    obtain ⟨a, reply, hmsg⟩ := exists_handleMessage hfresh (fun l => l) msg
    rw [hmsg]
    rfl
  have hother : (o.owner.1, (0 : UInt8) :: o.owner.2) ≠ o.owner := by
    intro heq
    exact List.cons_ne_self _ _ (congrArg Prod.snd heq)
  cases htype : o.entry.lockType with
  | byteRange =>
    obtain ⟨b, hb⟩ := LockingState.byteLock_isSome htype
    have hnext : ((StateHolders.Server.start cm fs now).exports o.x).nextEntry (fun l => l)
        (.lockFile o.entry.filehandleId o.owner.1 (0 :: o.owner.2) .writeLt b.offset b.length) =
        some (.newByteRangeLock o.entry.filehandleId (lockingstateId 100) o.owner.1
          (0 :: o.owner.2) .writeLt b.offset b.length) := by
      unfold nextEntry entryOf
      dsimp only
      rw [hlocks]
      rfl
    refine ⟨_, _, Or.inl ⟨_, _, hhandled _, hnext, rfl⟩, rfl, hother, Or.inl ⟨_, b, rfl, hb, ?_⟩⟩
    exact ⟨Or.inl rfl, b.offset, inRange_start _ _, inRange_start _ _⟩
  | openLock =>
    obtain ⟨path, hpath⟩ := hthere htype
    have hnext : ∀ access deny, ((StateHolders.Server.start cm fs now).exports o.x).nextEntry
        (fun l => l) (.createOpenState path o.owner.1 (0 :: o.owner.2) access deny) =
        some (.newSharedReservation o.entry.filehandleId (lockingstateId 100) o.owner.1
          (0 :: o.owner.2) access deny) := by
      intro access deny
      unfold nextEntry entryOf
      dsimp only
      rw [hlocks, hpath]
      rfl
    rcases hcontest with hrange | haccess | hdeny
    · rw [htype] at hrange
      cases hrange
    · refine ⟨_, _, Or.inl ⟨_, _, hhandled _, hnext 0 (o.entry.shareAccess.getD 0), rfl⟩, rfl,
        hother, Or.inr ⟨rfl, htype, Or.inl ?_⟩⟩
      show o.entry.shareAccess.getD 0 &&& o.entry.shareAccess.getD 0 ≠ 0
      rw [UInt32.and_self]
      exact haccess
    · refine ⟨_, _, Or.inl ⟨_, _, hhandled _, hnext (o.entry.shareDeny.getD 0) 0, rfl⟩, rfl,
        hother, Or.inr ⟨rfl, htype, Or.inr ?_⟩⟩
      show o.entry.shareDeny.getD 0 &&& o.entry.shareDeny.getD 0 ≠ 0
      rw [UInt32.and_self]
      exact hdeny

/-! ### Runs -/

/-- What a step does to what the clients have: a restart with a snapshot makes it anew, otherwise it
only shrinks. -/
lemma owed_of_step {a : Act F} (hstep : s.step a = some s') :
    (∃ fs now epoch draws snapshot cm, a = .restart fs now epoch draws ∧
      StateRecovery.load s.file epoch = .ok snapshot ∧
        s' = ⟨.start cm fs now, none, s.owedAfter snapshot fs now⟩) ∨
    (RestartsIdle s a ∧ s'.owed ⊆ s.owed) := by
  cases a with
  | serve act =>
    obtain ⟨server, -, rfl⟩ := Option.map_eq_some_iff.1 hstep
    exact Or.inr ⟨trivial, fun o ho => ho.1⟩
  | save order bootTime now =>
    cases hstep
    exact Or.inr ⟨trivial, fun o ho => ho⟩
  | restart fs now epoch draws =>
    unfold Server.step at hstep
    dsimp only at hstep
    split at hstep
    · rename_i message hload
      cases hstep
      refine Or.inr ⟨fun snapshot heq => ?_, Set.empty_subset _⟩
      rw [hload] at heq
      cases heq
    · rename_i snapshot hload
      split_ifs at hstep
      obtain ⟨cm, -, rfl⟩ := Option.map_eq_some_iff.1 hstep
      exact Or.inl ⟨fs, now, epoch, draws, snapshot, cm, rfl, hload, rfl⟩

/-- Restarts that restore no client with something to contend for leave nothing to contend for. -/
lemma idle_of_step (h : Idle s.owed) {a : Act F} (hidle : RestartsIdle s a)
    (hstep : s.step a = some s') : Idle s'.owed := by
  obtain ⟨fs, now, epoch, draws, snapshot, cm, rfl, hload, rfl⟩ | ⟨-, hsub⟩ := owed_of_step hstep
  · exact hidle snapshot hload
  · exact fun o ho => h o (hsub ho)

/-- A step is safe exactly when it is not a restart that restores a client with something to contend
for. -/
lemma safe_of_step (h : Idle s.owed) {a : Act F} (hstep : s.step a = some s') :
    Safe s' ↔ RestartsIdle s a := by
  constructor
  · intro hsafe
    obtain ⟨fs, now, epoch, draws, snapshot, cm, rfl, hload, rfl⟩ | ⟨hidle, -⟩ := owed_of_step hstep
    · intro snapshot' heq o ho hcontest
      rw [hload] at heq
      cases heq
      obtain ⟨owner, e, hgrants, hcontends⟩ := exists_grant cm fs now hcontest ho.2.2
      exact hsafe o ho owner e hgrants hcontends
    · exact hidle
  · intro hidle
    exact safe_of_idle (idle_of_step h hidle hstep)

/-- **Crash recovery.** In a run of a server that crashes and starts again, nothing can be granted
that contends with an open or a lock that a restored client has from before, exactly when no restart
with a snapshot restores a client that had a lock, or an open that allows or denies something. -/
theorem recovery_safe_iff (cm : ClientManager) (fs : UInt8 → F) (now : ℕ)
    (file : Option StateSnapshot) (as : List (Act F)) :
    Run.Holds Server.step Safe ⟨.start cm fs now, file, ∅⟩ as ↔
      Run.Meets Server.step RestartsIdle ⟨.start cm fs now, file, ∅⟩ as := by
  have hidle : Idle (∅ : Set Claim) := fun o ho => absurd ho (Set.notMem_empty o)
  refine Run.holds_iff_meets_of_invariant (I := fun s : Server F => Idle s.owed) ?_ ?_ hidle
    (safe_of_idle hidle) as
  · exact fun s a s' h hC hstep => idle_of_step h hC hstep
  · exact fun s a s' h _ hstep => safe_of_step h hstep

end Safety

section Examples

/-- Client "a" gets client id 1 and confirms it. -/
def setsUp : List (Act FlatFs) :=
  [.serve (.client (.upsertClient ⟨fun l => l, fun l => List.Perm.refl l⟩ 0
      (List.Vector.replicate 8 0) "a" ⟨0, "", "", 0⟩ none (List.Vector.replicate 8 1))),
    .serve (.client (.confirmClient ⟨fun l => l, fun l => List.Perm.refl l⟩ 1
      (List.Vector.replicate 8 1) none))]

/-- A save, and a restart ten seconds later. -/
def savesAndRestarts : List (Act FlatFs) :=
  [.save ⟨fun l => l, fun l => List.Perm.refl l⟩ 0 1000,
    .restart (fun _ => sharedFs) 0 1010 [List.Vector.replicate 8 2]]

/-- A write lock of a client is not safe after a crash, though the client is restored. -/
theorem not_safe_lock_lost :
    ¬ Run.Holds Server.step Safe ⟨.start .new (fun _ => sharedFs) 0, none, ∅⟩
      (setsUp ++ .serve (sends (.lockFile (inodeId 1 (64, 3)) 1 [1] .writeLt 0 10)) ::
        savesAndRestarts) := by
  intro h
  have hrun : ∃ s, (setsUp ++ .serve (sends (.lockFile (inodeId 1 (64, 3)) 1 [1] .writeLt 0 10)) ::
        savesAndRestarts).foldlM Server.step ⟨.start .new (fun _ => sharedFs) 0, none, ∅⟩ = some s ∧
      (⟨1, (1, [1]), .newByteRangeLock (inodeId 1 (64, 3)) (lockingstateId 100) 1 [1] .writeLt 0 10⟩ :
        Claim) ∈ s.owed ∧
      Grants s.server 1 (2, [2])
        (.newByteRangeLock (inodeId 1 (64, 3)) (lockingstateId 100) 2 [2] .writeLt 0 10) := by
    refine ⟨_, rfl, ⟨Or.inl ⟨List.mem_cons_self, rfl⟩, ⟨_, List.mem_cons_self, rfl, rfl⟩, ?_⟩, ?_⟩
    · rintro ⟨⟩
    · exact Or.inl ⟨fun l => l, .lockFile (inodeId 1 (64, 3)) 2 [2] .writeLt 0 10, rfl, rfl, rfl⟩
  obtain ⟨s, hs, howed, hgrants⟩ := hrun
  refine h.last hs _ howed _ _ hgrants ⟨rfl, by decide, Or.inl ⟨_, _, rfl, rfl, Or.inl rfl, 0, ?_⟩⟩
  exact ⟨inRange_start 0 10, inRange_start 0 10⟩

end Examples

end CrashRecovery

end NextNfs
