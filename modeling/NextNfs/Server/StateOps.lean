import NextNfs.Server.FileManagerActor
import NextNfs.Server.System

set_option relaxedAutoImplicit false
set_option autoImplicit false

/-!
# Operations on open and lock state

This module adds to the system of `NextNfs.Server.System` the operations OPEN_CONFIRM and
OPEN_DOWNGRADE (`nfs40/op_openconfirm.rs`, `nfs40/op_open_downgrade.rs`), and LOCK, LOCKU and
RELEASE_LOCKOWNER on the lock table of its file manager. It says what each operation does to the
opens in the lock table.

## Main definitions

* `NextNfs.dispatchState` — one operation of a compound, with the operations on state.
* `NextNfs.System.stateStep` — a step of the system with them.
* `NextNfs.Open4args.opens` — the file that an OPEN opens, if it passes its checks.

## Main results

* `NextNfs.Open4args.execute_outcome` — what OPEN does: it is refused, or makes a new open.
* `NextNfs.dispatchState_noNewOpens` — the other operations make none.
* `NextNfs.stateStep_cases` — what a step of the system does to the opens.

## Implementation notes

The permission check lets the operations added here through. The order in which LOCK goes through
the entries of a file is part of the step.
-/

namespace NextNfs

open Wire

/-! ### The operations -/

section Operations

variable {F : Type}

/-- OPEN_CONFIRM: `OpenConfirm4args::execute`. The arguments are not looked at. -/
def OpenConfirm4args.execute (_args : OpenConfirm4args) (req : NfsRequest F) :
    NfsRequest F × OpResponse :=
  match req.conn.filehandle with
  | none => (req, ⟨none, .nfs4errNofilehandle⟩)
  | some fh =>
    match fh.locks with
    | [] => (req, ⟨none, .nfs4errBadStateid⟩)
    | lock :: _ =>
      (req, ⟨some (.opopenConfirm (.resok4 ⟨⟨lock.seqid, lock.stateid⟩⟩)), .nfs4Ok⟩)

/-- OPEN_DOWNGRADE: `OpenDowngrade4args::execute`. -/
def OpenDowngrade4args.execute (args : OpenDowngrade4args) (req : NfsRequest F) :
    NfsRequest F × OpResponse :=
  match req.conn.filehandle with
  | none => (req, ⟨none, .nfs4errNofilehandle⟩)
  | some fh =>
    if args.shareAccess = 0 ∨ args.shareAccess > 3 then (req, ⟨none, .nfs4errInval⟩)
    else
      match fh.locks with
      | [] => (req, ⟨none, .nfs4errBadStateid⟩)
      | lock :: _ =>
        (req, ⟨some (.opopenDowngrade (.resok4 ⟨⟨args.seqid + 1, lock.stateid⟩⟩)), .nfs4Ok⟩)

/-- An operation on the lock table of the file manager. -/
def NfsRequest.onLocks (req : NfsRequest F) (f : LockTable → Option (LockTable × OpResponse)) :
    Option (NfsRequest F × OpResponse) := do
  let fm ← req.fileManager
  let (locks, response) ← f fm.locks
  pure (⟨{ fm with locks := locks }, req.conn⟩, response)

/-- LOCK on the current filehandle. -/
def Lock4args.executeOn (order : List LockingState → List LockingState) (args : Lock4args)
    (req : NfsRequest F) : Option (NfsRequest F × OpResponse) :=
  match req.conn.filehandle with
  | none => some (req, ⟨none, .nfs4errNofilehandle⟩)
  | some fh => req.onLocks (args.execute order (some fh.id))

variable [FileSystem F]

/-- One operation of a compound, with the operations on open and lock state. -/
def dispatchState (cfg : ServerConfig) (order : List LockingState → List LockingState)
    (caller : Caller) (arg : NfsArgOp) (req : NfsRequest F) :
    Option (NfsRequest F × OpResponse × Option VfsPath) :=
  let plain := fun (res : NfsRequest F × OpResponse) => (res.1, res.2, none)
  match arg with
  | .opopenConfirm args => some (plain (args.execute req))
  | .opopenDowngrade args => some (plain (args.execute req))
  | .oplock args => (args.executeOn order req).map plain
  | .oplocku args => (req.onLocks fun t => some (args.execute t)).map plain
  | .opreleaseLockOwner args => (req.onLocks fun t => some (args.execute t)).map plain
  | arg => dispatch cfg caller arg req

/-- A step of the system with the operations on open and lock state. -/
def System.stateStep (cfg : ServerConfig) (s : System F)
    (a : (List LockingState → List LockingState) × Event) : Option (System F) :=
  match a.2 with
  | .op c caller arg =>
    (dispatchState cfg a.1 caller arg (s.request c)).map fun (req, response, silly) =>
      s.afterOp c req response silly
  | e => s.step cfg e

/-- The file that an OPEN of an existing file is for. -/
def NfsRequest.existing (req : NfsRequest F) (path : String) : Option NfsFh4 := do
  let fm ← req.fileManager
  let found := fm.getFilehandleForPath path
  let fh ← found.2
  pure (found.1.getFilehandle fh.file).2.id

/-- The file that an OPEN which may create it is for. -/
def NfsRequest.created (req : NfsRequest F) (fh : Filehandle) (file : String) (how : CreateHow4) :
    Option NfsFh4 := do
  let newfile ← FileSystem.join F fh.file file
  let fm ← req.fileManager
  match how with
  | .guarded4 _ => none
  | .unchecked4 _ | .exclusive4 _ =>
    let created ← fm.createFile newfile
    pure created.2.id

/-- The file that a reclaim is for. -/
def NfsRequest.previous (req : NfsRequest F) : Option NfsFh4 := do
  let fh ← req.conn.filehandle
  let fm ← req.fileManager
  pure (fm.getFilehandle fh.file).2.id

/-- The file that an OPEN which passes its checks is for. -/
def Open4args.opens (args : Open4args) (req : NfsRequest F) : Option NfsFh4 :=
  match args.claim with
  | .claimPrevious _ => req.previous
  | _ =>
    match args.target req with
    | .error _ => none
    | .ok (fh, file) =>
      match args.openhow with
      | .open4Nocreate => req.existing (fh.childPath file)
      | .how how => req.created fh file how

/-- The file that an OPEN is for, if it passes the permission check too. -/
def opensFor (cfg : ServerConfig) (caller : Caller) (args : Open4args) (req : NfsRequest F) :
    Option NfsFh4 :=
  match checkOp cfg.names (.opopen args) req caller with
  | .error _ => none
  | .ok _ => args.opens req

end Operations

/-! ### Opens -/

/-- The entry that an OPEN makes. -/
def Open4args.entry (args : Open4args) (id : NfsFh4) (stateid : StateidOther) : LockingState :=
  .newSharedReservation id stateid args.owner.clientid args.owner.owner args.shareAccess
    args.shareDeny

/-- No open was made. -/
def LockTable.NoNewOpens (t t' : LockTable) : Prop :=
  ∀ e ∈ t'.lockdb, e.lockType = .openLock → e ∈ t.lockdb

namespace LockTable

variable {t t' t'' : LockTable}

lemma noNewOpens_of_eq (h : t' = t) : t.NoNewOpens t' := by
  intro e he _
  rw [h] at he
  exact he

lemma NoNewOpens.trans (h : t.NoNewOpens t') (h' : t'.NoNewOpens t'') : t.NoNewOpens t'' :=
  fun e he hopen => h e (h' e he hopen) hopen

lemma noNewOpens_erase (p : LockingState → Bool) :
    t.NoNewOpens { t with lockdb := t.lockdb.erase p } :=
  fun _ he _ => (Table.mem_erase.1 he).1

/-- LOCK makes a byte-range lock. -/
lemma handleLock_noNewOpens {order : List LockingState → List LockingState} {id : NfsFh4}
    {clientId : UInt64} {owner : Bytes} {lockType : NfsLockType4} {offset length : UInt64}
    {result : LockResult}
    (h : t.handleLock order id clientId owner lockType offset length = some (t', result)) :
    t.NoNewOpens t' := by
  unfold handleLock at h
  split at h
  · cases h
    exact noNewOpens_of_eq rfl
  · obtain ⟨t₁, hinsert, heq⟩ := Option.bind_eq_some_iff.1 h
    cases heq
    intro e he hopen
    rcases ((of_insertNew hinsert).2 e).1 he with hold | rfl
    · exact hold
    · cases hopen

/-- An entry that is inserted is under a stateid that was not in use. -/
lemma ne_of_insertNew {entry : StateidOther → LockingState} (h : t.insertNew entry = some t') :
    ∀ e ∈ t.lockdb, e.stateid ≠ (entry (lockingstateId t.nextStateidId)).stateid := by
  obtain ⟨db, hdb, -⟩ := Option.bind_eq_some_iff.1 h
  unfold Table.insert at hdb
  split_ifs at hdb with hfree
  intro e he
  simpa using hfree e he

/-- LOCKU removes an entry, if any. -/
lemma handleUnlock_noNewOpens (t : LockTable) (stateid : StateidOther) (offset length : UInt64) :
    t.NoNewOpens (t.handleUnlock stateid offset length).1 := by
  unfold handleUnlock
  split
  · exact noNewOpens_erase _
  · exact noNewOpens_of_eq rfl

end LockTable

open LockTable FileManager

section Effects

variable {F : Type} [FileSystem F] {req req' : NfsRequest F} {response : OpResponse}

omit [FileSystem F] in
/-- The file manager of a request. -/
lemma fileManager_eq {fm : FileManager F} (h : req.fileManager = some fm) : fm = req.fm :=
  (NfsRequest.isPseudoRoot_of_fileManager h).2

omit [FileSystem F] in
/-- The open that is inserted is under the next stateid. -/
lemma insertOpen_eq_some {fm fm' : FileManager F} {id : NfsFh4} {clientId : UInt64} {owner : Bytes}
    {shareAccess shareDeny : UInt32} {lock : LockingState}
    (h : fm.insertOpen id clientId owner shareAccess shareDeny = some (fm', lock)) :
    fm.locks.insertNew (fun stateid =>
        .newSharedReservation id stateid clientId owner shareAccess shareDeny) = some fm'.locks ∧
      lock = .newSharedReservation id (lockingstateId fm.locks.nextStateidId) clientId owner
        shareAccess shareDeny := by
  obtain ⟨locks, hinsert, heq⟩ := Option.bind_eq_some_iff.1 h
  cases heq
  exact ⟨hinsert, rfl⟩

/-- The open of an existing file. -/
lemma createOpenState_eq_some {fm fm' : FileManager F} {file : VfsPath} {clientId : UInt64}
    {owner : Bytes} {shareAccess shareDeny : UInt32} {lock : LockingState}
    (h : fm.createOpenState file clientId owner shareAccess shareDeny = some (fm', lock)) :
    fm.locks.insertNew (fun stateid => .newSharedReservation (fm.getFilehandle file).2.id stateid
        clientId owner shareAccess shareDeny) = some fm'.locks ∧
      lock = .newSharedReservation (fm.getFilehandle file).2.id
        (lockingstateId fm.locks.nextStateidId) clientId owner shareAccess shareDeny := by
  rw [← (sameWorld_getFilehandle fm file).locks]
  exact insertOpen_eq_some h

/-- What an OPEN for a file does: without one it makes no open; otherwise it makes one, under the
next stateid. -/
def Open4args.Outcome (args : Open4args) (file : Option NfsFh4) (req req' : NfsRequest F)
    (response : OpResponse) : Prop :=
  (file = none ∧ req'.fm.locks = req.fm.locks) ∨
  ∃ id, file = some id ∧ req.fm.locks.insertNew (args.entry id) = some req'.fm.locks ∧
    ∃ cinfo rflags, response =
      resok (args.entry id (lockingstateId req.fm.locks.nextStateidId)) cinfo rflags

variable {args : Open4args} {fh : Filehandle} {file : String}

/-- OPEN of an existing file in a directory. -/
lemma Open4args.openForReading_outcome
    (h : args.openForReading fh file req = some (req', response)) :
    args.Outcome (req.existing (fh.childPath file)) req req' response := by
  unfold openForReading at h
  unfold NfsRequest.existing Outcome
  cases hfm : req.fileManager with
  | none => simp [hfm] at h
  | some fm =>
    obtain rfl := fileManager_eq hfm
    have hlocks := (sameWorld_getFilehandleForPath req.fm (fh.childPath file)).locks
    simp only [hfm, Option.bind_eq_bind, Option.bind_some] at h ⊢
    generalize req.fm.getFilehandleForPath (fh.childPath file) = found at h hlocks ⊢
    rcases found with ⟨fm₁, _ | found⟩
    · cases h
      exact Or.inl ⟨rfl, hlocks⟩
    · right
      refine ⟨_, rfl, ?_⟩
      dsimp only at h hlocks ⊢
      split at h
      · cases h
      · rename_i fm₂ lock hopen
        cases h
        obtain ⟨hinsert, rfl⟩ := createOpenState_eq_some hopen
        rw [hlocks] at hinsert ⊢
        exact ⟨hinsert, _, _, rfl⟩

/-- The message that creates a file makes an open of it. -/
lemma createFileMsg_eq_some {fm fm' : FileManager F} {newfile : VfsPath} {clientId : UInt64}
    {owner : Bytes} {shareAccess shareDeny : UInt32} {res : Option (Filehandle × LockingState)}
    (h : fm.createFileMsg newfile clientId owner shareAccess shareDeny = some (fm', res)) :
    (fm.createFile newfile = none ∧ fm' = fm ∧ res = none) ∨
    ∃ created lock fh, fm.createFile newfile = some created ∧ res = some (fh, lock) ∧
      fm.locks.insertNew (fun stateid => .newSharedReservation created.2.id stateid clientId owner
        shareAccess shareDeny) = some fm'.locks ∧
      lock = .newSharedReservation created.2.id (lockingstateId fm.locks.nextStateidId) clientId
        owner shareAccess shareDeny := by
  unfold createFileMsg at h
  split at h
  · rename_i hcreate
    cases h
    exact Or.inl ⟨hcreate, rfl, rfl⟩
  · rename_i fm₁ fh hcreate
    obtain ⟨⟨fm₂, lock⟩, hopen, heq⟩ := Option.bind_eq_some_iff.1 h
    cases heq
    have hinsert := insertOpen_eq_some hopen
    rw [createFile_locks fm newfile hcreate] at hinsert
    exact Or.inr ⟨_, lock, _, hcreate, rfl, hinsert⟩

/-- OPEN that may create the file. -/
lemma Open4args.openForWriting_outcome {how : CreateHow4}
    (h : args.openForWriting fh file how req = some (req', response)) :
    args.Outcome (req.created fh file how) req req' response := by
  unfold openForWriting at h
  unfold NfsRequest.created Outcome
  cases hjoin : FileSystem.join F fh.file file with
  | none =>
    simp only [hjoin] at h
    cases h
    exact Or.inl ⟨rfl, rfl⟩
  | some newfile =>
    cases hfm : req.fileManager with
    | none => simp [hjoin, hfm] at h
    | some fm =>
      obtain rfl := fileManager_eq hfm
      simp only [hjoin, hfm, Option.bind_eq_bind, Option.bind_some] at h ⊢
      have hnone : ∀ {fm₁}, req.fm.createFileMsg newfile args.owner.clientid args.owner.owner
          args.shareAccess args.shareDeny = some (fm₁, none) →
          args.Outcome ((req.fm.createFile newfile).bind fun created => some created.2.id) req
            ⟨fm₁, req.conn⟩ ⟨none, .nfs4errServerfault⟩ := by
        intro fm₁ hcreate
        obtain ⟨hnone, rfl, -⟩ | ⟨created, lock, fh', -, heq, -⟩ := createFileMsg_eq_some hcreate
        · rw [hnone]
          exact Or.inl ⟨rfl, rfl⟩
        · cases heq
      have hsome : ∀ {fm₁ newFh lock conn cinfo}, req.fm.createFileMsg newfile args.owner.clientid
          args.owner.owner args.shareAccess args.shareDeny = some (fm₁, some (newFh, lock)) →
          args.Outcome ((req.fm.createFile newfile).bind fun created => some created.2.id) req
            ⟨fm₁, conn⟩ (resok lock cinfo OPEN4_RESULT_CONFIRM) := by
        intro fm₁ newFh lock conn cinfo hcreate
        obtain ⟨-, -, heq⟩ | ⟨created, lock', fh', hsome, heq, hinsert, rfl⟩ :=
          createFileMsg_eq_some hcreate
        · cases heq
        · cases heq
          rw [hsome]
          exact Or.inr ⟨_, rfl, hinsert, _, _, rfl⟩
      cases how with
      | guarded4 attrs =>
        cases h
        exact Or.inl ⟨rfl, rfl⟩
      | unchecked4 attrs | exclusive4 verifier =>
        dsimp only at h
        split at h
        · cases h
        · rename_i hcreate
          cases h
          exact hnone hcreate
        · rename_i hcreate
          cases h
          exact hsome hcreate

/-- OPEN of a file that was open before a restart. -/
lemma Open4args.reclaim_outcome (h : args.reclaim req = some (req', response)) :
    args.Outcome req.previous req req' response := by
  unfold reclaim at h
  unfold NfsRequest.previous Outcome
  cases hfh : req.conn.filehandle with
  | none =>
    simp only [hfh] at h
    cases h
    exact Or.inl ⟨rfl, rfl⟩
  | some fh =>
    cases hfm : req.fileManager with
    | none => simp [hfh, hfm] at h
    | some fm =>
      obtain rfl := fileManager_eq hfm
      simp only [hfh, hfm, Option.bind_eq_bind, Option.bind_some] at h ⊢
      split at h
      · cases h
      · rename_i fm₁ lock hopen
        cases h
        obtain ⟨hinsert, rfl⟩ := createOpenState_eq_some hopen
        exact Or.inr ⟨_, rfl, hinsert, _, _, rfl⟩

/-- What OPEN does. -/
lemma Open4args.execute_outcome (h : args.execute req = some (req', response)) :
    args.Outcome (args.opens req) req req' response := by
  have hnamed : (match args.target req with
        | .error r => some (req, r)
        | .ok (fh, file) =>
          match args.openhow with
          | .open4Nocreate => args.openForReading fh file req
          | .how how => args.openForWriting fh file how req) = some (req', response) →
      args.Outcome (match args.target req with
        | .error _ => none
        | .ok (fh, file) =>
          match args.openhow with
          | .open4Nocreate => req.existing (fh.childPath file)
          | .how how => req.created fh file how) req req' response := by
    intro h
    cases htarget : args.target req with
    | error r =>
      simp only [htarget] at h
      cases h
      exact Or.inl ⟨rfl, rfl⟩
    | ok target =>
      simp only [htarget] at h
      cases hhow : args.openhow with
      | open4Nocreate =>
        simp only [hhow] at h
        exact openForReading_outcome h
      | how how =>
        simp only [hhow] at h
        exact openForWriting_outcome h
  unfold execute at h
  unfold opens
  cases hclaim : args.claim with
  | claimPrevious delegation =>
    simp only [hclaim] at h
    exact reclaim_outcome h
  | claimNull name =>
    simp only [hclaim] at h
    exact hnamed h
  | claimDelegateCur v =>
    simp only [hclaim] at h
    exact hnamed h
  | claimDelegatePrev v =>
    simp only [hclaim] at h
    exact hnamed h

/-- Giving an object to the caller leaves the lock table alone. -/
lemma chownNewObject_locks (req : NfsRequest F) (caller : Caller) :
    (chownNewObject req caller).fm.locks = req.fm.locks := by
  unfold chownNewObject
  split
  · rename_i fm fh hfm hfh
    obtain rfl := fileManager_eq hfm
    split
    · rfl
    · dsimp only
      split_ifs
      · rfl
      · split <;> rfl
  · rfl

/-- One operation of a compound: it is refused, or performed. -/
lemma dispatch_eq_some {cfg : ServerConfig} {caller : Caller} {arg : NfsArgOp}
    {silly : Option VfsPath} (h : dispatch cfg caller arg req = some (req', response, silly)) :
    ((∃ status, checkOp cfg.names arg req caller = .error status) ∧ req' = req) ∨
    ((∃ dirs, checkOp cfg.names arg req caller = .ok dirs) ∧
      ∃ req₁, execute cfg arg req = some (req₁, response, silly) ∧
        req'.fm.locks = req₁.fm.locks) := by
  unfold dispatch at h
  cases hcheck : checkOp cfg.names arg req caller with
  | error status =>
    simp only [hcheck] at h
    cases h
    exact Or.inl ⟨⟨_, rfl⟩, rfl⟩
  | ok dirs =>
    simp only [hcheck] at h
    right
    refine ⟨⟨_, rfl⟩, ?_⟩
    cases hexecute : execute cfg arg req with
    | none => simp [hexecute] at h
    | some res =>
      obtain ⟨req₁, response₁, silly₁⟩ := res
      simp only [hexecute] at h
      split_ifs at h
      · cases h
        exact ⟨req₁, rfl, chownNewObject_locks req₁ caller⟩
      · cases h
        exact ⟨_, rfl, rfl⟩

/-- What OPEN does, after the permission check. -/
lemma dispatchState_opopen {cfg : ServerConfig} {order : List LockingState → List LockingState}
    {caller : Caller} {silly : Option VfsPath}
    (h : dispatchState cfg order caller (.opopen args) req = some (req', response, silly)) :
    args.Outcome (opensFor cfg caller args req) req req' response := by
  unfold opensFor
  obtain ⟨⟨status, hcheck⟩, rfl⟩ | ⟨⟨dirs, hcheck⟩, req₁, hexecute, hlocks⟩ := dispatch_eq_some h
  · rw [hcheck]
    exact Or.inl ⟨rfl, rfl⟩
  · rw [hcheck]
    obtain ⟨⟨req₂, response₂⟩, hopen, heq⟩ := Option.map_eq_some_iff.1 hexecute
    cases heq
    have hout := Open4args.execute_outcome hopen
    unfold Open4args.Outcome at hout ⊢
    rw [hlocks]
    exact hout

/-! ### The other operations -/

omit [FileSystem F] in
lemma onLocks_noNewOpens {f : LockTable → Option (LockTable × OpResponse)}
    (hf : ∀ t t' response, f t = some (t', response) → t.NoNewOpens t')
    (h : req.onLocks f = some (req', response)) : req.fm.locks.NoNewOpens req'.fm.locks := by
  obtain ⟨fm, hfm, h⟩ := Option.bind_eq_some_iff.1 h
  obtain rfl := fileManager_eq hfm
  obtain ⟨⟨locks, response⟩, hlocks, heq⟩ := Option.bind_eq_some_iff.1 h
  cases heq
  exact hf _ _ _ hlocks

omit [FileSystem F] in
/-- LOCK makes no open. -/
lemma executeOn_noNewOpens {order : List LockingState → List LockingState} {args : Lock4args}
    (h : args.executeOn order req = some (req', response)) :
    req.fm.locks.NoNewOpens req'.fm.locks := by
  unfold Lock4args.executeOn at h
  split at h
  · cases h
    exact noNewOpens_of_eq rfl
  · refine onLocks_noNewOpens (fun t t' response hlock => ?_) h
    obtain ⟨⟨t₁, result⟩, hhandle, heq⟩ := Option.bind_eq_some_iff.1 hlock
    cases heq
    exact handleLock_noNewOpens hhandle

lemma setFilehandleId_locks {id : NfsFh4} {res : Except NfsStat4 Filehandle}
    (h : req.setFilehandleId id = some (req', res)) : req'.fm.locks = req.fm.locks := by
  unfold NfsRequest.setFilehandleId at h
  dsimp only at h
  split_ifs at h
  · cases h
    rfl
  · obtain ⟨fm, hfm, h⟩ := Option.bind_eq_some_iff.1 h
    obtain rfl := fileManager_eq hfm
    have hlocks := (sameWorld_getFilehandleForId req.fm id).locks
    dsimp only [NfsRequest.withConn] at h hlocks
    split at h
    · rename_i fm fh heq
      rw [heq] at hlocks
      cases h
      exact hlocks
    · rename_i fm heq
      rw [heq] at hlocks
      cases h
      exact hlocks

lemma getFilehandleFromCache_fm (req : NfsRequest F) (id : NfsFh4) :
    (req.getFilehandleFromCache id).1.fm = req.fm := by
  unfold NfsRequest.getFilehandleFromCache
  split
  · rfl
  · split_ifs <;> rfl

lemma putFh_locks {args : PutFh4args} (h : args.execute req = some (req', response)) :
    req'.fm.locks = req.fm.locks := by
  unfold PutFh4args.execute at h
  split_ifs at h
  · cases h
    rfl
  · have hcache := getFilehandleFromCache_fm
      (req.withConn (req.conn.switchExport req.fm.exportId args.object)) args.object
    dsimp only at h
    split at h
    · rename_i req₁ fh heq
      rw [heq] at hcache
      cases h
      exact congrArg FileManager.locks hcache
    · rename_i req₁ heq
      rw [heq] at hcache
      have hlocks : req₁.fm.locks = req.fm.locks := congrArg FileManager.locks hcache
      split at h
      · cases h
      · rename_i req₂ fh hset
        cases h
        exact (setFilehandleId_locks hset).trans hlocks
      · rename_i req₂ e hset
        cases h
        exact (setFilehandleId_locks hset).trans hlocks

lemma putRootFilehandle_locks (h : putRootFilehandle req = some (req', response)) :
    req'.fm.locks = req.fm.locks := by
  unfold putRootFilehandle at h
  dsimp only at h
  split at h
  · cases h
  · rename_i fm hfm
    obtain rfl := fileManager_eq hfm
    split at h
    · cases h
    · rename_i req₁ res hset
      cases h
      exact (setFilehandleId_locks hset).trans (sameWorld_getFilehandle req.fm .root).locks

lemma lookup_locks {args : Lookup4args} {exportName : String}
    (h : args.execute exportName req = some (req', response)) :
    req'.fm.locks = req.fm.locks := by
  unfold Lookup4args.execute at h
  split_ifs at h
  · cases h
    exact (sameWorld_getFilehandle req.fm .root).locks
  · cases h
    rfl
  · split at h
    · cases h
      rfl
    · rename_i fh hfh
      split at h
      · cases h
      · rename_i fm hfm
        obtain rfl := fileManager_eq hfm
        have hlocks := (sameWorld_getFilehandleForPath req.fm (fh.childPath args.objname)).locks
        split at h
        all_goals
          rename_i heq
          rw [heq] at hlocks
          cases h
          exact hlocks

lemma lookupParent_locks (h : lookupParent req = some (req', response)) :
    req'.fm.locks = req.fm.locks := by
  unfold lookupParent at h
  split_ifs at h
  · cases h
    rfl
  · split at h
    · cases h
      rfl
    · rename_i fh hfh
      split at h
      · cases h
      · rename_i fm hfm
        obtain rfl := fileManager_eq hfm
        have hlocks := (sameWorld_getFilehandleForPath req.fm (pathStr fh.file.parent)).locks
        split at h
        all_goals
          rename_i heq
          rw [heq] at hlocks
          cases h
          exact hlocks

omit [FileSystem F] in
/-- CLOSE removes an entry, if any. -/
lemma close_noNewOpens {args : Close4args} (h : args.execute req = some (req', response)) :
    req.fm.locks.NoNewOpens req'.fm.locks := by
  unfold Close4args.execute at h
  split at h
  · cases h
    exact noNewOpens_of_eq rfl
  · split at h
    · cases h
    · rename_i fm hfm
      obtain rfl := fileManager_eq hfm
      cases h
      exact noNewOpens_erase _

lemma finishCreate_locks (req : NfsRequest F) (fm : FileManager F) (fh : Filehandle)
    (dir newPath : VfsPath) (before : UInt64) :
    (finishCreate req fm fh dir newPath before).1.fm.locks = fm.locks := by
  unfold finishCreate
  have hlocks := ((sameWorld_touchFile fm fh.id).trans
    (sameWorld_getFilehandleForPath (fm.touchFile fh.id) newPath.toStr)).locks
  dsimp only
  split
  all_goals
    rename_i heq
    rw [heq] at hlocks
    exact hlocks

lemma create_locks {args : Create4args} (h : args.execute req = some (req', response)) :
    req'.fm.locks = req.fm.locks := by
  unfold Create4args.execute at h
  split at h
  · cases h
    rfl
  · split at h
    · cases h
    · rename_i fm hfm
      obtain rfl := fileManager_eq hfm
      dsimp only at h
      split at h
      · cases h
        rfl
      · rename_i fh p _ _ _ fs hmake
        have heq := congrArg (fun r : NfsRequest F × OpResponse => r.1.fm.locks)
          (Option.some.inj h)
        exact heq.symm.trans (finishCreate_locks req { req.fm with fs := fs } fh _ p _)

lemma link_locks {args : Link4args} (h : args.execute req = some (req', response)) :
    req'.fm.locks = req.fm.locks := by
  unfold Link4args.execute at h
  split at h
  · cases h
    rfl
  · split at h
    · cases h
    · rename_i fm hfm
      obtain rfl := fileManager_eq hfm
      split at h
      · cases h
        rfl
      · cases h
        rfl

/-- The removal of a name adds no entry. -/
lemma mem_of_mem_removeName {fm : FileManager F} {path : VfsPath} {e : LockingState}
    (h : e ∈ (fm.removeName path).1.locks.lockdb) : e ∈ fm.locks.lockdb := by
  unfold removeName at h
  have hlocks := (sameWorld_getFilehandleByPath fm path.toStr).locks
  generalize fm.getFilehandleByPath path.toStr = r at h hlocks
  obtain ⟨fm₁, filehandle⟩ := r
  dsimp only at h hlocks
  rw [← hlocks]
  split at h
  · split_ifs at h
    · split at h <;> exact h
    · rw [sillyRename_locks] at h
      exact h
  · split at h
    · exact h
    · rename_i fs hfs
      split at h
      · exact h
      · rename_i fh hfree
        have hforget : ({ fm₁ with fs := fs }.forget fh.id).locks = { fm₁.locks with
            lockdb := fm₁.locks.lockdb.erase fun e => e.filehandleId == fh.id } :=
          (sameWorld_dropCacheHandle _ _).locks
        rw [hforget] at h
        exact (Table.mem_erase.1 h).1

lemma mem_of_mem_removeFile {fm : FileManager F} {path : VfsPath} {e : LockingState}
    (h : e ∈ (fm.removeFile path).1.locks.lockdb) : e ∈ fm.locks.lockdb := by
  unfold FileManager.removeFile at h
  have hname := fun e => @mem_of_mem_removeName F _ fm path e
  generalize fm.removeName path = r at h hname
  obtain ⟨fm₁, _ | silly⟩ := r
  · exact hname e h
  · dsimp only at h hname
    rw [(sameWorld_touchPath _ _).locks] at h
    exact hname e h

/-- REMOVE removes the entries of a file. -/
lemma remove_noNewOpens {args : Remove4args} {silly : Option VfsPath}
    (h : args.execute req = some (req', response, silly)) :
    req.fm.locks.NoNewOpens req'.fm.locks := by
  unfold Remove4args.execute at h
  split at h
  · cases h
    exact noNewOpens_of_eq rfl
  · rename_i p hp
    split at h
    · cases h
    · rename_i fm hfm
      obtain rfl := fileManager_eq hfm
      have hremoves : req.fm.locks.NoNewOpens (req.fm.removeFile p).1.locks :=
        fun e he _ => mem_of_mem_removeFile he
      split at h
      all_goals
        rename_i heq
        rw [heq] at hremoves
        cases h
        exact hremoves

lemma rename_locks {args : Rename4args} (h : args.execute req = some (req', response)) :
    req'.fm.locks = req.fm.locks := by
  unfold Rename4args.execute at h
  split at h
  · cases h
    rfl
  · rename_i t ht
    split at h
    · cases h
    · rename_i fm hfm
      obtain rfl := fileManager_eq hfm
      split at h
      · cases h
        rfl
      · rename_i fs hrename
        cases h
        refine (sameWorld_touchFile _ _).locks.trans ((sameWorld_touchFile _ _).locks.trans ?_)
        exact handleRenamePath_locks { req.fm with fs := fs } t.dstVfs t.srcPath

/-- An operation that is not an OPEN makes no open. -/
lemma execute_noNewOpens {cfg : ServerConfig} {arg : NfsArgOp} {silly : Option VfsPath}
    (hopen : ∀ args, arg ≠ .opopen args)
    (h : execute cfg arg req = some (req', response, silly)) :
    req.fm.locks.NoNewOpens req'.fm.locks := by
  have plain : ∀ {o : Option (NfsRequest F × OpResponse)},
      (∀ res, o = some res → req.fm.locks.NoNewOpens res.1.fm.locks) →
      (o.map fun res => (res.1, res.2, (none : Option VfsPath))) = some (req', response, silly) →
      req.fm.locks.NoNewOpens req'.fm.locks := by
    intro o ho hmap
    obtain ⟨res, hres, heq⟩ := Option.map_eq_some_iff.1 hmap
    cases heq
    exact ho res hres
  cases arg with
  | opopen args => exact absurd rfl (hopen args)
  | opgetfh =>
    have heq : (getCurrentFilehandle req).1 = req := by
      unfold getCurrentFilehandle
      split <;> rfl
    cases h
    exact noNewOpens_of_eq (congrArg (fun r : NfsRequest F => r.fm.locks) heq)
  | opsavefh =>
    have heq : (saveFilehandle req).1.fm = req.fm := by
      unfold saveFilehandle
      split <;> rfl
    cases h
    exact noNewOpens_of_eq (congrArg FileManager.locks heq)
  | oprestorefh =>
    have heq : (restoreFilehandle req).1.fm = req.fm := by
      unfold restoreFilehandle
      split <;> rfl
    cases h
    exact noNewOpens_of_eq (congrArg FileManager.locks heq)
  | opputfh args => exact plain (fun _ hres => noNewOpens_of_eq (putFh_locks hres)) h
  | opputrootfh => exact plain (fun _ hres => noNewOpens_of_eq (putRootFilehandle_locks hres)) h
  | opputpubfh => exact plain (fun _ hres => noNewOpens_of_eq (putRootFilehandle_locks hres)) h
  | oplookup args => exact plain (fun _ hres => noNewOpens_of_eq (lookup_locks hres)) h
  | oplookupp => exact plain (fun _ hres => noNewOpens_of_eq (lookupParent_locks hres)) h
  | opclose args => exact plain (fun _ hres => close_noNewOpens hres) h
  | opcreate args => exact plain (fun _ hres => noNewOpens_of_eq (create_locks hres)) h
  | oplink args => exact plain (fun _ hres => noNewOpens_of_eq (link_locks hres)) h
  | opremove args => exact remove_noNewOpens h
  | oprename args => exact plain (fun _ hres => noNewOpens_of_eq (rename_locks hres)) h
  | _ => cases h

/-- An operation that is not an OPEN makes no open, with those on open and lock state. -/
lemma dispatchState_noNewOpens {cfg : ServerConfig}
    {order : List LockingState → List LockingState} {caller : Caller} {arg : NfsArgOp}
    {silly : Option VfsPath} (hopen : ∀ args, arg ≠ .opopen args)
    (h : dispatchState cfg order caller arg req = some (req', response, silly)) :
    req.fm.locks.NoNewOpens req'.fm.locks := by
  have hplain : dispatch cfg caller arg req = some (req', response, silly) →
      req.fm.locks.NoNewOpens req'.fm.locks := by
    intro h
    obtain ⟨-, rfl⟩ | ⟨-, req₁, hexecute, hlocks⟩ := dispatch_eq_some h
    · exact noNewOpens_of_eq rfl
    · exact (execute_noNewOpens hopen hexecute).trans (noNewOpens_of_eq hlocks)
  unfold dispatchState at h
  split at h
  · rename_i args
    have heq : (args.execute req).1 = req := by
      unfold OpenConfirm4args.execute
      split
      · rfl
      · split <;> rfl
    cases h
    exact noNewOpens_of_eq (congrArg (fun r : NfsRequest F => r.fm.locks) heq)
  · rename_i args
    have heq : (args.execute req).1 = req := by
      unfold OpenDowngrade4args.execute
      split
      · rfl
      · split_ifs
        · rfl
        · split <;> rfl
    cases h
    exact noNewOpens_of_eq (congrArg (fun r : NfsRequest F => r.fm.locks) heq)
  · obtain ⟨res, hlock, heq⟩ := Option.map_eq_some_iff.1 h
    cases heq
    exact executeOn_noNewOpens hlock
  · rename_i args
    obtain ⟨res, hlock, heq⟩ := Option.map_eq_some_iff.1 h
    cases heq
    refine onLocks_noNewOpens (fun t t' response hunlock => ?_) hlock
    have hunlock' := handleUnlock_noNewOpens t args.lockStateid.other args.offset args.length
    unfold Locku4args.execute at hunlock
    split at hunlock
    all_goals
      rename_i heq
      rw [heq] at hunlock'
      cases hunlock
      exact hunlock'
  · obtain ⟨res, hlock, heq⟩ := Option.map_eq_some_iff.1 h
    cases heq
    refine onLocks_noNewOpens (fun t t' response hrelease => ?_) hlock
    cases hrelease
    exact noNewOpens_erase _
  · exact hplain h

/-! ### Steps -/

/-- The file that a step opens, with the arguments of the OPEN. -/
def System.opening (cfg : ServerConfig) (s : System F)
    (a : (List LockingState → List LockingState) × Event) : Option (Open4args × NfsFh4) :=
  match a.2 with
  | .op c caller (.opopen args) =>
    (opensFor cfg caller args (s.request c)).map fun id => (args, id)
  | _ => none

/-- The answer of a step, if it is an operation. -/
def System.answer (cfg : ServerConfig) (s : System F)
    (a : (List LockingState → List LockingState) × Event) : Option OpResponse :=
  match a.2 with
  | .op c caller arg => (dispatchState cfg a.1 caller arg (s.request c)).map fun res => res.2.1
  | _ => none

lemma sweepPendingDeletes_locks (ids : List NfsFh4) :
    ∀ fm : FileManager F, (fm.sweepPendingDeletes ids).locks = fm.locks := by
  induction ids with
  | nil => exact fun _ => rfl
  | cons id ids ih => exact fun fm => (ih (fm.sweepOne id)).trans (sweepOne_locks fm id)

/-- A file manager starts without entries. -/
lemma startManager_locks (cfg : ServerConfig) (fs : F) (now : ℕ) :
    (System.startManager cfg fs now).locks = LockTable.new :=
  (sameWorld_getFilehandle _ _).locks

/-- What a step does to the opens: it makes one under the next stateid, if it is an OPEN that passes
its checks, and none otherwise. -/
lemma stateStep_cases {cfg : ServerConfig} {s s' : System F}
    {a : (List LockingState → List LockingState) × Event} (h : s.stateStep cfg a = some s') :
    (s.opening cfg a = none ∧ s.fm.locks.NoNewOpens s'.fm.locks) ∨
    ∃ args id, s.opening cfg a = some (args, id) ∧
      s.fm.locks.insertNew (args.entry id) = some s'.fm.locks ∧
      ∃ cinfo rflags, s.answer cfg a = some (Open4args.resok
        (args.entry id (lockingstateId s.fm.locks.nextStateidId)) cinfo rflags) := by
  obtain ⟨order, event⟩ := a
  cases event with
  | connect c =>
    cases h
    exact Or.inl ⟨rfl, noNewOpens_of_eq rfl⟩
  | compound c =>
    cases h
    exact Or.inl ⟨rfl, noNewOpens_of_eq rfl⟩
  | op c caller arg =>
    obtain ⟨⟨req', response, silly⟩, hdispatch, rfl⟩ := Option.map_eq_some_iff.1 h
    by_cases hopen : ∃ args, arg = .opopen args
    · obtain ⟨args, rfl⟩ := hopen
      obtain ⟨hnone, hlocks⟩ | ⟨id, hsome, hinsert, cinfo, rflags, rfl⟩ :=
        dispatchState_opopen hdispatch
      · left
        refine ⟨?_, noNewOpens_of_eq hlocks⟩
        show (opensFor cfg caller args (s.request c)).map _ = none
        rw [hnone]
        rfl
      · right
        refine ⟨args, id, ?_, hinsert, cinfo, rflags, ?_⟩
        · show (opensFor cfg caller args (s.request c)).map _ = _
          rw [hsome]
          rfl
        · show (dispatchState cfg order caller (.opopen args) (s.request c)).map _ = _
          rw [hdispatch]
          rfl
    · left
      have harg : ∀ args, arg ≠ .opopen args := fun args heq => hopen ⟨args, heq⟩
      refine ⟨?_, dispatchState_noNewOpens harg hdispatch⟩
      unfold System.opening
      split
      · rename_i heq
        cases heq
        exact absurd rfl (harg _)
      · rfl
  | tick d =>
    cases h
    exact Or.inl ⟨rfl, noNewOpens_of_eq rfl⟩
  | sweep ids =>
    unfold System.stateStep System.step at h
    dsimp only at h
    split_ifs at h
    cases h
    exact Or.inl ⟨rfl, noNewOpens_of_eq (sweepPendingDeletes_locks ids s.fm)⟩
  | restart =>
    cases h
    refine Or.inl ⟨rfl, fun e he _ => ?_⟩
    rw [startManager_locks] at he
    exact absurd he Table.not_mem_empty

end Effects

end NextNfs
