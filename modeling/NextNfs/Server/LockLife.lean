import NextNfs.Server.ByteRangeLocks
import NextNfs.Server.FileManagerActor

set_option relaxedAutoImplicit false
set_option autoImplicit false

/-!
# The life of a lock

What a client may rely on after a LOCK was granted: until it unlocks, closes or releases it, the
file manager denies every lock that conflicts with it, whatever messages it handles, whatever its
sweeps do and whatever happens to the files. And LOCKT tells at any time what LOCK would do.

## Main definitions

* `NextNfs.FileManagerMessage.Ends` — the messages that end the life of an entry.
* `NextNfs.FileManagerActor.Reaches` — a run of the actor with some messages.
* `NextNfs.FileManagerActor.Denies`, `NextNfs.FileManagerActor.Grants` — what LOCK and LOCKT answer.

## Main results

* `NextNfs.FileManagerActor.lock_honoured` — a lock is honoured as long as it lives.
-/

namespace NextNfs

open Wire

/-- The messages that may end the life of an entry with a stateid and an owner. -/
def FileManagerMessage.Ends (stateid : StateidOther) (clientId : UInt64) (owner : Bytes) :
    FileManagerMessage → Prop
  | .unlockFile s _ _ | .closeFile s => s = stateid
  | .releaseLockOwner c o => c = clientId ∧ o = owner
  | _ => False

/-! ### Entries that stay -/

namespace LockTable

variable {t t' : LockTable} {e : LockingState}

lemma mem_insertNew {entry : StateidOther → LockingState} (h : t.insertNew entry = some t')
    (he : e ∈ t.lockdb) : e ∈ t'.lockdb := ((of_insertNew h).2 e).2 (.inl he)

lemma mem_handleLock {order : List LockingState → List LockingState} {fh : NfsFh4}
    {clientId : UInt64} {owner : Bytes} {type : NfsLockType4} {offset length : UInt64}
    {result : LockResult}
    (h : t.handleLock order fh clientId owner type offset length = some (t', result))
    (he : e ∈ t.lockdb) : e ∈ t'.lockdb := by
  unfold handleLock at h
  split at h
  · cases h
    exact he
  · obtain ⟨t₁, hinsert, heq⟩ := Option.bind_eq_some_iff.1 h
    cases heq
    exact mem_insertNew hinsert he

lemma mem_handleUnlock {stateid : StateidOther} (offset length : UInt64) (he : e ∈ t.lockdb)
    (hne : stateid ≠ e.stateid) : e ∈ (t.handleUnlock stateid offset length).1.lockdb := by
  unfold handleUnlock
  split
  · exact Table.mem_erase.2 ⟨he, by simpa using Ne.symm hne⟩
  · exact he

lemma mem_handleReleaseLockOwner {clientId : UInt64} {owner : Bytes} (he : e ∈ t.lockdb)
    (hne : ¬ (clientId = e.clientId ∧ owner = e.owner)) :
    e ∈ (t.handleReleaseLockOwner clientId owner).1.lockdb := by
  refine Table.mem_erase.2 ⟨he, ?_⟩
  simp only [Bool.and_eq_false_iff, beq_eq_false_iff_ne, ne_eq]
  by_contra h
  push Not at h
  exact hne ⟨h.1.symm, h.2.2.symm⟩

end LockTable

namespace FileManager

variable {F : Type} [FileSystem F] {fm fm' : FileManager F} {file : VfsPath} {e : LockingState}
  {clientId : UInt64} {owner : Bytes} {shareAccess shareDeny : UInt32}

omit [FileSystem F] in
lemma mem_insertOpen {id : NfsFh4} {lock : LockingState}
    (h : fm.insertOpen id clientId owner shareAccess shareDeny = some (fm', lock))
    (he : e ∈ fm.locks.lockdb) : e ∈ fm'.locks.lockdb := by
  unfold insertOpen at h
  obtain ⟨locks, hinsert, heq⟩ := Option.bind_eq_some_iff.1 h
  cases heq
  exact LockTable.mem_insertNew hinsert he

lemma mem_createFileMsg {created : Option (Filehandle × LockingState)}
    (h : fm.createFileMsg file clientId owner shareAccess shareDeny = some (fm', created))
    (he : e ∈ fm.locks.lockdb) : e ∈ fm'.locks.lockdb := by
  unfold createFileMsg at h
  split at h
  · cases h
    exact he
  · rename_i fm₁ fh hcreate
    obtain ⟨⟨fm₂, lock⟩, hopen, heq⟩ := Option.bind_eq_some_iff.1 h
    cases heq
    rw [← createFile_locks _ _ hcreate] at he
    exact mem_insertOpen hopen he

lemma mem_createOpenState {lock : LockingState}
    (h : fm.createOpenState file clientId owner shareAccess shareDeny = some (fm', lock))
    (he : e ∈ fm.locks.lockdb) : e ∈ fm'.locks.lockdb := by
  rw [← (sameWorld_getFilehandle fm file).locks] at he
  exact mem_insertOpen h he

/-- Forgetting a file without entries removes none. -/
lemma mem_forget {id : NfsFh4} (hid : fm.locks.hasLocks id = false) (he : e ∈ fm.locks.lockdb) :
    e ∈ (fm.forget id).locks.lockdb := by
  have hlocks : (fm.forget id).locks =
      { fm.locks with lockdb := fm.locks.lockdb.erase fun e => e.filehandleId == id } :=
    (sameWorld_dropCacheHandle _ _).locks
  rw [hlocks]
  refine Table.mem_erase.2 ⟨he, ?_⟩
  by_contra hfile
  have hmem : e ∈ fm.locks.lockdb.select fun e => e.filehandleId == id :=
    Table.mem_select.2 ⟨he, by simpa using hfile⟩
  unfold LockTable.hasLocks at hid
  rw [Bool.not_eq_false', List.isEmpty_iff] at hid
  rw [hid] at hmem
  cases hmem

/-- Removing a name removes no entry: a file that has some is renamed, or stays. -/
lemma mem_removeName (he : e ∈ fm.locks.lockdb) : e ∈ (fm.removeName file).1.locks.lockdb := by
  unfold removeName
  have hlocks := (sameWorld_getFilehandleByPath fm file.toStr).locks
  generalize fm.getFilehandleByPath file.toStr = r at hlocks ⊢
  obtain ⟨fm₁, filehandle⟩ := r
  dsimp only at hlocks ⊢
  rw [← hlocks] at he
  split
  · split_ifs
    · split <;> exact he
    · rw [sillyRename_locks]
      exact he
  · rename_i hnone
    split
    · exact he
    · rename_i fs hfs
      split
      · exact he
      · rename_i fh
        have hfree : fm₁.locks.hasLocks fh.id = false := by
          simpa [Option.filter_eq_none_iff] using hnone
        exact @mem_forget F _ { fm₁ with fs := fs } e fh.id hfree he

lemma mem_removeFile (he : e ∈ fm.locks.lockdb) : e ∈ (fm.removeFile file).1.locks.lockdb := by
  unfold removeFile
  have hname := @mem_removeName F _ fm file e he
  generalize fm.removeName file = r at hname ⊢
  obtain ⟨fm₁, _ | silly⟩ := r
  · exact hname
  · dsimp only at hname ⊢
    rw [(sameWorld_touchPath _ _).locks]
    exact hname

end FileManager

/-- Two locks that do not only meet at the last position share another one. -/
lemma ByteLock.Overlap.exists_ne_last {b b' : ByteLock} (h : b.Overlap b')
    (hmeet : ¬ b.MeetAtLast b') :
    ∃ p, p ≠ lastPosition ∧ InRange b.offset b.length p ∧ InRange b'.offset b'.length p := by
  by_contra hnone
  exact hmeet ((ByteLock.overlap_iff_meetAtLast hnone).1 h)

namespace FileManagerActor

variable {F : Type} [FileSystem F] {order : List LockingState → List LockingState}
  {a a' : FileManagerActor F} {msg : FileManagerMessage} {e : LockingState}

/-- An entry stays, unless a message ends its life. -/
lemma handleMessage_keeps {res : FileManagerActor F × msg.Reply}
    (h : a.handleMessage order msg = some res) (he : e ∈ a.locks.lockdb)
    (hmsg : ¬ msg.Ends e.stateid e.clientId e.owner) : e ∈ res.1.locks.lockdb := by
  have hsame : ∀ {t : LockTable}, t = a.locks → e ∈ t.lockdb := by
    rintro t rfl
    exact he
  cases msg with
  | getRootFilehandle =>
    obtain rfl := Option.some.inj h
    exact hsame (FileManager.sameWorld_getFilehandle _ _).locks
  | getFilehandle path filehandle =>
    rcases filehandle with _ | id
    · rcases path with _ | path
      · obtain rfl := Option.some.inj h
        exact hsame (FileManager.sameWorld_getFilehandle _ _).locks
      · obtain rfl := Option.some.inj h
        exact hsame (FileManager.sameWorld_getFilehandleForPath _ _).locks
    · obtain rfl := Option.some.inj h
      exact hsame (FileManager.sameWorld_getFilehandleForId _ _).locks
  | getFilehandleAttrs id =>
    obtain rfl := Option.some.inj h
    exact hsame (FileManager.sameWorld_filehandleAttrs _ _).locks
  | createFile path clientId owner shareAccess shareDeny =>
    obtain ⟨⟨fm, created⟩, hcreate, heq⟩ := Option.bind_eq_some_iff.1 h
    cases heq
    exact FileManager.mem_createFileMsg hcreate he
  | createOpenState path clientId owner shareAccess shareDeny =>
    obtain ⟨⟨fm, lock⟩, hopen, heq⟩ := Option.bind_eq_some_iff.1 h
    cases heq
    exact FileManager.mem_createOpenState hopen he
  | lockFile id clientId owner lockType offset length =>
    obtain ⟨⟨t, result⟩, hlock, heq⟩ := Option.bind_eq_some_iff.1 h
    cases heq
    exact LockTable.mem_handleLock hlock he
  | unlockFile stateid offset length =>
    obtain rfl := Option.some.inj h
    exact LockTable.mem_handleUnlock offset length he hmsg
  | testLock id clientId owner lockType offset length =>
    obtain rfl := Option.some.inj h
    exact he
  | releaseLockOwner clientId owner =>
    obtain rfl := Option.some.inj h
    exact LockTable.mem_handleReleaseLockOwner he hmsg
  | renamePath oldPath newPath newVfsPath =>
    obtain rfl := Option.some.inj h
    exact hsame (FileManager.handleRenamePath_locks _ _ _)
  | closeFile stateid =>
    obtain rfl := Option.some.inj h
    exact Table.mem_erase.2 ⟨he, by simpa using Ne.symm hmsg⟩
  | removeFile path =>
    obtain rfl := Option.some.inj h
    have hmem := @FileManager.mem_removeFile F _ a.toFileManager path e he
    rw [← removeFile_locks] at hmem
    exact hmem
  | touchFile id =>
    obtain rfl := Option.some.inj h
    exact hsame (FileManager.sameWorld_touchFile _ _).locks
  | getWriteCacheHandle fh =>
    obtain rfl := Option.some.inj h
    exact hsame (getCacheHandle_locks _ _)
  | dropWriteCacheHandle id =>
    obtain rfl := Option.some.inj h
    exact hsame (FileManager.sameWorld_dropCacheHandle _ _).locks
  | updateFilehandle fh =>
    obtain rfl := Option.some.inj h
    exact he
  | openNamedAttrDir fileid createdir =>
    obtain rfl := Option.some.inj h
    exact hsame (FileManager.openNamedAttrDir_locks _ _ _)
  | grantDelegation id clientId isWrite =>
    obtain rfl := Option.some.inj h
    unfold grantDelegation
    split
    · split_ifs <;> exact he
    · exact he
  | returnDelegation id stateid =>
    obtain rfl := Option.some.inj h
    exact hsame (returnDelegation_locks _ _ _)
  | getDelegation id =>
    obtain rfl := Option.some.inj h
    exact he

/-! ### Runs -/

/-- A run of the actor in which all messages are `ok`. Between them the pending deletes are swept,
and anything may happen to the files and to the clock. -/
inductive Reaches (ok : FileManagerMessage → Prop) : FileManagerActor F → FileManagerActor F → Prop
  | refl (a : FileManagerActor F) : Reaches ok a a
  | message {a a' a'' : FileManagerActor F} (order : List LockingState → List LockingState)
      {msg : FileManagerMessage} {reply : msg.Reply} (hok : ok msg)
      (h : a.handleMessage order msg = some (a', reply)) (hrest : Reaches ok a' a'') :
      Reaches ok a a''
  | sweep {a a'' : FileManagerActor F} {ids : List NfsFh4} (hids : ids.Perm a.toDelete)
      (hrest : Reaches ok (a.sweepPendingDeletes ids) a'') : Reaches ok a a''
  | outside {a a'' : FileManagerActor F} (fs : F) (now : ℕ)
      (hrest : Reaches ok { a with fs := fs, now := now } a'') : Reaches ok a a''

/-- Along a run an entry stays, unless a message ends its life. -/
lemma Reaches.keeps
    (hrun : Reaches (fun msg => ¬ msg.Ends e.stateid e.clientId e.owner) a a')
    (he : e ∈ a.locks.lockdb) : e ∈ a'.locks.lockdb := by
  induction hrun with
  | refl a => exact he
  | message order hok h hrest ih => exact ih (handleMessage_keeps h he hok)
  | @sweep a a'' ids hids hrest ih =>
    exact ih (by rw [sweepPendingDeletes_locks]; exact he)
  | outside fs now hrest ih => exact ih he

/-! ### LOCK and LOCKT -/

/-- LOCK and LOCKT both deny a lock, and report one that stands in its way: it is held by another
owner, on the same file, and shares a position with it. -/
def Denies (order : List LockingState → List LockingState) (a : FileManagerActor F) (b : ByteLock) :
    Prop :=
  ∃ held : ByteLock, a.locks.HasLock held ∧ held.Rivals b ∧ held.Overlap b ∧
    a.handleMessage order (.lockFile b.file b.clientId b.owner b.type b.offset b.length) =
      some (a, (.denied held.offset held.length held.type held.clientId held.owner : LockResult)) ∧
    a.handleMessage order (.testLock b.file b.clientId b.owner b.type b.offset b.length) =
      some (a, (.denied held.offset held.length held.type held.clientId held.owner : TestLockResult))

/-- LOCK grants a lock, which then is held, and LOCKT says so. -/
def Grants (order : List LockingState → List LockingState) (a : FileManagerActor F) (b : ByteLock) :
    Prop :=
  a.handleMessage order (.testLock b.file b.clientId b.owner b.type b.offset b.length) =
    some (a, (.ok : TestLockResult)) ∧
  ∃ a' stateid,
    a.handleMessage order (.lockFile b.file b.clientId b.owner b.type b.offset b.length) =
      some (a', (.ok stateid : LockResult)) ∧
    ∀ b', a'.locks.HasLock b' ↔ a.locks.HasLock b' ∨ b' = b

/-- A lock that an entry stands in the way of is denied. -/
lemma denies_of_firstConflict (horder : ∀ l, (order l).Perm l) {b : ByteLock} {lock : LockingState}
    (h : a.locks.firstConflict order b.file b.clientId b.owner b.type b.offset b.length = some lock) :
    Denies order a b := by
  have hmem := (horder _).mem_iff.1 (List.mem_of_find?_eq_some h)
  simp only [Table.mem_select, beq_iff_eq] at hmem
  obtain ⟨hheld, hfile⟩ := hmem
  have hconflict : lock.conflictsWith b.offset b.length b.type b.owner b.clientId = true := by
    simpa using List.find?_some h
  obtain ⟨held, hbyte, howner, hwrite, p, -, hp, hp'⟩ := LockingState.conflictsWith_iff.1 hconflict
  obtain ⟨-, hstart, hlength, htype, hfile', hclient, howner'⟩ := LockingState.byteLock_eq_some.1 hbyte
  refine ⟨held, ⟨lock, hheld, hbyte⟩, ⟨hfile'.symm.trans hfile, howner, hwrite⟩, ⟨p, hp, hp'⟩, ?_, ?_⟩
  · simp only [handleMessage, LockTable.handleLock_of_firstConflict h, hstart, hlength, htype, hclient,
      howner', Option.getD_some]
    rfl
  · simp only [handleMessage, LockTable.handleTestLock, h, hstart, hlength, htype, hclient, howner',
      Option.getD_some]

/-- A lock that no entry stands in the way of is granted, if the next stateid is not in use. -/
lemma grants_of_firstConflict (hfresh : a.locks.Fresh) {b : ByteLock}
    (h : a.locks.firstConflict order b.file b.clientId b.owner b.type b.offset b.length = none) :
    Grants order a b := by
  obtain ⟨⟨t, result⟩, hlock⟩ :=
    @exists_handleLock order a.locks hfresh b.file b.clientId b.owner b.type b.offset b.length
  obtain ⟨rfl, hinsert, -⟩ := (LockTable.handleLock_eq_some_of_unopposed h).1 hlock
  refine ⟨?_, { a with locks := t }, ⟨1, LockTable.lockingstateId a.locks.nextStateidId⟩, ?_,
    fun b' => LockTable.hasLock_insert hinsert⟩
  · simp only [handleMessage, LockTable.handleTestLock, h]
  · simp only [handleMessage, hlock]
    rfl

/-- A lock that was granted is in the table. -/
lemma exists_entry_of_granted {b : ByteLock} {stateid : Stateid4}
    (h : a.handleMessage order (.lockFile b.file b.clientId b.owner b.type b.offset b.length) =
      some (a', (.ok stateid : LockResult))) :
    ∃ e ∈ a'.locks.lockdb, e.byteLock = some b ∧ e.stateid = stateid.other := by
  obtain ⟨⟨t, result⟩, hlock, heq⟩ := Option.bind_eq_some_iff.1 h
  cases heq
  cases hfirst : a.locks.firstConflict order b.file b.clientId b.owner b.type b.offset b.length with
  | some lock =>
    rw [LockTable.handleLock_of_firstConflict hfirst] at hlock
    cases hlock
  | none =>
    obtain ⟨hok, hinsert, -⟩ := (LockTable.handleLock_eq_some_of_unopposed hfirst).1 hlock
    cases hok
    exact ⟨_, (Table.mem_insert hinsert).2 (.inr rfl), rfl, rfl⟩

/-- **A lock is honoured.** A lock was granted, and the actor has handled any messages since, but
none that unlocks or closes its stateid or releases its owner; its pending deletes were swept, and
anything happened to the files. Then LOCK and LOCKT deny whatever another owner asks for that
conflicts with it, unless the two only meet at the last position. And whatever anyone asks for, LOCKT
tells what LOCK does: both report the same lock that is held and stands in the way, or LOCK grants.

**Proof sketch.** An entry leaves the table by three messages only (`handleMessage_keeps`); a file
with entries is not forgotten when its name is removed. -/
theorem lock_honoured (horder : ∀ l, (order l).Perm l) {order' : List LockingState → List LockingState}
    {a₁ a₂ : FileManagerActor F} {b : ByteLock} {stateid : Stateid4}
    (hlock : a.handleMessage order'
      (.lockFile b.file b.clientId b.owner b.type b.offset b.length) =
        some (a₁, (.ok stateid : LockResult)))
    (hrun : Reaches (fun msg => ¬ msg.Ends stateid.other b.clientId b.owner) a₁ a₂) {n : ℕ}
    (hreach : Reachable n a₂) (hn : n < 2 ^ 64) :
    (∀ b', b.Rivals b' → b.Overlap b' → ¬ b.MeetAtLast b' → Denies order a₂ b') ∧
    ∀ b', Denies order a₂ b' ∨ Grants order a₂ b' := by
  obtain ⟨e, he, hbyte, hstateid⟩ := exists_entry_of_granted hlock
  obtain ⟨-, -, -, -, hfile, hclient, howner⟩ := LockingState.byteLock_eq_some.1 hbyte
  rw [← hstateid, ← hclient, ← howner] at hrun
  have hkept := hrun.keeps he
  constructor
  · intro b' hrivals hoverlap hmeet
    obtain ⟨p, hp, hin, hin'⟩ := hoverlap.exists_ne_last hmeet
    have hconflict : e.conflictsWith b'.offset b'.length b'.type b'.owner b'.clientId = true :=
      LockingState.conflictsWith_iff.2 ⟨b, hbyte, hrivals.2.1, hrivals.2.2, p, hp, hin, hin'⟩
    cases h : a₂.locks.firstConflict order b'.file b'.clientId b'.owner b'.type b'.offset b'.length with
    | some lock => exact denies_of_firstConflict horder h
    | none =>
      have hmem : e ∈ order (a₂.locks.lockdb.select fun e => e.filehandleId == b'.file) :=
        (horder _).mem_iff.2 (Table.mem_select.2 ⟨hkept, by simp [hfile, hrivals.1]⟩)
      exact absurd hconflict (List.find?_eq_none.1 h e hmem)
  · intro b'
    cases h : a₂.locks.firstConflict order b'.file b'.clientId b'.owner b'.type b'.offset b'.length with
    | some lock => exact .inl (denies_of_firstConflict horder h)
    | none => exact .inr (grants_of_firstConflict (hreach.issued.fresh hn) h)

/-- An actor for an empty export. -/
def emptyActor : FileManagerActor FlatFs := .new ⟨[], 2⟩ 0 none

/-- The actor after one owner has locked the first bytes of a file for writing. -/
def lockedActor : FileManagerActor FlatFs :=
  ((emptyActor.handleMessage id (.lockFile exampleFh 1 [1] .writeLt 0 100)).map Prod.fst).getD emptyActor

/-- When another has locked the bytes behind them, the write lock is honoured. -/
theorem lock_honoured_sample : ∃ (a : FileManagerActor FlatFs) (stateid stateid' : Stateid4),
    emptyActor.handleMessage id (.lockFile exampleFh 1 [1] .writeLt 0 100) =
      some (lockedActor, (.ok stateid : LockResult)) ∧
    lockedActor.handleMessage id (.lockFile exampleFh 2 [2] .readLt 100 0) =
      some (a, (.ok stateid' : LockResult)) ∧
    Denies id a ⟨exampleFh, 2, [2], 50, 10, .readLt⟩ := by
  have hfirst : emptyActor.handleMessage id (.lockFile exampleFh 1 [1] .writeLt 0 100) =
      some (lockedActor, (.ok ⟨1, LockTable.lockingstateId 100⟩ : LockResult)) := rfl
  have hsecond : lockedActor.handleMessage id (.lockFile exampleFh 2 [2] .readLt 100 0) =
      some (_, (.ok ⟨1, LockTable.lockingstateId 101⟩ : LockResult)) := rfl
  refine ⟨_, _, _, hfirst, hsecond, ?_⟩
  have hok : ¬ (FileManagerMessage.lockFile exampleFh 2 [2] .readLt 100 0).Ends
      (LockTable.lockingstateId 100) 1 [1] := id
  have hrivals : (⟨exampleFh, 1, [1], 0, 100, .writeLt⟩ : ByteLock).Rivals
      ⟨exampleFh, 2, [2], 50, 10, .readLt⟩ := ⟨rfl, by decide, .inl rfl⟩
  exact (lock_honoured (fun l => .refl l) (b := ⟨exampleFh, 1, [1], 0, 100, .writeLt⟩) hfirst
    (.message id hok hsecond (.refl _)) (.message id (.message id (.new _ _ _) hfirst) hsecond)
    (by decide)).1 _ hrivals ⟨50, by decide, by decide⟩ (by decide)

end FileManagerActor

end NextNfs
