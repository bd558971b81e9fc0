import NextNfs.Server.FlatFs
import NextNfs.Server.Tidy

set_option relaxedAutoImplicit false
set_option autoImplicit false

/-!
# The file manager as an actor

This module models the actor of `filemanager/mod.rs`: its whole state, with the write caches and the
delegations, and `handle_message` with every message. Two tables of the actor have unique indexes,
the records of files and the lock entries, and an insertion that violates one panics, or fails. The
module shows that no insertion does.

## Main definitions

* `NextNfs.FileManagerActor` — the state of the actor.
* `NextNfs.FileManagerMessage`, `NextNfs.FileManagerActor.handleMessage` — the messages, and what
  the actor does with them.
* `NextNfs.FileManagerActor.Reachable` — the states that the actor can get into, with the number of
  stateids issued on the way.
* `NextNfs.FileManager.Replaces` — what `fhdb_replace` is for.
* `NextNfs.LockTable.Issued` — every entry of the lock table is under a stateid that was issued.

## Main results

* `NextNfs.FileManagerActor.handleMessage_evolves` — what a message does to the lock table.
* `NextNfs.FileManagerActor.handleMessage_distinct` — the tables never collide.

## Implementation notes

An insertion into the lock table that violates the index has no result: the actor is gone. The field
`write_cache` of a record is left out; a write cache is known by its number. Of the attributes that
`filehandle_attrs` answers with, the model has the record they are read from. Anything may happen to
the file system and to the clock between two messages.
-/

namespace NextNfs

open Wire

/-! ### The state -/

/-- `DelegationState`. -/
structure DelegationState where
  clientId : UInt64
  stateid : Stateid4
  isWrite : Bool

/-- The number of a write cache, in the order in which they are made. -/
abbrev CacheId := ℕ

/-- `FileManager` with its write caches and delegations, by the ids of the files. -/
structure FileManagerActor (F : Type) extends FileManager F where
  cachedb : NfsFh4 → Option CacheId
  delegations : NfsFh4 → Option DelegationState
  /-- The number of the next write cache. -/
  nextCache : CacheId

/-! ### The messages -/

/-- `FileManagerMessage`. -/
inductive FileManagerMessage
  | getRootFilehandle
  | getFilehandle (path : Option String) (filehandle : Option NfsFh4)
  | getFilehandleAttrs (filehandleId : NfsFh4)
  | createFile (path : VfsPath) (clientId : UInt64) (owner : Bytes)
      (shareAccess shareDeny : UInt32)
  | createOpenState (path : VfsPath) (clientId : UInt64) (owner : Bytes)
      (shareAccess shareDeny : UInt32)
  | lockFile (filehandleId : NfsFh4) (clientId : UInt64) (owner : Bytes) (lockType : NfsLockType4)
      (offset length : UInt64)
  | unlockFile (lockStateid : StateidOther) (offset length : UInt64)
  | testLock (filehandleId : NfsFh4) (clientId : UInt64) (owner : Bytes) (lockType : NfsLockType4)
      (offset length : UInt64)
  | releaseLockOwner (clientId : UInt64) (owner : Bytes)
  | renamePath (oldPath newPath : String) (newVfsPath : VfsPath)
  | closeFile (stateid : StateidOther)
  | removeFile (path : VfsPath)
  | touchFile (id : NfsFh4)
  | getWriteCacheHandle (filehandle : Filehandle)
  | dropWriteCacheHandle (filehandleId : NfsFh4)
  | updateFilehandle (filehandle : Filehandle)
  | openNamedAttrDir (fileid : UInt64) (createdir : Bool)
  | grantDelegation (filehandleId : NfsFh4) (clientId : UInt64) (isWrite : Bool)
  | returnDelegation (filehandleId : NfsFh4) (delegStateid : Stateid4)
  | getDelegation (filehandleId : NfsFh4)

/-- What is sent back. -/
@[reducible] def FileManagerMessage.Reply : FileManagerMessage → Type
  | getRootFilehandle => Filehandle
  | getFilehandle .. | getFilehandleAttrs _ | createFile .. | openNamedAttrDir .. => Option Filehandle
  | createOpenState .. => Option LockingState
  | lockFile .. => LockResult
  | unlockFile .. => UnlockResult
  | testLock .. => TestLockResult
  | releaseLockOwner .. | returnDelegation .. => NfsStat4
  | renamePath .. | closeFile _ | touchFile _ | dropWriteCacheHandle _ | updateFilehandle _ => Unit
  | removeFile _ => Except NfsStat4 FileManager.DirChangeInfo
  | getWriteCacheHandle _ => CacheId
  | grantDelegation .. => Option Stateid4
  | getDelegation _ => Option DelegationState

/-- The grant of a delegation. -/
def FileManagerMessage.isGrant : FileManagerMessage → Bool
  | grantDelegation .. => true
  | _ => false

namespace FileManager

variable {F : Type} [FileSystem F]

/-- `filehandle_attrs`, up to the record that the attributes are read from: it is made anew if the
metadata of the file can be read. -/
def filehandleAttrs (fm : FileManager F) (id : NfsFh4) : FileManager F × Option Filehandle :=
  match fm.getFilehandleById id with
  | (fm, none) => (fm, none)
  | (fm, some old) =>
    match lstat fm.fs old.file with
    | some m =>
      let refreshed := Filehandle.newReal old.file old.id fm.fsid fm.fsid old.version m
      ((fm.removeById old.id).fhdbReplace refreshed, some refreshed)
    | none => (fm, some old)

/-- `open_named_attr_dir`: the directory for the named attributes of a file, which is made if that
is asked for. -/
def openNamedAttrDir (fm : FileManager F) (fileid : UInt64) (createdir : Bool) :
    FileManager F × Option Filehandle :=
  let found := fun (fm : FileManager F) (dir : VfsPath) =>
    let (fm, fh) := fm.getFilehandle dir
    (fm, some fh)
  match FileSystem.join F .root ".nfs4attrs" with
  | none => (fm, none)
  | some attrsRoot =>
    match FileSystem.join F attrsRoot (toString fileid.toNat) with
    | none => (fm, none)
    | some attrDir =>
      if existsAt fm.fs attrDir then found fm attrDir
      else if !createdir then (fm, none)
      else
        match if existsAt fm.fs attrsRoot then some fm.fs else createDir fm.fs attrsRoot with
        | none => (fm, none)
        | some fs =>
          match createDir fs attrDir with
          | none => ({ fm with fs := fs }, none)
          | some fs => found { fm with fs := fs } attrDir

/-- The id that RemoveFile forgets: that of a file with a record that is not open, if the file could
be removed. -/
def forgotten (fm : FileManager F) (file : VfsPath) : Option NfsFh4 :=
  match fm.getFilehandleByPath file.toStr with
  | (_, none) => none
  | (fm, some fh) =>
    if fm.locks.hasLocks fh.id then none
    else
      match unlinkFile fm.fs file with
      | .ok _ => some fh.id
      | .error _ => none

end FileManager

namespace FileManagerActor

variable {F : Type}

/-- `get_cache_handle`: the write cache of a file. One that is made now opens the file, and the
record of the caller takes the place of that of the table. -/
def getCacheHandle (a : FileManagerActor F) (fh : Filehandle) : FileManagerActor F × CacheId :=
  match a.cachedb fh.id with
  | some cached => (a, cached)
  | none =>
    ({ a with
      toFileManager := a.toFileManager.updateFilehandle fh
      cachedb := Function.update a.cachedb fh.id (some a.nextCache)
      nextCache := a.nextCache + 1 }, a.nextCache)

/-- `make_stateid`, for a delegation. -/
def makeStateid (a : FileManagerActor F) : FileManagerActor F × Stateid4 :=
  let n := a.locks.nextStateidId + 1
  ({ a with locks := { a.locks with nextStateidId := n } },
    ⟨n.toUInt32, beBytes 4 a.bootTime.toUInt32.toNat ++ beBytes 8 n.toNat, by simp [length_beBytes]⟩)

/-- `grant_delegation`. -/
def grantDelegation (a : FileManagerActor F) (id : NfsFh4) (clientId : UInt64) (isWrite : Bool) :
    FileManagerActor F × Option Stateid4 :=
  match a.delegations id with
  | some existing => if existing.clientId ≠ clientId then (a, none) else (a, some existing.stateid)
  | none =>
    let (a, stateid) := a.makeStateid
    ({ a with delegations := Function.update a.delegations id (some ⟨clientId, stateid, isWrite⟩) },
      some stateid)

/-- `return_delegation`. -/
def returnDelegation (a : FileManagerActor F) (id : NfsFh4) (delegStateid : Stateid4) :
    FileManagerActor F × NfsStat4 :=
  match a.delegations id with
  | some existing =>
    if existing.stateid = delegStateid then
      ({ a with delegations := Function.update a.delegations id none }, .nfs4Ok)
    else (a, .nfs4errBadStateid)
  | none => (a, .nfs4errBadStateid)

/-- Drop the write cache and the delegation of a file. -/
def release (a : FileManagerActor F) (id : NfsFh4) : FileManagerActor F :=
  { a with
    cachedb := Function.update a.cachedb id none
    delegations := Function.update a.delegations id none }

variable [FileSystem F]

/-- `drop_cache_handle`. -/
def dropCacheHandle (a : FileManagerActor F) (id : NfsFh4) : FileManagerActor F :=
  { a with
    toFileManager := a.toFileManager.dropCacheHandle id
    cachedb := Function.update a.cachedb id none }

/-- The message `RemoveFile`. -/
def removeFile (a : FileManagerActor F) (file : VfsPath) :
    FileManagerActor F × Except NfsStat4 FileManager.DirChangeInfo :=
  let (fm, result) := a.toFileManager.removeFile file
  let a' := { a with toFileManager := fm }
  (((a.toFileManager.forgotten file).elim a' a'.release), result.map Prod.fst)

/-- One round of the sweep. -/
def sweepOne (a : FileManagerActor F) (id : NfsFh4) : FileManagerActor F :=
  let a' := { a with toFileManager := a.toFileManager.sweepOne id }
  if (a.getById id).isSome then a'.release id else a'

/-- `sweep_pending_deletes`, going through the ids in the given order. -/
def sweepPendingDeletes (a : FileManagerActor F) (ids : List NfsFh4) : FileManagerActor F :=
  ids.foldl sweepOne a

/-- `FileManager::new`. -/
def new (fs : F) (now : ℕ) (fsid : Option UInt64) : FileManagerActor F :=
  ⟨.new fs now fsid, fun _ => none, fun _ => none, 0⟩

/-- `handle_message`: the state after it and what is sent back, unless it panics. -/
def handleMessage (order : List LockingState → List LockingState) (a : FileManagerActor F) :
    (msg : FileManagerMessage) → Option (FileManagerActor F × msg.Reply)
  | .getRootFilehandle =>
    let (fm, fh) := a.getRootFilehandle
    some ({ a with toFileManager := fm }, fh)
  | .getFilehandle _ (some id) =>
    let (fm, fh) := a.getFilehandleForId id
    some ({ a with toFileManager := fm }, fh)
  | .getFilehandle (some path) none =>
    let (fm, fh) := a.getFilehandleForPath path
    some ({ a with toFileManager := fm }, fh)
  | .getFilehandle none none =>
    let (fm, fh) := a.getRootFilehandle
    some ({ a with toFileManager := fm }, some fh)
  | .getFilehandleAttrs id =>
    let (fm, fh) := a.filehandleAttrs id
    some ({ a with toFileManager := fm }, fh)
  | .createFile path clientId owner shareAccess shareDeny => do
    let (fm, created) ← a.createFileMsg path clientId owner shareAccess shareDeny
    pure ({ a with toFileManager := fm }, created.map Prod.fst)
  | .createOpenState path clientId owner shareAccess shareDeny => do
    let (fm, lock) ← a.createOpenState path clientId owner shareAccess shareDeny
    pure ({ a with toFileManager := fm }, some lock)
  | .lockFile id clientId owner lockType offset length => do
    let (locks, result) ← a.locks.handleLock order id clientId owner lockType offset length
    pure ({ a with locks := locks }, result)
  | .unlockFile stateid offset length =>
    let (locks, result) := a.locks.handleUnlock stateid offset length
    some ({ a with locks := locks }, result)
  | .testLock id clientId owner lockType offset length =>
    some (a, a.locks.handleTestLock order id clientId owner lockType offset length)
  | .releaseLockOwner clientId owner =>
    let (locks, status) := a.locks.handleReleaseLockOwner clientId owner
    some ({ a with locks := locks }, status)
  | .renamePath oldPath _ newVfsPath =>
    some ({ a with toFileManager := a.handleRenamePath oldPath newVfsPath }, ())
  | .closeFile stateid => some ({ a with toFileManager := a.closeFile stateid }, ())
  | .removeFile path => some (a.removeFile path)
  | .touchFile id => some ({ a with toFileManager := a.touchFile id }, ())
  | .getWriteCacheHandle fh => some (a.getCacheHandle fh)
  | .dropWriteCacheHandle id => some (a.dropCacheHandle id, ())
  | .updateFilehandle fh =>
    some ({ a with toFileManager := a.toFileManager.updateFilehandle fh }, ())
  | .openNamedAttrDir fileid createdir =>
    let (fm, fh) := a.openNamedAttrDir fileid createdir
    some ({ a with toFileManager := fm }, fh)
  | .grantDelegation id clientId isWrite => some (a.grantDelegation id clientId isWrite)
  | .returnDelegation id stateid => some (a.returnDelegation id stateid)
  | .getDelegation id => some (a, a.delegations id)

end FileManagerActor

/-! ### The records -/

namespace FileManager

variable {F : Type}

/-- What `fhdb_replace` is for: the insertion at its end succeeds, the record is found under its id
and under its path, and the records that share neither with it stay. -/
structure Replaces (fm : FileManager F) (fh : Filehandle) : Prop where
  inserts : (fm.evictFor fh).insert fh = some (fm.fhdbReplace fh).fhdb
  byId : (fm.fhdbReplace fh).getById fh.id = some fh
  byPath : (fm.fhdbReplace fh).getByPath fh.path = some fh
  others : ∀ e : Filehandle, e.id ≠ fh.id → e.path ≠ fh.path →
    (e ∈ (fm.fhdbReplace fh).fhdb ↔ e ∈ fm.fhdb)

/-- `fhdb_replace` works, whatever is in the table. -/
lemma replaces (fm : FileManager F) (fh : Filehandle) : fm.Replaces fh where
  inserts := insert_evictFor fm fh
  byId := getById_of_mem (mem_fhdbReplace.2 (Or.inl rfl))
  byPath := getByPath_of_mem (mem_fhdbReplace.2 (Or.inl rfl))
  others := by
    intro e hid hpath
    have hfile : e.file ≠ fh.file := fun h => hpath (congrArg pathStr h)
    have hne : e ≠ fh := fun h => hid (congrArg Filehandle.id h)
    rw [mem_fhdbReplace]
    tauto

/-- Ids and paths are one to one. -/
def OneToOne (fm : FileManager F) : Prop :=
  ∀ e ∈ fm.fhdb, ∀ e' ∈ fm.fhdb, e.id = e'.id ∨ e.path = e'.path → e = e'

lemma oneToOne (fm : FileManager F) : fm.OneToOne := by
  rintro e he e' he' (hid | hpath)
  · exact eq_of_id_eq he he' hid
  · exact eq_of_file_eq he he' (pathStr_injective hpath)

/-! ### What lookups leave alone -/

section SameWorld

variable [FileSystem F] (fm : FileManager F) (file : VfsPath) (id : NfsFh4)

lemma sameWorld_getFilehandleById : SameWorld fm (fm.getFilehandleById id).1 := by
  unfold getFilehandleById
  split
  · exact .refl _
  · split_ifs
    · exact .refl _
    all_goals split <;> exact ⟨rfl, rfl, rfl, rfl, rfl, rfl⟩

lemma sameWorld_getFilehandleByPath (path : String) :
    SameWorld fm (fm.getFilehandleByPath path).1 := by
  unfold getFilehandleByPath
  split
  · exact .refl _
  · split_ifs <;> exact ⟨rfl, rfl, rfl, rfl, rfl, rfl⟩

lemma sameWorld_getFilehandleId : SameWorld fm (fm.getFilehandleId file).1 := by
  unfold getFilehandleId
  have hpath := sameWorld_getFilehandleByPath fm (pathStr file)
  generalize fm.getFilehandleByPath (pathStr file) = r at hpath ⊢
  rcases r with ⟨fm₁, _ | fh⟩
  · dsimp only
    cases lstat fm₁.fs file with
    | some m => exact hpath
    | none => exact hpath.trans ⟨rfl, rfl, rfl, rfl, rfl, rfl⟩
  · exact hpath

lemma sameWorld_getFilehandle : SameWorld fm (fm.getFilehandle file).1 := by
  unfold getFilehandle
  have hid := sameWorld_getFilehandleId fm file
  generalize fm.getFilehandleId file = r at hid ⊢
  obtain ⟨fm₁, id⟩ := r
  have hfh := hid.trans (sameWorld_getFilehandleById fm₁ id)
  dsimp only at hid ⊢
  generalize fm₁.getFilehandleById id = r at hfh ⊢
  rcases r with ⟨fm₂, _ | fh⟩
  · exact hfh.trans ⟨rfl, rfl, rfl, rfl, rfl, rfl⟩
  · dsimp only
    split_ifs
    · exact hfh
    · exact hfh.trans ⟨rfl, rfl, rfl, rfl, rfl, rfl⟩

/-- The record for a file is one of that file. -/
lemma file_getFilehandle : (fm.getFilehandle file).2.file = file := by
  unfold getFilehandle
  dsimp only
  split
  · split_ifs with hpath
    · exact pathStr_injective hpath
    · exact Filehandle.ofFile_file ..
  · exact Filehandle.ofFile_file ..

lemma sameWorld_dropCacheHandle : SameWorld fm (fm.dropCacheHandle id) := by
  unfold dropCacheHandle
  have hfh := sameWorld_getFilehandleById fm id
  generalize fm.getFilehandleById id = r at hfh ⊢
  rcases r with ⟨fm₁, _ | fh⟩
  · exact hfh
  · exact hfh.trans ⟨rfl, rfl, rfl, rfl, rfl, rfl⟩

lemma sameWorld_touchFile : SameWorld fm (fm.touchFile id) := by
  unfold touchFile
  have hfh := sameWorld_getFilehandleById fm id
  generalize fm.getFilehandleById id = r at hfh ⊢
  rcases r with ⟨fm₁, _ | fh⟩
  · exact hfh
  · exact hfh.trans ⟨rfl, rfl, rfl, rfl, rfl, rfl⟩

lemma sameWorld_touchPath : SameWorld fm (fm.touchPath file) := by
  unfold touchPath
  have hfh := sameWorld_getFilehandleByPath fm (pathStr file)
  generalize fm.getFilehandleByPath (pathStr file) = r at hfh ⊢
  rcases r with ⟨fm₁, _ | fh⟩
  · exact hfh
  · exact hfh.trans ⟨rfl, rfl, rfl, rfl, rfl, rfl⟩

lemma sameWorld_getFilehandleForId : SameWorld fm (fm.getFilehandleForId id).1 := by
  unfold getFilehandleForId
  have hfh := sameWorld_getFilehandleById fm id
  generalize fm.getFilehandleById id = r at hfh ⊢
  rcases r with ⟨fm₁, _ | fh⟩ <;> exact hfh

lemma sameWorld_getFilehandleForPath (path : String) :
    SameWorld fm (fm.getFilehandleForPath path).1 := by
  unfold getFilehandleForPath
  split
  · exact .refl _
  · split_ifs
    · exact sameWorld_getFilehandle fm _
    · exact .refl _

lemma sameWorld_filehandleAttrs : SameWorld fm (fm.filehandleAttrs id).1 := by
  unfold filehandleAttrs
  have hfh := sameWorld_getFilehandleById fm id
  generalize fm.getFilehandleById id = r at hfh ⊢
  rcases r with ⟨fm₁, _ | fh⟩
  · exact hfh
  · dsimp only
    cases lstat fm₁.fs fh.file with
    | none => exact hfh
    | some m => exact hfh.trans ⟨rfl, rfl, rfl, rfl, rfl, rfl⟩

end SameWorld

section Locks

variable [FileSystem F] (fm : FileManager F) (file : VfsPath)

lemma openNamedAttrDir_locks (fileid : UInt64) (createdir : Bool) :
    (fm.openNamedAttrDir fileid createdir).1.locks = fm.locks := by
  unfold openNamedAttrDir
  split
  · rfl
  · split
    · rfl
    · dsimp only
      split
      · exact (sameWorld_getFilehandle fm _).locks
      · split
        · rfl
        · split
          · rfl
          · split
            · rfl
            · exact (sameWorld_getFilehandle _ _).locks

lemma handleRenamePath_locks (oldPath : String) :
    (fm.handleRenamePath oldPath file).locks = fm.locks := by
  unfold handleRenamePath
  dsimp only
  split <;> rfl

lemma createFile_locks {fm' : FileManager F} {fh : Filehandle}
    (h : fm.createFile file = some (fm', fh)) : fm'.locks = fm.locks := by
  unfold createFile at h
  split at h
  · cases h
  · cases h
    exact ((sameWorld_getFilehandle _ _).trans (sameWorld_touchPath _ _)).locks

end Locks

end FileManager

/-! ### The lock table -/

namespace LockTable

/-- What a message does to the lock table: entries are removed, a stateid is issued without an
entry, or an entry is inserted under the next stateid. -/
inductive Evolves (t : LockTable) : LockTable → Prop
  | refl : Evolves t t
  | erase (p : LockingState → Bool) : Evolves t { t with lockdb := t.lockdb.erase p }
  | issue : Evolves t { t with nextStateidId := t.nextStateidId + 1 }
  | insert {t' : LockTable} {entry : StateidOther → LockingState}
      (hentry : ∀ stateid, (entry stateid).stateid = stateid) (h : t.insertNew entry = some t') :
      Evolves t t'

/-- What every message but the grant of a delegation does: no stateid is issued without an entry. -/
inductive Updates (t : LockTable) : LockTable → Prop
  | refl : Updates t t
  | erase (p : LockingState → Bool) : Updates t { t with lockdb := t.lockdb.erase p }
  | insert {t' : LockTable} {entry : StateidOther → LockingState}
      (hentry : ∀ stateid, (entry stateid).stateid = stateid) (h : t.insertNew entry = some t') :
      Updates t t'

/-- The next stateid is not in use. -/
def Fresh (t : LockTable) : Prop := ∀ e ∈ t.lockdb, e.stateid ≠ lockingstateId t.nextStateidId

/-- `n` stateids were issued, and every entry is under one of them. -/
structure Issued (n : ℕ) (t : LockTable) : Prop where
  next : t.nextStateidId = UInt64.ofNat (100 + n)
  entries : ∀ e ∈ t.lockdb, ∃ k < n, e.stateid = lockingstateId (UInt64.ofNat (100 + k))

variable {t t' : LockTable} {n : ℕ} {entry : StateidOther → LockingState}

lemma Updates.evolves (h : t.Updates t') : t.Evolves t' := by
  cases h with
  | refl => exact .refl
  | erase p => exact .erase p
  | insert hentry hinsert => exact .insert hentry hinsert

lemma lockingstateId_injective : Function.Injective lockingstateId := by
  intro m n h
  have hbytes : beBytes 8 m.toNat = beBytes 8 n.toNat :=
    List.append_cancel_left (congrArg List.Vector.toList h)
  have hm : ofBytes (beBytes 8 m.toNat) = m.toNat := ofBytes_beBytes m.toNat_lt
  have hn : ofBytes (beBytes 8 n.toNat) = n.toNat := ofBytes_beBytes n.toNat_lt
  apply UInt64.toNat_inj.1
  rw [← hm, hbytes, hn]

/-- The counter comes back to a value after `2 ^ 64` stateids only. -/
lemma Issued.fresh (h : Issued n t) (hn : n < 2 ^ 64) : t.Fresh := by
  intro e he heq
  obtain ⟨k, hk, hid⟩ := h.entries e he
  have hcounter : UInt64.ofNat (100 + k) = UInt64.ofNat (100 + n) := by
    apply lockingstateId_injective
    rw [← hid, heq, h.next]
  have hmod : (100 + k) % 2 ^ 64 = (100 + n) % 2 ^ 64 := by
    simpa using congrArg UInt64.toNat hcounter
  omega

/-- An entry is inserted if the next stateid is not in use. -/
lemma Fresh.insertNew (h : t.Fresh) (hentry : ∀ stateid, (entry stateid).stateid = stateid) :
    ∃ t', t.insertNew entry = some t' := by
  have hfree : ∀ e ∈ t.lockdb.entries,
      (e.stateid == (entry (lockingstateId t.nextStateidId)).stateid) = false := by
    intro e he
    rw [hentry]
    simpa using h e he
  unfold LockTable.insertNew Table.insert
  rw [dif_pos hfree]
  exact ⟨_, rfl⟩

/-- The table after an insertion under the next stateid. -/
lemma of_insertNew (h : t.insertNew entry = some t') :
    t'.nextStateidId = t.nextStateidId + 1 ∧
      ∀ e, e ∈ t'.lockdb ↔ e ∈ t.lockdb ∨ e = entry (lockingstateId t.nextStateidId) := by
  unfold insertNew at h
  obtain ⟨db, hdb, heq⟩ := Option.bind_eq_some_iff.1 h
  cases heq
  exact ⟨rfl, fun e => Table.mem_insert hdb⟩

lemma one_sub_self (c : UInt64) : (c + 1 - c).toNat = 1 := by
  have hone : c + 1 - c = 1 := by
    rw [UInt64.add_comm, UInt64.add_sub_cancel]
  rw [hone]
  rfl

/-- The invariant of the stateids, when the table evolves. -/
lemma Issued.evolves (h : Issued n t) (hstep : t.Evolves t') :
    Issued (n + (t'.nextStateidId - t.nextStateidId).toNat) t' := by
  have hweaken : ∀ e ∈ t.lockdb, ∃ k < n + 1, e.stateid = lockingstateId (UInt64.ofNat (100 + k)) := by
    intro e he
    obtain ⟨k, hk, hid⟩ := h.entries e he
    exact ⟨k, by omega, hid⟩
  have hnext : t.nextStateidId + 1 = UInt64.ofNat (100 + (n + 1)) := by
    rw [h.next]
    apply UInt64.toNat_inj.1
    simp [UInt64.toNat_add]
    omega
  cases hstep with
  | refl => simpa using h
  | erase p =>
    simp only [UInt64.sub_self]
    exact ⟨h.next, fun e he => h.entries e (Table.mem_erase.1 he).1⟩
  | issue =>
    rw [one_sub_self]
    exact ⟨hnext, hweaken⟩
  | insert hentry hinsert =>
    obtain ⟨hcounter, hmem⟩ := of_insertNew hinsert
    rw [hcounter, one_sub_self]
    refine ⟨by rw [hcounter, hnext], fun e he => ?_⟩
    rcases (hmem e).1 he with hold | rfl
    · exact hweaken e hold
    · exact ⟨n, by omega, by rw [hentry, h.next]⟩

/-- An entry that is new is under a stateid that was not in use. -/
lemma Evolves.new_stateid (hstep : t.Evolves t') (hfresh : t.Fresh) :
    ∀ e ∈ t'.lockdb, e ∉ t.lockdb → ∀ e' ∈ t.lockdb, e'.stateid ≠ e.stateid := by
  intro e he hnew e' he'
  cases hstep with
  | refl => exact absurd he hnew
  | erase p => exact absurd (Table.mem_erase.1 he).1 hnew
  | issue => exact absurd he hnew
  | insert hentry hinsert =>
    rcases ((of_insertNew hinsert).2 e).1 he with hold | rfl
    · exact absurd hold hnew
    · rw [hentry]
      exact hfresh e' he'

end LockTable

/-! ### The messages and the lock table -/

namespace FileManager

variable {F : Type} [FileSystem F] {fm fm' : FileManager F} {file : VfsPath} {id : NfsFh4}
  {clientId : UInt64} {owner : Bytes} {shareAccess shareDeny : UInt32}

omit [FileSystem F] in
/-- A share reservation is inserted under the next stateid. -/
lemma insertOpen_updates {lock : LockingState}
    (h : fm.insertOpen id clientId owner shareAccess shareDeny = some (fm', lock)) :
    fm.locks.Updates fm'.locks := by
  unfold insertOpen at h
  obtain ⟨locks, hinsert, heq⟩ := Option.bind_eq_some_iff.1 h
  cases heq
  exact .insert (fun _ => rfl) hinsert

omit [FileSystem F] in
lemma exists_insertOpen (h : fm.locks.Fresh) (id : NfsFh4) (clientId : UInt64) (owner : Bytes)
    (shareAccess shareDeny : UInt32) :
    ∃ res, fm.insertOpen id clientId owner shareAccess shareDeny = some res := by
  have hsome : ∃ locks, fm.locks.insertNew (fun stateid =>
      .newSharedReservation id stateid clientId owner shareAccess shareDeny) = some locks :=
    h.insertNew fun _ => rfl
  obtain ⟨locks, hinsert⟩ := hsome
  unfold insertOpen
  dsimp only
  rw [hinsert]
  exact ⟨_, rfl⟩

lemma createFileMsg_updates {created : Option (Filehandle × LockingState)}
    (h : fm.createFileMsg file clientId owner shareAccess shareDeny = some (fm', created)) :
    fm.locks.Updates fm'.locks := by
  unfold createFileMsg at h
  split at h
  · cases h
    exact .refl
  · rename_i fm₁ fh hcreate
    obtain ⟨⟨fm₂, lock⟩, hopen, heq⟩ := Option.bind_eq_some_iff.1 h
    cases heq
    rw [← createFile_locks _ _ hcreate]
    exact insertOpen_updates hopen

lemma exists_createFileMsg (h : fm.locks.Fresh) (file : VfsPath) (clientId : UInt64) (owner : Bytes)
    (shareAccess shareDeny : UInt32) :
    ∃ res, fm.createFileMsg file clientId owner shareAccess shareDeny = some res := by
  unfold createFileMsg
  split
  · exact ⟨_, rfl⟩
  · rename_i fm₁ fh hcreate
    have hfresh : fm₁.locks.Fresh := by
      rw [createFile_locks _ _ hcreate]
      exact h
    obtain ⟨⟨fm₂, lock⟩, hopen⟩ := exists_insertOpen hfresh fh.id clientId owner shareAccess shareDeny
    rw [hopen]
    exact ⟨_, rfl⟩

lemma createOpenState_updates {lock : LockingState}
    (h : fm.createOpenState file clientId owner shareAccess shareDeny = some (fm', lock)) :
    fm.locks.Updates fm'.locks := by
  rw [← (sameWorld_getFilehandle fm file).locks]
  exact insertOpen_updates h

lemma exists_createOpenState (h : fm.locks.Fresh) (file : VfsPath) (clientId : UInt64)
    (owner : Bytes) (shareAccess shareDeny : UInt32) :
    ∃ res, fm.createOpenState file clientId owner shareAccess shareDeny = some res := by
  have hfresh : (fm.getFilehandle file).1.locks.Fresh := by
    rw [(sameWorld_getFilehandle fm file).locks]
    exact h
  exact exists_insertOpen hfresh _ _ _ _ _

lemma sillyRename_locks (fm : FileManager F) (file : VfsPath) (fh : Filehandle) :
    (fm.sillyRename file fh).1.locks = fm.locks := by
  unfold sillyRename
  dsimp only
  split
  · split <;> rfl
  · split
    · split <;> rfl
    · rfl

/-- Forgetting a file removes its entries. -/
lemma forget_updates (fm : FileManager F) (id : NfsFh4) :
    fm.locks.Updates (fm.forget id).locks := by
  have hlocks : (fm.forget id).locks =
      { fm.locks with lockdb := fm.locks.lockdb.erase fun e => e.filehandleId == id } :=
    (sameWorld_dropCacheHandle _ _).locks
  rw [hlocks]
  exact .erase _

lemma removeName_updates (fm : FileManager F) (file : VfsPath) :
    fm.locks.Updates (fm.removeName file).1.locks := by
  unfold removeName
  have hlocks := (sameWorld_getFilehandleByPath fm file.toStr).locks
  generalize fm.getFilehandleByPath file.toStr = r at hlocks ⊢
  obtain ⟨fm₁, filehandle⟩ := r
  dsimp only at hlocks ⊢
  rw [← hlocks]
  split
  · split_ifs
    · split <;> exact .refl
    · rw [sillyRename_locks]
      exact .refl
  · split
    · exact .refl
    · rename_i fs hfs
      split
      · exact .refl
      · exact forget_updates { fm₁ with fs := fs } _

lemma removeFile_updates (fm : FileManager F) (file : VfsPath) :
    fm.locks.Updates (fm.removeFile file).1.locks := by
  unfold removeFile
  have hname := removeName_updates fm file
  generalize fm.removeName file = r at hname ⊢
  obtain ⟨fm₁, _ | silly⟩ := r
  · exact hname
  · dsimp only at hname ⊢
    rw [(sameWorld_touchPath _ _).locks]
    exact hname

lemma sweepOne_locks (fm : FileManager F) (id : NfsFh4) : (fm.sweepOne id).locks = fm.locks := by
  unfold sweepOne
  dsimp only
  split
  · rfl
  · exact (@sameWorld_dropCacheHandle F _ _ _).locks

end FileManager

namespace FileManagerActor

variable {F : Type} [FileSystem F] {order : List LockingState → List LockingState}
  {a a' : FileManagerActor F} {msg : FileManagerMessage}

lemma handleLock_updates {t t' : LockTable} {id : NfsFh4} {clientId : UInt64} {owner : Bytes}
    {lockType : NfsLockType4} {offset length : UInt64} {result : LockResult}
    (h : t.handleLock order id clientId owner lockType offset length = some (t', result)) :
    t.Updates t' := by
  unfold LockTable.handleLock at h
  split at h
  · cases h
    exact .refl
  · obtain ⟨t₁, hinsert, heq⟩ := Option.bind_eq_some_iff.1 h
    cases heq
    exact .insert (fun _ => rfl) hinsert

lemma exists_handleLock {t : LockTable} (h : t.Fresh) (id : NfsFh4) (clientId : UInt64)
    (owner : Bytes) (lockType : NfsLockType4) (offset length : UInt64) :
    ∃ res, t.handleLock order id clientId owner lockType offset length = some res := by
  unfold LockTable.handleLock
  split
  · exact ⟨_, rfl⟩
  · have hsome : ∃ t', t.insertNew (fun stateid =>
        .newByteRangeLock id stateid clientId owner lockType offset length) = some t' :=
      h.insertNew fun _ => rfl
    obtain ⟨t', hinsert⟩ := hsome
    dsimp only
    rw [hinsert]
    exact ⟨_, rfl⟩

lemma handleUnlock_updates (t : LockTable) (stateid : StateidOther) (offset length : UInt64) :
    t.Updates (t.handleUnlock stateid offset length).1 := by
  unfold LockTable.handleUnlock
  split
  · exact .erase _
  · exact .refl

omit [FileSystem F] in
lemma getCacheHandle_locks (a : FileManagerActor F) (fh : Filehandle) :
    (a.getCacheHandle fh).1.locks = a.locks := by
  unfold getCacheHandle
  split <;> rfl

lemma removeFile_locks (a : FileManagerActor F) (file : VfsPath) :
    (a.removeFile file).1.locks = (a.toFileManager.removeFile file).1.locks := by
  unfold removeFile
  dsimp only
  cases a.toFileManager.forgotten file <;> rfl

omit [FileSystem F] in
lemma grantDelegation_evolves (a : FileManagerActor F) (id : NfsFh4) (clientId : UInt64)
    (isWrite : Bool) : a.locks.Evolves (a.grantDelegation id clientId isWrite).1.locks := by
  unfold grantDelegation
  split
  · split_ifs <;> exact .refl
  · exact .issue

omit [FileSystem F] in
lemma returnDelegation_locks (a : FileManagerActor F) (id : NfsFh4) (stateid : Stateid4) :
    (a.returnDelegation id stateid).1.locks = a.locks := by
  unfold returnDelegation
  split
  · split_ifs <;> rfl
  · rfl

/-- What a message does to the lock table, unless it is the grant of a delegation. -/
lemma handleMessage_updates {res : FileManagerActor F × msg.Reply}
    (h : a.handleMessage order msg = some res) (hgrant : msg.isGrant = false) :
    a.locks.Updates res.1.locks := by
  have hsame : ∀ {t : LockTable}, t = a.locks → a.locks.Updates t := by
    rintro t rfl
    exact .refl
  cases msg with
  | getRootFilehandle =>
    obtain rfl := Option.some.inj h
    exact hsame (FileManager.sameWorld_getFilehandle _ _).locks
  | getFilehandle path filehandle =>
    rcases filehandle with _ | id
    · rcases path with _ | path
      · obtain rfl := Option.some.inj h
        exact hsame (FileManager.sameWorld_getFilehandle _ _).locks
      · obtain rfl := Option.some.inj h
        exact hsame (FileManager.sameWorld_getFilehandleForPath _ _).locks
    · obtain rfl := Option.some.inj h
      exact hsame (FileManager.sameWorld_getFilehandleForId _ _).locks
  | getFilehandleAttrs id =>
    obtain rfl := Option.some.inj h
    exact hsame (FileManager.sameWorld_filehandleAttrs _ _).locks
  | createFile path clientId owner shareAccess shareDeny =>
    obtain ⟨⟨fm, created⟩, hcreate, heq⟩ := Option.bind_eq_some_iff.1 h
    cases heq
    exact FileManager.createFileMsg_updates hcreate
  | createOpenState path clientId owner shareAccess shareDeny =>
    obtain ⟨⟨fm, lock⟩, hopen, heq⟩ := Option.bind_eq_some_iff.1 h
    cases heq
    exact FileManager.createOpenState_updates hopen
  | lockFile id clientId owner lockType offset length =>
    obtain ⟨⟨t, result⟩, hlock, heq⟩ := Option.bind_eq_some_iff.1 h
    cases heq
    exact handleLock_updates hlock
  | unlockFile stateid offset length =>
    obtain rfl := Option.some.inj h
    exact handleUnlock_updates a.locks stateid offset length
  | testLock id clientId owner lockType offset length =>
    obtain rfl := Option.some.inj h
    exact .refl
  | releaseLockOwner clientId owner =>
    obtain rfl := Option.some.inj h
    exact .erase _
  | renamePath oldPath newPath newVfsPath =>
    obtain rfl := Option.some.inj h
    exact hsame (FileManager.handleRenamePath_locks _ _ _)
  | closeFile stateid =>
    obtain rfl := Option.some.inj h
    exact .erase _
  | removeFile path =>
    obtain rfl := Option.some.inj h
    have hlocks := FileManager.removeFile_updates a.toFileManager path
    rw [← removeFile_locks] at hlocks
    exact hlocks
  | touchFile id =>
    obtain rfl := Option.some.inj h
    exact hsame (FileManager.sameWorld_touchFile _ _).locks
  | getWriteCacheHandle fh =>
    obtain rfl := Option.some.inj h
    exact hsame (getCacheHandle_locks _ _)
  | dropWriteCacheHandle id =>
    obtain rfl := Option.some.inj h
    exact hsame (FileManager.sameWorld_dropCacheHandle _ _).locks
  | updateFilehandle fh =>
    obtain rfl := Option.some.inj h
    exact .refl
  | openNamedAttrDir fileid createdir =>
    obtain rfl := Option.some.inj h
    exact hsame (FileManager.openNamedAttrDir_locks _ _ _)
  | grantDelegation id clientId isWrite => cases hgrant
  | returnDelegation id stateid =>
    obtain rfl := Option.some.inj h
    exact hsame (returnDelegation_locks _ _ _)
  | getDelegation id =>
    obtain rfl := Option.some.inj h
    exact .refl

/-- What a message does to the lock table. -/
lemma handleMessage_evolves {res : FileManagerActor F × msg.Reply}
    (h : a.handleMessage order msg = some res) : a.locks.Evolves res.1.locks := by
  by_cases hgrant : msg.isGrant = false
  · exact (handleMessage_updates h hgrant).evolves
  · cases msg with
    | grantDelegation id clientId isWrite =>
      obtain rfl := Option.some.inj h
      exact grantDelegation_evolves _ _ _ _
    | _ => exact absurd rfl hgrant

/-- A message is handled if the next stateid is not in use. -/
lemma exists_handleMessage (h : a.locks.Fresh) (order : List LockingState → List LockingState)
    (msg : FileManagerMessage) :
    ∃ a' reply, a.handleMessage order msg = some (a', reply) := by
  cases msg with
  | createFile path clientId owner shareAccess shareDeny =>
    obtain ⟨⟨fm, created⟩, hcreate⟩ :=
      FileManager.exists_createFileMsg h path clientId owner shareAccess shareDeny
    exact ⟨_, _, Option.bind_eq_some_iff.2 ⟨_, hcreate, rfl⟩⟩
  | createOpenState path clientId owner shareAccess shareDeny =>
    obtain ⟨⟨fm, lock⟩, hopen⟩ :=
      FileManager.exists_createOpenState h path clientId owner shareAccess shareDeny
    exact ⟨_, _, Option.bind_eq_some_iff.2 ⟨_, hopen, rfl⟩⟩
  | lockFile id clientId owner lockType offset length =>
    obtain ⟨⟨t, result⟩, hlock⟩ :=
      exists_handleLock h id clientId owner lockType offset length
    exact ⟨_, _, Option.bind_eq_some_iff.2 ⟨_, hlock, rfl⟩⟩
  | getFilehandle path filehandle =>
    rcases filehandle with _ | id
    · rcases path with _ | path <;> exact ⟨_, _, rfl⟩
    · exact ⟨_, _, rfl⟩
  | _ => exact ⟨_, _, rfl⟩

/-! ### The states of the actor -/

/-- The stateids that were issued between two states: how far the counter was moved. -/
def issuedBetween (a a' : FileManagerActor F) : ℕ :=
  (a'.locks.nextStateidId - a.locks.nextStateidId).toNat

/-- The states that the actor can get into, with the number of stateids issued on the way: by
messages, by sweeps, and by what happens outside. -/
inductive Reachable : ℕ → FileManagerActor F → Prop
  | new (fs : F) (now : ℕ) (fsid : Option UInt64) : Reachable 0 (.new fs now fsid)
  | message {n : ℕ} {a a' : FileManagerActor F} (order : List LockingState → List LockingState)
      {msg : FileManagerMessage} {reply : msg.Reply} (ha : Reachable n a)
      (h : a.handleMessage order msg = some (a', reply)) : Reachable (n + issuedBetween a a') a'
  | sweep {n : ℕ} {a : FileManagerActor F} {ids : List NfsFh4} (ha : Reachable n a)
      (hids : ids.Perm a.toDelete) : Reachable n (a.sweepPendingDeletes ids)
  | outside {n : ℕ} {a : FileManagerActor F} (fs : F) (now : ℕ) (ha : Reachable n a) :
      Reachable n { a with fs := fs, now := now }

lemma sweepOne_locks (a : FileManagerActor F) (id : NfsFh4) : (a.sweepOne id).locks = a.locks := by
  unfold sweepOne
  dsimp only
  split_ifs <;> exact FileManager.sweepOne_locks _ _

lemma sweepPendingDeletes_locks (ids : List NfsFh4) :
    ∀ a : FileManagerActor F, (a.sweepPendingDeletes ids).locks = a.locks := by
  induction ids with
  | nil => exact fun _ => rfl
  | cons id ids ih => exact fun a => (ih (a.sweepOne id)).trans (sweepOne_locks a id)

/-- Every entry of the lock table is under a stateid that was issued. -/
lemma Reachable.issued {n : ℕ} (h : Reachable n a) : a.locks.Issued n := by
  induction h with
  | new fs now fsid =>
    have hlocks : (FileManagerActor.new fs now fsid).locks = LockTable.new :=
      (FileManager.sameWorld_getFilehandle _ _).locks
    rw [hlocks]
    exact ⟨rfl, fun e he => absurd he Table.not_mem_empty⟩
  | message order ha h ih => exact ih.evolves (handleMessage_evolves h)
  | sweep ha hids ih =>
    rw [sweepPendingDeletes_locks]
    exact ih
  | outside fs now ha ih => exact ih

/-- The tables never collide: in every state of the actor with fewer than `2 ^ 64` stateids issued,
every message is handled, an entry that it inserts into the lock table is under a stateid that was
not in use, and afterwards the ids and paths of the records are one to one. Whatever is in the
table, `fhdb_replace` inserts its record, which is then found under both keys, and leaves the
records that share neither. -/
theorem handleMessage_distinct {n : ℕ} (h : Reachable n a) (hn : n < 2 ^ 64)
    (order : List LockingState → List LockingState) (msg : FileManagerMessage) :
    (∃ a' reply, a.handleMessage order msg = some (a', reply) ∧
      (∀ e ∈ a'.locks.lockdb, e ∉ a.locks.lockdb → ∀ e' ∈ a.locks.lockdb, e'.stateid ≠ e.stateid) ∧
      a'.OneToOne) ∧
    ∀ (fm : FileManager F) (fh : Filehandle), fm.Replaces fh := by
  have hfresh := h.issued.fresh hn
  obtain ⟨a', reply, hhandled⟩ := exists_handleMessage hfresh order msg
  exact ⟨⟨a', reply, hhandled, (handleMessage_evolves hhandled).new_stateid hfresh,
    FileManager.oneToOne _⟩, FileManager.replaces⟩

/-- The tables do not collide when the first file of an empty export is created. -/
theorem handleMessage_distinct_create :
    Reachable 0 (FileManagerActor.new (⟨[], 2⟩ : FlatFs) 0 none) ∧
    (∃ a' reply, (FileManagerActor.new (⟨[], 2⟩ : FlatFs) 0 none).handleMessage id
        (.createFile (AbsPath.root.child "f" (by decide)) 1 [] 1 0) = some (a', reply) ∧
      a'.OneToOne) ∧
    ∀ fh : Filehandle, (FileManagerActor.new (⟨[], 2⟩ : FlatFs) 0 none).Replaces fh := by
  obtain ⟨⟨a', reply, h, -, hone⟩, hreplaces⟩ := handleMessage_distinct
    (Reachable.new (⟨[], 2⟩ : FlatFs) 0 none) (by norm_num) id
    (.createFile (AbsPath.root.child "f" (by decide)) 1 [] 1 0)
  exact ⟨.new _ _ _, ⟨a', reply, h, hone⟩, hreplaces _⟩

end FileManagerActor

end NextNfs
