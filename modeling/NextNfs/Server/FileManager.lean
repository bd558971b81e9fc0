import NextNfs.Server.Filehandle

set_option relaxedAutoImplicit false
set_option autoImplicit false

/-!
# The file manager

This module models the part of `filemanager/mod.rs` that keeps filehandles: the table of
records under unique ids and unique paths, their lookup by id and by path with the eviction of
stale records and the recovery by inode, and the messages that create, remove and rename files.

## Main definitions

* `NextNfs.FileManager` — the state of a file manager, with the file system it works on.
* `NextNfs.FileManager.getFilehandleById`, `NextNfs.FileManager.getFilehandle` — the lookups.
* `NextNfs.FileManager.removeFile`, `NextNfs.FileManager.handleRenamePath`,
  `NextNfs.FileManager.sweepPendingDeletes` — the messages that take names away.

## Main results

* `NextNfs.FileManager.mem_fhdbReplace` — the records after one is put in place of others.

## Implementation notes

A file manager is an actor: it handles one message after another, so its functions are modelled
as functions on its state. Requests change the file system directly too, and the model keeps
the file system in the state of the manager. The set of pending deletes is a list without a
meaning to its order; the order in which a sweep goes through it is a parameter.
-/

namespace NextNfs

open Wire

/-! ### The state -/

/-- `FilehandleDb`: records under unique ids and unique paths. -/
abbrev FilehandleDb := Table Filehandle fun a b => a.id == b.id || a.path == b.path

/-- `FileManager`, with the file system it works on and the clock. -/
structure FileManager (F : Type) where
  fs : F
  now : ℕ
  exportId : UInt8
  fsid : UInt64
  bootTime : UInt64
  fhdb : FilehandleDb
  nextFhId : ℕ
  locks : LockTable
  pendingDeletes : List NfsFh4

namespace FileManager

variable {F : Type}

/-! ### The table -/

/-- `fhdb.get_by_id`. -/
def getById (fm : FileManager F) (id : NfsFh4) : Option Filehandle :=
  fm.fhdb.find? fun e => e.id == id

/-- `fhdb.get_by_path`. -/
def getByPath (fm : FileManager F) (path : String) : Option Filehandle :=
  fm.fhdb.find? fun e => e.path == path

/-- `fhdb.remove_by_id`. -/
def removeById (fm : FileManager F) (id : NfsFh4) : FileManager F :=
  { fm with fhdb := fm.fhdb.erase fun e => e.id == id }

/-- `fhdb_replace`: evict what would collide, then insert. -/
def fhdbReplace (fm : FileManager F) (fh : Filehandle) : FileManager F :=
  let db := (fm.fhdb.erase fun e => e.id == fh.id).erase fun e => e.path == fh.path
  { fm with fhdb := (db.insert fh).getD db }

/-- A record that a lookup keeps although its path is gone: the file is open, or its deletion is
pending. -/
def isHeld (fm : FileManager F) (id : NfsFh4) : Bool :=
  fm.pendingDeletes.contains id || fm.locks.hasLocks id

/-- `attach_locks`. -/
def attachLocks (fm : FileManager F) (fh : Filehandle) : Filehandle :=
  { fh with locks := fm.locks.lockdb.select fun e => e.filehandleId == fh.id }

section Table

variable {fm fm' : FileManager F} {e fh : Filehandle} {id : NfsFh4}

lemma clash_symm (a b : Filehandle) :
    (a.id == b.id || a.path == b.path) = (b.id == a.id || b.path == a.path) := by
  rw [Bool.beq_comm, Bool.beq_comm (a := a.path)]

/-- Two records under one id are the same. -/
lemma eq_of_id_eq (he : e ∈ fm.fhdb) (hfh : fh ∈ fm.fhdb) (h : e.id = fh.id) : e = fh :=
  Table.eq_of_clash clash_symm he hfh (by simp [h])

@[simp] lemma mem_removeById : e ∈ (fm.removeById id).fhdb ↔ e ∈ fm.fhdb ∧ e.id ≠ id := by
  simp [removeById]

/-- What is left of the table when all that would collide with a record is evicted. -/
def evictFor (fm : FileManager F) (fh : Filehandle) : FilehandleDb :=
  (fm.fhdb.erase fun e => e.id == fh.id).erase fun e => e.path == fh.path

/-- The insertion at the end of `fhdb_replace` succeeds. -/
lemma insert_evictFor (fm : FileManager F) (fh : Filehandle) :
    (fm.evictFor fh).insert fh = some (fm.fhdbReplace fh).fhdb := by
  have hfree : ∀ b ∈ fm.evictFor fh, (b.id == fh.id || b.path == fh.path) = false := by
    intro b hb
    simp only [evictFor, Table.mem_erase] at hb
    simp [hb.1.2, hb.2]
  have hinsert : ∃ db, (fm.evictFor fh).insert fh = some db := ⟨_, dif_pos hfree⟩
  obtain ⟨db, hdb⟩ := hinsert
  rw [fhdbReplace]
  change _ = some (((fm.evictFor fh).insert fh).getD (fm.evictFor fh))
  rw [hdb, Option.getD_some]

/-- The records after one is put in place of those it collides with. -/
lemma mem_fhdbReplace : e ∈ (fm.fhdbReplace fh).fhdb ↔
    e = fh ∨ e ∈ fm.fhdb ∧ e.id ≠ fh.id ∧ e.file ≠ fh.file := by
  have hpath : ∀ a : Filehandle, a.path = fh.path ↔ a.file = fh.file := fun a =>
    pathStr_injective.eq_iff
  rw [Table.mem_insert (insert_evictFor fm fh)]
  simp only [evictFor, Table.mem_erase, beq_eq_false_iff_ne, ne_eq, hpath]
  tauto

end Table

variable [FileSystem F]

/-- The record for a file, made now. -/
def makeFilehandle (fm : FileManager F) (file : VfsPath) (id : NfsFh4) (version : UInt64) :
    Filehandle :=
  .ofFile fm.fs fm.now fm.fsid file id version

/-! ### Lookups -/

/-- `find_by_inode_in_parent`: the entry of the parent directory with an inode number. -/
def findByInodeInParent (fm : FileManager F) (fh : Filehandle) (ino : UInt64) : Option VfsPath :=
  (readDir fm.fs (VfsPath.real F fh.file.parent)).bind fun entries =>
    (entries.find? fun e => e.2.ino == ino).bind fun e => FileSystem.join F fh.file.parent e.1

/-- `get_filehandle_by_id`. -/
def getFilehandleById (fm : FileManager F) (id : NfsFh4) : FileManager F × Option Filehandle :=
  match fm.getById id with
  | none => (fm, none)
  | some fh =>
    if fm.pendingDeletes.contains id || pathExists fm.fs fh.file || fm.locks.hasLocks id then
      (fm, some fh)
    else
      -- the path is stale: look for the inode in the parent directory
      match if InodeBased id then fm.findByInodeInParent fh (objectOf id).2 else none with
      | some newPath =>
        let fm := fm.removeById id
        let newFh := fm.makeFilehandle newPath id (fh.version + 1)
        (fm.fhdbReplace newFh, some newFh)
      | none => (fm.removeById id, none)

/-- `get_filehandle_by_path`. -/
def getFilehandleByPath (fm : FileManager F) (path : String) : FileManager F × Option Filehandle :=
  match fm.getByPath path with
  | none => (fm, none)
  | some fh =>
    if pathExists fm.fs fh.file then (fm, some fh)
    else if fm.isHeld fh.id then (fm, some fh)
    else (fm.removeById fh.id, none)

/-- `get_filehandle_id`: the id of the record for the path, else the inode-based id of the
object, else a volatile id. -/
def getFilehandleId (fm : FileManager F) (file : VfsPath) : FileManager F × NfsFh4 :=
  match fm.getFilehandleByPath (pathStr file) with
  | (fm, some fh) => (fm, fh.id)
  | (fm, none) =>
    match lstat fm.fs file with
    | some m => (fm, inodeId fm.exportId m.object)
    | none =>
      ({ fm with nextFhId := fm.nextFhId + 1 }, volatileId fm.exportId fm.bootTime fm.nextFhId)

/-- `get_filehandle`: the record for a file, which is made if there is none. A record under the
same id but another path is taken for that of a deleted file. -/
def getFilehandle (fm : FileManager F) (file : VfsPath) : FileManager F × Filehandle :=
  let (fm, id) := fm.getFilehandleId file
  let register := fun (fm : FileManager F) =>
    let fh := fm.makeFilehandle file id 0
    (fm.fhdbReplace fh, fh)
  match fm.getFilehandleById id with
  | (fm, some fh) =>
    if fh.path = pathStr file then (fm, fh) else register (fm.removeById id)
  | (fm, none) => register fm

/-- `root_fh`. -/
def rootFh (fm : FileManager F) : FileManager F × Filehandle := fm.getFilehandle .root

/-- `touch_filehandle`. -/
def touchFilehandle (fm : FileManager F) (fh : Filehandle) : FileManager F :=
  (fm.removeById fh.id).fhdbReplace (fm.makeFilehandle fh.file fh.id fh.version)

/-- `update_filehandle`. -/
def updateFilehandle (fm : FileManager F) (fh : Filehandle) : FileManager F :=
  (fm.removeById fh.id).fhdbReplace fh

/-- `drop_cache_handle`, for a file without a write cache. -/
def dropCacheHandle (fm : FileManager F) (id : NfsFh4) : FileManager F :=
  match fm.getFilehandleById id with
  | (fm, some fh) => fm.updateFilehandle fh
  | (fm, none) => fm

/-- The message `TouchFile`. -/
def touchFile (fm : FileManager F) (id : NfsFh4) : FileManager F :=
  match fm.getFilehandleById id with
  | (fm, some fh) => fm.touchFilehandle fh
  | (fm, none) => fm

/-- Touch the record of a directory, if there is one. -/
def touchPath (fm : FileManager F) (dir : VfsPath) : FileManager F :=
  match fm.getFilehandleByPath (pathStr dir) with
  | (fm, some fh) => fm.touchFilehandle fh
  | (fm, none) => fm

/-- The message `GetFilehandle` with an id. -/
def getFilehandleForId (fm : FileManager F) (id : NfsFh4) : FileManager F × Option Filehandle :=
  match fm.getFilehandleById id with
  | (fm, some fh) => (fm, some (fm.attachLocks fh))
  | (fm, none) => (fm, none)

/-- The message `GetFilehandle` with a path. -/
def getFilehandleForPath (fm : FileManager F) (path : String) :
    FileManager F × Option Filehandle :=
  match FileSystem.join F .root path with
  | none => (fm, none)
  | some p =>
    if pathExists fm.fs p then
      let (fm, fh) := fm.getFilehandle p
      (fm, some (fm.attachLocks fh))
    else (fm, none)

/-- The message `GetFilehandle` with neither: the root. -/
def getRootFilehandle (fm : FileManager F) : FileManager F × Filehandle :=
  let (fm, fh) := fm.rootFh
  (fm, fm.attachLocks fh)

/-! ### Creating, removing and renaming -/

/-- `create_file` of the manager: create the file, make its record, touch the directory. -/
def createFile (fm : FileManager F) (file : VfsPath) : Option (FileManager F × Filehandle) :=
  match NextNfs.createFile fm.fs file with
  | none => none
  | some fs =>
    let (fm, fh) := { fm with fs := fs }.getFilehandle file
    some (fm.touchPath file.parent, fh)

/-- A share reservation under the next stateid. The insertion panics if the stateid is in
use. -/
def insertOpen (fm : FileManager F) (id : NfsFh4) (clientId : UInt64) (owner : Bytes)
    (shareAccess shareDeny : UInt32) : Option (FileManager F × LockingState) := do
  let entry := fun stateid =>
    LockingState.newSharedReservation id stateid clientId owner shareAccess shareDeny
  let locks ← fm.locks.insertNew entry
  pure ({ fm with locks := locks }, entry (LockTable.lockingstateId fm.locks.nextStateidId))

/-- The message `CreateFile`: a file with a share reservation on it. -/
def createFileMsg (fm : FileManager F) (file : VfsPath) (clientId : UInt64) (owner : Bytes)
    (shareAccess shareDeny : UInt32) : Option (FileManager F × Option (Filehandle × LockingState)) :=
  match fm.createFile file with
  | none => some (fm, none)
  | some (fm, fh) => do
    let (fm, lock) ← fm.insertOpen fh.id clientId owner shareAccess shareDeny
    pure (fm, some ({ fh with locks := [lock] }, lock))

/-- The message `CreateOpenState`: a share reservation on an existing file. -/
def createOpenState (fm : FileManager F) (file : VfsPath) (clientId : UInt64) (owner : Bytes)
    (shareAccess shareDeny : UInt32) : Option (FileManager F × LockingState) :=
  let (fm, fh) := fm.getFilehandle file
  fm.insertOpen fh.id clientId owner shareAccess shareDeny

/-- The message `CloseFile`. A pending delete waits for the sweep. -/
def closeFile (fm : FileManager F) (stateid : StateidOther) : FileManager F :=
  { fm with locks := { fm.locks with lockdb := fm.locks.lockdb.erase fun e => e.stateid == stateid } }

/-- `dir_change_attr`: the modification time of a directory in nanoseconds. -/
def dirChangeAttr (fm : FileManager F) (path : String) : UInt64 :=
  match symlinkMetadata fm.fs (realPath (FileSystem.exportRoot F) path) with
  | some m => m.change
  | none => 0

/-- A number in hexadecimal, with at least 16 digits: `{:016x}`. -/
def hex16 (n : UInt64) : String :=
  let digits := Nat.toDigits 16 n.toNat
  String.ofList (List.replicate (16 - digits.length) '0' ++ digits)

/-- The name that an open file gets when it is removed. -/
def sillyName (fh : Filehandle) : String := ".nfs." ++ hex16 fh.attrFileid

/-- The removal of an open file: it is moved to its silly name, or removed if that fails. The
path it was moved to comes with the result. -/
def sillyRename (fm : FileManager F) (file : VfsPath) (fh : Filehandle) :
    FileManager F × Except NfsStat4 (Option VfsPath) :=
  let remove := fun (fm : FileManager F) =>
    match removeFile fm.fs file with
    | some fs => ({ fm with fs := fs }, .ok none)
    | none => (fm, .error .nfs4errIo)
  match FileSystem.join F file.parent (sillyName fh) with
  | none => remove fm
  | some sillyPath =>
    match moveFile fm.fs file sillyPath with
    | (fs, false) => remove { fm with fs := fs }
    | (fs, true) =>
      let fm := { fm with fs := fs, pendingDeletes := fh.id :: fm.pendingDeletes.filter (· ≠ fh.id) }
      let fm := fm.removeById fh.id
      (fm.fhdbReplace (fm.makeFilehandle sillyPath fh.id (fh.version + 1)), .ok (some sillyPath))

/-- The call that removes a file or a directory that is not open. -/
def unlinkFile (fs : F) (file : VfsPath) : Except NfsStat4 F :=
  if isDir fs file then
    match removeDir fs file with
    | .ok fs => .ok fs
    | .error .directoryNotEmpty => .error .nfs4errNotempty
    | .error _ => .error .nfs4errIo
  else
    match removeFile fs file with
    | some fs => .ok fs
    | none => .error .nfs4errIo

/-- Drop what the manager keeps for a file that was removed. -/
def forget (fm : FileManager F) (id : NfsFh4) : FileManager F :=
  let fm := { fm with locks := { fm.locks with
    lockdb := fm.locks.lockdb.erase fun e => e.filehandleId == id } }
  (fm.dropCacheHandle id).removeById id

/-- The message `RemoveFile`, up to touching the directory: the result, and the silly name if the
file got one. -/
def removeName (fm : FileManager F) (file : VfsPath) :
    FileManager F × Except NfsStat4 (Option VfsPath) :=
  let (fm, filehandle) := fm.getFilehandleByPath file.toStr
  match filehandle.filter fun fh => fm.locks.hasLocks fh.id with
  | some fh =>
    if isDir fm.fs file then
      -- the record of an open directory stays
      match unlinkFile fm.fs file with
      | .ok fs => ({ fm with fs := fs }, .ok none)
      | .error e => (fm, .error e)
    else fm.sillyRename file fh
  | none =>
    match unlinkFile fm.fs file with
    | .error e => (fm, .error e)
    | .ok fs =>
      match filehandle with
      | none => ({ fm with fs := fs }, .ok none)
      | some fh => ({ fm with fs := fs }.forget fh.id, .ok none)

/-- `DirChangeInfo`. -/
structure DirChangeInfo where
  before : UInt64
  after : UInt64
  atomic : Bool

/-- The message `RemoveFile`. -/
def removeFile (fm : FileManager F) (file : VfsPath) :
    FileManager F × Except NfsStat4 (DirChangeInfo × Option VfsPath) :=
  let before := fm.dirChangeAttr file.parent.toStr
  match fm.removeName file with
  | (fm, .error e) => (fm, .error e)
  | (fm, .ok silly) =>
    let fm := fm.touchPath file.parent
    (fm, .ok (⟨before, fm.dirChangeAttr file.parent.toStr, true⟩, silly))

/-- `handle_rename_path`: the rename has been done; move the record of the old path, or else of
the object that the new path names. -/
def handleRenamePath (fm : FileManager F) (oldPath : String) (newVfsPath : VfsPath) :
    FileManager F :=
  let oldFh :=
    match fm.getByPath oldPath with
    | some fh => some fh
    | none => (lstat fm.fs newVfsPath).bind fun m => fm.getById (inodeId fm.exportId m.object)
  match oldFh with
  | some fh =>
    let fm := fm.removeById fh.id
    fm.fhdbReplace (fm.makeFilehandle newVfsPath fh.id (fh.version + 1))
  | none => fm

/-! ### The sweep -/

/-- The pending deletes of files that are no longer open. -/
def toDelete (fm : FileManager F) : List NfsFh4 :=
  fm.pendingDeletes.filter fun id => !fm.locks.hasLocks id

/-- One round of the sweep. -/
def sweepOne (fm : FileManager F) (id : NfsFh4) : FileManager F :=
  let fm := { fm with pendingDeletes := fm.pendingDeletes.filter (· ≠ id) }
  match fm.getById id with
  | none => fm
  | some fh =>
    let fm := { fm with fs := (NextNfs.removeFile fm.fs fh.file).getD fm.fs }
    (fm.dropCacheHandle id).removeById id

/-- `sweep_pending_deletes`, going through the ids in the given order. -/
def sweepPendingDeletes (fm : FileManager F) (ids : List NfsFh4) : FileManager F :=
  ids.foldl sweepOne fm

/-- The paths that a sweep unlinks. -/
def sweptPaths : FileManager F → List NfsFh4 → List VfsPath
  | _, [] => []
  | fm, id :: ids =>
    (((fm.getById id).map (·.file)).filter fun p =>
      (NextNfs.removeFile fm.fs p).isSome).toList ++ sweptPaths (fm.sweepOne id) ids

/-- `FileManager::new`. -/
def new (fs : F) (now : ℕ) (fsid : Option UInt64) : FileManager F :=
  FileManager.rootFh ⟨fs, now, (fsid.map (·.toUInt8)).getD 0, fsid.getD 152,
    UInt64.ofNat (now / 1000000000), Table.empty, 100, LockTable.new, []⟩ |>.1

end FileManager

end NextNfs
