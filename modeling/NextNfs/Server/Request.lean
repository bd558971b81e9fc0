import Mathlib.Data.List.DropRight
import NextNfs.Server.FileManager

set_option relaxedAutoImplicit false
set_option autoImplicit false

/-!
# Requests

This module models `request.rs` and the operations on filehandles and names: PUTROOTFH, PUTFH,
GETFH, SAVEFH, RESTOREFH, LOOKUP, LOOKUPP, OPEN, CREATE, LINK, REMOVE, RENAME and CLOSE
(`nfs40.rs` and the modules `nfs40/op_*.rs`), for a server with one export.

## Main definitions

* `NextNfs.Connection` — what the server keeps for a connection: the current and the saved
  filehandle and the cache of filehandles.
* `NextNfs.NfsRequest` — a connection with the file manager its requests go to.
* `NextNfs.PutFh4args.execute` and its siblings — the operations.

## Implementation notes

An operation that panics has no result. `file_manager` panics if no export is selected.
Checks that come before an operation and only refuse it (address lists, security flavours,
rate limits, quotas, read-only exports, the grace period) are left out; the permission check is
in `NextNfs.Server.Perm`. The write cache is left out too: only WRITE makes one.
-/

namespace NextNfs

open Wire

/-! ### Connections -/

/-- What the server keeps for a connection. The cache has an entry for each id, with the time it
was made. At the root that lists the exports no file manager is selected. -/
structure Connection where
  filehandle : Option Filehandle
  savedFilehandle : Option Filehandle
  currentExportId : Option UInt8
  /-- A file manager is selected. -/
  managed : Bool
  cache : List (NfsFh4 × ℕ × Filehandle)
  unmanaged : currentExportId = some pseudoRootExportId → managed = false

/-- A connection before its first request. -/
def Connection.new : Connection := ⟨none, none, none, true, [], nofun⟩

/-- A connection at the start of a compound: only the cache is kept. -/
def Connection.begin (c : Connection) : Connection := { Connection.new with cache := c.cache }

/-- A connection with the file manager that its requests go to. -/
structure NfsRequest (F : Type) where
  fm : FileManager F
  conn : Connection

/-- `cache_ttl`, in seconds. -/
def cacheTtl : ℕ := 10

namespace Connection

/-- `is_pseudo_root`. -/
def isPseudoRoot (c : Connection) : Bool := c.currentExportId == some pseudoRootExportId

/-- `set_filehandle`. -/
def setFilehandle (c : Connection) (fh : Filehandle) : Connection :=
  { c with filehandle := some fh }

/-- `unset_filehandle`. -/
def unsetFilehandle (c : Connection) : Connection := { c with filehandle := none }

/-- `cache_filehandle`. -/
def cacheFilehandle (c : Connection) (now : ℕ) (fh : Filehandle) : Connection :=
  { c with cache := (fh.id, now, fh) :: c.cache.filter fun e => e.1 ≠ fh.id }

/-- `drop_filehandle_from_cache`. -/
def dropFilehandleFromCache (c : Connection) (id : NfsFh4) : Connection :=
  { c with cache := c.cache.filter fun e => e.1 ≠ id }

/-- `set_export`, on a server whose one export has the given id. An unknown export leaves the
selected file manager in place. -/
def setExport (c : Connection) (exportId id : UInt8) : Connection :=
  if h : id = pseudoRootExportId then
    { c with currentExportId := some id, managed := false, unmanaged := fun _ => rfl }
  else
    { c with
      currentExportId := some id
      managed := if id = exportId then true else c.managed
      unmanaged := fun hid => absurd (Option.some.inj hid) h }

/-- `set_export` for the export of an id, if it is not the current one. -/
def switchExport (c : Connection) (exportId : UInt8) (id : NfsFh4) : Connection :=
  if c.currentExportId ≠ some (exportIdFromFh id) then c.setExport exportId (exportIdFromFh id)
  else c

end Connection

namespace NfsRequest

variable {F : Type}

/-- The same request with another connection state. -/
def withConn (req : NfsRequest F) (conn : Connection) : NfsRequest F := { req with conn := conn }

/-- `file_manager`. -/
def fileManager (req : NfsRequest F) : Option (FileManager F) :=
  if req.conn.managed then some req.fm else none

/-- With a file manager, a request is not at the root that lists the exports. -/
lemma isPseudoRoot_of_fileManager {req : NfsRequest F} {fm : FileManager F}
    (h : req.fileManager = some fm) : req.conn.isPseudoRoot = false ∧ fm = req.fm := by
  unfold NfsRequest.fileManager at h
  split_ifs at h with hmanaged
  cases h
  refine ⟨?_, rfl⟩
  by_contra hpseudo
  have hexport : req.conn.currentExportId = some pseudoRootExportId := by
    simpa [Connection.isPseudoRoot] using hpseudo
  rw [req.conn.unmanaged hexport] at hmanaged
  cases hmanaged

variable [FileSystem F]

/-- `get_filehandle_from_cache`: an entry that is too old, or whose path is gone, is dropped. -/
def getFilehandleFromCache (req : NfsRequest F) (id : NfsFh4) :
    NfsRequest F × Option Filehandle :=
  match req.conn.cache.find? fun e => e.1 == id with
  | none => (req, none)
  | some (_, time, fh) =>
    if (req.fm.now - time) / 1000000000 > cacheTtl ∨ existsAt req.fm.fs fh.file = false then
      (req.withConn (req.conn.dropFilehandleFromCache fh.id), none)
    else (req, some fh)

/-- `set_filehandle_id`. -/
def setFilehandleId (req : NfsRequest F) (id : NfsFh4) :
    Option (NfsRequest F × Except NfsStat4 Filehandle) :=
  let conn := req.conn.switchExport req.fm.exportId id
  if exportIdFromFh id = pseudoRootExportId then some (req.withConn conn, .error .nfs4errStale)
  else do
    let fm ← (req.withConn conn).fileManager
    match fm.getFilehandleForId id with
    | (fm, some fh) => pure (⟨fm, conn.setFilehandle fh⟩, .ok fh)
    | (fm, none) => pure (⟨fm, conn⟩, .error .nfs4errStale)

end NfsRequest

/-! ### Operations on the current filehandle -/

section Filehandles

variable {F : Type} [FileSystem F]

/-- PUTFH: `PutFh4args::execute`. -/
def PutFh4args.execute (args : PutFh4args) (req : NfsRequest F) :
    Option (NfsRequest F × OpResponse) :=
  if isPseudoRootFh args.object then
    let conn := req.conn.setExport req.fm.exportId pseudoRootExportId
    some (req.withConn (conn.setFilehandle (.pseudoRoot req.fm.now args.object)),
      ⟨some (.opputfh ⟨.nfs4Ok⟩), .nfs4Ok⟩)
  else
    let req := req.withConn (req.conn.switchExport req.fm.exportId args.object)
    match req.getFilehandleFromCache args.object with
    | (req, some fh) =>
      some (req.withConn (req.conn.setFilehandle fh), ⟨some (.opputfh ⟨.nfs4Ok⟩), .nfs4Ok⟩)
    | (req, none) =>
      match req.setFilehandleId args.object with
      | none => none
      | some (req, .ok fh) =>
        some (req.withConn (req.conn.cacheFilehandle req.fm.now fh),
          ⟨some (.opputfh ⟨.nfs4Ok⟩), .nfs4Ok⟩)
      | some (req, .error e) => some (req, ⟨some (.opputfh ⟨e⟩), e⟩)

/-- PUTROOTFH: `put_root_filehandle`, with one export. -/
def putRootFilehandle (req : NfsRequest F) : Option (NfsRequest F × OpResponse) :=
  let req := req.withConn (req.conn.setExport req.fm.exportId req.fm.exportId)
  match req.fileManager with
  | none => none
  | some fm =>
    let (fm, fh) := fm.getRootFilehandle
    match NfsRequest.setFilehandleId { req with fm := fm } fh.id with
    | none => none
    | some (req, _) => some (req, ⟨some (.opputrootfh ⟨.nfs4Ok⟩), .nfs4Ok⟩)

/-- GETFH: `get_current_filehandle`. -/
def getCurrentFilehandle (req : NfsRequest F) : NfsRequest F × OpResponse :=
  match req.conn.filehandle with
  | some fh => (req, ⟨some (.opgetfh (.resok4 ⟨fh.id⟩)), .nfs4Ok⟩)
  | none => (req, ⟨none, .nfs4errNofilehandle⟩)

/-- SAVEFH: `save_filehandle`. -/
def saveFilehandle (req : NfsRequest F) : NfsRequest F × OpResponse :=
  match req.conn.filehandle with
  | some fh =>
    (req.withConn { req.conn with savedFilehandle := some fh }, ⟨some (.opsavefh ⟨.nfs4Ok⟩), .nfs4Ok⟩)
  | none => (req, ⟨some (.opsavefh ⟨.nfs4errNofilehandle⟩), .nfs4errNofilehandle⟩)

/-- RESTOREFH: `restore_filehandle`. -/
def restoreFilehandle (req : NfsRequest F) : NfsRequest F × OpResponse :=
  match req.conn.savedFilehandle with
  | some fh =>
    (req.withConn ((req.conn.switchExport req.fm.exportId fh.id).setFilehandle fh),
      ⟨some (.oprestorefh ⟨.nfs4Ok⟩), .nfs4Ok⟩)
  | none => (req, ⟨some (.oprestorefh ⟨.nfs4errRestorefh⟩), .nfs4errRestorefh⟩)

/-! ### Operations on names -/

/-- The path string that LOOKUP and OPEN make of a directory and a name. -/
def Filehandle.childPath (fh : Filehandle) (name : String) : String :=
  if fh.path = "/" then fh.path ++ name else fh.path ++ "/" ++ name

/-- LOOKUP: `Lookup4args::execute`. At the root that lists the exports it looks for an export
under the name. -/
def Lookup4args.execute (args : Lookup4args) (exportName : String) (req : NfsRequest F) :
    Option (NfsRequest F × OpResponse) :=
  if req.conn.isPseudoRoot then
    if args.objname = exportName then
      let (fm, fh) := req.fm.getRootFilehandle
      let conn := req.conn.setExport req.fm.exportId req.fm.exportId
      some (⟨fm, conn.setFilehandle fh⟩, ⟨some (.oplookup ⟨.nfs4Ok⟩), .nfs4Ok⟩)
    else some (req, ⟨some (.oplookup ⟨.nfs4errNoent⟩), .nfs4errNoent⟩)
  else
    match req.conn.filehandle with
    | none => some (req, ⟨none, .nfs4errFhexpired⟩)
    | some fh =>
      match req.fileManager with
      | none => none
      | some fm =>
        match fm.getFilehandleForPath (fh.childPath args.objname) with
        | (fm, some fh) =>
          some (⟨fm, req.conn.setFilehandle fh⟩, ⟨some (.oplookup ⟨.nfs4Ok⟩), .nfs4Ok⟩)
        | (fm, none) =>
          some (⟨fm, req.conn.unsetFilehandle⟩,
            ⟨some (.oplookup ⟨.nfs4errNoent⟩), .nfs4errNoent⟩)

/-- LOOKUPP: `lookup_parent`, with one export: the parent of the root is the root. -/
def lookupParent (req : NfsRequest F) : Option (NfsRequest F × OpResponse) :=
  if req.conn.isPseudoRoot then
    some (req, ⟨some (.oplookupp ⟨.nfs4errNoent⟩), .nfs4errNoent⟩)
  else
    match req.conn.filehandle with
    | none => some (req, ⟨some (.oplookupp ⟨.nfs4errNofilehandle⟩), .nfs4errNofilehandle⟩)
    | some fh =>
      match req.fileManager with
      | none => none
      | some fm =>
        match fm.getFilehandleForPath (pathStr fh.file.parent) with
        | (fm, some fh) =>
          some (⟨fm, req.conn.setFilehandle fh⟩, ⟨some (.oplookupp ⟨.nfs4Ok⟩), .nfs4Ok⟩)
        | (fm, none) =>
          some (⟨fm, req.conn⟩, ⟨some (.oplookupp ⟨.nfs4errNoent⟩), .nfs4errNoent⟩)

/-- A change of a directory that the server knows nothing about. -/
def noChange : ChangeInfo4 := ⟨false, 0, 0⟩

/-- The answer of an OPEN that succeeds. -/
def Open4args.resok (lock : LockingState) (cinfo : ChangeInfo4) (rflags : UInt32) : OpResponse :=
  ⟨some (.opopen (.resok4 ⟨⟨lock.seqid, lock.stateid⟩, cinfo, rflags, [], .none⟩)), .nfs4Ok⟩

/-- `OPEN4_RESULT_CONFIRM`. -/
def OPEN4_RESULT_CONFIRM : UInt32 := 0x00000002

/-- `open_for_reading`. -/
def Open4args.openForReading (args : Open4args) (fh : Filehandle) (file : String)
    (req : NfsRequest F) : Option (NfsRequest F × OpResponse) :=
  match req.fileManager with
  | none => none
  | some fm =>
    match fm.getFilehandleForPath (fh.childPath file) with
    | (fm, none) => some (⟨fm, req.conn⟩, ⟨none, .nfs4errNoent⟩)
    | (fm, some fh) =>
      match fm.createOpenState fh.file args.owner.clientid args.owner.owner args.shareAccess
        args.shareDeny with
      | none => none
      | some (fm, lock) =>
        let fh := { fh with locks := fh.locks ++ [lock] }
        some (⟨fm, (req.conn.cacheFilehandle fm.now fh).setFilehandle fh⟩,
          Open4args.resok lock noChange OPEN4_RESULT_CONFIRM)

/-- `open_for_writing`. The verifier of an exclusive create is not looked at. -/
def Open4args.openForWriting (args : Open4args) (fh : Filehandle) (file : String)
    (how : CreateHow4) (req : NfsRequest F) : Option (NfsRequest F × OpResponse) :=
  match FileSystem.join F fh.file file with
  | none => some (req, ⟨none, .nfs4errInval⟩)
  | some newfile =>
    match req.fileManager with
    | none => none
    | some fm =>
      let before := fm.dirChangeAttr fh.path
      match how with
      | .guarded4 _ => some (req, ⟨none, .nfs4errNotsupp⟩)
      | .unchecked4 _ | .exclusive4 _ =>
        match fm.createFileMsg newfile args.owner.clientid args.owner.owner args.shareAccess
          args.shareDeny with
        | none => none
        | some (fm, none) => some (⟨fm, req.conn⟩, ⟨none, .nfs4errServerfault⟩)
        | some (fm, some (newFh, lock)) =>
          some (⟨fm, (req.conn.cacheFilehandle fm.now newFh).setFilehandle newFh⟩,
            Open4args.resok lock ⟨false, before, fm.dirChangeAttr fh.path⟩ OPEN4_RESULT_CONFIRM)

/-- What OPEN of a name goes on with: the directory and the name, if it does not refuse. -/
def Open4args.target (args : Open4args) (req : NfsRequest F) :
    Except OpResponse (Filehandle × String) :=
  match req.conn.filehandle with
  | none => .error ⟨none, .nfs4errFhexpired⟩
  | some fh =>
    if isDir req.fm.fs fh.file = false then .error ⟨none, .nfs4errNotdir⟩
    else
      match args.claim with
      | .claimNull file => if file = "" then .error ⟨none, .nfs4errInval⟩ else .ok (fh, file)
      | _ => .error ⟨none, .nfs4errNotsupp⟩

/-- OPEN with CLAIM_PREVIOUS: the current filehandle is the file. -/
def Open4args.reclaim (args : Open4args) (req : NfsRequest F) :
    Option (NfsRequest F × OpResponse) :=
  match req.conn.filehandle with
  | none => some (req, ⟨none, .nfs4errNofilehandle⟩)
  | some fh =>
    match req.fileManager with
    | none => none
    | some fm =>
      match fm.createOpenState fh.file args.owner.clientid args.owner.owner args.shareAccess
        args.shareDeny with
      | none => none
      | some (fm, lock) => some (⟨fm, req.conn⟩, Open4args.resok lock noChange 0)

/-- OPEN: `Open4args::execute`. -/
def Open4args.execute (args : Open4args) (req : NfsRequest F) :
    Option (NfsRequest F × OpResponse) :=
  match args.claim with
  | .claimPrevious _ => args.reclaim req
  | _ =>
    match args.target req with
    | .error r => some (req, r)
    | .ok (fh, file) =>
      match args.openhow with
      | .open4Nocreate => args.openForReading fh file req
      | .how how => args.openForWriting fh file how req

/-- The directory CREATE works in: the current filehandle, or its parent if it is a file. -/
def createDirectory (fs : F) (fh : Filehandle) : VfsPath :=
  if isFile fs fh.file then fh.file.parent else fh.file

/-- CREATE after the object is made: touch the directory, and go on to the new object. -/
def finishCreate (req : NfsRequest F) (fm : FileManager F) (fh : Filehandle) (dir newPath : VfsPath)
    (before : UInt64) : NfsRequest F × OpResponse :=
  let fm := fm.touchFile fh.id
  let after := fm.dirChangeAttr dir.toStr
  match fm.getFilehandleForPath newPath.toStr with
  | (fm, none) => (⟨fm, req.conn.unsetFilehandle⟩, ⟨none, .nfs4errNoent⟩)
  | (fm, some newFh) =>
    (⟨fm, req.conn.setFilehandle newFh⟩,
      ⟨some (.opcreate (.resok4 ⟨⟨false, before, after⟩, []⟩)), .nfs4Ok⟩)

/-- The status for a failed call of the operating system. -/
def IoError.toStatus : IoError → NfsStat4
  | .permissionDenied => .nfs4errAccess
  | .alreadyExists => .nfs4errExist
  | .directoryNotEmpty | .other => .nfs4errIo

/-- What CREATE goes on with: the current filehandle and the path of the new object, if it does
not refuse. -/
def Create4args.target (args : Create4args) (req : NfsRequest F) :
    Except OpResponse (Filehandle × VfsPath) :=
  match req.conn.filehandle with
  | none => .error ⟨none, .nfs4errFhexpired⟩
  | some fh =>
    if args.objname = "" then .error ⟨none, .nfs4errInval⟩
    else
      match args.objtype with
      | .nf4lnk _ | .nf4dir =>
        match FileSystem.join F (createDirectory req.fm.fs fh) args.objname with
        | none => .error ⟨none, .nfs4errInval⟩
        | some p => .ok (fh, p)
      | _ => .error ⟨none, .nfs4errBadtype⟩

/-- The call of CREATE. A directory that cannot be created is looked up all the same. -/
def Create4args.make (args : Create4args) (fs : F) (p : VfsPath) : Except IoError F :=
  match args.objtype with
  | .nf4lnk linkdata => FileSystem.symlink fs linkdata (VfsPath.real F p)
  | _ => .ok ((createDir fs p).getD fs)

/-- CREATE: `Create4args::execute`. -/
def Create4args.execute (args : Create4args) (req : NfsRequest F) :
    Option (NfsRequest F × OpResponse) :=
  match args.target req with
  | .error r => some (req, r)
  | .ok (fh, p) =>
    match req.fileManager with
    | none => none
    | some fm =>
      let dir := createDirectory fm.fs fh
      let before := fm.dirChangeAttr dir.toStr
      match args.make fm.fs p with
      | .error e => some (req, ⟨none, e.toStatus⟩)
      | .ok fs => some (finishCreate req { fm with fs := fs } fh dir p before)

/-- What LINK goes on with: the object, the directory and the path of the link, if it does not
refuse. -/
def Link4args.target (args : Link4args) (req : NfsRequest F) :
    Except OpResponse (Filehandle × Filehandle × VfsPath) :=
  match req.conn.savedFilehandle with
  | none => .error ⟨none, .nfs4errRestorefh⟩
  | some saved =>
    match req.conn.filehandle with
    | none => .error ⟨none, .nfs4errNofilehandle⟩
    | some fh =>
      match FileSystem.join F fh.file args.newname with
      | none => .error ⟨none, .nfs4errInval⟩
      | some p =>
        if saved.file = .root then .error ⟨none, .nfs4errInval⟩ else .ok (saved, fh, p)

/-- LINK: `Link4args::execute`. The records of the manager are not looked at. -/
def Link4args.execute (args : Link4args) (req : NfsRequest F) :
    Option (NfsRequest F × OpResponse) :=
  match args.target req with
  | .error r => some (req, r)
  | .ok (saved, fh, p) =>
    match req.fileManager with
    | none => none
    | some fm =>
      match hardLink fm.fs (VfsPath.real F saved.file) (VfsPath.real F p) with
      | .error e => some (req, ⟨none, e.toStatus⟩)
      | .ok fs =>
        some (⟨{ fm with fs := fs }, req.conn⟩,
          ⟨some (.oplink (.resok4 ⟨⟨true, fh.attrChange, fh.attrChange + 1⟩⟩)), .nfs4Ok⟩)

/-- The answer of a REMOVE that fails. -/
def Remove4args.failed (status : NfsStat4) : OpResponse :=
  ⟨some (.opremove ⟨status, noChange⟩), status⟩

/-- The path that REMOVE goes on with, if it does not refuse. -/
def Remove4args.path (args : Remove4args) (req : NfsRequest F) : Except OpResponse VfsPath :=
  match req.conn.filehandle with
  | none => .error (Remove4args.failed .nfs4errStale)
  | some fh =>
    match FileSystem.join F fh.file args.target with
    | none => .error (Remove4args.failed .nfs4errInval)
    | some p => .ok p

/-- REMOVE: `Remove4args::execute`. The silly name comes with the response, if the file got
one. -/
def Remove4args.execute (args : Remove4args) (req : NfsRequest F) :
    Option (NfsRequest F × OpResponse × Option VfsPath) :=
  match args.path req with
  | .error r => some (req, r, none)
  | .ok p =>
    match req.fileManager with
    | none => none
    | some fm =>
      match fm.removeFile p with
      | (fm, .ok (cinfo, silly)) =>
        some (⟨fm, req.conn⟩,
          ⟨some (.opremove ⟨.nfs4Ok, ⟨cinfo.atomic, cinfo.before, cinfo.after⟩⟩), .nfs4Ok⟩, silly)
      | (fm, .error e) => some (⟨fm, req.conn⟩, Remove4args.failed e, none)

/-- The path string that RENAME makes of a directory and a name. -/
def Filehandle.renamePath (fh : Filehandle) (name : String) : String :=
  String.ofList (fh.path.toList.rdropWhile (· = '/')) ++ "/" ++ name

/-- The call of RENAME: `std::fs::rename` on the path strings if the source exists there. -/
def renameFile (fs : F) (srcPath dstPath : String) (srcVfs dstVfs : VfsPath) : F × Bool :=
  let realSrc := realPath (FileSystem.exportRoot F) srcPath
  let realDst := realPath (FileSystem.exportRoot F) dstPath
  if osExists fs realSrc then
    match FileSystem.rename fs realSrc realDst with
    | some fs => (fs, true)
    | none => (fs, false)
  else if isDir fs srcVfs then moveDir fs srcVfs dstVfs
  else moveFile fs srcVfs dstVfs

/-- What RENAME goes on with: the directories, the path strings and the paths. -/
structure RenameTarget where
  saved : Filehandle
  fh : Filehandle
  srcPath : String
  dstPath : String
  srcVfs : VfsPath
  dstVfs : VfsPath

/-- What RENAME goes on with, if it does not refuse. -/
def Rename4args.target (args : Rename4args) (req : NfsRequest F) :
    Except OpResponse RenameTarget :=
  match req.conn.savedFilehandle with
  | none => .error ⟨some (.oprename (.resok4 ⟨noChange, noChange⟩)), .nfs4errNofilehandle⟩
  | some saved =>
    match req.conn.filehandle with
    | none => .error ⟨none, .nfs4errNofilehandle⟩
    | some fh =>
      match FileSystem.join F saved.file args.oldname with
      | none => .error ⟨none, .nfs4errNoent⟩
      | some srcVfs =>
        if existsAt req.fm.fs srcVfs = false then .error ⟨none, .nfs4errNoent⟩
        else
          match FileSystem.join F fh.file args.newname with
          | none => .error ⟨none, .nfs4errInval⟩
          | some dstVfs =>
            .ok ⟨saved, fh, saved.renamePath args.oldname, fh.renamePath args.newname, srcVfs, dstVfs⟩

/-- RENAME: `Rename4args::execute`. -/
def Rename4args.execute (args : Rename4args) (req : NfsRequest F) :
    Option (NfsRequest F × OpResponse) :=
  match args.target req with
  | .error r => some (req, r)
  | .ok t =>
    match req.fileManager with
    | none => none
    | some fm =>
      match renameFile fm.fs t.srcPath t.dstPath t.srcVfs t.dstVfs with
      | (fs, false) => some (⟨{ fm with fs := fs }, req.conn⟩, ⟨none, .nfs4errServerfault⟩)
      | (fs, true) =>
        let fm := { fm with fs := fs }.handleRenamePath t.srcPath t.dstVfs
        let fm := (fm.touchFile t.saved.id).touchFile t.fh.id
        some (⟨fm, req.conn⟩, ⟨some (.oprename (.resok4
          ⟨⟨true, t.saved.attrChange, t.saved.attrChange + 1⟩,
            ⟨true, t.fh.attrChange, t.fh.attrChange + 1⟩⟩)), .nfs4Ok⟩)

/-- CLOSE: `Close4args::execute`. The stateid need not be one of the file. -/
def Close4args.execute (args : Close4args) (req : NfsRequest F) :
    Option (NfsRequest F × OpResponse) :=
  match req.conn.filehandle with
  | none => some (req, ⟨none, .nfs4errNofilehandle⟩)
  | some fh =>
    match req.fileManager with
    | none => none
    | some fm =>
      some (⟨fm.closeFile args.openStateid.other, req.conn.dropFilehandleFromCache fh.id⟩,
        ⟨some (.opclose (.openStateid ⟨args.seqid, args.openStateid.other⟩)), .nfs4Ok⟩)

/-! ### What an operation goes on with -/

variable {req : NfsRequest F} {fh saved : Filehandle} {name : String} {p : VfsPath}

/-- OPEN goes on with a name that is not empty, in the current filehandle, a directory. -/
lemma Open4args.target_ok {args : Open4args} (h : args.target req = .ok (fh, name)) :
    req.conn.filehandle = some fh ∧ isDir req.fm.fs fh.file = true ∧
      args.claim = .claimNull name ∧ name ≠ "" := by
  unfold Open4args.target at h
  cases hfh : req.conn.filehandle with
  | none => simp [hfh] at h
  | some current =>
    simp only [hfh] at h
    split_ifs at h with hdir
    cases hclaim : args.claim with
    | claimNull file =>
      simp only [hclaim] at h
      split_ifs at h with hempty
      cases h
      exact ⟨rfl, by simpa using hdir, rfl, hempty⟩
    | claimPrevious v => simp [hclaim] at h
    | claimDelegateCur v => simp [hclaim] at h
    | claimDelegatePrev v => simp [hclaim] at h

/-- CREATE goes on with the path it joins, for a name that is not empty. -/
lemma Create4args.target_ok {args : Create4args} (h : args.target req = .ok (fh, p)) :
    req.conn.filehandle = some fh ∧ args.objname ≠ "" ∧
      FileSystem.join F (createDirectory req.fm.fs fh) args.objname = some p := by
  unfold Create4args.target at h
  cases hfh : req.conn.filehandle with
  | none => simp [hfh] at h
  | some current =>
    simp only [hfh] at h
    split_ifs at h with hempty
    cases hjoin : FileSystem.join F (createDirectory req.fm.fs current) args.objname with
    | none =>
      simp only [hjoin] at h
      split at h <;> cases h
    | some q =>
      simp only [hjoin] at h
      split at h <;> cases h
      · exact ⟨rfl, hempty, hjoin⟩
      · exact ⟨rfl, hempty, hjoin⟩

/-- LINK goes on with the path it joins. -/
lemma Link4args.target_ok {args : Link4args} (h : args.target req = .ok (saved, fh, p)) :
    req.conn.savedFilehandle = some saved ∧ req.conn.filehandle = some fh ∧
      FileSystem.join F fh.file args.newname = some p := by
  unfold Link4args.target at h
  cases hsaved : req.conn.savedFilehandle with
  | none => simp [hsaved] at h
  | some saved' =>
    cases hfh : req.conn.filehandle with
    | none => simp [hsaved, hfh] at h
    | some current =>
      cases hjoin : FileSystem.join F current.file args.newname with
      | none => simp [hsaved, hfh, hjoin] at h
      | some q =>
        simp only [hsaved, hfh, hjoin] at h
        split_ifs at h
        cases h
        exact ⟨rfl, rfl, hjoin⟩

/-- REMOVE goes on with the path it joins. -/
lemma Remove4args.path_ok {args : Remove4args} (h : args.path req = .ok p) :
    ∃ fh, req.conn.filehandle = some fh ∧ FileSystem.join F fh.file args.target = some p := by
  unfold Remove4args.path at h
  cases hfh : req.conn.filehandle with
  | none => simp [hfh] at h
  | some current =>
    cases hjoin : FileSystem.join F current.file args.target with
    | none => simp [hfh, hjoin] at h
    | some q =>
      simp only [hfh, hjoin] at h
      cases h
      exact ⟨current, rfl, hjoin⟩

/-- RENAME goes on with the paths it joins, if the source exists, and with the path strings. -/
lemma Rename4args.target_ok {args : Rename4args} {t : RenameTarget}
    (h : args.target req = .ok t) :
    req.conn.savedFilehandle = some t.saved ∧ req.conn.filehandle = some t.fh ∧
      FileSystem.join F t.saved.file args.oldname = some t.srcVfs ∧
      FileSystem.join F t.fh.file args.newname = some t.dstVfs ∧
      existsAt req.fm.fs t.srcVfs = true ∧
      t.srcPath = t.saved.renamePath args.oldname ∧ t.dstPath = t.fh.renamePath args.newname := by
  unfold Rename4args.target at h
  cases hsaved : req.conn.savedFilehandle with
  | none => simp [hsaved] at h
  | some saved' =>
    cases hfh : req.conn.filehandle with
    | none => simp [hsaved, hfh] at h
    | some current =>
      cases hsrc : FileSystem.join F saved'.file args.oldname with
      | none => simp [hsaved, hfh, hsrc] at h
      | some src =>
        simp only [hsaved, hfh, hsrc] at h
        split_ifs at h with hexists
        cases hdst : FileSystem.join F current.file args.newname with
        | none => simp [hdst] at h
        | some dst =>
          simp only [hdst] at h
          cases h
          exact ⟨rfl, rfl, hsrc, hdst, by simpa using hexists, rfl, rfl⟩

end Filehandles

end NextNfs
