import NextNfs.Lib.Dialogue
import NextNfs.Proto.Rpc
import NextNfs.Server.Perm

set_option relaxedAutoImplicit false
set_option autoImplicit false

/-!
# Requests on a server with several exports

This module models what a request keeps about the export it is on (`request.rs`), what is
configured for an export (`export_manager.rs`), and the questions that the operations ask of the
rest of the server: of the export manager, of the file manager and the file system of an export, of
the client manager and of the session manager.

## Main definitions

* `NextNfs.Dispatcher.ExportConfig` — what is configured for an export.
* `NextNfs.Dispatcher.Question`, `NextNfs.Dispatcher.Question.Answer` — the questions.
* `NextNfs.Dispatcher.Request` — `NfsRequest`.
* `NextNfs.Dispatcher.Request.setExport` — `set_export`, with the other operations on requests.

## Implementation notes

An export has a number, and numbers are not used again, so a request that holds the file manager,
the rate limiter, the quota manager or the access control of an export is modelled by holding the
number of the export. The operations run beside those of other connections and beside the
administration of the server. What they are told is left open here: an operation is a program that
asks questions. Two of the questions, `arrive` and `execute`, are lines of the log, and
`getExportById` says for which request it is asked: these are there for the statements only.

What is configured for an export stays as it is while the operations run: the messages of the export
manager that change access control, quotas and rates are left out.
-/

namespace NextNfs.Dispatcher

open Wire Dialogue

/-! ### Exports -/

/-- `SecFlavor`. -/
inductive SecFlavor
  | sys | krb5 | krb5i | krb5p
deriving DecidableEq

/-- `KRB5_MECH_OID`. -/
def KRB5_MECH_OID : Bytes := [0x2a, 0x86, 0x48, 0x86, 0xf7, 0x12, 0x01, 0x02, 0x02]

/-- `secinfo`: the entry of SECINFO that announces a flavour. -/
def SecFlavor.secinfo : SecFlavor → SeCinfo4
  | .sys => .authSys
  | .krb5 => .flavorInfo ⟨KRB5_MECH_OID, 0, .rpcGssSvcNone⟩
  | .krb5i => .flavorInfo ⟨KRB5_MECH_OID, 0, .rpcGssSvcIntegrity⟩
  | .krb5p => .flavorInfo ⟨KRB5_MECH_OID, 0, .rpcGssSvcPrivacy⟩

/-- `SquashMode`. -/
inductive SquashMode
  | none | rootSquash | allSquash

/-- `AccessControl`. The address list is given by the addresses it lets in (`check_client`). -/
structure AccessControl where
  checkClient : String → Bool
  squash : SquashMode
  anonUid : UInt32
  anonGid : UInt32
  sec : List SecFlavor

namespace AccessControl

/-- `sec_flavors`. -/
def secFlavors (ac : AccessControl) : List SecFlavor := if ac.sec.isEmpty then [.sys] else ac.sec

/-- `allows_flavor`. -/
def allowsFlavor (ac : AccessControl) (flavor : SecFlavor) : Bool :=
  if ac.sec.isEmpty then flavor == .sys else ac.sec.contains flavor

/-- `map_with`: an identity through the squash rules. -/
def mapWith (squash : SquashMode) (anonUid anonGid uid gid : UInt32) (gids : List UInt32) : Caller :=
  match squash with
  | .none => ⟨uid, gid, gids⟩
  | .rootSquash =>
    let g := fun g : UInt32 => if g = 0 then anonGid else g
    ⟨if uid = 0 then anonUid else uid, g gid, gids.map g⟩
  | .allSquash => ⟨anonUid, anonGid, []⟩

end AccessControl

/-- `DEFAULT_ANON_ID`. -/
def DEFAULT_ANON_ID : UInt32 := 65534

/-- `Caller::new`: the identity an operation runs as. -/
def newCaller (cred : Option OpaqueAuth) (ac : Option AccessControl) : Caller :=
  match cred, ac with
  | some (.authUnix auth), some ac =>
    AccessControl.mapWith ac.squash ac.anonUid ac.anonGid auth.uid auth.gid auth.gids
  | some (.authUnix auth), none =>
    AccessControl.mapWith .rootSquash DEFAULT_ANON_ID DEFAULT_ANON_ID auth.uid auth.gid auth.gids
  | _, some ac => ⟨ac.anonUid, ac.anonGid, []⟩
  | _, none => ⟨DEFAULT_ANON_ID, DEFAULT_ANON_ID, []⟩

/-- What is configured for an export: `ExportInfo`. -/
structure ExportConfig where
  name : String
  readOnly : Bool
  accessControl : AccessControl

/-- What a server is started with: the exports by their numbers, how the file systems join names
to paths, and the attributes of the root that lists the exports and of its entries. -/
structure Server where
  exports : UInt8 → ExportConfig
  join : VfsPath → String → Option VfsPath
  /-- `pseudo_root_getattr`, at a time. -/
  pseudoRootGetattr : ℕ → List FileAttr → Fattr4
  /-- `pseudo_export_entry_attrs`. -/
  exportEntryAttrs : List FileAttr → UInt8 → Fattr4

/-! ### Questions -/

/-- A `Filehandle`, the export in whose file system its file is, and whether it has a write cache.
The root that lists the exports is in a file system of its own. -/
structure Handle extends Filehandle where
  vfs : Option UInt8
  writeCache : Bool

/-- What is asked of the file manager or of the file system of an export. -/
inductive Call
  -- The messages of the file manager.
  | getRootFilehandle
  | getFilehandleForId (id : NfsFh4)
  | getFilehandleForPath (path : String)
  | createFile (path : VfsPath) (clientId : UInt64) (owner : Bytes) (access deny : UInt32)
      (verifier : Option (List.Vector UInt8 8))
  | createOpenState (path : VfsPath) (clientId : UInt64) (owner : Bytes) (access deny : UInt32)
  | removeFile (path : VfsPath)
  | touchFile (id : NfsFh4)
  | updateFilehandle (fh : Filehandle)
  | renamePath (oldPath newPath : String) (newVfsPath : VfsPath)
  | lockFile (id : NfsFh4) (clientId : UInt64) (owner : Bytes) (lockType : NfsLockType4)
      (offset length : UInt64)
  | unlockFile (stateid : List.Vector UInt8 12) (offset length : UInt64)
  | testLock (id : NfsFh4) (clientId : UInt64) (owner : Bytes) (lockType : NfsLockType4)
      (offset length : UInt64)
  | releaseLockOwner (clientId : UInt64) (owner : Bytes)
  | openNamedAttrDir (fileid : UInt64) (createdir : Bool)
  | returnDelegation (id : NfsFh4) (stateid : Stateid4)
  | closeFile (stateid : List.Vector UInt8 12)
  | getWriteCacheHandle (id : NfsFh4)
  -- The messages of the write cache of a file.
  | writeBytes (id : NfsFh4) (offset : UInt64) (data : Bytes)
  | commit (id : NfsFh4)
  -- The calls on files, by path or by filehandle.
  | dirChangeAttr (path : String)
  | filehandleAttrs (attrRequest : List FileAttr) (fh : Filehandle)
  | setAttr (fh : Filehandle) (attrs : List FileAttrValue)
  | permitted (arg : NfsArgOp) (fh : Filehandle) (saved : Option Filehandle) (caller : Caller)
  | stat (path : String)
  | statChild (dir name : String)
  | statParent (path : String)
  | lchown (path : String) (uid gid : UInt32)
  | isFile (path : VfsPath)
  | isDir (path : VfsPath)
  | pathExists (path : VfsPath)
  | readDir (path : VfsPath)
  | createDir (path : VfsPath)
  | openFile (path : VfsPath)
  | appendFile (path : VfsPath)
  | moveDir (src dst : VfsPath)
  | moveFile (src dst : VfsPath)
  | osExists (path : String)
  | osLen (path : String)
  | osAppend (path : String) (data : Bytes)
  | osWriteAt (path : String) (data : Bytes) (offset : UInt64)
  | osRename (src dst : String)
  | osSymlink (target link : String)
  | osHardLink (src dst : String)
  | osReadLink (path : String)
  -- The calls on an open file.
  | seekEnd (path : VfsPath)
  | seekStart (path : VfsPath) (offset : UInt64)
  | read (path : VfsPath) (count : ℕ)
  | write (path : VfsPath) (data : Bytes)
  | writeAll (path : VfsPath) (data : Bytes)
  | flush (path : VfsPath)

/-- Why the target of a link cannot be read, as far as READLINK looks. -/
inductive ReadLinkError
  | notFound | invalidInput | other

/-- `DirChangeInfo`, for REMOVE. -/
abbrev DirChangeInfo := ChangeInfo4

/-- The status of a failure: the `nfs_error` of a `FileManagerError`, for one. -/
abbrev Failure := { s : NfsStat4 // s ≠ .nfs4Ok }

/-- NFS4ERR_STALE. -/
def Failure.stale : Failure := ⟨.nfs4errStale, by decide⟩

/-- What a call answers. -/
@[reducible] def Call.Answer : Call → Type
  | getRootFilehandle | getFilehandleForId _ | getFilehandleForPath _
  | createFile .. | openNamedAttrDir .. => Except Failure Handle
  | createOpenState .. => Except Failure LockingState
  | removeFile _ => Except Failure DirChangeInfo
  | lockFile .. => { r : LockResult // r ≠ .error .nfs4Ok ∧ r ≠ .error .nfs4errDenied }
  | unlockFile .. => { r : UnlockResult // r ≠ .error .nfs4Ok }
  | testLock .. => TestLockResult
  | releaseLockOwner .. | returnDelegation .. => NfsStat4
  | getWriteCacheHandle _ => Option Unit
  | touchFile _ | updateFilehandle _ | renamePath .. | closeFile _ | writeBytes .. | commit _ => Unit
  | dirChangeAttr _ => UInt64
  | filehandleAttrs .. => Option Fattr4
  | setAttr .. => List FileAttr
  | permitted .. => Except Failure Unit
  | stat _ | statChild .. | statParent _ => Option RealMeta
  | lchown .. | isFile _ | isDir _ | pathExists _ | osExists _ => Bool
  | readDir _ => Option (List VfsPath)
  | createDir _ | openFile _ | appendFile _ | moveDir .. | moveFile .. | osAppend .. | osWriteAt ..
  | osRename .. | seekStart .. | writeAll .. | flush _ => Option Unit
  | osLen _ | seekEnd _ => Option UInt64
  | osSymlink .. | osHardLink .. => Except IoError Unit
  | osReadLink _ => Except ReadLinkError String
  | read _ _ => Option Bytes
  | write .. => Option UInt32

/-- `Session`, as far as the operations look: its id and the number of its slots. -/
structure Session where
  id : List.Vector UInt8 16
  slots : ℕ

/-- The fields of `NfsRequest` about the call and the export it is on. The managers and the access
control of an export are given by its number. -/
structure Context where
  clientAddr : String
  cachedFmanager : Option UInt8
  rateLimiter : Option UInt8
  quotaManager : Option UInt8
  accessControl : Option UInt8
  readOnly : Bool
  currentExportId : Option UInt8
  bootTime : UInt64
  sessionManager : Bool
  authCred : Option OpaqueAuth
  secFlavor : SecFlavor

/-- `NfsRequest`. An entry of the cache is an id, the time it was made and the filehandle. -/
structure Request extends Context where
  filehandle : Option Handle
  savedFilehandle : Option Handle
  filehandleCache : List (NfsFh4 × ℕ × Handle)
  sessionId : Option (List.Vector UInt8 16)
  sequenceSlotid : Option UInt32

/-- The questions. -/
inductive Question
  /-- The log: a call is taken up. -/
  | arrive
  /-- The log: an operation is executed. -/
  | execute (arg : NfsArgOp) (req : Request)
  | listExports
  /-- The export with a number, asked for a request on an export. -/
  | getExportById (id : UInt8) (asker : Context)
  | getExportByName (name : String)
  | now
  | inGrace
  /-- The rate limiter of an export. -/
  | tryConsume (e : UInt8) (bytes : UInt64)
  /-- The quota manager of an export. -/
  | checkWrite (e : UInt8) (bytes : UInt64)
  | recordWrite (e : UInt8) (bytes : UInt64)
  /-- The file manager and the file system of an export. -/
  | on (e : Option UInt8) (call : Call)
  /-- The client manager. -/
  | upsertClient (args : SetClientId4args)
  | confirmClient (clientid : UInt64) (confirm : List.Vector UInt8 8)
  | renewLeases (clientid : UInt64)
  /-- The session manager. -/
  | allocateClientId
  | createSession (clientid : UInt64) (maxSlots : UInt32)
  | getSession (id : List.Vector UInt8 16)
  | bindConnection (id : List.Vector UInt8 16) (addr : String)
  | destroySession (id : List.Vector UInt8 16)
  | destroyClient (clientid : UInt64)

/-- What a question answers. -/
@[reducible] def Question.Answer : Question → Type
  | arrive | execute _ _ | recordWrite .. | bindConnection .. | destroyClient _ => Unit
  | listExports => List UInt8
  | getExportById .. | inGrace | tryConsume .. | checkWrite .. | destroySession _ => Bool
  | getExportByName _ => Option UInt8
  | now => ℕ
  | on _ call => call.Answer
  | upsertClient _ => Except Failure SetClientId4resok
  | confirmClient .. | renewLeases _ => Except Failure Unit
  | allocateClientId => UInt64
  | createSession .. => Session
  | getSession _ => Option Session

/-- The answer of a file system on which nothing works. -/
def Call.idle : (call : Call) → call.Answer
  | getRootFilehandle | getFilehandleForId _ | getFilehandleForPath _
  | createFile .. | openNamedAttrDir .. | createOpenState .. | removeFile _ | permitted .. =>
    .error .stale
  | lockFile .. => ⟨.error .nfs4errServerfault, by simp⟩
  | unlockFile .. => ⟨.error .nfs4errServerfault, by simp⟩
  | testLock .. => .ok
  | releaseLockOwner .. | returnDelegation .. => .nfs4errServerfault
  | touchFile _ | updateFilehandle _ | renamePath .. | closeFile _ | writeBytes .. | commit _ => ()
  | dirChangeAttr _ => 0
  | setAttr .. => []
  | lchown .. | isFile _ | isDir _ | pathExists _ | osExists _ => false
  | getWriteCacheHandle _ | filehandleAttrs .. | stat _ | statChild .. | statParent _ | readDir _
  | createDir _ | openFile _ | appendFile _ | moveDir .. | moveFile .. | osAppend .. | osWriteAt ..
  | osRename .. | seekStart .. | writeAll .. | flush _ | osLen _ | seekEnd _ | read _ _ | write .. =>
    none
  | osSymlink .. | osHardLink .. => .error .other
  | osReadLink _ => .error .other

/-- The answer of a server without exports on which nothing works. -/
def Question.idle : (q : Question) → q.Answer
  | arrive | execute _ _ | recordWrite .. | bindConnection .. | destroyClient _ => ()
  | listExports => []
  | getExportById .. | inGrace | tryConsume .. | checkWrite .. | destroySession _ => false
  | getExportByName _ => none
  | now => 0
  | on _ call => call.idle
  | upsertClient _ | confirmClient .. | renewLeases _ => .error .stale
  | allocateClientId => 0
  | createSession _ maxSlots => ⟨List.Vector.replicate 16 0, maxSlots.toNat⟩
  | getSession _ => none

/-- A program of the server. -/
abbrev Op (α : Type) := Prog Question Question.Answer α

/-- Ask a question. -/
def query (q : Question) : Op q.Answer := Prog.query q

/-- Ask something of an export. -/
def ask (e : Option UInt8) (call : Call) : Op call.Answer := query (.on e call)

/-! ### Requests -/

namespace Request

/-- `NfsRequest::new`: a request at the start of a call, with the file manager of the first export
and the cache of the connection. -/
def new (clientAddr : String) (defaultFmanager : Option UInt8) (bootTime : UInt64)
    (filehandleCache : List (NfsFh4 × ℕ × Handle)) (secFlavor : SecFlavor) : Request where
  clientAddr := clientAddr
  filehandle := none
  savedFilehandle := none
  cachedFmanager := defaultFmanager
  rateLimiter := none
  quotaManager := none
  accessControl := none
  readOnly := false
  currentExportId := none
  bootTime := bootTime
  filehandleCache := filehandleCache
  sessionManager := true
  sessionId := none
  sequenceSlotid := none
  authCred := none
  secFlavor := secFlavor

variable (S : Server)

/-- `is_pseudo_root`. -/
def isPseudoRoot (req : Request) : Bool := req.currentExportId == some pseudoRootExportId

/-- `file_manager`: panics if there is none. -/
def fileManager (req : Request) : Op UInt8 :=
  match req.cachedFmanager with
  | some e => .pure e
  | none => .panic

/-- A message to the file manager of the request. -/
def askManager (req : Request) (call : Call) : Op call.Answer := do
  let e ← req.fileManager
  ask (some e) call

/-- The access control of the request. -/
def access (req : Request) : Option AccessControl :=
  req.accessControl.map fun e => (S.exports e).accessControl

/-- `caller`. -/
def caller (req : Request) : Caller := newCaller req.authCred (req.access S)

/-- `check_client_access`. -/
def checkClientAccess (req : Request) : Bool :=
  match req.access S with
  | some ac => ac.checkClient req.clientAddr
  | none => true

/-- `sec_allowed`. -/
def secAllowed (req : Request) : Bool :=
  match req.access S with
  | some ac => ac.allowsFlavor req.secFlavor
  | none => req.currentExportId.isNone || req.secFlavor == .sys

/-- A request on the root that lists the exports. -/
def onPseudoRoot (req : Request) : Request :=
  { req with
    currentExportId := some pseudoRootExportId
    cachedFmanager := none
    rateLimiter := none
    quotaManager := none
    accessControl := none
    readOnly := false }

/-- A request on an export that is known. -/
def onExport (req : Request) (id : UInt8) : Request :=
  { req with
    currentExportId := some id
    cachedFmanager := some id
    rateLimiter := some id
    quotaManager := some id
    accessControl := some id
    readOnly := (S.exports id).readOnly }

/-- `set_export`. An unknown export leaves everything but its number as it is. -/
def setExport (id : UInt8) (req : Request) : Op Request :=
  if id = pseudoRootExportId then .pure req.onPseudoRoot
  else do
    let known : Bool ← query (.getExportById id req.toContext)
    if known then pure (req.onExport S id) else pure { req with currentExportId := some id }

/-- `set_export` for the export of an id, if it is not the current one. -/
def switchExport (id : NfsFh4) (req : Request) : Op Request :=
  if req.currentExportId ≠ some (exportIdFromFh id) then req.setExport S (exportIdFromFh id)
  else .pure req

/-- `set_filehandle`. -/
def setFilehandle (fh : Handle) (req : Request) : Request := { req with filehandle := some fh }

/-- `unset_filehandle`. -/
def unsetFilehandle (req : Request) : Request := { req with filehandle := none }

/-- `cache_filehandle`. -/
def cacheFilehandle (fh : Handle) (req : Request) : Op Request := do
  let now : ℕ ← query .now
  pure { req with
    filehandleCache := (fh.id, now, fh) :: req.filehandleCache.filter fun e => e.1 ≠ fh.id }

/-- `drop_filehandle_from_cache`. -/
def dropFilehandleFromCache (id : NfsFh4) (req : Request) : Request :=
  { req with filehandleCache := req.filehandleCache.filter fun e => e.1 ≠ id }

/-- `get_filehandle_from_cache`: an entry that is too old, or whose path is gone, is dropped. -/
def getFilehandleFromCache (id : NfsFh4) (req : Request) : Op (Request × Option Handle) :=
  match req.filehandleCache.find? fun e => e.1 == id with
  | none => .pure (req, none)
  | some (_, time, fh) => do
    let now : ℕ ← query .now
    if (now - time) / 1000000000 > cacheTtl then
      pure (req.dropFilehandleFromCache fh.id, none)
    else
      let there : Bool ← ask fh.vfs (.pathExists fh.file)
      if there then pure (req, some fh) else pure (req.dropFilehandleFromCache fh.id, none)

/-- `set_filehandle_id`. -/
def setFilehandleId (id : NfsFh4) (req : Request) : Op (Request × Except Failure Handle) := do
  let req ← req.switchExport S id
  if exportIdFromFh id = pseudoRootExportId then pure (req, .error .stale)
  else
    let res : Except Failure Handle ← req.askManager (.getFilehandleForId id)
    match res with
    | .ok fh => pure (req.setFilehandle fh, .ok fh)
    | .error _ => pure (req, .error .stale)

/-- `save_filehandle`. -/
def saveFilehandle (req : Request) : Request := { req with savedFilehandle := req.filehandle }

/-- `restore_filehandle`, on a request with a saved filehandle. -/
def restoreFilehandle (saved : Handle) (req : Request) : Op Request := do
  let req ← req.switchExport S saved.id
  pure (req.setFilehandle saved)

/-- `secinfo_flavors`: the flavours of the export, or at the root that lists the exports those of
the exports with the name. -/
def secinfoFlavors (name : Option String) (req : Request) : Op (List SeCinfo4) :=
  match req.access S with
  | some ac => .pure (ac.secFlavors.map SecFlavor.secinfo)
  | none => do
    let exports : List UInt8 ← query .listExports
    let named := (exports.mergeSort (· ≤ ·)).filter fun e =>
      name.isNone || name == some (S.exports e).name
    let all := (named.flatMap fun e => (S.exports e).accessControl.secFlavors).eraseDups
    pure ((if all.isEmpty then [SecFlavor.sys] else all).map SecFlavor.secinfo)

end Request

/-! ### What requests ask -/

namespace Request

variable {S : Server} {ok : Question → Prop}

lemma askManager_asks (req : Request) {call : Call} (hcall : ∀ e, ok (.on (some e) call)) :
    (req.askManager call).AsksOnly ok := by
  unfold Request.askManager Request.fileManager
  cases req.cachedFmanager with
  | none => exact Prog.asksOnly_panic
  | some e => exact Prog.asksOnly_query (hcall e)

lemma setExport_asks (hexport : ∀ id asker, ok (.getExportById id asker)) (id : UInt8)
    (req : Request) : (req.setExport S id).AsksOnly ok := by
  unfold Request.setExport
  split_ifs
  · exact Prog.asksOnly_pure _
  · refine (Prog.asksOnly_query (hexport _ _)).bind fun known => ?_
    split_ifs
    · exact Prog.asksOnly_pure _
    · exact Prog.asksOnly_pure _

lemma switchExport_asks (hexport : ∀ id asker, ok (.getExportById id asker)) (id : NfsFh4)
    (req : Request) : (req.switchExport S id).AsksOnly ok := by
  unfold Request.switchExport
  split_ifs
  · exact setExport_asks hexport _ req
  · exact Prog.asksOnly_pure req

/-- Setting the filehandle by an id asks for an export and for the filehandle. -/
lemma setFilehandleId_asks (hexport : ∀ id asker, ok (.getExportById id asker))
    (hfind : ∀ e id, ok (.on (some e) (.getFilehandleForId id))) (id : NfsFh4) (req : Request) :
    (req.setFilehandleId S id).AsksOnly ok := by
  refine (switchExport_asks hexport id req).bind fun req => ?_
  split_ifs
  · exact Prog.asksOnly_pure _
  · refine (req.askManager_asks fun e => hfind e id).bind fun res => ?_
    cases res with
    | ok fh => exact Prog.asksOnly_pure _
    | error e => exact Prog.asksOnly_pure _

end Request

/-! ### Responses -/

/-- `NfsOpResponse`: what an operation answers, and the request after it. -/
structure Response where
  request : Request
  result : Option NfsResOp4
  status : NfsStat4

namespace Response

/-- An operation that fails with no result. -/
def none (req : Request) (status : NfsStat4) : Response := ⟨req, Option.none, status⟩

/-- An operation with a result. -/
def some (req : Request) (result : NfsResOp4) (status : NfsStat4) : Response :=
  ⟨req, Option.some result, status⟩

end Response

end NextNfs.Dispatcher
