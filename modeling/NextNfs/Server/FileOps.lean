import NextNfs.Server.NameOps

set_option relaxedAutoImplicit false
set_option autoImplicit false

/-!
# Operations on files, locks, clients and sessions

This module models the other operations of a compound, for a server with several exports: those on
the attributes and the data of the current filehandle, on locks and delegations, on clients and
sessions, and those of parallel NFS, which are all refused.

## Main definitions

* `NextNfs.Dispatcher.access`, `NextNfs.Dispatcher.read`, `NextNfs.Dispatcher.write` and their
  siblings — the operations.

## Implementation notes

An addition of 64-bit numbers that overflows panics, as does a subtraction below zero. What GETATTR
reports about quotas is part of the answer that it gets for the attributes.
-/

namespace NextNfs.Dispatcher

open Wire Dialogue

variable (S : Server)

/-! ### Attributes -/

/-- `ACCESS4_READ`, `ACCESS4_LOOKUP`, `ACCESS4_MODIFY`, `ACCESS4_EXTEND`, `ACCESS4_DELETE` and
`ACCESS4_EXECUTE`. -/
def accessBits : UInt32 := 0x3f

/-- One bit of `check_access`: it is granted if it is asked for and the caller may. -/
def grantBit (ok : Bool) (requested bit : UInt32) : UInt32 :=
  if ok && requested &&& bit != 0 then bit else 0

/-- `check_access`. -/
def checkAccess (requested : UInt32) (m : RealMeta) (caller : Caller) (isDir : Bool) : UInt32 :=
  if caller.isRoot then requested
  else
    let bits := caller.modeBits m
    let hasRead := bits &&& 4 != 0
    let hasWrite := bits &&& 2 != 0
    let hasExec := bits &&& 1 != 0
    grantBit hasRead requested 0x01 ||| grantBit hasExec requested 0x20 |||
      grantBit (isDir && hasExec) requested 0x02 ||| grantBit (!isDir && hasRead) requested 0x02 |||
      grantBit hasWrite requested 0x04 ||| grantBit hasWrite requested 0x08 |||
      grantBit hasWrite requested 0x10

/-- The metadata that ACCESS makes up from a filehandle. -/
def Handle.meta (fh : Handle) : RealMeta where
  ino := fh.attrFileid
  dev := 0
  mode := fh.attrMode
  nlink := fh.attrNlink.toUInt64
  uid := (parseU32 fh.attrOwner).getD 0
  gid := (parseU32 fh.attrOwnerGroup).getD 0
  size := fh.attrSize
  blocks := 0
  atime := 0
  atimeNsec := 0
  mtime := 0
  mtimeNsec := 0
  ctime := 0
  ctimeNsec := 0

/-- The metadata ACCESS looks at: fresh if it can be had. -/
def freshMeta (fh : Handle) (req : Request) : Op RealMeta :=
  match req.cachedFmanager with
  | none => .pure fh.meta
  | some e => do
    let m : Option RealMeta ← ask (some e) (.stat fh.path)
    pure (m.getD fh.meta)

/-- ACCESS: `Access4args::execute`. -/
def access (args : Access4args) (req : Request) : Op Response := do
  let granted : UInt32 ← match req.filehandle with
    | some fh => do
      let m ← freshMeta fh req
      pure (checkAccess args.access m (req.caller S) (fh.attrType == .nf4dir))
    | none => pure args.access
  let granted := if req.readOnly then granted &&& ~~~(0x04 ||| 0x08 ||| 0x10) else granted
  pure (.some req (.opAccess (.resok4 ⟨accessBits, granted⟩)) .nfs4Ok)

/-- GETATTR: `Getattr4args::execute`. -/
def getattr (args : Getattr4args) (req : Request) : Op Response :=
  let answer := fun (attrs : Option Fattr4) (status : NfsStat4) =>
    Response.some req (.opgetattr ⟨status, attrs⟩) status
  if req.isPseudoRoot then do
    let now : ℕ ← query .now
    pure (answer (some (S.pseudoRootGetattr now args.attrRequest)) .nfs4Ok)
  else
    match req.filehandle with
    | none => .pure (answer none .nfs4errStale)
    | some fh => do
      let attrs : Option Fattr4 ← req.askManager (.filehandleAttrs args.attrRequest fh.toFilehandle)
      match attrs with
      | some attrs => pure (answer (some attrs) .nfs4Ok)
      | none => pure (answer none .nfs4errServerfault)

/-- SETATTR: `SetAttr4args::execute`. -/
def setattr (args : SetAttr4args) (req : Request) : Op Response :=
  match req.filehandle with
  | none => .pure (.some req (.opsetattr ⟨.nfs4errStale, []⟩) .nfs4errStale)
  | some fh =>
    if args.objAttributes.attrmask.isEmpty then
      .pure (.some req (.opsetattr ⟨.nfs4Ok, []⟩) .nfs4Ok)
    else do
      let attrsset : List FileAttr ←
        req.askManager (.setAttr fh.toFilehandle args.objAttributes.attrVals)
      let _ : Unit ← req.askManager (.touchFile fh.id)
      let (req, res) ← req.setFilehandleId S fh.id
      match res with
      | .ok fh =>
        let req ← req.cacheFilehandle fh
        pure (.some req (.opsetattr ⟨.nfs4Ok, attrsset⟩) .nfs4Ok)
      | .error e => pure (.none req e.1)

/-- `attrs_match`: attributes that are not tracked match. -/
def attrsMatch (provided : List FileAttrValue) (fh : Filehandle) : Bool :=
  provided.all fun
    | .type v => fh.attrType == v
    | .size v => fh.attrSize == v
    | .change v => fh.attrChange == v
    | .mode v => fh.attrMode == v
    | .numlinks v => fh.attrNlink == v
    | .spaceUsed v => fh.attrSpaceUsed == v
    | _ => true

/-- VERIFY: `Verify4args::execute`. -/
def verify (args : Verify4args) (req : Request) : Op Response :=
  match req.filehandle with
  | none => .pure (.none req .nfs4errNofilehandle)
  | some fh =>
    let status : NfsStat4 :=
      if attrsMatch args.objAttributes.attrVals fh.toFilehandle then .nfs4Ok else .nfs4errNotSame
    .pure (.some req (.opverify ⟨status⟩) status)

/-- NVERIFY: `Nverify4args::execute`. -/
def nverify (args : Nverify4args) (req : Request) : Op Response :=
  match req.filehandle with
  | none => .pure (.none req .nfs4errNofilehandle)
  | some fh =>
    let status : NfsStat4 :=
      if attrsMatch args.objAttributes.attrVals fh.toFilehandle then .nfs4errSame else .nfs4Ok
    .pure (.some req (.opnverify ⟨status⟩) status)

/-! ### Data -/

/-- The size of an open file: the end of the file, or what the filehandle says. -/
def fileSize (fh : Handle) : Op UInt64 := do
  let size : Option UInt64 ← ask fh.vfs (.seekEnd fh.file)
  pure (size.getD fh.attrSize)

/-- `saturating_sub`. -/
def saturatingSub (a b : UInt64) : UInt64 := if b ≤ a then a - b else 0

/-- READ: `Read4args::execute`. -/
def read (args : Read4args) (req : Request) : Op Response :=
  match req.filehandle with
  | none => .pure (.none req .nfs4errFhexpired)
  | some fh => do
    let opened : Option Unit ← ask fh.vfs (.openFile fh.file)
    match opened with
    | none => pure (.none req .nfs4errIo)
    | some _ =>
      let size ← fileSize fh
      let sought : Option Unit ← ask fh.vfs (.seekStart fh.file args.offset)
      match sought with
      | none => pure (.none req .nfs4errIo)
      | some _ =>
        let readSize := min args.count.toNat (saturatingSub size args.offset).toNat
        let data : Option Bytes ← ask fh.vfs (.read fh.file readSize)
        match data with
        | none => pure (.none req .nfs4errIo)
        | some data =>
          let data := data.take readSize
          let eof := decide (args.offset.toNat + data.length ≥ size.toNat)
          pure (.some req (.opread (.resok4 ⟨eof, data⟩)) .nfs4Ok)

/-- `verifier_from_boot`. -/
def verifierFromBoot (bootTime : UInt64) : List.Vector UInt8 8 :=
  ⟨beBytes 8 bootTime.toNat, length_beBytes _ _⟩

/-- The call of a WRITE that is not UNSTABLE. A write at the end of the file is an append. -/
def writeThrough (args : Write4args) (fh : Handle) (req : Request) : Op (Option UInt32) := do
  let there : Bool ← req.askManager (.osExists fh.file.toStr)
  if there then
    let len : Option UInt64 ← req.askManager (.osLen fh.file.toStr)
    let done : Option Unit ←
      if args.offset = len.getD 0 then
        (req.askManager (.osAppend fh.file.toStr args.data) : Op (Option Unit))
      else (req.askManager (.osWriteAt fh.file.toStr args.data args.offset) : Op (Option Unit))
    pure (done.map fun _ => UInt32.ofNat args.data.length)
  else
    let opened : Option Unit ← ask fh.vfs (.appendFile fh.file)
    match opened with
    | none => pure none
    | some _ =>
      let _ : Option Unit ← ask fh.vfs (.seekStart fh.file args.offset)
      let n : Option UInt32 ← ask fh.vfs (.write fh.file args.data)
      match n with
      | none => pure none
      | some n =>
        let flushed : Option Unit ← ask fh.vfs (.flush fh.file)
        pure (flushed.map fun _ => n)

/-- `record_write` of the quota manager of the request, if it has one. -/
def recordWrite (req : Request) (bytes : UInt64) : Op Unit :=
  match req.quotaManager with
  | none => .pure ()
  | some e => query (.recordWrite e bytes)

/-- WRITE after the data is written: what was written is recorded. -/
def finishWrite (count : UInt32) (committed : StableHow4) (req : Request) : Op Response := do
  let _ ← if count > 0 then recordWrite req count.toUInt64 else pure ()
  pure (.some req (.opwrite (.resok4 ⟨count, committed, verifierFromBoot req.bootTime⟩)) .nfs4Ok)

/-- WRITE that is UNSTABLE: the data goes to the write cache of the file. -/
def writeCached (args : Write4args) (fh : Handle) (req : Request) : Op Response := do
  let count := UInt32.ofNat args.data.length
  if fh.writeCache then
    let _ : Unit ← ask fh.vfs (.writeBytes fh.id args.offset args.data)
    finishWrite count .unstable4 req
  else
    let cache : Option Unit ← req.askManager (.getWriteCacheHandle fh.id)
    match cache with
    | none => pure (.none req .nfs4errServerfault)
    | some _ =>
      -- The new cache writes to the file of that path in the export of the file manager.
      let _ : Unit ← req.askManager (.writeBytes fh.id args.offset args.data)
      finishWrite count .unstable4 (req.dropFilehandleFromCache fh.id)

/-- WRITE that is not UNSTABLE: what was written is synced. -/
def writeStable (args : Write4args) (fh : Handle) (req : Request) : Op Response := do
  let written ← writeThrough args fh req
  match written with
  | none => pure (.none req .nfs4errIo)
  | some count =>
    if count > 0 then
      let _ : Unit ← req.askManager (.touchFile fh.id)
      finishWrite count .fileSync4 req
    else finishWrite count .fileSync4 req

/-- WRITE: `Write4args::execute`. -/
def write (args : Write4args) (req : Request) : Op Response :=
  match req.filehandle with
  | none => .pure (.none req .nfs4errFhexpired)
  | some fh => do
    let allowed : Bool ←
      if args.data.isEmpty then pure true else quotaAllows req (UInt64.ofNat args.data.length)
    if allowed = false then pure (.none req .nfs4errDquot)
    else
      match args.stable with
      | .unstable4 => writeCached args fh req
      | .dataSync4 | .fileSync4 => writeStable args fh req

/-- COMMIT: `Commit4args::execute`. -/
def commit (req : Request) : Op Response :=
  match req.filehandle with
  | none => .pure (.none req .nfs4errFhexpired)
  | some fh => do
    let cache : Option Unit ← req.askManager (.getWriteCacheHandle fh.id)
    match cache with
    | none => pure (.none req .nfs4errServerfault)
    | some _ =>
      let _ : Unit ← req.askManager (.commit fh.id)
      let _ : Unit ← req.askManager (.touchFile fh.id)
      pure (.some (req.dropFilehandleFromCache fh.id)
        (.opcommit (.resok4 ⟨verifierFromBoot req.bootTime⟩)) .nfs4Ok)

/-- The sizes of the chunks in which ALLOCATE writes zeros. -/
def zeroChunks (n : ℕ) : List ℕ :=
  List.replicate (n / 65536) 65536 ++ (if n % 65536 = 0 then [] else [n % 65536])

/-- ALLOCATE: write zeros, chunk by chunk. -/
def writeZeros (fh : Handle) : List ℕ → Op (Option Unit)
  | [] => .pure (some ())
  | n :: rest => do
    let done : Option Unit ← ask fh.vfs (.writeAll fh.file (List.replicate n 0))
    match done with
    | none => pure none
    | some _ => writeZeros fh rest

/-- ALLOCATE: `Allocate4args::execute`. -/
def allocate (args : Allocate4args) (req : Request) : Op Response :=
  let answer := fun (status : NfsStat4) => Response.some req (.opallocate ⟨status⟩) status
  match req.filehandle with
  | none => .pure (answer .nfs4errFhexpired)
  | some fh => do
    let allowed ← quotaAllows req args.aaLength
    if allowed = false then pure (answer .nfs4errDquot)
    else
      let opened : Option Unit ← ask fh.vfs (.appendFile fh.file)
      match opened with
      | none => pure (answer .nfs4errIo)
      | some _ =>
        let size : Option UInt64 ← ask fh.vfs (.seekEnd fh.file)
        match size with
        | none => pure (answer .nfs4errIo)
        | some size =>
          let allocEnd := args.aaOffset.toNat + args.aaLength.toNat
          if allocEnd ≥ 2 ^ 64 then .panic
          else if allocEnd > size.toNat then
            let done ← writeZeros fh (zeroChunks (allocEnd - size.toNat))
            match done with
            | none => pure (answer .nfs4errIo)
            | some _ =>
              recordWrite req (UInt64.ofNat (allocEnd - size.toNat))
              pure (answer .nfs4Ok)
          else pure (answer .nfs4Ok)

/-- COPY: copy what is left, in chunks, until the source ends. -/
def copyLoop (src dst : Handle) (count copied : ℕ) : Op (Option ℕ) :=
  if copied < count then do
    let data : Option Bytes ← ask src.vfs (.read src.file (min (count - copied) 262144))
    match data with
    | none => pure none
    | some data =>
      if data = [] then pure (some copied)
      else
        let done : Option Unit ← ask dst.vfs (.writeAll dst.file data)
        match done with
        | none => pure none
        | some _ => copyLoop src dst count (copied + data.length)
  else .pure (some copied)
termination_by count - copied
decreasing_by
  have hlen : 0 < data.length := List.length_pos_iff.2 ‹_›
  omega

/-- The answer of a COPY that succeeds. -/
def copyResok (count : ℕ) : NfsResOp4 :=
  .opcopy (.resok4 ⟨⟨[], UInt64.ofNat count, .fileSync4, List.Vector.replicate 8 0⟩, ⟨true, true⟩⟩)

/-- COPY once there is something to copy. -/
def copyBytes (args : Copy4args) (src dst : Handle) (count : ℕ) (req : Request) : Op Response := do
  let sought : Option Unit ← ask src.vfs (.seekStart src.file args.caSrcOffset)
  match sought with
  | none => pure (.none req .nfs4errIo)
  | some _ =>
    let opened : Option Unit ← ask dst.vfs (.appendFile dst.file)
    match opened with
    | none => pure (.none req .nfs4errIo)
    | some _ =>
      let sought : Option Unit ← ask dst.vfs (.seekStart dst.file args.caDstOffset)
      match sought with
      | none => pure (.none req .nfs4errIo)
      | some _ =>
        let copied ← copyLoop src dst count 0
        match copied with
        | none => pure (.none req .nfs4errIo)
        | some n =>
          let flushed : Option Unit ← ask dst.vfs (.flush dst.file)
          match flushed with
          | none => pure (.none req .nfs4errIo)
          | some _ =>
            recordWrite req (UInt64.ofNat n)
            pure (.some req (copyResok n) .nfs4Ok)

/-- COPY: `Copy4args::execute`, from the saved filehandle to the current one. -/
def copy (args : Copy4args) (req : Request) : Op Response :=
  match req.filehandle with
  | none => .pure (.none req .nfs4errFhexpired)
  | some dst =>
    match req.savedFilehandle with
    | none => .pure (.none req .nfs4errFhexpired)
    | some src => do
      let allowed ← quotaAllows req args.caCount
      if allowed = false then pure (.none req .nfs4errDquot)
      else
        let opened : Option Unit ← ask src.vfs (.openFile src.file)
        match opened with
        | none => pure (.none req .nfs4errIo)
        | some _ =>
          let size ← fileSize src
          let available := (saturatingSub size args.caSrcOffset).toNat
          let count := if args.caCount = 0 then available else min args.caCount.toNat available
          if count = 0 then pure (.some req (copyResok 0) .nfs4Ok)
          else copyBytes args src dst count req

/-- SEEK: `Seek4args::execute`. A file has no holes. -/
def seek (args : Seek4args) (req : Request) : Op Response :=
  match req.filehandle with
  | none => .pure (.none req .nfs4errFhexpired)
  | some fh => do
    let opened : Option Unit ← ask fh.vfs (.openFile fh.file)
    match opened with
    | none => pure (.none req .nfs4errIo)
    | some _ =>
      let size ← fileSize fh
      if args.saOffset ≥ size then pure (.some req (.opseek (.resok4 ⟨true, size⟩)) .nfs4Ok)
      else
        match args.saWhat with
        | .data => pure (.some req (.opseek (.resok4 ⟨false, args.saOffset⟩)) .nfs4Ok)
        | .hole => pure (.some req (.opseek (.resok4 ⟨false, size⟩)) .nfs4Ok)

/-! ### Locks and delegations -/

/-- LOCK: `Lock4args::execute`. -/
def lock (args : Lock4args) (req : Request) : Op Response :=
  match req.filehandle with
  | none => .pure (.none req .nfs4errNofilehandle)
  | some fh => do
    let result : { r : LockResult // r ≠ .error .nfs4Ok ∧ r ≠ .error .nfs4errDenied } ←
      req.askManager (.lockFile fh.id args.lockOwner.1 args.lockOwner.2 args.locktype args.offset
        args.length)
    pure ⟨req, result.1.response.result, result.1.response.status⟩

/-- LOCKT: `Lockt4args::execute`. A lock that would be granted is answered with a body too. -/
def lockt (args : Lockt4args) (req : Request) : Op Response :=
  match req.filehandle with
  | none => .pure (.none req .nfs4errNofilehandle)
  | some fh => do
    let result : TestLockResult ← req.askManager (.testLock fh.id args.owner.clientid
      args.owner.owner args.locktype args.offset args.length)
    match result with
    | .ok => pure (.some req (.oplockt (.denied ⟨0, 0, args.locktype, args.owner⟩)) .nfs4Ok)
    | .denied offset length lockType clientid owner =>
      pure (.some req (.oplockt (.denied ⟨offset, length, lockType, ⟨clientid, owner⟩⟩))
        .nfs4errDenied)

/-- LOCKU: `Locku4args::execute`. It does not look at the current filehandle. -/
def locku (args : Locku4args) (req : Request) : Op Response := do
  let result : { r : UnlockResult // r ≠ .error .nfs4Ok } ←
    req.askManager (.unlockFile args.lockStateid.other args.offset args.length)
  match result.1 with
  | .ok stateid => pure (.some req (.oplocku (.lockStateid stateid)) .nfs4Ok)
  | .error status => pure (.none req status)

/-- RELEASE_LOCKOWNER: `ReleaseLockowner4args::execute`. It does not look at the current
filehandle. -/
def releaseLockowner (args : ReleaseLockowner4args) (req : Request) : Op Response := do
  let status : NfsStat4 ←
    req.askManager (.releaseLockOwner args.lockOwner.clientid args.lockOwner.owner)
  pure (.some req (.opreleaseLockOwner ⟨status⟩) status)

/-- DELEGPURGE: `DelegPurge4args::execute`. -/
def delegpurge (req : Request) : Op Response :=
  .pure (.some req (.opdelegpurge ⟨.nfs4Ok⟩) .nfs4Ok)

/-- DELEGRETURN: `DelegReturn4args::execute`. -/
def delegreturn (args : DelegReturn4args) (req : Request) : Op Response :=
  match req.filehandle with
  | none => .pure (.some req (.opdelegreturn ⟨.nfs4errFhexpired⟩) .nfs4errFhexpired)
  | some fh => do
    let status : NfsStat4 ← req.askManager (.returnDelegation fh.id args.delegStateid)
    pure (.some req (.opdelegreturn ⟨status⟩) status)

/-! ### Clients and sessions -/

/-- SETCLIENTID: `SetClientId4args::execute`. -/
def setclientid (args : SetClientId4args) (req : Request) : Op Response := do
  let res : Except Failure SetClientId4resok ← query (.upsertClient args)
  match res with
  | .ok client => pure (.some req (.opsetclientid (.resok4 client)) .nfs4Ok)
  | .error e => pure (.none req e.1)

/-- SETCLIENTID_CONFIRM: `SetClientIdConfirm4args::execute`. -/
def setclientidConfirm (args : SetClientIdConfirm4args) (req : Request) : Op Response := do
  let res : Except Failure Unit ← query (.confirmClient args.clientid args.setclientidConfirm)
  match res with
  | .ok _ => pure (.some req (.opsetclientidConfirm ⟨.nfs4Ok⟩) .nfs4Ok)
  | .error e => pure (.none req e.1)

/-- RENEW: `Renew4args::execute`. -/
def renew (args : Renew4args) (req : Request) : Op Response := do
  let res : Except Failure Unit ← query (.renewLeases args.clientid)
  match res with
  | .ok _ => pure (.some req (.oprenew ⟨.nfs4Ok⟩) .nfs4Ok)
  | .error e => pure (.some req (.oprenew ⟨e.1⟩) e.1)

/-- BIND_CONN_TO_SESSION: `BindConnToSession4args::execute`. -/
def bindConnToSession (args : BindConnToSession4args) (req : Request) : Op Response :=
  if req.sessionManager = false then .pure (.none req .nfs4errServerfault)
  else do
    let session : Option Session ← query (.getSession args.bctsaSessid)
    match session with
    | none => pure (.none req .nfs4errBadSession)
    | some session =>
      let _ : Unit ← query (.bindConnection args.bctsaSessid req.clientAddr)
      pure (.some req (.opbindConnToSession (.resok4 ⟨session.id, .fore, false⟩)) .nfs4Ok)

/-- The flags EXCHANGE_ID answers with. -/
def EXCHANGE_FLAGS : UInt32 := 0x00010000 ||| 0x00000008

/-- EXCHANGE_ID: `ExchangeId4args::execute`. -/
def exchangeId (req : Request) : Op Response :=
  if req.sessionManager = false then .pure (.none req .nfs4errServerfault)
  else do
    let clientid : UInt64 ← query .allocateClientId
    pure (.some req (.opexchangeId (.resok4 ⟨clientid, 1, EXCHANGE_FLAGS, .spNone,
      ⟨0, "nextnfs".toUTF8.toList⟩, "nextnfs.local".toUTF8.toList,
      [⟨"nextnfs.dev", "nextnfs", ⟨0, 0⟩⟩]⟩)) .nfs4Ok)

/-- CREATE_SESSION: `CreateSession4args::execute`. -/
def createSession (args : CreateSession4args) (req : Request) : Op Response :=
  if req.sessionManager = false then .pure (.none req .nfs4errServerfault)
  else do
    let fore := args.csaForeChanAttrs
    let maxSlots := min fore.caMaxrequests 64
    let session : Session ← query (.createSession args.csaClientid maxSlots)
    pure (.some { req with sessionId := some session.id }
      (.opcreateSession (.resok4 ⟨session.id, args.csaSequence, args.csaFlags,
        ⟨0, min fore.caMaxrequestsize 1048576, min fore.caMaxresponsesize 1048576,
          min fore.caMaxresponsesizeCached 1048576, min fore.caMaxoperations 64, maxSlots, []⟩,
        ⟨0, 4096, 4096, 0, 2, 1, []⟩⟩)) .nfs4Ok)

/-- SEQUENCE: `Sequence4args::execute`. The highest slot of a session is one less than the number
of its slots. -/
def sequence (args : Sequence4args) (req : Request) : Op Response :=
  if req.sessionManager = false then .pure (.none req .nfs4errServerfault)
  else do
    let session : Option Session ← query (.getSession args.saSessionid)
    match session with
    | none => pure (.none req .nfs4errBadSession)
    | some session =>
      if session.slots = 0 then .panic
      else if args.saSlotid.toNat ≥ session.slots then pure (.none req .nfs4errBadSlot)
      else
        let highest := UInt32.ofNat (session.slots - 1)
        let req := { req with
          sessionId := some args.saSessionid, sequenceSlotid := some args.saSlotid }
        pure (.some req (.opsequence (.resok4
          ⟨args.saSessionid, args.saSequenceid, args.saSlotid, highest, highest, 0⟩)) .nfs4Ok)

/-- DESTROY_SESSION: `DestroySession4args::execute`. -/
def destroySession (args : DestroySession4args) (req : Request) : Op Response :=
  let answer := fun (status : NfsStat4) => Response.some req (.opdestroySession ⟨status⟩) status
  if req.sessionManager = false then .pure (answer .nfs4errServerfault)
  else do
    let destroyed : Bool ← query (.destroySession args.dsaSessionid)
    pure (answer (if destroyed then .nfs4Ok else .nfs4errBadSession))

/-- DESTROY_CLIENTID: `DestroyClientId4args::execute`. -/
def destroyClientid (args : DestroyClientId4args) (req : Request) : Op Response :=
  let answer := fun (status : NfsStat4) => Response.some req (.opdestroyClientid ⟨status⟩) status
  if req.sessionManager = false then .pure (answer .nfs4errServerfault)
  else do
    let _ : Unit ← query (.destroyClient args.dcaClientid)
    pure (answer .nfs4Ok)

/-- RECLAIM_COMPLETE: `ReclaimComplete4args::execute`. -/
def reclaimComplete (req : Request) : Op Response :=
  .pure (.some req (.opreclaimComplete ⟨.nfs4Ok⟩) .nfs4Ok)

/-- FREE_STATEID: `FreeStateid4args::execute`. -/
def freeStateid (req : Request) : Op Response :=
  .pure (.some req (.opfreeStateid ⟨.nfs4Ok⟩) .nfs4Ok)

/-- TEST_STATEID: `TestStateid4args::execute`. -/
def testStateid (args : TestStateid4args) (req : Request) : Op Response :=
  .pure (.some req (.optestStateid (.resok4 ⟨args.tsStateids.map fun _ => 0⟩)) .nfs4Ok)

/-! ### Layouts -/

/-- GETDEVICEINFO: `GetDeviceInfo4args::execute`. -/
def getdeviceInfo (req : Request) : Op Response :=
  .pure (.some req (.opgetdeviceInfo (.err .nfs4errNotsupp)) .nfs4errNotsupp)

/-- GETDEVICELIST: `GetDeviceList4args::execute`. -/
def getdeviceList (req : Request) : Op Response :=
  .pure (.some req (.opgetdeviceList (.err .nfs4errNotsupp)) .nfs4errNotsupp)

/-- LAYOUTCOMMIT: `LayoutCommit4args::execute`. -/
def layoutCommit (req : Request) : Op Response :=
  .pure (.some req (.oplayoutCommit (.err .nfs4errNomatchingLayout)) .nfs4errNomatchingLayout)

/-- LAYOUTGET: `LayoutGet4args::execute`. -/
def layoutGet (req : Request) : Op Response :=
  .pure (.some req (.oplayoutGet (.err .nfs4errLayoutUnavailable)) .nfs4errLayoutUnavailable)

/-- LAYOUTRETURN: `LayoutReturn4args::execute`. -/
def layoutReturn (req : Request) : Op Response :=
  .pure (.some req (.oplayoutReturn (.err .nfs4errNomatchingLayout)) .nfs4errNomatchingLayout)

end NextNfs.Dispatcher
