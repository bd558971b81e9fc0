import NextNfs.Server.FileOps

set_option relaxedAutoImplicit false
set_option autoImplicit false

/-!
# The dispatcher

This module models `compound` of `nfs40.rs`: the operations of a compound are taken up one after
another, each is admitted or refused, executed, and its answer checked, until one does not answer
with a result and NFS4_OK.

## Main definitions

* `NextNfs.Dispatcher.admission` — the checks that come before an operation.
* `NextNfs.Dispatcher.execute` — the operation of an argument.
* `NextNfs.Dispatcher.recheck` — the checks that come after it.
* `NextNfs.Dispatcher.compound` — the reply to a compound.
* `NextNfs.Dispatcher.serve` — the compounds of a connection.

## Implementation notes

With its reply a compound returns the operations that it took up, each with the request before it
and the answer to it. They are there for the statements only.
-/

namespace NextNfs.Dispatcher

open Wire Dialogue

variable (S : Server)

/-! ### Kinds of operations -/

/-- `is_mutating`. -/
def isMutating : NfsArgOp → Bool
  | .opopen args =>
    (match args.openhow with
      | .how _ => true
      | .open4Nocreate => false) || args.shareAccess &&& 0x00000002 != 0
  | .opwrite _ | .opcommit _ | .opcreate _ | .opremove _ | .oprename _ | .oplink _ | .opsetattr _
  | .opallocate _ | .opcopy _ => true
  | _ => false

/-- `moves_filehandle`: PUTFH, PUTPUBFH, PUTROOTFH, RESTOREFH, LOOKUP and LOOKUPP. -/
def movesFilehandle (opnum : ℕ) : Bool := [22, 23, 24, 31, 15, 16].contains opnum

/-- `wrongsec_exempt`: those, SECINFO and SECINFO_NO_NAME. -/
def wrongsecExempt (opnum : ℕ) : Bool := movesFilehandle opnum || [33, 52].contains opnum

/-- A PUTFH-like operation before SECINFO, SECINFO_NO_NAME, LOOKUP or LOOKUPP. -/
def wrongsecDeferred (opnum : ℕ) (next : Option ℕ) : Bool :=
  [22, 23, 24, 31].contains opnum && next.any fun n => [33, 52, 15, 16].contains n

/-- The operations that are denied during the grace period. -/
def graceDenies : NfsArgOp → Bool
  | .opopen args =>
    match args.claim, args.openhow with
    | .claimNull _, .how _ => true
    | _, _ => false
  | .opcreate _ | .opremove _ | .oprename _ | .oplock _ | .opwrite _ | .opsetattr _ | .oplink _ =>
    true
  | _ => false

/-- The bytes an operation is charged for. -/
def opBytes : NfsArgOp → UInt64
  | .opread args => args.count.toUInt64
  | .opwrite args => UInt64.ofNat args.data.length
  | _ => 0

/-! ### Permissions -/

/-- The operations that work on the saved and the current filehandle, of one export. -/
def needsOneExport : NfsArgOp → Bool
  | .oprename _ | .oplink _ => true
  | _ => false

/-- The saved filehandle is of another export than the current one. -/
def crossesExports (req : Request) (fh : Handle) : Bool :=
  req.savedFilehandle.any fun saved => exportIdFromFh saved.id != exportIdFromFh fh.id

/-- The operations for which `check_op` looks at mode bits. -/
def modeChecked (arg : NfsArgOp) (req : Request) : Bool :=
  match arg with
  | .oprename _ => req.savedFilehandle.isSome
  | .oplookup _ | .oplookupp | .opreaddir _ | .opcreate _ | .opremove _ | .oplink _ | .opopen _
  | .opread _ | .opwrite _ | .opallocate _ | .opcopy _ | .opsetattr _ => true
  | _ => false

/-- `check_op`. The mode bits are looked at as in `NextNfs.checkOp`, which is one question here. -/
def checkOp (arg : NfsArgOp) (req : Request) (caller : Caller) : Op (Except Failure Unit) :=
  if req.isPseudoRoot then .pure (.ok ())
  else
    match req.cachedFmanager, req.filehandle with
    | some e, some fh =>
      if needsOneExport arg && crossesExports req fh then .pure (.error ⟨.nfs4errXdev, by decide⟩)
      else if modeChecked arg req then
        ask (some e) (.permitted arg fh.toFilehandle
          (req.savedFilehandle.map Handle.toFilehandle) caller)
      else .pure (.ok ())
    | _, _ => .pure (.ok ())

/-- `creates_object`: the operation will create an object, evaluated before it runs. -/
def createsObject (arg : NfsArgOp) (req : Request) : Op Bool :=
  match arg with
  | .opcreate _ => .pure true
  | .opopen args =>
    match args.claim, args.openhow, req.cachedFmanager, req.filehandle with
    | .claimNull name, .how _, some e, some fh => do
      let m : Option RealMeta ← ask (some e) (.statChild fh.path name)
      pure m.isNone
    | _, _, _, _ => .pure false
  | _ => .pure false

/-- The group of a new object: that of a directory with the setgid bit, or that of the caller. -/
def newObjectGid (parent : Option RealMeta) (caller : Caller) : UInt32 :=
  match parent with
  | some parent => if parent.mode &&& 0o2000 ≠ 0 then parent.gid else caller.gid
  | none => caller.gid

/-- `chown_new_object`: give the current filehandle to the caller. -/
def chownNewObject (caller : Caller) (req : Request) : Op Request :=
  match req.cachedFmanager, req.filehandle with
  | some e, some fh => do
    let m : Option RealMeta ← ask (some e) (.stat fh.path)
    match m with
    | none => pure req
    | some m =>
      let parent : Option RealMeta ← ask (some e) (.statParent fh.path)
      let gid := newObjectGid parent caller
      if m.uid = caller.uid ∧ m.gid = gid then pure req
      else
        let done : Bool ← ask (some e) (.lchown fh.path caller.uid gid)
        if done = false then pure req
        else
          let fh := { fh with attrOwner := toString caller.uid, attrOwnerGroup := toString gid }
          let _ : Unit ← ask (some e) (.updateFilehandle fh.toFilehandle)
          let req ← req.cacheFilehandle fh
          pure (req.setFilehandle fh)
  | _, _ => .pure req

/-! ### One operation -/

/-- Who answers an operation: the grace period, a check of the dispatcher, or the operation. -/
inductive Verdict
  | denied | refused | executed
deriving DecidableEq

/-- The answer of the dispatcher to an operation that it refuses. -/
def refuse (arg : NfsArgOp) (req : Request) (status : NfsStat4) : Verdict × Response :=
  (.refused, .some req (.opError (UInt32.ofNat (opCode arg)) status) status)

/-- The rate limiter of the export refuses the operation. -/
def rateLimited (arg : NfsArgOp) (req : Request) : Op Bool :=
  match req.rateLimiter with
  | none => .pure false
  | some e => do
    let consumed : Bool ← query (.tryConsume e (opBytes arg))
    pure (!consumed)

/-- The checks that come before an operation; the answer of one that is refused. A denial by the
grace period has no result. -/
def admission (arg : NfsArgOp) (req : Request) : Op (Option (Verdict × Response)) := do
  let limited ← rateLimited arg req
  if limited then pure (some (refuse arg req .nfs4errDelay))
  else
    let inGrace : Bool ← query .inGrace
    if inGrace && graceDenies arg then pure (some (.denied, .none req .nfs4errGrace))
    else if !req.secAllowed S && !wrongsecExempt (opCode arg) then
      pure (some (refuse arg req .nfs4errWrongsec))
    else if req.readOnly && isMutating arg then pure (some (refuse arg req .nfs4errRofs))
    else
      let permitted ← checkOp arg req (req.caller S)
      match permitted with
      | .error e => pure (some (refuse arg req e.1))
      | .ok _ => pure none

/-- The operation of an argument. -/
def execute (arg : NfsArgOp) (req : Request) : Op Response :=
  match arg with
  | .opUndef0 | .opUndef1 | .opUndef2 => .pure (.none req .nfs4errNotsupp)
  | .opgetfh => getCurrentFilehandle req
  | .opputfh args => putfh S args req
  | .opputrootfh | .opputpubfh => putRootFilehandle S req
  | .opsavefh => saveFilehandle req
  | .oprestorefh => restoreFilehandle S req
  | .opsetclientid args => setclientid args req
  | .opsetclientidConfirm args => setclientidConfirm args req
  | .oprenew args => renew args req
  | .oplookup args => lookup S args req
  | .oplookupp => lookupParent S req
  | .opreaddir args => readdir S args req
  | .opAccess args => access S args req
  | .opgetattr args => getattr S args req
  | .opsetattr args => setattr S args req
  | .opopen args => open_ S args req
  | .opopenConfirm _ => openConfirm req
  | .opclose args => close args req
  | .opread args => read args req
  | .opwrite args => write args req
  | .opcommit _ => commit req
  | .opcreate args => create S args req
  | .opremove args => remove S args req
  | .oprename args => rename S args req
  | .opreadlink => readlink req
  | .opdelegpurge _ => delegpurge req
  | .opdelegreturn args => delegreturn args req
  | .oplink args => link S args req
  | .oplock args => lock args req
  | .oplockt args => lockt args req
  | .oplocku args => locku args req
  | .opreleaseLockOwner args => releaseLockowner args req
  | .opnverify args => nverify args req
  | .opverify args => verify args req
  | .opopenattr args => openattr args req
  | .opopenDowngrade args => openDowngrade args req
  | .opSecinfo args => secinfo S args req
  | .opexchangeId _ => exchangeId req
  | .opcreateSession args => createSession args req
  | .opsequence args => sequence args req
  | .opdestroySession args => destroySession args req
  | .opdestroyClientid args => destroyClientid args req
  | .opreclaimComplete _ => reclaimComplete req
  | .opbindConnToSession args => bindConnToSession args req
  | .opfreeStateid _ => freeStateid req
  | .optestStateid args => testStateid args req
  | .opgetdeviceInfo _ => getdeviceInfo req
  | .opgetdeviceList _ => getdeviceList req
  | .oplayoutCommit _ => layoutCommit req
  | .oplayoutGet _ => layoutGet req
  | .oplayoutReturn _ => layoutReturn req
  | .opsecinfoNoName _ => secinfoNoName S req
  | .opallocate args => allocate args req
  | .opcopy args => copy args req
  | .opseek args => seek args req

/-- The operation moved the request to an export whose address list has not got the client. -/
def clientRefused (before : Option UInt8) (r : Response) : Bool :=
  r.status == .nfs4Ok && r.request.currentExportId != before && !r.request.checkClientAccess S

/-- The operation moved the filehandle to an export that does not allow the security flavour, and
the operation after it may not deal with that. -/
def flavorRefused (arg : NfsArgOp) (next : Option ℕ) (r : Response) : Bool :=
  r.status == .nfs4Ok && movesFilehandle (opCode arg) && !r.request.secAllowed S &&
    !wrongsecDeferred (opCode arg) next

/-- The checks that come after an operation. -/
def recheck (arg : NfsArgOp) (next : Option ℕ) (before : Option UInt8) (r : Response) :
    Verdict × Response :=
  if clientRefused S before r then refuse arg r.request .nfs4errAccess
  else if flavorRefused S arg next r then refuse arg r.request .nfs4errWrongsec
  else (.executed, r)

/-- An operation that is admitted: it is executed, a new object is given to the caller, and the
answer is checked. -/
def perform (arg : NfsArgOp) (next : Option ℕ) (req : Request) : Op (Verdict × Response) := do
  let creates ← createsObject arg req
  let _ : Unit ← query (.execute arg req)
  let r ← execute S arg req
  let req' ← if creates && r.status == .nfs4Ok then chownNewObject (req.caller S) r.request
    else pure r.request
  pure (recheck S arg next req.currentExportId { r with request := req' })

/-- One operation of a compound, before the next one. -/
def dispatch (arg : NfsArgOp) (next : Option ℕ) (req : Request) : Op (Verdict × Response) := do
  let refused ← admission S arg req
  match refused with
  | some answer => pure answer
  | none => perform S arg next req

/-! ### Compounds -/

/-- An operation that was taken up, the requests before and after it and the answer to it. -/
structure Answered where
  arg : NfsArgOp
  before : Request
  verdict : Verdict
  result : Option NfsResOp4
  status : NfsStat4
  after : Request

/-- The loop of `compound`: the operations taken up, up to one that ends it, and the status. -/
def dispatchAll : List NfsArgOp → Request → Op (Request × NfsStat4 × List Answered)
  | [], req => .pure (req, .nfs4Ok, [])
  | arg :: rest, req => do
    let (verdict, r) ← dispatch S arg (rest.head?.map opCode) req
    let answered : Answered := ⟨arg, req, verdict, r.result, r.status, r.request⟩
    if r.result.isSome && r.status == .nfs4Ok then
      let (req, status, log) ← dispatchAll rest r.request
      pure (req, status, answered :: log)
    else pure (r.request, r.status, [answered])

/-- What a compound returns. -/
structure Outcome where
  request : Request
  reply : Compound4res
  answered : List Answered

/-- `compound`. -/
def compound (msg : CallBody) (req : Request) : Op Outcome :=
  match msg.args with
  | none => .pure ⟨req, ⟨.nfs4Ok, "", []⟩, []⟩
  | some args =>
    if args.minorVersion > 1 then
      .pure ⟨req, ⟨.nfs4errMinorVersMismatch, args.tag, []⟩, []⟩
    else do
      let (req, status, log) ← dispatchAll S args.argarray { req with authCred := some msg.cred }
      pure ⟨req, ⟨status, args.tag, log.filterMap Answered.result⟩, log⟩

/-- A connection: the address of the client, the file manager its requests start with, and the time
the server was started. -/
structure Connection where
  clientAddr : String
  defaultFmanager : Option UInt8
  bootTime : UInt64

/-- The compounds of a connection, one after another, each with the flavour of its call. The cache
of filehandles is kept from one to the next. -/
def serve (c : Connection) :
    List (CallBody × SecFlavor) → List (NfsFh4 × ℕ × Handle) → Op (List Outcome)
  | [], _ => .pure []
  | (msg, flavor) :: rest, cache => do
    let _ : Unit ← query .arrive
    let out ← compound S msg (.new c.clientAddr c.defaultFmanager c.bootTime cache flavor)
    let outs ← serve c rest out.request.filehandleCache
    pure (out :: outs)

end NextNfs.Dispatcher
