import NextNfs.Server.Dispatcher

set_option relaxedAutoImplicit false
set_option autoImplicit false

/-!
# What the operations do

One lemma for each operation says what it may ask, when it may panic, what it answers and what it
leaves of the request. Everything about compounds is derived from these lemmas.

## Main definitions

* `NextNfs.Dispatcher.Asks` — what an operation that stays on its export may ask.
* `NextNfs.Dispatcher.Stays` — what such an operation leaves of the request.
* `NextNfs.Dispatcher.silent`, `NextNfs.Dispatcher.Fits` — when an operation answers without a
  result, and which results it answers with.

## Main results

* `NextNfs.Dispatcher.execute_does` — what an operation does that stays on its export.
-/

namespace NextNfs.Dispatcher

open Wire Dialogue

/-! ### Questions -/

/-- The calls that may change a file system. A write cache creates its file. -/
def Call.modifies : Call → Bool
  | createFile .. | removeFile _ | getWriteCacheHandle _ | writeBytes .. | setAttr .. | lchown ..
  | createDir _ | moveDir .. | moveFile .. | osAppend .. | osWriteAt .. | osRename ..
  | osSymlink .. | osHardLink .. | write .. | writeAll .. => true
  | openNamedAttrDir _ createdir => createdir
  | _ => false

/-- The filehandle in the answer of a file manager. -/
def Call.Gives : (call : Call) → call.Answer → Handle → Prop
  | getRootFilehandle, a, fh | getFilehandleForId _, a, fh | getFilehandleForPath _, a, fh
  | createFile .., a, fh | openNamedAttrDir .., a, fh => a = .ok fh
  | _, _, _ => False

/-- The operations that do not look at the current filehandle before they go to the file manager. -/
def ignoresFilehandle : NfsArgOp → Bool
  | .oplocku _ | .opreleaseLockOwner _ => true
  | _ => false

/-- The exports that an operation may ask: that of the file manager, and those in which the
filehandles of the request are. -/
def Request.Reaches (req : Request) (arg : NfsArgOp) (e : Option UInt8) : Prop :=
  (e.isSome ∧ e = req.cachedFmanager ∧
    (req.filehandle.isSome ∨ ignoresFilehandle arg = true)) ∨
  (∃ fh, req.filehandle = some fh ∧ e = fh.vfs) ∨
  (req.filehandle.isSome ∧ ∃ fh, req.savedFilehandle = some fh ∧ e = fh.vfs)

/-- The exports that an operation may change. Only RENAME writes where the saved filehandle is. -/
def Request.WritesTo (req : Request) (arg : NfsArgOp) (e : Option UInt8) : Prop :=
  (e.isSome ∧ e = req.cachedFmanager ∧ req.filehandle.isSome) ∨
  (∃ fh, req.filehandle = some fh ∧ e = fh.vfs) ∨
  (needsOneExport arg = true ∧ req.cachedFmanager.isSome ∧ req.filehandle.isSome ∧
    ∃ fh, req.savedFilehandle = some fh ∧ e = fh.vfs)

/-- The operations that may change an export: those that count as mutating, OPENATTR that may
create, and CLOSE of a file with a write cache. -/
def mayModify (arg : NfsArgOp) (req : Request) : Bool :=
  match arg with
  | .opopenattr args => args.createdir
  | .opclose _ => req.filehandle.any Handle.writeCache
  | arg => isMutating arg

/-- What an operation may ask that stays on its export. -/
def Asks (arg : NfsArgOp) (req : Request) : Question → Prop
  | .on e call =>
    req.Reaches arg e ∧ (call.modifies = true → req.WritesTo arg e ∧ mayModify arg req = true)
  | .checkWrite e _ | .recordWrite e _ => req.quotaManager = some e
  | .createSession clientid maxSlots =>
    ∃ args, arg = .opcreateSession args ∧ clientid = args.csaClientid ∧
      maxSlots = min args.csaForeChanAttrs.caMaxrequests 64
  | .arrive | .execute .. | .getExportById .. | .getExportByName _ | .tryConsume .. | .inGrace => False
  | _ => True

/-- The operations that need a file manager. -/
def needsManager (S : Server) (arg : NfsArgOp) (req : Request) : Bool :=
  match req.filehandle with
  | none => ignoresFilehandle arg
  | some fh =>
    match arg with
    | .oplookup _ | .oplookupp | .opreaddir _ | .opgetattr _ => !req.isPseudoRoot
    | .opsetattr args => !args.objAttributes.attrmask.isEmpty
    | .opcreate args =>
      args.objname != "" && (match args.objtype with
        | .nf4lnk _ | .nf4dir => true
        | _ => false)
    | .oplink args => req.savedFilehandle.isSome && (S.join fh.file args.newname).isSome
    | .opremove args => (S.join fh.file args.target).isSome
    | .oprename args => req.savedFilehandle.isSome && (S.join fh.file args.newname).isSome
    | .opopen args =>
      match args.claim with
      | .claimPrevious _ => true
      | .claimNull file => file != ""
      | _ => false
    | .opwrite args =>
      match args.stable with
      | .unstable4 => !fh.writeCache
      | _ => true
    | .opreadlink | .opopenattr _ | .opclose _ | .opcommit _ | .oplock _ | .oplockt _ | .oplocku _
    | .opreleaseLockOwner _ | .opdelegreturn _ => true
    | _ => false

/-! ### Answers -/

/-- The answers that come without a result. -/
def silent (arg : NfsArgOp) (req : Request) (status : NfsStat4) : Bool :=
  match arg with
  | .opUndef0 | .opUndef1 | .opUndef2 => true
  | .opclose _ | .opcommit _ | .opcopy _ | .opcreate _ | .opgetfh | .oplink _ | .oplocku _ | .opopen _
  | .opopenConfirm _ | .opopenDowngrade _ | .opputrootfh | .opputpubfh | .opread _ | .opreaddir _
  | .opSecinfo _ | .opseek _ | .opsequence _ | .opsetclientid _ | .opsetclientidConfirm _ | .opwrite _
  | .opbindConnToSession _ | .opcreateSession _ | .opexchangeId _ => status != .nfs4Ok
  | .oplock _ => status != .nfs4Ok && status != .nfs4errDenied
  | .oplockt _ | .opreadlink | .opverify _ | .opnverify _ => req.filehandle.isNone
  | .oplookup _ => !req.isPseudoRoot && req.filehandle.isNone
  | .oprename _ => status != .nfs4Ok && req.savedFilehandle.isSome
  | .opsetattr _ => status != .nfs4Ok && req.filehandle.isSome
  | _ => false

section Silent

variable {req : Request} {status : NfsStat4}

@[simp] lemma silent_oplookup {args : Lookup4args} :
    silent (.oplookup args) req status = (!req.isPseudoRoot && req.filehandle.isNone) := by
  simp only [silent]

@[simp] lemma silent_opreadlink : silent .opreadlink req status = req.filehandle.isNone := rfl

@[simp] lemma silent_oplockt {args : Lockt4args} :
    silent (.oplockt args) req status = req.filehandle.isNone :=
  rfl

@[simp] lemma silent_opverify {args : Verify4args} :
    silent (.opverify args) req status = req.filehandle.isNone :=
  rfl

@[simp] lemma silent_opnverify {args : Nverify4args} :
    silent (.opnverify args) req status = req.filehandle.isNone :=
  rfl

end Silent

/-- The statuses that go with a result. -/
def StatusFits : NfsResOp4 → NfsStat4 → Prop
  | .opUndef0, _ | .opUndef1, _ | .opUndef2, _ | .opputpubfh, _ | .opError .., _ => False
  | .oplock (.denied _), s => s = .nfs4errDenied
  | .oplockt _, s => s = .nfs4Ok ∨ s = .nfs4errDenied
  | .oprename _, s => s = .nfs4Ok ∨ s = .nfs4errNofilehandle
  | .opsetclientid (.clientUsing _), _ | .opgetdeviceInfo (.resok4 _), _
  | .opgetdeviceList (.resok4 _), _ | .oplayoutCommit (.resok4 _), _ | .oplayoutGet (.resok4 _), _
  | .oplayoutReturn (.resok4 _), _ => False
  | .opopen (.resok4 r), s => s = .nfs4Ok ∧ r.delegation = .none
  | .opAccess _, s | .opclose _, s | .opcommit _, s | .opcreate _, s | .opgetfh _, s | .oplink _, s
  | .oplock (.resok4 _), s | .oplocku _, s | .opopenConfirm _, s | .opopenDowngrade _, s
  | .opread _, s | .opreaddir _, s | .opSecinfo _, s | .opsetclientid (.resok4 _), s | .opwrite _, s
  | .opbindConnToSession _, s | .opexchangeId _, s | .opcreateSession _, s | .opsecinfoNoName _, s
  | .opsequence _, s | .optestStateid _, s | .opcopy _, s | .opseek _, s => s = .nfs4Ok
  | .opdelegpurge r, s => r.status = s
  | .opdelegreturn r, s => r.status = s
  | .opgetattr r, s => r.status = s ∧ (s = .nfs4Ok → r.objAttributes.isSome = true)
  | .oplookup r, s => r.status = s
  | .oplookupp r, s => r.status = s
  | .opnverify r, s => r.status = s
  | .opopenattr r, s => r.status = s
  | .opputfh r, s => r.status = s
  | .opputrootfh r, s => r.status = s
  | .opreadlink r, s => r.status = s
  | .opremove r, s => r.status = s
  | .oprenew r, s => r.status = s
  | .oprestorefh r, s => r.status = s
  | .opsavefh r, s => r.status = s
  | .opsetattr r, s => r.status = s
  | .opsetclientidConfirm r, s => r.status = s
  | .opverify r, s => r.status = s
  | .opreleaseLockOwner r, s => r.status = s
  | .opdestroySession r, s => r.dsrStatus = s
  | .opfreeStateid r, s => r.fsrStatus = s
  | .opgetdeviceInfo (.err r), s => r = s
  | .opgetdeviceList (.err r), s => r = s
  | .oplayoutCommit (.err r), s => r = s
  | .oplayoutGet (.err r), s => r = s
  | .oplayoutReturn (.err r), s => r = s
  | .opdestroyClientid r, s => r.dcrStatus = s
  | .opreclaimComplete r, s => r.rcrStatus = s
  | .opallocate r, s => r.arStatus = s

/-- The operation that a result of an operation names: PUTPUBFH answers as PUTROOTFH. -/
def respondsAs (arg : NfsArgOp) : ℕ :=
  match arg with
  | .opputpubfh => 24
  | arg => opCode arg

/-- An operation answers as itself, PUTPUBFH excepted. -/
lemma opCode_eq_of_respondsAs {arg : NfsArgOp} {n : ℕ} (h : n = respondsAs arg) (hn : n ≠ 24) :
    opCode arg = n := by
  cases arg with
  | opputpubfh => exact absurd h hn
  | _ => exact h.symm

lemma respondsAs_eq_opCode {arg : NfsArgOp} (h : opCode arg ≠ 23) : respondsAs arg = opCode arg := by
  cases arg with
  | opputpubfh => exact absurd rfl h
  | _ => rfl

/-- The results that an operation answers with. -/
def Fits (arg : NfsArgOp) (res : NfsResOp4) (status : NfsStat4) : Prop :=
  res.opNum = respondsAs arg ∧ StatusFits res status

/-- What an operation answers. -/
structure Answers (arg : NfsArgOp) (req : Request) (result : Option NfsResOp4)
    (status : NfsStat4) : Prop where
  silent : result = none ↔ silent arg req status = true
  fits : ∀ res, result = some res → Fits arg res status

/-- An answer without a result. -/
lemma Answers.none {arg : NfsArgOp} {req req' : Request} {status : NfsStat4}
    (h : Dispatcher.silent arg req status = true) :
    Answers arg req (Response.none req' status).result (Response.none req' status).status :=
  ⟨iff_of_true rfl h, fun _ hres => nomatch hres⟩

/-- An answer with a result. -/
lemma Answers.some {arg : NfsArgOp} {req req' : Request} {res : NfsResOp4} {status : NfsStat4}
    (h : Dispatcher.silent arg req status = false) (hfits : Fits arg res status) :
    Answers arg req (Response.some req' res status).result (Response.some req' res status).status := by
  refine ⟨iff_of_false nofun (by simp [Response.some, h]), fun res' hres => ?_⟩
  cases hres
  exact hfits

/-! ### Requests -/

/-- The part of a filehandle that a request does not change. -/
structure Tag where
  id : NfsFh4
  vfs : Option UInt8
  writeCache : Bool

/-- The part of a filehandle that a request does not change. -/
def Handle.tag (fh : Handle) : Tag := ⟨fh.id, fh.vfs, fh.writeCache⟩

/-- What an operation leaves of the request that stays on its export: the current filehandle, and
what is new in the cache, have the property. -/
structure Stays (K : Tag → Prop) (req req' : Request) : Prop where
  context : req'.toContext = req.toContext
  filehandle : ∀ fh, req'.filehandle = some fh → K fh.tag ∧ req.filehandle.isSome
  saved : req'.savedFilehandle = req.savedFilehandle ∨ req'.savedFilehandle = req.filehandle
  cache : ∀ e ∈ req'.filehandleCache, e ∈ req.filehandleCache ∨
    (e.1 = e.2.2.id ∧ K e.2.2.tag ∧ req.filehandle.isSome)

namespace Stays

variable {K : Tag → Prop} {req req' : Request}

/-- Nothing changes. -/
lemma refl (h : ∀ fh, req.filehandle = some fh → K fh.tag) : Stays K req req :=
  ⟨rfl, fun fh hfh => ⟨h fh hfh, by simp [hfh]⟩, .inl rfl, fun _ he => .inl he⟩

/-- Another current filehandle is set. -/
lemma setFilehandle (h : Stays K req req') {fh : Handle} (hfh : K fh.tag)
    (hsome : req.filehandle.isSome) : Stays K req (req'.setFilehandle fh) := by
  refine ⟨h.context, fun fh' hfh' => ?_, h.saved, h.cache⟩
  cases hfh'
  exact ⟨hfh, hsome⟩

/-- The current filehandle is unset. -/
lemma unsetFilehandle (h : Stays K req req') : Stays K req req'.unsetFilehandle :=
  ⟨h.context, fun _ hfh => (nomatch hfh), h.saved, h.cache⟩

/-- A filehandle is dropped from the cache. -/
lemma dropFilehandleFromCache (h : Stays K req req') (id : NfsFh4) :
    Stays K req (req'.dropFilehandleFromCache id) :=
  ⟨h.context, h.filehandle, h.saved, fun e he => h.cache e (List.mem_filter.1 he).1⟩

/-- A filehandle is put into the cache. -/
lemma cached (h : Stays K req req') {fh : Handle} (hfh : K fh.tag)
    (hsome : req.filehandle.isSome) (now : ℕ) :
    Stays K req { req' with
      filehandleCache :=
        (fh.id, now, fh) :: req'.filehandleCache.filter fun e => e.1 ≠ fh.id } := by
  refine ⟨h.context, h.filehandle, h.saved, fun e he => ?_⟩
  rcases List.mem_cons.1 he with rfl | he
  · exact .inr ⟨rfl, hfh, hsome⟩
  · exact h.cache e (List.mem_filter.1 he).1

/-- The file manager is the same. -/
lemma cachedFmanager (h : Stays K req req') : req'.cachedFmanager = req.cachedFmanager :=
  congrArg Context.cachedFmanager h.context

end Stays

/-! ### Conduct -/

variable {S : Server} {law : (q : Question) → q.Answer → Prop} {crash : Prop} {K : Tag → Prop}
  {arg : NfsArgOp} {req req' : Request}

/-- What is known when an operation is executed: its filehandle and those it is given have the
property, and what may make it panic is `crash`. -/
structure Ready (S : Server) (law : (q : Question) → q.Answer → Prop) (crash : Prop)
    (K : Tag → Prop) (arg : NfsArgOp) (req : Request) : Prop where
  current : ∀ fh, req.filehandle = some fh → K fh.tag
  gives : req.filehandle.isSome → ∀ e, req.cachedFmanager = some e → ∀ (call : Call) a fh,
    law (.on (some e) call) a → call.Gives a fh → K fh.tag
  manager : req.cachedFmanager = none → needsManager S arg req = true → crash
  overflow : ∀ args, arg = .opallocate args →
    2 ^ 64 ≤ args.aaOffset.toNat + args.aaLength.toNat → crash
  slots : ∀ id session, law (.getSession id) (some session) → session.slots = 0 → crash
  locks : ∀ e path clientId owner access deny verifier fh,
    law (.on e (.createFile path clientId owner access deny verifier)) (.ok fh) →
      fh.locks = [] → crash

/-- What an operation does that stays on its export. -/
def Conducts (law : (q : Question) → q.Answer → Prop) (crash : Prop) (K : Tag → Prop)
    (arg : NfsArgOp) (req : Request) (p : Op Response) : Prop :=
  p.Does law (Asks arg req) crash fun r => Stays K req r.request ∧ Answers arg req r.result r.status

/-! ### Rules -/

/-- A question that every operation may ask. -/
lemma query_does {q : Question} {post : q.Answer → Prop} (hq : Asks arg req q)
    (hpost : ∀ a, law q a → post a) : (query q).Does law (Asks arg req) crash post :=
  ⟨hq, hpost⟩

/-- A question about the file of the current filehandle. -/
lemma ask_does {fh : Handle} (hfh : req.filehandle = some fh) {call : Call}
    {post : call.Answer → Prop} (hmod : call.modifies = true → mayModify arg req = true)
    (hpost : ∀ a : call.Answer, law (.on fh.vfs call) a → post a) :
    (ask fh.vfs call).Does law (Asks arg req) crash post :=
  ⟨⟨.inr (.inl ⟨fh, hfh, rfl⟩), fun h => ⟨.inr (.inl ⟨fh, hfh, rfl⟩), hmod h⟩⟩, hpost⟩

/-- A question about the file of the saved filehandle. -/
lemma ask_saved_does {fh saved : Handle} (hfh : req.filehandle = some fh)
    (hsaved : req.savedFilehandle = some saved) {call : Call} {post : call.Answer → Prop}
    (hmod : call.modifies = true →
      needsOneExport arg = true ∧ req.cachedFmanager.isSome ∧ mayModify arg req = true)
    (hpost : ∀ a : call.Answer, law (.on saved.vfs call) a → post a) :
    (ask saved.vfs call).Does law (Asks arg req) crash post := by
  have hsome : req.filehandle.isSome := by simp [hfh]
  refine ⟨⟨.inr (.inr ⟨hsome, saved, hsaved, rfl⟩), fun h => ?_⟩, hpost⟩
  obtain ⟨hone, hmanager, hmay⟩ := hmod h
  exact ⟨.inr (.inr ⟨hone, hmanager, hsome, saved, hsaved, rfl⟩), hmay⟩

/-- `file_manager`. -/
lemma fileManager_does (h : Ready S law crash K arg req) (hneeds : needsManager S arg req = true)
    {post : UInt8 → Prop} (hpost : ∀ e, post e) :
    req.fileManager.Does law (Asks arg req) crash post := by
  unfold Request.fileManager
  cases hm : req.cachedFmanager with
  | none => exact h.manager hm hneeds
  | some e => exact hpost e

/-- A question to the file manager of the request. -/
lemma askManager_does (h : Ready S law crash K arg req)
    (hreq : req'.cachedFmanager = req.cachedFmanager) (hneeds : needsManager S arg req = true)
    {call : Call} {post : call.Answer → Prop}
    (hmod : call.modifies = true → req.filehandle.isSome ∧ mayModify arg req = true)
    (hpost : ∀ e, req.cachedFmanager = some e →
      ∀ a : call.Answer, law (.on (some e) call) a → post a) :
    (req'.askManager call).Does law (Asks arg req) crash post := by
  have hasks : req.filehandle.isSome ∨ ignoresFilehandle arg = true := by
    unfold needsManager at hneeds
    cases hfh : req.filehandle with
    | none => simpa [hfh] using hneeds
    | some fh => simp
  unfold Request.askManager Request.fileManager
  rw [hreq]
  cases hm : req.cachedFmanager with
  | none => exact h.manager hm hneeds
  | some e =>
    refine ⟨⟨.inl ⟨rfl, hm.symm, hasks⟩, fun hc => ?_⟩, hpost e hm⟩
    obtain ⟨hsome, hmay⟩ := hmod hc
    exact ⟨.inl ⟨rfl, hm.symm, hsome⟩, hmay⟩

/-- `cache_filehandle`. -/
lemma cacheFilehandle_does {post : Request → Prop} {fh : Handle} (hfh : K fh.tag)
    (hsome : req.filehandle.isSome) (hstays : Stays K req req')
    (hpost : ∀ req', Stays K req req' → post req') :
    (req'.cacheFilehandle fh).Does law (Asks arg req) crash post :=
  ⟨trivial, fun now _ => hpost _ (hstays.cached hfh hsome now)⟩

/-- An answer without a result. -/
lemma Conducts.none {status : NfsStat4} (hstays : Stays K req req')
    (hsilent : silent arg req status = true) :
    Conducts law crash K arg req (.pure (.none req' status)) :=
  ⟨hstays, .none hsilent⟩

/-- An answer with a result. -/
lemma Conducts.some {res : NfsResOp4} {status : NfsStat4} (hstays : Stays K req req')
    (hsilent : silent arg req status = false) (hfits : Fits arg res status) :
    Conducts law crash K arg req (.pure (.some req' res status)) :=
  ⟨hstays, .some hsilent hfits⟩

/-- A program and what to do with its value. -/
lemma Conducts.bind {α : Type} {p : Op α} {f : α → Op Response}
    (h : p.Does law (Asks arg req) crash fun a => Conducts law crash K arg req (f a)) :
    Conducts law crash K arg req (p >>= f) :=
  Prog.Does.bind h

end NextNfs.Dispatcher
