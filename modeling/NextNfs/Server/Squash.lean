import NextNfs.Server.CopyAcross

set_option relaxedAutoImplicit false
set_option autoImplicit false

/-!
# Whose rights an operation has

An export maps the users of its clients: root, or everybody, becomes the anonymous user of the
export. Permissions are checked for the user that comes out, and what is created is given to it.
This module says that no operation is carried out for anybody else: not for the user of another
call, and not for one that another export mapped.

## Main definitions

* `NextNfs.Dispatcher.actsAs` — the user that an export makes of the caller of a call.
* `NextNfs.Dispatcher.Squashes` — nobody is root on the export.
* `NextNfs.Dispatcher.Confined` — a run whose operations have the rights of these users.

## Main results

* `NextNfs.Dispatcher.confined_of_liveExports` — runs are confined, so that nobody is root where
  root is squashed.

## Implementation notes

An operation whose permissions are not checked is not spoken of, and what the check answers is not
either: it is one question here, see `NextNfs.checkOp`.
-/

namespace NextNfs.Dispatcher

open Wire Dialogue

/-! ### Users -/

/-- The user that an export makes of the caller of a call. -/
def actsAs (S : Server) (e : UInt8) (cred : OpaqueAuth) : Caller :=
  newCaller (some cred) (some (S.exports e).accessControl)

/-- Root is mapped to another user. -/
structure Squashes (ac : AccessControl) : Prop where
  squash : ac.squash ≠ .none
  anonUid : ac.anonUid ≠ 0

/-- Where root is squashed nobody is root. -/
lemma actsAs_uid_ne_zero {S : Server} {e : UInt8} (h : Squashes (S.exports e).accessControl)
    (cred : OpaqueAuth) : (actsAs S e cred).uid ≠ 0 := by
  obtain ⟨hsquash, hanon⟩ := h
  unfold actsAs newCaller
  cases cred with
  | authUnix auth =>
    dsimp only
    cases hmode : (S.exports e).accessControl.squash with
    | none => exact absurd hmode hsquash
    | rootSquash =>
      dsimp only [AccessControl.mapWith]
      split_ifs with hroot
      · exact hanon
      · exact hroot
    | allSquash => exact hanon
  | _ => exact hanon

/-- On an export, an operation runs as the user that the export makes of the caller. -/
lemma caller_of_fieldsOf {S : Server} {e : UInt8} {req : Request} {cred : OpaqueAuth}
    (hfields : req.FieldsOf S e) (hcred : req.authCred = some cred) :
    req.caller S = actsAs S e cred := by
  unfold Request.caller Request.access actsAs
  rw [hfields.accessControl, hcred]
  rfl

/-! ### The call in service -/

/-- The number of calls taken up, after a question. -/
def callsAfter (k : ℕ) : Event → ℕ
  | ⟨.arrive, _⟩ => k + 1
  | _ => k

/-- The number of calls taken up along a run. -/
def callsTaken (h : List Event) : ℕ := h.foldl callsAfter 0

/-- The call that was taken up last. -/
def callInService (msgs : List (CallBody × SecFlavor)) (h : List Event) :
    Option (CallBody × SecFlavor) :=
  (msgs.take (callsTaken h)).getLast?

lemma callsTaken_append (s : List Event) (x : Event) :
    callsTaken (s ++ [x]) = callsAfter (callsTaken s) x := by
  rw [callsTaken, List.foldl_append]
  rfl

/-- `lchown`. -/
def Call.chowns : Call → Bool
  | lchown .. => true
  | _ => false

/-- The questions that take up no call, execute no operation and give nothing away. -/
def Question.Calm : Question → Prop
  | arrive | execute .. => False
  | on _ call => call.chowns = false
  | _ => True

/-- After the first events came some with calm questions only. -/
def Calmly (s s' : List Event) : Prop := ∃ t, s' = s ++ t ∧ ∀ x ∈ t, x.1.Calm

namespace Calmly

variable {s s' s'' : List Event}

lemma refl (s : List Event) : Calmly s s := ⟨[], by simp, by simp⟩

lemma snoc (h : Calmly s s') {q : Question} {a : q.Answer} (hq : q.Calm) :
    Calmly s (s' ++ [⟨q, a⟩]) := by
  obtain ⟨t, rfl, ht⟩ := h
  refine ⟨t ++ [⟨q, a⟩], by simp, fun x hx => ?_⟩
  rcases List.mem_append.1 hx with hx | hx
  · exact ht x hx
  · rw [List.mem_singleton.1 hx]
    exact hq

lemma trans (h : Calmly s s') (h' : Calmly s' s'') : Calmly s s'' := by
  obtain ⟨t, rfl, ht⟩ := h
  obtain ⟨t', rfl, ht'⟩ := h'
  exact ⟨t ++ t', by simp, fun x hx => (List.mem_append.1 hx).elim (ht x) (ht' x)⟩

/-- The call in service and the last operation stay what they are. -/
lemma same (h : Calmly s s') :
    callsTaken s' = callsTaken s ∧ executedLast s' = executedLast s := by
  obtain ⟨t, rfl, ht⟩ := h
  induction t using List.reverseRecOn with
  | nil => simp
  | append_singleton t x ih =>
    obtain ⟨hcalls, hlast⟩ := ih fun y hy => ht y (List.mem_append_left _ hy)
    have hx := ht x (List.mem_append_right _ List.mem_cons_self)
    rw [← List.append_assoc, callsTaken_append, executedLast_append, hcalls, hlast]
    obtain ⟨q, a⟩ := x
    cases q with
    | arrive | execute => exact hx.elim
    | _ => exact ⟨rfl, rfl⟩

end Calmly

/-! ### What the operations keep of the call -/

/-- What a request has of its call: the address of the client, the credential and the flavour. -/
def Request.call (req : Request) : String × Option OpaqueAuth × SecFlavor :=
  (req.clientAddr, req.authCred, req.secFlavor)

section Keeps

variable {S : Server} {req : Request} {arg : NfsArgOp}

/-- Whatever it is told, the program asks calm questions only, and ends as it should. -/
abbrev KeepsCalm {α : Type} (p : Op α) (post : α → Prop) : Prop :=
  p.Does (fun _ _ => True) Question.Calm True post

/-- A program that asks calm questions. -/
lemma keepsCalm_of_forall {α : Type} {p : Op α} {post : α → Prop} (hp : p.AsksOnly Question.Calm)
    (hpost : ∀ a, post a) : KeepsCalm p post := Prog.Does.imp hp fun a _ => hpost a

lemma query_calm {q : Question} {post : q.Answer → Prop} (hq : q.Calm) (hpost : ∀ a, post a) :
    KeepsCalm (query q) post := ⟨hq, fun a _ => hpost a⟩

lemma askManager_calm (req : Request) {call : Call} {post : call.Answer → Prop}
    (h : call.chowns = false) (hpost : ∀ a, post a) : KeepsCalm (req.askManager call) post :=
  keepsCalm_of_forall (req.askManager_asks fun _ => h) hpost

lemma setExport_calm (id : UInt8) :
    KeepsCalm (req.setExport S id) fun req' => req'.call = req.call := by
  unfold Request.setExport
  split_ifs
  · exact rfl
  · refine .bind (query_calm trivial fun known => ?_)
    split_ifs
    · exact rfl
    · exact rfl

lemma switchExport_calm (id : NfsFh4) :
    KeepsCalm (req.switchExport S id) fun req' => req'.call = req.call := by
  unfold Request.switchExport
  split_ifs
  · exact setExport_calm _
  · exact rfl

lemma setFilehandleId_calm (id : NfsFh4) :
    KeepsCalm (req.setFilehandleId S id) fun out => out.1.call = req.call := by
  unfold Request.setFilehandleId
  refine .bind ((switchExport_calm id).imp fun req₁ hreq₁ => ?_)
  split_ifs
  · exact hreq₁
  · refine .bind (askManager_calm _ rfl fun res => ?_)
    cases res with
    | ok fh => exact hreq₁
    | error f => exact hreq₁

lemma getFilehandleFromCache_calm (id : NfsFh4) :
    KeepsCalm (req.getFilehandleFromCache id) fun out => out.1.call = req.call := by
  unfold Request.getFilehandleFromCache
  split
  · exact rfl
  · refine .bind (query_calm trivial fun now => ?_)
    split_ifs
    · exact rfl
    · refine .bind (query_calm rfl fun there => ?_)
      split_ifs
      · exact rfl
      · exact rfl

lemma cacheFilehandle_calm (fh : Handle) :
    KeepsCalm (req.cacheFilehandle fh) fun req' => req'.call = req.call :=
  .bind (query_calm trivial fun _ => rfl)

lemma enterPseudoRoot_calm (id : NfsFh4) :
    KeepsCalm (enterPseudoRoot S id req) fun req' => req'.call = req.call := by
  unfold enterPseudoRoot
  refine .bind ((setExport_calm _).imp fun req₁ hreq₁ => ?_)
  exact .bind (query_calm trivial fun now => hreq₁)

/-- The response is to the same call. -/
abbrev SameCall (req : Request) (r : Response) : Prop := r.request.call = req.call

lemma putRootFilehandle_calm : KeepsCalm (putRootFilehandle S req) (SameCall req) := by
  unfold putRootFilehandle
  refine .bind (query_calm trivial fun exports => ?_)
  split
  · refine .bind ((setExport_calm _).imp fun req₁ hreq₁ => ?_)
    split_ifs
    · exact hreq₁
    · refine .bind (askManager_calm _ rfl fun root => ?_)
      cases root with
      | error f => exact hreq₁
      | ok fh => exact .bind ((setFilehandleId_calm _).imp fun out hout => hout.trans hreq₁)
  · exact .bind ((enterPseudoRoot_calm _).imp fun req₁ hreq₁ => hreq₁)

lemma putfh_calm (args : PutFh4args) : KeepsCalm (putfh S args req) (SameCall req) := by
  unfold putfh
  dsimp only
  split_ifs
  · exact .bind ((enterPseudoRoot_calm _).imp fun req₁ hreq₁ => hreq₁)
  · refine .bind ((switchExport_calm _).imp fun req₁ hreq₁ => ?_)
    split_ifs
    · exact hreq₁
    · refine .bind ((getFilehandleFromCache_calm _).imp fun out hout => ?_)
      obtain ⟨req₂, cached⟩ := out
      have hreq₂ : req₂.call = req.call := Eq.trans hout hreq₁
      cases cached with
      | some fh => exact hreq₂
      | none =>
        refine .bind ((setFilehandleId_calm _).imp fun out hout => ?_)
        obtain ⟨req₃, res⟩ := out
        have hreq₃ : req₃.call = req.call := Eq.trans hout hreq₂
        cases res with
        | error f => exact hreq₃
        | ok fh =>
          exact .bind ((cacheFilehandle_calm fh).imp fun req₄ hreq₄ => hreq₄.trans hreq₃)

lemma restoreFilehandle_calm : KeepsCalm (restoreFilehandle S req) (SameCall req) := by
  unfold restoreFilehandle
  cases req.savedFilehandle with
  | none => exact rfl
  | some saved => exact .bind (.bind ((switchExport_calm _).imp fun req₁ hreq₁ => hreq₁))

lemma lookupExport_calm (args : Lookup4args) :
    KeepsCalm (lookupExport S args req) (SameCall req) := by
  unfold lookupExport
  refine .bind (query_calm trivial fun found => ?_)
  cases found with
  | none => exact rfl
  | some e =>
    refine .bind ((setExport_calm _).imp fun req₁ hreq₁ => ?_)
    split_ifs
    · exact hreq₁
    · refine .bind (askManager_calm _ rfl fun root => ?_)
      cases root with
      | error f => exact hreq₁
      | ok fh => exact hreq₁

/-- LOOKUPP from the root of an export. -/
lemma lookupParent_calm_of_exports (fh : Handle) (exports : List UInt8) : KeepsCalm
    (if exports.length > 1 then do
      let req ← enterPseudoRoot S pseudoRootFh req
      pure (Response.some req (.oplookupp ⟨.nfs4Ok⟩) .nfs4Ok)
    else do
      let found : Except Failure Handle ←
        req.askManager (.getFilehandleForPath (pathStr fh.file.parent))
      match found with
      | .ok fh => pure (Response.some (req.setFilehandle fh) (.oplookupp ⟨.nfs4Ok⟩) .nfs4Ok)
      | .error _ => pure (Response.some req (.oplookupp ⟨.nfs4errNoent⟩) .nfs4errNoent))
    (SameCall req) := by
  split_ifs
  · exact .bind ((enterPseudoRoot_calm _).imp fun req₁ hreq₁ => hreq₁)
  · refine .bind (askManager_calm _ rfl fun found => ?_)
    cases found with
    | error f => exact rfl
    | ok fh => exact rfl

lemma lookupParent_calm : KeepsCalm (lookupParent S req) (SameCall req) := by
  unfold lookupParent
  dsimp only
  split_ifs
  · exact rfl
  · cases req.filehandle with
    | none => exact rfl
    | some fh =>
      dsimp only
      split_ifs
      · exact .bind (query_calm trivial (lookupParent_calm_of_exports fh))
      · exact lookupParent_calm_of_exports (S := S) fh []

lemma setattr_calm (args : SetAttr4args) : KeepsCalm (setattr S args req) (SameCall req) := by
  unfold setattr
  cases req.filehandle with
  | none => exact rfl
  | some fh =>
    dsimp only
    split_ifs
    · exact rfl
    · refine .bind (askManager_calm _ rfl fun attrsset => ?_)
      refine .bind (askManager_calm _ rfl fun _ => ?_)
      refine .bind ((setFilehandleId_calm _).imp fun out hout => ?_)
      obtain ⟨req₁, res⟩ := out
      cases res with
      | error f => exact hout
      | ok fh' => exact .bind ((cacheFilehandle_calm fh').imp fun req₂ hreq₂ => hreq₂.trans hout)

/-! ### CREATE and OPEN -/

lemma ask_calm (e : Option UInt8) {call : Call} (h : call.chowns = false) :
    (ask e call).AsksOnly Question.Calm := Prog.asksOnly_query h

lemma askManager_asks_calm (req : Request) {call : Call} (h : call.chowns = false) :
    (req.askManager call).AsksOnly Question.Calm := req.askManager_asks fun _ => h

lemma cacheFilehandle_asks_calm (fh : Handle) (req : Request) :
    (req.cacheFilehandle fh).AsksOnly Question.Calm :=
  (cacheFilehandle_calm fh).imp fun _ _ => trivial

lemma finishCreate_asks (fh : Handle) (dir newPath : VfsPath) (before : UInt64) (req : Request) :
    (finishCreate fh dir newPath before req).AsksOnly Question.Calm := by
  unfold finishCreate
  refine (askManager_asks_calm req rfl).bind fun _ => ?_
  refine (askManager_asks_calm req rfl).bind fun after => ?_
  refine (askManager_asks_calm req rfl).bind fun found => ?_
  cases found with
  | error e => exact Prog.asksOnly_pure _
  | ok newFh => exact Prog.asksOnly_pure _

lemma createDirectory_asks (fh : Handle) : (createDirectory fh).AsksOnly Question.Calm :=
  (ask_calm _ rfl).bind fun _ => Prog.asksOnly_pure _

/-- CREATE itself gives nothing away. -/
lemma create_asks (args : Create4args) (req : Request) :
    (create S args req).AsksOnly Question.Calm := by
  unfold create
  cases req.filehandle with
  | none => exact Prog.asksOnly_pure _
  | some fh =>
    dsimp only
    split_ifs
    · exact Prog.asksOnly_pure _
    · refine (quotaAllows_asks (fun _ _ => trivial) req 0).bind fun allowed => ?_
      split_ifs
      · exact Prog.asksOnly_pure _
      · split
        · unfold createSymlink
          refine (createDirectory_asks fh).bind fun dir => ?_
          cases S.join dir args.objname with
          | none => exact Prog.asksOnly_pure _
          | some p =>
            have hmanager : req.fileManager.AsksOnly Question.Calm := by
              unfold Request.fileManager
              cases req.cachedFmanager with
              | none => exact Prog.asksOnly_panic
              | some e => exact Prog.asksOnly_pure _
            refine hmanager.bind fun _ => (askManager_asks_calm req rfl).bind fun before =>
              (askManager_asks_calm req rfl).bind fun made => ?_
            cases made with
            | error e => exact Prog.asksOnly_pure _
            | ok _ => exact finishCreate_asks _ _ _ _ _
        · unfold createDirectoryObject
          refine (createDirectory_asks fh).bind fun dir => ?_
          cases S.join dir args.objname with
          | none => exact Prog.asksOnly_pure _
          | some p =>
            exact (askManager_asks_calm req rfl).bind fun before => (ask_calm _ rfl).bind fun _ =>
              finishCreate_asks _ _ _ _ _
        · exact Prog.asksOnly_pure _

/-- The file that OPEN creates. -/
lemma openForWriting_asks (args : Open4args) (fh : Handle) (file : String) (how : CreateHow4)
    (req : Request) : (openForWriting S args fh file how req).AsksOnly Question.Calm := by
  unfold openForWriting
  refine (quotaAllows_asks (fun _ _ => trivial) req 0).bind fun allowed => ?_
  split_ifs
  · exact Prog.asksOnly_pure _
  · cases S.join fh.file file with
    | none => exact Prog.asksOnly_pure _
    | some newfile =>
      refine (askManager_asks_calm req rfl).bind fun before => ?_
      cases how with
      | guarded4 => exact Prog.asksOnly_pure _
      | unchecked4 | exclusive4 =>
        refine (askManager_asks_calm req rfl).bind fun made => ?_
        cases made with
        | error e => exact Prog.asksOnly_pure _
        | ok newFh =>
          refine (cacheFilehandle_asks_calm newFh req).bind fun req₁ => ?_
          dsimp only
          split
          · exact Prog.asksOnly_panic
          · exact (askManager_asks_calm _ rfl).bind fun after => Prog.asksOnly_pure _

lemma openForReading_asks (args : Open4args) (fh : Handle) (file : String) (req : Request) :
    (openForReading args fh file req).AsksOnly Question.Calm := by
  unfold openForReading
  refine (askManager_asks_calm req rfl).bind fun found => ?_
  cases found with
  | error e => exact Prog.asksOnly_pure _
  | ok fh =>
    refine (askManager_asks_calm req rfl).bind fun state => ?_
    cases state with
    | error e => exact Prog.asksOnly_pure _
    | ok lock => exact (cacheFilehandle_asks_calm _ req).bind fun _ => Prog.asksOnly_pure _

/-- OPEN itself gives nothing away. -/
lemma open_asks (args : Open4args) (req : Request) :
    (open_ S args req).AsksOnly Question.Calm := by
  unfold open_
  split
  · unfold openPrevious
    cases req.filehandle with
    | none => exact Prog.asksOnly_pure _
    | some fh =>
      refine (askManager_asks_calm req rfl).bind fun state => ?_
      cases state with
      | error e => exact Prog.asksOnly_pure _
      | ok lock => exact Prog.asksOnly_pure _
  · cases req.filehandle with
    | none => exact Prog.asksOnly_pure _
    | some fh =>
      refine (ask_calm _ rfl).bind fun dir => ?_
      split_ifs
      · exact Prog.asksOnly_pure _
      · split
        · split_ifs
          · exact Prog.asksOnly_pure _
          · cases args.openhow with
            | open4Nocreate => exact openForReading_asks args fh _ req
            | how how => exact openForWriting_asks args fh _ how req
        · exact Prog.asksOnly_pure _

/-! ### One operation -/

/-- An operation that stays on its export. -/
structure StaysOn (req req' : Request) : Prop where
  context : req'.toContext = req.toContext
  filehandle : req'.filehandle.isSome = true → req.filehandle.isSome = true

/-- The questions of an operation that stays on its export, and gives nothing away, are calm. -/
lemma execute_calm_of_stationary {p : Op Response} (hp : p = execute S arg req)
    (hstationary : stationary arg req = true) (hgives : p.AsksOnly fun q => q.quiet ∨ q.Calm) :
    KeepsCalm p fun r => StaysOn req r.request := by
  subst hp
  have hready : Ready S (fun _ _ => True) True (fun _ => True) arg req :=
    ⟨fun _ _ => trivial, fun _ _ _ _ _ _ _ _ => trivial, fun _ _ => trivial, fun _ _ _ => trivial,
      fun _ _ _ _ => trivial, fun _ _ _ _ _ _ _ _ _ _ => trivial⟩
  refine ((execute_conducts hready hstationary).and hgives).mono (fun q hq => ?_)
    (fun _ => trivial) fun r hr => ⟨hr.1.1.context, fun hsome => ?_⟩
  · obtain ⟨hasks, hquiet | hcalm⟩ := hq
    · cases q with
      | arrive | execute => exact hasks.elim
      | on e call =>
        cases call with
        | lchown => cases hquiet
        | _ => exact rfl
      | _ => trivial
    · exact hcalm
  · obtain ⟨fh, hfh⟩ := Option.isSome_iff_exists.1 hsome
    exact (hr.1.1.filehandle fh hfh).2

/-- While an operation is executed nothing is given away, and the call stays what it is. -/
lemma execute_calm (arg : NfsArgOp) (req : Request) :
    KeepsCalm (execute S arg req) fun r =>
      SameCall req r ∧ (stationary arg req = true → StaysOn req r.request) := by
  have hstays : ∀ {p : Op Response}, p = execute S arg req → stationary arg req = true →
      (p.AsksOnly fun q => q.quiet ∨ q.Calm) → KeepsCalm (execute S arg req) fun r =>
        SameCall req r ∧ (stationary arg req = true → StaysOn req r.request) := by
    rintro p rfl hstationary hp
    refine (execute_calm_of_stationary rfl hstationary hp).imp fun r hr => ⟨?_, fun _ => hr⟩
    unfold SameCall Request.call
    rw [hr.context]
  have hmoves : ∀ {p : Op Response}, p = execute S arg req → stationary arg req = false →
      KeepsCalm p (SameCall req) → KeepsCalm (execute S arg req) fun r =>
        SameCall req r ∧ (stationary arg req = true → StaysOn req r.request) := by
    rintro p rfl hstationary hp
    refine hp.imp fun r hr => ⟨hr, fun h => ?_⟩
    rw [hstationary] at h
    cases h
  by_cases hstationary : stationary arg req = true
  · refine hstays rfl hstationary ?_
    cases arg with
    | opcreate args => exact (create_asks args req).widen fun _ => Or.inr
    | opopen args => exact (open_asks args req).widen fun _ => Or.inr
    | opsetattr args => cases hstationary
    | _ => exact (execute_quiet rfl).widen fun _ => Or.inl
  · rw [Bool.not_eq_true] at hstationary
    cases arg with
    | opputfh args => exact hmoves rfl hstationary (putfh_calm args)
    | opputrootfh | opputpubfh => exact hmoves rfl hstationary putRootFilehandle_calm
    | oprestorefh => exact hmoves rfl hstationary restoreFilehandle_calm
    | oplookupp => exact hmoves rfl hstationary lookupParent_calm
    | opsetattr args => exact hmoves rfl hstationary (setattr_calm args)
    | oplookup args =>
      have hroot : req.isPseudoRoot = true := by simpa [stationary] using hstationary
      have hlookup : lookupExport S args req = execute S (.oplookup args) req := by
        simp [execute, lookup, hroot]
      exact hmoves hlookup hstationary (lookupExport_calm args)
    | _ => cases hstationary

end Keeps

/-! ### What precedes an operation and a gift -/

section Vouched

variable {S : Server} {c : Connection} {msgs : List (CallBody × SecFlavor)} {h s : List Event}
  {arg : NfsArgOp} {req : Request} {call : CallBody × SecFlavor}

/-- On an export, the last thing that was asked but for calm questions is whether the caller may, as
the request sees it, and it may. -/
def Permitted (S : Server) (s : List Event) (arg : NfsArgOp) (req : Request) : Prop :=
  modeChecked arg req = true → ∀ e fh, req.isPseudoRoot = false → req.cachedFmanager = some e →
    req.filehandle = some fh → ∃ s₁, Calmly (s₁ ++ [(⟨.on (some e) (.permitted arg fh.toFilehandle
      (req.savedFilehandle.map Handle.toFilehandle) (req.caller S)), .ok ()⟩ : Event)]) s

/-- The gift of an object is one of the operation that was executed last, on the export of its
request, to its caller; in a directory with the setgid bit, to the group of the directory. -/
structure GivenBy (S : Server) (s : List Event) (x : Option UInt8) (path : String)
    (uid gid : UInt32) (arg : NfsArgOp) (req : Request) : Prop where
  executed : executedLast s = some (arg, req)
  filehandle : req.filehandle.isSome = true
  manager : x.isSome = true ∧ req.cachedFmanager = x
  uid : uid = (req.caller S).uid
  gid : gid = (req.caller S).gid ∨ ∃ parent : RealMeta,
    (⟨.on x (.statParent path), some parent⟩ : Event) ∈ s ∧ parent.mode &&& 0o2000 ≠ 0 ∧
      gid = parent.gid

/-- The request has the credential of the call in service. -/
def InService (msgs : List (CallBody × SecFlavor)) (s : List Event) (req : Request) : Prop :=
  ∃ call, callInService msgs s = some call ∧ req.authCred = some call.1.cred

/-- What is known when an operation is executed, and when an object is given away. -/
def Vouched (S : Server) (msgs : List (CallBody × SecFlavor)) (s : List Event) : Question → Prop
  | .execute arg req => InService msgs s req ∧ Permitted S s arg req
  | .on x (.lchown path uid gid) =>
    ∃ arg req, InService msgs s req ∧ GivenBy S s x path uid gid arg req
  | _ => True

lemma vouched_of_calm {q : Question} (hq : q.Calm) : Vouched S msgs s q := by
  cases q with
  | execute => exact hq.elim
  | on e call =>
    cases call with
    | lchown => cases hq
    | _ => trivial
  | _ => trivial

lemma InService.of_eq {s' : List Event} {req' : Request} (hservice : InService msgs s req)
    (hcalls : callsTaken s' = callsTaken s) (hreq : req'.call = req.call) :
    InService msgs s' req' := by
  obtain ⟨call, hcall, hcred⟩ := hservice
  unfold Request.call at hreq
  refine ⟨call, ?_, ?_⟩
  · unfold callInService at hcall ⊢
    rw [hcalls, hcall]
  · rw [← hcred]
    exact (Prod.mk.inj (Prod.mk.inj hreq).2).1

lemma Permitted.calmly {s' : List Event} (hp : Permitted S s arg req) (hs : Calmly s s') :
    Permitted S s' arg req := by
  intro hmode e fh hroot hm hfh
  obtain ⟨s₁, hs₁⟩ := hp hmode e fh hroot hm hfh
  exact ⟨s₁, hs₁.trans hs⟩

/-- A program that asks calm questions. -/
lemma sat_of_calm {α : Type} {p : Op α} {post : α → Prop} (hp : KeepsCalm p post) :
    p.Sat (historyEnvironment S c h).step (Vouched S msgs) True s fun a s' =>
      post a ∧ Calmly s s' :=
  Prog.Does.sat hp (Calmly.refl s)
    (fun s₁ q a s₂ hs₁ hq hstep => ⟨trivial, by rw [hstep.1]; exact hs₁.snoc hq⟩)
    (fun _ _ _ hq => vouched_of_calm hq) fun _ => trivial

lemma checkOp_vouched :
    (checkOp arg req (req.caller S)).Sat (historyEnvironment S c h).step (Vouched S msgs) True s
      fun a s' => Calmly s s' ∧ (a = .ok () → Permitted S s' arg req) := by
  unfold checkOp
  split
  · rename_i hroot
    exact ⟨.refl s, fun _ _ e fh hroot' => absurd (hroot.symm.trans hroot') nofun⟩
  · split
    · rename_i e fh hm hfh
      split_ifs with hcross hmode
      · exact ⟨.refl s, nofun⟩
      · refine ⟨trivial, fun a s' hstep => ?_⟩
        rw [hstep.1]
        refine ⟨(Calmly.refl s).snoc rfl, fun hok _ e' fh' _ hm' hfh' => ?_⟩
        subst hok
        cases hm.symm.trans hm'
        cases hfh.symm.trans hfh'
        exact ⟨s, .refl _⟩
      · exact ⟨.refl s, fun _ hmode' => absurd hmode' hmode⟩
    · rename_i hnone
      exact ⟨.refl s, fun _ _ e fh _ hm hfh => absurd hfh (hnone e fh hm)⟩

lemma admission_vouched :
    (admission S arg req).Sat (historyEnvironment S c h).step (Vouched S msgs) True s
      fun o s' => Calmly s s' ∧ (o = none → Permitted S s' arg req) ∧
        ∀ answer, o = some answer → answer.2.request = req := by
  have hlimited : (rateLimited arg req).AsksOnly Question.Calm := by
    unfold rateLimited
    cases req.rateLimiter with
    | none => exact Prog.asksOnly_pure _
    | some e => exact (Prog.asksOnly_query trivial).bind fun _ => Prog.asksOnly_pure _
  unfold admission
  refine .bind ((sat_of_calm hlimited).mono fun limited s₁ hs₁ => ?_)
  split
  · exact ⟨hs₁.2, nofun, by rintro _ ⟨⟩; rfl⟩
  have hgrace : (query .inGrace).AsksOnly Question.Calm := Prog.asksOnly_query trivial
  refine .bind ((sat_of_calm hgrace).mono fun inGrace s₂ hs₂ => ?_)
  have hcalm := hs₁.2.trans hs₂.2
  split_ifs
  · exact ⟨hcalm, nofun, by rintro _ ⟨⟩; rfl⟩
  · exact ⟨hcalm, nofun, by rintro _ ⟨⟩; rfl⟩
  · exact ⟨hcalm, nofun, by rintro _ ⟨⟩; rfl⟩
  refine .bind (checkOp_vouched.mono fun permitted s₃ hs₃ => ?_)
  cases permitted with
  | error e => exact ⟨hcalm.trans hs₃.1, nofun, by rintro _ ⟨⟩; rfl⟩
  | ok _ => exact ⟨hcalm.trans hs₃.1, fun _ => hs₃.2 rfl, by rintro _ ⟨⟩⟩

/-- Only CREATE and OPEN create an object, and they stay on their export. -/
lemma createsObject_calm :
    KeepsCalm (createsObject arg req) fun creates =>
      creates = true → stationary arg req = true := by
  unfold createsObject
  split
  · exact fun _ => rfl
  · split
    · exact .bind (query_calm rfl fun _ _ => rfl)
    · exact fun _ => rfl
  · exact nofun

/-- A new object is given to the caller of the operation that created it. -/
lemma chownNewObject_vouched {req' : Request} (hlast : executedLast s = some (arg, req))
    (hservice : InService msgs s req) (hstays : StaysOn req req') :
    (chownNewObject (req.caller S) req').Sat (historyEnvironment S c h).step (Vouched S msgs) True s
      fun req'' s' => req''.call = req'.call ∧ callsTaken s' = callsTaken s := by
  unfold chownNewObject
  split
  · rename_i e fh hm hfh
    refine .bind ⟨trivial, fun m s₁ hstep => ?_⟩
    have hs₁ : Calmly s s₁ := by
      rw [hstep.1]
      exact (Calmly.refl s).snoc rfl
    cases m with
    | none => exact ⟨rfl, hs₁.same.1⟩
    | some m =>
      refine .bind ⟨trivial, fun parent s₂ hstep => ?_⟩
      have hs₂ : Calmly s s₂ := by
        rw [hstep.1]
        exact hs₁.snoc rfl
      rw [Prog.sat_pure]
      dsimp only
      split_ifs
      · exact ⟨rfl, hs₂.same.1⟩
      · have hgift : GivenBy S s₂ (some e) fh.path (req.caller S).uid
            (newObjectGid parent (req.caller S)) arg req := by
          refine ⟨hs₂.same.2.trans hlast, hstays.filehandle (by rw [hfh]; rfl), ⟨rfl, ?_⟩, rfl, ?_⟩
          · rw [← hm, hstays.context]
          · unfold newObjectGid
            cases parent with
            | none => exact .inl rfl
            | some parent =>
              dsimp only
              split_ifs with hset
              · exact .inr ⟨parent, by rw [hstep.1]; simp, hset, rfl⟩
              · exact .inl rfl
        refine .bind ⟨⟨arg, req, hservice.of_eq hs₂.same.1 rfl, hgift⟩, fun done s₃ hstep₃ => ?_⟩
        have hcalls : callsTaken s₃ = callsTaken s := by
          rw [hstep₃.1, callsTaken_append, hs₂.same.1]
          rfl
        cases done with
        | false => exact ⟨rfl, hcalls⟩
        | true =>
          refine .bind ((sat_of_calm (ask_calm _ rfl)).mono fun _ s₄ hs₄ => ?_)
          refine .bind ((sat_of_calm (cacheFilehandle_calm _)).mono fun req₁ s₅ hs₅ => ?_)
          exact ⟨hs₅.1, hs₅.2.same.1.trans (hs₄.2.same.1.trans hcalls)⟩
  · exact ⟨rfl, rfl⟩

/-- One operation of a compound. -/
lemma dispatch_vouched (arg : NfsArgOp) (next : Option ℕ) (req : Request)
    (hservice : InService msgs s req) :
    (dispatch S arg next req).Sat (historyEnvironment S c h).step (Vouched S msgs) True s
      fun answer s' => answer.2.request.call = req.call ∧ callsTaken s' = callsTaken s := by
  unfold dispatch
  refine .bind (admission_vouched.mono fun refused s₁ hadm => ?_)
  obtain ⟨hs₁, hpermitted, hrefused⟩ := hadm
  cases refused with
  | some answer => exact ⟨by rw [hrefused answer rfl], hs₁.same.1⟩
  | none =>
    unfold perform
    refine .bind ((sat_of_calm createsObject_calm).mono fun creates s₂ hs₂ => ?_)
    obtain ⟨hcreates, hs₂⟩ := hs₂
    have hcalls₂ : callsTaken s₂ = callsTaken s := hs₂.same.1.trans hs₁.same.1
    have hok : Vouched S msgs s₂ (.execute arg req) :=
      ⟨hservice.of_eq hcalls₂ rfl, (hpermitted rfl).calmly hs₂⟩
    refine .bind ⟨hok, fun _ s₃ hstep => ?_⟩
    have hlast : executedLast s₃ = some (arg, req) := by
      rw [hstep.1, executedLast_append]
      rfl
    have hcalls₃ : callsTaken s₃ = callsTaken s := by
      rw [hstep.1, callsTaken_append, hcalls₂]
      rfl
    refine .bind ((sat_of_calm (execute_calm arg req)).mono fun r s₄ hs₄ => ?_)
    obtain ⟨⟨hsame, hstays⟩, hs₄⟩ := hs₄
    have hcalls₄ : callsTaken s₄ = callsTaken s := hs₄.same.1.trans hcalls₃
    have hrecheck : ∀ req' : Request, (recheck S arg next req.currentExportId
        { r with request := req' }).2.request = req' := by
      intro req'
      unfold recheck
      split_ifs
      · rfl
      · rfl
      · rfl
    dsimp only
    split_ifs with hgift
    · refine .bind ((chownNewObject_vouched (hs₄.same.2.trans hlast)
        (hservice.of_eq hcalls₄ rfl) (hstays (hcreates ?_))).mono fun req' s₅ hs₅ => ?_)
      · exact (Bool.and_eq_true _ _ ▸ hgift).1
      · exact ⟨by rw [hrecheck, hs₅.1, hsame], hs₅.2.trans hcalls₄⟩
    · exact ⟨by rw [hrecheck, hsame], hcalls₄⟩

/-- The operations of a compound. -/
lemma dispatchAll_vouched (args : List NfsArgOp) (req : Request)
    (hservice : InService msgs s req) :
    (dispatchAll S args req).Sat (historyEnvironment S c h).step (Vouched S msgs) True s
      fun _ s' => callsTaken s' = callsTaken s := by
  induction args generalizing s req with
  | nil => exact rfl
  | cons arg rest ih =>
    unfold dispatchAll
    refine .bind ((dispatch_vouched arg _ req hservice).mono fun answer s₁ hs₁ => ?_)
    obtain ⟨verdict, r⟩ := answer
    obtain ⟨hsame, hcalls⟩ := hs₁
    dsimp only
    split_ifs
    · exact .bind ((ih r.request (hservice.of_eq hcalls hsame)).mono fun _ _ h => h.trans hcalls)
    · exact hcalls

/-- The compounds of a connection, after some that were served. -/
lemma serve_vouched (done rest : List (CallBody × SecFlavor))
    (cache : List (NfsFh4 × ℕ × Handle)) (hcalls : callsTaken s = done.length) :
    (serve S c rest cache).Sat (historyEnvironment S c h).step (Vouched S (done ++ rest)) True s
      fun _ _ => True := by
  induction rest generalizing s cache done with
  | nil => exact trivial
  | cons call rest ih =>
    obtain ⟨msg, flavor⟩ := call
    unfold serve
    refine .bind ⟨trivial, fun _ s₁ hstep => ?_⟩
    have hcalls₁ : callsTaken s₁ = done.length + 1 := by
      rw [hstep.1, callsTaken_append, hcalls]
      rfl
    refine .bind (Prog.Sat.mono ?_ fun out s₂ (hs₂ : callsTaken s₂ = done.length + 1) =>
      .bind ?_)
    · unfold compound
      cases msg.args with
      | none => exact hcalls₁
      | some args =>
        dsimp only
        split_ifs
        · exact hcalls₁
        · refine .bind ((dispatchAll_vouched _ _ ⟨(msg, flavor), ?_, rfl⟩).mono fun _ _ hs =>
            hs.trans hcalls₁)
          unfold callInService
          rw [hcalls₁, List.take_append]
          simp
    · have hrest := ih (s := s₂) (done ++ [(msg, flavor)]) out.request.filehandleCache
        (by rw [hs₂]; simp)
      rw [List.append_assoc] at hrest
      exact hrest.mono fun _ _ _ => trivial

/-- What is known when a question is asked along a run. -/
lemma vouched_of_runs {out : Option (List Outcome)} (hrun : Runs (serve S c msgs []) h out) {i : ℕ}
    {x : Event} (hi : h[i]? = some x) : Vouched S msgs (h.take i) x.1 := by
  obtain ⟨hlt, hget⟩ := List.getElem?_eq_some_iff.1 hi
  have hsplit : h = h.take i ++ x :: h.drop (i + 1) := by
    rw [← hget, ← List.drop_eq_getElem_cons hlt, List.take_append_drop]
  obtain ⟨u, hu, -, hok⟩ := ((serve_vouched (S := S) (c := c) (h := h) (s := []) [] msgs []
    rfl).holds_of_runs hrun (allows_history fun x hx => hx)).1 _ _ _ hsplit
  rwa [eq_of_allows hu, List.nil_append] at hok

end Vouched

/-! ### Confined runs -/

section Confined

variable {S : Server} {c : Connection} {h : List Event} {em : ℕ → ExportManager}

/-- Where a request with a filehandle is, whose fields are those of the export of the filehandle. -/
def Request.At (S : Server) (req : Request) (fh : Handle) : Prop :=
  (exportIdFromFh fh.id = pseudoRootExportId ∧ req.FieldsAbsent) ∨
    (exportIdFromFh fh.id ≠ pseudoRootExportId ∧ req.isPseudoRoot = false ∧
      req.FieldsOf S (exportIdFromFh fh.id))

/-- The rest of the server along a run, for where the requests are. -/
def placeEnvironment (S : Server) (c : Connection) (h : List Event) :
    Environment S c (List Event) :=
  { historyEnvironment S c h with
    Ok := fun _ q => ∀ arg req, q = .execute arg req → ∀ fh, req.filehandle = some fh →
      req.At S fh }

lemma at_of_placed {s : List Event} {req : Request} (hp : (placeEnvironment S c h).Placed s req)
    {fh : Handle} (hfh : req.filehandle = some fh) : req.At S fh := by
  obtain ⟨⟨o, ho, hallowed⟩, hcurrent, hsaved, hcache⟩ := hp
  have hlocated : (historyEnvironment S c h).Located s o req.toContext :=
    ⟨ho.clientAddr, ho.sets, ho.selects, ho.number⟩
  have hholds : ∀ {tag : Tag}, (placeEnvironment S c h).Holds tag →
      (historyEnvironment S c h).Holds tag := fun h => ⟨h.home, h.allowed, h.sound⟩
  have hplaced : (historyEnvironment S c h).Placed s req :=
    ⟨⟨o, hlocated, hallowed⟩,
      fun fh hfh => ⟨hholds (hcurrent fh hfh).toHolds, (hcurrent fh hfh).near,
        (hcurrent fh hfh).number⟩,
      fun fh hfh => hholds (hsaved fh hfh), fun x hx => ⟨(hcache x hx).1, hholds (hcache x hx).2⟩⟩
  obtain hroot | ⟨hne, -, hfields⟩ := fieldsOf_of_placed hplaced hfh
  · exact .inl hroot
  · refine .inr ⟨hne, ?_, hfields⟩
    have hnumber : req.currentExportId = o.number := ho.number.resolve_right fun ⟨_, _, _, h⟩ => h
    have hservice : o.service = some (exportIdFromFh fh.id) :=
      ho.sets.accessControl.symm.trans hfields.accessControl
    cases o with
    | start | pseudoRoot => cases hservice
    | selected e =>
      rw [Request.isPseudoRoot, hnumber]
      exact beq_false_of_ne fun heq => (ho.selects e rfl).2 (Option.some.inj heq)

lemma placeEnvironment_lawful (hb : Beside c h em) (hstamps : Stamps h)
    (hlive : LiveExports h em) : (placeEnvironment S c h).Lawful :=
  { historyEnvironment_lawful (S := S) hb hstamps hlive with
    plain := by
      rintro s q hq arg req rfl
      cases hq
    executes := by
      rintro s arg req hp - arg' req' heq
      cases heq
      exact fun fh hfh => at_of_placed hp hfh
    reads := fun _ _ _ _ heq => by cases heq
    asks := by
      rintro s arg req q - - - hasks arg' req' rfl
      exact absurd hasks id }

/-- Where the operations of a run are executed. -/
lemma at_of_liveExports {msgs : List (CallBody × SecFlavor)} {out : Option (List Outcome)}
    (hrun : Runs (serve S c msgs []) h out) (hb : Beside c h em) (hstamps : Stamps h)
    (hlive : LiveExports h em) {arg : NfsArgOp} {req : Request} {fh : Handle}
    (hmem : (⟨.execute arg req, ()⟩ : Event) ∈ h) (hfh : req.filehandle = some fh) :
    req.At S fh := by
  have hcache : (placeEnvironment S c h).Caches [] := by simp [Environment.Caches]
  have hsat := Environment.serve_sat (s := []) (placeEnvironment_lawful (S := S) hb hstamps hlive)
    msgs hcache
  have hallows : ∀ {s h₁ : List Event}, (∀ x ∈ h₁, x ∈ h) →
      Allows (placeEnvironment S c h).step s h₁ (s ++ h₁) := allows_history (S := S) (c := c)
  obtain ⟨h₁, h₂, hsplit⟩ := List.append_of_mem hmem
  obtain ⟨u, -, -, hok⟩ := (hsat.holds_of_runs hrun (hallows fun x hx => hx)).1 h₁ _ h₂ hsplit
  exact hok arg req rfl fh hfh

/-- A run in which nothing is done for another user than the one that the export makes of the
caller. -/
structure Confined (S : Server) (msgs : List (CallBody × SecFlavor)) (h : List Event) : Prop where
  /-- An operation is executed on an export only after it was permitted to that user. -/
  checked : ∀ (i : ℕ) arg (req : Request) fh,
    h[i]? = some (⟨.execute arg req, ()⟩ : Event) → req.filehandle = some fh →
      exportIdFromFh fh.id ≠ pseudoRootExportId → modeChecked arg req = true →
        ∃ call h₁, callInService msgs (h.take i) = some call ∧
          Calmly (h₁ ++ [(⟨.on (some (exportIdFromFh fh.id)) (.permitted arg fh.toFilehandle
            (req.savedFilehandle.map Handle.toFilehandle)
            (actsAs S (exportIdFromFh fh.id) call.1.cred)), .ok ()⟩ : Event)]) (h.take i)
  /-- A new object is given to that user, and to its group or that of the directory. -/
  given : ∀ (i : ℕ) x path uid gid (done : Bool),
    h[i]? = some (⟨.on x (.lchown path uid gid), done⟩ : Event) →
      ∃ call e, callInService msgs (h.take i) = some call ∧ x = some e ∧
        uid = (actsAs S e call.1.cred).uid ∧
        (gid = (actsAs S e call.1.cred).gid ∨ ∃ parent : RealMeta,
          (⟨.on x (.statParent path), some parent⟩ : Event) ∈ h ∧ parent.mode &&& 0o2000 ≠ 0 ∧
            gid = parent.gid)

/-- Along every run of a connection beside the administration of the server in which the exports
are there. -/
lemma confined_of_runs {msgs : List (CallBody × SecFlavor)} {out : Option (List Outcome)}
    (hrun : Runs (serve S c msgs []) h out) (hb : Beside c h em) (hstamps : Stamps h)
    (hlive : LiveExports h em) : Confined S msgs h where
  checked := by
    intro i arg req fh hi hfh hne hmode
    obtain ⟨⟨call, hcall, hcred⟩, hpermitted⟩ := vouched_of_runs hrun hi
    obtain ⟨hroot, -⟩ | ⟨-, hroot, hfields⟩ :=
      at_of_liveExports hrun hb hstamps hlive (List.mem_of_getElem? hi) hfh
    · exact absurd hroot hne
    · obtain ⟨h₁, hcalm⟩ := hpermitted hmode _ fh hroot hfields.cachedFmanager hfh
      rw [caller_of_fieldsOf hfields hcred] at hcalm
      exact ⟨call, h₁, hcall, hcalm⟩
  given := by
    intro i x path uid gid done hi
    obtain ⟨arg, req, ⟨call, hcall, hcred⟩, hgift⟩ := vouched_of_runs hrun hi
    obtain ⟨e, rfl⟩ := Option.isSome_iff_exists.1 hgift.manager.1
    obtain ⟨fh, hfh⟩ := Option.isSome_iff_exists.1 hgift.filehandle
    obtain ⟨k, hk, hexecute⟩ := exists_of_executedLast hgift.executed
    have hmem : (⟨.execute arg req, ()⟩ : Event) ∈ h :=
      List.mem_of_mem_take (List.mem_of_getElem? hexecute)
    obtain ⟨-, habsent⟩ | ⟨-, -, hfields⟩ :=
      at_of_liveExports hrun hb hstamps hlive hmem hfh
    · exact absurd (habsent.cachedFmanager.symm.trans hgift.manager.2) nofun
    · have he : exportIdFromFh fh.id = e :=
        Option.some.inj (hfields.cachedFmanager.symm.trans hgift.manager.2)
      rw [he] at hfields
      have hcaller := caller_of_fieldsOf hfields hcred
      refine ⟨call, e, hcall, rfl, by rw [hgift.uid, hcaller], ?_⟩
      obtain hgid | ⟨parent, hparent, hset, hgid⟩ := hgift.gid
      · exact .inl (by rw [hgid, hcaller])
      · exact .inr ⟨parent, List.mem_of_mem_take hparent, hset, hgid⟩

/-- **Users are squashed**: along every run of a connection beside the administration of the server
in which the exports are there, nothing is done for another user than the one that the export makes
of the caller of the call in service; so where root is squashed, nothing is permitted to root and
nothing is given to root. -/
theorem confined_of_liveExports (S : Server) (c : Connection)
    (msgs : List (CallBody × SecFlavor)) {h : List Event} {out : Option (List Outcome)}
    {em : ℕ → ExportManager} (hrun : Runs (serve S c msgs []) h out) (hb : Beside c h em)
    (hstamps : Stamps h) (hlive : LiveExports h em) :
    Confined S msgs h ∧ ∀ e, Squashes (S.exports e).accessControl →
      (∀ (i : ℕ) arg (req : Request) fh, h[i]? = some (⟨.execute arg req, ()⟩ : Event) →
        req.filehandle = some fh → exportIdFromFh fh.id = e → e ≠ pseudoRootExportId →
          modeChecked arg req = true → ∃ user : Caller, user.uid ≠ 0 ∧
            (⟨.on (some e) (.permitted arg fh.toFilehandle
              (req.savedFilehandle.map Handle.toFilehandle) user), .ok ()⟩ : Event) ∈ h.take i) ∧
      ∀ path uid gid (done : Bool),
        (⟨.on (some e) (.lchown path uid gid), done⟩ : Event) ∈ h → uid ≠ 0 := by
  have hconfined : Confined S msgs h := confined_of_runs hrun hb hstamps hlive
  refine ⟨hconfined, fun e hsquash => ⟨?_, ?_⟩⟩
  · rintro i arg req fh hi hfh rfl hne hmode
    obtain ⟨call, h₁, -, t, ht, -⟩ := hconfined.checked i arg req fh hi hfh hne hmode
    exact ⟨_, actsAs_uid_ne_zero hsquash call.1.cred, by rw [ht]; simp⟩
  · intro path uid gid done hmem
    obtain ⟨i, hi⟩ := List.mem_iff_getElem?.1 hmem
    obtain ⟨call, e', -, he, rfl, -⟩ := hconfined.given i _ path uid gid done hi
    cases he
    exact actsAs_uid_ne_zero hsquash call.1.cred

end Confined

/-! ### Samples -/

/-- An export that squashes root. -/
def squashServer : Server :=
  { openServer with
    exports := fun _ => ⟨"share", false, ⟨fun _ => true, .rootSquash, 65534, 65534, []⟩⟩
    join := fun _ _ => some .root }

/-- Root makes a directory. -/
def mkdirAsRoot : List (CallBody × SecFlavor) :=
  [({ callOf [.opputfh ⟨fileId 1⟩, .opcreate ⟨.nf4dir, "d", ⟨[], []⟩⟩] with
      cred := .authUnix ⟨0, "client", 0, 0, []⟩ }, .sys)]

/-- The answers there: the new directory is root's, as the server runs as root. -/
def squashAnswers (n : ℕ) : (q : Question) → q.Answer
  | .on _ (.stat _) => some ⟨2, 64, S_IFDIR ||| 0o755, 1, 0, 0, 0, 0, 0, 0, 0, 0, 0, 0⟩
  | q => sampleAnswers steadyExport n q

/-- The run. -/
def mkdirHistory : List Event :=
  ((serve squashServer earlyConnection mkdirAsRoot []).run squashAnswers 0).1

lemma beside_mkdirHistory : Beside earlyConnection mkdirHistory steadyExport := by
  refine beside_run _ (fun i q => ?_) nofun ⟨[.addExport "share" true], rfl⟩ fun _ => ⟨[], rfl⟩
  cases q with
  | listExports => exact .refl _
  | getExportById e ctx => rfl
  | getExportByName name => rfl
  | _ => trivial

lemma stamps_mkdirHistory : Stamps mkdirHistory := by
  refine stamps_run _ fun i e call fh hgives => ?_
  cases call with
  | getRootFilehandle | getFilehandleForId | getFilehandleForPath =>
    cases hgives
    exact ⟨rfl, rfl⟩
  | createFile | openNamedAttrDir => cases hgives
  | _ => exact absurd hgives id

lemma liveExports_mkdirHistory : LiveExports mkdirHistory steadyExport := by
  have hknown : ∀ e ctx a, (⟨.getExportById e ctx, a⟩ : Event) ∈ mkdirHistory →
      e ∈ (steadyExport 0).listExports := by
    intro e ctx a hmem
    have hall : (mkdirHistory.all fun x => match x.1 with
        | .getExportById e _ => e == 1
        | _ => true) = true := rfl
    have he : (e == 1) = true := List.all_eq_true.1 hall _ hmem
    rw [eq_of_beq he]
    exact List.mem_singleton_self 1
  refine liveExports_of_known (fun e ctx a hmem _ => hknown e ctx a hmem) fun e id f hmem => ?_
  obtain ⟨i, hi⟩ := List.mem_iff_getElem?.1 hmem
  cases Prog.answer_of_run hi

/-- **Root is squashed**: the directory that root makes is given to the anonymous user. -/
theorem confined_of_liveExports_root :
    ∃ out : Option (List Outcome),
      Runs (serve squashServer earlyConnection mkdirAsRoot []) mkdirHistory out ∧
      Confined squashServer mkdirAsRoot mkdirHistory ∧
      (⟨.on (some 1) (.lchown "/" 65534 65534), false⟩ : Event) ∈ mkdirHistory ∧
      ∀ path uid gid (done : Bool),
        (⟨.on (some 1) (.lchown path uid gid), done⟩ : Event) ∈ mkdirHistory → uid ≠ 0 := by
  have hrun := runs_run squashAnswers 0 (serve squashServer earlyConnection mkdirAsRoot [])
  obtain ⟨hconfined, hsquashed⟩ := confined_of_liveExports squashServer earlyConnection mkdirAsRoot
    hrun beside_mkdirHistory stamps_mkdirHistory liveExports_mkdirHistory
  refine ⟨_, hrun, hconfined, ?_, (hsquashed 1 ⟨nofun, by decide⟩).2⟩
  have hgiven : mkdirHistory[19]? =
      some (⟨.on (some 1) (.lchown "/" 65534 65534), false⟩ : Event) := by
    with_unfolding_all rfl
  exact List.mem_of_getElem? hgiven

end NextNfs.Dispatcher
