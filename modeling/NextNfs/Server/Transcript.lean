import NextNfs.Server.Handlers

set_option relaxedAutoImplicit false
set_option autoImplicit false

/-!
# Transcripts of compounds

What a compound makes of its operations, whatever the rest of the server answers: each operation is
denied, refused or executed, and the first one that does not answer with a result and NFS4_OK is the
last.

## Main definitions

* `NextNfs.Dispatcher.Answered.Right` — what one operation of a compound answers.
* `NextNfs.Dispatcher.Transcript` — the operations that a compound takes up.

## Main results

* `NextNfs.Dispatcher.compound_yields` — a compound returns a transcript of its operations.
-/

namespace NextNfs.Dispatcher

open Wire Dialogue

variable {S : Server} {arg : NfsArgOp} {next : Option ℕ} {req : Request}

/-! ### One operation -/

/-- What a program does, whatever it is told. -/
abbrev Yields {α : Type} (p : Op α) (post : α → Prop) : Prop :=
  p.Does (fun _ _ => True) (fun _ => True) True post

/-- A request with the flavour of the call of another. -/
abbrev Keeps (req req' : Request) : Prop := req'.secFlavor = req.secFlavor

/-- The answer to an operation in the wrong flavour: NFS4ERR_WRONGSEC, unless the rate limiter of
the export or the grace period comes first. -/
def Answered.RefusesFlavor (a : Answered) : Prop :=
  a.status = .nfs4errWrongsec ∨ (a.status = .nfs4errDelay ∧ a.before.rateLimiter.isSome = true) ∨
    (a.status = .nfs4errGrace ∧ graceDenies a.arg = true)

/-- What one operation of a compound answers, before the next one. -/
structure Answered.Right (S : Server) (next : Option ℕ) (a : Answered) : Prop where
  denied : a.verdict = .denied → a.result = none ∧ a.status = .nfs4errGrace
  refused : a.verdict = .refused →
    a.result = some (.opError (UInt32.ofNat (opCode a.arg)) a.status) ∧ a.status ≠ .nfs4Ok
  executed : a.verdict = .executed → Answers a.arg a.before a.result a.status
  -- The security flavour, before and after the operation.
  flavor : Keeps a.before a.after
  flavorBefore : a.before.secAllowed S = false → wrongsecExempt (opCode a.arg) = false →
    a.verdict ≠ .executed ∧ a.RefusesFlavor
  flavorAfter : a.status = .nfs4Ok → movesFilehandle (opCode a.arg) = true →
    a.after.secAllowed S = false → wrongsecDeferred (opCode a.arg) next = true

/-- A program of which nothing is asked. -/
lemma yields_of_forall {α : Type} {post : α → Prop} (hpost : ∀ a, post a) (p : Op α) :
    Yields p post := Prog.does_of_forall hpost p

/-- `set_export` keeps the flavour. -/
lemma setExport_yields (id : UInt8) : Yields (req.setExport S id) (Keeps req) := by
  unfold Request.setExport
  split_ifs
  · exact rfl
  · refine .bind (yields_of_forall (fun known => ?_) _)
    cases known with
    | true => exact rfl
    | false => exact rfl

lemma switchExport_yields (id : NfsFh4) : Yields (req.switchExport S id) (Keeps req) := by
  unfold Request.switchExport
  split_ifs
  · exact setExport_yields _
  · exact rfl

/-- `set_filehandle_id` keeps the flavour. -/
lemma setFilehandleId_yields (id : NfsFh4) :
    Yields (req.setFilehandleId S id) fun out => Keeps req out.1 := by
  unfold Request.setFilehandleId
  refine .bind ((switchExport_yields id).imp fun req₁ hreq₁ => ?_)
  split_ifs
  · exact hreq₁
  · refine .bind (yields_of_forall (fun res => ?_) _)
    cases res with
    | ok fh => exact hreq₁
    | error f => exact hreq₁

/-- `get_filehandle_from_cache` keeps the flavour. -/
lemma getFilehandleFromCache_yields (id : NfsFh4) :
    Yields (req.getFilehandleFromCache id) fun out => Keeps req out.1 := by
  unfold Request.getFilehandleFromCache
  split
  · exact rfl
  · refine .bind (yields_of_forall (fun now => ?_) _)
    split_ifs
    · exact rfl
    · refine .bind (yields_of_forall (fun there => ?_) _)
      split_ifs
      · exact rfl
      · exact rfl

lemma cacheFilehandle_yields (fh : Handle) : Yields (req.cacheFilehandle fh) (Keeps req) :=
  ⟨trivial, fun _ _ => rfl⟩

/-- The root that lists the exports keeps the flavour. -/
lemma enterPseudoRoot_yields (id : NfsFh4) : Yields (enterPseudoRoot S id req) (Keeps req) := by
  unfold enterPseudoRoot
  refine .bind ((setExport_yields _).imp fun req₁ hreq₁ => ?_)
  exact .bind (yields_of_forall (fun now => hreq₁) _)

/-- A response is one that an operation gives. -/
def RespondsTo (arg : NfsArgOp) (req : Request) (r : Response) : Prop :=
  Answers arg req r.result r.status ∧ Keeps req r.request

/-- An answer with a result that fits. -/
lemma yields_some {req' : Request} {res : NfsResOp4} {status : NfsStat4}
    (hsilent : silent arg req status = false) (hfits : Fits arg res status) (hkeeps : Keeps req req') :
    Yields (.pure (Response.some req' res status)) (RespondsTo arg req) :=
  ⟨Answers.some hsilent hfits, hkeeps⟩

/-- An answer without a result. -/
lemma yields_none {req' : Request} {status : NfsStat4} (hsilent : silent arg req status = true)
    (hkeeps : Keeps req req') :
    Yields (.pure (Response.none req' status)) (RespondsTo arg req) :=
  ⟨Answers.none hsilent, hkeeps⟩

/-- PUTROOTFH and PUTPUBFH answer alike. -/
lemma putRootFilehandle_yields (harg : arg = .opputrootfh ∨ arg = .opputpubfh) :
    Yields (putRootFilehandle S req) (RespondsTo arg req) := by
  have hsilent : ∀ status, silent arg req status = (status != .nfs4Ok) := by
    obtain rfl | rfl := harg <;> exact fun _ => rfl
  have hfits : Fits arg (.opputrootfh ⟨.nfs4Ok⟩) .nfs4Ok := by
    obtain rfl | rfl := harg <;> exact ⟨rfl, rfl⟩
  have hnone : ∀ {req' : Request} {status : NfsStat4}, status ≠ .nfs4Ok → Keeps req req' →
      Yields (.pure (Response.none req' status)) (RespondsTo arg req) :=
    fun hstatus => yields_none (by rw [hsilent]; simpa using hstatus)
  have hsome : ∀ {req' : Request}, Keeps req req' →
      Yields (.pure (Response.some req' (.opputrootfh ⟨.nfs4Ok⟩) .nfs4Ok)) (RespondsTo arg req) :=
    yields_some (hsilent _) hfits
  unfold putRootFilehandle
  refine .bind (yields_of_forall (fun exports => ?_) _)
  split
  · refine .bind ((setExport_yields _).imp fun req₁ hreq₁ => ?_)
    split_ifs
    · exact hnone nofun hreq₁
    · refine .bind (yields_of_forall (fun root => ?_) _)
      cases root with
      | error f => exact hnone nofun hreq₁
      | ok fh =>
        refine .bind ((setFilehandleId_yields _).imp fun out hout => ?_)
        exact hsome (hout.trans hreq₁)
  · exact .bind ((enterPseudoRoot_yields _).imp fun req₁ hreq₁ => hsome hreq₁)

/-- PUTFH answers with a status. -/
lemma putfh_yields (args : PutFh4args) :
    Yields (putfh S args req) (RespondsTo (.opputfh args) req) := by
  have hsome : ∀ {req' : Request} {status : NfsStat4}, Keeps req req' →
      Yields (.pure (Response.some req' (.opputfh ⟨status⟩) status)) (RespondsTo (.opputfh args) req) :=
    yields_some rfl ⟨rfl, rfl⟩
  unfold putfh
  dsimp only
  split_ifs
  · exact .bind ((enterPseudoRoot_yields _).imp fun req₁ hreq₁ => hsome hreq₁)
  · refine .bind ((switchExport_yields _).imp fun req₁ hreq₁ => ?_)
    split_ifs
    · exact hsome hreq₁
    · refine .bind ((getFilehandleFromCache_yields _).imp fun out hout => ?_)
      obtain ⟨req₂, cached⟩ := out
      have hreq₂ : Keeps req req₂ := Eq.trans hout hreq₁
      cases cached with
      | some fh => exact hsome hreq₂
      | none =>
        refine .bind ((setFilehandleId_yields _).imp fun out hout => ?_)
        obtain ⟨req₃, res⟩ := out
        have hreq₃ : Keeps req req₃ := Eq.trans hout hreq₂
        cases res with
        | error f => exact hsome hreq₃
        | ok fh =>
          refine .bind ((cacheFilehandle_yields fh).imp fun req₄ hreq₄ => ?_)
          exact hsome (hreq₄.trans hreq₃)

/-- LOOKUP at the root that lists the exports answers with a status. -/
lemma lookupExport_yields (args : Lookup4args) (hroot : req.isPseudoRoot = true) :
    Yields (lookupExport S args req) (RespondsTo (.oplookup args) req) := by
  have hsome : ∀ {req' : Request} {status : NfsStat4}, Keeps req req' →
      Yields (.pure (Response.some req' (.oplookup ⟨status⟩) status)) (RespondsTo (.oplookup args) req) :=
    yields_some (by simp [silent, hroot]) ⟨rfl, rfl⟩
  unfold lookupExport
  refine .bind (yields_of_forall (fun found => ?_) _)
  cases found with
  | none => exact hsome rfl
  | some e =>
    refine .bind ((setExport_yields _).imp fun req₁ hreq₁ => ?_)
    split_ifs
    · exact hsome hreq₁
    · refine .bind (yields_of_forall (fun root => ?_) _)
      cases root with
      | error f => exact hsome hreq₁
      | ok fh => exact hsome hreq₁

lemma lookupParent_yields_some {req' : Request} {status : NfsStat4} (h : Keeps req req') :
    Yields (.pure (Response.some req' (.oplookupp ⟨status⟩) status)) (RespondsTo .oplookupp req) :=
  yields_some rfl ⟨rfl, rfl⟩ h

/-- LOOKUPP from the root of an export. -/
lemma lookupParent_yields_of_exports (fh : Handle) (exports : List UInt8) : Yields
    (if exports.length > 1 then do
      let req ← enterPseudoRoot S pseudoRootFh req
      pure (Response.some req (.oplookupp ⟨.nfs4Ok⟩) .nfs4Ok)
    else do
      let found : Except Failure Handle ←
        req.askManager (.getFilehandleForPath (pathStr fh.file.parent))
      match found with
      | .ok fh => pure (Response.some (req.setFilehandle fh) (.oplookupp ⟨.nfs4Ok⟩) .nfs4Ok)
      | .error _ => pure (Response.some req (.oplookupp ⟨.nfs4errNoent⟩) .nfs4errNoent))
    (RespondsTo .oplookupp req) := by
  split_ifs
  · exact .bind ((enterPseudoRoot_yields _).imp
      fun req₁ hreq₁ => lookupParent_yields_some hreq₁)
  · refine .bind (yields_of_forall (fun found => ?_) _)
    cases found with
    | error f => exact lookupParent_yields_some rfl
    | ok fh => exact lookupParent_yields_some rfl

/-- LOOKUPP answers with a status. -/
lemma lookupParent_yields :
    Yields (lookupParent S req) (RespondsTo .oplookupp req) := by
  unfold lookupParent
  dsimp only
  split_ifs
  · exact lookupParent_yields_some rfl
  · cases req.filehandle with
    | none => exact lookupParent_yields_some rfl
    | some fh =>
      dsimp only
      split_ifs
      · exact .bind (yields_of_forall (lookupParent_yields_of_exports fh) _)
      · exact lookupParent_yields_of_exports (S := S) fh []

/-- SETATTR answers without a result if the file is gone after it. -/
lemma setattr_yields (args : SetAttr4args) :
    Yields (setattr S args req) (RespondsTo (.opsetattr args) req) := by
  unfold setattr
  cases hfh : req.filehandle with
  | none => exact yields_some (by simp [silent, hfh]) ⟨rfl, rfl⟩ rfl
  | some fh =>
    dsimp only
    split_ifs
    · exact yields_some rfl ⟨rfl, rfl⟩ rfl
    · refine .bind (yields_of_forall (fun attrsset => ?_) _)
      refine .bind (yields_of_forall (fun _ => ?_) _)
      refine .bind ((setFilehandleId_yields _).imp fun out hout => ?_)
      obtain ⟨req₁, res⟩ := out
      cases res with
      | error f => exact yields_none (by simp [silent, hfh, f.2]) hout
      | ok fh' =>
        refine .bind ((cacheFilehandle_yields fh').imp fun req₂ hreq₂ => ?_)
        exact yields_some rfl ⟨rfl, rfl⟩ (hreq₂.trans hout)

/-- An operation that is executed answers as it should. -/
lemma execute_yields (arg : NfsArgOp) (req : Request) :
    Yields (execute S arg req) (RespondsTo arg req) := by
  by_cases hstationary : stationary arg req = true
  · have hready : Ready S (fun _ _ => True) True (fun _ => True) arg req := by
      constructor <;> intros <;> trivial
    exact (execute_conducts hready hstationary).mono (fun _ _ => trivial) id fun r hr =>
      ⟨hr.2, congrArg Context.secFlavor hr.1.context⟩
  · cases arg with
    | opputfh args => exact putfh_yields args
    | opputrootfh => exact putRootFilehandle_yields (.inl rfl)
    | opputpubfh => exact putRootFilehandle_yields (.inr rfl)
    | oprestorefh =>
      have hrestore : execute S .oprestorefh req = restoreFilehandle S req := rfl
      rw [hrestore, restoreFilehandle]
      cases req.savedFilehandle with
      | none => exact yields_some rfl ⟨rfl, rfl⟩ rfl
      | some saved =>
        refine .bind (.bind ((switchExport_yields _).imp fun req₁ hreq₁ => ?_))
        exact yields_some rfl ⟨rfl, rfl⟩ hreq₁
    | oplookupp => exact lookupParent_yields
    | opsetattr args => exact setattr_yields args
    | oplookup args =>
      have hroot : req.isPseudoRoot = true := by simpa [stationary] using hstationary
      have hlookup : execute S (.oplookup args) req = lookupExport S args req := by
        simp [execute, lookup, hroot]
      rw [hlookup]
      exact lookupExport_yields args hroot
    | _ => exact absurd rfl hstationary

/-- The answer of the dispatcher to an operation. -/
def answeredBy (arg : NfsArgOp) (req : Request) (answer : Verdict × Response) : Answered :=
  ⟨arg, req, answer.1, answer.2.result, answer.2.status, answer.2.request⟩

/-- An operation that is refused before it is executed. -/
lemma right_of_refused {status : NfsStat4} (hok : status ≠ .nfs4Ok)
    (hflavor : req.secAllowed S = false → wrongsecExempt (opCode arg) = false →
      (answeredBy arg req (refuse arg req status)).RefusesFlavor) :
    (answeredBy arg req (refuse arg req status)).Right S next where
  denied := nofun
  refused := fun _ => ⟨rfl, hok⟩
  executed := nofun
  flavor := rfl
  flavorBefore := fun h hexempt => ⟨nofun, hflavor h hexempt⟩
  flavorAfter := fun h => absurd h hok

/-- The rate limiter is asked if there is one. -/
lemma rateLimited_yields :
    Yields (rateLimited arg req) fun limited => limited = true → req.rateLimiter.isSome = true := by
  unfold rateLimited
  cases req.rateLimiter with
  | none => exact nofun
  | some e => exact .bind (yields_of_forall (fun _ _ => rfl) _)

/-- The checks that come before an operation. -/
lemma admission_yields (next : Option ℕ) :
    Yields (admission S arg req) fun o => (∀ answer, o = some answer →
      (answeredBy arg req answer).Right S next) ∧
      (o = none → req.secAllowed S = true ∨ wrongsecExempt (opCode arg) = true) := by
  have hrefused : ∀ {answer : Verdict × Response}, (answeredBy arg req answer).Right S next →
      Yields (.pure (some answer)) fun o => (∀ answer, o = some answer →
        (answeredBy arg req answer).Right S next) ∧
        (o = none → req.secAllowed S = true ∨ wrongsecExempt (opCode arg) = true) := by
    refine fun hanswer => ⟨fun answer' heq => ?_, nofun⟩
    cases heq
    exact hanswer
  unfold admission
  refine .bind (rateLimited_yields.imp fun limited hlimited => ?_)
  split
  · rename_i hl
    exact hrefused (right_of_refused nofun fun _ _ => .inr (.inl ⟨rfl, hlimited hl⟩))
  refine .bind (yields_of_forall (fun inGrace => ?_) _)
  split_ifs with hgrace hflavor hro
  · have hdenies : graceDenies arg = true := by
      simp only [Bool.and_eq_true] at hgrace
      exact hgrace.2
    exact hrefused ⟨fun _ => ⟨rfl, rfl⟩, nofun, nofun, rfl,
      fun _ _ => ⟨nofun, .inr (.inr ⟨rfl, hdenies⟩)⟩, nofun⟩
  · exact hrefused (right_of_refused nofun fun _ _ => .inl rfl)
  all_goals
    have hallowed : req.secAllowed S = true ∨ wrongsecExempt (opCode arg) = true := by
      by_contra hnot
      push Not at hnot
      exact hflavor (by simp [hnot])
    have hcontra : req.secAllowed S = false → wrongsecExempt (opCode arg) = false → False :=
      fun h hexempt => by simp [h, hexempt] at hallowed
  · exact hrefused (right_of_refused nofun fun h hexempt => (hcontra h hexempt).elim)
  · refine .bind (yields_of_forall (fun permitted => ?_) _)
    cases permitted with
    | error f => exact hrefused (right_of_refused f.2 fun h hexempt => (hcontra h hexempt).elim)
    | ok _ => exact ⟨fun answer heq => (by cases heq), fun _ => hallowed⟩

/-- The checks that come after an operation. -/
lemma right_of_recheck {r : Response}
    (hallowed : req.secAllowed S = true ∨ wrongsecExempt (opCode arg) = true)
    (hresponds : RespondsTo arg req r) (before : Option UInt8) :
    (answeredBy arg req (recheck S arg next before r)).Right S next := by
  have hcontra : req.secAllowed S = false → wrongsecExempt (opCode arg) = false → False :=
    fun h hexempt => by simp [h, hexempt] at hallowed
  have hkeeps : Keeps req r.request := hresponds.2
  unfold recheck
  split_ifs with hclient hflavor
  · exact ⟨nofun, fun _ => ⟨rfl, nofun⟩, nofun, hkeeps, fun h hexempt => (hcontra h hexempt).elim,
      nofun⟩
  · exact ⟨nofun, fun _ => ⟨rfl, nofun⟩, nofun, hkeeps, fun h hexempt => (hcontra h hexempt).elim,
      nofun⟩
  · refine ⟨nofun, nofun, fun _ => hresponds.1, hkeeps, fun h hexempt => (hcontra h hexempt).elim, ?_⟩
    intro hstatus hmoves hafter
    have hstatus' : r.status = .nfs4Ok := hstatus
    have hafter' : r.request.secAllowed S = false := hafter
    have hmoves' : movesFilehandle (opCode arg) = true := hmoves
    show wrongsecDeferred (opCode arg) next = true
    simpa [flavorRefused, hstatus', hafter', hmoves'] using hflavor

/-- `chown_new_object` keeps the flavour. -/
lemma chownNewObject_yields (caller : Caller) : Yields (chownNewObject caller req) (Keeps req) := by
  unfold chownNewObject
  split
  · refine .bind (yields_of_forall (fun m => ?_) _)
    cases m with
    | none => exact rfl
    | some m =>
      refine .bind (yields_of_forall (fun parent => ?_) _)
      dsimp only
      split_ifs
      · exact rfl
      · refine .bind (yields_of_forall (fun done => ?_) _)
        split_ifs
        · exact rfl
        · refine .bind (yields_of_forall (fun _ => ?_) _)
          exact .bind ((cacheFilehandle_yields _).imp fun req₁ hreq₁ => hreq₁)
  · exact rfl

/-- One operation of a compound. -/
lemma dispatch_yields (arg : NfsArgOp) (next : Option ℕ) (req : Request) :
    Yields (dispatch S arg next req) fun answer => (answeredBy arg req answer).Right S next := by
  unfold dispatch
  refine .bind ((admission_yields next).imp fun refused ⟨hrefused, hallowed⟩ => ?_)
  cases refused with
  | some answer => exact hrefused answer rfl
  | none =>
    unfold perform
    refine .bind (yields_of_forall (fun creates => ?_) _)
    refine .bind (yields_of_forall (fun _ => ?_) _)
    refine .bind ((execute_yields arg req).imp fun r hr => ?_)
    dsimp only
    split_ifs
    · refine .bind ((chownNewObject_yields _).imp fun req' hreq' => ?_)
      exact right_of_recheck (r := { r with request := req' }) (hallowed rfl)
        ⟨hr.1, Eq.trans hreq' hr.2⟩ _
    · exact right_of_recheck (hallowed rfl) hr _

/-! ### Compounds -/

/-- The operations that a compound takes up, from a request: up to the first that does not answer
with a result and NFS4_OK. With them, the status of the compound and the request after it. -/
inductive Transcript (S : Server) :
    List NfsArgOp → Request → List Answered → NfsStat4 → Request → Prop
  | nil (req : Request) : Transcript S [] req [] .nfs4Ok req
  | stop {rest : List NfsArgOp} {a : Answered} :
    a.Right S (rest.head?.map opCode) → ¬ (a.result.isSome ∧ a.status = .nfs4Ok) →
    Transcript S (a.arg :: rest) a.before [a] a.status a.after
  | go {rest : List NfsArgOp} {a : Answered} {log : List Answered} {status : NfsStat4}
      {req' : Request} :
    a.Right S (rest.head?.map opCode) → a.result.isSome → a.status = .nfs4Ok →
    Transcript S rest a.after log status req' →
    Transcript S (a.arg :: rest) a.before (a :: log) status req'

variable {args : List NfsArgOp} {req' : Request} {log : List Answered}
  {status : NfsStat4}

/-- The operations that are attempted are the first ones. -/
lemma Transcript.attempted (h : Transcript S args req log status req') :
    log.map Answered.arg <+: args := by
  induction h with
  | nil => exact List.nil_prefix
  | stop => exact ⟨_, rfl⟩
  | go _ _ _ _ ih => exact List.prefix_cons_inj _ |>.2 ih

/-- Every answer is one that the dispatcher gives, before the operation that comes next. -/
lemma Transcript.right_at (h : Transcript S args req log status req') {k : ℕ} {a : Answered}
    (hk : log[k]? = some a) : a.Right S (args[k + 1]?.map opCode) := by
  induction h generalizing k with
  | nil => simp at hk
  | @stop rest b hright =>
    cases k with
    | zero =>
      cases hk
      simpa [List.head?_eq_getElem?] using hright
    | succ k => simp at hk
  | @go rest b log status req' hright _ _ _ ih =>
    cases k with
    | zero =>
      cases hk
      simpa [List.head?_eq_getElem?] using hright
    | succ k => exact ih hk

lemma Transcript.right (h : Transcript S args req log status req') {a : Answered} (ha : a ∈ log) :
    ∃ next, a.Right S next := by
  obtain ⟨k, hk⟩ := List.mem_iff_getElem?.1 ha
  exact ⟨_, h.right_at hk⟩

/-- The flavour is that of the call throughout. -/
lemma Transcript.flavor (h : Transcript S args req log status req') {a : Answered} (ha : a ∈ log) :
    Keeps req a.before ∧ Keeps req a.after := by
  induction h with
  | nil => cases ha
  | stop hright =>
    cases List.mem_singleton.1 ha
    exact ⟨rfl, hright.flavor⟩
  | @go rest b log status req' hright _ _ _ ih =>
    rcases List.mem_cons.1 ha with rfl | ha
    · exact ⟨rfl, hright.flavor⟩
    · exact ⟨(ih ha).1.trans hright.flavor, (ih ha).2.trans hright.flavor⟩

/-- A compound without operations succeeds. -/
lemma Transcript.ok_of_nil (h : Transcript S args req log status req') (hnil : log = []) :
    status = .nfs4Ok := by
  induction h with
  | nil => rfl
  | stop | go => cases hnil

/-- The operations before the last succeed, and the status of the last is that of the compound. -/
lemma Transcript.succeeds (h : Transcript S args req log status req') {k : ℕ} {a : Answered}
    (hk : log[k]? = some a) :
    (k + 1 < log.length → a.status = .nfs4Ok) ∧ (k + 1 = log.length → a.status = status) := by
  induction h generalizing k with
  | nil => simp at hk
  | stop =>
    cases k with
    | zero =>
      cases hk
      exact ⟨fun hlt => absurd hlt (by simp), fun _ => rfl⟩
    | succ k => simp at hk
  | @go rest b log status req' hright hres hok hrest ih =>
    cases k with
    | zero =>
      cases hk
      refine ⟨fun _ => hok, fun hlen => ?_⟩
      have hnil : log = [] := List.length_eq_zero_iff.1 (by simpa using hlen.symm)
      exact hok.trans (hrest.ok_of_nil hnil).symm
    | succ k =>
      obtain ⟨hlt, heq⟩ := ih hk
      exact ⟨fun hlen => hlt (by simpa using hlen), fun hlen => heq (by simpa using hlen)⟩

/-- Nothing is attempted after an operation that fails. -/
lemma Transcript.stops (h : Transcript S args req log status req') {k : ℕ} {a : Answered}
    (hk : log[k]? = some a) (hstatus : a.status ≠ .nfs4Ok) : k + 1 = log.length := by
  have hlt := (List.getElem?_eq_some_iff.1 hk).1
  by_contra hne
  exact hstatus ((h.succeeds hk).1 (by omega))

/-- The results are those of the operations, in order: only the last may have none. -/
lemma Transcript.getElem?_results (h : Transcript S args req log status req') (k : ℕ) :
    (log.filterMap Answered.result)[k]? = log[k]?.bind Answered.result := by
  induction h generalizing k with
  | nil => rfl
  | @stop rest a =>
    cases hres : a.result with
    | none => cases k <;> simp [hres]
    | some res => cases k <;> simp [hres]
  | go _ hsome _ _ ih =>
    obtain ⟨res, hres⟩ := Option.isSome_iff_exists.1 hsome
    rw [List.filterMap_cons_some hres]
    cases k with
    | zero => exact hres.symm
    | succ k => exact ih k

/-- The loop of a compound returns a transcript. -/
lemma dispatchAll_yields (args : List NfsArgOp) (req : Request) :
    Yields (dispatchAll S args req) fun out => Transcript S args req out.2.2 out.2.1 out.1 := by
  induction args generalizing req with
  | nil => exact .nil req
  | cons arg rest ih =>
    unfold dispatchAll
    refine .bind ((dispatch_yields arg _ req).imp fun answer hright => ?_)
    obtain ⟨verdict, r⟩ := answer
    dsimp only
    split_ifs with hgo
    · simp only [Bool.and_eq_true, beq_iff_eq] at hgo
      refine .bind ((ih r.request).imp fun out hout => ?_)
      exact .go (a := ⟨arg, req, verdict, r.result, r.status, r.request⟩) hright hgo.1 hgo.2 hout
    · simp only [Bool.and_eq_true, beq_iff_eq] at hgo
      exact .stop (a := ⟨arg, req, verdict, r.result, r.status, r.request⟩) hright hgo

section Forall

variable {P : Answered → Prop}

end Forall

/-- A compound with an accepted minor version returns a transcript of its operations, and its reply
has the results that there are. -/
theorem compound_yields {msg : CallBody} {args : Compound4args} (hargs : msg.args = some args)
    (hminor : args.minorVersion ≤ 1) (req : Request) :
    Yields (compound S msg req) fun out =>
      Transcript S args.argarray { req with authCred := some msg.cred } out.answered
        out.reply.status out.request ∧
      out.reply.resarray = out.answered.filterMap Answered.result := by
  unfold compound
  rw [hargs]
  dsimp only
  rw [if_neg (UInt32.not_lt.2 hminor)]
  exact .bind ((dispatchAll_yields _ _).imp fun out hout => ⟨hout, rfl⟩)

/-- The operations of a call. -/
def operations (msg : CallBody) : List NfsArgOp := (msg.args.map Compound4args.argarray).getD []

/-- The reply to a call: nothing was attempted, or the operations of the call were, in its
flavour. -/
def Outcome.Transcribes (S : Server) (call : CallBody × SecFlavor) (out : Outcome) : Prop :=
  out.answered = [] ∨ ∃ req : Request, req.secFlavor = call.2 ∧
    Transcript S (operations call.1) req out.answered out.reply.status out.request

/-- The compounds of a connection return transcripts. -/
theorem serve_yields (c : Connection) (msgs : List (CallBody × SecFlavor))
    (cache : List (NfsFh4 × ℕ × Handle)) :
    Yields (serve S c msgs cache) fun outs => List.Forall₂ (fun call out =>
      Outcome.Transcribes S call out) msgs outs := by
  induction msgs generalizing cache with
  | nil => exact .nil
  | cons call rest ih =>
    obtain ⟨msg, flavor⟩ := call
    have hcompound : Yields (compound S msg
        (.new c.clientAddr c.defaultFmanager c.bootTime cache flavor)) fun out =>
          out.Transcribes S (msg, flavor) := by
      cases hargs : msg.args with
      | none =>
        unfold compound
        rw [hargs]
        exact .inl rfl
      | some args =>
        by_cases hminor : args.minorVersion ≤ 1
        · have hops : operations msg = args.argarray := by simp [operations, hargs]
          refine (compound_yields hargs hminor _).imp fun out hout => .inr ?_
          rw [← hops] at hout
          refine ⟨_, ?_, hout.1⟩
          rfl
        · unfold compound
          rw [hargs]
          dsimp only
          rw [if_pos (UInt32.not_le.1 hminor)]
          exact .inl rfl
    unfold serve
    refine .bind (yields_of_forall (fun _ => ?_) _)
    refine .bind (hcompound.imp fun out hout => ?_)
    exact .bind ((ih _).imp fun outs houts => .cons hout houts)

end NextNfs.Dispatcher
