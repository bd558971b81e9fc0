import NextNfs.Server.Handlers

set_option relaxedAutoImplicit false
set_option autoImplicit false

/-!
# Where a request is

The fields of a request about its export are set by one function, but not all of them each time, and
the current filehandle is set in many places. This module says where the fields come from, what the
filehandles of a request have in common, and that every operation of every compound keeps this, in
any environment that keeps some laws.

## Main definitions

* `NextNfs.Dispatcher.Origin` — where the fields of a request come from.
* `NextNfs.Dispatcher.Environment`, `NextNfs.Dispatcher.Environment.Lawful` — the rest of the server
  as an operation meets it.
* `NextNfs.Dispatcher.Environment.Placed` — the invariant of requests.

## Main results

* `NextNfs.Dispatcher.Environment.serve_sat` — every operation of a connection keeps the invariant.
-/

namespace NextNfs.Dispatcher

open Wire Dialogue

/-! ### Origins -/

/-- Where the fields of a request about its export come from. -/
inductive Origin
  | start | pseudoRoot | selected (e : UInt8)

namespace Origin

/-- The number of the current export. -/
def number : Origin → Option UInt8
  | start => none
  | pseudoRoot => some pseudoRootExportId
  | selected e => some e

/-- The file manager, of a connection whose requests start with the one given. -/
def manager (d : Option UInt8) : Origin → Option UInt8
  | start => d
  | pseudoRoot => none
  | selected e => some e

/-- The rate limiter, the quota manager and the access control. -/
def service : Origin → Option UInt8
  | selected e => some e
  | _ => none

/-- The read-only flag. -/
def readOnly (S : Server) : Origin → Bool
  | selected e => (S.exports e).readOnly
  | _ => false

/-- The fields come from there. -/
structure Sets (S : Server) (d : Option UInt8) (o : Origin) (ctx : Context) : Prop where
  cachedFmanager : ctx.cachedFmanager = o.manager d
  rateLimiter : ctx.rateLimiter = o.service
  quotaManager : ctx.quotaManager = o.service
  accessControl : ctx.accessControl = o.service
  readOnly : ctx.readOnly = o.readOnly S

end Origin

/-- The file system of an id: that of its export, except for the root that lists the exports. -/
def homeOf (id : NfsFh4) : Option UInt8 :=
  if exportIdFromFh id = pseudoRootExportId then none else some (exportIdFromFh id)

/-! ### Environments -/

namespace Question

/-- The questions about which there is nothing to say. -/
def plain : Question → Bool
  | .on .. | .execute .. | .createSession .. => false
  | _ => true

/-- The questions that do not select an export. -/
def neutral : Question → Bool
  | .arrive | .getExportById .. => false
  | _ => true

end Question

/-- The rest of the server as a connection meets it. -/
structure Environment (S : Server) (c : Connection) (σ : Type) where
  step : σ → (q : Question) → q.Answer → σ → Prop
  /-- What may be asked. -/
  Ok : σ → Question → Prop
  /-- A panic may happen. -/
  Crash : Prop
  /-- The operation may be executed. -/
  May : NfsArgOp → Request → Prop
  /-- The export was selected last. -/
  Selects : σ → UInt8 → Prop
  /-- The export is open to the client. -/
  Allowed : UInt8 → Prop
  /-- Filehandles have this property. -/
  Sound : Tag → Prop
  /-- A request from there may fail to select the export. -/
  Lost : Origin → UInt8 → Prop
  /-- The id is that of the root of the export. -/
  Root : UInt8 → NfsFh4 → Prop
  /-- The root of an export may be missing. -/
  Astray : Prop

namespace Environment

variable {S : Server} {c : Connection} {σ : Type} (E : Environment S c σ)

/-- What a request knows about the export it is on. -/
structure Located (s : σ) (o : Origin) (ctx : Context) : Prop where
  clientAddr : ctx.clientAddr = c.clientAddr
  sets : o.Sets S c.defaultFmanager ctx
  selects : ∀ e, o = .selected e → E.Selects s e ∧ e ≠ pseudoRootExportId
  number : ctx.currentExportId = o.number ∨
    ∃ e, ctx.currentExportId = some e ∧ e ≠ pseudoRootExportId ∧ E.Lost o e

/-- What the filehandles of a connection have in common. -/
structure Holds (tag : Tag) : Prop where
  home : tag.vfs = homeOf tag.id
  allowed : ∀ e, tag.vfs = some e → E.Allowed e
  sound : E.Sound tag

/-- The filehandle is of the current export or of that of the file manager. -/
def Near (ctx : Context) (id : NfsFh4) : Prop :=
  ctx.currentExportId = some (exportIdFromFh id) ∨ ctx.cachedFmanager = some (exportIdFromFh id)

/-- What the current filehandle is like. -/
structure Current (ctx : Context) (tag : Tag) : Prop extends E.Holds tag where
  near : Near ctx tag.id ∨ E.Astray
  number : ctx.currentExportId ≠ none

/-- The cache of a connection. -/
def Caches (cache : List (NfsFh4 × ℕ × Handle)) : Prop :=
  ∀ x ∈ cache, x.1 = x.2.2.id ∧ E.Holds x.2.2.tag

/-- The invariant of requests between operations. -/
structure Placed (s : σ) (req : Request) : Prop where
  located : ∃ o, E.Located s o req.toContext ∧ ∀ e, o = .selected e → E.Allowed e
  current : ∀ fh, req.filehandle = some fh → E.Current req.toContext fh.tag
  saved : ∀ fh, req.savedFilehandle = some fh → E.Holds fh.tag
  cache : E.Caches req.filehandleCache

end Environment

/-- The checks that come before an operation let it through. -/
structure Admitted (S : Server) (arg : NfsArgOp) (req : Request) : Prop where
  flavor : req.secAllowed S = true ∨ wrongsecExempt (opCode arg) = true
  readOnly : req.readOnly = true → isMutating arg = false
  oneExport : needsOneExport arg = true → req.cachedFmanager.isSome → req.isPseudoRoot = false →
    ∀ fh saved, req.filehandle = some fh → req.savedFilehandle = some saved →
      exportIdFromFh saved.id = exportIdFromFh fh.id

namespace Environment

variable {S : Server} {c : Connection} {σ : Type}

/-- The laws of an environment. -/
structure Lawful (E : Environment S c σ) : Prop where
  -- Exports have numbers, and one is selected until another is.
  default : c.defaultFmanager ≠ some pseudoRootExportId
  listed : ∀ {s l s'}, E.step s .listExports l s' → ∀ e ∈ l, e ≠ pseudoRootExportId
  named : ∀ {s name e s'}, E.step s (.getExportByName name) (some e) s' → e ≠ pseudoRootExportId
  keeps : ∀ {s q a s' e}, E.step s q a s' → q.neutral = true → E.Selects s e → E.Selects s' e
  selects : ∀ {s e ctx s'}, E.step s (.getExportById e ctx) true s' → E.Selects s' e
  loses : ∀ {s e ctx s' o}, E.step s (.getExportById e ctx) false s' →
    o.Sets S c.defaultFmanager ctx → E.Lost o e ∧ ∀ e', E.Selects s e' → E.Selects s' e'
  start : ∀ {e d}, E.Lost .start e → c.defaultFmanager = some d → E.Allowed d
  admits : ∀ {e}, (S.exports e).accessControl.checkClient c.clientAddr = true → E.Allowed e
  -- The file manager of an export gives filehandles of the export, and finds its root.
  gives : ∀ {s e} {call : Call} {a s' fh}, E.step s (.on (some e) call) a s' → call.Gives a fh →
    exportIdFromFh fh.id = e ∧ fh.vfs = some e ∧ (E.Allowed e → E.Sound fh.tag)
  soundRoot : ∀ {id}, E.Sound ⟨id, none, false⟩
  root : ∀ {s e fh s'}, E.step s (.on (some e) .getRootFilehandle) (.ok fh) s' → E.Root e fh.id
  found : ∀ {s e id f s'}, E.Root e id →
    E.step s (.on (some e) (.getFilehandleForId id)) (.error f) s' → E.Astray
  -- What may be asked, and when an operation may panic.
  may : ∀ {s arg req a s'}, E.step s (.execute arg req) a s' → E.May arg req
  plain : ∀ {s q}, q.plain = true → E.Ok s q
  executes : ∀ {s arg req}, E.Placed s req → Admitted S arg req → E.Ok s (.execute arg req)
  reads : ∀ {s e} {call : Call}, (∀ e', e = some e' → E.Allowed e') → call.modifies = false →
    E.Ok s (.on e call)
  asks : ∀ {s arg req q}, E.Placed s req → Admitted S arg req → E.May arg req → Asks arg req q →
    E.Ok s q
  lostManager : ∀ {o e}, E.Lost o e → o.manager c.defaultFmanager = none → E.Crash
  manager : ∀ {arg req}, E.May arg req → req.cachedFmanager = none → needsManager S arg req = true →
    E.Crash
  overflow : ∀ {args req}, E.May (.opallocate args) req →
    2 ^ 64 ≤ args.aaOffset.toNat + args.aaLength.toNat → E.Crash
  slots : ∀ {s id session s'}, E.step s (.getSession id) (some session) s' → session.slots = 0 →
    E.Crash
  locks : ∀ {s e path clientId owner access deny verifier fh s'},
    E.step s (.on e (.createFile path clientId owner access deny verifier)) (.ok fh) s' →
      fh.locks = [] → E.Crash

/-! ### The invariant -/

variable {E : Environment S c σ} {s s' : σ} {req : Request} {arg : NfsArgOp}

/-- What a request knows about its export is kept as long as no export is selected. -/
lemma Located.of_neutral (hE : E.Lawful) {o : Origin} {ctx : Context} (h : E.Located s o ctx)
    {q : Question} {a : q.Answer} (hstep : E.step s q a s') (hq : q.neutral = true) :
    E.Located s' o ctx :=
  ⟨h.clientAddr, h.sets,
    fun e he => ⟨hE.keeps hstep hq (h.selects e he).1, (h.selects e he).2⟩, h.number⟩

/-- The file manager of a request is that of an export. -/
lemma Located.manager_ne (hdefault : c.defaultFmanager ≠ some pseudoRootExportId) {o : Origin}
    {ctx : Context} (ho : E.Located s o ctx) {m : UInt8} (hm : ctx.cachedFmanager = some m) :
    m ≠ pseudoRootExportId := by
  have hmanager := ho.sets.cachedFmanager
  rw [hm] at hmanager
  cases o with
  | start => exact fun heq => hdefault (by rw [← heq]; exact hmanager.symm)
  | pseudoRoot => cases hmanager
  | selected e =>
    cases hmanager
    exact (ho.selects m rfl).2

/-- The invariant is kept as long as no export is selected. -/
lemma Placed.of_neutral (hE : E.Lawful) (h : E.Placed s req) {q : Question} {a : q.Answer}
    (hstep : E.step s q a s') (hq : q.neutral = true) : E.Placed s' req := by
  obtain ⟨o, ho, hallowed⟩ := h.located
  exact ⟨⟨o, ho.of_neutral hE hstep hq, hallowed⟩, h.current, h.saved, h.cache⟩

/-- With a current filehandle, the export of the file manager is open to the client. -/
lemma Placed.allowed_manager
    (hstart : ∀ {e d}, E.Lost .start e → c.defaultFmanager = some d → E.Allowed d)
    (h : E.Placed s req) {e : UInt8} (hfh : req.filehandle.isSome)
    (he : req.cachedFmanager = some e) : E.Allowed e := by
  obtain ⟨fh, hfh⟩ := Option.isSome_iff_exists.1 hfh
  obtain ⟨o, ho, hallowed⟩ := h.located
  have hmanager := ho.sets.cachedFmanager
  rw [he] at hmanager
  cases o with
  | start =>
    obtain hnumber | ⟨e', -, -, hlost⟩ := ho.number
    · exact absurd hnumber (h.current fh hfh).number
    · exact hstart hlost hmanager.symm
  | pseudoRoot => cases hmanager
  | selected e' =>
    cases hmanager
    exact hallowed e rfl

/-- The filehandles that the file manager of a request gives. -/
lemma Placed.current_of_gives (hE : E.Lawful) (h : E.Placed s req) {e : UInt8}
    (hsome : req.filehandle.isSome) (he : req.cachedFmanager = some e) {t t' : σ} {call : Call}
    {a : call.Answer} {fh : Handle} (hstep : E.step t (.on (some e) call) a t')
    (hgives : call.Gives a fh) : E.Current req.toContext fh.tag := by
  have hallowed := h.allowed_manager hE.start hsome he
  obtain ⟨fh', hfh'⟩ := Option.isSome_iff_exists.1 hsome
  obtain ⟨hid, hvfs, hsound⟩ := hE.gives hstep hgives
  obtain ⟨o, ho, -⟩ := h.located
  have hroot := ho.manager_ne hE.default he
  refine ⟨⟨?_, ?_, hsound hallowed⟩, .inl (.inr ?_), (h.current fh' hfh').number⟩
  · simp [Handle.tag, homeOf, hid, hvfs, hroot]
  · intro e' he'
    have : some e = some e' := hvfs.symm.trans he'
    cases this
    exact hallowed
  · simp [Handle.tag, hid, he]

/-- An operation that stays on its export keeps the invariant. -/
lemma Placed.of_stays {req' : Request} (h : E.Placed s req)
    (hstays : Stays (E.Current req.toContext) req req') : E.Placed s req' := by
  refine ⟨?_, fun fh hfh => ?_, fun fh hfh => ?_, fun x hx => ?_⟩
  · rw [hstays.context]
    exact h.located
  · rw [hstays.context]
    exact (hstays.filehandle fh hfh).1
  · obtain hsaved | hsaved := hstays.saved
    · exact h.saved fh (hsaved ▸ hfh)
    · exact (h.current fh (hsaved ▸ hfh)).toHolds
  · obtain hx | ⟨hid, hcur, -⟩ := hstays.cache x hx
    · exact h.cache x hx
    · exact ⟨hid, hcur.toHolds⟩

/-! ### The operations that stay on their export -/

/-- What is known when an operation is executed. -/
lemma Placed.ready (hE : E.Lawful) (h : E.Placed s req) (hmay : E.May arg req) :
    Ready S (fun q a => ∃ t t', E.step t q a t') E.Crash (E.Current req.toContext) arg req where
  current := h.current
  gives := fun hsome _ he _ _ _ ⟨_, _, hstep⟩ hgives => h.current_of_gives hE hsome he hstep hgives
  manager := hE.manager hmay
  overflow := fun _ harg => hE.overflow (harg ▸ hmay)
  slots := fun _ _ ⟨_, _, hstep⟩ => hE.slots hstep
  locks := fun _ _ _ _ _ _ _ _ ⟨_, _, hstep⟩ => hE.locks hstep

/-- The questions of an operation that stays on its export select no export. -/
lemma neutral_of_asks {q : Question} (h : Asks arg req q) : q.neutral = true := by
  cases q <;> first | rfl | exact absurd h id

/-- An operation that stays on its export keeps the invariant. -/
lemma execute_sat_of_stationary (hE : E.Lawful) (h : E.Placed s req) (hadm : Admitted S arg req)
    (hmay : E.May arg req) (hstationary : stationary arg req = true) :
    (execute S arg req).Sat E.step E.Ok E.Crash s fun r s' =>
      Stays (E.Current req.toContext) req r.request ∧ E.Placed s' req := by
  have hdoes := execute_conducts (h.ready hE hmay) hstationary
  refine (hdoes.sat (I := fun t => E.Placed t req) h
    (fun t q a t' ht hq hstep => ⟨⟨t, t', hstep⟩, ?_⟩)
    (fun t q ht hq => hE.asks ht hadm hmay hq) id).mono fun r t hr => ⟨hr.1.1, hr.2⟩
  exact ht.of_neutral hE hstep (neutral_of_asks hq)

/-! ### The operations that move -/

/-- What an operation leaves: the cache, and if it succeeds the invariant. -/
def Leaves (E : Environment S c σ) (r : Response) (s : σ) : Prop :=
  E.Caches r.request.filehandleCache ∧ (r.status = .nfs4Ok → E.Placed s r.request)

/-- A failure leaves the cache. -/
lemma Leaves.of_failure {r : Response} (hcache : E.Caches r.request.filehandleCache)
    (hstatus : r.status ≠ .nfs4Ok) : E.Leaves r s := ⟨hcache, fun h => absurd h hstatus⟩

/-- A question about which there is nothing to say. -/
lemma query_sat (hE : E.Lawful) {q : Question} (hq : q.plain = true) {post : q.Answer → σ → Prop}
    (hpost : ∀ a s', E.step s q a s' → post a s') :
    (query q).Sat E.step E.Ok E.Crash s post := ⟨hE.plain hq, hpost⟩

/-- A question about a file. -/
lemma ask_sat (hE : E.Lawful) {e : Option UInt8} (hallowed : ∀ e', e = some e' → E.Allowed e')
    {call : Call} (hmod : call.modifies = false) {post : call.Answer → σ → Prop}
    (hpost : ∀ a s', E.step s (.on e call) a s' → post a s') :
    (ask e call).Sat E.step E.Ok E.Crash s post := ⟨hE.reads hallowed hmod, hpost⟩

/-- A question to the file manager of a request. -/
lemma askManager_sat (hE : E.Lawful) {e : UInt8} (he : req.cachedFmanager = some e)
    (hallowed : E.Allowed e) {call : Call} (hmod : call.modifies = false)
    {post : call.Answer → σ → Prop}
    (hpost : ∀ a s', E.step s (.on (some e) call) a s' → post a s') :
    (req.askManager call).Sat E.step E.Ok E.Crash s post := by
  unfold Request.askManager Request.fileManager
  rw [he]
  refine ⟨hE.reads (fun e' he' => ?_) hmod, hpost⟩
  cases he'
  exact hallowed

/-- A question to a file manager that is not there. -/
lemma askManager_sat_of_none (he : req.cachedFmanager = none) (hcrash : E.Crash) {call : Call}
    {post : call.Answer → σ → Prop} :
    (req.askManager call).Sat E.step E.Ok E.Crash s post := by
  unfold Request.askManager Request.fileManager
  rw [he]
  exact hcrash

/-- The origin of a request after an export is selected: the root that lists the exports, the
export, or what it was if the export is not there. -/
inductive Arrives (E : Environment S c σ) (o : Origin) (id : UInt8) : Origin → Prop
  | pseudoRoot : id = pseudoRootExportId → Arrives E o id .pseudoRoot
  | selected : id ≠ pseudoRootExportId → Arrives E o id (.selected id)
  | lost : id ≠ pseudoRootExportId → E.Lost o id → Arrives E o id o

/-- The filehandles of a request stay as they are. -/
structure SameHandles (req req' : Request) : Prop where
  filehandle : req'.filehandle = req.filehandle
  savedFilehandle : req'.savedFilehandle = req.savedFilehandle
  filehandleCache : req'.filehandleCache = req.filehandleCache

namespace SameHandles

variable {req' : Request} (h : SameHandles req req')

include h

lemma caches (hcache : E.Caches req.filehandleCache) : E.Caches req'.filehandleCache := by
  rw [h.filehandleCache]
  exact hcache

lemma saved (hsaved : ∀ fh, req.savedFilehandle = some fh → E.Holds fh.tag) :
    ∀ fh, req'.savedFilehandle = some fh → E.Holds fh.tag := by
  rw [h.savedFilehandle]
  exact hsaved

end SameHandles

/-- `set_export`. -/
lemma setExport_sat (hE : E.Lawful) {o : Origin} (ho : E.Located s o req.toContext) (id : UInt8)
    {post : Request → σ → Prop}
    (hpost : ∀ req' o' s', SameHandles req req' → req'.currentExportId = some id →
      E.Located s' o' req'.toContext → Arrives E o id o' → post req' s') :
    (req.setExport S id).Sat E.step E.Ok E.Crash s post := by
  unfold Request.setExport
  split_ifs with hid
  · refine hpost req.onPseudoRoot .pseudoRoot s ⟨rfl, rfl, rfl⟩ ?_
      ⟨ho.clientAddr, ⟨rfl, rfl, rfl, rfl, rfl⟩, nofun, .inl rfl⟩ (.pseudoRoot hid)
    rw [hid]
    rfl
  · refine .bind (query_sat hE rfl fun known s' hstep => ?_)
    cases known with
    | true =>
      refine hpost (req.onExport S id) (.selected id) s' ⟨rfl, rfl, rfl⟩ rfl
        ⟨ho.clientAddr, ⟨rfl, rfl, rfl, rfl, rfl⟩, fun e he => ?_, .inl rfl⟩ (.selected hid)
      cases he
      exact ⟨hE.selects hstep, hid⟩
    | false =>
      obtain ⟨hlost, hkeeps⟩ := hE.loses hstep ho.sets
      have hsets : o.Sets S c.defaultFmanager { req.toContext with currentExportId := some id } :=
        ⟨ho.sets.1, ho.sets.2, ho.sets.3, ho.sets.4, ho.sets.5⟩
      exact hpost { req with currentExportId := some id } o s' ⟨rfl, rfl, rfl⟩ rfl
        ⟨ho.clientAddr, hsets, fun e he => ⟨hkeeps e (ho.selects e he).1, (ho.selects e he).2⟩,
          .inr ⟨id, rfl, hid, hlost⟩⟩ (.lost hid hlost)

/-- `check_client_access` lets in those who are allowed on the export. -/
lemma Located.allowed_of_check (hE : E.Lawful) {o : Origin} (ho : E.Located s o req.toContext)
    (hcheck : req.checkClientAccess S = true) {e : UInt8} (he : o = .selected e) : E.Allowed e := by
  subst he
  have haccess : req.access S = some (S.exports e).accessControl := by
    have hac : req.accessControl = some e := ho.sets.accessControl
    simp [Request.access, hac]
  refine hE.admits ?_
  rw [← ho.clientAddr]
  simpa [Request.checkClientAccess, haccess] using hcheck

/-- The root that lists the exports. -/
lemma enterPseudoRoot_sat (hE : E.Lawful) {o : Origin} (ho : E.Located s o req.toContext)
    (hsaved : ∀ fh, req.savedFilehandle = some fh → E.Holds fh.tag)
    (hcache : E.Caches req.filehandleCache) {id : NfsFh4}
    (hid : exportIdFromFh id = pseudoRootExportId) {post : Request → σ → Prop}
    (hpost : ∀ req' s', E.Placed s' req' → post req' s') :
    (enterPseudoRoot S id req).Sat E.step E.Ok E.Crash s post := by
  unfold enterPseudoRoot
  refine .bind (setExport_sat hE ho _ fun req₁ o' s₁ hsame hnumber ho' harrives => ?_)
  refine .bind (query_sat hE rfl fun now s₂ hstep => ?_)
  cases harrives with
  | selected hne => exact absurd rfl hne
  | lost hne => exact absurd rfl hne
  | pseudoRoot =>
    refine hpost _ s₂ ⟨⟨.pseudoRoot, ho'.of_neutral hE hstep rfl, nofun⟩, ?_,
      hsame.saved hsaved, hsame.caches hcache⟩
    intro fh hfh
    cases hfh
    have hhome : homeOf id = none := by simp [homeOf, hid]
    refine ⟨⟨hhome.symm, nofun, hE.soundRoot⟩, .inl (.inl ?_), ?_⟩
    · exact hnumber.trans (by rw [← hid]; rfl)
    · exact hnumber.trans_ne nofun

/-- A request on a known number is on the export, on the root that lists the exports, or lost. -/
lemma Located.arrives {o : Origin} {ctx : Context} (ho : E.Located s o ctx) {id : UInt8}
    (hid : ctx.currentExportId = some id) : Arrives E o id o := by
  obtain hnumber | ⟨e, he, hne, hlost⟩ := ho.number
  · have hnumber' : some id = o.number := hid.symm.trans hnumber
    cases o with
    | start => cases hnumber'
    | pseudoRoot =>
      cases hnumber'
      exact .pseudoRoot rfl
    | selected e =>
      cases hnumber'
      exact .selected (ho.selects _ rfl).2
  · cases hid.symm.trans he
    exact .lost hne hlost

/-- `set_export` for the export of an id. -/
lemma switchExport_sat (hE : E.Lawful) {o : Origin} (ho : E.Located s o req.toContext)
    {id : NfsFh4} {post : Request → σ → Prop}
    (hpost : ∀ req' o' s', SameHandles req req' →
      req'.currentExportId = some (exportIdFromFh id) → E.Located s' o' req'.toContext →
      Arrives E o (exportIdFromFh id) o' →
      (req.currentExportId = some (exportIdFromFh id) → o' = o) → post req' s') :
    (req.switchExport S id).Sat E.step E.Ok E.Crash s post := by
  unfold Request.switchExport
  split_ifs with hsame
  · exact setExport_sat hE ho _ fun req' o' s' hhandles hnumber ho' harrives =>
      hpost req' o' s' hhandles hnumber ho' harrives fun heq => absurd heq hsame
  · have hnumber : req.currentExportId = some (exportIdFromFh id) := not_not.1 hsame
    exact hpost req o s ⟨rfl, rfl, rfl⟩ hnumber ho (ho.arrives hnumber) fun _ => rfl

/-- An export that is entered is open to the client if it was before, or if it is known to be. -/
lemma Arrives.allowed {o o' : Origin} {id : UInt8} (h : Arrives E o id o') {number : Option UInt8}
    (hsame : number = some id → o' = o) (hallowed : ∀ e, o = .selected e → E.Allowed e)
    (hid : number ≠ some id → id ≠ pseudoRootExportId → E.Allowed id) :
    ∀ e, o' = .selected e → E.Allowed e := by
  intro e he
  by_cases hnumber : number = some id
  · exact hallowed e (hsame hnumber ▸ he)
  · cases h with
    | pseudoRoot => cases he
    | selected hne =>
      cases he
      exact hid hnumber hne
    | lost => exact hallowed e he

/-- The file manager of a request that has arrived: if there is none, the export is the root that
lists the exports, or a panic is due. -/
lemma Arrives.manager (hE : E.Lawful) {o o' : Origin} {id : UInt8} (h : Arrives E o id o')
    (hallowed : ∀ e, o' = .selected e → E.Allowed e) (hid : id ≠ pseudoRootExportId) :
    (∃ m, o'.manager c.defaultFmanager = some m ∧ E.Allowed m) ∨
      (o'.manager c.defaultFmanager = none ∧ E.Crash) := by
  cases h with
  | pseudoRoot heq => exact absurd heq hid
  | selected => exact .inl ⟨id, rfl, hallowed id rfl⟩
  | lost hne hlost =>
    cases hm : o.manager c.defaultFmanager with
    | none => exact .inr ⟨rfl, hE.lostManager hlost hm⟩
    | some m =>
      refine .inl ⟨m, rfl, ?_⟩
      cases o with
      | start => exact hE.start hlost hm
      | pseudoRoot => cases hm
      | selected e =>
        cases hm
        exact hallowed m rfl

/-- A filehandle that the file manager of a request gives is set. -/
lemma Located.placed_of_gives (hE : E.Lawful) {o : Origin} (ho : E.Located s o req.toContext)
    (hallowed : ∀ e, o = .selected e → E.Allowed e)
    (hsaved : ∀ fh, req.savedFilehandle = some fh → E.Holds fh.tag)
    (hcache : E.Caches req.filehandleCache) {m : UInt8} (hm : req.cachedFmanager = some m)
    (hmAllowed : E.Allowed m) (hnumber : req.currentExportId ≠ none) {t t' : σ} {call : Call}
    {a : call.Answer} {fh : Handle} (hstep : E.step t (.on (some m) call) a t')
    (hgives : call.Gives a fh) :
    E.Placed s (req.setFilehandle fh) := by
  obtain ⟨hid, hvfs, hsound⟩ := hE.gives hstep hgives
  have hroot := ho.manager_ne hE.default hm
  refine ⟨⟨o, ho, hallowed⟩, fun fh' hfh' => ?_, hsaved, hcache⟩
  cases hfh'
  refine ⟨⟨?_, ?_, hsound hmAllowed⟩, .inl (.inr ?_), hnumber⟩
  · simp [Handle.tag, homeOf, hid, hvfs, hroot]
  · intro e he
    cases hvfs.symm.trans he
    exact hmAllowed
  · exact hm.trans (by rw [← hid]; rfl)

/-- `set_filehandle_id`. -/
lemma setFilehandleId_sat (hE : E.Lawful) {o : Origin} (ho : E.Located s o req.toContext)
    (hallowed : ∀ e, o = .selected e → E.Allowed e)
    (hsaved : ∀ fh, req.savedFilehandle = some fh → E.Holds fh.tag)
    (hcache : E.Caches req.filehandleCache) {id : NfsFh4}
    (hid : req.currentExportId ≠ some (exportIdFromFh id) →
      exportIdFromFh id ≠ pseudoRootExportId → E.Allowed (exportIdFromFh id))
    {post : Request × Except Failure Handle → σ → Prop}
    (hok : ∀ req' fh s', E.Placed s' req' → E.Holds fh.tag → post (req', .ok fh) s')
    (herror : ∀ req' o' f s', SameHandles req req' → E.Located s' o' req'.toContext →
      (∀ e, o' = .selected e → E.Allowed e) → req'.currentExportId ≠ none →
      exportIdFromFh id = pseudoRootExportId ∨ (∃ m t f', Arrives E o (exportIdFromFh id) o' ∧
        o'.manager c.defaultFmanager = some m ∧
        E.step t (.on (some m) (.getFilehandleForId id)) (.error f') s') →
      post (req', .error f) s') :
    (req.setFilehandleId S id).Sat E.step E.Ok E.Crash s post := by
  unfold Request.setFilehandleId
  refine .bind (switchExport_sat hE ho fun req₁ o' s' hhandles hnumber ho' harrives hsame => ?_)
  have hallowed' := harrives.allowed hsame hallowed hid
  split_ifs with hroot
  · exact herror _ o' _ s' hhandles ho' hallowed' (hnumber.trans_ne nofun) (.inl hroot)
  · obtain ⟨m, hm, hmAllowed⟩ | ⟨hm, hcrash⟩ := harrives.manager hE hallowed' hroot
    · have hmanager : req₁.cachedFmanager = some m := ho'.sets.cachedFmanager.trans hm
      refine .bind (askManager_sat hE hmanager hmAllowed rfl fun res s'' hstep => ?_)
      cases res with
      | error f => 
        exact herror _ o' _ s'' hhandles (ho'.of_neutral hE hstep rfl) hallowed'
          (hnumber.trans_ne nofun) (.inr ⟨m, s', f, harrives, hm, hstep⟩)
      | ok fh =>
        have hplaced := (ho'.of_neutral hE hstep rfl).placed_of_gives hE hallowed'
          (hhandles.saved hsaved) (hhandles.caches hcache) hmanager hmAllowed
          (hnumber.trans_ne nofun) hstep rfl
        exact hok _ fh s'' hplaced (hplaced.current fh rfl).toHolds
    · exact .bind (askManager_sat_of_none (ho'.sets.cachedFmanager.trans hm) hcrash)

/-- `cache_filehandle`. -/
lemma cacheFilehandle_sat (hE : E.Lawful) (h : E.Placed s req) {fh : Handle} (hfh : E.Holds fh.tag)
    {post : Request → σ → Prop}
    (hpost : ∀ cache s', E.Placed s' { req with filehandleCache := cache } →
      E.Placed s' req → post { req with filehandleCache := cache } s') :
    (req.cacheFilehandle fh).Sat E.step E.Ok E.Crash s post := by
  unfold Request.cacheFilehandle
  refine .bind (query_sat hE rfl fun now s' hstep => ?_)
  have h' := h.of_neutral hE hstep rfl
  refine hpost _ s' ⟨h'.located, h'.current, h'.saved, fun x hx => ?_⟩ h'
  rcases List.mem_cons.1 hx with rfl | hx
  · exact ⟨rfl, hfh⟩
  · exact h'.cache x (List.mem_filter.1 hx).1

/-- `get_filehandle_from_cache`: what is found is in the cache under the id. -/
lemma getFilehandleFromCache_sat (hE : E.Lawful) {o : Origin} (ho : E.Located s o req.toContext)
    (hcache : E.Caches req.filehandleCache) {id : NfsFh4}
    {post : Request × Option Handle → σ → Prop}
    (hpost : ∀ req' found s', req'.toContext = req.toContext →
      req'.savedFilehandle = req.savedFilehandle → E.Located s' o req'.toContext →
      E.Caches req'.filehandleCache → (∀ fh, found = some fh → fh.id = id ∧ E.Holds fh.tag) →
      post (req', found) s') :
    (req.getFilehandleFromCache id).Sat E.step E.Ok E.Crash s post := by
  have hdropped : ∀ id', E.Caches (req.dropFilehandleFromCache id').filehandleCache :=
    fun id' x hx => hcache x (List.mem_filter.1 hx).1
  unfold Request.getFilehandleFromCache
  cases hfind : req.filehandleCache.find? fun e => e.1 == id with
  | none => exact hpost req none s rfl rfl ho hcache fun _ hfh => nomatch hfh
  | some x =>
    obtain ⟨key, time, fh⟩ := x
    have hkey : key = id := by simpa using List.find?_some hfind
    obtain ⟨hid, hfh⟩ := hcache _ (List.mem_of_find?_eq_some hfind)
    dsimp only at hid hfh ⊢
    refine .bind (query_sat hE rfl fun now s₁ hstep₁ => ?_)
    have ho₁ := ho.of_neutral hE hstep₁ rfl
    split_ifs
    · exact hpost _ none s₁ rfl rfl ho₁ (hdropped _) fun _ hfh => nomatch hfh
    · refine .bind (ask_sat hE hfh.allowed rfl fun there s₂ hstep₂ => ?_)
      have ho₂ := ho₁.of_neutral hE hstep₂ rfl
      split_ifs
      · refine hpost req (some fh) s₂ rfl rfl ho₂ hcache fun fh' hfh' => ?_
        cases hfh'
        exact ⟨hid.symm.trans hkey, hfh⟩
      · exact hpost _ none s₂ rfl rfl ho₂ (hdropped _) fun _ hfh => nomatch hfh

/-- PUTFH. -/
lemma putfh_sat (hE : E.Lawful) (h : E.Placed s req) (args : PutFh4args) :
    (putfh S args req).Sat E.step E.Ok E.Crash s E.Leaves := by
  obtain ⟨o, ho, hallowed⟩ := h.located
  unfold putfh
  dsimp only
  split_ifs with hroot
  · have hid : exportIdFromFh args.object = pseudoRootExportId := by
      simp only [isPseudoRootFh, Bool.and_eq_true, beq_iff_eq] at hroot
      exact hroot.2
    exact .bind (enterPseudoRoot_sat hE ho h.saved h.cache hid fun req' s' h' =>
      ⟨h'.cache, fun _ => h'⟩)
  · refine .bind (switchExport_sat hE ho fun req₁ o' s₁ hhandles hnumber ho₁ _ _ => ?_)
    have hcache₁ := hhandles.caches h.cache
    split_ifs with hcheck
    · exact .of_failure hcache₁ nofun
    · have hallowed₁ : ∀ e, o' = .selected e → E.Allowed e := fun e he =>
        ho₁.allowed_of_check hE (by simpa using hcheck) he
      refine .bind (getFilehandleFromCache_sat hE ho₁ hcache₁
        fun req₂ found s₂ hctx hsaved ho₂ hcache₂ hfound => ?_)
      have hnumber₂ : req₂.currentExportId = some (exportIdFromFh args.object) :=
        (congrArg Context.currentExportId hctx).trans hnumber
      have hsaved₂ : ∀ fh, req₂.savedFilehandle = some fh → E.Holds fh.tag :=
        hsaved ▸ hhandles.saved h.saved
      cases found with
      | some fh =>
        obtain ⟨hid, hfh⟩ := hfound fh rfl
        refine ⟨hcache₂, fun _ => ⟨⟨o', ho₂, hallowed₁⟩, fun fh' hfh' => ?_, hsaved₂, hcache₂⟩⟩
        cases hfh'
        exact ⟨hfh, .inl (.inl (hnumber₂.trans (by rw [← hid]; rfl))), hnumber₂.trans_ne nofun⟩
      | none =>
        refine .bind (setFilehandleId_sat hE ho₂ hallowed₁ hsaved₂ hcache₂
          (fun hne => absurd hnumber₂ hne) (fun req' fh s₃ h₃ hfh => ?_)
          fun req' _ f s₃ hhandles' _ _ _ _ => ?_)
        · exact .bind (cacheFilehandle_sat hE h₃ hfh fun cache s₄ h₄ _ => ⟨h₄.cache, fun _ => h₄⟩)
        · exact .of_failure (hhandles'.caches hcache₂) f.2

/-- PUTROOTFH and PUTPUBFH. -/
lemma putRootFilehandle_sat (hE : E.Lawful) (h : E.Placed s req) :
    (putRootFilehandle S req).Sat E.step E.Ok E.Crash s E.Leaves := by
  unfold putRootFilehandle
  refine .bind (query_sat hE rfl fun exports s₁ hlist => ?_)
  have h₁ := h.of_neutral hE hlist rfl
  obtain ⟨o, ho, hallowed⟩ := h₁.located
  split
  · rename_i e
    have he : e ≠ pseudoRootExportId := hE.listed hlist e (by simp)
    refine .bind (setExport_sat hE ho e fun req₂ o₂ s₂ hhandles hnumber ho₂ harrives => ?_)
    have hcache := hhandles.caches h.cache
    split_ifs with hcheck
    · exact .of_failure hcache nofun
    · have hallowed₂ : ∀ e, o₂ = .selected e → E.Allowed e := fun e he =>
        ho₂.allowed_of_check hE (by simpa using hcheck) he
      obtain ⟨m, hm, hmAllowed⟩ | ⟨hm, hcrash⟩ := harrives.manager hE hallowed₂ he
      · have hmanager : req₂.cachedFmanager = some m := ho₂.sets.cachedFmanager.trans hm
        refine .bind (askManager_sat hE hmanager hmAllowed rfl fun root s₃ hroot => ?_)
        cases root with
        | error f => exact .of_failure hcache nofun
        | ok fh =>
          have hid : exportIdFromFh fh.id = m := (hE.gives hroot rfl).1
          refine .bind (setFilehandleId_sat hE (ho₂.of_neutral hE hroot rfl) hallowed₂
            (hhandles.saved h.saved) hcache (fun _ _ => hid ▸ hmAllowed)
            (fun req' fh' s₄ h₄ _ => ⟨h₄.cache, fun _ => h₄⟩)
            fun req' o' f s₄ hhandles' ho' hallowed' hnumber' herror => ?_)
          -- The failure is passed over, and the current filehandle stays as it was.
          have hastray : E.Astray := by
            obtain hpseudo | ⟨m', t, f', harrives', hm', hstep⟩ := herror
            · exact absurd (hid.symm.trans hpseudo) (ho₂.manager_ne hE.default hmanager)
            · have hsame : m' = m := by
                cases harrives' with
                | pseudoRoot heq => cases hm'
                | selected => exact (Option.some.inj hm').symm.trans hid
                | lost => exact Option.some.inj (hm'.symm.trans hm)
              exact hE.found (hE.root hroot) (hsame ▸ hstep)
          refine ⟨hhandles'.caches hcache, fun _ => ⟨⟨o', ho', hallowed'⟩, fun fh' hfh' => ?_,
            hhandles'.saved (hhandles.saved h.saved), hhandles'.caches hcache⟩⟩
          have hold := h.current fh' (hhandles.filehandle ▸ hhandles'.filehandle ▸ hfh')
          exact ⟨hold.toHolds, .inr hastray, hnumber'⟩
      · exact .bind (askManager_sat_of_none (ho₂.sets.cachedFmanager.trans hm) hcrash)
  · exact .bind (enterPseudoRoot_sat hE ho h.saved h.cache rfl fun req' s' h' =>
      ⟨h'.cache, fun _ => h'⟩)

/-- RESTOREFH. -/
lemma restoreFilehandle_sat (hE : E.Lawful) (h : E.Placed s req) :
    (restoreFilehandle S req).Sat E.step E.Ok E.Crash s E.Leaves := by
  obtain ⟨o, ho, hallowed⟩ := h.located
  unfold restoreFilehandle
  cases hsaved : req.savedFilehandle with
  | none => exact .of_failure h.cache nofun
  | some saved =>
    have hfh := h.saved saved hsaved
    unfold Request.restoreFilehandle
    refine .bind (.bind (switchExport_sat hE ho fun req₁ o₁ s₁ hhandles hnumber ho₁ harrives
      hsame => ?_))
    have hcache := hhandles.caches h.cache
    have hallowed₁ := harrives.allowed hsame hallowed fun _ hne =>
      hfh.allowed _ (hfh.home.trans (if_neg hne))
    refine ⟨hcache, fun _ => ⟨⟨o₁, ho₁, hallowed₁⟩, fun fh hfh' => ?_, hhandles.saved h.saved,
      hcache⟩⟩
    cases hfh'
    exact ⟨hfh, .inl (.inl hnumber), hnumber.trans_ne nofun⟩

/-- The number of its export is in an id already. -/
lemma stamp_eq (id : NfsFh4) (h : (id.head :: exportIdFromFh id :: id.toList.drop 2).length = 26) :
    (⟨id.head :: exportIdFromFh id :: id.toList.drop 2, h⟩ : NfsFh4) = id := by
  obtain ⟨l, hl⟩ := id
  match l, hl with
  | a :: b :: l, hl => rfl

/-- LOOKUP at the root that lists the exports. -/
lemma lookupExport_sat (hE : E.Lawful) (h : E.Placed s req) (hroot : req.isPseudoRoot = true)
    (args : Lookup4args) : (lookupExport S args req).Sat E.step E.Ok E.Crash s E.Leaves := by
  unfold lookupExport
  refine .bind (query_sat hE rfl fun found s₁ hnamed => ?_)
  have h₁ := h.of_neutral hE hnamed rfl
  obtain ⟨o, ho, -⟩ := h₁.located
  have horigin : o = .pseudoRoot := by
    have hnumber : req.currentExportId = some pseudoRootExportId := by
      simpa [Request.isPseudoRoot] using hroot
    cases ho.arrives hnumber with
    | pseudoRoot => rfl
    | selected hne => exact absurd rfl hne
    | lost hne => exact absurd rfl hne
  subst horigin
  cases found with
  | none => exact .of_failure h.cache nofun
  | some e =>
    refine .bind (setExport_sat hE ho e fun req₂ o₂ s₂ hhandles hnumber ho₂ harrives => ?_)
    have hcache := hhandles.caches h.cache
    split_ifs with hcheck
    · exact .of_failure hcache nofun
    · cases harrives with
      | pseudoRoot heq => exact absurd heq (hE.named hnamed)
      | lost hne hlost =>
        exact .bind (askManager_sat_of_none ho₂.sets.cachedFmanager (hE.lostManager hlost rfl))
      | selected hne =>
        have hallowed₂ : E.Allowed e := ho₂.allowed_of_check hE (by simpa using hcheck) rfl
        have hmanager : req₂.cachedFmanager = some e := ho₂.sets.cachedFmanager
        refine .bind (askManager_sat hE hmanager hallowed₂ rfl fun root s₃ hstep => ?_)
        cases root with
        | error f => exact .of_failure hcache nofun
        | ok fh =>
          refine ⟨hcache, fun _ => ?_⟩
          obtain rfl : exportIdFromFh fh.id = e := (hE.gives hstep rfl).1
          have hplaced := (ho₂.of_neutral hE hstep rfl).placed_of_gives hE
            (fun e' he' => by cases he'; exact hallowed₂) (hhandles.saved h.saved) hcache hmanager
            hallowed₂ (hnumber.trans_ne nofun) hstep rfl
          simpa only [Response.some, stamp_eq] using hplaced

/-- With a current filehandle, away from the root that lists the exports, there is a file manager or
a panic is due. -/
lemma Placed.manager (hE : E.Lawful) (h : E.Placed s req) (hroot : req.isPseudoRoot = false)
    (hsome : req.filehandle.isSome) :
    (∃ m, req.cachedFmanager = some m ∧ E.Allowed m) ∨ (req.cachedFmanager = none ∧ E.Crash) := by
  obtain ⟨fh, hfh⟩ := Option.isSome_iff_exists.1 hsome
  obtain ⟨o, ho, hallowed⟩ := h.located
  obtain ⟨x, hx⟩ := Option.ne_none_iff_exists'.1 (h.current fh hfh).number
  have hne : x ≠ pseudoRootExportId := by
    simpa [Request.isPseudoRoot, hx] using hroot
  rw [ho.sets.cachedFmanager]
  exact (ho.arrives hx).manager hE hallowed hne

/-- LOOKUPP from the root of an export keeps the invariant. -/
lemma lookupParent_sat_of_exports (hE : E.Lawful) (h : E.Placed s req)
    (hroot : req.isPseudoRoot = false) {fh : Handle} (hfh : req.filehandle = some fh)
    (exports : List UInt8) :
    (if exports.length > 1 then do
      let req ← enterPseudoRoot S pseudoRootFh req
      pure (Response.some req (.oplookupp ⟨.nfs4Ok⟩) .nfs4Ok)
    else do
      let found : Except Failure Handle ←
        req.askManager (.getFilehandleForPath (pathStr fh.file.parent))
      match found with
      | .ok fh => pure (Response.some (req.setFilehandle fh) (.oplookupp ⟨.nfs4Ok⟩) .nfs4Ok)
      | .error _ => pure (Response.some req (.oplookupp ⟨.nfs4errNoent⟩) .nfs4errNoent) :
      Op Response).Sat E.step E.Ok E.Crash s E.Leaves := by
  split_ifs
  · obtain ⟨o, ho, -⟩ := h.located
    exact .bind (enterPseudoRoot_sat hE ho h.saved h.cache rfl fun req' s' h' =>
      ⟨h'.cache, fun _ => h'⟩)
  · obtain ⟨m, hm, hmAllowed⟩ | ⟨hm, hcrash⟩ := h.manager hE hroot (by simp [hfh])
    · refine .bind (askManager_sat hE hm hmAllowed rfl fun found s' hstep => ?_)
      have h' := h.of_neutral hE hstep rfl
      cases found with
      | error f => exact .of_failure h.cache nofun
      | ok fh' =>
        obtain ⟨o, ho, hallowed⟩ := h'.located
        exact ⟨h.cache, fun _ => ho.placed_of_gives hE hallowed h.saved h.cache hm hmAllowed
          (h.current fh hfh).number hstep rfl⟩
    · exact .bind (askManager_sat_of_none hm hcrash)

/-- LOOKUPP. -/
lemma lookupParent_sat (hE : E.Lawful) (h : E.Placed s req) :
    (lookupParent S req).Sat E.step E.Ok E.Crash s E.Leaves := by
  unfold lookupParent
  dsimp only
  split_ifs with hroot
  · exact .of_failure h.cache nofun
  · cases hfh : req.filehandle with
    | none => exact .of_failure h.cache nofun
    | some fh =>
      dsimp only
      split_ifs
      · exact .bind (query_sat hE rfl fun exports s₁ hstep => lookupParent_sat_of_exports hE
          (h.of_neutral hE hstep rfl) (by simpa using hroot) hfh exports)
      · exact lookupParent_sat_of_exports hE h (by simpa using hroot) hfh []

/-- SETATTR. -/
lemma setattr_sat (hE : E.Lawful) (h : E.Placed s req) {args : SetAttr4args}
    (hadm : Admitted S (.opsetattr args) req) (hmay : E.May (.opsetattr args) req) :
    (setattr S args req).Sat E.step E.Ok E.Crash s E.Leaves := by
  unfold setattr
  cases hfh : req.filehandle with
  | none => exact .of_failure h.cache nofun
  | some fh =>
    have hsome : req.filehandle.isSome := by simp [hfh]
    dsimp only
    split_ifs with hmask
    · exact ⟨h.cache, fun _ => h⟩
    · cases hm : req.cachedFmanager with
      | none =>
        have hcrash := hE.manager hmay hm (by simp [needsManager, hfh, hmask])
        exact .bind (askManager_sat_of_none hm hcrash)
      | some m =>
        have hmAllowed := h.allowed_manager hE.start hsome hm
        have hset : ∀ {s call} {post : call.Answer → σ → Prop}, E.Placed s req →
            (∀ a s', E.step s (.on (some m) call) a s' → post a s') →
            (req.askManager call).Sat E.step E.Ok E.Crash s post := by
          intro s call post h hpost
          unfold Request.askManager Request.fileManager
          rw [hm]
          refine ⟨hE.asks h hadm hmay ⟨.inl ⟨rfl, hm.symm, .inl hsome⟩, fun _ => ?_⟩, hpost⟩
          exact ⟨.inl ⟨rfl, hm.symm, hsome⟩, rfl⟩
        refine .bind (hset h fun attrsset s₁ hstep₁ => ?_)
        have h₁ := h.of_neutral hE hstep₁ rfl
        refine .bind (hset h₁ fun _ s₂ hstep₂ => ?_)
        have h₂ := h₁.of_neutral hE hstep₂ rfl
        obtain ⟨o, ho, hallowed⟩ := h₂.located
        refine .bind (setFilehandleId_sat hE ho hallowed h.saved h.cache (fun _ hpseudo => ?_)
          (fun req' fh' s₃ h₃ hfh' => ?_) fun req' _ f s₃ hhandles _ _ _ _ => ?_)
        · have hfh' := (h.current fh hfh).toHolds
          exact hfh'.allowed _ (hfh'.home.trans (if_neg hpseudo))
        · exact .bind (cacheFilehandle_sat hE h₃ hfh' fun cache s₄ h₄ _ => ⟨h₄.cache, fun _ => h₄⟩)
        · exact .of_failure (hhandles.caches h.cache) f.2

/-- Every operation keeps the invariant. -/
lemma execute_sat (hE : E.Lawful) (h : E.Placed s req) (hadm : Admitted S arg req)
    (hmay : E.May arg req) : (execute S arg req).Sat E.step E.Ok E.Crash s E.Leaves := by
  by_cases hstationary : stationary arg req = true
  · refine (execute_sat_of_stationary hE h hadm hmay hstationary).mono fun r s' hr => ?_
    have h' := hr.2.of_stays hr.1
    exact ⟨h'.cache, fun _ => h'⟩
  · cases arg with
    | opputfh args => exact putfh_sat hE h args
    | opputrootfh => exact putRootFilehandle_sat hE h
    | opputpubfh => exact putRootFilehandle_sat hE h
    | oprestorefh => exact restoreFilehandle_sat hE h
    | oplookupp => exact lookupParent_sat hE h
    | opsetattr args => exact setattr_sat hE h hadm hmay
    | oplookup args =>
      have hroot : req.isPseudoRoot = true := by simpa [stationary] using hstationary
      have hlookup : execute S (.oplookup args) req = lookupExport S args req := by
        simp [execute, lookup, hroot]
      rw [hlookup]
      exact lookupExport_sat hE h hroot args
    | _ => exact absurd rfl hstationary

/-! ### Compounds -/

/-- `check_op` lets RENAME and LINK work in one export only. -/
lemma checkOp_sat (hE : E.Lawful) (h : E.Placed s req) (arg : NfsArgOp) (caller : Caller) :
    (checkOp arg req caller).Sat E.step E.Ok E.Crash s fun a s' =>
      E.Placed s' req ∧ (a = .ok () → needsOneExport arg = true → req.cachedFmanager.isSome →
        req.isPseudoRoot = false → ∀ fh saved, req.filehandle = some fh →
          req.savedFilehandle = some saved → exportIdFromFh saved.id = exportIdFromFh fh.id) := by
  unfold checkOp
  split
  · rename_i hroot
    exact ⟨h, fun _ _ _ hroot' => absurd hroot (by simp [hroot'])⟩
  · cases hm : req.cachedFmanager with
    | none => exact ⟨h, fun _ _ hsome => absurd hsome (by simp)⟩
    | some e =>
      cases hfh : req.filehandle with
      | none => exact ⟨h, fun _ _ _ _ _ _ hfh' => absurd hfh' nofun⟩
      | some fh =>
        have hone : (needsOneExport arg && crossesExports req fh) = false →
            needsOneExport arg = true → ∀ fh' saved, some fh = some fh' →
              req.savedFilehandle = some saved →
                exportIdFromFh saved.id = exportIdFromFh fh'.id := by
          intro hcross harg fh' saved hfh' hsaved
          cases hfh'
          simpa [harg, crossesExports, hsaved] using hcross
        dsimp only
        split_ifs with hcross
        · exact ⟨h, nofun⟩
        · refine ask_sat hE (fun e' he' => ?_) rfl fun a s' hstep =>
            ⟨h.of_neutral hE hstep rfl, fun _ harg _ _ => hone (by simpa using hcross) harg⟩
          cases he'
          exact h.allowed_manager hE.start (by simp [hfh]) hm
        · exact ⟨h, fun _ harg _ _ => hone (by simpa using hcross) harg⟩

/-- The checks that come before an operation. -/
lemma admission_sat (hE : E.Lawful) (h : E.Placed s req) (arg : NfsArgOp) :
    (admission S arg req).Sat E.step E.Ok E.Crash s fun o s' =>
      E.Placed s' req ∧ (∀ answer, o = some answer →
        answer.2.request = req ∧ answer.2.status ≠ .nfs4Ok) ∧ (o = none → Admitted S arg req) := by
  have hrefused : ∀ {s' : σ} {answer : Verdict × Response}, E.Placed s' req →
      answer.2.request = req → answer.2.status ≠ .nfs4Ok →
      E.Placed s' req ∧ (∀ answer', some answer = some answer' →
        answer'.2.request = req ∧ answer'.2.status ≠ .nfs4Ok) ∧
        (some answer = none → Admitted S arg req) := by
    intro s' answer h' hreq hstatus
    refine ⟨h', fun answer' heq => ?_, nofun⟩
    cases heq
    exact ⟨hreq, hstatus⟩
  have hlimited : ∀ {post : Bool → σ → Prop}, (∀ b s', E.Placed s' req → post b s') →
      (rateLimited arg req).Sat E.step E.Ok E.Crash s post := by
    intro post hpost
    unfold rateLimited
    cases req.rateLimiter with
    | none => exact hpost _ s h
    | some e => exact .bind (query_sat hE rfl fun b s' hstep => hpost _ s' (h.of_neutral hE hstep rfl))
  unfold admission
  refine .bind (hlimited fun limited s₁ h₁ => ?_)
  split
  · exact hrefused h₁ rfl nofun
  refine .bind (query_sat hE rfl fun inGrace s₂ hstep => ?_)
  have h₂ := h₁.of_neutral hE hstep rfl
  split_ifs with hgrace hflavor hro
  · exact hrefused h₂ rfl nofun
  · exact hrefused h₂ rfl nofun
  · exact hrefused h₂ rfl nofun
  · refine .bind ((checkOp_sat hE h₂ arg _).mono fun permitted s₃ h₃ => ?_)
    cases permitted with
    | error f => exact hrefused h₃.1 rfl f.2
    | ok _ =>
      refine ⟨h₃.1, fun answer heq => (by cases heq), fun _ => ⟨?_, ?_, h₃.2 rfl⟩⟩
      · by_contra hnot
        push Not at hnot
        exact hflavor (by simp [hnot])
      · intro hreadOnly
        simpa [hreadOnly] using hro

/-- An operation that creates an object counts as mutating, and stays on its export. -/
lemma createsObject_sat (hE : E.Lawful) (h : E.Placed s req) (arg : NfsArgOp) :
    (createsObject arg req).Sat E.step E.Ok E.Crash s fun creates s' =>
      E.Placed s' req ∧ (creates = true →
        mayModify arg req = true ∧ stationary arg req = true) := by
  unfold createsObject
  split
  · exact ⟨h, fun _ => ⟨rfl, rfl⟩⟩
  · rename_i args
    split
    · rename_i name how e fh hclaim hhow hm hfh
      refine .bind (ask_sat hE (fun e' he' => ?_) rfl fun m s' hstep =>
        ⟨h.of_neutral hE hstep rfl, fun _ => ⟨?_, rfl⟩⟩)
      · cases he'
        exact h.allowed_manager hE.start (by simp [hfh]) hm
      · simp [mayModify, isMutating, hhow]
    · exact ⟨h, fun hfalse => absurd hfalse Bool.false_ne_true⟩
  · exact ⟨h, fun hfalse => absurd hfalse Bool.false_ne_true⟩

/-- `chown_new_object`. -/
lemma chownNewObject_sat (hE : E.Lawful) {req' : Request} (h : E.Placed s req)
    (hadm : Admitted S arg req) (hmay : E.May arg req) (hmodify : mayModify arg req = true)
    (hstays : Stays (E.Current req.toContext) req req') (caller : Caller) :
    (chownNewObject caller req').Sat E.step E.Ok E.Crash s fun r s' => E.Placed s' r := by
  unfold chownNewObject
  split
  · rename_i e fh hm hfh
    obtain ⟨hcurrent, hsome⟩ := hstays.filehandle fh hfh
    have he : req.cachedFmanager = some e := hstays.cachedFmanager.symm.trans hm
    have hask : ∀ {s call} {post : call.Answer → σ → Prop}, E.Placed s req →
        (∀ a s', E.step s (.on (some e) call) a s' → post a s') →
        (ask (some e) call).Sat E.step E.Ok E.Crash s post := by
      intro s call post h hpost
      refine ⟨hE.asks h hadm hmay ⟨.inl ⟨rfl, he.symm, .inl hsome⟩, fun _ => ?_⟩, hpost⟩
      exact ⟨.inl ⟨rfl, he.symm, hsome⟩, hmodify⟩
    refine .bind (hask h fun m s₁ hstep₁ => ?_)
    have h₁ := h.of_neutral hE hstep₁ rfl
    cases m with
    | none => exact h₁.of_stays hstays
    | some m =>
      refine .bind (hask h₁ fun parent s₂ hstep₂ => ?_)
      have h₂ := h₁.of_neutral hE hstep₂ rfl
      dsimp only
      split_ifs
      · exact h₂.of_stays hstays
      · refine .bind (hask h₂ fun done s₃ hstep₃ => ?_)
        have h₃ := h₂.of_neutral hE hstep₃ rfl
        split_ifs
        · exact h₃.of_stays hstays
        · refine .bind (hask h₃ fun _ s₄ hstep₄ => ?_)
          have h₄ := h₃.of_neutral hE hstep₄ rfl
          have hnew : E.Holds ({ fh with
              attrOwner := toString caller.uid
              attrOwnerGroup := toString (newObjectGid parent caller) } : Handle).tag :=
            hcurrent.toHolds
          refine .bind (cacheFilehandle_sat hE (h₄.of_stays hstays) hnew fun cache s₅ h₅ _ => ?_)
          refine ⟨h₅.located, fun fh' hfh' => ?_, h₅.saved, h₅.cache⟩
          cases hfh'
          exact hstays.context ▸ hcurrent
  · exact h.of_stays hstays

/-- The checks that come after an operation only turn answers into failures. -/
lemma Leaves.recheck {r : Response} (h : E.Leaves r s) (arg : NfsArgOp) (next : Option ℕ)
    (before : Option UInt8) : E.Leaves (recheck S arg next before r).2 s := by
  unfold Dispatcher.recheck
  split_ifs
  · exact .of_failure h.1 nofun
  · exact .of_failure h.1 nofun
  · exact h

/-- An operation that is admitted keeps the invariant. -/
lemma perform_sat (hE : E.Lawful) (h : E.Placed s req) (hadm : Admitted S arg req)
    (next : Option ℕ) :
    (perform S arg next req).Sat E.step E.Ok E.Crash s fun a s' => E.Leaves a.2 s' := by
  unfold perform
  refine .bind ((createsObject_sat hE h arg).mono fun creates s₁ ⟨h₁, hcreates⟩ => ?_)
  refine .bind ⟨hE.executes h₁ hadm, fun _ s₂ hstep => ?_⟩
  have hmay : E.May arg req := hE.may hstep
  have h₂ := h₁.of_neutral hE hstep rfl
  cases creates with
  | false => exact .bind ((execute_sat hE h₂ hadm hmay).mono fun r s₃ hr => hr.recheck arg next _)
  | true =>
    obtain ⟨hmodify, hstationary⟩ := hcreates rfl
    refine .bind ((execute_sat_of_stationary hE h₂ hadm hmay hstationary).mono fun r s₃ hr => ?_)
    obtain ⟨hstays, h₃⟩ := hr
    dsimp only
    split_ifs
    · refine .bind ((chownNewObject_sat hE h₃ hadm hmay hmodify hstays _).mono fun req' s₄ h₄ => ?_)
      have hleaves : E.Leaves { r with request := req' } s₄ := ⟨h₄.cache, fun _ => h₄⟩
      exact hleaves.recheck arg next _
    · have h₃' := h₃.of_stays hstays
      have hleaves : E.Leaves r s₃ := ⟨h₃'.cache, fun _ => h₃'⟩
      exact hleaves.recheck arg next _

/-- Every operation of a compound keeps the invariant. -/
lemma dispatch_sat (hE : E.Lawful) (h : E.Placed s req) (arg : NfsArgOp) (next : Option ℕ) :
    (dispatch S arg next req).Sat E.step E.Ok E.Crash s fun a s' => E.Leaves a.2 s' := by
  unfold dispatch
  refine .bind ((admission_sat hE h arg).mono fun refused s₁ ⟨h₁, hrefused, hadm⟩ => ?_)
  cases refused with
  | none => exact perform_sat hE h₁ (hadm rfl) next
  | some answer =>
    obtain ⟨hreq, hstatus⟩ := hrefused answer rfl
    exact .of_failure (hreq ▸ h.cache) hstatus

/-- The requests before an operation and, if it succeeds, after it have the invariant. -/
def Logged (E : Environment S c σ) (a : Answered) : Prop :=
  (∃ s, E.Placed s a.before) ∧ (a.status = .nfs4Ok → ∃ s, E.Placed s a.after)

/-- The operations of a compound keep the invariant. -/
lemma dispatchAll_sat (hE : E.Lawful) (args : List NfsArgOp) (h : E.Placed s req) :
    (dispatchAll S args req).Sat E.step E.Ok E.Crash s fun out _ =>
      E.Caches out.1.filehandleCache ∧ ∀ a ∈ out.2.2, E.Logged a := by
  induction args generalizing s req with
  | nil => exact ⟨h.cache, by simp⟩
  | cons arg rest ih =>
    unfold dispatchAll
    refine .bind ((dispatch_sat hE h arg _).mono fun a s₁ ha => ?_)
    obtain ⟨verdict, r⟩ := a
    have hlogged : E.Logged ⟨arg, req, verdict, r.result, r.status, r.request⟩ :=
      ⟨⟨s, h⟩, fun hok => ⟨s₁, ha.2 hok⟩⟩
    dsimp only
    split_ifs with hgo
    · have hstatus : r.status = .nfs4Ok := by
        simp only [Bool.and_eq_true, beq_iff_eq] at hgo
        exact hgo.2
      refine .bind ((ih (ha.2 hstatus)).mono fun out s₂ hout => ⟨hout.1, fun b hb => ?_⟩)
      rcases List.mem_cons.1 hb with rfl | hb
      · exact hlogged
      · exact hout.2 b hb
    · refine ⟨ha.1, fun b hb => ?_⟩
      rw [List.mem_singleton.1 hb]
      exact hlogged

/-- A request at the start of a call. -/
lemma placed_new {cache : List (NfsFh4 × ℕ × Handle)} (hcache : E.Caches cache)
    (flavor : SecFlavor) (cred : Option OpaqueAuth) :
    E.Placed s { Request.new c.clientAddr c.defaultFmanager c.bootTime cache flavor with
      authCred := cred } :=
  ⟨⟨.start, ⟨rfl, ⟨rfl, rfl, rfl, rfl, rfl⟩, nofun, .inl rfl⟩, fun _ hfh => (nomatch hfh)⟩,
    fun _ hfh => (nomatch hfh), fun _ hfh => (nomatch hfh), hcache⟩

/-- A compound keeps the invariant. -/
lemma compound_sat (hE : E.Lawful) (msg : CallBody) {cache : List (NfsFh4 × ℕ × Handle)}
    (hcache : E.Caches cache) (flavor : SecFlavor) :
    (compound S msg (.new c.clientAddr c.defaultFmanager c.bootTime cache flavor)).Sat E.step E.Ok
      E.Crash s fun out _ =>
        E.Caches out.request.filehandleCache ∧ ∀ a ∈ out.answered, E.Logged a := by
  unfold compound
  cases msg.args with
  | none => exact ⟨hcache, by simp⟩
  | some args =>
    dsimp only
    split_ifs
    · exact ⟨hcache, by simp⟩
    · exact .bind ((dispatchAll_sat hE args.argarray (placed_new hcache flavor (some msg.cred))).mono
        fun out s' hout => hout)

/-- The compounds of a connection ask only what they may, panic only if they may, and all their
operations keep the invariant. -/
theorem serve_sat (hE : E.Lawful) (msgs : List (CallBody × SecFlavor))
    {cache : List (NfsFh4 × ℕ × Handle)} (hcache : E.Caches cache) :
    (serve S c msgs cache).Sat E.step E.Ok E.Crash s fun outs _ =>
      ∀ out ∈ outs, ∀ a ∈ out.answered, E.Logged a := by
  induction msgs generalizing s cache with
  | nil => exact fun _ hmem => absurd hmem List.not_mem_nil
  | cons msg rest ih =>
    unfold serve
    refine .bind (query_sat hE rfl fun _ s₁ _ => ?_)
    refine .bind ((compound_sat hE msg.1 hcache msg.2).mono fun out s₂ hout => ?_)
    refine .bind ((ih hout.1).mono fun outs s₃ houts => ?_)
    exact List.forall_mem_cons.2 ⟨hout.2, houts⟩

end Environment

end NextNfs.Dispatcher
