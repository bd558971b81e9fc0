import NextNfs.Server.ExportContext
import NextNfs.Server.Transcript

set_option relaxedAutoImplicit false
set_option autoImplicit false

/-!
# The security flavours of an export

An export has a list of security flavours. An operation on the export in another flavour is refused,
except for those that move the current filehandle and those that ask for the flavours; and an
operation that moves the filehandle to the export succeeds only if the next one deals with the
flavour.

## Main definitions

* `NextNfs.Dispatcher.Request.OnExport` — the current filehandle is on an export.
* `NextNfs.Dispatcher.Outcome.SecEnforced` — a reply in which the flavours are enforced.

## Main results

* `NextNfs.Dispatcher.secEnforced_of_liveExports` — the flavours are enforced along every run in
  which the exports are there.
* `NextNfs.Dispatcher.not_secEnforced` — a rate limiter comes before the flavour, the root that
  lists the exports refuses flavours, and a filehandle outlives the flavours of its export.
-/

namespace NextNfs.Dispatcher

open Wire Dialogue

/-- The flavour is in the list of the export. -/
def Accepts (S : Server) (e : UInt8) (flavor : SecFlavor) : Bool :=
  (S.exports e).accessControl.allowsFlavor flavor

/-- The current filehandle is on the export. -/
def Request.OnExport (req : Request) (e : UInt8) : Prop :=
  e ≠ pseudoRootExportId ∧ ∃ fh, req.filehandle = some fh ∧ exportIdFromFh fh.id = e

/-- The reply to a call in which the flavours of the exports are enforced. -/
structure Outcome.SecEnforced (S : Server) (call : CallBody × SecFlavor) (out : Outcome) : Prop where
  /-- An operation is executed on an export only in one of its flavours. -/
  executes : ∀ a ∈ out.answered, ∀ e, a.before.OnExport e → wrongsecExempt (opCode a.arg) = false →
    a.verdict = .executed → Accepts S e call.2 = true
  /-- In another flavour the reply ends there. -/
  ends : ∀ (k : ℕ) a e, out.answered[k]? = some a → a.before.OnExport e →
    wrongsecExempt (opCode a.arg) = false → Accepts S e call.2 = false →
      k + 1 = out.answered.length ∧ out.reply.status = a.status ∧ a.RefusesFlavor
  /-- An operation moves to an export in another flavour only before one that deals with it. -/
  moves : ∀ (k : ℕ) a e, out.answered[k]? = some a → movesFilehandle (opCode a.arg) = true →
    a.status = .nfs4Ok → a.after.OnExport e → Accepts S e call.2 = false →
      wrongsecDeferred (opCode a.arg) ((operations call.1)[k + 1]?.map opCode) = true

section LiveExports

variable {S : Server} {c : Connection} {h : List Event} {s : List Event} {req : Request} {e : UInt8}

/-- On an export that is there, the flavours that are allowed are those of the export. -/
lemma secAllowed_of_fieldsOf (hfields : req.FieldsOf S e) :
    req.secAllowed S = Accepts S e req.secFlavor := by
  have haccess : req.access S = some (S.exports e).accessControl := by
    simp [Request.access, hfields.accessControl]
  simp [Request.secAllowed, haccess, Accepts]

lemma secAllowed_of_placed (hp : (historyEnvironment S c h).Placed s req) (he : req.OnExport e) :
    req.secAllowed S = Accepts S e req.secFlavor := by
  obtain ⟨hne, fh, hfh, rfl⟩ := he
  obtain ⟨hroot, -⟩ | ⟨-, -, hfields⟩ := fieldsOf_of_placed hp hfh
  · exact absurd hroot hne
  · exact secAllowed_of_fieldsOf hfields

/-- A transcript whose requests have the fields of their exports. -/
lemma secEnforced_of_transcribes {call : CallBody × SecFlavor} {out : Outcome}
    (htrans : out.Transcribes S call)
    (hlogged : ∀ a ∈ out.answered, (historyEnvironment S c h).Logged a) :
    out.SecEnforced S call := by
  obtain hnil | ⟨req, hflavor, htrans⟩ := htrans
  · exact ⟨by simp [hnil], by simp [hnil], by simp [hnil]⟩
  have hbefore : ∀ a ∈ out.answered, ∀ e, a.before.OnExport e →
      a.before.secAllowed S = Accepts S e call.2 := by
    intro a ha e he
    obtain ⟨s, hp⟩ := (hlogged a ha).1
    rw [secAllowed_of_placed hp he, (htrans.flavor ha).1, hflavor]
  have hends : ∀ (k : ℕ) a e, out.answered[k]? = some a → a.before.OnExport e →
      wrongsecExempt (opCode a.arg) = false → Accepts S e call.2 = false →
        a.verdict ≠ .executed ∧ a.RefusesFlavor := by
    intro k a e hk he hexempt haccepts
    have hallowed := (hbefore a (List.mem_of_getElem? hk) e he).trans haccepts
    exact (htrans.right_at hk).flavorBefore hallowed hexempt
  refine ⟨fun a ha e he hexempt hv => ?_, fun k a e hk he hexempt haccepts => ?_,
    fun k a e hk hmoves hok he haccepts => ?_⟩
  · obtain ⟨k, hk⟩ := List.mem_iff_getElem?.1 ha
    rw [← Bool.not_eq_false]
    exact fun haccepts => (hends k a e hk he hexempt haccepts).1 hv
  · obtain ⟨-, hrefuses⟩ := hends k a e hk he hexempt haccepts
    have hfails : a.status ≠ .nfs4Ok := by
      obtain hstatus | ⟨hstatus, -⟩ | ⟨hstatus, -⟩ := hrefuses <;> rw [hstatus] <;> nofun
    have hlast := htrans.stops hk hfails
    exact ⟨hlast, ((htrans.succeeds hk).2 hlast).symm, hrefuses⟩
  · have hmem := List.mem_of_getElem? hk
    obtain ⟨s, hp⟩ := (hlogged a hmem).2 hok
    have hallowed : a.after.secAllowed S = false := by
      rw [secAllowed_of_placed hp he, (htrans.flavor hmem).2, hflavor, haccepts]
    exact (htrans.right_at hk).flavorAfter hok hmoves hallowed

end LiveExports

/-- The flavours of the exports: along every run of a connection beside the administration of the
server in which the exports are there, an operation that does not move the filehandle or ask for the
flavours is executed on an export only in one of its flavours, and the replies are as they should
be. -/
theorem secEnforced_of_liveExports (S : Server) (c : Connection)
    (msgs : List (CallBody × SecFlavor)) {h : List Event} {out : Option (List Outcome)}
    {em : ℕ → ExportManager} (hrun : Runs (serve S c msgs []) h out) (hb : Beside c h em)
    (hstamps : Stamps h) (hlive : LiveExports h em) :
    (∀ arg (req : Request) e, (⟨.execute arg req, ()⟩ : Event) ∈ h → req.OnExport e →
      wrongsecExempt (opCode arg) = false → Accepts S e req.secFlavor = true) ∧
    ∀ outs, out = some outs → List.Forall₂ (Outcome.SecEnforced S) msgs outs := by
  have hcache : (historyEnvironment S c h).Caches [] := by simp [Environment.Caches]
  have hsat := Environment.serve_sat (s := []) (historyEnvironment_lawful (S := S) hb hstamps hlive)
    msgs hcache
  obtain ⟨hasks, hpost, -⟩ := hsat.holds_of_runs hrun (allows_history fun x hx => hx)
  constructor
  · intro arg req e hmem he hexempt
    obtain ⟨h₁, h₂, hsplit⟩ := List.append_of_mem hmem
    obtain ⟨s, -, -, hok⟩ := hasks h₁ _ h₂ hsplit
    obtain ⟨hadm, hfields⟩ := hok arg req rfl
    obtain ⟨hne, fh, hfh, rfl⟩ := he
    obtain ⟨hroot, -⟩ | ⟨-, -, hfields⟩ := hfields fh hfh
    · exact absurd hroot hne
    · rw [← secAllowed_of_fieldsOf hfields]
      exact hadm.flavor.resolve_right (by simp [hexempt])
  · intro outs hout
    have htrans := ((serve_yields c msgs []).of_runs hrun fun _ _ => trivial).2.1 outs hout
    have hboth := (List.forall₂_and_left outs msgs).2 ⟨hpost outs hout, htrans.flip⟩
    exact hboth.flip.imp fun call out hcall => secEnforced_of_transcribes hcall.2 hcall.1

/-- The flavours are enforced along the run of PUTFH and GETFH. -/
theorem secEnforced_of_liveExports_steady :
    ∃ (h : List Event) (outs : List Outcome),
      Runs (serve openServer earlyConnection putfhGetfh []) h (some outs) ∧
      LiveExports h steadyExport ∧
      (∃ req : Request, (⟨.execute .opgetfh req, ()⟩ : Event) ∈ h ∧ req.OnExport 1 ∧
        Accepts openServer 1 req.secFlavor = true) ∧
      List.Forall₂ (Outcome.SecEnforced openServer) putfhGetfh outs := by
  have hsec := secEnforced_of_liveExports openServer earlyConnection putfhGetfh
    (runs_run (sampleAnswers steadyExport) 0 _) beside_putfhGetfh (stamps_sample _ _)
    liveExports_putfhGetfh
  refine ⟨_, _, runs_run (sampleAnswers steadyExport) 0 _, liveExports_putfhGetfh, ?_, hsec.2 _ rfl⟩
  have hon : ∀ req : Request, req.filehandle = some (fileHandle 1) → req.OnExport 1 :=
    fun req hfh => ⟨nofun, _, hfh, rfl⟩
  have hmem := List.mem_of_getElem? (i := 8) (l := ((serve openServer earlyConnection putfhGetfh
    []).run (sampleAnswers steadyExport) 0).1) rfl
  exact ⟨_, hmem, hon _ rfl, hsec.1 _ _ 1 hmem (hon _ rfl) rfl⟩

/-! ### Where the flavours are not enforced -/

/-- A server whose exports are for Kerberos. -/
def krbServer : Server :=
  { openServer with exports := fun _ => ⟨"share", false, ⟨fun _ => true, .none, 0, 0, [.krb5]⟩⟩ }

/-- The answers of an export whose rate limiter refuses from some time on. -/
def limitedAnswers (n : ℕ) : (q : Question) → q.Answer
  | .tryConsume .. => decide (n < 9)
  | q => sampleAnswers steadyExport n q

/-- PUTFH in the wrong flavour, SECINFO_NO_NAME and, on the same export, GETFH. -/
def secinfoGetfh : List (CallBody × SecFlavor) :=
  [(callOf [.opputfh ⟨fileId 1⟩, .opsecinfoNoName ⟨.secinfoStyle4CurrentFh⟩, .opgetfh], .sys)]

/-- PUTFH of the root that lists the exports, with Kerberos. -/
def krbPutrootfh : List (CallBody × SecFlavor) :=
  [(callOf [.opputfh ⟨pseudoRootFh⟩, .opgetfh], .krb5)]

/-- PUTFH with Kerberos in one compound, and without it in the next. -/
def krbThenSys : List (CallBody × SecFlavor) :=
  [(callOf [.opputfh ⟨fileId 1⟩], .krb5), (callOf [.opputfh ⟨fileId 1⟩, .opgetfh], .sys)]

/-- An operation in the wrong flavour ends the reply with NFS4ERR_DELAY if the rate limiter refuses
it first; the root that lists the exports does not accept Kerberos; and a cached filehandle of an
export that was removed is used in a flavour that the export did not accept. -/
theorem not_secEnforced :
    (∃ (h : List Event) (out : Outcome) (a : Answered),
      Runs (serve krbServer earlyConnection secinfoGetfh []) h (some [out]) ∧
      out.answered[2]? = some a ∧ a.arg = .opgetfh ∧ a.before.OnExport 1 ∧
      Accepts krbServer 1 .sys = false ∧ out.reply.status = .nfs4errDelay) ∧
    (∃ (h : List Event) (out : Outcome) (a : Answered),
      Runs (serve krbServer earlyConnection krbPutrootfh []) h (some [out]) ∧
      out.answered[0]? = some a ∧ a.after.isPseudoRoot = true ∧
      out.reply.status = .nfs4errWrongsec) ∧
    ∃ (h : List Event) (out : Option (List Outcome)) (em : ℕ → ExportManager) (req : Request),
      Runs (serve krbServer earlyConnection krbThenSys []) h out ∧ Beside earlyConnection h em ∧
      Stamps h ∧ (⟨.execute .opgetfh req, ()⟩ : Event) ∈ h ∧ req.OnExport 1 ∧
      Accepts krbServer 1 req.secFlavor = false := by
  have hon : ∀ req : Request, req.filehandle = some (fileHandle 1) → req.OnExport 1 :=
    fun req hfh => ⟨nofun, _, hfh, rfl⟩
  refine ⟨⟨_, _, _, runs_run limitedAnswers 0 _, rfl, rfl, hon _ rfl, rfl, rfl⟩,
    ⟨_, _, _, runs_run (sampleAnswers steadyExport) 0 _, rfl, rfl, rfl⟩, ?_⟩
  exact ⟨_, _, removedExport, _, runs_run (sampleAnswers removedExport) 0 _,
    beside_sample _ nofun removedExport_reachable removedExport_evolves, stamps_sample _ _,
    List.mem_of_getElem? (i := 13) rfl, hon _ rfl, rfl⟩

end NextNfs.Dispatcher
