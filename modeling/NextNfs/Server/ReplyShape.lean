import NextNfs.Server.Transcript
import NextNfs.Server.ExportManager
import NextNfs.Proto.WireNumbering

set_option relaxedAutoImplicit false
set_option autoImplicit false

/-!
# The shape of the reply to a compound

A reply to a compound should have one result for each operation that was attempted, in order, all
but the last with NFS4_OK and the last with the status of the reply. This module says when it has.

## Main definitions

* `NextNfs.Dispatcher.Outcome.Shaped` — the shape.
* `NextNfs.Dispatcher.Answered.Reports` — an operation is not denied, and its answer has a result of
  the operation with its status.

## Main results

* `NextNfs.Dispatcher.shaped_iff_reports` — the reply has the shape exactly when all operations that
  were attempted report.
-/

namespace NextNfs

/-- The status that a result stands for. -/
def NfsResOp4.standsFor : NfsResOp4 → NfsStat4
  | .opUndef0 | .opUndef1 | .opUndef2 | .opAccess _ | .opclose _ | .opcommit _ | .opcreate _
  | .opgetfh _ | .oplink _ | .oplock (.resok4 _) | .oplocku _ | .opopen _ | .opopenConfirm _
  | .opopenDowngrade _ | .opputpubfh | .opread _ | .opreaddir _ | .oprename _ | .opSecinfo _
  | .opsetclientid (.resok4 _) | .opwrite _ | .opbindConnToSession _ | .opexchangeId _
  | .opcreateSession _ | .opgetdeviceInfo (.resok4 _) | .opgetdeviceList (.resok4 _)
  | .oplayoutCommit (.resok4 _) | .oplayoutGet (.resok4 _) | .oplayoutReturn (.resok4 _)
  | .opsecinfoNoName _ | .opsequence _ | .optestStateid _ | .opcopy _ | .opseek _ => .nfs4Ok
  | .oplock (.denied _) | .oplockt _ => .nfs4errDenied
  | .opsetclientid (.clientUsing _) => .nfs4errClidInuse
  | .opdelegpurge r => r.status
  | .opdelegreturn r => r.status
  | .opgetattr r => r.status
  | .oplookup r => r.status
  | .oplookupp r => r.status
  | .opnverify r => r.status
  | .opopenattr r => r.status
  | .opputfh r => r.status
  | .opputrootfh r => r.status
  | .opreadlink r => r.status
  | .opremove r => r.status
  | .oprenew r => r.status
  | .oprestorefh r => r.status
  | .opsavefh r => r.status
  | .opsetattr r => r.status
  | .opsetclientidConfirm r => r.status
  | .opverify r => r.status
  | .opreleaseLockOwner r => r.status
  | .opdestroySession r => r.dsrStatus
  | .opfreeStateid r => r.fsrStatus
  | .opgetdeviceInfo (.err r) => r
  | .opgetdeviceList (.err r) => r
  | .oplayoutCommit (.err r) => r
  | .oplayoutGet (.err r) => r
  | .oplayoutReturn (.err r) => r
  | .opdestroyClientid r => r.dcrStatus
  | .opreclaimComplete r => r.rcrStatus
  | .opallocate r => r.arStatus
  | .opError _ status => status

end NextNfs

namespace NextNfs.Dispatcher

open Wire Dialogue

/-! ### Results -/

/-- The results of LOCKT and RENAME stand for one status, whatever the operation answers with. -/
def misreports (arg : NfsArgOp) (status : NfsStat4) : Bool :=
  (opCode arg == 13 && status == .nfs4Ok) || (opCode arg == 29 && status != .nfs4Ok)

/-- The other results stand for the status they come with. -/
lemma standsFor_eq_iff {arg : NfsArgOp} {res : NfsResOp4} {status : NfsStat4}
    (h : Fits arg res status) : res.standsFor = status ↔ misreports arg status = false := by
  obtain ⟨hnum, hfits⟩ := h
  have hcode : res.opNum ≠ 24 → opCode arg = res.opNum := opCode_eq_of_respondsAs hnum
  have hplain : res.opNum ≠ 13 → res.opNum ≠ 29 → misreports arg status = false := by
    intro h13 h29
    have hne : opCode arg ≠ 13 ∧ opCode arg ≠ 29 := by
      by_cases h24 : res.opNum = 24
      · have harg : respondsAs arg = 24 := hnum.symm.trans h24
        cases arg with
        | opputrootfh | opputpubfh => exact ⟨nofun, nofun⟩
        | _ => cases harg
      · rw [hcode h24]
        exact ⟨h13, h29⟩
    simp [misreports, hne.1, hne.2]
  cases res with
  | oplockt r =>
    have h13 : opCode arg = 13 := hcode nofun
    obtain rfl | rfl := hfits
    · simp [NfsResOp4.standsFor, misreports, h13]
    · simp [NfsResOp4.standsFor, misreports, h13]
  | oprename r =>
    have h29 : opCode arg = 29 := hcode nofun
    obtain rfl | rfl := hfits
    · simp [NfsResOp4.standsFor, misreports, h29]
    · simp [NfsResOp4.standsFor, misreports, h29]
  | opUndef0 | opUndef1 | opUndef2 | opputpubfh | opError => exact hfits.elim
  | oplock r | opsetclientid r | opgetdeviceInfo r | opgetdeviceList r | oplayoutCommit r
  | oplayoutGet r | oplayoutReturn r =>
    refine iff_of_true ?_ (hplain nofun nofun)
    cases r <;> first | exact hfits.symm | exact hfits | exact hfits.elim
  | opgetattr r => exact iff_of_true hfits.1 (hplain nofun nofun)
  | opopen r =>
    obtain ⟨r⟩ := r
    exact iff_of_true hfits.1.symm (hplain nofun nofun)
  | opAccess | opclose | opcommit | opcreate | opgetfh | oplink | oplocku | opopenConfirm
  | opopenDowngrade | opread | opreaddir | opSecinfo | opwrite | opbindConnToSession | opexchangeId
  | opcreateSession | opsecinfoNoName | opsequence | optestStateid | opcopy | opseek =>
    exact iff_of_true hfits.symm (hplain nofun nofun)
  | _ => exact iff_of_true hfits (hplain nofun nofun)

/-! ### The shape -/

/-- The shape of a reply: one result for each operation that was attempted, in order, those before
the last with NFS4_OK and the last with the status of the reply; and no operation is attempted after
one that fails. -/
structure Outcome.Shaped (args : List NfsArgOp) (out : Outcome) : Prop where
  attempted : out.answered.map Answered.arg <+: args
  length : out.reply.resarray.length = out.answered.length
  operation : ∀ (k : ℕ) a res, out.answered[k]? = some a → out.reply.resarray[k]? = some res →
    res.opNum = opCode a.arg
  before : ∀ (k : ℕ) res, k + 1 < out.answered.length → out.reply.resarray[k]? = some res →
    res.standsFor = .nfs4Ok
  last : ∀ (k : ℕ) res, k + 1 = out.answered.length → out.reply.resarray[k]? = some res →
    res.standsFor = out.reply.status
  stops : ∀ (k : ℕ) a, out.answered[k]? = some a → a.status ≠ .nfs4Ok →
    k + 1 = out.answered.length

/-- The operation was not denied by the grace period, and if it was executed, it is one that answers
this status with a result, in its own name and with this status. -/
def Answered.Reports (a : Answered) : Prop :=
  a.verdict ≠ .denied ∧ (a.verdict = .executed →
    silent a.arg a.before a.status = false ∧ opCode a.arg ≠ 23 ∧
      misreports a.arg a.status = false)

/-- The answer has a result of the operation with its status. -/
def Answered.Complete (a : Answered) : Prop :=
  ∃ res, a.result = some res ∧ res.opNum = opCode a.arg ∧ res.standsFor = a.status

/-- The answers that are complete are those that report. -/
lemma Answered.Right.complete_iff {S : Server} {next : Option ℕ} {a : Answered}
    (h : a.Right S next) : a.Complete ↔ a.Reports := by
  cases hv : a.verdict with
  | denied =>
    refine iff_of_false (fun ⟨res, hres, _⟩ => ?_) fun hreports => hreports.1 hv
    cases hres.symm.trans (h.denied hv).1
  | refused =>
    refine iff_of_true ⟨_, (h.refused hv).1, ?_, rfl⟩ ⟨by simp [hv], by simp [hv]⟩
    exact UInt32.toNat_ofNat_of_lt' (opCode_lt a.arg)
  | executed =>
    obtain ⟨hsilent, hfits⟩ := h.executed hv
    cases hres : a.result with
    | none =>
      refine iff_of_false (fun ⟨res, hsome, _⟩ => ?_) fun hreports => ?_
      · cases hsome.symm.trans hres
      · have hnot := (hreports.2 hv).1
        rw [hsilent.1 hres] at hnot
        cases hnot
    | some res =>
      have hloud : silent a.arg a.before a.status = false := by
        rw [← Bool.not_eq_true]
        exact fun hs => by cases hres.symm.trans (hsilent.2 hs)
      have hfit := hfits res hres
      have hcomplete : a.Complete ↔ res.opNum = opCode a.arg ∧ res.standsFor = a.status := by
        refine ⟨fun ⟨res', hres', hrest⟩ => ?_, fun hrest => ⟨res, hres, hrest⟩⟩
        cases hres.symm.trans hres'
        exact hrest
      have hname : res.opNum = opCode a.arg ↔ opCode a.arg ≠ 23 := by
        rw [hfit.1]
        refine ⟨fun heq h23 => ?_, respondsAs_eq_opCode⟩
        rw [h23] at heq
        cases harg : a.arg with
        | opputpubfh => rw [harg] at heq; cases heq
        | _ => rw [harg] at h23; cases h23
      rw [hcomplete, hname, standsFor_eq_iff hfit]
      simp [Answered.Reports, hv, hloud]

/-- The reply to a compound: for every request and every run, the reply to a compound with an
accepted minor version has the shape exactly when every operation that was attempted reports. -/
theorem shaped_iff_reports (S : Server) {msg : CallBody} {args : Compound4args}
    (hargs : msg.args = some args) (hminor : args.minorVersion ≤ 1) (req : Request)
    {h : List (Σ q : Question, q.Answer)} {out : Outcome}
    (hrun : Runs (compound S msg req) h (some out)) :
    out.Shaped args.argarray ↔ ∀ a ∈ out.answered, a.Reports := by
  obtain ⟨htrans, hres⟩ := ((compound_yields hargs hminor req).of_runs hrun fun _ _ => trivial).2.1
    out rfl
  have hcomplete : ∀ a ∈ out.answered, (a.Complete ↔ a.Reports) := fun a ha =>
    (htrans.right ha).elim fun _ hright => hright.complete_iff
  constructor
  · intro hshaped a ha
    rw [← hcomplete a ha]
    have hall : ∀ b ∈ out.answered, b.result.isSome := by
      have hlen := hshaped.length
      rw [hres] at hlen
      exact List.filterMap_length_eq_length.1 hlen
    obtain ⟨k, hk⟩ := List.mem_iff_getElem?.1 ha
    obtain ⟨res, hsome⟩ := Option.isSome_iff_exists.1 (hall a ha)
    have hat : out.reply.resarray[k]? = some res := by
      rw [hres, htrans.getElem?_results, hk]
      exact hsome
    obtain ⟨hbefore, hlast⟩ := htrans.succeeds hk
    refine ⟨res, hsome, hshaped.operation k a res hk hat, ?_⟩
    have hlt := (List.getElem?_eq_some_iff.1 hk).1
    rcases Nat.lt_or_eq_of_le (Nat.succ_le_of_lt hlt) with hlt | hlen
    · exact (hshaped.before k res hlt hat).trans (hbefore hlt).symm
    · exact (hshaped.last k res hlen hat).trans (hlast hlen).symm
  · intro hreports
    have hcomp : ∀ a ∈ out.answered, a.Complete := fun a ha => (hcomplete a ha).2 (hreports a ha)
    have hall : ∀ a ∈ out.answered, a.result.isSome := fun a ha => by
      obtain ⟨res, hsome, _⟩ := hcomp a ha
      simp [hsome]
    have hat : ∀ (k : ℕ) res, out.reply.resarray[k]? = some res → ∃ a, out.answered[k]? = some a ∧
        res.opNum = opCode a.arg ∧ res.standsFor = a.status := by
      intro k res hk
      rw [hres, htrans.getElem?_results] at hk
      obtain ⟨a, ha, hsome⟩ := Option.bind_eq_some_iff.1 hk
      obtain ⟨res', hsome', hrest⟩ := hcomp a (List.mem_of_getElem? ha)
      cases hsome.symm.trans hsome'
      exact ⟨a, ha, hrest⟩
    refine ⟨htrans.attempted, ?_, ?_, ?_, ?_, ?_⟩
    · rw [hres]
      exact List.filterMap_length_eq_length.2 hall
    · intro k a res ha hk
      obtain ⟨b, hb, hnum, _⟩ := hat k res hk
      cases ha.symm.trans hb
      exact hnum
    · intro k res hlt hk
      obtain ⟨b, hb, _, hstatus⟩ := hat k res hk
      exact hstatus.trans ((htrans.succeeds hb).1 hlt)
    · intro k res hlen hk
      obtain ⟨b, hb, _, hstatus⟩ := hat k res hk
      exact hstatus.trans ((htrans.succeeds hb).2 hlen)
    · exact fun k a => htrans.stops

/-- The reply to PUTFH and GETFH has the shape. -/
theorem shaped_putfh_getfh :
    ∃ (h : List (Σ q : Question, q.Answer)) (out : Outcome),
      Runs (compound openServer (callOf [.opputfh ⟨fileId 1⟩, .opgetfh])
        (.new "10.0.0.1" none 0 [] .sys)) h (some out) ∧
      out.Shaped [.opputfh ⟨fileId 1⟩, .opgetfh] := by
  have hminor : (0 : UInt32) ≤ 1 := by decide
  have hrun := runs_run (sampleAnswers steadyExport) 0
    (compound openServer (callOf [.opputfh ⟨fileId 1⟩, .opgetfh]) (.new "10.0.0.1" none 0 [] .sys))
  refine ⟨_, _, hrun, (shaped_iff_reports openServer rfl hminor _ hrun).2 fun a ha => ?_⟩
  rcases List.mem_cons.1 ha with rfl | ha
  · exact ⟨nofun, fun _ => ⟨rfl, nofun, rfl⟩⟩
  · rw [List.mem_singleton.1 ha]
    exact ⟨nofun, fun _ => ⟨rfl, nofun, rfl⟩⟩

/-- GETFH with no current filehandle fails without a result. -/
theorem not_shaped_getfh :
    ∃ (h : List (Σ q : Question, q.Answer)) (out : Outcome),
      Runs (compound openServer (callOf [.opgetfh]) (.new "10.0.0.1" none 0 [] .sys)) h (some out) ∧
      out.answered.length = 1 ∧ out.reply.status = .nfs4errNofilehandle ∧
      out.reply.resarray = [] ∧ ¬ out.Shaped [.opgetfh] := by
  refine ⟨_, _, runs_run (sampleAnswers steadyExport) 0 _, rfl, rfl, rfl, fun hshaped => ?_⟩
  cases hshaped.length

end NextNfs.Dispatcher
