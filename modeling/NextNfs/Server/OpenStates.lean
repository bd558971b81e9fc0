import NextNfs.Server.CheckedObject
import NextNfs.Server.StateOps

set_option relaxedAutoImplicit false
set_option autoImplicit false

/-!
# Open states

An open of a file belongs to an open-owner of a client; it says what the owner wants to do with the
file (share access) and what others may not do (share deny). This module is about the opens that a
server grants: whether two of them conflict, and how many an owner has of a file.

## Main definitions

* `NextNfs.LockingState.ShareConflict` — two opens of different owners conflict.
* `NextNfs.Opens.NoConflict`, `NextNfs.Opens.Refuses` — what share reservations are for.
* `NextNfs.Opens.OneEach`, `NextNfs.Opens.Upgrades`, `NextNfs.Opens.Closes` — an owner has one open
  of a file.

## Main results

* `NextNfs.Opens.share_reservations_iff` — there is no conflict when none is asked for.
* `NextNfs.Opens.one_each_iff` — an owner has one open of a file when it opens it only once.

## Implementation notes

Every OPEN that passes its checks makes a new entry; the lock table is not looked at.
-/

namespace NextNfs

open Wire LockTable

/-! ### Share reservations -/

namespace LockingState

/-- The entries are of one owner. -/
def SameOwner (e e' : LockingState) : Prop := e.clientId = e'.clientId ∧ e.owner = e'.owner

/-- An open denies some of the access that another has. -/
def Denies (e e' : LockingState) : Prop := e.shareDeny.getD 0 &&& e'.shareAccess.getD 0 ≠ 0

instance (e e' : LockingState) : Decidable (e.SameOwner e') := inferInstanceAs (Decidable (_ ∧ _))

instance (e e' : LockingState) : Decidable (e.Denies e') := inferInstanceAs (Decidable (_ ≠ _))

/-- Two opens of a file by different owners, one of which denies some of the access of the other. -/
structure ShareConflict (e e' : LockingState) : Prop where
  opens : e.lockType = .openLock ∧ e'.lockType = .openLock
  file : e.filehandleId = e'.filehandleId
  owners : ¬ e.SameOwner e'
  denied : e.Denies e' ∨ e'.Denies e

variable {e e' : LockingState}

lemma SameOwner.symm (h : e.SameOwner e') : e'.SameOwner e := ⟨h.1.symm, h.2.symm⟩

lemma ShareConflict.symm (h : e.ShareConflict e') : e'.ShareConflict e :=
  ⟨h.opens.symm, h.file.symm, fun hs => h.owners hs.symm, h.denied.symm⟩

/-- An open does not conflict with itself. -/
lemma not_shareConflict_self (e : LockingState) : ¬ e.ShareConflict e := fun h =>
  h.owners ⟨rfl, rfl⟩

end LockingState

namespace Opens

section Step

variable {F : Type} [FileSystem F]

/-- No two opens in a lock table conflict. -/
def NoConflict (t : LockTable) : Prop := ∀ e ∈ t.lockdb, ∀ e' ∈ t.lockdb, ¬ e.ShareConflict e'

/-- An OPEN asks for a share reservation that conflicts with an open of the file. -/
def Conflicts (t : LockTable) (args : Open4args) (id : NfsFh4) : Prop :=
  ∃ e ∈ t.lockdb, e.ShareConflict (args.entry id e.stateid)

/-- An OPEN that conflicts is refused with SHARE_DENIED and leaves the lock table as it is. -/
def Refuses (cfg : ServerConfig) (s : System F)
    (a : (List LockingState → List LockingState) × Event) : Prop :=
  ∀ args id, s.opening cfg a = some (args, id) → Conflicts s.fm.locks args id →
    ∀ s', s.stateStep cfg a = some s' →
      (∃ response, s.answer cfg a = some response ∧ response.status = .nfs4errShareDenied) ∧
        s'.fm.locks.lockdb = s.fm.locks.lockdb

/-- A step is not an OPEN that passes its checks and conflicts. -/
def Compatible (cfg : ServerConfig) (s : System F)
    (a : (List LockingState → List LockingState) × Event) : Prop :=
  ∀ args id, s.opening cfg a = some (args, id) → ¬ Conflicts s.fm.locks args id

variable {cfg : ServerConfig} {s s' : System F}
  {a : (List LockingState → List LockingState) × Event} {t t' : LockTable}

/-- A conflict is about the file, the owners and the shares, not the stateids. -/
lemma shareConflict_entry {e : LockingState} {args : Open4args} {id : NfsFh4}
    {stateid stateid' : StateidOther} :
    e.ShareConflict (args.entry id stateid) ↔ e.ShareConflict (args.entry id stateid') :=
  ⟨fun h => ⟨h.opens, h.file, h.owners, h.denied⟩, fun h => ⟨h.opens, h.file, h.owners, h.denied⟩⟩

/-- Without new opens there is no new conflict. -/
lemma NoConflict.of_noNewOpens (h : NoConflict t) (hsub : t.NoNewOpens t') : NoConflict t' := by
  intro e he e' he' hconflict
  exact h e (hsub e he hconflict.opens.1) e' (hsub e' he' hconflict.opens.2) hconflict

/-- A new open that conflicts with none. -/
lemma NoConflict.of_insertNew (h : NoConflict t) {args : Open4args} {id : NfsFh4}
    (hinsert : t.insertNew (args.entry id) = some t') (hfree : ¬ Conflicts t args id) :
    NoConflict t' := by
  have hmem := fun e => (LockTable.of_insertNew hinsert).2 e
  have hnew : ∀ e ∈ t.lockdb, ∀ stateid, ¬ e.ShareConflict (args.entry id stateid) := by
    intro e he stateid hconflict
    exact hfree ⟨e, he, shareConflict_entry.1 hconflict⟩
  intro e he e' he' hconflict
  rcases (hmem e).1 he with hold | rfl
  · rcases (hmem e').1 he' with hold' | rfl
    · exact h e hold e' hold' hconflict
    · exact hnew e hold _ hconflict
  · rcases (hmem e').1 he' with hold' | rfl
    · exact hnew e' hold' _ hconflict.symm
    · exact LockingState.not_shareConflict_self _ hconflict

/-- A step that is compatible makes no conflict. -/
lemma NoConflict.of_step (h : NoConflict s.fm.locks) (hcompatible : Compatible cfg s a)
    (hstep : s.stateStep cfg a = some s') : NoConflict s'.fm.locks := by
  obtain ⟨-, hsub⟩ | ⟨args, id, hopening, hinsert, -⟩ := stateStep_cases hstep
  · exact h.of_noNewOpens hsub
  · exact h.of_insertNew hinsert (hcompatible args id hopening)

/-- An OPEN that passes its checks is granted, so the ones that conflict are not refused. -/
lemma refuses_iff_compatible (hstep : s.stateStep cfg a = some s') :
    Refuses cfg s a ↔ Compatible cfg s a := by
  constructor
  · intro hrefuses args id hopening hconflict
    obtain ⟨⟨response, hanswer, hstatus⟩, -⟩ := hrefuses args id hopening hconflict s' hstep
    obtain ⟨hnone, -⟩ | ⟨args', id', -, -, cinfo, rflags, hgranted⟩ := stateStep_cases hstep
    · rw [hnone] at hopening
      cases hopening
    · rw [hgranted] at hanswer
      cases hanswer
      cases hstatus
  · intro hcompatible args id hopening hconflict
    exact absurd hconflict (hcompatible args id hopening)

/-- **Share reservations.** In a run no two opens of a file by different owners conflict, and the
OPENs that conflict are refused, exactly when no OPEN that passes its checks conflicts with an open
of the file. -/
theorem share_reservations_iff (cfg : ServerConfig) (fs : F) (now : ℕ)
    (as : List ((List LockingState → List LockingState) × Event)) :
    (Run.Holds (System.stateStep cfg) (fun s => NoConflict s.fm.locks) (.start cfg fs now) as ∧
        Run.Meets (System.stateStep cfg) (Refuses cfg) (.start cfg fs now) as) ↔
      Run.Meets (System.stateStep cfg) (Compatible cfg) (.start cfg fs now) as := by
  have hcongr := Run.meets_congr (fun s a s' (hstep : s.stateStep cfg a = some s') =>
    refuses_iff_compatible hstep) (System.start cfg fs now) as
  have hstart : NoConflict (System.start cfg fs now).fm.locks := by
    intro e he
    rw [show (System.start cfg fs now).fm.locks = LockTable.new from startManager_locks ..] at he
    exact absurd he Table.not_mem_empty
  constructor
  · rintro ⟨-, hrefuses⟩
    exact hcongr.1 hrefuses
  · intro hcompatible
    refine ⟨?_, hcongr.2 hcompatible⟩
    exact Run.holds_of_meets (fun s a s' h hC hstep => NoConflict.of_step h hC hstep) hstart
      hcompatible

/-! ### One open for each owner and file -/

/-- An owner has one open of a file. -/
def OneEach (t : LockTable) : Prop :=
  ∀ e ∈ t.lockdb, ∀ e' ∈ t.lockdb, e.lockType = .openLock → e'.lockType = .openLock →
    e.filehandleId = e'.filehandleId → e.SameOwner e' → e = e'

/-- The open that the owner of an OPEN already has of the file. -/
def HasOpen (t : LockTable) (args : Open4args) (id : NfsFh4) (e : LockingState) : Prop :=
  e ∈ t.lockdb ∧ e.lockType = .openLock ∧ e.filehandleId = id ∧
    e.clientId = args.owner.clientid ∧ e.owner = args.owner.owner

/-- An OPEN by an owner that has the file open returns the same stateid with a larger seqid, and its
open has the shares of both. -/
def Upgrades (cfg : ServerConfig) (s : System F)
    (a : (List LockingState → List LockingState) × Event) : Prop :=
  ∀ args id e, s.opening cfg a = some (args, id) → HasOpen s.fm.locks args id e →
    ∀ s', s.stateStep cfg a = some s' →
      (∃ resok status, s.answer cfg a = some ⟨some (.opopen (.resok4 resok)), status⟩ ∧
        resok.stateid.other = e.stateid ∧ e.seqid < resok.stateid.seqid) ∧
      ∃ e' ∈ s'.fm.locks.lockdb, e'.stateid = e.stateid ∧
        e'.shareAccess = some (e.shareAccess.getD 0 ||| args.shareAccess) ∧
        e'.shareDeny = some (e.shareDeny.getD 0 ||| args.shareDeny)

/-- A CLOSE of an open that succeeds leaves its owner no open of the file. -/
def Closes (cfg : ServerConfig) (s : System F)
    (a : (List LockingState → List LockingState) × Event) : Prop :=
  ∀ c caller args e, a.2 = .op c caller (.opclose args) → e ∈ s.fm.locks.lockdb →
    e.lockType = .openLock → e.stateid = args.openStateid.other →
    ∀ s', s.stateStep cfg a = some s' →
      (∃ response, s.answer cfg a = some response ∧ response.status = .nfs4Ok) →
      ∀ e' ∈ s'.fm.locks.lockdb, e'.lockType = .openLock → e'.filehandleId = e.filehandleId →
        ¬ e'.SameOwner e

/-- A step is not an OPEN that passes its checks, by an owner that has the file open. -/
def OpensAnew (cfg : ServerConfig) (s : System F)
    (a : (List LockingState → List LockingState) × Event) : Prop :=
  ∀ args id e, s.opening cfg a = some (args, id) → ¬ HasOpen s.fm.locks args id e

/-- Without new opens an owner has one open of a file still. -/
lemma OneEach.of_noNewOpens (h : OneEach t) (hsub : t.NoNewOpens t') : OneEach t' :=
  fun e he e' he' hopen hopen' => h e (hsub e he hopen) e' (hsub e' he' hopen') hopen hopen'

/-- A new open, of an owner that does not have the file open. -/
lemma OneEach.of_insertNew (h : OneEach t) {args : Open4args} {id : NfsFh4}
    (hinsert : t.insertNew (args.entry id) = some t') (hfree : ∀ e, ¬ HasOpen t args id e) :
    OneEach t' := by
  have hmem := fun e => (LockTable.of_insertNew hinsert).2 e
  intro e he e' he' hopen hopen' hfile howner
  rcases (hmem e).1 he with hold | rfl
  · rcases (hmem e').1 he' with hold' | rfl
    · exact h e hold e' hold' hopen hopen' hfile howner
    · exact absurd ⟨hold, hopen, hfile, howner⟩ (hfree e)
  · rcases (hmem e').1 he' with hold' | rfl
    · exact absurd ⟨hold', hopen', hfile.symm, howner.symm⟩ (hfree e')
    · rfl

lemma OneEach.of_step (h : OneEach s.fm.locks) (hanew : OpensAnew cfg s a)
    (hstep : s.stateStep cfg a = some s') : OneEach s'.fm.locks := by
  obtain ⟨-, hsub⟩ | ⟨args, id, hopening, hinsert, -⟩ := stateStep_cases hstep
  · exact h.of_noNewOpens hsub
  · exact h.of_insertNew hinsert fun e => hanew args id e hopening

/-- An OPEN returns a stateid that was not in use, so it upgrades nothing. -/
lemma upgrades_iff_opensAnew (hstep : s.stateStep cfg a = some s') :
    Upgrades cfg s a ↔ OpensAnew cfg s a := by
  constructor
  · intro hupgrades args id e hopening hhas
    obtain ⟨⟨resok, status, hanswer, hother, -⟩, -⟩ := hupgrades args id e hopening hhas s' hstep
    obtain ⟨hnone, -⟩ | ⟨args', id', -, hinsert, cinfo, rflags, hgranted⟩ := stateStep_cases hstep
    · rw [hnone] at hopening
      cases hopening
    · rw [hgranted] at hanswer
      cases hanswer
      exact ne_of_insertNew hinsert e hhas.1 hother.symm
  · intro hanew args id e hopening hhas
    exact absurd hhas (hanew args id e hopening)

/-- CLOSE needs no permission. -/
lemma checkOp_opclose {names : NameService} {args : Close4args} {req : NfsRequest F}
    {caller : Caller} (status : NfsStat4) :
    checkOp names (.opclose args) req caller ≠ .error status := by
  unfold checkOp
  split_ifs
  · simp
  · split <;> simp

/-- What CLOSE does when it succeeds. -/
lemma close_locks {order : List LockingState → List LockingState} {c : ℕ} {caller : Caller}
    {args : Close4args} {response : OpResponse}
    (hstep : s.stateStep cfg (order, .op c caller (.opclose args)) = some s')
    (hanswer : s.answer cfg (order, .op c caller (.opclose args)) = some response)
    (hstatus : response.status = .nfs4Ok) :
    ∀ e, e ∈ s'.fm.locks.lockdb ↔
      e ∈ s.fm.locks.lockdb ∧ e.stateid ≠ args.openStateid.other := by
  obtain ⟨⟨req', response', silly⟩, hdispatch, rfl⟩ := Option.map_eq_some_iff.1 hstep
  have hresponse : response' = response := by
    have hanswer' : (dispatchState cfg order caller (.opclose args) (s.request c)).map
        (fun res => res.2.1) = some response := hanswer
    rw [hdispatch] at hanswer'
    exact Option.some.inj hanswer'
  subst hresponse
  obtain ⟨⟨status, hcheck⟩, -⟩ | ⟨-, req₁, hexecute, hlocks⟩ := dispatch_eq_some hdispatch
  · exact absurd hcheck (checkOp_opclose status)
  · obtain ⟨⟨req₂, response₂⟩, hclose, heq⟩ := Option.map_eq_some_iff.1 hexecute
    cases heq
    intro e
    show e ∈ req'.fm.locks.lockdb ↔ _
    rw [hlocks]
    unfold Close4args.execute at hclose
    split at hclose
    · cases hclose
      cases hstatus
    · split at hclose
      · cases hclose
      · rename_i fm hfm
        obtain rfl := fileManager_eq hfm
        cases hclose
        refine Table.mem_erase.trans (and_congr_right fun _ => ?_)
        simp

/-- If an owner has one open of each file, a CLOSE leaves it none. -/
lemma OneEach.closes (h : OneEach s.fm.locks) : Closes cfg s a := by
  rintro c caller args e harg he hopen hstateid s' hstep ⟨response, hanswer, hstatus⟩ e' he' hopen'
    hfile howner
  obtain ⟨order, event⟩ := a
  cases harg
  obtain ⟨hold, hne⟩ := (close_locks hstep hanswer hstatus e').1 he'
  have hsame := h e' hold e he hopen' hopen hfile howner
  exact hne (by rw [hsame, hstateid])

/-- **One open state for each owner and file.** In a run an owner has one open of a file, which
another OPEN upgrades and a CLOSE ends, exactly when no OPEN that passes its checks is by an owner
that has the file open. -/
theorem one_each_iff (cfg : ServerConfig) (fs : F) (now : ℕ)
    (as : List ((List LockingState → List LockingState) × Event)) :
    (Run.Holds (System.stateStep cfg) (fun s => OneEach s.fm.locks) (.start cfg fs now) as ∧
        Run.Meets (System.stateStep cfg) (fun s a => Upgrades cfg s a ∧ Closes cfg s a)
          (.start cfg fs now) as) ↔
      Run.Meets (System.stateStep cfg) (OpensAnew cfg) (.start cfg fs now) as := by
  have hstart : OneEach (System.start cfg fs now).fm.locks := by
    intro e he
    rw [show (System.start cfg fs now).fm.locks = LockTable.new from startManager_locks ..] at he
    exact absurd he Table.not_mem_empty
  have hkept : ∀ (s : System F) a s', OneEach s.fm.locks → OpensAnew cfg s a →
      s.stateStep cfg a = some s' → OneEach s'.fm.locks :=
    fun s a s' h hanew hstep => h.of_step hanew hstep
  constructor
  · rintro ⟨-, hmeets⟩
    refine Run.meets_of_meets (P := fun _ => True) (fun s a s' _ hC hstep => ?_) trivial hmeets
    exact ⟨(upgrades_iff_opensAnew hstep).1 hC.1, trivial⟩
  · intro hanew
    refine ⟨Run.holds_of_meets hkept hstart hanew, ?_⟩
    refine Run.meets_of_meets (P := fun s : System F => OneEach s.fm.locks)
      (fun s a s' h hC hstep => ?_) hstart hanew
    exact ⟨⟨(upgrades_iff_opensAnew hstep).2 hC, OneEach.closes h⟩, hkept s a s' h hC hstep⟩

end Step

section Examples

lemma openConfig_exportId : (0 : UInt8) < 1 ∧ (1 : UInt8) < 0xFE := by decide

/-- An export with the files of the other examples. -/
def openConfig : ServerConfig := ⟨⟨1, openConfig_exportId⟩, "home", noNames⟩

/-- OPEN of the file, by an owner of a client. -/
def opensFile (client : UInt64) (owner : Bytes) (access deny : UInt32) :
    (List LockingState → List LockingState) × Event :=
  (fun l => l, .op 0 ⟨0, 0, []⟩
    (.opopen ⟨1, access, deny, ⟨client, owner⟩, .open4Nocreate, .claimNull "f"⟩))

/-- The current filehandle is the root. -/
def putsRoot : (List LockingState → List LockingState) × Event :=
  (fun l => l, .op 0 ⟨0, 0, []⟩ .opputrootfh)

/-- Two clients that deny each other to read open the file to read. -/
theorem not_share_reservations_two_clients :
    ¬ Run.Holds (System.stateStep openConfig) (fun s => NoConflict s.fm.locks)
      (.start openConfig sharedFs 0)
      [putsRoot, opensFile 1 [1] 1 1, putsRoot, opensFile 2 [2] 1 1] := by
  intro h
  have hrun : ∃ s, [putsRoot, opensFile 1 [1] 1 1, putsRoot, opensFile 2 [2] 1 1].foldlM
      (System.stateStep openConfig) (.start openConfig sharedFs 0) = some s ∧
      ∃ e e', s.fm.locks.lockdb.entries = [e, e'] ∧ e.ShareConflict e' := by
    refine ⟨_, rfl, _, _, rfl, ?_⟩
    exact ⟨by decide, by decide, by decide, by decide⟩
  obtain ⟨s, hs, e, e', hentries, hconflict⟩ := hrun
  refine h.last hs e ?_ e' ?_ hconflict
  · show e ∈ s.fm.locks.lockdb.entries
    rw [hentries]
    exact List.mem_cons_self
  · show e' ∈ s.fm.locks.lockdb.entries
    rw [hentries]
    exact List.mem_cons_of_mem _ List.mem_cons_self

/-- An owner opens the file twice, and has two opens of it. -/
theorem not_one_each_two_opens :
    ¬ Run.Holds (System.stateStep openConfig) (fun s => OneEach s.fm.locks)
      (.start openConfig sharedFs 0)
      [putsRoot, opensFile 1 [1] 1 0, putsRoot, opensFile 1 [1] 2 0] := by
  intro h
  have hrun : ∃ s, [putsRoot, opensFile 1 [1] 1 0, putsRoot, opensFile 1 [1] 2 0].foldlM
      (System.stateStep openConfig) (.start openConfig sharedFs 0) = some s ∧
      ∃ e e', s.fm.locks.lockdb.entries = [e, e'] ∧ e.lockType = .openLock ∧
        e'.lockType = .openLock ∧ e.filehandleId = e'.filehandleId ∧ e.SameOwner e' ∧ e ≠ e' := by
    refine ⟨_, rfl, _, _, rfl, ?_⟩
    exact ⟨by decide, by decide, by decide, by decide, by decide⟩
  obtain ⟨s, hs, e, e', hentries, hopen, hopen', hfile, howner, hne⟩ := hrun
  refine hne (h.last hs e ?_ e' ?_ hopen hopen' hfile howner)
  · show e ∈ s.fm.locks.lockdb.entries
    rw [hentries]
    exact List.mem_cons_self
  · show e' ∈ s.fm.locks.lockdb.entries
    rw [hentries]
    exact List.mem_cons_of_mem _ List.mem_cons_self

end Examples

end Opens

end NextNfs
