import NextNfs.Server.ByteRangeLocks
import NextNfs.Server.OpenStates

set_option relaxedAutoImplicit false
set_option autoImplicit false

/-!
# The open that a stateid names

OPEN_CONFIRM, OPEN_DOWNGRADE and CLOSE are given the stateid of an open of the current file
(`nfs40/op_openconfirm.rs`, `nfs40/op_open_downgrade.rs`, `nfs40/op_close.rs`). This module is about
whether they act on that open and on no other.

## Main definitions

* `NextNfs.NfsRequest.Named` — the open of the current file that a stateid names.
* `NextNfs.Opens.OnOpen` — the three operations, with what they make of an open.
* `NextNfs.Opens.ActsOnNamed` — an operation acts on the open that is named, or is refused.

## Main results

* `NextNfs.Opens.acts_on_named_iff` — when the three operations do.

## Implementation notes

OPEN_CONFIRM and OPEN_DOWNGRADE take the first entry of the list in the current filehandle, which is
a copy of what the lock table held for the file when the filehandle was looked up. Neither changes
the lock table. CLOSE removes what is under the stateid, whatever it is.
-/

namespace NextNfs

open Wire LockTable

section Named

variable {F : Type}

/-- The open of the current file that a stateid names. -/
def NfsRequest.Named (req : NfsRequest F) (stateid : Stateid4) (e : LockingState) : Prop :=
  e ∈ req.fm.locks.lockdb ∧ e.lockType = .openLock ∧ e.stateid = stateid.other ∧
    ∃ fh, req.conn.filehandle = some fh ∧ e.filehandleId = fh.id

/-- A stateid names an open of the current file. -/
def NfsRequest.Live (req : NfsRequest F) (stateid : Stateid4) : Prop := ∃ e, req.Named stateid e

end Named

namespace Opens

/-- The operations that are given the stateid of an open. -/
inductive OnOpen
  | confirm
  | downgrade (shareAccess shareDeny : UInt32)
  | close

namespace OnOpen

/-- The operation that an argument is, with the stateid it is given. -/
def ofArg : NfsArgOp → Option (Stateid4 × OnOpen)
  | .opopenConfirm args => some (args.openStateid, .confirm)
  | .opopenDowngrade args => some (args.openStateid, .downgrade args.shareAccess args.shareDeny)
  | .opclose args => some (args.openStateid, .close)
  | _ => none

/-- The arguments besides the stateid are valid. -/
def Valid : OnOpen → Prop
  | .downgrade shareAccess _ => ¬ (shareAccess = 0 ∨ shareAccess > 3)
  | _ => True

/-- What the operation is to make of an open. -/
def Effect (o : OnOpen) (e : LockingState) (t' : LockTable) : Prop :=
  match o with
  | .confirm => ∃ e' ∈ t'.lockdb, e'.stateid = e.stateid ∧ e'.lockType = .openLock ∧
      e'.filehandleId = e.filehandleId ∧ e'.SameOwner e ∧ e'.shareAccess = e.shareAccess ∧
      e'.shareDeny = e.shareDeny
  | .downgrade shareAccess shareDeny =>
    ∃ e' ∈ t'.lockdb, e'.stateid = e.stateid ∧ e'.lockType = .openLock ∧
      e'.filehandleId = e.filehandleId ∧ e'.SameOwner e ∧ e'.shareAccess = some shareAccess ∧
      e'.shareDeny = some shareDeny
  | .close => ∀ e' ∈ t'.lockdb, e'.stateid ≠ e.stateid

end OnOpen

/-- The stateid that an operation on an open returns. -/
def returned : OpResponse → Option Stateid4
  | ⟨some (.opopenConfirm (.resok4 resok)), _⟩ => some resok.openStateid
  | ⟨some (.opopenDowngrade (.resok4 resok)), _⟩ => some resok.openStateid
  | ⟨some (.opclose (.openStateid stateid)), _⟩ => some stateid
  | _ => none

section Step

variable {F : Type}

/-- An operation acts on the open that the stateid names; without one it is refused. -/
structure ActsOnNamed (req : NfsRequest F) (stateid : Stateid4) (o : OnOpen) (t' : LockTable)
    (response : OpResponse) : Prop where
  acts : ∀ e, req.Named stateid e → response.status = .nfs4Ok →
    (returned response).map Stateid4.other = some stateid.other ∧ o.Effect e t'
  refuses : ¬ req.Live stateid → response.status ≠ .nfs4Ok ∧
    (req.conn.filehandle ≠ none → o.Valid → response.status = .nfs4errBadStateid)
  spares : req.Live stateid → response.status ≠ .nfs4errBadStateid
  failed : response.status ≠ .nfs4Ok → t'.lockdb = req.fm.locks.lockdb
  others : ∀ e, e.stateid ≠ stateid.other → (e ∈ t'.lockdb ↔ e ∈ req.fm.locks.lockdb)

/-- The list in a filehandle starts with the entry that a stateid names, and is empty if it names
none. -/
def Leads (req : NfsRequest F) (stateid : Stateid4) (fh : Filehandle) : Prop :=
  (req.Live stateid ∧ fh.locks.head?.map LockingState.stateid = some stateid.other) ∨
    (¬ req.Live stateid ∧ fh.locks = [])

/-- The states and arguments for which an operation acts on the open that is named: what
OPEN_CONFIRM finds in the filehandle is that open, what OPEN_DOWNGRADE finds there is that open and
has the shares already, and CLOSE is given a stateid that names one. -/
def OnOpen.Targets (o : OnOpen) (req : NfsRequest F) (stateid : Stateid4) : Prop :=
  ∀ fh, req.conn.filehandle = some fh →
    match o with
    | .confirm => Leads req stateid fh
    | .downgrade shareAccess shareDeny => o.Valid → Leads req stateid fh ∧
        ∀ e, req.Named stateid e → e.shareAccess = some shareAccess ∧ e.shareDeny = some shareDeny
    | .close => req.Live stateid

variable {req req' : NfsRequest F} {stateid : Stateid4} {o : OnOpen} {response : OpResponse}
  {fh : Filehandle}

/-- Without a current filehandle no stateid names an open of the current file. -/
lemma not_live_of_none (h : req.conn.filehandle = none) : ¬ req.Live stateid := by
  rintro ⟨e, -, -, -, fh, hfh, -⟩
  rw [h] at hfh
  cases hfh

/-- There is one entry under a stateid. -/
lemma eq_of_named {e e' : LockingState} (h : req.Named stateid e) (h' : e' ∈ req.fm.locks.lockdb)
    (heq : e'.stateid = stateid.other) : e' = e :=
  LockTable.eq_of_stateid_eq h' h.1 (heq.trans h.2.2.1.symm)

/-- An operation that is refused without a current filehandle. -/
lemma actsOnNamed_of_none (h : req.conn.filehandle = none)
    (hstatus : response.status = .nfs4errNofilehandle) :
    ActsOnNamed req stateid o req.fm.locks response where
  acts e he _ := absurd ⟨e, he⟩ (not_live_of_none h)
  refuses _ := ⟨by rw [hstatus]; decide, fun hne => absurd h hne⟩
  spares _ := by rw [hstatus]; decide
  failed _ := rfl
  others _ _ := Iff.rfl

/-- An operation that succeeds and leaves the table as it is: the stateid is to name an open, which
is the one returned and already is what the operation makes of it. -/
lemma actsOnNamed_ok {other : StateidOther} (hstatus : response.status = .nfs4Ok)
    (hreturned : (returned response).map Stateid4.other = some other) :
    ActsOnNamed req stateid o req.fm.locks response ↔
      req.Live stateid ∧ other = stateid.other ∧
        ∀ e, req.Named stateid e → o.Effect e req.fm.locks := by
  constructor
  · intro h
    have hlive : req.Live stateid := by
      by_contra hnot
      exact (h.refuses hnot).1 hstatus
    obtain ⟨e, he⟩ := hlive
    refine ⟨⟨e, he⟩, ?_, fun e' he' => (h.acts e' he' hstatus).2⟩
    have hother := (h.acts e he hstatus).1
    rw [hreturned] at hother
    exact Option.some.inj hother
  · rintro ⟨hlive, rfl, heffect⟩
    exact {
      acts := fun e he _ => ⟨hreturned, heffect e he⟩
      refuses := fun hnot => absurd hlive hnot
      spares := fun _ => by rw [hstatus]; decide
      failed := fun hne => absurd hstatus hne
      others := fun _ _ => Iff.rfl }

/-- An operation that is refused with BAD_STATEID: the stateid is to name no open. -/
lemma actsOnNamed_badStateid (hstatus : response.status = .nfs4errBadStateid) :
    ActsOnNamed req stateid o req.fm.locks response ↔ ¬ req.Live stateid := by
  constructor
  · intro h hlive
    exact h.spares hlive hstatus
  · intro hnot
    exact {
      acts := fun e he _ => absurd ⟨e, he⟩ hnot
      refuses := fun _ => ⟨by rw [hstatus]; decide, fun _ _ => hstatus⟩
      spares := fun hlive => absurd hlive hnot
      failed := fun _ => rfl
      others := fun _ _ => Iff.rfl }

/-- An operation with arguments that are not valid is refused. -/
lemma actsOnNamed_of_not_valid (hvalid : ¬ o.Valid) (hstatus : response.status = .nfs4errInval) :
    ActsOnNamed req stateid o req.fm.locks response where
  acts _ _ hok := by rw [hstatus] at hok; cases hok
  refuses _ := ⟨by rw [hstatus]; decide, fun _ h => absurd h hvalid⟩
  spares _ := by rw [hstatus]; decide
  failed _ := rfl
  others _ _ := Iff.rfl

/-- The open that is confirmed stays as it is. -/
lemma effect_confirm {e : LockingState} (h : req.Named stateid e) :
    OnOpen.confirm.Effect e req.fm.locks :=
  ⟨e, h.1, rfl, h.2.1, rfl, ⟨rfl, rfl⟩, rfl, rfl⟩

/-- An open that stays as it is has the shares it had. -/
lemma effect_downgrade {e : LockingState} {shareAccess shareDeny : UInt32}
    (h : req.Named stateid e) :
    (OnOpen.downgrade shareAccess shareDeny).Effect e req.fm.locks ↔
      e.shareAccess = some shareAccess ∧ e.shareDeny = some shareDeny := by
  constructor
  · rintro ⟨e', he', hstateid, -, -, -, haccess, hdeny⟩
    obtain rfl := eq_of_named h he' (hstateid.trans h.2.2.1)
    exact ⟨haccess, hdeny⟩
  · rintro ⟨haccess, hdeny⟩
    exact ⟨e, h.1, rfl, h.2.1, rfl, ⟨rfl, rfl⟩, haccess, hdeny⟩

/-- OPEN_CONFIRM acts on the open that is named exactly when it finds it in the filehandle. -/
lemma actsOnNamed_confirm (args : OpenConfirm4args) (req : NfsRequest F) :
    ActsOnNamed req args.openStateid .confirm (args.execute req).1.fm.locks (args.execute req).2 ↔
      OnOpen.confirm.Targets req args.openStateid := by
  unfold OpenConfirm4args.execute OnOpen.Targets
  cases hfh : req.conn.filehandle with
  | none => exact iff_of_true (actsOnNamed_of_none hfh rfl) (by rintro fh ⟨⟩)
  | some fh =>
    have hone : (∀ fh', some fh = some fh' → Leads req args.openStateid fh') ↔
        Leads req args.openStateid fh := by simp
    refine Iff.trans ?_ hone.symm
    unfold Leads
    cases hlocks : fh.locks with
    | nil =>
      simp only [hlocks]
      apply (actsOnNamed_badStateid rfl).trans
      simp
    | cons lock rest =>
      simp only [hlocks]
      apply (actsOnNamed_ok rfl rfl).trans
      have hlead : req.Live args.openStateid ∧ lock.stateid = args.openStateid.other ↔
          req.Live args.openStateid ∧
              (lock :: rest).head?.map LockingState.stateid = some args.openStateid.other ∨
            ¬ req.Live args.openStateid ∧ lock :: rest = [] := by simp
      rw [← hlead, ← and_assoc]
      exact and_iff_left fun e he => effect_confirm he

/-- OPEN_DOWNGRADE acts on the open that is named exactly when it finds it in the filehandle, with
the shares it is to have. -/
lemma actsOnNamed_downgrade (args : OpenDowngrade4args) (req : NfsRequest F) :
    ActsOnNamed req args.openStateid (.downgrade args.shareAccess args.shareDeny)
        (args.execute req).1.fm.locks (args.execute req).2 ↔
      (OnOpen.downgrade args.shareAccess args.shareDeny).Targets req args.openStateid := by
  unfold OpenDowngrade4args.execute OnOpen.Targets
  cases hfh : req.conn.filehandle with
  | none => exact iff_of_true (actsOnNamed_of_none hfh rfl) (by rintro fh ⟨⟩)
  | some fh =>
    dsimp only
    split_ifs with hinval
    · have hvalid : ¬ (OnOpen.downgrade args.shareAccess args.shareDeny).Valid :=
        fun h => h hinval
      exact iff_of_true (actsOnNamed_of_not_valid hvalid rfl) fun fh' _ h => absurd h hvalid
    · have hvalid : (OnOpen.downgrade args.shareAccess args.shareDeny).Valid := hinval
      have hone : (∀ fh', some fh = some fh' →
          (OnOpen.downgrade args.shareAccess args.shareDeny).Valid →
            Leads req args.openStateid fh' ∧ ∀ e, req.Named args.openStateid e →
              e.shareAccess = some args.shareAccess ∧ e.shareDeny = some args.shareDeny) ↔
          Leads req args.openStateid fh ∧ ∀ e, req.Named args.openStateid e →
              e.shareAccess = some args.shareAccess ∧ e.shareDeny = some args.shareDeny := by
        simp [hvalid]
      refine Iff.trans ?_ hone.symm
      unfold Leads
      cases hlocks : fh.locks with
      | nil =>
        simp only
        apply (actsOnNamed_badStateid rfl).trans
        constructor
        · intro hnot
          exact ⟨Or.inr ⟨hnot, trivial⟩, fun e he => absurd ⟨e, he⟩ hnot⟩
        · rintro ⟨⟨-, hhead⟩ | ⟨hnot, -⟩, -⟩
          · cases hhead
          · exact hnot
      | cons lock rest =>
        simp only
        apply (actsOnNamed_ok rfl rfl).trans
        have heffect : (∀ e, req.Named args.openStateid e →
            (OnOpen.downgrade args.shareAccess args.shareDeny).Effect e req.fm.locks) ↔
            ∀ e, req.Named args.openStateid e →
              e.shareAccess = some args.shareAccess ∧ e.shareDeny = some args.shareDeny :=
          forall_congr' fun e => forall_congr' fun he => effect_downgrade he
        rw [heffect, ← and_assoc]
        simp

/-- CLOSE acts on the open that is named exactly when there is one. -/
lemma actsOnNamed_close {args : Close4args} (h : args.execute req = some (req', response)) :
    ActsOnNamed req args.openStateid .close req'.fm.locks response ↔
      OnOpen.close.Targets req args.openStateid := by
  unfold Close4args.execute at h
  unfold OnOpen.Targets
  cases hfh : req.conn.filehandle with
  | none =>
    rw [hfh] at h
    cases h
    exact iff_of_true (actsOnNamed_of_none hfh rfl) (by rintro fh ⟨⟩)
  | some fh =>
    simp only [hfh] at h
    split at h
    · cases h
    · rename_i fm hfm
      obtain rfl := fileManager_eq hfm
      cases h
      have hmem : ∀ e, e ∈ (req.fm.closeFile args.openStateid.other).locks.lockdb ↔
          e ∈ req.fm.locks.lockdb ∧ e.stateid ≠ args.openStateid.other := by
        intro e
        refine Table.mem_erase.trans (and_congr_right fun _ => ?_)
        simp
      constructor
      · intro hacts fh' _
        by_contra hnot
        exact (hacts.refuses hnot).1 rfl
      · intro htargets
        have hlive := htargets fh rfl
        exact {
          acts := fun e he _ => ⟨rfl, fun e' he' => by
            rw [he.2.2.1]
            exact ((hmem e').1 he').2⟩
          refuses := fun hnot => absurd hlive hnot
          spares := fun _ h => by cases h
          failed := fun hne => absurd rfl hne
          others := fun e hne => ⟨fun he => ((hmem e).1 he).1, fun he => (hmem e).2 ⟨he, hne⟩⟩ }

variable [FileSystem F]

/-- Every operation of a step that is given the stateid of an open acts on that open. -/
def ActsNamed (cfg : ServerConfig) (s : System F)
    (a : (List LockingState → List LockingState) × Event) : Prop :=
  ∀ c caller arg stateid o, a.2 = .op c caller arg → OnOpen.ofArg arg = some (stateid, o) →
    ∀ s' response, s.stateStep cfg a = some s' → s.answer cfg a = some response →
      ActsOnNamed (s.request c) stateid o s'.fm.locks response

/-- An operation of a step that is given the stateid of an open finds that open. -/
def TargetsNamed (s : System F) (a : (List LockingState → List LockingState) × Event) : Prop :=
  ∀ c caller arg stateid o, a.2 = .op c caller arg → OnOpen.ofArg arg = some (stateid, o) →
    o.Targets (s.request c) stateid

variable {cfg : ServerConfig} {s s' : System F}
  {a : (List LockingState → List LockingState) × Event}

/-- One operation that is given the stateid of an open. -/
lemma actsOnNamed_iff {order : List LockingState → List LockingState} {caller : Caller}
    {arg : NfsArgOp} {silly : Option VfsPath} (harg : OnOpen.ofArg arg = some (stateid, o))
    (h : dispatchState cfg order caller arg req = some (req', response, silly)) :
    ActsOnNamed req stateid o req'.fm.locks response ↔ o.Targets req stateid := by
  unfold OnOpen.ofArg at harg
  split at harg
  · rename_i args
    cases harg
    cases h
    exact actsOnNamed_confirm args req
  · rename_i args
    cases harg
    cases h
    exact actsOnNamed_downgrade args req
  · rename_i args
    cases harg
    obtain ⟨⟨status, hcheck⟩, -⟩ | ⟨-, req₁, hexecute, hlocks⟩ := dispatch_eq_some h
    · exact absurd hcheck (checkOp_opclose status)
    · obtain ⟨⟨req₂, response₂⟩, hclose, heq⟩ := Option.map_eq_some_iff.1 hexecute
      cases heq
      rw [hlocks]
      exact actsOnNamed_close hclose
  · cases harg

/-- A step acts on the open that is named exactly when it finds it. -/
lemma actsNamed_iff_targetsNamed (hstep : s.stateStep cfg a = some s') :
    ActsNamed cfg s a ↔ TargetsNamed s a := by
  obtain ⟨order, event⟩ := a
  refine forall_congr' fun c => forall_congr' fun caller => forall_congr' fun arg =>
    forall_congr' fun stateid => forall_congr' fun o => forall_congr' fun hevent =>
      forall_congr' fun harg => ?_
  cases hevent
  obtain ⟨⟨req', response, silly⟩, hdispatch, rfl⟩ := Option.map_eq_some_iff.1 hstep
  have hanswer : s.answer cfg (order, .op c caller arg) = some response :=
    Option.map_eq_some_iff.2 ⟨_, hdispatch, rfl⟩
  rw [← actsOnNamed_iff harg hdispatch]
  constructor
  · intro hacts
    exact hacts _ response hstep hanswer
  · intro hacts s' response' hstep' hanswer'
    rw [hstep] at hstep'
    rw [hanswer] at hanswer'
    cases hstep'
    cases hanswer'
    exact hacts

/-- **The open that a stateid names.** In a run every OPEN_CONFIRM, OPEN_DOWNGRADE and CLOSE acts on
the open that its stateid names, exactly when OPEN_CONFIRM and OPEN_DOWNGRADE find it first in the
current filehandle (or find none there when it names none), OPEN_DOWNGRADE finds it with the shares
it is to have, and CLOSE is given a stateid that names one.

**Proof sketch.** It is so for every step, from any state: what the operations do is read off from
what is in the filehandle and in the lock table. -/
theorem acts_on_named_iff (cfg : ServerConfig) (fs : F) (now : ℕ)
    (as : List ((List LockingState → List LockingState) × Event)) :
    Run.Meets (System.stateStep cfg) (ActsNamed cfg) (.start cfg fs now) as ↔
      Run.Meets (System.stateStep cfg) TargetsNamed (.start cfg fs now) as :=
  Run.meets_congr (fun _ _ _ hstep => actsNamed_iff_targetsNamed hstep) _ as

end Step

section Examples

/-- OPEN_CONFIRM of the stateid. -/
def confirms (stateid : Stateid4) : (List LockingState → List LockingState) × Event :=
  (fun l => l, .op 0 ⟨0, 0, []⟩ (.opopenConfirm ⟨stateid, 1⟩))

/-- Two owners have the file open; the second confirms its open and gets the stateid of the
first. -/
theorem not_acts_on_named_two_owners :
    ¬ Run.Meets (System.stateStep openConfig) (ActsNamed openConfig) (.start openConfig sharedFs 0)
      [putsRoot, opensFile 1 [1] 1 0, putsRoot, opensFile 1 [2] 1 0,
        confirms ⟨1, lockingstateId 101⟩] := by
  intro h
  have hrun : ∃ s s' response,
      [putsRoot, opensFile 1 [1] 1 0, putsRoot, opensFile 1 [2] 1 0].foldlM
        (System.stateStep openConfig) (.start openConfig sharedFs 0) = some s ∧
      s.stateStep openConfig (confirms ⟨1, lockingstateId 101⟩) = some s' ∧
      s.answer openConfig (confirms ⟨1, lockingstateId 101⟩) = some response ∧
      response.status = .nfs4Ok ∧
      (returned response).map Stateid4.other = some (lockingstateId 100) ∧
      (s.request 0).Live ⟨1, lockingstateId 101⟩ := by
    refine ⟨_, _, _, rfl, rfl, rfl, rfl, rfl, _, List.mem_cons_of_mem _ List.mem_cons_self, ?_⟩
    exact ⟨by decide, by decide, _, rfl, by decide⟩
  obtain ⟨s, s', response, hs, hstep, hanswer, hok, hreturned, e, he⟩ := hrun
  have hmeets := h.last hs hstep
  have hother := ((hmeets 0 _ _ _ _ rfl rfl s' response hstep hanswer).acts e he hok).1
  rw [hreturned] at hother
  exact absurd hother (by decide)

end Examples

end Opens

end NextNfs
