import NextNfs.Lib.Run
import NextNfs.Server.Locking

set_option relaxedAutoImplicit false
set_option autoImplicit false

/-!
# Lock owners

A client's first LOCK names its lock owner; later ones may name the stateid that the first one
returned instead. The server should take the two for the same owner. `Lock4args::execute` makes
up an owner from the bytes of the stateid, under client 0, and the lock table takes that owner
for what it says.

## Main definitions

* `NextNfs.Issued` — the owner each stateid was issued to.
* `NextNfs.stepIssuing` — a request, with the stateids it issues.
* `NextNfs.KeepsOwner` — a LOCK under an existing stateid does what a LOCK by its owner does.
* `NextNfs.OwnerIsStateid` — the condition under which it does.

## Main results

* `NextNfs.existing_lock_owner_iff` — every LOCK of a run keeps the owner exactly when every
  one meets the condition.
-/

namespace NextNfs

open Wire

/-! ### Requests -/

/-- A request, with the filehandle LOCK and LOCKT are about. -/
inductive LockOp
  | lock (fh : NfsFh4) (args : Lock4args)
  | lockt (fh : NfsFh4) (args : Lockt4args)
  | locku (args : Locku4args)
  | releaseLockowner (args : ReleaseLockowner4args)

/-- The owner each lock stateid was issued to. -/
def Issued := StateidOther → Option (UInt64 × Bytes)

/-- No stateid was issued. -/
def Issued.none : Issued := fun _ => Option.none

/-- The owner a LOCK is for: the one it names, or the one its stateid was issued to. If it was
issued to none, there is only the one the server makes up. -/
def Lock4args.ownerFor (args : Lock4args) (issued : Issued) : UInt64 × Bytes :=
  match args.locker with
  | .openOwner otl => (otl.lockOwner.clientid, otl.lockOwner.owner)
  | .lockOwner el => (issued el.lockStateid.other).getD args.lockOwner

/-- The stateids issued after a LOCK was answered. -/
def Issued.after (issued : Issued) (owner : UInt64 × Bytes) (response : OpResponse) : Issued :=
  match response.result with
  | some (.oplock (.resok4 resok)) => fun s =>
    if s = resok.lockStateid.other then some owner else issued s
  | _ => issued

/-- A request, with the stateids it issues. -/
def stepIssuing (order : List LockingState → List LockingState) :
    LockTable × Issued → LockOp → Option (LockTable × Issued)
  | (t, issued), .lock fh args =>
    (args.execute order (some fh) t).map fun (t', response) =>
      (t', issued.after (args.ownerFor issued) response)
  | s, .lockt .. => some s
  | (t, issued), .locku args => some ((args.execute t).1, issued)
  | (t, issued), .releaseLockowner args => some ((args.execute t).1, issued)

/-! ### Keeping the owner -/

/-- The LOCK a new lock owner would send in place of this one. -/
def Lock4args.byOwner (args : Lock4args) (owner : UInt64 × Bytes) : Lock4args :=
  { args with locker := .openOwner ⟨0, ⟨0, List.Vector.replicate 12 0⟩, 0, ⟨owner.1, owner.2⟩⟩ }

/-- A LOCK under an existing stateid does what a LOCK by the owner of the stateid does: it gives
the same response and leaves the same table. One under a stateid that was not issued is refused
with NFS4ERR_BAD_STATEID. -/
def KeepsOwner (order : List LockingState → List LockingState) (s : LockTable × Issued) :
    LockOp → Prop
  | .lock fh args =>
    match args.locker with
    | .openOwner _ => True
    | .lockOwner el =>
      match s.2 el.lockStateid.other with
      | some owner => args.execute order (some fh) s.1 =
          (args.byOwner owner).execute order (some fh) s.1
      | none => args.execute order (some fh) s.1 = some (s.1, ⟨none, .nfs4errBadStateid⟩)
  | _ => True

/-- The stateid of a LOCK was issued to the owner that is made up from it, or to one that the
same entry stands in the way of first. -/
def OwnerIsStateid (order : List LockingState → List LockingState) (s : LockTable × Issued) :
    LockOp → Prop
  | .lock fh args =>
    match args.locker with
    | .openOwner _ => True
    | .lockOwner el => ∃ owner, s.2 el.lockStateid.other = some owner ∧
      (owner = (0, el.lockStateid.other.toList) ∨ ∃ e,
        s.1.firstConflict order fh owner.1 owner.2 args.locktype args.offset args.length =
          some e ∧
        s.1.firstConflict order fh 0 el.lockStateid.other.toList args.locktype args.offset
          args.length = some e)
  | _ => True

/-- Two owners of which the first conflicts belong to the same owner have the same first
conflict.
**Proof sketch.** Apart from who asks, conflicts are the same. So the first conflict of each is
one of the other's, and neither can come before the other. -/
lemma firstConflict_unique {order : List LockingState → List LockingState} {t : LockTable}
    {fh : NfsFh4} {client client' : UInt64} {owner owner' : Bytes} {type : NfsLockType4}
    {offset length : UInt64} {e e' : LockingState}
    (he : t.firstConflict order fh client owner type offset length = some e)
    (he' : t.firstConflict order fh client' owner' type offset length = some e')
    (hclient : e.clientId = e'.clientId) (howner : e.owner = e'.owner) : e = e' := by
  have hconflict : e.conflictsWith offset length type owner client = true := by
    simpa using List.find?_some he
  have hconflict' : e'.conflictsWith offset length type owner' client' = true := by
    simpa using List.find?_some he'
  obtain ⟨b, hb, hdiff, hrest⟩ := LockingState.conflictsWith_iff.1 hconflict
  obtain ⟨b', hb', hdiff', hrest'⟩ := LockingState.conflictsWith_iff.1 hconflict'
  obtain ⟨-, -, -, -, -, hbc, hbo⟩ := LockingState.byteLock_eq_some.1 hb
  obtain ⟨-, -, -, -, -, hbc', hbo'⟩ := LockingState.byteLock_eq_some.1 hb'
  have hcross : e'.conflictsWith offset length type owner client = true := by
    refine LockingState.conflictsWith_iff.2 ⟨b', hb', ?_, hrest'⟩
    rwa [← hbc', ← hbo', ← hclient, ← howner, hbc, hbo]
  have hcross' : e.conflictsWith offset length type owner' client' = true := by
    refine LockingState.conflictsWith_iff.2 ⟨b, hb, ?_, hrest⟩
    rwa [← hbc, ← hbo, hclient, howner, hbc', hbo']
  unfold LockTable.firstConflict at he he'
  generalize order _ = l at he he'
  induction l with
  | nil => cases he
  | cons x l ih =>
    rw [List.find?_cons] at he he'
    split at he
    · cases he
      rw [hcross'] at he'
      exact Option.some.inj he'
    · rename_i hx
      split at he'
      · cases he'
        rw [hcross] at hx
        cases hx
      · exact ih he he'

/-- A LOCK does the same for two owners exactly when they are the same or the same entry stands
in the way of both first. -/
lemma handleLock_eq_iff {order : List LockingState → List LockingState} {t t' : LockTable}
    {result : LockResult} {fh : NfsFh4} {client client' : UInt64} {owner owner' : Bytes}
    {type : NfsLockType4} {offset length : UInt64}
    (h : t.handleLock order fh client owner type offset length = some (t', result)) :
    t.handleLock order fh client owner type offset length =
        t.handleLock order fh client' owner' type offset length ↔
      (client', owner') = (client, owner) ∨ ∃ e,
        t.firstConflict order fh client' owner' type offset length = some e ∧
        t.firstConflict order fh client owner type offset length = some e := by
  constructor
  · intro heq
    rw [h] at heq
    cases he : t.firstConflict order fh client owner type offset length with
    | some e =>
      rw [LockTable.handleLock_of_firstConflict he] at h
      cases h
      cases he' : t.firstConflict order fh client' owner' type offset length with
      | some e' =>
        rw [LockTable.handleLock_of_firstConflict he'] at heq
        simp only [Option.some.injEq, Prod.mk.injEq, LockResult.denied.injEq, true_and] at heq
        obtain rfl := firstConflict_unique he he' heq.2.2.2.1 heq.2.2.2.2
        exact Or.inr ⟨e, rfl, rfl⟩
      | none =>
        have hgrant := (LockTable.handleLock_eq_some_of_unopposed he').1 heq.symm
        cases hgrant.1
    | none =>
      obtain ⟨rfl, hinsert, -⟩ := (LockTable.handleLock_eq_some_of_unopposed he).1 h
      cases he' : t.firstConflict order fh client' owner' type offset length with
      | some e' =>
        rw [LockTable.handleLock_of_firstConflict he'] at heq
        cases heq
      | none =>
        obtain ⟨-, hinsert', -⟩ := (LockTable.handleLock_eq_some_of_unopposed he').1 heq.symm
        -- the new entries are the same, and with them their owners
        have hentries := (Table.entries_of_insert hinsert).symm.trans
          (Table.entries_of_insert hinsert')
        simp only [List.append_cancel_left_eq, List.cons.injEq, and_true] at hentries
        have hclient := congrArg LockingState.clientId hentries
        have howner := congrArg LockingState.owner hentries
        exact Or.inl (Prod.ext hclient.symm howner.symm)
  · rintro (heq | ⟨e, he', he⟩)
    · cases heq
      rfl
    · rw [LockTable.handleLock_of_firstConflict he, LockTable.handleLock_of_firstConflict he']

/-- LOCK answers with NFS4_OK or NFS4ERR_DENIED. -/
lemma handleLock_ne_error {order : List LockingState → List LockingState} {t t' : LockTable}
    {fh : NfsFh4} {client : UInt64} {owner : Bytes} {type : NfsLockType4}
    {offset length : UInt64} {status : NfsStat4} :
    t.handleLock order fh client owner type offset length ≠ some (t', .error status) := by
  intro h
  cases he : t.firstConflict order fh client owner type offset length with
  | some e =>
    rw [LockTable.handleLock_of_firstConflict he] at h
    cases h
  | none => cases ((LockTable.handleLock_eq_some_of_unopposed he).1 h).1

/-- Different results are answered differently. -/
lemma LockResult.response_injective {result result' : LockResult}
    (h : result.response = result'.response) : result = result' := by
  cases result <;> cases result' <;> simp_all [LockResult.response]

/-- A LOCK under an existing stateid keeps the owner exactly when the condition is met. -/
lemma keepsOwner_iff {order : List LockingState → List LockingState}
    {s s' : LockTable × Issued} {op : LockOp} (hstep : stepIssuing order s op = some s') :
    KeepsOwner order s op ↔ OwnerIsStateid order s op := by
  cases op with
  | lock fh args =>
    obtain ⟨t, issued⟩ := s
    obtain ⟨⟨t₁, response⟩, hexec, -⟩ := Option.map_eq_some_iff.1 hstep
    obtain ⟨locktype, reclaim, offset, length, locker⟩ := args
    cases locker with
    | openOwner otl => exact Iff.rfl
    | lockOwner el =>
      obtain ⟨⟨_, result⟩, hlock, hresponse⟩ := Option.bind_eq_some_iff.1 hexec
      cases hresponse
      simp only [KeepsOwner, OwnerIsStateid]
      cases hissued : issued el.lockStateid.other with
      | some owner =>
        obtain ⟨client, owner⟩ := owner
        simp only [Option.some.injEq, exists_eq_left']
        refine Iff.trans ?_ (handleLock_eq_iff hlock)
        constructor
        · intro heq
          rw [hexec] at heq
          obtain ⟨⟨_, result'⟩, hlock', hresponse⟩ := Option.bind_eq_some_iff.1 heq.symm
          simp only [Option.pure_def, Option.some.injEq, Prod.mk.injEq] at hresponse
          obtain ⟨rfl, hresponse⟩ := hresponse
          obtain rfl := LockResult.response_injective hresponse
          exact hlock.trans hlock'.symm
        · intro heq
          exact congrArg (Option.bind · fun r => some (r.1, r.2.response)) heq
      | none =>
        refine iff_of_false (fun heq => ?_) (by simp)
        rw [hexec] at heq
        simp only [Option.some.injEq, Prod.mk.injEq] at heq
        cases result with
        | ok stateid => cases heq.2
        | denied => cases heq.2
        | error status => exact handleLock_ne_error hlock
  | lockt => exact Iff.rfl
  | locku => exact Iff.rfl
  | releaseLockowner => exact Iff.rfl

/-- Existing lock owners: starting from any table with no lock stateid issued, every LOCK of a
run that names a stateid does what a LOCK by the owner of the stateid does, and is refused if
there is none, exactly when for every one of them the stateid was issued to the owner that is
made up from it, or both owners are denied on account of the same entry. -/
theorem existing_lock_owner_iff (order : List LockingState → List LockingState) (t : LockTable)
    (ops : List LockOp) :
    Run.Meets (stepIssuing order) (KeepsOwner order) (t, Issued.none) ops ↔
      Run.Meets (stepIssuing order) (OwnerIsStateid order) (t, Issued.none) ops :=
  Run.meets_congr (fun _ _ _ hstep => keepsOwner_iff hstep) _ ops

/-- A LOCK by an owner that names itself. -/
def lockAs (owner : LockOwner4) (offset length : UInt64) : Lock4args :=
  ⟨.writeLt, false, offset, length, .openOwner ⟨0, ⟨0, List.Vector.replicate 12 0⟩, 0, owner⟩⟩

/-- A LOCK under an existing stateid. -/
def lockUnder (stateid : StateidOther) (offset length : UInt64) : Lock4args :=
  ⟨.writeLt, false, offset, length, .lockOwner ⟨⟨1, stateid⟩, 1⟩⟩

/-- An owner that locks bytes 0 to 99 and then, under the stateid it got, bytes 50 to 149, is
denied on account of its own lock; naming itself it would not have been. And a LOCK under a
stateid that was not issued is granted. -/
theorem existing_lock_owner_conflicts_with_itself :
    ∃ s, stepIssuing id (LockTable.new, Issued.none)
        (.lock exampleFh (lockAs ⟨1, [7]⟩ 0 100)) = some s ∧
      s.2 (LockTable.lockingstateId 100) = some (1, [7]) ∧
      ((lockUnder (LockTable.lockingstateId 100) 50 100).execute id (some exampleFh) s.1).map
        (fun r => r.2) =
          some ⟨some (.oplock (.denied ⟨0, 100, .writeLt, ⟨1, [7]⟩⟩)), .nfs4errDenied⟩ ∧
      ((lockAs ⟨1, [7]⟩ 50 100).execute id (some exampleFh) s.1).map (fun r => r.2.status) =
          some .nfs4Ok ∧
      s.2 (LockTable.lockingstateId 5) = none ∧
      ((lockUnder (LockTable.lockingstateId 5) 100 50).execute id (some exampleFh) s.1).map
        (fun r => r.2.status) = some .nfs4Ok ∧
      ¬ Run.Meets (stepIssuing id) (KeepsOwner id) (LockTable.new, Issued.none)
        [.lock exampleFh (lockAs ⟨1, [7]⟩ 0 100),
          .lock exampleFh (lockUnder (LockTable.lockingstateId 100) 50 100)] := by
  refine ⟨_, rfl, by decide, rfl, rfl, by decide, rfl, fun hmeets => ?_⟩
  have hkeeps := ((hmeets _ rfl).2 _ rfl).1
  cases hkeeps

end NextNfs
