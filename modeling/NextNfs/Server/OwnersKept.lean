import NextNfs.Server.OwnedFs

set_option relaxedAutoImplicit false
set_option autoImplicit false

/-!
# Ownership is seized

Before an operation the dispatcher decides whether it will create an object, and after it gives the
current filehandle to the caller. This module says exactly when the object that is given away was
there before the operation.

## Main definitions

* `NextNfs.dispatchUnder` — one operation of a compound, on an export with a quota.
* `NextNfs.OwnersKept` — the operation leaves the owners of the objects that exist as they are.
* `NextNfs.Seizes` — the operation gives an object that exists to the caller.

## Main results

* `NextNfs.ownersKept_iff_not_seizes` — exactly the operations that do not seize an object leave the
  owners as they are.
* `NextNfs.not_ownersKept_takeDir` — CREATE gives a directory of somebody else to the caller.

## Implementation notes

An operation is one step here: no other operation comes between the check, the operation and the
change of the owner. The operations that are not modelled as a step, and those that do not create an
object, make no call that changes an owner, whatever the others do between their calls.
-/

namespace NextNfs

open Wire Dialogue

section Dispatch

variable {F : Type} [FileSystem F]

/-- An operation is refused because the quota of the export is exceeded. -/
def quotaRefuses (quota : Option QuotaManager) (arg : NfsArgOp) (req : NfsRequest F) : Bool :=
  match arg with
  | .opopen args => args.quotaRefuses quota req
  | .opcreate args =>
    req.conn.filehandle.isSome && args.objname != "" && quota.any fun q => !q.checkWrite 0
  | _ => false

variable [HasOwners F] [AttributeCalls F]

/-- One operation of a compound, on an export with a quota: an operation on names, or SETATTR. -/
def dispatchUnder (cfg : ServerConfig) (quota : Option QuotaManager) (caller : Caller)
    (arg : NfsArgOp) (req : NfsRequest F) : Option (NfsRequest F × OpResponse × Option VfsPath) :=
  match checkOp cfg.names arg req caller with
  | .error status => some (req, ⟨some (.opError (UInt32.ofNat (opCode arg)) status), status⟩, none)
  | .ok _ =>
    if quotaRefuses quota arg req then some (req, ⟨none, .nfs4errDquot⟩, none)
    else
      match arg with
      | .opsetattr args => (args.execute cfg.names req).map fun res => (res.1, res.2, none)
      | _ => dispatch cfg caller arg req

/-- SETATTR of the owner or the group that `check_setattr` permits to the caller. -/
def PermittedChange (cfg : ServerConfig) (caller : Caller) (arg : NfsArgOp) (req : NfsRequest F) :
    Prop :=
  ∃ args fh, arg = .opsetattr args ∧ req.conn.filehandle = some fh ∧
    args.objAttributes.attrVals.any setsOwner = true ∧
    (checkSetattr cfg.names caller req.fm.fs (fh.real F) args.objAttributes.attrVals).isOk = true

/-- The operation leaves the owners of the objects that exist as they are, or it is a change of them
that is permitted. -/
def OwnersKept (cfg : ServerConfig) (quota : Option QuotaManager) (caller : Caller) (arg : NfsArgOp)
    (req : NfsRequest F) : Prop :=
  ∀ req' r silly, dispatchUnder cfg quota caller arg req = some (req', r, silly) →
    KeepsOwners req.fm.fs req'.fm.fs ∨ PermittedChange cfg caller arg req

/-- The operation gives an object that exists to the caller: CREATE of a directory under a name that
exists, or OPEN with a create mode of a name that the check does not find although the file it leads
to exists. -/
def Seizes (cfg : ServerConfig) (quota : Option QuotaManager) (caller : Caller) (arg : NfsArgOp)
    (req : NfsRequest F) : Prop :=
  (checkOp cfg.names arg req caller).isOk = true ∧ quotaRefuses quota arg req = false ∧
  req.conn.managed = true ∧
  match arg with
  | .opcreate args => args.objtype = .nf4dir ∧
    ∃ fh p, args.target req = .ok (fh, p) ∧ TakesFrom req.fm.fs req.fm.fs caller p
  | .opopen args => req.fm.locks.Fresh ∧ ∃ how fh name p fs₁, args.openhow = .how how ∧
    (∀ attrs, how ≠ .guarded4 attrs) ∧ args.target req = .ok (fh, name) ∧
    symlinkMetadata req.fm.fs (fh.realChild F name) = none ∧ FileSystem.join F fh.file name = some p ∧
    createFile req.fm.fs p = some fs₁ ∧ TakesFrom req.fm.fs fs₁ caller p
  | _ => False

variable {cfg : ServerConfig} {quota : Option QuotaManager} {caller : Caller} {arg : NfsArgOp}
  {req req' : NfsRequest F} {r : OpResponse} {silly : Option VfsPath}

omit [AttributeCalls F] in
/-- The operations other than CREATE and OPEN give nothing away. -/
lemma keepsOwners_dispatch (h : dispatch cfg caller arg req = some (req', r, silly))
    (hcreate : ∀ args, arg ≠ .opcreate args) (hopen : ∀ args, arg ≠ .opopen args) :
    KeepsOwners req.fm.fs req'.fm.fs := by
  have hquiet : createsObject arg req = false := by
    unfold createsObject
    split
    · rename_i args
      exact absurd rfl (hcreate args)
    · rename_i args
      exact absurd rfl (hopen args)
    · rfl
  have hexec : req'.fm.fs = req.fm.fs ∨ execute cfg arg req = some (req', r, silly) := by
    unfold dispatch at h
    rw [hquiet] at h
    split at h
    · cases h
      exact .inl rfl
    · split at h
      · cases h
      · rename_i hexec
        simp only [Bool.false_and, Bool.false_eq_true, if_false] at h
        rw [hexec, h]
        exact .inr rfl
  rcases hexec with hsame | hexec
  · rw [hsame]
    exact .refl _
  have hlook : ∀ {o : Option (NfsRequest F × OpResponse)},
      o.map (fun res => (res.1, res.2, (none : Option VfsPath))) = some (req', r, silly) →
        o = some (req', r) := by
    intro o ho
    obtain ⟨⟨req₁, r₁⟩, rfl, heq⟩ := Option.map_eq_some_iff.1 ho
    cases heq
    rfl
  have hsame : req'.fm.fs = req.fm.fs → KeepsOwners req.fm.fs req'.fm.fs := by
    intro hfs
    rw [hfs]
    exact .refl _
  unfold execute at hexec
  cases arg with
  | opgetfh =>
    refine hsame ?_
    cases hexec
    unfold getCurrentFilehandle
    split <;> rfl
  | opsavefh =>
    refine hsame ?_
    cases hexec
    unfold saveFilehandle
    split <;> rfl
  | oprestorefh =>
    refine hsame ?_
    cases hexec
    unfold restoreFilehandle
    split <;> rfl
  | opputfh args => exact hsame (fs_putfh (hlook hexec))
  | opputrootfh | opputpubfh => exact hsame (fs_putRootFilehandle (hlook hexec))
  | oplookup args => exact hsame (fs_lookup (hlook hexec))
  | oplookupp => exact hsame (fs_lookupParent (hlook hexec))
  | opclose args => exact hsame (fs_close (hlook hexec))
  | oplink args => exact keepsOwners_link (hlook hexec)
  | opremove args => exact keepsOwners_remove hexec
  | oprename args => exact keepsOwners_rename (hlook hexec)
  | opcreate args => exact absurd rfl (hcreate args)
  | opopen args => exact absurd rfl (hopen args)
  | _ => cases hexec

/-- An operation is refused, or it is performed. -/
lemma dispatchUnder_cases (hset : ∀ args, arg ≠ .opsetattr args)
    (h : dispatchUnder cfg quota caller arg req = some (req', r, silly)) :
    req' = req ∨ dispatch cfg caller arg req = some (req', r, silly) ∧
      quotaRefuses quota arg req = false := by
  unfold dispatchUnder at h
  split at h
  · cases h
    exact .inl rfl
  · split_ifs at h with hrefuses
    · cases h
      exact .inl rfl
    · split at h
      · exact absurd rfl (hset _)
      · exact .inr ⟨h, by simpa using hrefuses⟩

lemma dispatchUnder_eq (hset : ∀ args, arg ≠ .opsetattr args)
    (hok : (checkOp cfg.names arg req caller).isOk = true)
    (hquota : quotaRefuses quota arg req = false) :
    dispatchUnder cfg quota caller arg req = dispatch cfg caller arg req := by
  unfold dispatchUnder
  split
  · rename_i hcheck
    rw [hcheck] at hok
    cases hok
  · rw [hquota, if_neg Bool.false_ne_true]
    split
    · exact absurd rfl (hset _)
    · rfl

lemma isOk_of_eq_ok {ε α : Type} {x : Except ε α} {a : α} (h : x = .ok a) : x.isOk = true := by
  rw [h]
  rfl

lemma exists_of_isOk {ε α : Type} {x : Except ε α} (h : x.isOk = true) : ∃ a, x = .ok a := by
  cases x with
  | error e => cases h
  | ok a => exact ⟨a, rfl⟩

lemma ownersKept_opcreate_iff (args : Create4args) :
    OwnersKept cfg quota caller (.opcreate args) req ↔
      ¬ Seizes cfg quota caller (.opcreate args) req := by
  constructor
  · rintro hkept ⟨hok, hquota, hmanaged, hdir, fh, p, htarget, htakes⟩
    obtain ⟨dirs, hcheck⟩ := exists_of_isOk hok
    have hmake : args.make req.fm.fs p = .ok ((createDir req.fm.fs p).getD req.fm.fs) := by
      rw [Create4args.make, hdir]
    obtain ⟨req', r, hdispatch, hfs⟩ := fs_dispatch_opcreate hcheck hmanaged htarget hmake
    rcases hkept req' r none (by rw [dispatchUnder_eq (by simp) hok hquota, hdispatch]) with
      hkeep | ⟨_, _, hset, -⟩
    · rw [hfs, keepsOwners_make htarget hmake] at hkeep
      exact hkeep ⟨hdir, htakes⟩
    · cases hset
  · intro hseizes req' r silly h
    left
    rcases dispatchUnder_cases (by simp) h with rfl | ⟨h, hquota⟩
    · exact .refl _
    rcases dispatch_opcreate_cases h with hfs | ⟨dirs, fh, p, fs₁, hcheck, hmanaged, htarget, hmake⟩
    · rw [hfs]
      exact .refl _
    · obtain ⟨req₁, r₁, hdispatch, hfs⟩ := fs_dispatch_opcreate hcheck hmanaged htarget hmake
      rw [h] at hdispatch
      cases hdispatch
      rw [hfs, keepsOwners_make htarget hmake]
      rintro ⟨hdir, htakes⟩
      exact hseizes ⟨isOk_of_eq_ok hcheck, hquota, hmanaged, hdir, fh, p, htarget, htakes⟩

omit [AttributeCalls F] in
/-- A file that is created is new, or it is there already. -/
lemma keepsOwners_created {p : VfsPath} {fs₁ : F} (hcreate : createFile req.fm.fs p = some fs₁) :
    KeepsOwners req.fm.fs (handOver fs₁ caller p) ↔ ¬ TakesFrom req.fm.fs fs₁ caller p := by
  obtain ⟨hgrow, hold, hnew⟩ := HasOwners.createFile hcreate
  cases hmeta : lstat req.fm.fs p with
  | some m => exact keepsOwners_handOver_iff hgrow hmeta (hold m hmeta)
  | none =>
    refine iff_of_true (keepsOwners_handOver_new hgrow (hnew hmeta)) ?_
    rintro ⟨m, hm, -⟩
    rw [hmeta] at hm
    cases hm

lemma ownersKept_opopen_iff (args : Open4args) :
    OwnersKept cfg quota caller (.opopen args) req ↔
      ¬ Seizes cfg quota caller (.opopen args) req := by
  constructor
  · rintro hkept ⟨hok, hquota, hmanaged, hfresh, how, fh, name, p, fs₁, hhow, hmode, htarget, hstat,
      hjoin, hcreate, htakes⟩
    obtain ⟨dirs, hcheck⟩ := exists_of_isOk hok
    obtain ⟨req', r, hdispatch, hfs⟩ := fs_dispatch_opopen hcheck hmanaged hhow hmode htarget hjoin
      hfresh hcreate
    rcases hkept req' r none (by rw [dispatchUnder_eq (by simp) hok hquota, hdispatch]) with
      hkeep | ⟨_, _, hset, -⟩
    · rw [hfs, if_pos hstat, keepsOwners_created hcreate] at hkeep
      exact hkeep htakes
    · cases hset
  · intro hseizes req' r silly h
    left
    rcases dispatchUnder_cases (by simp) h with rfl | ⟨h, hquota⟩
    · exact .refl _
    rcases dispatch_opopen_cases h with hfs | ⟨dirs, how, fh, name, p, fs₁, hcheck, hmanaged, hfresh,
      hhow, hmode, htarget, hjoin, hcreate⟩
    · rw [hfs]
      exact .refl _
    · obtain ⟨req₁, r₁, hdispatch, hfs⟩ := fs_dispatch_opopen hcheck hmanaged hhow hmode htarget hjoin
        hfresh hcreate
      rw [h] at hdispatch
      cases hdispatch
      rw [hfs]
      split_ifs with hstat
      · rw [keepsOwners_created hcreate]
        intro htakes
        exact hseizes ⟨isOk_of_eq_ok hcheck, hquota, hmanaged, hfresh, how, fh, name, p, fs₁, hhow,
          hmode, htarget, hstat, hjoin, hcreate, htakes⟩
      · exact .of_grows (HasOwners.createFile hcreate).1

/-- SETATTR changes owners only if `check_setattr` permits it. -/
lemma ownersKept_opsetattr (args : SetAttr4args) :
    OwnersKept cfg quota caller (.opsetattr args) req := by
  intro req' r silly h
  unfold dispatchUnder at h
  split at h
  · cases h
    exact .inl (.refl _)
  · rename_i dirs hcheck
    have hquota : quotaRefuses quota (.opsetattr args) req = false := rfl
    rw [hquota, if_neg Bool.false_ne_true] at h
    dsimp only at h
    obtain ⟨⟨req₁, r₁⟩, hexec, heq⟩ := Option.map_eq_some_iff.1 h
    cases heq
    rcases keepsOwners_setattr hexec with hkeep | ⟨hmanaged, hfh, hattrs⟩
    · exact .inl hkeep
    · obtain ⟨fm, hfm⟩ := Option.isSome_iff_exists.1 hmanaged
      obtain ⟨fh, hfh⟩ := Option.isSome_iff_exists.1 hfh
      obtain ⟨hroot, rfl⟩ := NfsRequest.isPseudoRoot_of_fileManager hfm
      refine .inr ⟨args, fh, rfl, hfh, hattrs, ?_⟩
      unfold checkOp at hcheck
      rw [hroot, if_neg Bool.false_ne_true, hfm, hfh] at hcheck
      exact isOk_of_eq_ok hcheck

/-- An operation leaves the owners of the objects that exist as they are, exactly if it does not
give one away. -/
lemma ownersKept_iff :
    OwnersKept cfg quota caller arg req ↔ ¬ Seizes cfg quota caller arg req := by
  by_cases hcreate : ∃ args, arg = .opcreate args
  · obtain ⟨args, rfl⟩ := hcreate
    exact ownersKept_opcreate_iff args
  by_cases hopen : ∃ args, arg = .opopen args
  · obtain ⟨args, rfl⟩ := hopen
    exact ownersKept_opopen_iff args
  refine iff_of_true ?_ ?_
  · by_cases hset : ∃ args, arg = .opsetattr args
    · obtain ⟨args, rfl⟩ := hset
      exact ownersKept_opsetattr args
    · intro req' r silly h
      left
      rcases dispatchUnder_cases (not_exists.1 hset) h with rfl | ⟨h, -⟩
      · exact .refl _
      · exact keepsOwners_dispatch h (not_exists.1 hcreate) (not_exists.1 hopen)
  · rintro ⟨-, -, -, hseizes⟩
    split at hseizes
    · exact hcreate ⟨_, rfl⟩
    · exact hopen ⟨_, rfl⟩
    · exact hseizes

/-- Ownership: for every operation, every caller and every state, the owners of the objects that
exist stay as they are, or the change is permitted, exactly if the operation does not give away an
object that was there before it. An operation other than CREATE, OPEN and SETATTR makes no call that
changes an owner, on a server with any exports and whatever it is answered. -/
theorem ownersKept_iff_not_seizes (cfg : ServerConfig) (quota : Option QuotaManager) (caller : Caller)
    (arg : NfsArgOp) (req : NfsRequest F) :
    (OwnersKept cfg quota caller arg req ↔ ¬ Seizes cfg quota caller arg req) ∧
    (Dispatcher.leavesOwners arg = true →
      ∀ (S : Dispatcher.Server) (next : Option ℕ) (before : Dispatcher.Request) h out,
        Runs (Dispatcher.dispatch S arg next before) h out → ∀ x ∈ h, x.1.quiet) := by
  refine ⟨ownersKept_iff, ?_⟩
  intro harg S next before h out hrun
  exact (Dispatcher.dispatch_quiet harg next before).of_runs hrun

end Dispatch

/-! ### A directory that is taken -/

/-- A directory of user 1001, with a directory of user 1000 in it. -/
def homeFs : OwnedFs where
  flat := ⟨[("d", ⟨2, 0o040755, 1000, 1000⟩)], 3⟩
  owners := fun ino => if ino = 1 then some (1001, 1001) else if ino = 2 then some (1000, 1000) else none

/-- The configuration of the server. -/
def homeConfig : ServerConfig := ⟨⟨1, by decide⟩, "home", noNames⟩

/-- The request of user 1001, who is in the directory. -/
def homeRequest : NfsRequest OwnedFs :=
  ⟨.new homeFs 0 (some 1), Connection.new.setFilehandle (.ofFile homeFs 0 1 .root (inodeId 1 (64, 1)) 0)⟩

/-- CREATE of the directory that is there. -/
def takeDir : Create4args := ⟨.nf4dir, "d", ⟨[], []⟩⟩

/-- User 1001 gets the directory of user 1000. -/
theorem not_ownersKept_takeDir :
    ¬ OwnersKept homeConfig none ⟨1001, 1001, []⟩ (.opcreate takeDir) homeRequest := by
  rw [ownersKept_opcreate_iff, not_not]
  refine ⟨by decide, rfl, rfl, rfl, _, ⟨["d"], by decide⟩, rfl, ?_⟩
  exact ⟨_, rfl, by decide, by decide⟩

end NextNfs
