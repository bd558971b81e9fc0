import NextNfs.Server.CheckedObject
import NextNfs.Server.FileManagerActor
import NextNfs.Server.System

set_option relaxedAutoImplicit false
set_option autoImplicit false

/-!
# OPEN with a create mode on a file that exists

`open_for_writing` hands every create mode but GUARDED4 to `VfsPath::create_file`, which truncates a
file that exists. This module says for which requests that does no harm.

## Main definitions

* `NextNfs.FileData` — a file system whose files have contents.
* `NextNfs.QuotaManager` — the quota of an export.
* `NextNfs.performOpen` — OPEN as a compound performs it, with the permission check, the quota and
  the change of the owner.
* `NextNfs.CreateOpen` — an OPEN with a create mode, of a file that exists.
* `NextNfs.CreateOpen.Harmless` — what such an OPEN must not do.

## Main results

* `NextNfs.CreateOpen.perform_of_creates`, `NextNfs.CreateOpen.perform_of_not_creates` — what
  becomes of the file.
* `NextNfs.CreateOpen.harmless_iff` — exactly when an OPEN is harmless.

## Implementation notes

Nothing in the server remembers the verifier of an exclusive create, so the verifier that a file was
created with is an argument here.
-/

namespace NextNfs

open Wire

/-! ### Contents -/

/-- A file system whose files have contents. `VfsPath::create_file` truncates a file that exists,
and changing the owner does not change contents. -/
class FileData (F : Type) [FileSystem F] where
  /-- The bytes of the file at a path, following symbolic links. -/
  contents : F → VfsPath → Option Bytes
  /-- `std::fs::metadata`, which follows symbolic links. -/
  metadata : F → VfsPath → Option RealMeta
  contents_createFile : ∀ {fs fs' : F} {p : VfsPath}, createFile fs p = some fs' →
    contents fs' p = some []
  contents_lchown : ∀ {fs fs' : F} {s : String} {uid gid : UInt32} (p : VfsPath),
    lchown fs s uid gid = some fs' → contents fs' p = contents fs p

export FileData (contents metadata)

/-! ### Quotas -/

/-- `QuotaManager`, with the hard limit of its configuration. -/
structure QuotaManager where
  hardLimitBytes : UInt64
  bytesUsed : UInt64

/-- `check_write`. -/
def QuotaManager.checkWrite (q : QuotaManager) (additionalBytes : UInt64) : Bool :=
  q.hardLimitBytes == 0 || decide (q.bytesUsed + additionalBytes ≤ q.hardLimitBytes)

section Perform

variable {F : Type} [FileSystem F]

/-- `open_for_writing` refuses at once if the quota of the export is exceeded. -/
def Open4args.quotaRefuses (args : Open4args) (quota : Option QuotaManager) (req : NfsRequest F) :
    Bool :=
  match args.claim, args.target req, args.openhow with
  | .claimPrevious _, _, _ => false
  | _, .ok _, .how _ => quota.any fun q => !q.checkWrite 0
  | _, _, _ => false

/-- OPEN on an export with a quota. -/
def Open4args.executeUnder (args : Open4args) (quota : Option QuotaManager) (req : NfsRequest F) :
    Option (NfsRequest F × OpResponse) :=
  if args.quotaRefuses quota req then some (req, ⟨none, .nfs4errDquot⟩) else args.execute req

/-- OPEN as a compound performs it: the permission check, the operation, and the change of the owner
of a new file. -/
def performOpen (names : NameService) (caller : Caller) (quota : Option QuotaManager)
    (args : Open4args) (req : NfsRequest F) : Option (NfsRequest F × OpResponse) :=
  match checkOp names (.opopen args) req caller with
  | .error status => some (req, ⟨some (.opError 18 status), status⟩)
  | .ok _ =>
    match args.executeUnder quota req with
    | none => none
    | some (req', response) =>
      if createsObject (.opopen args) req && response.status == .nfs4Ok then
        some (chownNewObject req' caller, response)
      else some (req', response)

/-- Without a quota, this is what the dispatcher does. -/
lemma dispatch_opopen (cfg : ServerConfig) (caller : Caller) (args : Open4args) (req : NfsRequest F) :
    dispatch cfg caller (.opopen args) req =
      (performOpen cfg.names caller none args req).map fun res => (res.1, res.2, none) := by
  have hquota : args.quotaRefuses none req = false := by
    unfold Open4args.quotaRefuses
    split <;> rfl
  have hunder : args.executeUnder none req = args.execute req := by
    rw [Open4args.executeUnder, hquota]
    rfl
  unfold dispatch performOpen
  rw [hunder]
  cases checkOp cfg.names (.opopen args) req caller with
  | error status => rfl
  | ok dirs =>
    simp only [execute]
    cases args.execute req with
    | none => rfl
    | some res =>
      simp only [Option.map_some]
      split <;> rfl

/-- The permission check refuses an OPEN with one status only. -/
lemma status_of_checkOp_opopen {names : NameService} {args : Open4args} {req : NfsRequest F}
    {caller : Caller} {status : NfsStat4}
    (h : checkOp names (.opopen args) req caller = .error status) : status = .nfs4errAccess := by
  have hneed : ∀ {ok : Bool} {dirs : List String} {e : NfsStat4},
      need ok .nfs4errAccess dirs = .error e → e = .nfs4errAccess := by
    intro ok dirs e he
    unfold need at he
    split_ifs at he
    cases he
    rfl
  have hdir : ∀ {fs : F} {dir : String} {want : UInt32} {e : NfsStat4},
      needDir caller fs dir want = .error e → e = .nfs4errAccess := by
    intro fs dir want e he
    unfold needDir at he
    split at he
    · split_ifs at he
      exact hneed he
    · cases he
  have hfile : ∀ {fs : F} {path : String} {want : UInt32} {e : NfsStat4},
      needFile caller fs path want = .error e → e = .nfs4errAccess := by
    intro fs path want e he
    unfold needFile at he
    split at he
    · exact hneed he
    · cases he
  unfold checkOp at h
  split_ifs at h
  split at h
  · rename_i fm fh _ _
    dsimp only at h
    split at h
    · rename_i name _
      cases hexec : needDir caller fm.fs (fh.real F) MAY_EXEC with
      | error e =>
        rw [hexec] at h
        cases h
        exact hdir hexec
      | ok dirs =>
        rw [hexec] at h
        dsimp only [bind, Except.bind] at h
        split_ifs at h
        · cases hneedFile : needFile caller fm.fs (fh.realChild F name)
            (shareWant args.shareAccess) with
          | error e =>
            rw [hneedFile] at h
            cases h
            exact hfile hneedFile
          | ok _ =>
            rw [hneedFile] at h
            cases h
        · split at h
          · cases hneedDir : needDir caller fm.fs (fh.real F) (MAY_WRITE ||| MAY_EXEC) with
            | error e =>
              rw [hneedDir] at h
              cases h
              exact hdir hneedDir
            | ok _ =>
              rw [hneedDir] at h
              cases h
          · cases h
    · exact hfile h
  · cases h

omit [FileSystem F] in
lemma fs_insertOpen {fm fm' : FileManager F} {id : NfsFh4} {clientId : UInt64} {owner : Bytes}
    {shareAccess shareDeny : UInt32} {lock : LockingState}
    (h : fm.insertOpen id clientId owner shareAccess shareDeny = some (fm', lock)) :
    fm'.fs = fm.fs := by
  unfold FileManager.insertOpen at h
  obtain ⟨locks, -, heq⟩ := Option.bind_eq_some_iff.1 h
  cases heq
  rfl

/-- The message `CreateFile` truncates the file, or fails and changes nothing. -/
lemma createFileMsg_cases {fm : FileManager F} (hfresh : fm.locks.Fresh) (file : VfsPath)
    (clientId : UInt64) (owner : Bytes) (shareAccess shareDeny : UInt32) :
    (createFile fm.fs file = none ∧
      fm.createFileMsg file clientId owner shareAccess shareDeny = some (fm, none)) ∨
    ∃ fs fm' fh lock, createFile fm.fs file = some fs ∧ fm'.fs = fs ∧ fh.file = file ∧
      fm.createFileMsg file clientId owner shareAccess shareDeny = some (fm', some (fh, lock)) := by
  obtain ⟨⟨fm', made⟩, hmsg⟩ := FileManager.exists_createFileMsg hfresh file clientId owner shareAccess
    shareDeny
  unfold FileManager.createFileMsg FileManager.createFile at hmsg ⊢
  cases hcreate : createFile fm.fs file with
  | none => exact .inl ⟨rfl, rfl⟩
  | some fs =>
    right
    rcases hget : ({ fm with fs := fs } : FileManager F).getFilehandle file with ⟨fm₁, fh⟩
    simp only [hcreate, hget] at hmsg ⊢
    obtain ⟨⟨fm₂, lock⟩, hopen, heq⟩ := Option.bind_eq_some_iff.1 hmsg
    cases heq
    have hlookup := (FileManager.sameWorld_getFilehandle { fm with fs := fs } file).fs
    rw [hget] at hlookup
    have hbefore := (FileManager.sameWorld_touchPath fm₁ file.parent).fs
    have hafter : fm₂.fs = (fm₁.touchPath file.parent).fs := fs_insertOpen hopen
    have hfile : fh.file = file := by
      have hgot := FileManager.file_getFilehandle { fm with fs := fs } file
      rw [hget] at hgot
      exact hgot
    exact ⟨fs, fm₂, { fh with locks := [lock] }, lock, rfl, hafter.trans (hbefore.trans hlookup), hfile,
      hmsg⟩

/-- All create modes but GUARDED4 create the file, and go on to it. -/
lemma openForWriting_creates {args : Open4args} {fh : Filehandle} {name : String} {how : CreateHow4}
    {req : NfsRequest F} {p : VfsPath} (hmanaged : req.conn.managed = true)
    (hjoin : FileSystem.join F fh.file name = some p) (hmode : ∀ attrs, how ≠ .guarded4 attrs)
    (hfresh : req.fm.locks.Fresh) :
    (createFile req.fm.fs p = none ∧
      args.openForWriting fh name how req = some (req, ⟨none, .nfs4errServerfault⟩)) ∨
    ∃ req' r, createFile req.fm.fs p = some req'.fm.fs ∧ r.status = .nfs4Ok ∧
      args.openForWriting fh name how req = some (req', r) ∧ req'.conn.managed = true ∧
      ∃ fh', req'.conn.filehandle = some fh' ∧ fh'.file = p := by
  have hcreate := createFileMsg_cases hfresh p args.owner.clientid args.owner.owner args.shareAccess
    args.shareDeny
  unfold Open4args.openForWriting
  rw [hjoin, NfsRequest.fileManager, if_pos hmanaged]
  dsimp only
  cases how with
  | guarded4 attrs => exact absurd rfl (hmode attrs)
  | unchecked4 _ | exclusive4 _ =>
    dsimp only
    rcases hcreate with ⟨hnone, hmsg⟩ | ⟨fs, fm, fh', lock, hsome, hfs, hfile, hmsg⟩
    · rw [hmsg]
      exact .inl ⟨hnone, rfl⟩
    · rw [hmsg]
      refine .inr ⟨_, _, ?_, ?_, rfl, hmanaged, fh', rfl, hfile⟩
      · rw [hsome, ← hfs]
      · rfl

end Perform

/-! ### An OPEN of a file that exists -/

/-- An OPEN with a create mode, by a caller, of a name that a file has. -/
structure CreateOpen (F : Type) [FileSystem F] [FileData F] where
  names : NameService
  caller : Caller
  quota : Option QuotaManager
  args : Open4args
  req : NfsRequest F
  how : CreateHow4
  /-- The current filehandle, and the name in it. -/
  dir : Filehandle
  name : String
  /-- The file, with its bytes and its metadata. -/
  file : VfsPath
  bytes : Bytes
  info : RealMeta
  openhow_eq : args.openhow = .how how
  claim_eq : args.claim = .claimNull name
  managed : req.conn.managed = true
  filehandle_eq : req.conn.filehandle = some dir
  join_eq : FileSystem.join F dir.file name = some file
  contents_eq : contents req.fm.fs file = some bytes
  metadata_eq : metadata req.fm.fs file = some info
  /-- The next stateid is free, as it is in every state that a server reaches. -/
  fresh : req.fm.locks.Fresh

namespace CreateOpen

variable {F : Type} [FileSystem F] [FileData F] (o : CreateOpen F)

/-- The OPEN as a compound performs it. -/
def perform : Option (NfsRequest F × OpResponse) :=
  performOpen o.names o.caller o.quota o.args o.req

/-- The OPEN answers with a status. -/
def Answers (status : NfsStat4) : Prop := ∃ req r, o.perform = some (req, r) ∧ r.status = status

/-- The OPEN leaves the contents of the file as they are. -/
def Unchanged : Prop :=
  ∃ req r, o.perform = some (req, r) ∧ contents req.fm.fs o.file = some o.bytes

/-- `share_access` includes WRITE. -/
def SharesWrite : Prop := o.args.shareAccess &&& 2 ≠ 0

/-- The caller has write permission on the file. -/
def MayWrite : Prop := o.caller.mayFile o.info MAY_WRITE = true

/-- The OPEN does not destroy data, for a file that was created with the verifier, if with any. -/
structure Harmless (creator : Option (List.Vector UInt8 8)) : Prop where
  share : ¬ o.SharesWrite → o.Unchanged
  permission : ¬ o.MayWrite → o.Unchanged
  unchecked : ∀ attrs : Fattr4, o.how = .unchecked4 attrs → .size 0 ∉ attrs.attrVals → o.Unchanged
  /-- An exclusive create with another verifier fails. -/
  other : ∀ verifier, o.how = .exclusive4 verifier → creator ≠ some verifier →
    o.Answers .nfs4errExist ∧ o.Unchanged
  /-- A retried exclusive create succeeds. -/
  retried : ∀ verifier, o.how = .exclusive4 verifier → creator = some verifier →
    o.Answers .nfs4Ok ∧ o.Unchanged

/-- Nothing refuses the OPEN before `VfsPath::create_file`, and that succeeds. -/
def Creates : Prop :=
  (checkOp o.names (.opopen o.args) o.req o.caller).isOk = true ∧
  isDir o.req.fm.fs o.dir.file = true ∧ o.name ≠ "" ∧
  (∀ q, o.quota = some q → q.checkWrite 0 = true) ∧
  (createFile o.req.fm.fs o.file).isSome = true

/-- The condition for an OPEN to be harmless. -/
def Spares (creator : Option (List.Vector UInt8 8)) : Prop :=
  match o.how with
  | .guarded4 _ => True
  | .unchecked4 attrs =>
    o.Creates → o.bytes = [] ∨ (o.SharesWrite ∧ o.MayWrite ∧ .size 0 ∈ attrs.attrVals)
  | .exclusive4 verifier => creator = some verifier ∧ o.Creates ∧ o.bytes = []

/-! ### What becomes of the file -/

lemma fileManager_eq : o.req.fileManager = some o.req.fm := by
  rw [NfsRequest.fileManager, if_pos o.managed]

/-- What the OPEN goes on with. -/
lemma target_eq : o.args.target o.req =
    if isDir o.req.fm.fs o.dir.file = false then .error ⟨none, .nfs4errNotdir⟩
    else if o.name = "" then .error ⟨none, .nfs4errInval⟩ else .ok (o.dir, o.name) := by
  rw [Open4args.target, o.filehandle_eq, o.claim_eq]

/-- The quota refuses the OPEN if it gets that far. -/
lemma quotaRefuses_eq (htarget : o.args.target o.req = .ok (o.dir, o.name)) :
    o.args.quotaRefuses o.quota o.req = o.quota.any fun q => !q.checkWrite 0 := by
  rw [Open4args.quotaRefuses, o.claim_eq, htarget, o.openhow_eq]

lemma execute_eq (htarget : o.args.target o.req = .ok (o.dir, o.name)) :
    o.args.execute o.req = o.args.openForWriting o.dir o.name o.how o.req := by
  rw [Open4args.execute, o.claim_eq]
  dsimp only
  rw [htarget, o.openhow_eq]

lemma executeUnder_of_target_error {r : OpResponse} (htarget : o.args.target o.req = .error r) :
    o.args.executeUnder o.quota o.req = some (o.req, r) := by
  have hquota : o.args.quotaRefuses o.quota o.req = false := by
    rw [Open4args.quotaRefuses, o.claim_eq, htarget]
  rw [Open4args.executeUnder, hquota, Open4args.execute, o.claim_eq]
  dsimp only
  rw [htarget]
  rfl

/-- Changing the owner keeps the contents. -/
lemma contents_chownNewObject (req : NfsRequest F) (caller : Caller) (p : VfsPath) :
    contents (chownNewObject req caller).fm.fs p = contents req.fm.fs p := by
  unfold chownNewObject
  split
  · rename_i fm fh hfm hfh
    obtain rfl := (NfsRequest.isPseudoRoot_of_fileManager hfm).2
    split
    · rfl
    · dsimp only
      split_ifs
      · rfl
      all_goals
        split
        · rfl
        · rename_i fs' hlchown
          exact FileData.contents_lchown p hlchown
  · rfl

/-- What a compound does after the operation keeps the answer and the contents. -/
lemma perform_of_executeUnder {req : NfsRequest F} {r : OpResponse}
    (hcheck : (checkOp o.names (.opopen o.args) o.req o.caller).isOk = true)
    (h : o.args.executeUnder o.quota o.req = some (req, r)) :
    ∃ req', o.perform = some (req', r) ∧
      contents req'.fm.fs o.file = contents req.fm.fs o.file := by
  unfold perform performOpen
  cases hop : checkOp o.names (.opopen o.args) o.req o.caller with
  | error status => simp [hop, Except.isOk, Except.toBool] at hcheck
  | ok dirs =>
    rw [h]
    dsimp only
    split_ifs
    · exact ⟨_, rfl, contents_chownNewObject req o.caller o.file⟩
    · exact ⟨_, rfl, rfl⟩

/-- All create modes but GUARDED4 create the file. -/
lemma openForWriting_cases (hmode : ∀ attrs, o.how ≠ .guarded4 attrs) :
    (createFile o.req.fm.fs o.file = none ∧
      o.args.openForWriting o.dir o.name o.how o.req = some (o.req, ⟨none, .nfs4errServerfault⟩)) ∨
    ∃ req r, createFile o.req.fm.fs o.file = some req.fm.fs ∧ r.status = .nfs4Ok ∧
      o.args.openForWriting o.dir o.name o.how o.req = some (req, r) := by
  have hcases := @openForWriting_creates F _ o.args o.dir o.name o.how o.req o.file o.managed o.join_eq
    hmode o.fresh
  rcases hcases with hnone | ⟨req, r, hcreate, hstatus, hopen, -⟩
  · exact .inl hnone
  · exact .inr ⟨req, r, hcreate, hstatus, hopen⟩

/-- If nothing refuses it, the OPEN succeeds and the file is empty. -/
lemma perform_of_creates (hcreates : o.Creates) (hmode : ∀ attrs, o.how ≠ .guarded4 attrs) :
    ∃ req r, o.perform = some (req, r) ∧ r.status = .nfs4Ok ∧
      contents req.fm.fs o.file = some [] := by
  obtain ⟨hcheck, hdir, hname, hquota, hsome⟩ := hcreates
  have htarget : o.args.target o.req = .ok (o.dir, o.name) := by
    rw [o.target_eq, if_neg (by simp [hdir]), if_neg hname]
  have hallowed : o.args.quotaRefuses o.quota o.req = false := by
    rw [o.quotaRefuses_eq htarget, Option.any_eq_false]
    intro q hq
    simp [hquota q hq]
  rcases o.openForWriting_cases hmode with ⟨hnone, -⟩ | ⟨req, r, hcreate, hstatus, hopen⟩
  · rw [hnone] at hsome
    cases hsome
  · have hexec : o.args.executeUnder o.quota o.req = some (req, r) := by
      rw [Open4args.executeUnder, hallowed, o.execute_eq htarget, hopen]
      rfl
    obtain ⟨req', hperform, hkeep⟩ := o.perform_of_executeUnder hcheck hexec
    exact ⟨req', r, hperform, hstatus, hkeep.trans (FileData.contents_createFile hcreate)⟩

/-- If something refuses it, or the mode is GUARDED4, the OPEN fails, not because the file exists,
and leaves the file as it is. -/
lemma perform_of_not_creates (h : ¬ o.Creates ∨ ∃ attrs, o.how = .guarded4 attrs) :
    ∃ req r, o.perform = some (req, r) ∧ r.status ≠ .nfs4Ok ∧ r.status ≠ .nfs4errExist ∧
      contents req.fm.fs o.file = some o.bytes := by
  cases hop : checkOp o.names (.opopen o.args) o.req o.caller with
  | error status =>
    obtain rfl := status_of_checkOp_opopen hop
    refine ⟨o.req, ⟨some (.opError 18 .nfs4errAccess), .nfs4errAccess⟩, ?_, nofun, nofun, o.contents_eq⟩
    rw [perform, performOpen, hop]
  | ok dirs =>
    have hcheck : (checkOp o.names (.opopen o.args) o.req o.caller).isOk = true := by
      rw [hop]
      rfl
    -- what remains is that the operation itself fails and changes nothing
    suffices hfail : ∃ status, o.args.executeUnder o.quota o.req = some (o.req, ⟨none, status⟩) ∧
        status ≠ .nfs4Ok ∧ status ≠ .nfs4errExist by
      obtain ⟨status, hexec, hok, hexist⟩ := hfail
      obtain ⟨req', hperform, hkeep⟩ := o.perform_of_executeUnder hcheck hexec
      exact ⟨req', _, hperform, hok, hexist, hkeep.trans o.contents_eq⟩
    have htarget := o.target_eq
    by_cases hdir : isDir o.req.fm.fs o.dir.file = false
    · rw [if_pos hdir] at htarget
      exact ⟨_, o.executeUnder_of_target_error htarget, nofun, nofun⟩
    rw [if_neg hdir] at htarget
    by_cases hname : o.name = ""
    · rw [if_pos hname] at htarget
      exact ⟨_, o.executeUnder_of_target_error htarget, nofun, nofun⟩
    rw [if_neg hname] at htarget
    unfold Open4args.executeUnder
    rw [o.quotaRefuses_eq htarget, o.execute_eq htarget]
    by_cases hquota : o.quota.any (fun q => !q.checkWrite 0) = true
    · rw [if_pos hquota]
      exact ⟨_, rfl, nofun, nofun⟩
    rw [if_neg hquota]
    by_cases hmode : ∃ attrs, o.how = .guarded4 attrs
    · obtain ⟨attrs, hmode⟩ := hmode
      refine ⟨.nfs4errNotsupp, ?_, nofun, nofun⟩
      rw [Open4args.openForWriting, o.join_eq, o.fileManager_eq, hmode]
    · rcases o.openForWriting_cases (not_exists.1 hmode) with ⟨-, hopen⟩ | ⟨req, r, hcreate, -, -⟩
      · exact ⟨_, hopen, nofun, nofun⟩
      · have hallowed : ∀ q, o.quota = some q → q.checkWrite 0 = true := by
          intro q hq
          by_contra hover
          exact hquota (by simp [hq, hover])
        have hcreates : o.Creates :=
          ⟨hcheck, by simpa using hdir, hname, hallowed, by rw [hcreate]; rfl⟩
        exact absurd hcreates (h.resolve_right hmode)

/-! ### Exactly when it is harmless -/

variable {o}

lemma unchanged_of_not_creates (h : ¬ o.Creates ∨ ∃ attrs, o.how = .guarded4 attrs) :
    o.Unchanged := by
  obtain ⟨req, r, hperform, -, -, hkeep⟩ := o.perform_of_not_creates h
  exact ⟨req, r, hperform, hkeep⟩

/-- An OPEN that truncates the file leaves it unchanged only if it is empty. -/
lemma unchanged_iff_of_creates (hcreates : o.Creates) (hmode : ∀ attrs, o.how ≠ .guarded4 attrs) :
    o.Unchanged ↔ o.bytes = [] := by
  obtain ⟨req, r, hperform, -, hempty⟩ := o.perform_of_creates hcreates hmode
  constructor
  · rintro ⟨req', r', hperform', hkeep⟩
    rw [hperform] at hperform'
    cases hperform'
    rw [hempty] at hkeep
    exact (Option.some.inj hkeep).symm
  · intro hbytes
    exact ⟨req, r, hperform, by rw [hempty, hbytes]⟩

lemma answers_of_creates (hcreates : o.Creates) (hmode : ∀ attrs, o.how ≠ .guarded4 attrs)
    {status : NfsStat4} : o.Answers status ↔ status = .nfs4Ok := by
  obtain ⟨req, r, hperform, hstatus, -⟩ := o.perform_of_creates hcreates hmode
  constructor
  · rintro ⟨req', r', hperform', rfl⟩
    rw [hperform] at hperform'
    cases hperform'
    exact hstatus
  · rintro rfl
    exact ⟨req, r, hperform, hstatus⟩

lemma not_answers_of_not_creates (h : ¬ o.Creates ∨ ∃ attrs, o.how = .guarded4 attrs) :
    ¬ o.Answers .nfs4Ok ∧ ¬ o.Answers .nfs4errExist := by
  obtain ⟨req, r, hperform, hok, hexist, -⟩ := o.perform_of_not_creates h
  constructor
  · rintro ⟨req', r', hperform', hstatus⟩
    rw [hperform] at hperform'
    cases hperform'
    exact hok hstatus
  · rintro ⟨req', r', hperform', hstatus⟩
    rw [hperform] at hperform'
    cases hperform'
    exact hexist hstatus

/-- An UNCHECKED4 create. -/
lemma harmless_unchecked {attrs : Fattr4} (hhow : o.how = .unchecked4 attrs)
    (creator : Option (List.Vector UInt8 8)) : o.Harmless creator ↔
      (o.Creates → o.bytes = [] ∨ (o.SharesWrite ∧ o.MayWrite ∧ .size 0 ∈ attrs.attrVals)) := by
  have hmode : ∀ attrs', o.how ≠ .guarded4 attrs' := by
    intro attrs'
    rw [hhow]
    nofun
  constructor
  · intro h hcreates
    have hiff := unchanged_iff_of_creates hcreates hmode
    by_contra hnot
    obtain ⟨hbytes, hrest⟩ := not_or.1 hnot
    have hkeeps : ¬ o.Unchanged := fun hkeep => hbytes (hiff.1 hkeep)
    refine hrest ⟨?_, ?_, ?_⟩
    · by_contra hshare
      exact hkeeps (h.share hshare)
    · by_contra hmay
      exact hkeeps (h.permission hmay)
    · by_contra hsize
      exact hkeeps (h.unchecked attrs hhow hsize)
  · intro h
    have hkeep : ¬ (o.SharesWrite ∧ o.MayWrite ∧ .size 0 ∈ attrs.attrVals) → o.Unchanged := by
      intro hnot
      by_cases hcreates : o.Creates
      · exact (unchanged_iff_of_creates hcreates hmode).2 ((h hcreates).resolve_right hnot)
      · exact unchanged_of_not_creates (.inl hcreates)
    refine ⟨fun hshare => hkeep fun hall => hshare hall.1,
      fun hmay => hkeep fun hall => hmay hall.2.1, ?_, ?_, ?_⟩
    · intro attrs' hhow' hsize
      rw [hhow] at hhow'
      cases hhow'
      exact hkeep fun hall => hsize hall.2.2
    · intro verifier hhow'
      rw [hhow] at hhow'
      cases hhow'
    · intro verifier hhow'
      rw [hhow] at hhow'
      cases hhow'

/-- An EXCLUSIVE4 create. -/
lemma harmless_exclusive {verifier : List.Vector UInt8 8} (hhow : o.how = .exclusive4 verifier)
    (creator : Option (List.Vector UInt8 8)) : o.Harmless creator ↔
      creator = some verifier ∧ o.Creates ∧ o.bytes = [] := by
  have hmode : ∀ attrs, o.how ≠ .guarded4 attrs := by
    intro attrs
    rw [hhow]
    nofun
  constructor
  · intro h
    by_cases hcreates : o.Creates
    · have hiff := unchanged_iff_of_creates hcreates hmode
      by_cases hcreator : creator = some verifier
      · exact ⟨hcreator, hcreates, hiff.1 (h.retried verifier hhow hcreator).2⟩
      · have hexist := (answers_of_creates hcreates hmode).1 (h.other verifier hhow hcreator).1
        cases hexist
    · obtain ⟨hok, hexist⟩ := not_answers_of_not_creates (.inl hcreates)
      by_cases hcreator : creator = some verifier
      · exact absurd (h.retried verifier hhow hcreator).1 hok
      · exact absurd (h.other verifier hhow hcreator).1 hexist
  · rintro ⟨hcreator, hcreates, hbytes⟩
    have hkeep : o.Unchanged := (unchanged_iff_of_creates hcreates hmode).2 hbytes
    refine ⟨fun _ => hkeep, fun _ => hkeep, fun _ _ _ => hkeep, ?_, ?_⟩
    · intro verifier' hhow' hother
      rw [hhow] at hhow'
      cases hhow'
      exact absurd hcreator hother
    · intro _ _ _
      exact ⟨(answers_of_creates hcreates hmode).2 rfl, hkeep⟩

variable (o) in
/-- **When an OPEN with a create mode does not destroy data**: always with GUARDED4, which is
refused; with UNCHECKED4 if something refuses it before the file is created, if the file is empty,
or if it asks to be truncated by someone who may; with EXCLUSIVE4 only if it is a retry, nothing
refuses it and the file is still empty. -/
theorem harmless_iff (creator : Option (List.Vector UInt8 8)) :
    o.Harmless creator ↔ o.Spares creator := by
  unfold Spares
  cases hhow : o.how with
  | unchecked4 attrs => exact harmless_unchecked hhow creator
  | exclusive4 verifier => exact harmless_exclusive hhow creator
  | guarded4 attrs =>
    have hkeep : o.Unchanged := unchanged_of_not_creates (.inr ⟨attrs, hhow⟩)
    refine iff_of_true ⟨fun _ => hkeep, fun _ => hkeep, fun _ _ _ => hkeep, ?_, ?_⟩ trivial
    · intro verifier hhow'
      rw [hhow] at hhow'
      cases hhow'
    · intro verifier hhow'
      rw [hhow] at hhow'
      cases hhow'

end CreateOpen

/-! ### A file system with contents -/

/-- A file system with one directory, and the bytes of each file by its inode number. -/
structure StoredFs where
  flat : FlatFs
  data : UInt64 → Bytes

namespace StoredFs

/-- Another tree, with the same bytes. -/
def withTree (fs : StoredFs) (flat : FlatFs) : StoredFs := ⟨flat, fs.data⟩

/-- Take the bytes of the file at a path away. -/
def truncate (fs : StoredFs) (p : VfsPath) : StoredFs :=
  match fs.flat.lookup p.components with
  | some i => ⟨fs.flat, Function.update fs.data i.ino []⟩
  | none => fs

instance : FileSystem StoredFs where
  exportRoot := FileSystem.exportRoot FlatFs
  join := FileSystem.join FlatFs
  existsAt fs := existsAt fs.flat
  isDir fs := isDir fs.flat
  isFile fs := isFile fs.flat
  len fs := FileSystem.len fs.flat
  createFile fs p := (createFile fs.flat p).map fun flat => (fs.withTree flat).truncate p
  createDir fs p := (createDir fs.flat p).map fs.withTree
  removeFile fs p := (removeFile fs.flat p).map fs.withTree
  removeDir fs p := (removeDir fs.flat p).map fs.withTree
  moveFile fs a b := (moveFile fs.flat a b).map fs.withTree id
  moveDir fs a b := (moveDir fs.flat a b).map fs.withTree id
  symlinkMetadata fs := symlinkMetadata fs.flat
  osExists fs := osExists fs.flat
  readDir fs := readDir fs.flat
  symlink fs target s := (FileSystem.symlink fs.flat target s).map fs.withTree
  hardLink fs a b := (hardLink fs.flat a b).map fs.withTree
  rename fs a b := (FileSystem.rename fs.flat a b).map fs.withTree
  lchown fs s uid gid := (lchown fs.flat s uid gid).map fs.withTree
  hashStr := FileSystem.hashStr FlatFs
  through fs := through fs.flat
  fills fs := fills fs.flat

/-- The bytes of the file at a path. -/
def bytesAt (fs : StoredFs) (p : VfsPath) : Option Bytes :=
  (fs.flat.lookup p.components).bind fun i => if i.isDir then none else some (fs.data i.ino)

/-- A file that is created is a file. -/
lemma lookup_of_createFileAt {fs fs' : FlatFs} {p : VfsPath}
    (h : fs.createFileAt p.components = some fs') :
    ∃ i, fs'.lookup p.components = some i ∧ i.isDir = false := by
  unfold FlatFs.createFileAt at h
  split at h
  · rename_i name hname
    rw [hname]
    cases hfind : fs.find name with
    | none =>
      simp only [hfind] at h
      cases h
      refine ⟨⟨fs.nextIno, 0o100644, 0, 0⟩, by simp [FlatFs.lookup], ?_⟩
      change ((0o100644 : UInt32) &&& 0o170000 == S_IFDIR) = false
      decide
    | some i =>
      simp only [hfind] at h
      split_ifs at h with hdir
      cases h
      exact ⟨i, hfind, by simpa using hdir⟩
  · cases h

/-- Changing the owner changes neither the kind nor the number of an object. -/
lemma lookup_chown (fs : FlatFs) (ino : UInt64) (uid gid : UInt32) (cs : List String) :
    ((fs.chown ino uid gid).lookup cs).map (fun i => (i.ino, i.isDir)) =
      (fs.lookup cs).map fun i => (i.ino, i.isDir) := by
  unfold FlatFs.lookup
  split
  · rfl
  · simp only [FlatFs.find, FlatFs.chown, List.find?_map, Option.map_map]
    congr 1
    funext e
    simp only [Function.comp_apply]
    split_ifs <;> rfl
  · rfl

instance : FileData StoredFs where
  contents := bytesAt
  metadata fs p := lstat fs p
  contents_createFile {fs fs' p} h := by
    obtain ⟨flat, hcreate, rfl⟩ := Option.map_eq_some_iff.1 h
    obtain ⟨i, hlookup, hfile⟩ := lookup_of_createFileAt hcreate
    simp [truncate, withTree, bytesAt, hlookup, hfile]
  contents_lchown {fs fs' s uid gid} p h := by
    obtain ⟨flat, hchown, rfl⟩ := Option.map_eq_some_iff.1 h
    obtain ⟨i, -, rfl⟩ := Option.map_eq_some_iff.1 hchown
    have hlookup := lookup_chown fs.flat i.ino uid gid p.components
    have hbytes : ∀ flat : FlatFs, bytesAt ⟨flat, fs.data⟩ p =
        ((flat.lookup p.components).map fun i => (i.ino, i.isDir)).bind fun i =>
          if i.2 then none else some (fs.data i.1) := by
      intro flat
      rw [Option.bind_map]
      rfl
    calc bytesAt ⟨fs.flat.chown i.ino uid gid, fs.data⟩ p = _ := hbytes _
      _ = _ := by rw [hlookup]
      _ = bytesAt fs p := (hbytes fs.flat).symm

end StoredFs

/-- An export with a file of root, with one byte. -/
def storedFs : StoredFs := ⟨⟨[("f", ⟨2, 0o100644, 0, 0⟩)], 3⟩, fun _ => [1]⟩

/-- The root of the export, as a record. -/
def storedRoot : Filehandle := .ofFile storedFs 0 1 .root (inodeId 1 (64, 1)) 0

/-- User 1000, who may not write to the file, opens it for reading, with UNCHECKED4 and no
attributes. -/
def readOpen : CreateOpen StoredFs where
  names := noNames
  caller := sharedCaller
  quota := none
  args := ⟨0, 1, 0, ⟨0, []⟩, .how (.unchecked4 ⟨[], []⟩), .claimNull "f"⟩
  req := ⟨.new storedFs 0 (some 1), Connection.new.setFilehandle storedRoot⟩
  how := .unchecked4 ⟨[], []⟩
  dir := storedRoot
  name := "f"
  file := ⟨["f"], by decide⟩
  bytes := [1]
  info := Inode.meta ⟨2, 0o100644, 0, 0⟩
  openhow_eq := rfl
  claim_eq := rfl
  managed := rfl
  filehandle_eq := rfl
  join_eq := by decide
  contents_eq := by decide
  metadata_eq := by decide
  fresh := by
    have hlocks : (FileManager.new storedFs 0 (some 1)).locks = LockTable.new :=
      (FileManager.sameWorld_getFilehandle _ _).locks
    intro e he
    rw [hlocks] at he
    exact absurd he Table.not_mem_empty

/-- The file is truncated. -/
theorem not_harmless_readOpen : ¬ readOpen.Harmless none := by
  intro h
  have hcreates : readOpen.Creates := ⟨by decide, by decide, by decide, nofun, by decide⟩
  have hshare : ¬ readOpen.SharesWrite := by
    unfold CreateOpen.SharesWrite
    decide
  rcases (CreateOpen.harmless_unchecked rfl none).1 h hcreates with hempty | ⟨hwrite, -⟩
  · cases hempty
  · exact hshare hwrite

end NextNfs
