import NextNfs.Server.OpenCreate
import NextNfs.Server.OwnerCalls

set_option relaxedAutoImplicit false
set_option autoImplicit false

/-!
# Who owns an object

After an operation that creates an object, a compound gives the current filehandle to the caller.
This module says what the operations on names, SETATTR and the change of the owner leave of the
owners of the objects that exist.

## Main definitions

* `NextNfs.HasOwners` — a file system whose objects have owners.
* `NextNfs.KeepsOwners` — the objects of one state have the same owners in another.
* `NextNfs.TakesFrom` — the object of a path is given to somebody else.
* `NextNfs.SetAttr4args.execute` — SETATTR.

## Main results

* `NextNfs.keepsOwners_handOver_iff` — what giving the current filehandle away does.
* `NextNfs.fs_dispatch_opcreate`, `NextNfs.fs_dispatch_opopen` — the state after CREATE and OPEN.
* `NextNfs.keepsOwners_setattr` — SETATTR changes owners only if it is told to.
-/

namespace NextNfs

open Wire

/-! ### Owners -/

/-- The owner and the group of an object after `lchown`: a number with all bits set stands for the
one the object has. -/
def chowned (old : UInt32 × UInt32) (uid gid : UInt32) : UInt32 × UInt32 :=
  (if uid = 0xffffffff then old.1 else uid, if gid = 0xffffffff then old.2 else gid)

/-- A file system whose objects have an owner and a group. The calls that create an object make a
new one, those that take names away make none, and only `lchown` changes the owner of an object. -/
class HasOwners (F : Type) [FileSystem F] where
  /-- The owner and the group of an object, if it exists. -/
  owner : F → ObjectId → Option (UInt32 × UInt32)
  owner_of_stat : ∀ {fs : F} {s : String} {m : RealMeta}, symlinkMetadata fs s = some m →
    owner fs m.object = some (m.uid, m.gid)
  /-- From the root, a path is its own string. -/
  join_toStr : ∀ p : VfsPath, FileSystem.join F .root p.toStr = some p
  /-- `VfsPath::create_file` creates an object, or opens the one that is there. -/
  createFile : ∀ {fs fs' : F} {p : VfsPath}, createFile fs p = some fs' →
    (∀ o x, owner fs o = some x → owner fs' o = some x) ∧
    (∀ m, lstat fs p = some m → objectAt fs' p = some m.object) ∧
    (lstat fs p = none → ∀ m, lstat fs' p = some m → owner fs m.object = none)
  createDir : ∀ {fs fs' : F} {p : VfsPath}, createDir fs p = some fs' →
    (∀ o x, owner fs o = some x → owner fs' o = some x) ∧ lstat fs p = none ∧
    ∀ m, lstat fs' p = some m → owner fs m.object = none
  symlink : ∀ {fs fs' : F} {target : String} {p : VfsPath},
    FileSystem.symlink fs target (VfsPath.real F p) = .ok fs' →
    (∀ o x, owner fs o = some x → owner fs' o = some x) ∧
    ∀ m, lstat fs' p = some m → owner fs m.object = none
  hardLink : ∀ {fs fs' : F} {a b : String}, hardLink fs a b = .ok fs' →
    ∀ o x, owner fs o = some x → owner fs' o = some x
  removeFile : ∀ {fs fs' : F} {p : VfsPath}, removeFile fs p = some fs' →
    ∀ o x, owner fs' o = some x → owner fs o = some x
  removeDir : ∀ {fs fs' : F} {p : VfsPath}, removeDir fs p = .ok fs' →
    ∀ o x, owner fs' o = some x → owner fs o = some x
  rename : ∀ {fs fs' : F} {a b : String}, FileSystem.rename fs a b = some fs' →
    ∀ o x, owner fs' o = some x → owner fs o = some x
  moveFile : ∀ {fs : F} {a b : VfsPath} {o : ObjectId} {x : UInt32 × UInt32}, owner fs o = some x →
    owner (moveFile fs a b).1 o = some x ∨ owner (moveFile fs a b).1 o = none
  moveDir : ∀ {fs : F} {a b : VfsPath} {o : ObjectId} {x : UInt32 × UInt32}, owner fs o = some x →
    owner (moveDir fs a b).1 o = some x ∨ owner (moveDir fs a b).1 o = none
  lchown : ∀ {fs fs' : F} {s : String} {uid gid : UInt32} {m : RealMeta},
    symlinkMetadata fs s = some m → lchown fs s uid gid = some fs' →
    owner fs' m.object = some (chowned (m.uid, m.gid) uid gid) ∧
    ∀ o ≠ m.object, owner fs' o = owner fs o

export HasOwners (owner)

section Keeps

variable {F : Type} [FileSystem F] [HasOwners F] {fs fs₁ fs₂ : F}

/-- An object that exists in the first state and in the second has the same owner and group in both.
-/
def KeepsOwners (fs fs' : F) : Prop :=
  ∀ o x, owner fs o = some x → owner fs' o = some x ∨ owner fs' o = none

/-- The objects of the first state are there in the second, with the same owners. -/
lemma KeepsOwners.of_grows (h : ∀ o x, owner fs o = some x → owner fs₁ o = some x) :
    KeepsOwners fs fs₁ := fun o x hx => .inl (h o x hx)

/-- Nothing is new in the second state, if it is reached from one that keeps the owners. -/
lemma KeepsOwners.shrinks (hkeep : KeepsOwners fs fs₁)
    (h : ∀ o x, owner fs₂ o = some x → owner fs₁ o = some x) : KeepsOwners fs fs₂ := by
  intro o x hx
  cases howner : owner fs₂ o with
  | none => exact .inr rfl
  | some y =>
    rcases hkeep o x hx with hsame | hgone
    · rw [h o y howner] at hsame
      exact .inl hsame
    · rw [h o y howner] at hgone
      cases hgone

lemma KeepsOwners.refl (fs : F) : KeepsOwners fs fs := .of_grows fun _ _ h => h

end Keeps

/-! ### Giving an object away -/

section Handover

variable {F : Type} [FileSystem F]

/-- The group that an object at a path is given: that of its directory if the set-group-id bit is
set there, or else the caller's. -/
def newGid (fs : F) (caller : Caller) (p : VfsPath) : UInt32 :=
  match (PathBuf.parent (VfsPath.real F p)).bind (symlinkMetadata fs) with
  | some parent => if parent.mode &&& 0o2000 ≠ 0 then parent.gid else caller.gid
  | none => caller.gid

/-- What `chown_new_object` does to the file system. -/
def handOver (fs : F) (caller : Caller) (p : VfsPath) : F :=
  match lstat fs p with
  | none => fs
  | some m =>
    if m.uid = caller.uid ∧ m.gid = newGid fs caller p then fs
    else (lchown fs (VfsPath.real F p) caller.uid (newGid fs caller p)).getD fs

/-- `chown_new_object` gives the current filehandle away. -/
lemma fs_chownNewObject {req : NfsRequest F} {fh : Filehandle} (hmanaged : req.conn.managed = true)
    (hfh : req.conn.filehandle = some fh) (caller : Caller) :
    (chownNewObject req caller).fm.fs = handOver req.fm.fs caller fh.file := by
  unfold chownNewObject handOver
  rw [NfsRequest.fileManager, if_pos hmanaged, hfh]
  dsimp only
  have hstat : symlinkMetadata req.fm.fs (fh.real F) = lstat req.fm.fs fh.file := rfl
  rw [hstat]
  cases hmeta : lstat req.fm.fs fh.file with
  | none => rfl
  | some m =>
    dsimp only
    have hreal : VfsPath.real F fh.file = fh.real F := rfl
    rw [hreal]
    by_cases hsame : m.uid = caller.uid ∧ m.gid = newGid req.fm.fs caller fh.file
    · rw [if_pos hsame]
      exact congrArg (fun r : NfsRequest F => r.fm.fs) (if_pos hsame)
    · rw [if_neg hsame]
      refine (congrArg (fun r : NfsRequest F => r.fm.fs) (if_neg hsame)).trans ?_
      split
      · rename_i hfails
        change lchown req.fm.fs (fh.real F) caller.uid (newGid req.fm.fs caller fh.file) = none at hfails
        rw [hfails]
        rfl
      · rename_i fs hdone
        change lchown req.fm.fs (fh.real F) caller.uid (newGid req.fm.fs caller fh.file) = some fs
          at hdone
        rw [hdone]
        rfl

variable [HasOwners F] {fs fs₁ : F} {caller : Caller} {p : VfsPath}

/-- The object that a path named in one state is given away in the next, to somebody else. -/
def TakesFrom (fs fs₁ : F) (caller : Caller) (p : VfsPath) : Prop :=
  ∃ m, lstat fs p = some m ∧
    chowned (m.uid, m.gid) caller.uid (newGid fs₁ caller p) ≠ (m.uid, m.gid) ∧
    (lchown fs₁ (VfsPath.real F p) caller.uid (newGid fs₁ caller p)).isSome = true

lemma chowned_self (uid gid : UInt32) : chowned (uid, gid) uid gid = (uid, gid) := by
  simp [chowned]

/-- An object that is new may be given away. -/
lemma keepsOwners_handOver_new (hgrow : ∀ o x, owner fs o = some x → owner fs₁ o = some x)
    (hnew : ∀ m, lstat fs₁ p = some m → owner fs m.object = none) :
    KeepsOwners fs (handOver fs₁ caller p) := by
  unfold handOver
  cases hmeta : lstat fs₁ p with
  | none => exact .of_grows hgrow
  | some m =>
    dsimp only
    split_ifs
    · exact .of_grows hgrow
    · cases hlchown : lchown fs₁ (VfsPath.real F p) caller.uid (newGid fs₁ caller p) with
      | none => exact .of_grows hgrow
      | some fs₂ =>
        refine .of_grows fun o x hx => ?_
        have hne : o ≠ m.object := by
          rintro rfl
          rw [hnew m hmeta] at hx
          cases hx
        rw [Option.getD_some, (HasOwners.lchown hmeta hlchown).2 o hne]
        exact hgrow o x hx

/-- An object that was there may be given away only to its owner. -/
lemma keepsOwners_handOver_iff (hgrow : ∀ o x, owner fs o = some x → owner fs₁ o = some x)
    {m : RealMeta} (hmeta : lstat fs p = some m) (hsame : objectAt fs₁ p = some m.object) :
    KeepsOwners fs (handOver fs₁ caller p) ↔ ¬ TakesFrom fs fs₁ caller p := by
  obtain ⟨m₁, hmeta₁, hobj⟩ := Option.map_eq_some_iff.1 hsame
  have hold : owner fs m.object = some (m.uid, m.gid) := HasOwners.owner_of_stat hmeta
  have howner : (m₁.uid, m₁.gid) = (m.uid, m.gid) := by
    have h₁ : owner fs₁ m₁.object = some (m₁.uid, m₁.gid) := HasOwners.owner_of_stat hmeta₁
    rw [hobj, hgrow _ _ hold] at h₁
    exact (Option.some.inj h₁).symm
  have hmode : m₁.uid = m.uid ∧ m₁.gid = m.gid := Prod.mk.inj howner
  unfold handOver
  rw [hmeta₁]
  dsimp only
  split_ifs with hown
  · refine iff_of_true (.of_grows hgrow) ?_
    rintro ⟨m', hm', hchowned, -⟩
    rw [hmeta] at hm'
    cases hm'
    rw [← hown.1, ← hown.2, hmode.1, hmode.2] at hchowned
    exact hchowned (chowned_self _ _)
  · cases hlchown : lchown fs₁ (VfsPath.real F p) caller.uid (newGid fs₁ caller p) with
    | none =>
      refine iff_of_true (.of_grows hgrow) ?_
      rintro ⟨m', -, -, hsome⟩
      rw [hlchown] at hsome
      cases hsome
    | some fs₂ =>
      obtain ⟨hgiven, hothers⟩ := HasOwners.lchown hmeta₁ hlchown
      rw [howner, hobj] at hgiven
      rw [hobj] at hothers
      constructor
      · rintro hkeep ⟨m', hm', hchowned, -⟩
        rw [hmeta] at hm'
        cases hm'
        rcases hkeep _ _ hold with hkept | hgone
        · rw [Option.getD_some, hgiven] at hkept
          exact hchowned (Option.some.inj hkept)
        · rw [Option.getD_some, hgiven] at hgone
          cases hgone
      · intro htakes
        have hchowned : chowned (m.uid, m.gid) caller.uid (newGid fs₁ caller p) = (m.uid, m.gid) := by
          by_contra hne
          exact htakes ⟨m, hmeta, hne, by rw [hlchown]; rfl⟩
        refine .of_grows fun o x hx => ?_
        rw [Option.getD_some]
        by_cases ho : o = m.object
        · subst ho
          rw [hgiven, hchowned, ← hold, hx]
        · rw [hothers o ho]
          exact hgrow o x hx

end Handover

/-! ### The operations that only look -/

section Lookups

variable {F : Type} [FileSystem F] {req req' : NfsRequest F} {r : OpResponse} {fm fm' : FileManager F}

omit [FileSystem F] in
lemma NfsRequest.fm_of_fileManager (h : req.fileManager = some fm) : fm = req.fm :=
  (NfsRequest.isPseudoRoot_of_fileManager h).2

lemma fs_setFilehandleId {id : NfsFh4} {res : Except NfsStat4 Filehandle}
    (h : req.setFilehandleId id = some (req', res)) : req'.fm.fs = req.fm.fs := by
  unfold NfsRequest.setFilehandleId at h
  dsimp only at h
  split_ifs at h
  · cases h
    rfl
  · obtain ⟨fm, hfm, h⟩ := Option.bind_eq_some_iff.1 h
    have hsame := (FileManager.sameWorld_getFilehandleForId fm id).fs
    have hreq := NfsRequest.fm_of_fileManager hfm
    split at h <;> rename_i hget <;> cases h <;> rw [hget] at hsame <;>
      exact hsame.trans (congrArg FileManager.fs hreq)

lemma fs_getRootFilehandle (fm : FileManager F) : fm.getRootFilehandle.1.fs = fm.fs :=
  (FileManager.sameWorld_getFilehandle fm .root).fs

lemma fs_getFilehandleFromCache (req : NfsRequest F) (id : NfsFh4) :
    (req.getFilehandleFromCache id).1.fm = req.fm := by
  unfold NfsRequest.getFilehandleFromCache
  split
  · rfl
  · split_ifs <;> rfl

lemma fs_putfh {args : PutFh4args} (h : args.execute req = some (req', r)) :
    req'.fm.fs = req.fm.fs := by
  unfold PutFh4args.execute at h
  split_ifs at h
  · cases h
    rfl
  · dsimp only at h
    have hcache := fs_getFilehandleFromCache
      (req.withConn (req.conn.switchExport req.fm.exportId args.object)) args.object
    generalize NfsRequest.getFilehandleFromCache
      (req.withConn (req.conn.switchExport req.fm.exportId args.object)) args.object = found at h hcache
    rcases found with ⟨req₁, _ | fh⟩
    · dsimp only at h hcache
      split at h
      · cases h
      · rename_i hset
        cases h
        exact (fs_setFilehandleId hset).trans (congrArg FileManager.fs hcache)
      · rename_i hset
        cases h
        exact (fs_setFilehandleId hset).trans (congrArg FileManager.fs hcache)
    · cases h
      exact congrArg FileManager.fs hcache

lemma fs_putRootFilehandle (h : putRootFilehandle req = some (req', r)) :
    req'.fm.fs = req.fm.fs := by
  unfold putRootFilehandle at h
  dsimp only at h
  split at h
  · cases h
  · rename_i fm hfm
    obtain rfl := NfsRequest.fm_of_fileManager hfm
    split at h
    · cases h
    · rename_i hset
      cases h
      exact (fs_setFilehandleId hset).trans (fs_getRootFilehandle _)

lemma fs_lookup {args : Lookup4args} {exportName : String}
    (h : args.execute exportName req = some (req', r)) : req'.fm.fs = req.fm.fs := by
  unfold Lookup4args.execute at h
  split_ifs at h
  · cases h
    exact fs_getRootFilehandle _
  · cases h
    rfl
  · split at h
    · cases h
      rfl
    · rename_i fh hfh
      split at h
      · cases h
      · rename_i fm hfm
        obtain rfl := NfsRequest.fm_of_fileManager hfm
        have hsame := (FileManager.sameWorld_getFilehandleForPath req.fm (fh.childPath args.objname)).fs
        split at h <;> rename_i hget <;> cases h <;> rw [hget] at hsame <;> exact hsame

lemma fs_lookupParent (h : lookupParent req = some (req', r)) : req'.fm.fs = req.fm.fs := by
  unfold lookupParent at h
  split_ifs at h
  · cases h
    rfl
  · split at h
    · cases h
      rfl
    · rename_i fh hfh
      split at h
      · cases h
      · rename_i fm hfm
        obtain rfl := NfsRequest.fm_of_fileManager hfm
        have hsame := (FileManager.sameWorld_getFilehandleForPath req.fm (pathStr fh.file.parent)).fs
        split at h <;> rename_i hget <;> cases h <;> rw [hget] at hsame <;> exact hsame

lemma fs_createOpenState {file : VfsPath} {clientId : UInt64} {owner : Bytes}
    {shareAccess shareDeny : UInt32} {lock : LockingState}
    (h : fm.createOpenState file clientId owner shareAccess shareDeny = some (fm', lock)) :
    fm'.fs = fm.fs :=
  (fs_insertOpen h).trans (FileManager.sameWorld_getFilehandle fm file).fs

lemma fs_reclaim {args : Open4args} (h : args.reclaim req = some (req', r)) :
    req'.fm.fs = req.fm.fs := by
  unfold Open4args.reclaim at h
  split at h
  · cases h
    rfl
  · split at h
    · cases h
    · rename_i fm hfm
      obtain rfl := NfsRequest.fm_of_fileManager hfm
      split at h
      · cases h
      · rename_i hopen
        cases h
        exact fs_createOpenState hopen

lemma fs_openForReading {args : Open4args} {fh : Filehandle} {file : String}
    (h : args.openForReading fh file req = some (req', r)) : req'.fm.fs = req.fm.fs := by
  unfold Open4args.openForReading at h
  split at h
  · cases h
  · rename_i fm hfm
    obtain rfl := NfsRequest.fm_of_fileManager hfm
    have hsame := (FileManager.sameWorld_getFilehandleForPath req.fm (fh.childPath file)).fs
    split at h
    · rename_i hget
      cases h
      rw [hget] at hsame
      exact hsame
    · rename_i hget
      rw [hget] at hsame
      split at h
      · cases h
      · rename_i hopen
        cases h
        exact (fs_createOpenState hopen).trans hsame

omit [FileSystem F] in
lemma fs_close {args : Close4args} (h : args.execute req = some (req', r)) :
    req'.fm.fs = req.fm.fs := by
  unfold Close4args.execute at h
  split at h
  · cases h
    rfl
  · split at h
    · cases h
    · rename_i fm hfm
      obtain rfl := NfsRequest.fm_of_fileManager hfm
      cases h
      rfl

end Lookups

/-! ### The operations that change names -/

section Names

variable {F : Type} [FileSystem F] [HasOwners F] {req req' : NfsRequest F} {r : OpResponse}

lemma keepsOwners_link {args : Link4args} (h : args.execute req = some (req', r)) :
    KeepsOwners req.fm.fs req'.fm.fs := by
  unfold Link4args.execute at h
  split at h
  · cases h
    exact .refl _
  · split at h
    · cases h
    · rename_i fm hfm
      obtain rfl := NfsRequest.fm_of_fileManager hfm
      split at h
      · cases h
        exact .refl _
      · rename_i hlink
        cases h
        exact .of_grows (HasOwners.hardLink hlink)

lemma keepsOwners_unlinkFile {fs fs' : F} {file : VfsPath} (h : FileManager.unlinkFile fs file = .ok fs') :
    KeepsOwners fs fs' := by
  unfold FileManager.unlinkFile at h
  split_ifs at h
  · split at h
    · rename_i hremove
      cases h
      exact (KeepsOwners.refl fs).shrinks (HasOwners.removeDir hremove)
    · cases h
    · cases h
  · split at h
    · rename_i hremove
      cases h
      exact (KeepsOwners.refl fs).shrinks (HasOwners.removeFile hremove)
    · cases h

lemma keepsOwners_sillyRename (fm : FileManager F) (file : VfsPath) (fh : Filehandle) :
    KeepsOwners fm.fs (fm.sillyRename file fh).1.fs := by
  unfold FileManager.sillyRename
  dsimp only
  split
  · split
    · rename_i hremove
      exact (KeepsOwners.refl _).shrinks (HasOwners.removeFile hremove)
    · exact .refl _
  · rename_i sillyPath _
    have hmove : KeepsOwners fm.fs (moveFile fm.fs file sillyPath).1 := fun _ _ => HasOwners.moveFile
    split
    · -- a removal, after a move that may have stopped half-way
      rename_i hmoved
      rw [hmoved] at hmove
      split
      · rename_i hremove
        exact hmove.shrinks (HasOwners.removeFile hremove)
      · exact hmove
    · rename_i hmoved
      rw [hmoved] at hmove
      exact hmove

omit [HasOwners F] in
lemma fs_forget (fm : FileManager F) (id : NfsFh4) : (fm.forget id).fs = fm.fs :=
  (FileManager.sameWorld_dropCacheHandle _ id).fs

lemma keepsOwners_removeName (fm : FileManager F) (file : VfsPath) :
    KeepsOwners fm.fs (fm.removeName file).1.fs := by
  unfold FileManager.removeName
  have hsame := (FileManager.sameWorld_getFilehandleByPath fm file.toStr).fs
  generalize fm.getFilehandleByPath file.toStr = found at hsame ⊢
  obtain ⟨fm₁, fh⟩ := found
  dsimp only at hsame ⊢
  rw [← hsame]
  split
  · split_ifs
    · split
      · rename_i hunlink
        exact keepsOwners_unlinkFile hunlink
      · exact .refl _
    · exact keepsOwners_sillyRename fm₁ file _
  · split
    · exact .refl _
    · rename_i hunlink
      split
      · exact keepsOwners_unlinkFile hunlink
      · rw [fs_forget]
        exact keepsOwners_unlinkFile hunlink

lemma keepsOwners_remove {args : Remove4args} {silly : Option VfsPath}
    (h : args.execute req = some (req', r, silly)) : KeepsOwners req.fm.fs req'.fm.fs := by
  unfold Remove4args.execute at h
  split at h
  · cases h
    exact .refl _
  · rename_i p _
    split at h
    · cases h
    · rename_i fm hfm
      obtain rfl := NfsRequest.fm_of_fileManager hfm
      have hkeep : KeepsOwners req.fm.fs (req.fm.removeFile p).1.fs := by
        unfold FileManager.removeFile
        have hname := keepsOwners_removeName req.fm p
        generalize req.fm.removeName p = res at hname ⊢
        rcases res with ⟨fm₁, e | silly⟩
        · exact hname
        · dsimp only at hname ⊢
          rw [(FileManager.sameWorld_touchPath _ _).fs]
          exact hname
      split at h <;> rename_i hremove <;> cases h <;> rw [hremove] at hkeep <;> exact hkeep

lemma keepsOwners_renameFile (fs : F) (srcPath dstPath : String) (srcVfs dstVfs : VfsPath) :
    KeepsOwners fs (renameFile fs srcPath dstPath srcVfs dstVfs).1 := by
  unfold renameFile
  dsimp only
  split_ifs
  · split
    · rename_i hrename
      exact (KeepsOwners.refl fs).shrinks (HasOwners.rename hrename)
    · exact .refl _
  · exact fun _ _ => HasOwners.moveDir
  · exact fun _ _ => HasOwners.moveFile

omit [HasOwners F] in
lemma fs_handleRenamePath (fm : FileManager F) (oldPath : String) (newVfsPath : VfsPath) :
    (fm.handleRenamePath oldPath newVfsPath).fs = fm.fs := by
  unfold FileManager.handleRenamePath
  dsimp only
  split <;> rfl

lemma keepsOwners_rename {args : Rename4args} (h : args.execute req = some (req', r)) :
    KeepsOwners req.fm.fs req'.fm.fs := by
  unfold Rename4args.execute at h
  split at h
  · cases h
    exact .refl _
  · rename_i t _
    split at h
    · cases h
    · rename_i fm hfm
      obtain rfl := NfsRequest.fm_of_fileManager hfm
      have hkeep := keepsOwners_renameFile req.fm.fs t.srcPath t.dstPath t.srcVfs t.dstVfs
      split at h
      · rename_i hrename
        cases h
        rw [hrename] at hkeep
        exact hkeep
      · rename_i hrename
        cases h
        rw [hrename] at hkeep
        dsimp only at hkeep ⊢
        rw [(FileManager.sameWorld_touchFile _ _).fs, (FileManager.sameWorld_touchFile _ _).fs,
          fs_handleRenamePath]
        exact hkeep

end Names

/-! ### The operations that create -/

section Create

variable {F : Type} [FileSystem F] [HasOwners F] {req req' : NfsRequest F} {r : OpResponse}
  {caller : Caller} {fh : Filehandle} {p : VfsPath}

/-- CREATE goes on to the object at the path, if there is one. -/
lemma finishCreate_spec {fm : FileManager F} {dir : VfsPath} {before : UInt64}
    (h : finishCreate req fm fh dir p before = (req', r)) :
    req'.fm.fs = fm.fs ∧ req'.conn.managed = req.conn.managed ∧
      ((r.status ≠ .nfs4Ok ∧ lstat fm.fs p = none) ∨
        r.status = .nfs4Ok ∧ ∃ fh', req'.conn.filehandle = some fh' ∧ fh'.file = p) := by
  unfold finishCreate at h
  dsimp only at h
  have htouch := (FileManager.sameWorld_touchFile fm fh.id).fs
  have hget := (FileManager.sameWorld_getFilehandleForPath (fm.touchFile fh.id) p.toStr).fs
  have hfile := FileManager.file_getFilehandle (fm.touchFile fh.id) p
  unfold FileManager.getFilehandleForPath at h hget
  rw [HasOwners.join_toStr] at h hget
  dsimp only at h hget
  split_ifs at h hget with hexists
  · cases h
    exact ⟨hget.trans htouch, rfl, .inr ⟨rfl, _, rfl, hfile⟩⟩
  · cases h
    refine ⟨htouch, rfl, .inl ⟨nofun, ?_⟩⟩
    rw [htouch] at hexists
    unfold pathExists at hexists
    cases hmeta : lstat fm.fs p with
    | none => rfl
    | some m => simp [hmeta] at hexists

omit [HasOwners F] in
lemma handOver_of_none {fs : F} (h : lstat fs p = none) : handOver fs caller p = fs := by
  rw [handOver, h]

/-- What CREATE makes is given away. -/
lemma fs_dispatch_opcreate {cfg : ServerConfig} {args : Create4args} {dirs : List String} {fs₁ : F}
    (hcheck : checkOp cfg.names (.opcreate args) req caller = .ok dirs)
    (hmanaged : req.conn.managed = true) (htarget : args.target req = .ok (fh, p))
    (hmake : args.make req.fm.fs p = .ok fs₁) :
    ∃ req' r, dispatch cfg caller (.opcreate args) req = some (req', r, none) ∧
      req'.fm.fs = handOver fs₁ caller p := by
  have hexec : ∃ req₁ r, args.execute req = some (req₁, r) ∧
      finishCreate req { req.fm with fs := fs₁ } fh (createDirectory req.fm.fs fh) p
        (req.fm.dirChangeAttr (createDirectory req.fm.fs fh).toStr) = (req₁, r) := by
    unfold Create4args.execute
    rw [htarget]
    dsimp only
    rw [NfsRequest.fileManager, if_pos hmanaged]
    dsimp only
    rw [hmake]
    exact ⟨_, _, rfl, rfl⟩
  obtain ⟨req₁, r, hexec, hfinish⟩ := hexec
  obtain ⟨hfs, hconn, hcases⟩ := finishCreate_spec hfinish
  have hcreates : createsObject (.opcreate args) req = true := rfl
  unfold dispatch
  rw [hcheck]
  simp only [execute, hexec, hcreates, Option.map_some, Bool.true_and]
  rcases hcases with ⟨hstatus, hnone⟩ | ⟨hstatus, fh', hfh', hfile⟩
  · rw [if_neg (by simpa using hstatus)]
    exact ⟨req₁, r, rfl, by rw [hfs, handOver_of_none hnone]⟩
  · rw [if_pos (by simp [hstatus])]
    refine ⟨_, r, rfl, ?_⟩
    rw [fs_chownNewObject (hconn.trans hmanaged) hfh', hfile, hfs]

omit [HasOwners F] in
lemma status_of_target_error {args : Create4args} (h : args.target req = .error r) :
    r.status ≠ .nfs4Ok := by
  unfold Create4args.target at h
  split at h
  · cases h
    nofun
  · split_ifs at h
    · cases h
      nofun
    · split at h
      · split at h <;> cases h
        nofun
      · split at h <;> cases h
        nofun
      · cases h
        nofun

omit [HasOwners F] in
/-- CREATE makes something, or changes nothing. -/
lemma dispatch_opcreate_cases {cfg : ServerConfig} {args : Create4args} {silly : Option VfsPath}
    (h : dispatch cfg caller (.opcreate args) req = some (req', r, silly)) :
    req'.fm.fs = req.fm.fs ∨
    ∃ dirs fh p fs₁, checkOp cfg.names (.opcreate args) req caller = .ok dirs ∧
      req.conn.managed = true ∧ args.target req = .ok (fh, p) ∧
      args.make req.fm.fs p = .ok fs₁ := by
  have hcreates : createsObject (.opcreate args) req = true := rfl
  unfold dispatch at h
  cases hcheck : checkOp cfg.names (.opcreate args) req caller with
  | error status =>
    rw [hcheck] at h
    cases h
    exact .inl rfl
  | ok dirs =>
    rw [hcheck] at h
    simp only [execute, Create4args.execute, hcreates, Bool.true_and] at h
    cases htarget : args.target req with
    | error r₁ =>
      simp only [htarget, Option.map_some] at h
      rw [if_neg (by simpa using status_of_target_error htarget)] at h
      cases h
      exact .inl rfl
    | ok t =>
      obtain ⟨fh, p⟩ := t
      by_cases hmanaged : req.conn.managed = true
      · cases hmake : args.make req.fm.fs p with
        | error e =>
          simp only [htarget, NfsRequest.fileManager, hmanaged, if_true, hmake, Option.map_some] at h
          rw [if_neg (by cases e <;> decide)] at h
          cases h
          exact .inl rfl
        | ok fs₁ => exact .inr ⟨dirs, fh, p, fs₁, rfl, hmanaged, rfl, hmake⟩
      · simp [htarget, NfsRequest.fileManager, hmanaged] at h

/-- What is made by CREATE is new, unless it is a directory that could not be made. -/
lemma keepsOwners_make {args : Create4args} {fs₁ : F} (htarget : args.target req = .ok (fh, p))
    (hmake : args.make req.fm.fs p = .ok fs₁) : KeepsOwners req.fm.fs (handOver fs₁ caller p) ↔
      ¬ (args.objtype = .nf4dir ∧ TakesFrom req.fm.fs req.fm.fs caller p) := by
  unfold Create4args.make at hmake
  split at hmake
  · rename_i linkdata htype
    obtain ⟨hgrow, hnew⟩ := HasOwners.symlink hmake
    refine iff_of_true (keepsOwners_handOver_new hgrow hnew) ?_
    rintro ⟨hdir, -⟩
    rw [htype] at hdir
    cases hdir
  · rename_i hlink
    have hdir : args.objtype = .nf4dir := by
      unfold Create4args.target at htarget
      split at htarget
      · cases htarget
      · split_ifs at htarget
        split at htarget
        · rename_i linkdata htype
          exact absurd htype (hlink linkdata)
        · rename_i htype
          exact htype
        · cases htarget
    have hiff : ¬ (args.objtype = .nf4dir ∧ TakesFrom req.fm.fs req.fm.fs caller p) ↔
        ¬ TakesFrom req.fm.fs req.fm.fs caller p := by
      simp [hdir]
    rw [hiff]
    cases hmake
    cases hcreate : createDir req.fm.fs p with
    | some fs =>
      obtain ⟨hgrow, hfree, hnew⟩ := HasOwners.createDir hcreate
      refine iff_of_true (keepsOwners_handOver_new hgrow hnew) ?_
      rintro ⟨m, hmeta, -⟩
      rw [hfree] at hmeta
      cases hmeta
    | none =>
      rw [Option.getD_none]
      cases hmeta : lstat req.fm.fs p with
      | some m =>
        exact keepsOwners_handOver_iff (fun _ _ hx => hx) hmeta (by rw [objectAt, hmeta]; rfl)
      | none =>
        rw [handOver_of_none hmeta]
        refine iff_of_true (.refl _) ?_
        rintro ⟨m, hm, -⟩
        rw [hmeta] at hm
        cases hm

omit [HasOwners F] in
/-- A file is created only if the next stateid is free. -/
lemma fresh_of_createFileMsg {fm fm' : FileManager F} {clientId : UInt64} {owner : Bytes}
    {shareAccess shareDeny : UInt32} {made : Filehandle × LockingState}
    (h : fm.createFileMsg p clientId owner shareAccess shareDeny = some (fm', some made)) :
    fm.locks.Fresh ∧ ∃ fs₁, createFile fm.fs p = some fs₁ := by
  unfold FileManager.createFileMsg at h
  split at h
  · cases h
  · rename_i fm₁ fh hcreate
    have hlocks := FileManager.createFile_locks _ _ hcreate
    obtain ⟨⟨fm₂, lock⟩, hopen, -⟩ := Option.bind_eq_some_iff.1 h
    obtain ⟨locks, hinsert, -⟩ := Option.bind_eq_some_iff.1 hopen
    obtain ⟨db, hdb, -⟩ := Option.bind_eq_some_iff.1 hinsert
    constructor
    · intro e he heq
      rw [← hlocks] at he heq
      unfold Table.insert at hdb
      split_ifs at hdb with hfree
      have hclash := hfree e he
      simp [LockingState.newSharedReservation, heq] at hclash
    · unfold FileManager.createFile at hcreate
      split at hcreate
      · cases hcreate
      · rename_i fs₁ hfs
        exact ⟨fs₁, hfs⟩

omit [HasOwners F] in
lemma createFileMsg_none {fm fm' : FileManager F} {clientId : UInt64} {owner : Bytes}
    {shareAccess shareDeny : UInt32}
    (h : fm.createFileMsg p clientId owner shareAccess shareDeny = some (fm', none)) : fm' = fm := by
  unfold FileManager.createFileMsg at h
  split at h
  · cases h
    rfl
  · obtain ⟨_, -, heq⟩ := Option.bind_eq_some_iff.1 h
    cases heq

omit [HasOwners F] in
/-- OPEN with a create mode creates the file, or fails and changes nothing. -/
lemma openForWriting_cases {args : Open4args} {how : CreateHow4} {name : String}
    (h : args.openForWriting fh name how req = some (req', r)) :
    (req' = req ∧ r.status ≠ .nfs4Ok) ∨
    (∀ attrs, how ≠ .guarded4 attrs) ∧ req.conn.managed = true ∧ req.fm.locks.Fresh ∧
      ∃ p fs₁, FileSystem.join F fh.file name = some p ∧ createFile req.fm.fs p = some fs₁ := by
  unfold Open4args.openForWriting at h
  split at h
  · cases h
    exact .inl ⟨rfl, by simp⟩
  · rename_i p hjoin
    split at h
    · cases h
    · rename_i fm hfm
      obtain rfl := NfsRequest.fm_of_fileManager hfm
      have hmanaged : req.conn.managed = true := by
        by_contra hnot
        simp [NfsRequest.fileManager, hnot] at hfm
      cases how with
      | guarded4 attrs =>
        cases h
        exact .inl ⟨rfl, by simp⟩
      | unchecked4 _ | exclusive4 _ =>
        dsimp only at h
        split at h
        · cases h
        · rename_i hmsg
          cases h
          rw [createFileMsg_none hmsg]
          exact .inl ⟨rfl, by simp⟩
        · rename_i hmsg
          obtain ⟨hfresh, fs₁, hcreate⟩ := fresh_of_createFileMsg hmsg
          exact .inr ⟨by simp, hmanaged, hfresh, p, fs₁, hjoin, hcreate⟩

omit [HasOwners F] in
/-- A file that OPEN creates is given away if the check did not find its name. -/
lemma fs_dispatch_opopen {cfg : ServerConfig} {args : Open4args} {dirs : List String} {fs₁ : F}
    {how : CreateHow4} {name : String}
    (hcheck : checkOp cfg.names (.opopen args) req caller = .ok dirs)
    (hmanaged : req.conn.managed = true) (hhow : args.openhow = .how how)
    (hmode : ∀ attrs, how ≠ .guarded4 attrs) (htarget : args.target req = .ok (fh, name))
    (hjoin : FileSystem.join F fh.file name = some p) (hfresh : req.fm.locks.Fresh)
    (hcreate : createFile req.fm.fs p = some fs₁) :
    ∃ req' r, dispatch cfg caller (.opopen args) req = some (req', r, none) ∧
      req'.fm.fs = if symlinkMetadata req.fm.fs (fh.realChild F name) = none then
        handOver fs₁ caller p else fs₁ := by
  obtain ⟨hfh, -, hclaim, -⟩ := Open4args.target_ok htarget
  have hcreates : createsObject (.opopen args) req =
      (symlinkMetadata req.fm.fs (fh.realChild F name)).isNone := by
    rw [createsObject, hclaim, hhow, NfsRequest.fileManager, if_pos hmanaged, hfh]
  have hexec : args.execute req = args.openForWriting fh name how req := by
    rw [Open4args.execute, hclaim]
    dsimp only
    rw [htarget, hhow]
  have hcases := @openForWriting_creates F _ args fh name how req p hmanaged hjoin hmode hfresh
  rcases hcases with ⟨hnone, -⟩ | ⟨req₁, r, hsome, hstatus, hopen, hconn, fh', hfh', hfile⟩
  · rw [hcreate] at hnone
    cases hnone
  · rw [hcreate] at hsome
    have hfs : req₁.fm.fs = fs₁ := (Option.some.inj hsome).symm
    unfold dispatch
    rw [hcheck]
    simp only [execute, hexec, hopen, hcreates, Option.map_some, hstatus, beq_self_eq_true,
      Bool.and_true, Option.isNone_iff_eq_none]
    split_ifs
    · refine ⟨_, r, rfl, ?_⟩
      rw [fs_chownNewObject hconn hfh', hfile, hfs]
    · exact ⟨req₁, r, rfl, hfs⟩

omit [HasOwners F] in
lemma status_of_open_target_error {args : Open4args} (h : args.target req = .error r) :
    r.status ≠ .nfs4Ok := by
  unfold Open4args.target at h
  split at h
  · cases h
    nofun
  · split_ifs at h
    · cases h
      nofun
    · split at h
      · split_ifs at h
        cases h
        nofun
      · cases h
        nofun

omit [HasOwners F] in
/-- OPEN creates a file, or changes nothing. -/
lemma dispatch_opopen_cases {cfg : ServerConfig} {args : Open4args} {silly : Option VfsPath}
    (h : dispatch cfg caller (.opopen args) req = some (req', r, silly)) :
    req'.fm.fs = req.fm.fs ∨
    ∃ dirs how fh name p fs₁, checkOp cfg.names (.opopen args) req caller = .ok dirs ∧
      req.conn.managed = true ∧ req.fm.locks.Fresh ∧ args.openhow = .how how ∧
      (∀ attrs, how ≠ .guarded4 attrs) ∧ args.target req = .ok (fh, name) ∧
      FileSystem.join F fh.file name = some p ∧ createFile req.fm.fs p = some fs₁ := by
  unfold dispatch at h
  cases hcheck : checkOp cfg.names (.opopen args) req caller with
  | error status =>
    rw [hcheck] at h
    cases h
    exact .inl rfl
  | ok dirs =>
    rw [hcheck] at h
    simp only [execute] at h
    cases hexec : args.execute req with
    | none => simp [hexec] at h
    | some res =>
      obtain ⟨req₁, r₁⟩ := res
      simp only [hexec, Option.map_some] at h
      -- nothing is given away by an OPEN that creates nothing or fails
      have hquiet : (createsObject (.opopen args) req = false ∨ r₁.status ≠ .nfs4Ok) →
          req₁.fm.fs = req.fm.fs → req'.fm.fs = req.fm.fs := by
        intro hquiet hfs
        have hif : (createsObject (.opopen args) req && r₁.status == .nfs4Ok) = false := by
          rcases hquiet with hcreates | hstatus
          · simp [hcreates]
          · simp [hstatus]
        rw [hif] at h
        cases h
        exact hfs
      unfold Open4args.execute at hexec
      split at hexec
      · rename_i hclaim
        refine .inl (hquiet (.inl ?_) (fs_reclaim hexec))
        rw [createsObject, hclaim]
      · split at hexec
        · rename_i htarget
          cases hexec
          exact .inl (hquiet (.inr (status_of_open_target_error htarget)) rfl)
        · rename_i fh name htarget
          cases hhow : args.openhow with
          | open4Nocreate =>
            rw [hhow] at hexec
            refine .inl (hquiet (.inl ?_) (fs_openForReading hexec))
            rw [createsObject, hhow]
            cases args.claim <;> rfl
          | how how =>
            rw [hhow] at hexec
            rcases openForWriting_cases hexec with ⟨rfl, hstatus⟩ |
              ⟨hmode, hmanaged, hfresh, p, fs₁, hjoin, hcreate⟩
            · exact .inl (hquiet (.inr hstatus) rfl)
            · exact .inr ⟨dirs, how, fh, name, p, fs₁, rfl, hmanaged, hfresh, rfl, hmode, htarget, hjoin,
                hcreate⟩

end Create

/-! ### SETATTR -/

/-- The calls of `set_attr`. All but `chown` keep the owners. -/
class AttributeCalls (F : Type) [FileSystem F] [HasOwners F] where
  /-- `libc::chown`, which follows symbolic links. -/
  chown : F → String → UInt32 → UInt32 → Option F
  /-- `libc::chmod`. -/
  chmod : F → String → UInt32 → Option F
  /-- `libc::utimensat` with the time of the server. -/
  utimensNow : F → String → Option F
  /-- Read as many bytes as the new size from the file and write them back: the state after it, and
  whether it succeeded. -/
  rewrite : F → VfsPath → UInt64 → F × Bool
  chmod_owner : ∀ {fs fs' : F} {s : String} {mode : UInt32}, chmod fs s mode = some fs' →
    ∀ o x, owner fs o = some x → owner fs' o = some x
  utimensNow_owner : ∀ {fs fs' : F} {s : String}, utimensNow fs s = some fs' →
    ∀ o x, owner fs o = some x → owner fs' o = some x
  rewrite_owner : ∀ (fs : F) (p : VfsPath) (size : UInt64) (o : ObjectId) (x : UInt32 × UInt32),
    owner fs o = some x → owner (rewrite fs p size).1 o = some x

section SetAttr

variable {F : Type} [FileSystem F] [HasOwners F] [AttributeCalls F]

/-- A call of `set_attr`, which adds the attribute to those that were set if it succeeds. -/
def setAttrBy (call : Option F) (attr : FileAttr) (res : F × List FileAttr) : F × List FileAttr :=
  match call with
  | some fs => (fs, res.2 ++ [attr])
  | none => res

/-- One attribute of `set_attr`. -/
def setAttrOne (names : NameService) (fh : Filehandle) (res : F × List FileAttr) :
    FileAttrValue → F × List FileAttr
  | .size size =>
    let (fs, done) := AttributeCalls.rewrite res.1 fh.file size
    (fs, if done then res.2 ++ [.size] else res.2)
  | .owner owner =>
    match resolveNfs4 names.getpwnam owner with
    | some uid => setAttrBy (AttributeCalls.chown res.1 (VfsPath.real F fh.file) uid 0xffffffff) .owner res
    | none => res
  | .ownerGroup group =>
    match resolveNfs4 names.getgrnam group with
    | some gid =>
      setAttrBy (AttributeCalls.chown res.1 (VfsPath.real F fh.file) 0xffffffff gid) .ownerGroup res
    | none => res
  | .mode mode => setAttrBy (AttributeCalls.chmod res.1 (VfsPath.real F fh.file) mode) .mode res
  | .timeModifySet =>
    setAttrBy (AttributeCalls.utimensNow res.1 (VfsPath.real F fh.file)) .timeModifySet res
  | _ => res

/-- `set_attr`. -/
def setAttr (names : NameService) (fs : F) (fh : Filehandle) (attrVals : List FileAttrValue) :
    F × List FileAttr :=
  attrVals.foldl (setAttrOne names fh) (fs, [])

/-- SETATTR: `SetAttr4args::execute`. -/
def SetAttr4args.execute (args : SetAttr4args) (names : NameService) (req : NfsRequest F) :
    Option (NfsRequest F × OpResponse) :=
  match req.conn.filehandle with
  | none => some (req, ⟨some (.opsetattr ⟨.nfs4errStale, []⟩), .nfs4errStale⟩)
  | some fh =>
    if args.objAttributes.attrmask.isEmpty then
      some (req, ⟨some (.opsetattr ⟨.nfs4Ok, []⟩), .nfs4Ok⟩)
    else
      match req.fileManager with
      | none => none
      | some fm =>
        let (fs, attrsset) := setAttr names fm.fs fh args.objAttributes.attrVals
        let fm := { fm with fs := fs }.touchFile fh.id
        match NfsRequest.setFilehandleId ⟨fm, req.conn⟩ fh.id with
        | none => none
        | some (req, .ok fh) =>
          some (req.withConn (req.conn.cacheFilehandle req.fm.now fh),
            ⟨some (.opsetattr ⟨.nfs4Ok, attrsset⟩), .nfs4Ok⟩)
        | some (req, .error e) => some (req, ⟨none, e⟩)

omit [HasOwners F] [AttributeCalls F] in
lemma owner_setAttrBy [HasOwners F] {call : Option F} {attr : FileAttr} {res : F × List FileAttr}
    (hcall : ∀ fs, call = some fs → ∀ o x, owner res.1 o = some x → owner fs o = some x)
    (o : ObjectId) (x : UInt32 × UInt32) (hx : owner res.1 o = some x) :
    owner (setAttrBy call attr res).1 o = some x := by
  cases call with
  | none => exact hx
  | some fs => exact hcall fs rfl o x hx

/-- An attribute that does not say who owns an object does not change that. -/
lemma owner_setAttrOne (names : NameService) (fh : Filehandle) (res : F × List FileAttr)
    {attr : FileAttrValue} (hattr : setsOwner attr = false) (o : ObjectId) (x : UInt32 × UInt32)
    (hx : owner res.1 o = some x) : owner (setAttrOne names fh res attr).1 o = some x := by
  cases attr with
  | owner | ownerGroup => cases hattr
  | size size => exact AttributeCalls.rewrite_owner _ _ _ o x hx
  | mode mode => exact owner_setAttrBy (fun fs h => AttributeCalls.chmod_owner h) o x hx
  | timeModifySet => exact owner_setAttrBy (fun fs h => AttributeCalls.utimensNow_owner h) o x hx
  | _ => exact hx

/-- `set_attr` changes owners only if it is told to. -/
lemma owner_setAttr (names : NameService) (fs : F) (fh : Filehandle) {attrVals : List FileAttrValue}
    (hattrs : attrVals.any setsOwner = false) (o : ObjectId) (x : UInt32 × UInt32)
    (hx : owner fs o = some x) : owner (setAttr names fs fh attrVals).1 o = some x := by
  unfold setAttr
  generalize hres : (fs, ([] : List FileAttr)) = res
  have hfirst : owner res.1 o = some x := by
    rw [← hres]
    exact hx
  clear hres
  induction attrVals generalizing res with
  | nil => exact hfirst
  | cons attr rest ih =>
    rw [List.any_cons, Bool.or_eq_false_iff] at hattrs
    exact ih hattrs.2 _ (owner_setAttrOne names fh res hattrs.1 o x hfirst)

/-- SETATTR changes owners only if it is told to. -/
lemma keepsOwners_setattr {args : SetAttr4args} {names : NameService} {req req' : NfsRequest F}
    {r : OpResponse} (h : args.execute names req = some (req', r)) :
    KeepsOwners req.fm.fs req'.fm.fs ∨
      req.fileManager.isSome ∧ req.conn.filehandle.isSome ∧
        args.objAttributes.attrVals.any setsOwner = true := by
  unfold SetAttr4args.execute at h
  split at h
  · cases h
    exact .inl (.refl _)
  · rename_i fh hfh
    split_ifs at h
    · cases h
      exact .inl (.refl _)
    · split at h
      · cases h
      · rename_i fm hfm
        cases hattrs : args.objAttributes.attrVals.any setsOwner with
        | true => exact .inr ⟨by rw [hfm]; rfl, by rw [hfh]; rfl, rfl⟩
        | false =>
          obtain rfl := NfsRequest.fm_of_fileManager hfm
          have hkeep : KeepsOwners req.fm.fs
              (setAttr names req.fm.fs fh args.objAttributes.attrVals).1 :=
            .of_grows (owner_setAttr names req.fm.fs fh hattrs)
          have htouch := FileManager.sameWorld_touchFile { req.fm with
            fs := (setAttr names req.fm.fs fh args.objAttributes.attrVals).1 } fh.id
          dsimp only at h
          split at h
          · cases h
          · rename_i req₁ _ hset
            cases h
            change KeepsOwners req.fm.fs req₁.fm.fs ∨ _
            rw [(fs_setFilehandleId hset).trans htouch.fs]
            exact .inl hkeep
          · rename_i hset
            cases h
            rw [(fs_setFilehandleId hset).trans htouch.fs]
            exact .inl hkeep

end SetAttr

end NextNfs
