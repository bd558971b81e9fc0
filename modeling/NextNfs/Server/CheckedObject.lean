import NextNfs.Server.FlatFs
import NextNfs.Server.Perm

set_option relaxedAutoImplicit false
set_option autoImplicit false

/-!
# The checked object is the acted-on object

The permission check and the operations compute paths from the same filehandles and names, but
each in its own way. This module compares them: is what an operation looks up, creates, removes
or renames an entry of the very directory whose mode bits the check evaluated?

It is not for names that are empty, `.`, `..` or contain a slash, which no operation refuses,
and not for a filehandle of a symbolic link to a directory: the check skips it, and the operation
follows it.

## Main definitions

* `NextNfs.actedOn` — the paths an operation goes on with.
* `NextNfs.CheckedIsActedOn` — the names are components, and each path is an entry of the
  directory evaluated for it.
* `NextNfs.SafeRequest` — names are components, and filehandles stand for real directories.

## Main results

* `NextNfs.checkedIsActedOn_iff` — checked and acted-on object agree exactly for the requests that
  are refused and the safe ones.
-/

namespace NextNfs

variable {F : Type} [FileSystem F]

/-! ### What an operation acts on -/

/-- The names in an operation. -/
def objectNames : NfsArgOp → List String
  | .oplookup args => [args.objname]
  | .opopen args =>
    match args.claim with
    | .claimNull name => [name]
    | _ => []
  | .opcreate args => [args.objname]
  | .opremove args => [args.target]
  | .oprename args => [args.oldname, args.newname]
  | .oplink args => [args.newname]
  | _ => []

/-- The path that `get_filehandle_for_path` looks up for a name in a directory. -/
def lookedUp (fh : Filehandle) (name : String) : List String :=
  ((FileSystem.join F .root (fh.childPath name)).map (VfsPath.real F)).toList

/-- The paths of the operating system that an operation goes on to look up, create, remove or
rename; none if it refuses the request, or has no file manager to go on with. -/
def actedOn (arg : NfsArgOp) (req : NfsRequest F) : List String :=
  match req.fileManager with
  | none => []
  | some _ =>
    match arg with
    | .oplookup args =>
      match req.conn.filehandle with
      | none => []
      | some fh => lookedUp (F := F) fh args.objname
    | .opopen args =>
      match args.target req with
      | .error _ => []
      | .ok (fh, name) =>
        match args.openhow with
        | .open4Nocreate => lookedUp (F := F) fh name
        | .how (.guarded4 _) => []
        | .how _ => ((FileSystem.join F fh.file name).map (VfsPath.real F)).toList
    | .opcreate args =>
      match args.target req with
      | .error _ => []
      | .ok (_, p) => [VfsPath.real F p]
    | .opremove args =>
      match args.path req with
      | .error _ => []
      | .ok p => [VfsPath.real F p]
    | .oprename args =>
      match args.target req with
      | .error _ => []
      | .ok t => [realPath (FileSystem.exportRoot F) t.srcPath, realPath (FileSystem.exportRoot F) t.dstPath]
    | .oplink args =>
      match args.target req with
      | .error _ => []
      | .ok (_, _, p) => [VfsPath.real F p]
    | _ => []

/-- A path is an entry of a directory. -/
def IsChildOf (t d : String) : Prop := ∃ name, PlainName name ∧ t = PathBuf.join d name

/-- A request is refused: by the check, or by the operation itself. -/
def Refused (ns : NameService) (arg : NfsArgOp) (req : NfsRequest F) (caller : Caller) : Prop :=
  (∃ status, checkOp ns arg req caller = .error status) ∨ actedOn arg req = []

/-- If a request is let through, its names are components, and what the operation acts on are
entries of the directories whose mode bits the check evaluated. -/
def CheckedIsActedOn (ns : NameService) (arg : NfsArgOp) (req : NfsRequest F) (caller : Caller) :
    Prop :=
  ∀ dirs, checkOp ns arg req caller = .ok dirs → actedOn arg req ≠ [] →
    (∀ name ∈ objectNames arg, PlainName name) ∧ List.Forall₂ IsChildOf (actedOn arg req) dirs

/-! ### Safe requests -/

/-- A path of the operating system is a directory, and not a symbolic link to one. -/
def isDirectory (fs : F) (path : String) : Bool :=
  (symlinkMetadata fs path).any fun m => m.fileType == S_IFDIR

/-- CREATE with this filehandle works in a directory that is one: the filehandle itself, or its
parent if the filehandle is a file or a symbolic link to a file. -/
def CreatesInDirectory (fs : F) (fh : Filehandle) : Prop :=
  isDirectory fs (fh.real F) = true ∨
    (symlinkMetadata fs (fh.real F)).isSome = true ∧ isFile fs fh.file = true ∧
      isDirectory fs (VfsPath.real F fh.file.parent) = true

/-- The names are components, and the filehandles the names are joined to stand for
directories. -/
def SafeRequest (arg : NfsArgOp) (req : NfsRequest F) : Prop :=
  (∀ name ∈ objectNames arg, PlainName name) ∧
    match arg with
    | .opcreate _ => ∀ fh ∈ req.conn.filehandle, CreatesInDirectory req.fm.fs fh
    | .oprename _ =>
      (∀ fh ∈ req.conn.savedFilehandle, isDirectory req.fm.fs (fh.real F) = true) ∧
        ∀ fh ∈ req.conn.filehandle, isDirectory req.fm.fs (fh.real F) = true
    | _ => ∀ fh ∈ req.conn.filehandle, isDirectory req.fm.fs (fh.real F) = true

/-! ### What the check evaluates -/

/-- The directory, if its mode bits get evaluated. -/
def evaluated (fs : F) (dir : String) : List String := if isDirectory fs dir then [dir] else []

lemma need_ok {ok : Bool} {status : NfsStat4} {dirs dirs' : List String}
    (h : need ok status dirs = .ok dirs') : dirs' = dirs := by
  unfold need at h
  split_ifs at h
  cases h
  rfl

lemma needDir_ok {caller : Caller} {fs : F} {dir : String} {want : UInt32} {dirs : List String}
    (h : needDir caller fs dir want = .ok dirs) : dirs = evaluated fs dir := by
  unfold needDir at h
  unfold evaluated isDirectory
  cases hm : symlinkMetadata fs dir with
  | none =>
    rw [hm] at h
    cases h
    rfl
  | some m =>
    rw [hm] at h
    simp only [Option.any_some, beq_iff_eq]
    by_cases hdir : m.fileType = S_IFDIR
    · simp only [if_pos hdir] at h ⊢
      exact need_ok h
    · simp only [if_neg hdir] at h ⊢
      cases h
      rfl

lemma needUnlink_ok {caller : Caller} {fs : F} {dir name : String} {dirs : List String}
    (h : needUnlink caller fs dir name = .ok dirs) : dirs = evaluated fs dir := by
  unfold needUnlink at h
  unfold evaluated isDirectory
  cases hm : symlinkMetadata fs dir with
  | none =>
    rw [hm] at h
    cases h
    rfl
  | some m =>
    rw [hm] at h
    simp only [Option.any_some, beq_iff_eq]
    by_cases hdir : m.fileType = S_IFDIR
    · simp only [hdir, ne_eq, not_true_eq_false, if_false] at h
      rw [if_pos hdir]
      cases hneed : need (caller.may m (MAY_WRITE ||| MAY_EXEC)) .nfs4errAccess [dir] with
      | error e =>
        rw [hneed] at h
        cases h
      | ok dirs' =>
        have hdirs' : dirs' = [dir] := need_ok hneed
        rw [hneed] at h
        -- the sticky bit only decides whether the request is refused
        change (if _ then _ else _) = Except.ok dirs at h
        split_ifs at h
        · split at h
          · rw [need_ok h, hdirs']
          · cases h
            exact hdirs'
        · cases h
          exact hdirs'
    · simp only [hdir, ne_eq, not_false_eq_true, if_true] at h
      rw [if_neg hdir]
      cases h
      rfl

/-- The directories the check consults. -/
def consulted (arg : NfsArgOp) (req : NfsRequest F) : List String :=
  match arg with
  | .opcreate _ => (req.conn.filehandle.map (dirPath req.fm.fs)).toList
  | .oprename _ =>
    (req.conn.savedFilehandle.map (Filehandle.real F)).toList ++
      (req.conn.filehandle.map (Filehandle.real F)).toList
  | _ => (req.conn.filehandle.map (Filehandle.real F)).toList

/-- The directories the operation joins its names to. -/
def workedIn (arg : NfsArgOp) (req : NfsRequest F) : List String :=
  match arg with
  | .opcreate _ =>
    (req.conn.filehandle.map fun fh => VfsPath.real F (createDirectory req.fm.fs fh)).toList
  | .oprename _ =>
    (req.conn.savedFilehandle.map (Filehandle.real F)).toList ++
      (req.conn.filehandle.map (Filehandle.real F)).toList
  | _ => (req.conn.filehandle.map (Filehandle.real F)).toList

/-- An operation that acts on something has a file manager and a current filehandle. -/
lemma exists_of_actedOn {arg : NfsArgOp} {req : NfsRequest F} (h : actedOn arg req ≠ []) :
    ∃ fm fh, req.fileManager = some fm ∧ req.conn.filehandle = some fh := by
  cases hfm : req.fileManager with
  | none => simp [actedOn, hfm] at h
  | some fm =>
    cases hfh : req.conn.filehandle with
    | some fh => exact ⟨fm, fh, rfl, rfl⟩
    | none =>
      refine absurd ?_ h
      unfold actedOn
      rw [hfm]
      cases arg with
      | oplookup args => simp [hfh]
      | opopen args => simp [Open4args.target, hfh]
      | opcreate args => simp [Create4args.target, hfh]
      | opremove args => simp [Remove4args.path, hfh]
      | oprename args => cases hs : req.conn.savedFilehandle <;> simp [Rename4args.target, hs, hfh]
      | oplink args => cases hs : req.conn.savedFilehandle <;> simp [Link4args.target, hs, hfh]
      | _ => rfl

/-- An OPEN that acts on something is one of a name. -/
lemma exists_target_of_actedOn {args : Open4args} {req : NfsRequest F}
    (h : actedOn (.opopen args) req ≠ []) : ∃ name, args.claim = .claimNull name := by
  unfold actedOn at h
  cases htarget : args.target req with
  | error r =>
    simp only [htarget] at h
    split at h <;> exact absurd rfl h
  | ok t => exact ⟨t.2, (Open4args.target_ok htarget).2.2.1⟩

/-- A check that lets a request through has evaluated the directories it consults, as far as they
are directories. -/
lemma checkOp_ok {ns : NameService} {arg : NfsArgOp} {req : NfsRequest F} {caller : Caller}
    {dirs : List String} (h : checkOp ns arg req caller = .ok dirs) (hacts : actedOn arg req ≠ []) :
    dirs = (consulted arg req).flatMap (evaluated req.fm.fs) := by
  obtain ⟨fm, fh, hfm, hfh⟩ := exists_of_actedOn hacts
  obtain ⟨hpseudo, rfl⟩ := NfsRequest.isPseudoRoot_of_fileManager hfm
  unfold checkOp at h
  rw [if_neg (by simp [hpseudo]), hfm, hfh] at h
  cases arg with
  | oplookup args => simpa [consulted, hfh] using needDir_ok h
  | opcreate args => simpa [consulted, hfh] using needDir_ok h
  | opremove args => simpa [consulted, hfh] using needUnlink_ok h
  | oplink args =>
    simp only at h
    split_ifs at h
    simpa [consulted, hfh] using needDir_ok h
  | opopen args =>
    simp only [consulted, hfh, Option.map_some, Option.toList_some, List.flatMap_cons,
      List.flatMap_nil, List.append_nil]
    cases hclaim : args.claim with
    | claimNull name =>
      simp only [hclaim] at h
      cases hneed : needDir caller req.fm.fs (fh.real F) MAY_EXEC with
      | error e => simp [hneed, bind, Except.bind] at h
      | ok dir =>
        simp only [hneed, bind, Except.bind, pure, Except.pure] at h
        rw [← needDir_ok hneed]
        -- the rest of the check is about the file, or the same directory again
        split_ifs at h
        · split at h <;> cases h
          rfl
        · split at h
          · split at h <;> cases h
            rfl
          · cases h
            rfl
    | claimPrevious v | claimDelegateCur v | claimDelegatePrev v =>
      obtain ⟨name, htarget⟩ := exists_target_of_actedOn hacts
      rw [hclaim] at htarget
      cases htarget
  | oprename args =>
    cases hsaved : req.conn.savedFilehandle with
    | none => simp [actedOn, hfm, Rename4args.target, hsaved] at hacts
    | some saved =>
      simp only [hsaved] at h
      split_ifs at h
      cases hsource : needUnlink caller req.fm.fs (saved.real F) args.oldname with
      | error e => simp [hsource, bind, Except.bind] at h
      | ok source =>
        cases htarget : needUnlink caller req.fm.fs (fh.real F) args.newname with
        | error e => simp [hsource, htarget, bind, Except.bind] at h
        | ok target =>
          simp only [hsource, htarget, bind, Except.bind, pure, Except.pure] at h
          cases h
          simp [consulted, hsaved, hfh, needUnlink_ok hsource, needUnlink_ok htarget]
  | _ => simp [actedOn, hfm] at hacts

/-! ### What the operation acts on, for components -/

/-- At most as many parts of a path are evaluated directories as it has. -/
lemma length_flatMap_evaluated_le (fs : F) (ds : List String) :
    (ds.flatMap (evaluated fs)).length ≤ ds.length := by
  induction ds with
  | nil => simp
  | cons d ds ih =>
    have : (evaluated fs d).length ≤ 1 := by
      unfold evaluated
      split_ifs <;> simp
    simp only [List.flatMap_cons, List.length_append, List.length_cons]
    omega

/-- As many only if all of them are. -/
lemma flatMap_evaluated_eq_self {fs : F} {ds : List String}
    (h : (ds.flatMap (evaluated fs)).length = ds.length) :
    (∀ d ∈ ds, isDirectory fs d = true) ∧ ds.flatMap (evaluated fs) = ds := by
  induction ds with
  | nil => simp
  | cons d ds ih =>
    have hrest := length_flatMap_evaluated_le fs ds
    by_cases hd : isDirectory fs d = true
    · simp only [List.flatMap_cons, evaluated, if_pos hd, List.length_append,
        List.length_cons, List.length_nil] at h
      obtain ⟨hdirs, heq⟩ := ih (by omega)
      refine ⟨?_, ?_⟩
      · simpa [hd] using hdirs
      · simp only [List.flatMap_cons, heq]
        simp [evaluated, hd]
    · simp only [List.flatMap_cons, evaluated, if_neg hd, List.nil_append,
        List.length_cons] at h
      omega

/-- The parts of a path that are evaluated directories line up with as many entries only if all
of it is. -/
lemma forall₂_flatMap_evaluated {fs : F} {ts ds : List String} (hlen : ts.length = ds.length)
    (h : List.Forall₂ IsChildOf ts (ds.flatMap (evaluated fs))) :
    (∀ d ∈ ds, isDirectory fs d = true) ∧ List.Forall₂ IsChildOf ts ds := by
  obtain ⟨hdirs, heq⟩ := flatMap_evaluated_eq_self (h.length_eq.symm.trans hlen)
  rw [heq] at h
  exact ⟨hdirs, h⟩

section Lawful

variable [LawfulFileSystem F] {p : VfsPath} {fh : Filehandle} {name : String}

/-- The path string for a component resolves to the child. -/
lemma fsJoin_root_childPath (h : PlainName name) :
    FileSystem.join F .root (fh.childPath name) = some (fh.file.child name h) := by
  have hpath : fh.childPath name = (fh.file.child name h).toStr := by
    unfold Filehandle.childPath Filehandle.path
    rw [AbsPath.toStr_child]
    by_cases hroot : fh.file = .root
    · simp [hroot]
    · have hne : pathStr fh.file ≠ "/" := by
        intro heq
        exact hroot (pathStr_injective (heq.trans pathStr_root.symm))
      rw [if_neg hne, pathStr_of_ne_root hroot]
  rw [hpath]
  exact fsJoin_root_toStr (AbsPath.child_ne_root h)

omit [LawfulFileSystem F] in
/-- The path string of RENAME for a component is that of the child. -/
lemma renamePath_of_plainName (h : PlainName name) :
    fh.renamePath name = pathStr (fh.file.child name h) := by
  have htrim : String.ofList (fh.path.toList.rdropWhile (· = '/')) = fh.file.toStr := by
    unfold Filehandle.path
    by_cases hroot : fh.file = .root
    · simp [hroot, List.rdropWhile]
    · obtain ⟨c, hc, hslash⟩ := getLast?_toStr hroot
      have hlast : ∃ l, fh.file.toStr.toList = l ++ [c] :=
        List.getLast?_eq_some_iff.1 hc
      obtain ⟨l, hl⟩ := hlast
      rw [pathStr_of_ne_root hroot, hl, List.rdropWhile_concat_neg _ _ _ (by simpa using hslash),
        ← hl, String.ofList_toList]
  rw [Filehandle.renamePath, htrim, pathStr_child h]

omit [LawfulFileSystem F] in
lemma isChildOf_real (h : PlainName name) :
    IsChildOf (VfsPath.real F (p.child name h)) (VfsPath.real F p) :=
  ⟨name, h, (join_real h).symm⟩

/-- For components, an operation acts on entries of the directories it works in. -/
lemma forall₂_actedOn_workedIn {arg : NfsArgOp} {req : NfsRequest F}
    (hplain : ∀ name ∈ objectNames arg, PlainName name) (hacts : actedOn arg req ≠ []) :
    List.Forall₂ IsChildOf (actedOn arg req) (workedIn arg req) := by
  obtain ⟨fm, fh, hfm, hfh⟩ := exists_of_actedOn hacts
  cases arg with
  | oplookup args =>
    have hname : PlainName args.objname := hplain _ (by simp [objectNames])
    simp only [actedOn, hfm, hfh, workedIn, lookedUp, fsJoin_root_childPath hname]
    exact .cons (isChildOf_real hname) .nil
  | opopen args =>
    cases htarget : args.target req with
    | error r => simp [actedOn, hfm, htarget] at hacts
    | ok t =>
      obtain ⟨dir, name⟩ := t
      obtain ⟨hdir, -, hclaim, -⟩ := Open4args.target_ok htarget
      have hname : PlainName name := hplain _ (by simp [objectNames, hclaim])
      have hboth : actedOn (.opopen args) req = [VfsPath.real F (dir.file.child name hname)] := by
        simp only [actedOn, hfm, htarget] at hacts ⊢
        cases hhow : args.openhow with
        | open4Nocreate => simp [lookedUp, fsJoin_root_childPath hname]
        | how how =>
          cases how with
          | guarded4 v => simp [hhow] at hacts
          | unchecked4 v | exclusive4 v => simp [fsJoin_of_plainName hname]
      rw [hboth]
      simp only [workedIn, hdir]
      exact .cons (isChildOf_real hname) .nil
  | opcreate args =>
    have hname : PlainName args.objname := hplain _ (by simp [objectNames])
    cases htarget : args.target req with
    | error r => simp [actedOn, hfm, htarget] at hacts
    | ok t =>
      obtain ⟨dir, q⟩ := t
      obtain ⟨hdir, -, hjoin⟩ := Create4args.target_ok htarget
      rw [fsJoin_of_plainName hname] at hjoin
      cases hjoin
      simp only [actedOn, hfm, htarget, workedIn, hdir]
      exact .cons (isChildOf_real hname) .nil
  | opremove args =>
    have hname : PlainName args.target := hplain _ (by simp [objectNames])
    cases hpath : args.path req with
    | error r => simp [actedOn, hfm, hpath] at hacts
    | ok q =>
      obtain ⟨dir, hdir, hjoin⟩ := Remove4args.path_ok hpath
      rw [fsJoin_of_plainName hname] at hjoin
      cases hjoin
      simp only [actedOn, hfm, hpath, workedIn, hdir]
      exact .cons (isChildOf_real hname) .nil
  | oprename args =>
    have hold : PlainName args.oldname := hplain _ (by simp [objectNames])
    have hnew : PlainName args.newname := hplain _ (by simp [objectNames])
    cases htarget : args.target req with
    | error r => simp [actedOn, hfm, htarget] at hacts
    | ok t =>
      obtain ⟨hsaved, hdir, -, -, -, hsrc, hdst⟩ := Rename4args.target_ok htarget
      rw [renamePath_of_plainName hold] at hsrc
      rw [renamePath_of_plainName hnew] at hdst
      simp only [actedOn, hfm, htarget, workedIn, hdir, hsaved, hsrc, hdst]
      exact .cons (isChildOf_real hold) (.cons (isChildOf_real hnew) .nil)
  | oplink args =>
    have hname : PlainName args.newname := hplain _ (by simp [objectNames])
    cases htarget : args.target req with
    | error r => simp [actedOn, hfm, htarget] at hacts
    | ok t =>
      obtain ⟨saved, dir, q⟩ := t
      obtain ⟨-, hdir, hjoin⟩ := Link4args.target_ok htarget
      rw [fsJoin_of_plainName hname] at hjoin
      cases hjoin
      simp only [actedOn, hfm, htarget, workedIn, hdir]
      exact .cons (isChildOf_real hname) .nil
  | _ => simp [actedOn, hfm] at hacts

/-! ### The directory of CREATE -/

omit [LawfulFileSystem F] in
/-- The directory `dir_path` picks is the path of a path. -/
lemma exists_dirPath_eq (fs : F) (fh : Filehandle) : ∃ d, dirPath fs fh = pathStr d := by
  have hreal : fh.real F = pathStr ((FileSystem.exportRoot F).append fh.file) := realPath_pathStr _
  unfold dirPath
  split
  · split_ifs
    · rw [hreal]
      by_cases hroot : (FileSystem.exportRoot F).append fh.file = .root
      · exact ⟨.root, by rw [hroot]; rfl⟩
      · rw [PathBuf.parent_pathStr hroot]
        exact ⟨_, rfl⟩
    · exact ⟨_, hreal⟩
  · exact ⟨_, hreal⟩

omit [LawfulFileSystem F] in
/-- A path is an entry of one directory only. -/
lemma eq_of_isChildOf {t : String} {d e : AbsPath} (hd : IsChildOf t (pathStr d))
    (he : IsChildOf t (pathStr e)) : d = e := by
  obtain ⟨name, hname, rfl⟩ := hd
  obtain ⟨name', hname', heq⟩ := he
  rw [PathBuf.join_pathStr hname, PathBuf.join_pathStr hname'] at heq
  exact (AbsPath.child_injective (pathStr_injective heq)).1

/-- The directory the check of CREATE consults is one, and the one CREATE works in, exactly if
CREATE works in a directory. -/
lemma createsInDirectory_iff (fs : F) (fh : Filehandle) : CreatesInDirectory fs fh ↔
    isDirectory fs (dirPath fs fh) = true ∧
      dirPath fs fh = VfsPath.real F (createDirectory fs fh) := by
  unfold CreatesInDirectory
  cases hm : symlinkMetadata fs (fh.real F) with
  | none =>
    have hnot : isDirectory fs (fh.real F) = false := by simp [isDirectory, hm]
    simp [dirPath, hm, hnot]
  | some m =>
    by_cases hdir : m.fileType = S_IFDIR
    · have hisdir : isDirectory fs (fh.real F) = true := by simp [isDirectory, hm, hdir]
      have hfile : isFile fs fh.file = false := LawfulFileSystem.isFile_of_fileType hm hdir
      have hpath : dirPath fs fh = fh.real F := by simp [dirPath, hm, hdir]
      simp only [hpath, hisdir, createDirectory, hfile, true_or, true_and, true_iff]
      rfl
    · have hisdir : isDirectory fs (fh.real F) = false := by simp [isDirectory, hm, hdir]
      have hroot : fh.file ≠ .root := by
        intro hroot
        have hmeta : lstat fs .root = some m := by
          rw [← hm, lstat, ← hroot]
          rfl
        exact hdir (LawfulFileSystem.fileType_root hmeta)
      obtain ⟨name, hname, hchild⟩ := AbsPath.eq_child_of_ne_root hroot
      have hpath : dirPath fs fh = VfsPath.real F fh.file.parent := by
        have hreal : fh.real F =
            pathStr (((FileSystem.exportRoot F).append fh.file.parent).child name hname) := by
          rw [← AbsPath.append_child, ← hchild]
          exact realPath_pathStr _
        simp only [dirPath, hm, hdir, ne_eq, not_false_eq_true, if_true]
        rw [hreal, PathBuf.parent_pathStr (AbsPath.child_ne_root hname), AbsPath.parent_child]
        exact (realPath_pathStr _).symm
      rw [hpath]
      by_cases hfile : isFile fs fh.file = true
      · simp [hisdir, hfile, createDirectory]
      · -- the name is joined to what is neither a directory nor a file
        simp only [hisdir, hfile, createDirectory, Bool.false_eq_true, false_and, and_false,
          or_self, false_iff, not_and, if_false]
        intro hparent heq
        have hself : isDirectory fs (fh.real F) = true := by
          rw [heq] at hparent
          exact hparent
        rw [hisdir] at hself
        cases hself

/-- The consulted directories are directories, and those the operation works in, exactly if the
filehandles stand for directories. -/
lemma consulted_iff {arg : NfsArgOp} {req : NfsRequest F}
    (hplain : ∀ name ∈ objectNames arg, PlainName name) (hacts : actedOn arg req ≠ []) :
    ((∀ d ∈ consulted arg req, isDirectory req.fm.fs d = true) ∧
      List.Forall₂ IsChildOf (actedOn arg req) (consulted arg req)) ↔ SafeRequest arg req := by
  have hworked := forall₂_actedOn_workedIn hplain hacts
  unfold SafeRequest
  rw [and_iff_right hplain]
  cases arg with
  | opcreate args =>
    obtain ⟨fm, fh, hfm, hfh⟩ := exists_of_actedOn hacts
    simp only [consulted, workedIn, hfh, Option.map_some, Option.toList_some, List.mem_singleton,
      forall_eq, Option.mem_def, Option.some.injEq] at hworked ⊢
    simp only [forall_eq', createsInDirectory_iff]
    refine and_congr_right fun _ => ?_
    obtain ⟨t, ht⟩ : ∃ t, actedOn (.opcreate args) req = [t] :=
      List.length_eq_one_iff.1 hworked.length_eq
    obtain ⟨d, hd⟩ := exists_dirPath_eq req.fm.fs fh
    rw [ht] at hworked ⊢
    simp only [List.forall₂_cons, List.forall₂_nil_left_iff, and_true] at hworked ⊢
    constructor
    · intro hchild
      rw [VfsPath.real, realPath_pathStr] at hworked ⊢
      rw [hd] at hchild ⊢
      rw [eq_of_isChildOf hchild hworked]
    · intro heq
      rw [heq]
      exact hworked
  | oprename args =>
    refine ⟨fun h => ?_, fun h => ⟨?_, hworked⟩⟩
    · refine ⟨fun fh hfh => h.1 _ ?_, fun fh hfh => h.1 _ ?_⟩
      · simp [consulted, Option.mem_def.1 hfh]
      · simp [consulted, Option.mem_def.1 hfh]
    · intro d hd
      simp only [consulted, List.mem_append, Option.mem_toList, Option.map_eq_some_iff] at hd
      rcases hd with ⟨fh, hfh, rfl⟩ | ⟨fh, hfh, rfl⟩
      · exact h.1 fh hfh
      · exact h.2 fh hfh
  | _ =>
    refine ⟨fun h fh hfh => h.1 _ ?_, fun h => ⟨?_, hworked⟩⟩
    · simp [consulted, Option.mem_def.1 hfh]
    · intro d hd
      simp only [consulted, Option.mem_toList, Option.map_eq_some_iff] at hd
      obtain ⟨fh, hfh, rfl⟩ := hd
      exact h fh hfh

/-- Checked and acted-on object agree exactly for the requests that are refused, and for those
whose names are components and whose filehandles stand for directories. -/
theorem checkedIsActedOn_iff (ns : NameService) (arg : NfsArgOp) (req : NfsRequest F)
    (caller : Caller) :
    CheckedIsActedOn ns arg req caller ↔ Refused ns arg req caller ∨ SafeRequest arg req := by
  unfold CheckedIsActedOn Refused
  by_cases hacts : actedOn arg req = []
  · simp [hacts]
  · cases hcheck : checkOp ns arg req caller with
    | error status => simp
    | ok dirs =>
      have hdirs := checkOp_ok hcheck hacts
      simp only [Except.ok.injEq, forall_eq', ne_eq, hacts, not_false_eq_true, forall_const,
        reduceCtorEq, exists_false, or_self, false_or]
      constructor
      · rintro ⟨hplain, hchild⟩
        have hlen : (actedOn arg req).length = (consulted arg req).length := by
          rw [(forall₂_actedOn_workedIn hplain hacts).length_eq]
          cases arg <;> simp [workedIn, consulted, Option.length_toList]
        rw [hdirs] at hchild
        exact (consulted_iff hplain hacts).1 (forall₂_flatMap_evaluated hlen hchild)
      · intro hsafe
        obtain ⟨hisdir, hchild⟩ := (consulted_iff hsafe.1 hacts).2 hsafe
        refine ⟨hsafe.1, ?_⟩
        have hall : (consulted arg req).flatMap (evaluated req.fm.fs) = consulted arg req := by
          rw [List.flatMap_congr (g := fun d => [d])]
          · simp
          · intro d hd
            rw [evaluated, if_pos (hisdir d hd)]
        rw [hdirs, hall]
        exact hchild

end Lawful

/-- An export with a directory of user 1000 and a file of root. -/
def sharedFs : FlatFs := ⟨[("d", ⟨2, 0o040755, 1000, 1000⟩), ("f", ⟨3, 0o100644, 0, 0⟩)], 4⟩

/-- The directory, as a path. -/
def sharedDir : VfsPath := ⟨["d"], by decide⟩

/-- A request with the directory of user 1000 as current filehandle. -/
def sharedRequest : NfsRequest FlatFs :=
  ⟨.new sharedFs 0 (some 1),
    Connection.new.setFilehandle (.ofFile sharedFs 0 1 sharedDir (inodeId 1 (64, 2)) 0)⟩

/-- A system without names. -/
def noNames : NameService := ⟨fun _ => none, fun _ => none⟩

/-- User 1000. -/
def sharedCaller : Caller := ⟨1000, 1000, []⟩

/-- For a plain name in the directory both agree. -/
theorem checkedIsActedOn_plain :
    SafeRequest (.opremove ⟨"g"⟩) sharedRequest ∧
      CheckedIsActedOn noNames (.opremove ⟨"g"⟩) sharedRequest sharedCaller := by
  have hsafe : SafeRequest (.opremove ⟨"g"⟩) sharedRequest := by
    refine ⟨by decide, ?_⟩
    rintro fh ⟨rfl⟩
    decide
  exact ⟨hsafe, (checkedIsActedOn_iff noNames _ _ _).2 (Or.inr hsafe)⟩

/-- User 1000 may remove names from the directory but not from the root, and removes one from the
root: the check evaluates the mode bits of the directory. -/
theorem not_checkedIsActedOn_dotdot :
    checkOp noNames (.opremove ⟨"../f"⟩) sharedRequest sharedCaller = .ok ["/export/d"] ∧
      actedOn (.opremove ⟨"../f"⟩) sharedRequest = ["/export/f"] ∧
      ¬ CheckedIsActedOn noNames (.opremove ⟨"../f"⟩) sharedRequest sharedCaller := by
  have hcheck : checkOp noNames (.opremove ⟨"../f"⟩) sharedRequest sharedCaller =
      .ok ["/export/d"] := rfl
  have hacts : actedOn (.opremove ⟨"../f"⟩) sharedRequest = ["/export/f"] := by decide
  refine ⟨hcheck, hacts, fun h => ?_⟩
  obtain ⟨hplain, -⟩ := h _ hcheck (by rw [hacts]; exact List.cons_ne_nil _ _)
  exact absurd (hplain "../f" List.mem_cons_self) (by decide)

end NextNfs
