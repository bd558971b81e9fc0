import NextNfs.Proto.Compound
import NextNfs.Server.Request

set_option relaxedAutoImplicit false
set_option autoImplicit false

/-!
# Permissions

This module models `perm.rs`: the check that comes before every operation of a compound. It
looks at the mode bits of the objects the operation is about to touch, for the caller's
identity, and refuses the operation with a status.

## Main definitions

* `NextNfs.Caller` — the identity an operation runs as.
* `NextNfs.needDir`, `NextNfs.needUnlink`, `NextNfs.needFile` — what an operation needs.
* `NextNfs.checkOp` — the check.
* `NextNfs.chownNewObject` — giving a new object to the caller.

## Implementation notes

The check of the source returns nothing on success. Here it returns the directories whose mode
bits it evaluated, so that one can speak about them. A directory that cannot be read, or that is
not one, is not evaluated: the check lets such a request through.
-/

namespace NextNfs

open Wire

/-! ### Callers -/

/-- `Caller`: the credential mapped through the squash rules of the export. -/
structure Caller where
  uid : UInt32
  gid : UInt32
  gids : List UInt32

/-- `MAY_READ`. -/
def MAY_READ : UInt32 := 4

/-- `MAY_WRITE`. -/
def MAY_WRITE : UInt32 := 2

/-- `MAY_EXEC`. -/
def MAY_EXEC : UInt32 := 1

namespace Caller

/-- `is_root`. -/
def isRoot (c : Caller) : Bool := c.uid == 0

/-- `in_group`. -/
def inGroup (c : Caller) (gid : UInt32) : Bool := c.gid == gid || c.gids.contains gid

/-- `mode_bits`: the mode bits that apply to the caller. -/
def modeBits (c : Caller) (m : RealMeta) : UInt32 :=
  if c.uid = m.uid then (m.mode >>> 6) &&& 7
  else if c.inGroup m.gid then (m.mode >>> 3) &&& 7
  else m.mode &&& 7

/-- `may`: the caller has all the wanted bits. Root needs some execute bit to execute what is not
a directory. -/
def may (c : Caller) (m : RealMeta) (want : UInt32) : Bool :=
  if c.isRoot then
    want &&& MAY_EXEC == 0 || m.fileType == S_IFDIR || m.mode &&& 0o111 != 0
  else c.modeBits m &&& want == want

/-- `may_file`: access to a file; the owner always has it. -/
def mayFile (c : Caller) (m : RealMeta) (want : UInt32) : Bool :=
  if !c.isRoot && c.uid == m.uid then true
  else if want == MAY_READ && c.may m MAY_EXEC && m.fileType == S_IFREG then true
  else c.may m want

/-- `is_owner`. -/
def isOwner (c : Caller) (m : RealMeta) : Bool := c.isRoot || c.uid == m.uid

end Caller

/-! ### Names of users and groups -/

/-- `str::parse::<u32>`. -/
def parseU32 (s : String) : Option UInt32 :=
  let digits : List Char := match s.toList with
    | '+' :: rest => rest
    | cs => cs
  let n : ℕ := digits.foldl (fun n c => n * 10 + (c.toNat - '0'.toNat)) 0
  if digits ≠ [] ∧ digits.all Char.isDigit = true ∧ n < 2 ^ 32 then some (UInt32.ofNat n) else none

/-- The user and group databases of the system. -/
structure NameService where
  getpwnam : String → Option UInt32
  getgrnam : String → Option UInt32

/-- `resolve_nfs4_uid` and `resolve_nfs4_gid`: a number, or a name before an at sign. -/
def resolveNfs4 (lookup : String → Option UInt32) (owner : String) : Option UInt32 :=
  match parseU32 owner with
  | some n => some n
  | none =>
    let name := owner.toList.takeWhile (· ≠ '@')
    match parseU32 (String.ofList name) with
    | some n => some n
    | none => if name.contains '\x00' then none else lookup (String.ofList name)

/-! ### What an operation needs -/

section Need

variable {F : Type} [FileSystem F]

/-- `need`, with the directories that were evaluated. -/
def need (ok : Bool) (status : NfsStat4) (evaluated : List String) : Except NfsStat4 (List String) :=
  if ok then .ok evaluated else .error status

/-- `need_dir`: mode bits of a directory. -/
def needDir (caller : Caller) (fs : F) (dir : String) (want : UInt32) :
    Except NfsStat4 (List String) :=
  match symlinkMetadata fs dir with
  | some m =>
    if m.fileType = S_IFDIR then need (caller.may m want) .nfs4errAccess [dir] else .ok []
  | none => .ok []

/-- `need_unlink`: taking a name out of a directory. In a sticky directory only the owner of the
directory or of the entry may do it. -/
def needUnlink (caller : Caller) (fs : F) (dir name : String) : Except NfsStat4 (List String) :=
  match symlinkMetadata fs dir with
  | none => .ok []
  | some m =>
    if m.fileType ≠ S_IFDIR then .ok []
    else do
      let evaluated ← need (caller.may m (MAY_WRITE ||| MAY_EXEC)) .nfs4errAccess [dir]
      if m.mode &&& 0o1000 != 0 && !caller.isOwner m then
        match symlinkMetadata fs (PathBuf.join dir name) with
        | some entry => need (caller.isOwner entry) .nfs4errPerm evaluated
        | none => pure evaluated
      else pure evaluated

/-- `need_file`: mode bits of a file. -/
def needFile (caller : Caller) (fs : F) (path : String) (want : UInt32) :
    Except NfsStat4 (List String) :=
  match symlinkMetadata fs path with
  | some m => need (caller.mayFile m want) .nfs4errAccess []
  | none => .ok []

/-- `share_want`: the mode bits for a share access. -/
def shareWant (shareAccess : UInt32) : UInt32 :=
  (if shareAccess &&& 1 ≠ 0 then MAY_READ else 0) |||
    (if shareAccess &&& 2 ≠ 0 then MAY_WRITE else 0)

/-- One attribute of `check_setattr`. -/
def checkAttr (names : NameService) (caller : Caller) (m : RealMeta) :
    FileAttrValue → Except NfsStat4 (List String)
  | .size _ => need (caller.mayFile m MAY_WRITE) .nfs4errAccess []
  | .mode _ | .acl _ => need (caller.isOwner m) .nfs4errPerm []
  | .owner owner =>
    let uid := resolveNfs4 names.getpwnam owner
    need (caller.isRoot || (uid == some m.uid && caller.uid == m.uid)) .nfs4errPerm []
  | .ownerGroup group =>
    need (caller.isRoot || (caller.uid == m.uid &&
      (resolveNfs4 names.getgrnam group).any fun g => caller.inGroup g)) .nfs4errPerm []
  | .timeAccessSet | .timeModifySet =>
    need (caller.isOwner m || caller.may m MAY_WRITE) .nfs4errAccess []
  | _ => .ok []

/-- `check_setattr`. -/
def checkSetattr (names : NameService) (caller : Caller) (fs : F) (path : String)
    (attrs : List FileAttrValue) : Except NfsStat4 (List String) :=
  match symlinkMetadata fs path with
  | none => .ok []
  | some m => attrs.foldlM (fun _ attr => checkAttr names caller m attr) []

/-- The path of the operating system of a filehandle. -/
def Filehandle.real (F : Type) [FileSystem F] (fh : Filehandle) : String :=
  realPath (FileSystem.exportRoot F) fh.path

/-- `child`. -/
def Filehandle.realChild (F : Type) [FileSystem F] (fh : Filehandle) (name : String) : String :=
  PathBuf.join (fh.real F) name

/-- `dir_path`: the filehandle itself, or its parent if it is not a directory. -/
def dirPath (fs : F) (fh : Filehandle) : String :=
  match symlinkMetadata fs (fh.real F) with
  | some m => if m.fileType ≠ S_IFDIR then (PathBuf.parent (fh.real F)).getD (fh.real F) else fh.real F
  | none => fh.real F

/-- `check_op`. -/
def checkOp (names : NameService) (arg : NfsArgOp) (req : NfsRequest F) (caller : Caller) :
    Except NfsStat4 (List String) :=
  if req.conn.isPseudoRoot then .ok []
  else
    match req.fileManager, req.conn.filehandle with
    | some fm, some fh =>
      let current := fh.real F
      match arg with
      | .oplookup _ | .oplookupp => needDir caller fm.fs current MAY_EXEC
      | .opreaddir _ => needDir caller fm.fs current MAY_READ
      | .opcreate _ => needDir caller fm.fs (dirPath fm.fs fh) (MAY_WRITE ||| MAY_EXEC)
      | .opremove args => needUnlink caller fm.fs current args.target
      | .oprename args =>
        match req.conn.savedFilehandle with
        | none => .ok []
        | some saved =>
          if exportIdFromFh saved.id ≠ exportIdFromFh fh.id then .error .nfs4errXdev
          else do
            let source ← needUnlink caller fm.fs (saved.real F) args.oldname
            let target ← needUnlink caller fm.fs current args.newname
            pure (source ++ target)
      | .oplink _ =>
        if req.conn.savedFilehandle.any fun saved => exportIdFromFh saved.id ≠ exportIdFromFh fh.id
        then .error .nfs4errXdev
        else needDir caller fm.fs current (MAY_WRITE ||| MAY_EXEC)
      | .opopen args =>
        match args.claim with
        | .claimNull name => do
          let dir ← needDir caller fm.fs current MAY_EXEC
          let target := fh.realChild F name
          if (symlinkMetadata fm.fs target).isSome then
            let _ ← needFile caller fm.fs target (shareWant args.shareAccess)
            pure dir
          else
            match args.openhow with
            | .how _ =>
              let _ ← needDir caller fm.fs current (MAY_WRITE ||| MAY_EXEC)
              pure dir
            | .open4Nocreate => pure dir
        | _ => needFile caller fm.fs current (shareWant args.shareAccess)
      | .opread _ => needFile caller fm.fs current MAY_READ
      | .opwrite _ | .opallocate _ => needFile caller fm.fs current MAY_WRITE
      | .opcopy _ => do
        match req.conn.savedFilehandle with
        | some saved =>
          let _ ← needFile caller fm.fs (saved.real F) MAY_READ
        | none => pure ()
        needFile caller fm.fs current MAY_WRITE
      | .opsetattr args => checkSetattr names caller fm.fs current args.objAttributes.attrVals
      | _ => .ok []
    | _, _ => .ok []

/-- `creates_object`: the operation will create an object, evaluated before it runs. -/
def createsObject (arg : NfsArgOp) (req : NfsRequest F) : Bool :=
  match arg with
  | .opcreate _ => true
  | .opopen args =>
    match args.claim, args.openhow with
    | .claimNull name, .how _ =>
      match req.fileManager, req.conn.filehandle with
      | some fm, some fh => (symlinkMetadata fm.fs (fh.realChild F name)).isNone
      | _, _ => false
    | _, _ => false
  | _ => false

/-- `chown_new_object`: give the current filehandle to the caller, and in a directory with the
set-group-id bit to the group of the directory. -/
def chownNewObject (req : NfsRequest F) (caller : Caller) : NfsRequest F :=
  match req.fileManager, req.conn.filehandle with
  | some fm, some fh =>
    match symlinkMetadata fm.fs (fh.real F) with
    | none => req
    | some m =>
      let gid := match (PathBuf.parent (fh.real F)).bind (symlinkMetadata fm.fs) with
        | some parent => if parent.mode &&& 0o2000 ≠ 0 then parent.gid else caller.gid
        | none => caller.gid
      if m.uid = caller.uid ∧ m.gid = gid then req
      else
        match lchown fm.fs (fh.real F) caller.uid gid with
        | none => req
        | some fs =>
          let fh := { fh with attrOwner := toString caller.uid, attrOwnerGroup := toString gid }
          ⟨{ fm with fs := fs }.updateFilehandle fh, (req.conn.cacheFilehandle fm.now fh).setFilehandle fh⟩
  | _, _ => req

end Need

end NextNfs
