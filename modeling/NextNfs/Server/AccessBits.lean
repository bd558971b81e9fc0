import Mathlib.Data.Nat.Bitwise
import NextNfs.Server.ExportManager
import NextNfs.Server.FlatFs

set_option relaxedAutoImplicit false
set_option autoImplicit false

/-!
# The bits of ACCESS and the checks of the operations

ACCESS tells a client which of the operations on an object it may expect to get through. It has an
evaluation of the mode bits of its own (`check_access`), beside the one that the operations are
checked with (`check_op`) and the check of read-only exports. This module compares them.

## Main definitions

* `NextNfs.AccessBits.LetsThrough` — neither of the checks refuses an operation.
* `NextNfs.AccessBits.StandsFor` — the operations that a bit of ACCESS stands for.
* `NextNfs.AccessBits.Sound` — what ACCESS grants gets through.
* `NextNfs.AccessBits.Conforms` — the mode bits with which it does.

## Main results

* `NextNfs.AccessBits.sound_iff_conforms` — ACCESS is sound exactly if the object conforms.

## Implementation notes

The file system answers ACCESS and the checks as it is at one time. The check asks for its answer in
one question, which is answered by `NextNfs.checkOp`. The name of an entry is plain: it is not a dot
or two dots, and has no slash. The root that lists the exports and objects that cannot be looked up
are not checked.
-/

namespace NextNfs

/-! ### Bits -/

namespace AccessBits

/-- A mask meets two words together if it meets one of them. -/
lemma or_and_ne_zero {a b c : UInt32} : (a ||| b) &&& c ≠ 0 ↔ a &&& c ≠ 0 ∨ b &&& c ≠ 0 := by
  have h : (a ||| b) &&& c = (a &&& c) ||| (b &&& c) := by
    apply UInt32.toBitVec_inj.1
    ext i hi
    simp [Bool.and_or_distrib_right]
  rw [h, Ne, UInt32.or_eq_zero_iff, not_and_or]

/-- A single bit is there or not. -/
lemma and_eq_iff_ne_zero {a b : UInt32} {k : ℕ} (hb : b.toNat = 2 ^ k) :
    a &&& b = b ↔ a &&& b ≠ 0 := by
  have hand : (a &&& b).toNat = (a.toNat.testBit k).toNat * 2 ^ k := by
    rw [UInt32.toNat_and, hb, Nat.and_two_pow]
  have hpos : 0 < 2 ^ k := Nat.two_pow_pos k
  rw [Ne, ← UInt32.toNat_inj, ← UInt32.toNat_inj, hand, hb]
  cases a.toNat.testBit k with
  | false => simpa using hpos.ne
  | true => simp

lemma grantBit_and_ne_zero {ok : Bool} {requested bit mask : UInt32} :
    Dispatcher.grantBit ok requested bit &&& mask ≠ 0 ↔
      ok = true ∧ requested &&& bit ≠ 0 ∧ bit &&& mask ≠ 0 := by
  unfold Dispatcher.grantBit
  split_ifs with h
  · simp only [Bool.and_eq_true, bne_iff_ne] at h
    simp [h]
  · simp only [Bool.and_eq_true, bne_iff_ne] at h
    simp only [UInt32.zero_and, ne_eq, not_true_eq_false, false_iff]
    tauto

end AccessBits

namespace Caller

/-- The caller has a mode bit of an object. -/
def Has (c : Caller) (m : RealMeta) (bit : UInt32) : Prop := c.modeBits m &&& bit ≠ 0

variable {c : Caller} {m : RealMeta}

/-- What root may do with a directory, and what it may read or write. -/
lemma may_of_isRoot {want : UInt32} (hroot : c.isRoot = true)
    (h : m.fileType = S_IFDIR ∨ want &&& MAY_EXEC = 0) : c.may m want = true := by
  unfold may
  rw [if_pos hroot]
  rcases h with h | h <;> simp [h]

/-- Whether anybody else may do something that needs one bit. -/
lemma may_iff_has {want : UInt32} {k : ℕ} (hroot : c.isRoot = false) (hwant : want.toNat = 2 ^ k) :
    c.may m want = true ↔ c.Has m want := by
  unfold may Has
  rw [hroot, if_neg Bool.false_ne_true, beq_iff_eq, AccessBits.and_eq_iff_ne_zero hwant]

/-- Whether anybody else may change a directory. -/
lemma may_change_iff (hroot : c.isRoot = false) :
    c.may m (MAY_WRITE ||| MAY_EXEC) = true ↔ c.Has m MAY_WRITE ∧ c.Has m MAY_EXEC := by
  have hsplit : ∀ b : UInt32,
      b &&& (MAY_WRITE ||| MAY_EXEC) = b &&& MAY_WRITE ||| b &&& MAY_EXEC := by
    intro b
    apply UInt32.toBitVec_inj.1
    ext i hi
    simp [Bool.and_or_distrib_left]
  have hwrite := AccessBits.and_eq_iff_ne_zero (a := c.modeBits m) (b := MAY_WRITE) (k := 1) rfl
  have hexec := AccessBits.and_eq_iff_ne_zero (a := c.modeBits m) (b := MAY_EXEC) (k := 0) rfl
  unfold may Has
  rw [hroot, if_neg Bool.false_ne_true, beq_iff_eq, ← hwrite, ← hexec]
  constructor
  · intro h
    have hboth : ∀ bit : UInt32,
        (MAY_WRITE ||| MAY_EXEC) &&& bit = bit → c.modeBits m &&& bit = bit := by
      intro bit hbit
      rw [← hbit, ← UInt32.and_assoc, h]
    exact ⟨hboth MAY_WRITE rfl, hboth MAY_EXEC rfl⟩
  · rintro ⟨hw, hx⟩
    rw [hsplit, hw, hx]

/-- The mode bit for a file is enough. -/
lemma mayFile_of_may {want : UInt32} (h : c.may m want = true) : c.mayFile m want = true := by
  unfold mayFile
  split_ifs
  · rfl
  · rfl
  · exact h

lemma isOwner_iff (hroot : c.isRoot = false) : c.isOwner m = true ↔ c.uid = m.uid := by
  simp [isOwner, hroot]

end Caller

namespace AccessBits

open Wire Dialogue Dispatcher

/-! ### The checks -/

section Checks

variable {F : Type} [FileSystem F] (names : NameService) (fm : FileManager F)

/-- The request of the check, on an export. -/
def checked (fh : Filehandle) (saved : Option Filehandle) : NfsRequest F :=
  ⟨fm, ⟨some fh, saved, none, true, [], Connection.new.unmanaged⟩⟩

/-- The check of the mode bits lets an operation through. -/
def Passes (arg : NfsArgOp) (fh : Filehandle) (saved : Option Filehandle) (caller : Caller) :
    Prop :=
  ∃ dirs, NextNfs.checkOp names arg (checked fm fh saved) caller = .ok dirs

/-- The file system of the export answers ACCESS and the checks. -/
def Answers : (q : Question) → q.Answer → Prop
  | .on _ (.stat path), m => m = symlinkMetadata fm.fs (realPath (FileSystem.exportRoot F) path)
  | .on _ (.permitted arg fh saved caller), a => a = .ok () ↔ Passes names fm arg fh saved caller
  | _, _ => True

/-- Neither the check of read-only exports nor the one of mode bits refuses an operation. -/
def LetsThrough (S : Server) (arg : NfsArgOp) (req : Request) : Prop :=
  (req.readOnly && isMutating arg) = false ∧
    (Dispatcher.checkOp arg req (req.caller S)).Does (Answers names fm) (fun _ => True) True
      fun permitted => permitted = .ok ()

variable {names fm} {S : Server} {arg : NfsArgOp} {req : Request} {fh : Filehandle}
  {saved : Option Filehandle} {caller : Caller}

lemma need_ok {ok : Bool} {status : NfsStat4} {dirs : List String} :
    (∃ evaluated, need ok status dirs = .ok evaluated) ↔ ok = true := by
  cases ok with
  | true => exact iff_of_true ⟨dirs, rfl⟩ rfl
  | false => exact iff_of_false nofun nofun

/-- What `need_dir` lets through. -/
lemma needDir_ok {dir : String} {want : UInt32} :
    (∃ dirs, needDir caller fm.fs dir want = .ok dirs) ↔
      ∀ m, symlinkMetadata fm.fs dir = some m → m.fileType = S_IFDIR →
        caller.may m want = true := by
  unfold needDir
  cases symlinkMetadata fm.fs dir with
  | none => exact iff_of_true ⟨[], rfl⟩ nofun
  | some m =>
    dsimp only
    split_ifs with hdir
    · simp [need_ok, hdir]
    · refine iff_of_true ⟨[], rfl⟩ ?_
      rintro _ ⟨⟩ hdir'
      exact absurd hdir' hdir

/-- What `need_file` lets through. -/
lemma needFile_ok {path : String} {want : UInt32} :
    (∃ dirs, needFile caller fm.fs path want = .ok dirs) ↔
      ∀ m, symlinkMetadata fm.fs path = some m → caller.mayFile m want = true := by
  unfold needFile
  cases symlinkMetadata fm.fs path with
  | none => exact iff_of_true ⟨[], rfl⟩ nofun
  | some m => simp [need_ok]

/-- What `need_unlink` lets through. -/
lemma needUnlink_ok {dir name : String} :
    (∃ dirs, needUnlink caller fm.fs dir name = .ok dirs) ↔
      ∀ m, symlinkMetadata fm.fs dir = some m → m.fileType = S_IFDIR →
        caller.may m (MAY_WRITE ||| MAY_EXEC) = true ∧
        (m.mode &&& 0o1000 ≠ 0 → caller.isOwner m = false → ∀ entry,
          symlinkMetadata fm.fs (PathBuf.join dir name) = some entry →
            caller.isOwner entry = true) := by
  unfold needUnlink
  cases symlinkMetadata fm.fs dir with
  | none => exact iff_of_true ⟨[], rfl⟩ fun _ hm => by cases hm
  | some m =>
    dsimp only
    simp only [Option.some.injEq, forall_eq']
    split_ifs with hdir hsticky
    · exact iff_of_true ⟨[], rfl⟩ fun hdir' => absurd hdir' hdir
    · simp only [Bool.and_eq_true, bne_iff_ne, Bool.not_eq_true'] at hsticky
      rw [forall_prop_of_true (not_not.1 hdir), forall_prop_of_true hsticky.1,
        forall_prop_of_true hsticky.2]
      cases hmay : caller.may m (MAY_WRITE ||| MAY_EXEC) with
      | false => exact iff_of_false (by rintro ⟨_, ⟨⟩⟩) (by rintro ⟨⟨⟩, -⟩)
      | true =>
        dsimp only [need, if_true, bind, Except.bind]
        cases symlinkMetadata fm.fs (PathBuf.join dir name) with
        | none => exact iff_of_true ⟨_, rfl⟩ ⟨rfl, fun _ hm => by cases hm⟩
        | some entry =>
          simp only [Option.some.injEq, forall_eq', true_and]
          exact need_ok
    · simp only [Bool.and_eq_true, bne_iff_ne, Bool.not_eq_true', not_and] at hsticky
      rw [forall_prop_of_true (not_not.1 hdir)]
      cases hmay : caller.may m (MAY_WRITE ||| MAY_EXEC) with
      | false => exact iff_of_false (by rintro ⟨_, ⟨⟩⟩) (by rintro ⟨⟨⟩, -⟩)
      | true => exact iff_of_true ⟨_, rfl⟩ ⟨rfl, fun h h' => absurd h' (hsticky h)⟩

/-- What READ needs of the current object. -/
lemma passes_read {args : Read4args} : Passes names fm (.opread args) fh saved caller ↔
    ∀ m, lstat fm.fs fh.file = some m → caller.mayFile m MAY_READ = true := needFile_ok

/-- What WRITE needs of the current object. -/
lemma passes_write {args : Write4args} : Passes names fm (.opwrite args) fh saved caller ↔
    ∀ m, lstat fm.fs fh.file = some m → caller.mayFile m MAY_WRITE = true := needFile_ok

/-- What READDIR needs of the current object. -/
lemma passes_readdir {args : Readdir4args} : Passes names fm (.opreaddir args) fh saved caller ↔
    ∀ m, lstat fm.fs fh.file = some m → m.fileType = S_IFDIR → caller.may m MAY_READ = true :=
  needDir_ok

/-- What LOOKUP needs of the current object. -/
lemma passes_lookup {args : Lookup4args} : Passes names fm (.oplookup args) fh saved caller ↔
    ∀ m, lstat fm.fs fh.file = some m → m.fileType = S_IFDIR → caller.may m MAY_EXEC = true :=
  needDir_ok

/-- What CREATE needs of the current object, if that is not known to be anything but a directory. -/
lemma passes_create {args : Create4args}
    (hdir : ∀ m, lstat fm.fs fh.file = some m → m.fileType = S_IFDIR) :
    Passes names fm (.opcreate args) fh saved caller ↔ ∀ m, lstat fm.fs fh.file = some m →
      m.fileType = S_IFDIR → caller.may m (MAY_WRITE ||| MAY_EXEC) = true := by
  have hpath : dirPath fm.fs fh = fh.real F := by
    unfold dirPath
    split
    case h_1 m hm => rw [if_neg (not_not.2 (hdir m hm))]
    case h_2 => rfl
  have hneed : Passes names fm (.opcreate args) fh saved caller ↔
      ∃ dirs, needDir caller fm.fs (dirPath fm.fs fh) (MAY_WRITE ||| MAY_EXEC) = .ok dirs := Iff.rfl
  rw [hneed, hpath]
  exact needDir_ok

/-- What REMOVE needs of the current object and of the entry. -/
lemma passes_remove {args : Remove4args} : Passes names fm (.opremove args) fh saved caller ↔
    ∀ m, lstat fm.fs fh.file = some m → m.fileType = S_IFDIR →
      caller.may m (MAY_WRITE ||| MAY_EXEC) = true ∧
      (m.mode &&& 0o1000 ≠ 0 → caller.isOwner m = false → ∀ entry,
        symlinkMetadata fm.fs (PathBuf.join (fh.real F) args.target) = some entry →
          caller.isOwner entry = true) := needUnlink_ok

/-- The question of the check is answered well exactly if the mode bits allow the operation. -/
lemma ask_permitted {e : Option UInt8} :
    (Dispatcher.ask e (.permitted arg fh saved caller)).Does (Answers names fm) (fun _ => True) True
      (fun permitted => permitted = .ok ()) ↔ Passes names fm arg fh saved caller := by
  have hlaw : ∀ permitted, Answers names fm (.on e (.permitted arg fh saved caller)) permitted ↔
      (permitted = .ok () ↔ Passes names fm arg fh saved caller) := fun _ => Iff.rfl
  refine (Prog.does_query _ _).trans ⟨?_, fun hpasses => ⟨trivial, fun permitted hanswer => ?_⟩⟩
  · rintro ⟨-, hanswer⟩
    by_contra hfails
    -- Then the check may refuse.
    cases hanswer (.error .stale) ((hlaw _).2 (iff_of_false nofun hfails))
  · exact ((hlaw permitted).1 hanswer).2 hpasses

/-- An operation that is checked for its mode bits only gets through if they allow it, and if it
does not change a read-only export. -/
lemma letsThrough_iff (hone : needsOneExport arg = false) (hmode : modeChecked arg req = true) :
    LetsThrough names fm S arg req ↔ (req.readOnly && isMutating arg) = false ∧
      ∀ fh, req.isPseudoRoot = false → req.cachedFmanager.isSome = true → req.filehandle = some fh →
        Passes names fm arg fh.toFilehandle (req.savedFilehandle.map Handle.toFilehandle)
          (req.caller S) := by
  refine and_congr_right fun _ => ?_
  unfold Dispatcher.checkOp
  cases req.isPseudoRoot with
  | true => exact iff_of_true rfl fun _ hexport => Bool.noConfusion hexport
  | false =>
    rw [if_neg Bool.false_ne_true, hone, hmode]
    cases req.cachedFmanager with
    | none => exact iff_of_true rfl fun _ _ hfm => Bool.noConfusion hfm
    | some e =>
      cases req.filehandle with
      | none => exact iff_of_true rfl fun _ _ _ hfh => absurd hfh.symm (Option.some_ne_none _)
      | some fh =>
        refine ask_permitted.trans ⟨?_, fun hpasses => hpasses fh rfl rfl rfl⟩
        rintro hpasses _ - - ⟨⟩
        exact hpasses

/-! ### The bits -/

/-- The operations that a bit stands for, on an object that may be a directory. -/
inductive StandsFor (isDir : Prop) : UInt32 → NfsArgOp → Prop
  | read (args : Read4args) : StandsFor isDir 0x01 (.opread args)
  | readdir (args : Readdir4args) : StandsFor isDir 0x01 (.opreaddir args)
  | lookup (args : Lookup4args) : StandsFor isDir 0x02 (.oplookup args)
  | modify (args : Write4args) : StandsFor isDir 0x04 (.opwrite args)
  | modifyDir (args : Create4args) : isDir → StandsFor isDir 0x04 (.opcreate args)
  | extend (args : Write4args) : StandsFor isDir 0x08 (.opwrite args)
  | extendDir (args : Create4args) : isDir → StandsFor isDir 0x08 (.opcreate args)
  | delete (args : Remove4args) : isDir → PlainName args.target →
    StandsFor isDir 0x10 (.opremove args)

variable (names fm) (S : Server) (req : Request)

/-- The current object is a directory, as far as it can be looked up. -/
def IsDir : Prop :=
  ∀ fh m, req.filehandle = some fh → lstat fm.fs fh.file = some m → m.fileType = S_IFDIR

/-- What is granted gets through. -/
def Sound (granted : UInt32) : Prop :=
  ∀ bit arg, StandsFor (IsDir fm req) bit arg → granted &&& bit ≠ 0 →
    LetsThrough names fm S arg req

/-- A directory on which a caller other than root gets through with what ACCESS grants: it can be
searched, if it may be written to, or if it may be read and the filehandle is not that of a
directory; and if it is sticky and not the caller's, its entries are. This matters only for what is
asked. -/
structure Searchable (requested : UInt32) (fh : Handle) (m : RealMeta) : Prop where
  lookup : requested &&& 0x02 ≠ 0 → fh.attrType ≠ .nf4dir → (req.caller S).Has m MAY_READ →
    (req.caller S).Has m MAY_EXEC
  write : requested &&& 0x1c ≠ 0 → req.readOnly = false → (req.caller S).Has m MAY_WRITE →
    (req.caller S).Has m MAY_EXEC
  sticky : requested &&& 0x10 ≠ 0 → req.readOnly = false → (req.caller S).Has m MAY_WRITE →
    m.mode &&& 0o1000 ≠ 0 → (req.caller S).uid ≠ m.uid → ∀ name entry, PlainName name →
      symlinkMetadata fm.fs (PathBuf.join (fh.real F) name) = some entry →
        (req.caller S).uid = entry.uid

/-- The current object, if it is a directory on an export and the caller is not root, is as ACCESS
takes it to be. -/
def Conforms (requested : UInt32) : Prop :=
  ∀ fh m, req.isPseudoRoot = false → req.cachedFmanager.isSome = true → req.filehandle = some fh →
    lstat fm.fs fh.file = some m → m.fileType = S_IFDIR → (req.caller S).isRoot = false →
      Searchable fm S req requested fh m

/-- What ACCESS grants. -/
def granted (requested : UInt32) : UInt32 :=
  let access := match req.filehandle with
    | some fh =>
      let m := (req.cachedFmanager.bind fun _ => lstat fm.fs fh.file).getD fh.meta
      checkAccess requested m (req.caller S) (fh.attrType == .nf4dir)
    | none => requested
  if req.readOnly then access &&& ~~~(0x04 ||| 0x08 ||| 0x10) else access

variable {names fm} {S : Server} {req : Request}

/-- The answer of ACCESS. -/
lemma access_does {args : Access4args} :
    (Dispatcher.access S args req).Does (Answers names fm) (fun _ => True) True fun resp =>
      resp.result = some (.opAccess (.resok4 ⟨accessBits, granted fm S req args.access⟩)) := by
  unfold Dispatcher.access granted
  cases req.filehandle with
  | none => rfl
  | some fh =>
    refine .bind ?_
    unfold freshMeta
    cases req.cachedFmanager with
    | none => rfl
    | some e =>
      refine ⟨trivial, ?_⟩
      rintro m hm
      obtain rfl : m = lstat fm.fs fh.file := hm
      rfl

/-- A read-only export takes away the bits of a change. -/
lemma readOnlyMask_and_change {bit : UInt32} (hbit : bit ∈ [0x04, 0x08, 0x10]) :
    ~~~(0x04 ||| 0x08 ||| 0x10) &&& bit = 0 := by
  simp only [List.mem_cons, List.not_mem_nil, or_false] at hbit
  rcases hbit with rfl | rfl | rfl <;> rfl

/-- It keeps the others. -/
lemma readOnlyMask_and_keeps {bit : UInt32} (hbit : bit ∈ [0x01, 0x02]) :
    ~~~(0x04 ||| 0x08 ||| 0x10) &&& bit = bit := by
  simp only [List.mem_cons, List.not_mem_nil, or_false] at hbit
  rcases hbit with rfl | rfl <;> rfl

/-- The bits of a change are of their mask. -/
lemma changeMask_and {bit : UInt32} (hbit : bit ∈ [0x04, 0x08, 0x10]) : 0x1c &&& bit = bit := by
  simp only [List.mem_cons, List.not_mem_nil, or_false] at hbit
  rcases hbit with rfl | rfl | rfl <;> rfl

/-- On a read-only export nothing that changes an object is granted. -/
lemma readOnly_of_granted {requested bit : UInt32} (hbit : bit ∈ [0x04, 0x08, 0x10])
    (h : granted fm S req requested &&& bit ≠ 0) : req.readOnly = false := by
  by_contra hro
  rw [Bool.not_eq_false] at hro
  unfold granted at h
  dsimp only at h
  rw [if_pos hro, UInt32.and_assoc, readOnlyMask_and_change hbit, UInt32.and_zero] at h
  exact h rfl

section NotRoot

variable {requested : UInt32} {m : RealMeta} {isDir : Bool} (hroot : caller.isRoot = false)

include hroot

/-- READ is granted to a caller other than root who may read. -/
lemma checkAccess_read : checkAccess requested m caller isDir &&& 0x01 ≠ 0 ↔
    requested &&& 0x01 ≠ 0 ∧ caller.Has m MAY_READ := by
  unfold checkAccess Caller.Has MAY_READ
  rw [hroot, if_neg Bool.false_ne_true]
  dsimp only
  simp only [or_and_ne_zero, grantBit_and_ne_zero]
  simp +decide [and_comm]

/-- LOOKUP is granted to a caller other than root who may search a directory, or read a file. -/
lemma checkAccess_lookup : checkAccess requested m caller isDir &&& 0x02 ≠ 0 ↔
    requested &&& 0x02 ≠ 0 ∧
      (isDir = true ∧ caller.Has m MAY_EXEC ∨ isDir = false ∧ caller.Has m MAY_READ) := by
  unfold checkAccess Caller.Has MAY_READ MAY_EXEC
  rw [hroot, if_neg Bool.false_ne_true]
  dsimp only
  simp only [or_and_ne_zero, grantBit_and_ne_zero]
  simp +decide
  tauto

/-- MODIFY, EXTEND and DELETE are granted to a caller other than root who may write. -/
lemma checkAccess_change {bit : UInt32} (hbit : bit ∈ [0x04, 0x08, 0x10]) :
    checkAccess requested m caller isDir &&& bit ≠ 0 ↔
      requested &&& bit ≠ 0 ∧ caller.Has m MAY_WRITE := by
  unfold checkAccess Caller.Has MAY_WRITE
  rw [hroot, if_neg Bool.false_ne_true]
  dsimp only
  simp only [or_and_ne_zero, grantBit_and_ne_zero]
  simp only [List.mem_cons, List.not_mem_nil, or_false] at hbit
  rcases hbit with rfl | rfl | rfl
  · simp +decide [and_comm]
  · simp +decide [and_comm]
  · simp +decide [and_comm]

end NotRoot

section Granted

variable {requested : UInt32} {fh : Handle} {m : RealMeta} (hfm : req.cachedFmanager.isSome = true)
  (hfh : req.filehandle = some fh) (hm : lstat fm.fs fh.file = some m)

include hfm hfh hm

/-- What is granted, by the metadata of the object as it is. -/
lemma granted_eq : granted fm S req requested =
    let access := checkAccess requested m (req.caller S) (fh.attrType == .nf4dir)
    if req.readOnly then access &&& ~~~(0x04 ||| 0x08 ||| 0x10) else access := by
  obtain ⟨e, he⟩ := Option.isSome_iff_exists.1 hfm
  unfold granted
  rw [hfh, he]
  dsimp only [Option.bind_some]
  rw [hm]
  rfl

/-- A read-only export takes nothing away that does not change an object. -/
lemma granted_keeps {bit : UInt32} (hbit : bit ∈ [0x01, 0x02]) :
    granted fm S req requested &&& bit =
      checkAccess requested m (req.caller S) (fh.attrType == .nf4dir) &&& bit := by
  rw [granted_eq hfm hfh hm]
  dsimp only
  split_ifs
  · rw [UInt32.and_assoc, readOnlyMask_and_keeps hbit]
  · rfl

/-- What changes an object is granted on other exports if it is by the mode bits. -/
lemma granted_of_not_readOnly (hro : req.readOnly = false) : granted fm S req requested =
    checkAccess requested m (req.caller S) (fh.attrType == .nf4dir) := by
  rw [granted_eq hfm hfh hm]
  dsimp only
  rw [hro, if_neg Bool.false_ne_true]

end Granted

/-! ### Soundness -/

/-- What of a sound ACCESS gets through the check of the mode bits. -/
lemma Sound.passes {bit access : UInt32} {fh : Handle} (h : Sound names fm S req access)
    (hstands : StandsFor (IsDir fm req) bit arg) (hgranted : access &&& bit ≠ 0)
    (hexport : req.isPseudoRoot = false) (hfm : req.cachedFmanager.isSome = true)
    (hfh : req.filehandle = some fh) :
    Passes names fm arg fh.toFilehandle (req.savedFilehandle.map Handle.toFilehandle)
      (req.caller S) := by
  have hkind : needsOneExport arg = false ∧ modeChecked arg req = true := by
    cases hstands <;> exact ⟨rfl, rfl⟩
  exact ((letsThrough_iff hkind.1 hkind.2).1 (h bit arg hstands hgranted)).2 fh hexport hfm hfh

/-- If ACCESS is sound, the object is as it takes it to be. -/
lemma conforms_of_sound {requested : UInt32}
    (h : Sound names fm S req (granted fm S req requested)) : Conforms fm S req requested := by
  intro fh m hexport hfm hfh hm hdir hroot
  have hisDir : IsDir fm req := by
    intro fh' m' hfh' hm'
    cases hfh.symm.trans hfh'
    cases hm.symm.trans hm'
    exact hdir
  have hchange : ∀ bit ∈ ([0x04, 0x08, 0x10] : List UInt32), requested &&& bit ≠ 0 →
      req.readOnly = false → (req.caller S).Has m MAY_WRITE →
        granted fm S req requested &&& bit ≠ 0 := by
    intro bit hbit hasked hro hwrite
    rw [granted_of_not_readOnly hfm hfh hm hro, checkAccess_change hroot hbit]
    exact ⟨hasked, hwrite⟩
  constructor
  · intro hasked htype hread
    have hgranted : granted fm S req requested &&& 0x02 ≠ 0 := by
      rw [granted_keeps hfm hfh hm (by decide), checkAccess_lookup hroot]
      exact ⟨hasked, Or.inr ⟨by simpa using htype, hread⟩⟩
    have hpasses := h.passes (.lookup ⟨""⟩) hgranted hexport hfm hfh
    exact (Caller.may_iff_has (k := 0) hroot rfl).1 (passes_lookup.1 hpasses m hm hdir)
  · intro hasked hro hwrite
    have hmay : (req.caller S).may m (MAY_WRITE ||| MAY_EXEC) = true := by
      have hsplit : (0x1c : UInt32) = 0x04 ||| 0x08 ||| 0x10 := rfl
      rw [hsplit, UInt32.and_comm, or_and_ne_zero, or_and_ne_zero] at hasked
      simp only [UInt32.and_comm _ requested] at hasked
      have hcreate : ∀ bit ∈ ([0x04, 0x08] : List UInt32), requested &&& bit ≠ 0 →
          (req.caller S).may m (MAY_WRITE ||| MAY_EXEC) = true := by
        intro bit hbit hasked
        have hstands : StandsFor (IsDir fm req) bit (.opcreate ⟨.nf4dir, "", ⟨[], []⟩⟩) := by
          simp only [List.mem_cons, List.not_mem_nil, or_false] at hbit
          rcases hbit with rfl | rfl
          · exact .modifyDir _ hisDir
          · exact .extendDir _ hisDir
        have hgranted := hchange bit (List.mem_append_left [0x10] hbit) hasked hro hwrite
        have hpasses := h.passes hstands hgranted hexport hfm hfh
        exact (passes_create fun m hm => hisDir fh m hfh hm).1 hpasses m hm hdir
      rcases hasked with (hmodify | hextend) | hdelete
      · exact hcreate _ (by decide) hmodify
      · exact hcreate _ (by decide) hextend
      · have hpasses := h.passes (.delete ⟨"a"⟩ hisDir (by decide))
          (hchange _ (by decide) hdelete hro hwrite) hexport hfm hfh
        exact (passes_remove.1 hpasses m hm hdir).1
    exact ((Caller.may_change_iff hroot).1 hmay).2
  · intro hasked hro hwrite hsticky howner name entry hname hentry
    have hpasses := h.passes (.delete ⟨name⟩ hisDir hname) (hchange _ (by decide) hasked hro hwrite)
      hexport hfm hfh
    have howner' : (req.caller S).isOwner m = false := by
      rw [← Bool.not_eq_true, Caller.isOwner_iff hroot]
      exact howner
    exact (Caller.isOwner_iff hroot).1
      ((passes_remove.1 hpasses m hm hdir).2 hsticky howner' entry hentry)

/-- What a bit stands for changes the object only if it is one of those that change it. -/
lemma not_mutating_of_readOnly {requested bit : UInt32} (hstands : StandsFor (IsDir fm req) bit arg)
    (hgranted : granted fm S req requested &&& bit ≠ 0) :
    (req.readOnly && isMutating arg) = false := by
  have hchange : bit ∈ ([0x04, 0x08, 0x10] : List UInt32) →
      (req.readOnly && isMutating arg) = false := by
    intro hbit
    rw [readOnly_of_granted hbit hgranted, Bool.false_and]
  cases hstands with
  | read | readdir | lookup => exact Bool.and_false _
  | modify | modifyDir | extend | extendDir | delete => exact hchange (by decide)

section Conforms

variable {requested : UInt32} {fh : Handle} (hfm : req.cachedFmanager.isSome = true)
  (hfh : req.filehandle = some fh)

include hfm hfh

/-- Who is granted READ may read the object. -/
lemma may_read_of_granted (hgranted : granted fm S req requested &&& 0x01 ≠ 0) {m : RealMeta}
    (hm : lstat fm.fs fh.file = some m) : (req.caller S).may m MAY_READ = true := by
  cases hroot : (req.caller S).isRoot with
  | true => exact Caller.may_of_isRoot hroot (Or.inr rfl)
  | false =>
    rw [granted_keeps hfm hfh hm (by decide), checkAccess_read hroot] at hgranted
    exact (Caller.may_iff_has (k := 2) hroot rfl).2 hgranted.2

/-- Who is granted a change has the write bit of the object, or is root. -/
lemma has_write_of_granted {bit : UInt32} (hbit : bit ∈ [0x04, 0x08, 0x10])
    (hgranted : granted fm S req requested &&& bit ≠ 0) {m : RealMeta}
    (hm : lstat fm.fs fh.file = some m) (hroot : (req.caller S).isRoot = false) :
    requested &&& bit ≠ 0 ∧ req.readOnly = false ∧ (req.caller S).Has m MAY_WRITE := by
  have hro := readOnly_of_granted hbit hgranted
  rw [granted_of_not_readOnly hfm hfh hm hro, checkAccess_change hroot hbit] at hgranted
  exact ⟨hgranted.1, hro, hgranted.2⟩

/-- Who is granted a change may write to the object. -/
lemma may_write_of_granted {bit : UInt32} (hbit : bit ∈ [0x04, 0x08, 0x10])
    (hgranted : granted fm S req requested &&& bit ≠ 0) {m : RealMeta}
    (hm : lstat fm.fs fh.file = some m) : (req.caller S).may m MAY_WRITE = true := by
  cases hroot : (req.caller S).isRoot with
  | true => exact Caller.may_of_isRoot hroot (Or.inr rfl)
  | false =>
    exact (Caller.may_iff_has (k := 1) hroot rfl).2
      (has_write_of_granted hfm hfh hbit hgranted hm hroot).2.2

variable (hconforms : Conforms fm S req requested) (hexport : req.isPseudoRoot = false)

include hconforms hexport

/-- Who is granted a change of a directory that conforms may change it. -/
lemma may_change_of_granted {bit : UInt32} (hbit : bit ∈ [0x04, 0x08, 0x10])
    (hgranted : granted fm S req requested &&& bit ≠ 0) {m : RealMeta}
    (hm : lstat fm.fs fh.file = some m) (hdir : m.fileType = S_IFDIR) :
    (req.caller S).may m (MAY_WRITE ||| MAY_EXEC) = true := by
  cases hroot : (req.caller S).isRoot with
  | true => exact Caller.may_of_isRoot hroot (Or.inl hdir)
  | false =>
    obtain ⟨hasked, hro, hwrite⟩ := has_write_of_granted hfm hfh hbit hgranted hm hroot
    refine (Caller.may_change_iff hroot).2 ⟨hwrite, ?_⟩
    refine (hconforms fh m hexport hfm hfh hm hdir hroot).write (fun hzero => hasked ?_) hro hwrite
    rw [← changeMask_and hbit, ← UInt32.and_assoc, hzero, UInt32.zero_and]

/-- Who is granted LOOKUP in a directory that conforms may search it. -/
lemma may_exec_of_granted (hgranted : granted fm S req requested &&& 0x02 ≠ 0) {m : RealMeta}
    (hm : lstat fm.fs fh.file = some m) (hdir : m.fileType = S_IFDIR) :
    (req.caller S).may m MAY_EXEC = true := by
  cases hroot : (req.caller S).isRoot with
  | true => exact Caller.may_of_isRoot hroot (Or.inl hdir)
  | false =>
    rw [granted_keeps hfm hfh hm (by decide), checkAccess_lookup hroot] at hgranted
    obtain ⟨hasked, ⟨-, hexec⟩ | ⟨htype, hread⟩⟩ := hgranted
    · exact (Caller.may_iff_has (k := 0) hroot rfl).2 hexec
    · exact (Caller.may_iff_has (k := 0) hroot rfl).2
        ((hconforms fh m hexport hfm hfh hm hdir hroot).lookup hasked (by simpa using htype) hread)

end Conforms

/-- If the object is as ACCESS takes it to be, ACCESS is sound. -/
lemma sound_of_conforms {requested : UInt32} (h : Conforms fm S req requested) :
    Sound names fm S req (granted fm S req requested) := by
  intro bit arg hstands hgranted
  have hkind : needsOneExport arg = false ∧ modeChecked arg req = true := by
    cases hstands <;> exact ⟨rfl, rfl⟩
  rw [letsThrough_iff hkind.1 hkind.2]
  refine ⟨not_mutating_of_readOnly hstands hgranted, fun fh hexport hfm hfh => ?_⟩
  cases hstands with
  | read args =>
    exact passes_read.2 fun m hm =>
      Caller.mayFile_of_may (may_read_of_granted hfm hfh hgranted hm)
  | readdir args => exact passes_readdir.2 fun m hm _ => may_read_of_granted hfm hfh hgranted hm
  | lookup args =>
    exact passes_lookup.2 fun m hm => may_exec_of_granted hfm hfh h hexport hgranted hm
  | modify args | extend args =>
    exact passes_write.2 fun m hm =>
      Caller.mayFile_of_may (may_write_of_granted hfm hfh (by decide) hgranted hm)
  | modifyDir args hisDir | extendDir args hisDir =>
    refine (passes_create fun m hm => hisDir fh m hfh hm).2 fun m hm => ?_
    exact may_change_of_granted hfm hfh h hexport (by decide) hgranted hm
  | delete args hisDir hname =>
    refine passes_remove.2 fun m hm hdir =>
      ⟨may_change_of_granted hfm hfh h hexport (by decide) hgranted hm hdir, ?_⟩
    intro hsticky howner entry hentry
    have hroot : (req.caller S).isRoot = false := by
      by_contra hroot
      simp [Caller.isOwner, hroot] at howner
    obtain ⟨hasked, hro, hwrite⟩ := has_write_of_granted hfm hfh (by decide) hgranted hm hroot
    have hne : (req.caller S).uid ≠ m.uid := by
      intro heq
      rw [(Caller.isOwner_iff hroot).2 heq] at howner
      cases howner
    exact (Caller.isOwner_iff hroot).2
      ((h fh m hexport hfm hfh hm hdir hroot).sticky hasked hro hwrite hsticky hne args.target entry
        hname hentry)

/-- **The soundness of ACCESS.** In a run of ACCESS that is answered by the file system of the
export, every bit that is granted stands for operations that get through the checks exactly if the
current object conforms.

**Proof sketch.** What is granted is `check_access` of the object as it is (`access_does`), bit by
bit (`checkAccess_read` and its siblings), and `check_op` is one of three checks
(`needFile_ok`, `needDir_ok`, `needUnlink_ok`). Root gets through everywhere. For another caller the
bits for reading and for writing to a file agree with the check; those for changing a directory are
granted by the write bit alone, while the check wants the execute bit too, and in a sticky directory
an owner (`conforms_of_sound`, `sound_of_conforms`). -/
theorem sound_iff_conforms (names : NameService) (fm : FileManager F) (S : Server)
    {args : Access4args} {req : Request} {h : List (Σ q : Question, q.Answer)} {resp : Response}
    (hrun : Runs (Dispatcher.access S args req) h (some resp))
    (hlaw : ∀ x ∈ h, Answers names fm x.1 x.2) :
    ∃ granted, resp.result = some (.opAccess (.resok4 ⟨accessBits, granted⟩)) ∧
      (Sound names fm S req granted ↔ Conforms fm S req args.access) :=
  ⟨_, (access_does.of_runs hrun hlaw).2.1 resp rfl, conforms_of_sound, sound_of_conforms⟩

end Checks

/-! ### A directory -/

/-- The file manager of an export that has one entry, a directory of root with a mode. -/
def directoryManager (mode : UInt32) : FileManager FlatFs :=
  ⟨⟨[("d", ⟨2, 0o040000 ||| mode, 0, 0⟩)], 3⟩, 0, 1, 152, 0, Table.empty, 100, LockTable.new, []⟩

lemma plain_directoryHandle : ∀ c ∈ ["d"], PlainName c := by decide

/-- The filehandle of the directory. -/
def directoryHandle : Handle := { fileHandle 1 with file := ⟨["d"], plain_directoryHandle⟩ }

/-- A request of an ordinary user on the directory. -/
def directoryRequest : Request :=
  { Request.new "10.0.0.1" (some 1) 0 [] .sys with
    filehandle := some directoryHandle
    accessControl := some 1
    currentExportId := some 1
    authCred := some (.authUnix ⟨0, "client", 1000, 1000, []⟩) }

/-- The metadata of the directory. -/
def directoryMeta (mode : UInt32) : RealMeta := Inode.meta ⟨2, 0o040000 ||| mode, 0, 0⟩

/-- Nobody has a name. -/
def noNames : NameService := ⟨fun _ => none, fun _ => none⟩

/-- ACCESS on the directory, asked for MODIFY. -/
lemma exists_directory_run {mode : UInt32} (hgrants : checkAccess 0x04 (directoryMeta mode)
    (directoryRequest.caller openServer) true = 0x04) :
    ∃ (h : List (Σ q : Question, q.Answer)) (resp : Response),
      Runs (Dispatcher.access openServer ⟨0x04⟩ directoryRequest) h (some resp) ∧
      (∀ x ∈ h, Answers noNames (directoryManager mode) x.1 x.2) ∧
      resp.result = some (.opAccess (.resok4 ⟨accessBits, 0x04⟩)) := by
  refine ⟨[⟨.on (some 1) (.stat "/d"), some (directoryMeta mode)⟩], _, .ask (.pure _), ?_, ?_⟩
  · intro x hx
    cases List.mem_singleton.1 hx
    rfl
  · show some (NfsResOp4.opAccess (.resok4 ⟨accessBits, checkAccess 0x04 (directoryMeta mode)
      (directoryRequest.caller openServer) true⟩)) = _
    rw [hgrants]

/-- **The soundness of ACCESS** for a directory that everybody may search and write to. -/
theorem sound_iff_conforms_open :
    Sound noNames (directoryManager 0o777) openServer directoryRequest 0x04 := by
  obtain ⟨h, resp, hrun, hlaw, hresult⟩ := @exists_directory_run 0o777 (by decide)
  obtain ⟨granted, hresult', hiff⟩ :=
    sound_iff_conforms noNames (directoryManager 0o777) openServer hrun hlaw
  cases hresult.symm.trans hresult'
  refine hiff.2 ?_
  rintro fh m - - ⟨⟩ hm - -
  have hm : directoryMeta 0o777 = m := Option.some.inj hm
  subst hm
  refine ⟨fun hasked => absurd hasked (by decide), fun _ _ _ => ?_,
    fun hasked => absurd hasked (by decide)⟩
  unfold Caller.Has
  decide

/-- **A bit of ACCESS that does not hold.** MODIFY is granted on a directory that everybody may
write to and only root may search, and a CREATE in it is refused. -/
theorem access_grants_too_much :
    ∃ (h : List (Σ q : Question, q.Answer)) (resp : Response),
      Runs (Dispatcher.access openServer ⟨0x04⟩ directoryRequest) h (some resp) ∧
      (∀ x ∈ h, Answers noNames (directoryManager 0o722) x.1 x.2) ∧
      resp.result = some (.opAccess (.resok4 ⟨accessBits, 0x04⟩)) ∧
      StandsFor (IsDir (directoryManager 0o722) directoryRequest) 0x04
        (.opcreate ⟨.nf4dir, "e", ⟨[], []⟩⟩) ∧
      ¬ LetsThrough noNames (directoryManager 0o722) openServer
        (.opcreate ⟨.nf4dir, "e", ⟨[], []⟩⟩) directoryRequest := by
  obtain ⟨h, resp, hrun, hlaw, hresult⟩ := @exists_directory_run 0o722 (by decide)
  have hisDir : IsDir (directoryManager 0o722) directoryRequest := by
    rintro fh m ⟨⟩ hm
    have hm : directoryMeta 0o722 = m := Option.some.inj hm
    subst hm
    decide
  refine ⟨h, resp, hrun, hlaw, hresult, .modifyDir _ hisDir, fun hthrough => ?_⟩
  obtain ⟨dirs, hpasses⟩ := ((letsThrough_iff rfl rfl).1 hthrough).2 _ rfl rfl rfl
  have hrefused : NextNfs.checkOp noNames (.opcreate ⟨.nf4dir, "e", ⟨[], []⟩⟩)
      (checked (directoryManager 0o722) directoryHandle.toFilehandle none)
      (directoryRequest.caller openServer) = .error .nfs4errAccess := by
    decide
  cases hrefused.symm.trans hpasses

end AccessBits

end NextNfs
