import NextNfs.Proto.Attr

set_option relaxedAutoImplicit false
set_option autoImplicit false

/-!
# Arguments of the operations

This module models the argument types of `proto/src/nfs4_proto.rs` together with the codecs
serde derives for them. A struct is its fields in order; an enum is its variant index and
what the variant carries. Declared numbers (`ReadLt = 1`) are kept with the variants.

## Main definitions

* `NextNfs.Stateid4`, `NextNfs.LockOwner4`, `NextNfs.OpenOwner4`, … — shared types.
* `NextNfs.Access4args`, …, `NextNfs.Seek4args` — the arguments of each operation.
* `codec` in the namespace of each type — how it is written and read.
-/

namespace NextNfs

open Wire

/-! ### Shared types -/

/-- The codec of `Nfstime4`: its fields in order. -/
def Nfstime4.codec : Codec Xdr.Error Nfstime4 :=
  (Xdr.i64.prod Xdr.u32).iso
    (fun (a, b) => ⟨a, b⟩) (fun s => (s.seconds, s.nseconds)) (fun _ => rfl) (fun _ => rfl)

/-- `Stateid4`. -/
structure Stateid4 where
  seqid : UInt32
  other : List.Vector UInt8 12
deriving DecidableEq

/-- The codec of `Stateid4`: its fields in order. -/
def Stateid4.codec : Codec Xdr.Error Stateid4 :=
  (Xdr.u32.prod (Xdr.fixedLength 12)).iso
    (fun (a, b) => ⟨a, b⟩) (fun s => (s.seqid, s.other)) (fun _ => rfl) (fun _ => rfl)

/-- `OpenOwner4`. -/
structure OpenOwner4 where
  clientid : UInt64
  owner : Bytes
deriving DecidableEq

/-- The codec of `OpenOwner4`: its fields in order. -/
def OpenOwner4.codec : Codec Xdr.Error OpenOwner4 :=
  (Xdr.u64.prod Xdr.opaqueData).iso
    (fun (a, b) => ⟨a, b⟩) (fun s => (s.clientid, s.owner)) (fun _ => rfl) (fun _ => rfl)

/-- `LockOwner4`. -/
structure LockOwner4 where
  clientid : UInt64
  owner : Bytes
deriving DecidableEq

/-- The codec of `LockOwner4`: its fields in order. -/
def LockOwner4.codec : Codec Xdr.Error LockOwner4 :=
  (Xdr.u64.prod Xdr.opaqueData).iso
    (fun (a, b) => ⟨a, b⟩) (fun s => (s.clientid, s.owner)) (fun _ => rfl) (fun _ => rfl)

/-- `NfsClientId4`. -/
structure NfsClientId4 where
  verifier : List.Vector UInt8 8
  id : String

/-- The codec of `NfsClientId4`: its fields in order. -/
def NfsClientId4.codec : Codec Xdr.Error NfsClientId4 :=
  ((Xdr.fixedLength 8).prod Xdr.utf8Opaque).iso
    (fun (a, b) => ⟨a, b⟩) (fun s => (s.verifier, s.id)) (fun _ => rfl) (fun _ => rfl)

/-- `ClientAddr4`. -/
structure ClientAddr4 where
  rnetid : String
  raddr : String

/-- The codec of `ClientAddr4`: its fields in order. -/
def ClientAddr4.codec : Codec Xdr.Error ClientAddr4 :=
  (Xdr.utf8Opaque.prod Xdr.utf8Opaque).iso
    (fun (a, b) => ⟨a, b⟩) (fun s => (s.rnetid, s.raddr)) (fun _ => rfl) (fun _ => rfl)

/-- `CbClient4`. -/
structure CbClient4 where
  cbProgram : UInt32
  cbLocation : ClientAddr4

/-- The codec of `CbClient4`: its fields in order. -/
def CbClient4.codec : Codec Xdr.Error CbClient4 :=
  (Xdr.u32.prod ClientAddr4.codec).iso
    (fun (a, b) => ⟨a, b⟩) (fun s => (s.cbProgram, s.cbLocation)) (fun _ => rfl) (fun _ => rfl)

/-- `Specdata4`. -/
structure Specdata4 where
  specdata1 : UInt32
  specdata2 : UInt32

/-- The codec of `Specdata4`: its fields in order. -/
def Specdata4.codec : Codec Xdr.Error Specdata4 :=
  (Xdr.u32.prod Xdr.u32).iso
    (fun (a, b) => ⟨a, b⟩) (fun s => (s.specdata1, s.specdata2)) (fun _ => rfl) (fun _ => rfl)

/-! ### NFSv4.0 operations -/

/-- `Access4args`. -/
structure Access4args where
  access : UInt32

/-- The codec of `Access4args`: its fields in order. -/
def Access4args.codec : Codec Xdr.Error Access4args :=
  Xdr.u32.iso (fun a => ⟨a⟩) (fun s => s.access) (fun _ => rfl) (fun _ => rfl)

/-- `Close4args`. -/
structure Close4args where
  seqid : UInt32
  openStateid : Stateid4

/-- The codec of `Close4args`: its fields in order. -/
def Close4args.codec : Codec Xdr.Error Close4args :=
  (Xdr.u32.prod Stateid4.codec).iso
    (fun (a, b) => ⟨a, b⟩) (fun s => (s.seqid, s.openStateid)) (fun _ => rfl) (fun _ => rfl)

/-- `Commit4args`. -/
structure Commit4args where
  offset : UInt64
  count : UInt32

/-- The codec of `Commit4args`: its fields in order. -/
def Commit4args.codec : Codec Xdr.Error Commit4args :=
  (Xdr.u64.prod Xdr.u32).iso
    (fun (a, b) => ⟨a, b⟩) (fun s => (s.offset, s.count)) (fun _ => rfl) (fun _ => rfl)

/-- `Createtype4`. -/
inductive Createtype4
  | nf4Undef
  | nf4reg
  | nf4dir
  | nf4blk
  | nf4chr (v : Specdata4)
  | nf4lnk (v : String)
  | nf4sock
  | nf4fifo
  | nf4attrdir
  | nf4namedattr

/-- The variants of `Createtype4` with their declared numbers. -/
def Createtype4.union : TaggedUnion Xdr.Error Createtype4 where
  variants :=
    [.unit 0 .nf4Undef, .unit 1 .nf4reg, .unit 2 .nf4dir, .unit 3 .nf4blk,
    .mk 4 _ Specdata4.codec .nf4chr, .mk 5 _ Xdr.string .nf4lnk, .unit 6 .nf4sock,
    .unit 7 .nf4fifo, .unit 8 .nf4attrdir, .unit 9 .nf4namedattr]
  index e := ⟨e.ctorIdx, by cases e <;> exact of_decide_eq_true rfl⟩
  body
    | .nf4chr v => v
    | .nf4lnk v => v
    | .nf4Undef | .nf4reg | .nf4dir | .nf4blk | .nf4sock | .nf4fifo | .nf4attrdir | .nf4namedattr
    => ()

/-- The derived codec of `Createtype4`. -/
def Createtype4.codec : Codec Xdr.Error Createtype4 := Xdr.enum "Createtype4" Createtype4.union

/-- `Create4args`. -/
structure Create4args where
  objtype : Createtype4
  objname : String
  createattrs : Fattr4

/-- The codec of `Create4args`: its fields in order. -/
def Create4args.codec : Codec Xdr.Error Create4args :=
  (Createtype4.codec.prod (Xdr.utf8Opaque.prod fattr4Codec)).iso
    (fun (a, b, c) => ⟨a, b, c⟩) (fun s => (s.objtype, s.objname, s.createattrs))
    (fun _ => rfl) (fun _ => rfl)

/-- `DelegPurge4args`. -/
structure DelegPurge4args where
  clientid : UInt64

/-- The codec of `DelegPurge4args`: its fields in order. -/
def DelegPurge4args.codec : Codec Xdr.Error DelegPurge4args :=
  Xdr.u64.iso (fun a => ⟨a⟩) (fun s => s.clientid) (fun _ => rfl) (fun _ => rfl)

/-- `DelegReturn4args`. -/
structure DelegReturn4args where
  delegStateid : Stateid4

/-- The codec of `DelegReturn4args`: its fields in order. -/
def DelegReturn4args.codec : Codec Xdr.Error DelegReturn4args :=
  Stateid4.codec.iso (fun a => ⟨a⟩) (fun s => s.delegStateid) (fun _ => rfl) (fun _ => rfl)

/-- `Getattr4args`. -/
structure Getattr4args where
  attrRequest : List FileAttr

/-- The codec of `Getattr4args`: its fields in order. -/
def Getattr4args.codec : Codec Xdr.Error Getattr4args :=
  attrlistCodec.iso (fun a => ⟨a⟩) (fun s => s.attrRequest) (fun _ => rfl) (fun _ => rfl)

/-- `Link4args`. -/
structure Link4args where
  newname : String

/-- The codec of `Link4args`: its fields in order. -/
def Link4args.codec : Codec Xdr.Error Link4args :=
  Xdr.utf8Opaque.iso (fun a => ⟨a⟩) (fun s => s.newname) (fun _ => rfl) (fun _ => rfl)

/-- `NfsLockType4`. -/
inductive NfsLockType4
  | readLt | writeLt | readwLt | writewLt
deriving DecidableEq

/-- The variants of `NfsLockType4` with their declared numbers. -/
def NfsLockType4.union : TaggedUnion Xdr.Error NfsLockType4 where
  variants := [.unit 1 .readLt, .unit 2 .writeLt, .unit 3 .readwLt, .unit 4 .writewLt]
  index e := ⟨e.ctorIdx, by cases e <;> exact of_decide_eq_true rfl⟩
  body
    | .readLt | .writeLt | .readwLt | .writewLt => ()

/-- The derived codec of `NfsLockType4`. -/
def NfsLockType4.codec : Codec Xdr.Error NfsLockType4 :=
  Xdr.enum "NfsLockType4" NfsLockType4.union

/-- `OpenToLockOwner4`. -/
structure OpenToLockOwner4 where
  openSeqid : UInt32
  openStateid : Stateid4
  lockSeqid : UInt32
  lockOwner : LockOwner4

/-- The codec of `OpenToLockOwner4`: its fields in order. -/
def OpenToLockOwner4.codec : Codec Xdr.Error OpenToLockOwner4 :=
  (Xdr.u32.prod (Stateid4.codec.prod (Xdr.u32.prod LockOwner4.codec))).iso
    (fun (a, b, c, d) => ⟨a, b, c, d⟩)
    (fun s => (s.openSeqid, s.openStateid, s.lockSeqid, s.lockOwner))
    (fun _ => rfl) (fun _ => rfl)

/-- `ExistLockOwner4`. -/
structure ExistLockOwner4 where
  lockStateid : Stateid4
  lockSeqid : UInt32

/-- The codec of `ExistLockOwner4`: its fields in order. -/
def ExistLockOwner4.codec : Codec Xdr.Error ExistLockOwner4 :=
  (Stateid4.codec.prod Xdr.u32).iso
    (fun (a, b) => ⟨a, b⟩) (fun s => (s.lockStateid, s.lockSeqid)) (fun _ => rfl) (fun _ => rfl)

/-- `Locker4`. -/
inductive Locker4
  | openOwner (v : OpenToLockOwner4)
  | lockOwner (v : ExistLockOwner4)

/-- The variants of `Locker4` with their declared numbers. -/
def Locker4.union : TaggedUnion Xdr.Error Locker4 where
  variants :=
    [.mk 0 _ OpenToLockOwner4.codec .openOwner, .mk 1 _ ExistLockOwner4.codec .lockOwner]
  index e := ⟨e.ctorIdx, by cases e <;> exact of_decide_eq_true rfl⟩
  body
    | .openOwner v => v
    | .lockOwner v => v

/-- The derived codec of `Locker4`. -/
def Locker4.codec : Codec Xdr.Error Locker4 := Xdr.enum "Locker4" Locker4.union

/-- `Lock4args`. -/
structure Lock4args where
  locktype : NfsLockType4
  reclaim : Bool
  offset : UInt64
  length : UInt64
  locker : Locker4

/-- The codec of `Lock4args`: its fields in order. -/
def Lock4args.codec : Codec Xdr.Error Lock4args :=
  (NfsLockType4.codec.prod (Xdr.bool.prod (Xdr.u64.prod (Xdr.u64.prod Locker4.codec)))).iso
    (fun (a, b, c, d, e) => ⟨a, b, c, d, e⟩)
    (fun s => (s.locktype, s.reclaim, s.offset, s.length, s.locker)) (fun _ => rfl) (fun _ => rfl)

/-- `Lockt4args`. -/
structure Lockt4args where
  locktype : NfsLockType4
  offset : UInt64
  length : UInt64
  owner : LockOwner4

/-- The codec of `Lockt4args`: its fields in order. -/
def Lockt4args.codec : Codec Xdr.Error Lockt4args :=
  (NfsLockType4.codec.prod (Xdr.u64.prod (Xdr.u64.prod LockOwner4.codec))).iso
    (fun (a, b, c, d) => ⟨a, b, c, d⟩) (fun s => (s.locktype, s.offset, s.length, s.owner))
    (fun _ => rfl) (fun _ => rfl)

/-- `Locku4args`. -/
structure Locku4args where
  locktype : NfsLockType4
  seqid : UInt32
  lockStateid : Stateid4
  offset : UInt64
  length : UInt64

/-- The codec of `Locku4args`: its fields in order. -/
def Locku4args.codec : Codec Xdr.Error Locku4args :=
  (NfsLockType4.codec.prod (Xdr.u32.prod (Stateid4.codec.prod (Xdr.u64.prod Xdr.u64)))).iso
    (fun (a, b, c, d, e) => ⟨a, b, c, d, e⟩)
    (fun s => (s.locktype, s.seqid, s.lockStateid, s.offset, s.length))
    (fun _ => rfl) (fun _ => rfl)

/-- `Lookup4args`. -/
structure Lookup4args where
  objname : String

/-- The codec of `Lookup4args`: its fields in order. -/
def Lookup4args.codec : Codec Xdr.Error Lookup4args :=
  Xdr.utf8Opaque.iso (fun a => ⟨a⟩) (fun s => s.objname) (fun _ => rfl) (fun _ => rfl)

/-- `Nverify4args`. -/
structure Nverify4args where
  objAttributes : Fattr4

/-- The codec of `Nverify4args`: its fields in order. -/
def Nverify4args.codec : Codec Xdr.Error Nverify4args :=
  fattr4Codec.iso (fun a => ⟨a⟩) (fun s => s.objAttributes) (fun _ => rfl) (fun _ => rfl)

/-- `CreateHow4`. -/
inductive CreateHow4
  | unchecked4 (v : Fattr4)
  | guarded4 (v : Fattr4)
  | exclusive4 (v : List.Vector UInt8 8)

/-- The variants of `CreateHow4` with their declared numbers. -/
def CreateHow4.union : TaggedUnion Xdr.Error CreateHow4 where
  variants :=
    [.mk 0 _ fattr4Codec .unchecked4, .mk 1 _ fattr4Codec .guarded4,
    .mk 2 _ (Xdr.fixedLength 8) .exclusive4]
  index e := ⟨e.ctorIdx, by cases e <;> exact of_decide_eq_true rfl⟩
  body
    | .unchecked4 v => v
    | .guarded4 v => v
    | .exclusive4 v => v

/-- The derived codec of `CreateHow4`. -/
def CreateHow4.codec : Codec Xdr.Error CreateHow4 := Xdr.enum "CreateHow4" CreateHow4.union

/-- `OpenFlag4`. -/
inductive OpenFlag4
  | open4Nocreate
  | how (v : CreateHow4)

/-- The variants of `OpenFlag4` with their declared numbers. -/
def OpenFlag4.union : TaggedUnion Xdr.Error OpenFlag4 where
  variants := [.unit 0 .open4Nocreate, .mk 1 _ CreateHow4.codec .how]
  index e := ⟨e.ctorIdx, by cases e <;> exact of_decide_eq_true rfl⟩
  body
    | .how v => v
    | .open4Nocreate => ()

/-- The derived codec of `OpenFlag4`. -/
def OpenFlag4.codec : Codec Xdr.Error OpenFlag4 := Xdr.enum "OpenFlag4" OpenFlag4.union

/-- `OpenDelegationType4`. -/
inductive OpenDelegationType4
  | openDelegateNone | openDelegateRead | openDelegateWrite

/-- The variants of `OpenDelegationType4` with their declared numbers. -/
def OpenDelegationType4.union : TaggedUnion Xdr.Error OpenDelegationType4 where
  variants := [.unit 0 .openDelegateNone, .unit 1 .openDelegateRead, .unit 2 .openDelegateWrite]
  index e := ⟨e.ctorIdx, by cases e <;> exact of_decide_eq_true rfl⟩
  body
    | .openDelegateNone | .openDelegateRead | .openDelegateWrite => ()

/-- The derived codec of `OpenDelegationType4`. -/
def OpenDelegationType4.codec : Codec Xdr.Error OpenDelegationType4 :=
  Xdr.enum "OpenDelegationType4" OpenDelegationType4.union

/-- `OpenClaimDelegateCur4`. -/
structure OpenClaimDelegateCur4 where
  delegateStateid : Stateid4
  file : String

/-- The codec of `OpenClaimDelegateCur4`: its fields in order. -/
def OpenClaimDelegateCur4.codec : Codec Xdr.Error OpenClaimDelegateCur4 :=
  (Stateid4.codec.prod Xdr.utf8Opaque).iso
    (fun (a, b) => ⟨a, b⟩) (fun s => (s.delegateStateid, s.file)) (fun _ => rfl) (fun _ => rfl)

/-- `OpenClaim4`. -/
inductive OpenClaim4
  | claimNull (v : String)
  | claimPrevious (v : OpenDelegationType4)
  | claimDelegateCur (v : OpenClaimDelegateCur4)
  | claimDelegatePrev (v : String)

/-- The variants of `OpenClaim4` with their declared numbers. -/
def OpenClaim4.union : TaggedUnion Xdr.Error OpenClaim4 where
  variants :=
    [.mk 0 _ Xdr.string .claimNull, .mk 1 _ OpenDelegationType4.codec .claimPrevious,
    .mk 2 _ OpenClaimDelegateCur4.codec .claimDelegateCur, .mk 3 _ Xdr.string .claimDelegatePrev]
  index e := ⟨e.ctorIdx, by cases e <;> exact of_decide_eq_true rfl⟩
  body
    | .claimNull v => v
    | .claimPrevious v => v
    | .claimDelegateCur v => v
    | .claimDelegatePrev v => v

/-- The derived codec of `OpenClaim4`. -/
def OpenClaim4.codec : Codec Xdr.Error OpenClaim4 := Xdr.enum "OpenClaim4" OpenClaim4.union

/-- `Open4args`. -/
structure Open4args where
  seqid : UInt32
  shareAccess : UInt32
  shareDeny : UInt32
  owner : OpenOwner4
  openhow : OpenFlag4
  claim : OpenClaim4

/-- The codec of `Open4args`: its fields in order. -/
def Open4args.codec : Codec Xdr.Error Open4args :=
  (Xdr.u32.prod (Xdr.u32.prod (Xdr.u32.prod (OpenOwner4.codec.prod (OpenFlag4.codec.prod
    OpenClaim4.codec))))).iso
    (fun (a, b, c, d, e, f) => ⟨a, b, c, d, e, f⟩)
    (fun s => (s.seqid, s.shareAccess, s.shareDeny, s.owner, s.openhow, s.claim))
    (fun _ => rfl) (fun _ => rfl)

/-- `OpenAttr4args`. -/
structure OpenAttr4args where
  createdir : Bool

/-- The codec of `OpenAttr4args`: its fields in order. -/
def OpenAttr4args.codec : Codec Xdr.Error OpenAttr4args :=
  Xdr.bool.iso (fun a => ⟨a⟩) (fun s => s.createdir) (fun _ => rfl) (fun _ => rfl)

/-- `OpenConfirm4args`. -/
structure OpenConfirm4args where
  openStateid : Stateid4
  seqid : UInt32

/-- The codec of `OpenConfirm4args`: its fields in order. -/
def OpenConfirm4args.codec : Codec Xdr.Error OpenConfirm4args :=
  (Stateid4.codec.prod Xdr.u32).iso
    (fun (a, b) => ⟨a, b⟩) (fun s => (s.openStateid, s.seqid)) (fun _ => rfl) (fun _ => rfl)

/-- `OpenDowngrade4args`. -/
structure OpenDowngrade4args where
  openStateid : Stateid4
  seqid : UInt32
  shareAccess : UInt32
  shareDeny : UInt32

/-- The codec of `OpenDowngrade4args`: its fields in order. -/
def OpenDowngrade4args.codec : Codec Xdr.Error OpenDowngrade4args :=
  (Stateid4.codec.prod (Xdr.u32.prod (Xdr.u32.prod Xdr.u32))).iso
    (fun (a, b, c, d) => ⟨a, b, c, d⟩)
    (fun s => (s.openStateid, s.seqid, s.shareAccess, s.shareDeny)) (fun _ => rfl) (fun _ => rfl)

/-- `PutFh4args`. -/
structure PutFh4args where
  object : NfsFh4

/-- The codec of `PutFh4args`: its fields in order. -/
def PutFh4args.codec : Codec Xdr.Error PutFh4args :=
  (Xdr.byteArray 26).iso (fun a => ⟨a⟩) (fun s => s.object) (fun _ => rfl) (fun _ => rfl)

/-- `Read4args`. -/
structure Read4args where
  stateid : Stateid4
  offset : UInt64
  count : UInt32

/-- The codec of `Read4args`: its fields in order. -/
def Read4args.codec : Codec Xdr.Error Read4args :=
  (Stateid4.codec.prod (Xdr.u64.prod Xdr.u32)).iso
    (fun (a, b, c) => ⟨a, b, c⟩) (fun s => (s.stateid, s.offset, s.count))
    (fun _ => rfl) (fun _ => rfl)

/-- `Readdir4args`. -/
structure Readdir4args where
  cookie : UInt64
  cookieverf : List.Vector UInt8 8
  dircount : UInt32
  maxcount : UInt32
  attrRequest : List FileAttr

/-- The codec of `Readdir4args`: its fields in order. -/
def Readdir4args.codec : Codec Xdr.Error Readdir4args :=
  (Xdr.u64.prod ((Xdr.fixedLength 8).prod (Xdr.u32.prod (Xdr.u32.prod attrlistCodec)))).iso
    (fun (a, b, c, d, e) => ⟨a, b, c, d, e⟩)
    (fun s => (s.cookie, s.cookieverf, s.dircount, s.maxcount, s.attrRequest))
    (fun _ => rfl) (fun _ => rfl)

/-- `Remove4args`. -/
structure Remove4args where
  target : String

/-- The codec of `Remove4args`: its fields in order. -/
def Remove4args.codec : Codec Xdr.Error Remove4args :=
  Xdr.utf8Opaque.iso (fun a => ⟨a⟩) (fun s => s.target) (fun _ => rfl) (fun _ => rfl)

/-- `Rename4args`. -/
structure Rename4args where
  oldname : String
  newname : String

/-- The codec of `Rename4args`: its fields in order. -/
def Rename4args.codec : Codec Xdr.Error Rename4args :=
  (Xdr.utf8Opaque.prod Xdr.utf8Opaque).iso
    (fun (a, b) => ⟨a, b⟩) (fun s => (s.oldname, s.newname)) (fun _ => rfl) (fun _ => rfl)

/-- `Renew4args`. -/
structure Renew4args where
  clientid : UInt64

/-- The codec of `Renew4args`: its fields in order. -/
def Renew4args.codec : Codec Xdr.Error Renew4args :=
  Xdr.u64.iso (fun a => ⟨a⟩) (fun s => s.clientid) (fun _ => rfl) (fun _ => rfl)

/-- `SecInfo4args`. -/
structure SecInfo4args where
  name : String

/-- The codec of `SecInfo4args`: its fields in order. -/
def SecInfo4args.codec : Codec Xdr.Error SecInfo4args :=
  Xdr.utf8Opaque.iso (fun a => ⟨a⟩) (fun s => s.name) (fun _ => rfl) (fun _ => rfl)

/-- `SetAttr4args`. -/
structure SetAttr4args where
  stateid : Stateid4
  objAttributes : Fattr4

/-- The codec of `SetAttr4args`: its fields in order. -/
def SetAttr4args.codec : Codec Xdr.Error SetAttr4args :=
  (Stateid4.codec.prod fattr4Codec).iso
    (fun (a, b) => ⟨a, b⟩) (fun s => (s.stateid, s.objAttributes)) (fun _ => rfl) (fun _ => rfl)

/-- `SetClientId4args`. -/
structure SetClientId4args where
  client : NfsClientId4
  callback : CbClient4
  callbackIdent : UInt32

/-- The codec of `SetClientId4args`: its fields in order. -/
def SetClientId4args.codec : Codec Xdr.Error SetClientId4args :=
  (NfsClientId4.codec.prod (CbClient4.codec.prod Xdr.u32)).iso
    (fun (a, b, c) => ⟨a, b, c⟩) (fun s => (s.client, s.callback, s.callbackIdent))
    (fun _ => rfl) (fun _ => rfl)

/-- `SetClientIdConfirm4args`. -/
structure SetClientIdConfirm4args where
  clientid : UInt64
  setclientidConfirm : List.Vector UInt8 8

/-- The codec of `SetClientIdConfirm4args`: its fields in order. -/
def SetClientIdConfirm4args.codec : Codec Xdr.Error SetClientIdConfirm4args :=
  (Xdr.u64.prod (Xdr.fixedLength 8)).iso
    (fun (a, b) => ⟨a, b⟩) (fun s => (s.clientid, s.setclientidConfirm))
    (fun _ => rfl) (fun _ => rfl)

/-- `Verify4args`. -/
structure Verify4args where
  objAttributes : Fattr4

/-- The codec of `Verify4args`: its fields in order. -/
def Verify4args.codec : Codec Xdr.Error Verify4args :=
  fattr4Codec.iso (fun a => ⟨a⟩) (fun s => s.objAttributes) (fun _ => rfl) (fun _ => rfl)

/-- `StableHow4`. -/
inductive StableHow4
  | unstable4 | dataSync4 | fileSync4

/-- The variants of `StableHow4` with their declared numbers. -/
def StableHow4.union : TaggedUnion Xdr.Error StableHow4 where
  variants := [.unit 0 .unstable4, .unit 1 .dataSync4, .unit 2 .fileSync4]
  index e := ⟨e.ctorIdx, by cases e <;> exact of_decide_eq_true rfl⟩
  body
    | .unstable4 | .dataSync4 | .fileSync4 => ()

/-- The derived codec of `StableHow4`. -/
def StableHow4.codec : Codec Xdr.Error StableHow4 := Xdr.enum "StableHow4" StableHow4.union

/-- `Write4args`. -/
structure Write4args where
  stateid : Stateid4
  offset : UInt64
  stable : StableHow4
  data : Bytes

/-- The codec of `Write4args`: its fields in order. -/
def Write4args.codec : Codec Xdr.Error Write4args :=
  (Stateid4.codec.prod (Xdr.u64.prod (StableHow4.codec.prod Xdr.opaqueData))).iso
    (fun (a, b, c, d) => ⟨a, b, c, d⟩) (fun s => (s.stateid, s.offset, s.stable, s.data))
    (fun _ => rfl) (fun _ => rfl)

/-- `ReleaseLockowner4args`. -/
structure ReleaseLockowner4args where
  lockOwner : LockOwner4

/-- The codec of `ReleaseLockowner4args`: its fields in order. -/
def ReleaseLockowner4args.codec : Codec Xdr.Error ReleaseLockowner4args :=
  LockOwner4.codec.iso (fun a => ⟨a⟩) (fun s => s.lockOwner) (fun _ => rfl) (fun _ => rfl)

/-! ### NFSv4.1 operations -/

/-- `ChannelDirFromClient4`. -/
inductive ChannelDirFromClient4
  | fore | back | foreOrBoth

/-- The variants of `ChannelDirFromClient4` with their declared numbers. -/
def ChannelDirFromClient4.union : TaggedUnion Xdr.Error ChannelDirFromClient4 where
  variants := [.unit 1 .fore, .unit 2 .back, .unit 3 .foreOrBoth]
  index e := ⟨e.ctorIdx, by cases e <;> exact of_decide_eq_true rfl⟩
  body
    | .fore | .back | .foreOrBoth => ()

/-- The derived codec of `ChannelDirFromClient4`. -/
def ChannelDirFromClient4.codec : Codec Xdr.Error ChannelDirFromClient4 :=
  Xdr.enum "ChannelDirFromClient4" ChannelDirFromClient4.union

/-- `BindConnToSession4args`. -/
structure BindConnToSession4args where
  bctsaSessid : List.Vector UInt8 16
  bctsaDir : ChannelDirFromClient4
  bctsaUseConnInRdmaMode : Bool

/-- The codec of `BindConnToSession4args`: its fields in order. -/
def BindConnToSession4args.codec : Codec Xdr.Error BindConnToSession4args :=
  ((Xdr.fixedLength 16).prod (ChannelDirFromClient4.codec.prod Xdr.bool)).iso
    (fun (a, b, c) => ⟨a, b, c⟩)
    (fun s => (s.bctsaSessid, s.bctsaDir, s.bctsaUseConnInRdmaMode)) (fun _ => rfl) (fun _ => rfl)

/-- `ClientOwner4`. -/
structure ClientOwner4 where
  coVerifier : List.Vector UInt8 8
  coOwnerid : Bytes

/-- The codec of `ClientOwner4`: its fields in order. -/
def ClientOwner4.codec : Codec Xdr.Error ClientOwner4 :=
  ((Xdr.fixedLength 8).prod Xdr.opaqueData).iso
    (fun (a, b) => ⟨a, b⟩) (fun s => (s.coVerifier, s.coOwnerid)) (fun _ => rfl) (fun _ => rfl)

/-- `NfsImplId4`. -/
structure NfsImplId4 where
  niiDomain : String
  niiName : String
  niiDate : Nfstime4

/-- The codec of `NfsImplId4`: its fields in order. -/
def NfsImplId4.codec : Codec Xdr.Error NfsImplId4 :=
  (Xdr.utf8Opaque.prod (Xdr.utf8Opaque.prod Nfstime4.codec)).iso
    (fun (a, b, c) => ⟨a, b, c⟩) (fun s => (s.niiDomain, s.niiName, s.niiDate))
    (fun _ => rfl) (fun _ => rfl)

/-- `StateProtect4a`. -/
inductive StateProtect4a
  | spNone

/-- The variants of `StateProtect4a` with their declared numbers. -/
def StateProtect4a.union : TaggedUnion Xdr.Error StateProtect4a where
  variants := [.unit 0 .spNone]
  index e := ⟨e.ctorIdx, by cases e; exact of_decide_eq_true rfl⟩
  body
    | .spNone => ()

/-- The derived codec of `StateProtect4a`. -/
def StateProtect4a.codec : Codec Xdr.Error StateProtect4a :=
  Xdr.enum "StateProtect4a" StateProtect4a.union

/-- `ExchangeId4args`. -/
structure ExchangeId4args where
  eiaClientowner : ClientOwner4
  eiaFlags : UInt32
  eiaStateProtect : StateProtect4a
  eiaClientImplId : List NfsImplId4

/-- The codec of `ExchangeId4args`: its fields in order. -/
def ExchangeId4args.codec : Codec Xdr.Error ExchangeId4args :=
  (ClientOwner4.codec.prod (Xdr.u32.prod (StateProtect4a.codec.prod
    (Xdr.vec NfsImplId4.codec)))).iso
    (fun (a, b, c, d) => ⟨a, b, c, d⟩)
    (fun s => (s.eiaClientowner, s.eiaFlags, s.eiaStateProtect, s.eiaClientImplId))
    (fun _ => rfl) (fun _ => rfl)

/-- `ChannelAttrs4`. -/
structure ChannelAttrs4 where
  caHeaderpadsize : UInt32
  caMaxrequestsize : UInt32
  caMaxresponsesize : UInt32
  caMaxresponsesizeCached : UInt32
  caMaxoperations : UInt32
  caMaxrequests : UInt32
  caRdmaIrd : List UInt32

/-- The codec of `ChannelAttrs4`: its fields in order. -/
def ChannelAttrs4.codec : Codec Xdr.Error ChannelAttrs4 :=
  (Xdr.u32.prod (Xdr.u32.prod (Xdr.u32.prod (Xdr.u32.prod (Xdr.u32.prod (Xdr.u32.prod
    (Xdr.vec Xdr.u32))))))).iso
    (fun (a, b, c, d, e, f, g) => ⟨a, b, c, d, e, f, g⟩)
    (fun s => (s.caHeaderpadsize, s.caMaxrequestsize, s.caMaxresponsesize,
      s.caMaxresponsesizeCached, s.caMaxoperations, s.caMaxrequests, s.caRdmaIrd))
    (fun _ => rfl) (fun _ => rfl)

/-- `AuthsysParms4`. -/
structure AuthsysParms4 where
  stamp : UInt32
  machinename : String
  uid : UInt32
  gid : UInt32
  gids : List UInt32

/-- The codec of `AuthsysParms4`: its fields in order. -/
def AuthsysParms4.codec : Codec Xdr.Error AuthsysParms4 :=
  (Xdr.u32.prod (Xdr.utf8Opaque.prod (Xdr.u32.prod (Xdr.u32.prod (Xdr.vec Xdr.u32))))).iso
    (fun (a, b, c, d, e) => ⟨a, b, c, d, e⟩)
    (fun s => (s.stamp, s.machinename, s.uid, s.gid, s.gids)) (fun _ => rfl) (fun _ => rfl)

/-- `CallbackSecParms4`. -/
inductive CallbackSecParms4
  | authNone
  | authSys (v : AuthsysParms4)

/-- The variants of `CallbackSecParms4` with their declared numbers. -/
def CallbackSecParms4.union : TaggedUnion Xdr.Error CallbackSecParms4 where
  variants := [.unit 0 .authNone, .mk 1 _ AuthsysParms4.codec .authSys]
  index e := ⟨e.ctorIdx, by cases e <;> exact of_decide_eq_true rfl⟩
  body
    | .authSys v => v
    | .authNone => ()

/-- The derived codec of `CallbackSecParms4`. -/
def CallbackSecParms4.codec : Codec Xdr.Error CallbackSecParms4 :=
  Xdr.enum "CallbackSecParms4" CallbackSecParms4.union

/-- `CreateSession4args`. -/
structure CreateSession4args where
  csaClientid : UInt64
  csaSequence : UInt32
  csaFlags : UInt32
  csaForeChanAttrs : ChannelAttrs4
  csaBackChanAttrs : ChannelAttrs4
  csaCbProgram : UInt32
  csaSecParms : List CallbackSecParms4

/-- The codec of `CreateSession4args`: its fields in order. -/
def CreateSession4args.codec : Codec Xdr.Error CreateSession4args :=
  (Xdr.u64.prod (Xdr.u32.prod (Xdr.u32.prod (ChannelAttrs4.codec.prod (ChannelAttrs4.codec.prod
    (Xdr.u32.prod (Xdr.vec CallbackSecParms4.codec))))))).iso
    (fun (a, b, c, d, e, f, g) => ⟨a, b, c, d, e, f, g⟩)
    (fun s => (s.csaClientid, s.csaSequence, s.csaFlags, s.csaForeChanAttrs,
      s.csaBackChanAttrs, s.csaCbProgram, s.csaSecParms)) (fun _ => rfl) (fun _ => rfl)

/-- `DestroySession4args`. -/
structure DestroySession4args where
  dsaSessionid : List.Vector UInt8 16

/-- The codec of `DestroySession4args`: its fields in order. -/
def DestroySession4args.codec : Codec Xdr.Error DestroySession4args :=
  (Xdr.fixedLength 16).iso (fun a => ⟨a⟩) (fun s => s.dsaSessionid) (fun _ => rfl) (fun _ => rfl)

/-- `FreeStateid4args`. -/
structure FreeStateid4args where
  fsaStateid : Stateid4

/-- The codec of `FreeStateid4args`: its fields in order. -/
def FreeStateid4args.codec : Codec Xdr.Error FreeStateid4args :=
  Stateid4.codec.iso (fun a => ⟨a⟩) (fun s => s.fsaStateid) (fun _ => rfl) (fun _ => rfl)

/-- `LayoutType4`. -/
inductive LayoutType4
  | layoutNfsv4Files | layoutOsd2Objects | layoutBlockVolume | layoutFlexFiles

/-- The variants of `LayoutType4` with their declared numbers. -/
def LayoutType4.union : TaggedUnion Xdr.Error LayoutType4 where
  variants :=
    [.unit 1 .layoutNfsv4Files, .unit 2 .layoutOsd2Objects, .unit 3 .layoutBlockVolume,
    .unit 4 .layoutFlexFiles]
  index e := ⟨e.ctorIdx, by cases e <;> exact of_decide_eq_true rfl⟩
  body
    | .layoutNfsv4Files | .layoutOsd2Objects | .layoutBlockVolume | .layoutFlexFiles => ()

/-- The derived codec of `LayoutType4`. -/
def LayoutType4.codec : Codec Xdr.Error LayoutType4 := Xdr.enum "LayoutType4" LayoutType4.union

/-- `LayoutIomode4`. -/
inductive LayoutIomode4
  | layoutiomodeRead | layoutiomodeRw

/-- The variants of `LayoutIomode4` with their declared numbers. -/
def LayoutIomode4.union : TaggedUnion Xdr.Error LayoutIomode4 where
  variants := [.unit 1 .layoutiomodeRead, .unit 2 .layoutiomodeRw]
  index e := ⟨e.ctorIdx, by cases e <;> exact of_decide_eq_true rfl⟩
  body
    | .layoutiomodeRead | .layoutiomodeRw => ()

/-- The derived codec of `LayoutIomode4`. -/
def LayoutIomode4.codec : Codec Xdr.Error LayoutIomode4 :=
  Xdr.enum "LayoutIomode4" LayoutIomode4.union

/-- `GetDeviceInfo4args`. -/
structure GetDeviceInfo4args where
  gdiaDeviceId : List.Vector UInt8 16
  gdiaLayoutType : LayoutType4
  gdiaMaxcount : UInt32

/-- The codec of `GetDeviceInfo4args`: its fields in order. -/
def GetDeviceInfo4args.codec : Codec Xdr.Error GetDeviceInfo4args :=
  ((Xdr.fixedLength 16).prod (LayoutType4.codec.prod Xdr.u32)).iso
    (fun (a, b, c) => ⟨a, b, c⟩) (fun s => (s.gdiaDeviceId, s.gdiaLayoutType, s.gdiaMaxcount))
    (fun _ => rfl) (fun _ => rfl)

/-- `GetDeviceList4args`. -/
structure GetDeviceList4args where
  gdlaLayoutType : LayoutType4
  gdlaMaxdevices : UInt32
  gdlaCookie : UInt64
  gdlaCookieverf : List.Vector UInt8 8

/-- The codec of `GetDeviceList4args`: its fields in order. -/
def GetDeviceList4args.codec : Codec Xdr.Error GetDeviceList4args :=
  (LayoutType4.codec.prod (Xdr.u32.prod (Xdr.u64.prod (Xdr.fixedLength 8)))).iso
    (fun (a, b, c, d) => ⟨a, b, c, d⟩)
    (fun s => (s.gdlaLayoutType, s.gdlaMaxdevices, s.gdlaCookie, s.gdlaCookieverf))
    (fun _ => rfl) (fun _ => rfl)

/-- `LayoutCommit4args`. -/
structure LayoutCommit4args where
  locaOffset : UInt64
  locaLength : UInt64
  locaReclaim : Bool
  locaStateid : Stateid4
  locaLastWriteOffset : Bool
  locaLayoutType : LayoutType4

/-- The codec of `LayoutCommit4args`: its fields in order. -/
def LayoutCommit4args.codec : Codec Xdr.Error LayoutCommit4args :=
  (Xdr.u64.prod (Xdr.u64.prod (Xdr.bool.prod (Stateid4.codec.prod (Xdr.bool.prod
    LayoutType4.codec))))).iso
    (fun (a, b, c, d, e, f) => ⟨a, b, c, d, e, f⟩)
    (fun s => (s.locaOffset, s.locaLength, s.locaReclaim, s.locaStateid,
      s.locaLastWriteOffset, s.locaLayoutType)) (fun _ => rfl) (fun _ => rfl)

/-- `LayoutGet4args`. -/
structure LayoutGet4args where
  logaSignalLayoutAvail : Bool
  logaLayoutType : LayoutType4
  logaIomode : LayoutIomode4
  logaOffset : UInt64
  logaLength : UInt64
  logaMinlength : UInt64
  logaStateid : Stateid4
  logaMaxcount : UInt32

/-- The codec of `LayoutGet4args`: its fields in order. -/
def LayoutGet4args.codec : Codec Xdr.Error LayoutGet4args :=
  (Xdr.bool.prod (LayoutType4.codec.prod (LayoutIomode4.codec.prod (Xdr.u64.prod (Xdr.u64.prod
    (Xdr.u64.prod (Stateid4.codec.prod Xdr.u32))))))).iso
    (fun (a, b, c, d, e, f, g, h) => ⟨a, b, c, d, e, f, g, h⟩)
    (fun s => (s.logaSignalLayoutAvail, s.logaLayoutType, s.logaIomode, s.logaOffset,
      s.logaLength, s.logaMinlength, s.logaStateid, s.logaMaxcount)) (fun _ => rfl) (fun _ => rfl)

/-- `LayoutReturnType4`. -/
inductive LayoutReturnType4
  | layoutreturnFile | layoutreturnFsid | layoutreturnAll

/-- The variants of `LayoutReturnType4` with their declared numbers. -/
def LayoutReturnType4.union : TaggedUnion Xdr.Error LayoutReturnType4 where
  variants := [.unit 1 .layoutreturnFile, .unit 2 .layoutreturnFsid, .unit 3 .layoutreturnAll]
  index e := ⟨e.ctorIdx, by cases e <;> exact of_decide_eq_true rfl⟩
  body
    | .layoutreturnFile | .layoutreturnFsid | .layoutreturnAll => ()

/-- The derived codec of `LayoutReturnType4`. -/
def LayoutReturnType4.codec : Codec Xdr.Error LayoutReturnType4 :=
  Xdr.enum "LayoutReturnType4" LayoutReturnType4.union

/-- `LayoutReturn4args`. -/
structure LayoutReturn4args where
  loraReclaim : Bool
  loraLayoutType : LayoutType4
  loraIomode : LayoutIomode4
  loraReturnType : LayoutReturnType4

/-- The codec of `LayoutReturn4args`: its fields in order. -/
def LayoutReturn4args.codec : Codec Xdr.Error LayoutReturn4args :=
  (Xdr.bool.prod (LayoutType4.codec.prod (LayoutIomode4.codec.prod
    LayoutReturnType4.codec))).iso
    (fun (a, b, c, d) => ⟨a, b, c, d⟩)
    (fun s => (s.loraReclaim, s.loraLayoutType, s.loraIomode, s.loraReturnType))
    (fun _ => rfl) (fun _ => rfl)

/-- `SecinfoStyle4`. -/
inductive SecinfoStyle4
  | secinfoStyle4CurrentFh | secinfoStyle4Parent

/-- The variants of `SecinfoStyle4` with their declared numbers. -/
def SecinfoStyle4.union : TaggedUnion Xdr.Error SecinfoStyle4 where
  variants := [.unit 0 .secinfoStyle4CurrentFh, .unit 1 .secinfoStyle4Parent]
  index e := ⟨e.ctorIdx, by cases e <;> exact of_decide_eq_true rfl⟩
  body
    | .secinfoStyle4CurrentFh | .secinfoStyle4Parent => ()

/-- The derived codec of `SecinfoStyle4`. -/
def SecinfoStyle4.codec : Codec Xdr.Error SecinfoStyle4 :=
  Xdr.enum "SecinfoStyle4" SecinfoStyle4.union

/-- `SecinfoNoName4args`. -/
structure SecinfoNoName4args where
  sinaStyle : SecinfoStyle4

/-- The codec of `SecinfoNoName4args`: its fields in order. -/
def SecinfoNoName4args.codec : Codec Xdr.Error SecinfoNoName4args :=
  SecinfoStyle4.codec.iso (fun a => ⟨a⟩) (fun s => s.sinaStyle) (fun _ => rfl) (fun _ => rfl)

/-- `Sequence4args`. -/
structure Sequence4args where
  saSessionid : List.Vector UInt8 16
  saSequenceid : UInt32
  saSlotid : UInt32
  saHighestSlotid : UInt32
  saCachethis : Bool

/-- The codec of `Sequence4args`: its fields in order. -/
def Sequence4args.codec : Codec Xdr.Error Sequence4args :=
  ((Xdr.fixedLength 16).prod (Xdr.u32.prod (Xdr.u32.prod (Xdr.u32.prod Xdr.bool)))).iso
    (fun (a, b, c, d, e) => ⟨a, b, c, d, e⟩)
    (fun s => (s.saSessionid, s.saSequenceid, s.saSlotid, s.saHighestSlotid, s.saCachethis))
    (fun _ => rfl) (fun _ => rfl)

/-- `TestStateid4args`. -/
structure TestStateid4args where
  tsStateids : List Stateid4

/-- The codec of `TestStateid4args`: its fields in order. -/
def TestStateid4args.codec : Codec Xdr.Error TestStateid4args :=
  (Xdr.vec Stateid4.codec).iso (fun a => ⟨a⟩) (fun s => s.tsStateids) (fun _ => rfl) (fun _ => rfl)

/-- `DestroyClientId4args`. -/
structure DestroyClientId4args where
  dcaClientid : UInt64

/-- The codec of `DestroyClientId4args`: its fields in order. -/
def DestroyClientId4args.codec : Codec Xdr.Error DestroyClientId4args :=
  Xdr.u64.iso (fun a => ⟨a⟩) (fun s => s.dcaClientid) (fun _ => rfl) (fun _ => rfl)

/-- `ReclaimComplete4args`. -/
structure ReclaimComplete4args where
  rcaOneFs : Bool

/-- The codec of `ReclaimComplete4args`: its fields in order. -/
def ReclaimComplete4args.codec : Codec Xdr.Error ReclaimComplete4args :=
  Xdr.bool.iso (fun a => ⟨a⟩) (fun s => s.rcaOneFs) (fun _ => rfl) (fun _ => rfl)

/-! ### NFSv4.2 operations -/

/-- `Allocate4args`. -/
structure Allocate4args where
  aaStateid : Stateid4
  aaOffset : UInt64
  aaLength : UInt64

/-- The codec of `Allocate4args`: its fields in order. -/
def Allocate4args.codec : Codec Xdr.Error Allocate4args :=
  (Stateid4.codec.prod (Xdr.u64.prod Xdr.u64)).iso
    (fun (a, b, c) => ⟨a, b, c⟩) (fun s => (s.aaStateid, s.aaOffset, s.aaLength))
    (fun _ => rfl) (fun _ => rfl)

/-- `Netloc4`. -/
inductive Netloc4
  | name (v : String)
  | url (v : String)

/-- The variants of `Netloc4` with their declared numbers. -/
def Netloc4.union : TaggedUnion Xdr.Error Netloc4 where
  variants := [.mk 1 _ Xdr.string .name, .mk 2 _ Xdr.string .url]
  index e := ⟨e.ctorIdx, by cases e <;> exact of_decide_eq_true rfl⟩
  body
    | .name v => v
    | .url v => v

/-- The derived codec of `Netloc4`. -/
def Netloc4.codec : Codec Xdr.Error Netloc4 := Xdr.enum "Netloc4" Netloc4.union

/-- `Copy4args`. -/
structure Copy4args where
  caSrcStateid : Stateid4
  caDstStateid : Stateid4
  caSrcOffset : UInt64
  caDstOffset : UInt64
  caCount : UInt64
  caConsecutive : Bool
  caSynchronous : Bool
  caSourceServer : List Netloc4

/-- The codec of `Copy4args`: its fields in order. -/
def Copy4args.codec : Codec Xdr.Error Copy4args :=
  (Stateid4.codec.prod (Stateid4.codec.prod (Xdr.u64.prod (Xdr.u64.prod (Xdr.u64.prod
    (Xdr.bool.prod (Xdr.bool.prod (Xdr.vec Netloc4.codec)))))))).iso
    (fun (a, b, c, d, e, f, g, h) => ⟨a, b, c, d, e, f, g, h⟩)
    (fun s => (s.caSrcStateid, s.caDstStateid, s.caSrcOffset, s.caDstOffset, s.caCount,
      s.caConsecutive, s.caSynchronous, s.caSourceServer)) (fun _ => rfl) (fun _ => rfl)

/-- `DataContent4`. -/
inductive DataContent4
  | data | hole

/-- The variants of `DataContent4` with their declared numbers. -/
def DataContent4.union : TaggedUnion Xdr.Error DataContent4 where
  variants := [.unit 0 .data, .unit 1 .hole]
  index e := ⟨e.ctorIdx, by cases e <;> exact of_decide_eq_true rfl⟩
  body
    | .data | .hole => ()

/-- The derived codec of `DataContent4`. -/
def DataContent4.codec : Codec Xdr.Error DataContent4 :=
  Xdr.enum "DataContent4" DataContent4.union

/-- `Seek4args`. -/
structure Seek4args where
  saStateid : Stateid4
  saOffset : UInt64
  saWhat : DataContent4

/-- The codec of `Seek4args`: its fields in order. -/
def Seek4args.codec : Codec Xdr.Error Seek4args :=
  (Stateid4.codec.prod (Xdr.u64.prod DataContent4.codec)).iso
    (fun (a, b, c) => ⟨a, b, c⟩) (fun s => (s.saStateid, s.saOffset, s.saWhat))
    (fun _ => rfl) (fun _ => rfl)

end NextNfs
