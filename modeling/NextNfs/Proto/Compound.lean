import NextNfs.Proto.Args

set_option relaxedAutoImplicit false
set_option autoImplicit false

/-!
# Compound arguments

This module models `NfsArgOp` and `Compound4args` of `proto/src/nfs4_proto.rs`, and
`op_code` of `nfs/src/server/nfs40.rs`.

## Main definitions

* `NextNfs.NfsArgOp`, `NextNfs.NfsArgOp.codec` — an operation with its arguments.
* `NextNfs.Compound4args`, `NextNfs.Compound4args.codec` — the arguments of COMPOUND.
* `NextNfs.opCode` — the operation number the dispatcher goes by.
-/

namespace NextNfs

open Wire

/-- `NfsArgOp`: an operation with its arguments. `Opgetfh(())` and its like carry the unit
value, that is, nothing. -/
inductive NfsArgOp
  | opUndef0
  | opUndef1
  | opUndef2
  | opAccess (args : Access4args)
  | opclose (args : Close4args)
  | opcommit (args : Commit4args)
  | opcreate (args : Create4args)
  | opdelegpurge (args : DelegPurge4args)
  | opdelegreturn (args : DelegReturn4args)
  | opgetattr (args : Getattr4args)
  | opgetfh
  | oplink (args : Link4args)
  | oplock (args : Lock4args)
  | oplockt (args : Lockt4args)
  | oplocku (args : Locku4args)
  | oplookup (args : Lookup4args)
  | oplookupp
  | opnverify (args : Nverify4args)
  | opopen (args : Open4args)
  | opopenattr (args : OpenAttr4args)
  | opopenConfirm (args : OpenConfirm4args)
  | opopenDowngrade (args : OpenDowngrade4args)
  | opputfh (args : PutFh4args)
  | opputpubfh
  | opputrootfh
  | opread (args : Read4args)
  | opreaddir (args : Readdir4args)
  | opreadlink
  | opremove (args : Remove4args)
  | oprename (args : Rename4args)
  | oprenew (args : Renew4args)
  | oprestorefh
  | opsavefh
  | opSecinfo (args : SecInfo4args)
  | opsetattr (args : SetAttr4args)
  | opsetclientid (args : SetClientId4args)
  | opsetclientidConfirm (args : SetClientIdConfirm4args)
  | opverify (args : Verify4args)
  | opwrite (args : Write4args)
  | opreleaseLockOwner (args : ReleaseLockowner4args)
  | opbindConnToSession (args : BindConnToSession4args)
  | opexchangeId (args : ExchangeId4args)
  | opcreateSession (args : CreateSession4args)
  | opdestroySession (args : DestroySession4args)
  | opfreeStateid (args : FreeStateid4args)
  | opgetdeviceInfo (args : GetDeviceInfo4args)
  | opgetdeviceList (args : GetDeviceList4args)
  | oplayoutCommit (args : LayoutCommit4args)
  | oplayoutGet (args : LayoutGet4args)
  | oplayoutReturn (args : LayoutReturn4args)
  | opsecinfoNoName (args : SecinfoNoName4args)
  | opsequence (args : Sequence4args)
  | optestStateid (args : TestStateid4args)
  | opdestroyClientid (args : DestroyClientId4args)
  | opreclaimComplete (args : ReclaimComplete4args)
  | opallocate (args : Allocate4args)
  | opcopy (args : Copy4args)
  | opseek (args : Seek4args)

/-- The variants of `NfsArgOp` in declaration order, with their declared numbers. -/
def NfsArgOp.variants : List (Variant Xdr.Error NfsArgOp) :=
  [.unit 0 .opUndef0, .unit 1 .opUndef1, .unit 2 .opUndef2, .mk 3 _ Access4args.codec .opAccess,
   .mk 4 _ Close4args.codec .opclose, .mk 5 _ Commit4args.codec .opcommit,
   .mk 6 _ Create4args.codec .opcreate, .mk 7 _ DelegPurge4args.codec .opdelegpurge,
   .mk 8 _ DelegReturn4args.codec .opdelegreturn, .mk 9 _ Getattr4args.codec .opgetattr,
   .unit 10 .opgetfh, .mk 11 _ Link4args.codec .oplink, .mk 12 _ Lock4args.codec .oplock,
   .mk 13 _ Lockt4args.codec .oplockt, .mk 14 _ Locku4args.codec .oplocku,
   .mk 15 _ Lookup4args.codec .oplookup, .unit 16 .oplookupp,
   .mk 17 _ Nverify4args.codec .opnverify, .mk 18 _ Open4args.codec .opopen,
   .mk 19 _ OpenAttr4args.codec .opopenattr, .mk 20 _ OpenConfirm4args.codec .opopenConfirm,
   .mk 21 _ OpenDowngrade4args.codec .opopenDowngrade, .mk 22 _ PutFh4args.codec .opputfh,
   .unit 23 .opputpubfh, .unit 24 .opputrootfh, .mk 25 _ Read4args.codec .opread,
   .mk 26 _ Readdir4args.codec .opreaddir, .unit 27 .opreadlink,
   .mk 28 _ Remove4args.codec .opremove, .mk 29 _ Rename4args.codec .oprename,
   .mk 30 _ Renew4args.codec .oprenew, .unit 31 .oprestorefh, .unit 32 .opsavefh,
   .mk 33 _ SecInfo4args.codec .opSecinfo, .mk 34 _ SetAttr4args.codec .opsetattr,
   .mk 35 _ SetClientId4args.codec .opsetclientid,
   .mk 36 _ SetClientIdConfirm4args.codec .opsetclientidConfirm,
   .mk 37 _ Verify4args.codec .opverify, .mk 38 _ Write4args.codec .opwrite,
   .mk 39 _ ReleaseLockowner4args.codec .opreleaseLockOwner,
   .mk 41 _ BindConnToSession4args.codec .opbindConnToSession,
   .mk 42 _ ExchangeId4args.codec .opexchangeId,
   .mk 43 _ CreateSession4args.codec .opcreateSession,
   .mk 44 _ DestroySession4args.codec .opdestroySession,
   .mk 45 _ FreeStateid4args.codec .opfreeStateid,
   .mk 47 _ GetDeviceInfo4args.codec .opgetdeviceInfo,
   .mk 48 _ GetDeviceList4args.codec .opgetdeviceList,
   .mk 49 _ LayoutCommit4args.codec .oplayoutCommit, .mk 50 _ LayoutGet4args.codec .oplayoutGet,
   .mk 51 _ LayoutReturn4args.codec .oplayoutReturn,
   .mk 52 _ SecinfoNoName4args.codec .opsecinfoNoName, .mk 53 _ Sequence4args.codec .opsequence,
   .mk 55 _ TestStateid4args.codec .optestStateid,
   .mk 57 _ DestroyClientId4args.codec .opdestroyClientid,
   .mk 58 _ ReclaimComplete4args.codec .opreclaimComplete,
   .mk 59 _ Allocate4args.codec .opallocate, .mk 60 _ Copy4args.codec .opcopy,
   .mk 69 _ Seek4args.codec .opseek]

/-- The position of the variant of an operation. -/
def NfsArgOp.index (e : NfsArgOp) : Fin NfsArgOp.variants.length :=
  ⟨e.ctorIdx, by cases e <;> exact of_decide_eq_true rfl⟩

/-- The arguments an operation carries. -/
def NfsArgOp.body : (e : NfsArgOp) → (NfsArgOp.variants.get e.index).Body
  | .opAccess args => args
  | .opclose args => args
  | .opcommit args => args
  | .opcreate args => args
  | .opdelegpurge args => args
  | .opdelegreturn args => args
  | .opgetattr args => args
  | .oplink args => args
  | .oplock args => args
  | .oplockt args => args
  | .oplocku args => args
  | .oplookup args => args
  | .opnverify args => args
  | .opopen args => args
  | .opopenattr args => args
  | .opopenConfirm args => args
  | .opopenDowngrade args => args
  | .opputfh args => args
  | .opread args => args
  | .opreaddir args => args
  | .opremove args => args
  | .oprename args => args
  | .oprenew args => args
  | .opSecinfo args => args
  | .opsetattr args => args
  | .opsetclientid args => args
  | .opsetclientidConfirm args => args
  | .opverify args => args
  | .opwrite args => args
  | .opreleaseLockOwner args => args
  | .opbindConnToSession args => args
  | .opexchangeId args => args
  | .opcreateSession args => args
  | .opdestroySession args => args
  | .opfreeStateid args => args
  | .opgetdeviceInfo args => args
  | .opgetdeviceList args => args
  | .oplayoutCommit args => args
  | .oplayoutGet args => args
  | .oplayoutReturn args => args
  | .opsecinfoNoName args => args
  | .opsequence args => args
  | .optestStateid args => args
  | .opdestroyClientid args => args
  | .opreclaimComplete args => args
  | .opallocate args => args
  | .opcopy args => args
  | .opseek args => args
  | .opUndef0 | .opUndef1 | .opUndef2 | .opgetfh | .oplookupp | .opputpubfh | .opputrootfh
  | .opreadlink | .oprestorefh | .opsavefh => ()

/-- `NfsArgOp` as a tagged union. -/
def NfsArgOp.union : TaggedUnion Xdr.Error NfsArgOp where
  variants := NfsArgOp.variants
  index := NfsArgOp.index
  body := NfsArgOp.body

/-- The derived codec of `NfsArgOp`. -/
def NfsArgOp.codec : Codec Xdr.Error NfsArgOp := Xdr.enum "NfsArgOp" NfsArgOp.union

/-- `op_code` of `nfs40.rs`: the operation number the dispatcher goes by. -/
def opCode : NfsArgOp → ℕ
  | .opUndef0 => 0
  | .opUndef1 => 1
  | .opUndef2 => 2
  | .opAccess _ => 3
  | .opclose _ => 4
  | .opcommit _ => 5
  | .opcreate _ => 6
  | .opdelegpurge _ => 7
  | .opdelegreturn _ => 8
  | .opgetattr _ => 9
  | .opgetfh => 10
  | .oplink _ => 11
  | .oplock _ => 12
  | .oplockt _ => 13
  | .oplocku _ => 14
  | .oplookup _ => 15
  | .oplookupp => 16
  | .opnverify _ => 17
  | .opopen _ => 18
  | .opopenattr _ => 19
  | .opopenConfirm _ => 20
  | .opopenDowngrade _ => 21
  | .opputfh _ => 22
  | .opputpubfh => 23
  | .opputrootfh => 24
  | .opread _ => 25
  | .opreaddir _ => 26
  | .opreadlink => 27
  | .opremove _ => 28
  | .oprename _ => 29
  | .oprenew _ => 30
  | .oprestorefh => 31
  | .opsavefh => 32
  | .opSecinfo _ => 33
  | .opsetattr _ => 34
  | .opsetclientid _ => 35
  | .opsetclientidConfirm _ => 36
  | .opverify _ => 37
  | .opwrite _ => 38
  | .opreleaseLockOwner _ => 39
  | .opbindConnToSession _ => 41
  | .opexchangeId _ => 42
  | .opcreateSession _ => 43
  | .opdestroySession _ => 44
  | .opfreeStateid _ => 45
  | .opgetdeviceInfo _ => 47
  | .opgetdeviceList _ => 48
  | .oplayoutCommit _ => 49
  | .oplayoutGet _ => 50
  | .oplayoutReturn _ => 51
  | .opsecinfoNoName _ => 52
  | .opsequence _ => 53
  | .optestStateid _ => 55
  | .opdestroyClientid _ => 57
  | .opreclaimComplete _ => 58
  | .opallocate _ => 59
  | .opcopy _ => 60
  | .opseek _ => 69

/-- `Compound4args`. -/
structure Compound4args where
  tag : String
  minorVersion : UInt32
  argarray : List NfsArgOp

/-- The codec of `Compound4args`: its fields in order. -/
def Compound4args.codec : Codec Xdr.Error Compound4args :=
  (Xdr.utf8Opaque.prod (Xdr.u32.prod (Xdr.vec NfsArgOp.codec))).iso
    (fun (a, b, c) => ⟨a, b, c⟩) (fun s => (s.tag, s.minorVersion, s.argarray))
    (fun _ => rfl) (fun _ => rfl)

end NextNfs
