import NextNfs.Proto.Compound

set_option relaxedAutoImplicit false
set_option autoImplicit false

/-!
# Compound results

This module models the result types of `proto/src/nfs4_proto.rs` and their serialization,
derived and hand-written (`proto/src/utils.rs`). The server only writes results, so there is a
writer for each type and no reader.

## Main definitions

* `NextNfs.NfsResOp4` — the result of an operation.
* `NextNfs.NfsResOp4.opNum` — the number of the operation a result answers, as declared.
* `NextNfs.NfsResOp4.serializeElement` — one element of the result array.
* `NextNfs.writeArgarray` — `write_argarray`.
* `NextNfs.Compound4res.serialize` — the results of COMPOUND.
-/

namespace NextNfs

open Wire

open Xdr (toBytes)

/-! ### Writers -/

/-- The fields of a struct or tuple, one after the other. -/
def fields : List (Except Xdr.Error Bytes) → Except Xdr.Error Bytes
  | [] => .ok []
  | x :: xs => do
    let bs ← x
    let cs ← fields xs
    pure (bs ++ cs)

/-- A variant: its index and what it carries. -/
def variant (index : ℕ) (body : Except Xdr.Error Bytes) : Except Xdr.Error Bytes := do
  let bs ← body
  pure (beBytes 4 index ++ bs)

/-- A vector of values. -/
def serializeVec {α : Type} (f : α → Except Xdr.Error Bytes) (l : List α) :
    Except Xdr.Error Bytes :=
  if l.length < 256 ^ 4 then fields (.ok (beBytes 4 l.length) :: l.map f)
  else .error (Xdr.tooLong "sequence" l.length)

/-- `Serialize for NfsStat4`: the declared number. -/
def serializeStat (s : NfsStat4) : Except Xdr.Error Bytes := .ok (beBytes 4 s.toU32)

/-! ### NFSv4.0 results -/

/-- `ChangeInfo4`. -/
structure ChangeInfo4 where
  atomic : Bool
  before : UInt64
  after : UInt64

/-- `Serialize for ChangeInfo4`. -/
def ChangeInfo4.serialize (r : ChangeInfo4) : Except Xdr.Error Bytes :=
  fields [toBytes Xdr.bool r.atomic, toBytes Xdr.u64 r.before, toBytes Xdr.u64 r.after]

/-- `Access4resok`. -/
structure Access4resok where
  supported : UInt32
  access : UInt32

/-- `Serialize for Access4resok`. -/
def Access4resok.serialize (r : Access4resok) : Except Xdr.Error Bytes :=
  fields [toBytes Xdr.u32 r.supported, toBytes Xdr.u32 r.access]

/-- `Access4res`. -/
inductive Access4res
  | resok4 (r : Access4resok)

/-- `Serialize for Access4res`: the variant index and the content. -/
def Access4res.serialize : Access4res → Except Xdr.Error Bytes
  | .resok4 r => variant 0 r.serialize

/-- `Close4res`. -/
inductive Close4res
  | openStateid (r : Stateid4)

/-- `Serialize for Close4res`: the variant index and the content. -/
def Close4res.serialize : Close4res → Except Xdr.Error Bytes
  | .openStateid r => variant 0 (toBytes Stateid4.codec r)

/-- `Commit4resok`. -/
structure Commit4resok where
  writeverf : List.Vector UInt8 8

/-- `Serialize for Commit4resok`. -/
def Commit4resok.serialize (r : Commit4resok) : Except Xdr.Error Bytes :=
  toBytes (Xdr.fixedLength 8) r.writeverf

/-- `Commit4res`. -/
inductive Commit4res
  | resok4 (r : Commit4resok)

/-- `Serialize for Commit4res`: the variant index and the content. -/
def Commit4res.serialize : Commit4res → Except Xdr.Error Bytes
  | .resok4 r => variant 0 r.serialize

/-- `Create4resok`. -/
structure Create4resok where
  cinfo : ChangeInfo4
  attrset : List FileAttr

/-- `Serialize for Create4resok`. -/
def Create4resok.serialize (r : Create4resok) : Except Xdr.Error Bytes :=
  fields [r.cinfo.serialize, toBytes attrlistCodec r.attrset]

/-- `Create4res`. -/
inductive Create4res
  | resok4 (r : Create4resok)

/-- `Serialize for Create4res`: the variant index and the content. -/
def Create4res.serialize : Create4res → Except Xdr.Error Bytes
  | .resok4 r => variant 0 r.serialize

/-- `DelegPurge4res`. -/
structure DelegPurge4res where
  status : NfsStat4

/-- `Serialize for DelegPurge4res`. -/
def DelegPurge4res.serialize (r : DelegPurge4res) : Except Xdr.Error Bytes :=
  serializeStat r.status

/-- `DelegReturn4res`. -/
structure DelegReturn4res where
  status : NfsStat4

/-- `Serialize for DelegReturn4res`. -/
def DelegReturn4res.serialize (r : DelegReturn4res) : Except Xdr.Error Bytes :=
  serializeStat r.status

/-- `Getattr4resok`. -/
structure Getattr4resok where
  status : NfsStat4
  objAttributes : Option Fattr4

/-- `Serialize for Getattr4resok`: the attributes follow the status of a success only. -/
def Getattr4resok.serialize (r : Getattr4resok) : Except Xdr.Error Bytes :=
  if r.status ≠ .nfs4Ok then serializeStat r.status
  else
    match r.objAttributes with
    | some attrs => fields [serializeStat r.status, toBytes fattr4Codec attrs]
    | none => serializeStat r.status

/-- `GetFh4resok`. -/
structure GetFh4resok where
  object : NfsFh4

/-- `Serialize for GetFh4resok`. -/
def GetFh4resok.serialize (r : GetFh4resok) : Except Xdr.Error Bytes :=
  toBytes (Xdr.byteArray 26) r.object

/-- `GetFh4res`. -/
inductive GetFh4res
  | resok4 (r : GetFh4resok)

/-- `Serialize for GetFh4res`: the variant index and the content. -/
def GetFh4res.serialize : GetFh4res → Except Xdr.Error Bytes
  | .resok4 r => variant 0 r.serialize

/-- `Link4resok`. -/
structure Link4resok where
  cinfo : ChangeInfo4

/-- `Serialize for Link4resok`. -/
def Link4resok.serialize (r : Link4resok) : Except Xdr.Error Bytes :=
  r.cinfo.serialize

/-- `Link4res`. -/
inductive Link4res
  | resok4 (r : Link4resok)

/-- `Serialize for Link4res`: the variant index and the content. -/
def Link4res.serialize : Link4res → Except Xdr.Error Bytes
  | .resok4 r => variant 0 r.serialize

/-- `Lock4denied`. -/
structure Lock4denied where
  offset : UInt64
  length : UInt64
  locktype : NfsLockType4
  owner : LockOwner4

/-- `Serialize for Lock4denied`. -/
def Lock4denied.serialize (r : Lock4denied) : Except Xdr.Error Bytes :=
  fields [toBytes Xdr.u64 r.offset, toBytes Xdr.u64 r.length, toBytes NfsLockType4.codec r.locktype,
    toBytes LockOwner4.codec r.owner]

/-- `Lock4resok`. -/
structure Lock4resok where
  lockStateid : Stateid4

/-- `Serialize for Lock4resok`. -/
def Lock4resok.serialize (r : Lock4resok) : Except Xdr.Error Bytes :=
  toBytes Stateid4.codec r.lockStateid

/-- `Lock4res`. -/
inductive Lock4res
  | resok4 (r : Lock4resok)
  | denied (r : Lock4denied)

/-- `Serialize for Lock4res`: the variant index and the content. -/
def Lock4res.serialize : Lock4res → Except Xdr.Error Bytes
  | .resok4 r => variant 0 r.serialize
  | .denied r => variant 1 r.serialize

/-- `Lockt4res`. -/
inductive Lockt4res
  | denied (r : Lock4denied)

/-- `Serialize for Lockt4res`: the variant index and the content. -/
def Lockt4res.serialize : Lockt4res → Except Xdr.Error Bytes
  | .denied r => variant 0 r.serialize

/-- `Locku4res`. -/
inductive Locku4res
  | lockStateid (r : Stateid4)

/-- `Serialize for Locku4res`: the variant index and the content. -/
def Locku4res.serialize : Locku4res → Except Xdr.Error Bytes
  | .lockStateid r => variant 0 (toBytes Stateid4.codec r)

/-- `Lookup4res`. -/
structure Lookup4res where
  status : NfsStat4

/-- `Serialize for Lookup4res`. -/
def Lookup4res.serialize (r : Lookup4res) : Except Xdr.Error Bytes :=
  serializeStat r.status

/-- `LookupP4res`. -/
structure LookupP4res where
  status : NfsStat4

/-- `Serialize for LookupP4res`. -/
def LookupP4res.serialize (r : LookupP4res) : Except Xdr.Error Bytes :=
  serializeStat r.status

/-- `Nverify4res`. -/
structure Nverify4res where
  status : NfsStat4

/-- `Serialize for Nverify4res`. -/
def Nverify4res.serialize (r : Nverify4res) : Except Xdr.Error Bytes :=
  serializeStat r.status

/-- `NfsModifiedLimit4`. -/
structure NfsModifiedLimit4 where
  numBlocks : UInt32
  bytesPerBlock : UInt32

/-- `Serialize for NfsModifiedLimit4`. -/
def NfsModifiedLimit4.serialize (r : NfsModifiedLimit4) : Except Xdr.Error Bytes :=
  fields [toBytes Xdr.u32 r.numBlocks, toBytes Xdr.u32 r.bytesPerBlock]

/-- `NfsSpaceLimit4`. -/
inductive NfsSpaceLimit4
  | filesize (r : UInt64)
  | modBlocks (r : NfsModifiedLimit4)

/-- `Serialize for NfsSpaceLimit4`: the variant index and the content. -/
def NfsSpaceLimit4.serialize : NfsSpaceLimit4 → Except Xdr.Error Bytes
  | .filesize r => variant 0 (toBytes Xdr.u64 r)
  | .modBlocks r => variant 1 r.serialize

/-- `Serialize for Nfsace4`. -/
def Nfsace4.serialize (r : Nfsace4) : Except Xdr.Error Bytes :=
  fields [toBytes Xdr.u32 r.acetype, toBytes Xdr.u32 r.flag, toBytes Xdr.u32 r.accessMask,
    toBytes Xdr.utf8Opaque r.who]

/-- `OpenReadDelegation4`. -/
structure OpenReadDelegation4 where
  stateid : Stateid4
  recalled : Bool
  permissions : Nfsace4

/-- `Serialize for OpenReadDelegation4`. -/
def OpenReadDelegation4.serialize (r : OpenReadDelegation4) : Except Xdr.Error Bytes :=
  fields [toBytes Stateid4.codec r.stateid, toBytes Xdr.bool r.recalled, r.permissions.serialize]

/-- `OpenWriteDelegation4`. -/
structure OpenWriteDelegation4 where
  stateid : Stateid4
  recalled : Bool
  spaceLimit : NfsSpaceLimit4
  permissions : Nfsace4

/-- `Serialize for OpenWriteDelegation4`. -/
def OpenWriteDelegation4.serialize (r : OpenWriteDelegation4) : Except Xdr.Error Bytes :=
  fields [toBytes Stateid4.codec r.stateid, toBytes Xdr.bool r.recalled, r.spaceLimit.serialize,
    r.permissions.serialize]

/-- `OpenDelegation4`. -/
inductive OpenDelegation4
  | none
  | read (r : OpenReadDelegation4)
  | write (r : OpenWriteDelegation4)

/-- `Serialize for OpenDelegation4`: the variant index and the content. -/
def OpenDelegation4.serialize : OpenDelegation4 → Except Xdr.Error Bytes
  | .none => variant 0 (.ok [])
  | .read r => variant 1 r.serialize
  | .write r => variant 2 r.serialize

/-- `Open4resok`. -/
structure Open4resok where
  stateid : Stateid4
  cinfo : ChangeInfo4
  rflags : UInt32
  attrset : List FileAttr
  delegation : OpenDelegation4

/-- `Serialize for Open4resok`. -/
def Open4resok.serialize (r : Open4resok) : Except Xdr.Error Bytes :=
  fields [toBytes Stateid4.codec r.stateid, r.cinfo.serialize, toBytes Xdr.u32 r.rflags,
    toBytes attrlistCodec r.attrset, r.delegation.serialize]

/-- `Open4res`. -/
inductive Open4res
  | resok4 (r : Open4resok)

/-- `Serialize for Open4res`: the variant index and the content. -/
def Open4res.serialize : Open4res → Except Xdr.Error Bytes
  | .resok4 r => variant 0 r.serialize

/-- `OpenAttr4res`. -/
structure OpenAttr4res where
  status : NfsStat4

/-- `Serialize for OpenAttr4res`. -/
def OpenAttr4res.serialize (r : OpenAttr4res) : Except Xdr.Error Bytes :=
  serializeStat r.status

/-- `OpenConfirm4resok`. -/
structure OpenConfirm4resok where
  openStateid : Stateid4

/-- `Serialize for OpenConfirm4resok`. -/
def OpenConfirm4resok.serialize (r : OpenConfirm4resok) : Except Xdr.Error Bytes :=
  toBytes Stateid4.codec r.openStateid

/-- `OpenConfirm4res`. -/
inductive OpenConfirm4res
  | resok4 (r : OpenConfirm4resok)

/-- `Serialize for OpenConfirm4res`: the variant index and the content. -/
def OpenConfirm4res.serialize : OpenConfirm4res → Except Xdr.Error Bytes
  | .resok4 r => variant 0 r.serialize

/-- `OpenDowngrade4resok`. -/
structure OpenDowngrade4resok where
  openStateid : Stateid4

/-- `Serialize for OpenDowngrade4resok`. -/
def OpenDowngrade4resok.serialize (r : OpenDowngrade4resok) : Except Xdr.Error Bytes :=
  toBytes Stateid4.codec r.openStateid

/-- `OpenDowngrade4res`. -/
inductive OpenDowngrade4res
  | resok4 (r : OpenDowngrade4resok)

/-- `Serialize for OpenDowngrade4res`: the variant index and the content. -/
def OpenDowngrade4res.serialize : OpenDowngrade4res → Except Xdr.Error Bytes
  | .resok4 r => variant 0 r.serialize

/-- `PutFh4res`. -/
structure PutFh4res where
  status : NfsStat4

/-- `Serialize for PutFh4res`. -/
def PutFh4res.serialize (r : PutFh4res) : Except Xdr.Error Bytes :=
  serializeStat r.status

/-- `PutRootFh4res`. -/
structure PutRootFh4res where
  status : NfsStat4

/-- `Serialize for PutRootFh4res`. -/
def PutRootFh4res.serialize (r : PutRootFh4res) : Except Xdr.Error Bytes :=
  serializeStat r.status

/-- `Read4resok`. -/
structure Read4resok where
  eof : Bool
  data : Bytes

/-- `Serialize for Read4resok`. -/
def Read4resok.serialize (r : Read4resok) : Except Xdr.Error Bytes :=
  fields [toBytes Xdr.bool r.eof, toBytes Xdr.opaqueData r.data]

/-- `Read4res`. -/
inductive Read4res
  | resok4 (r : Read4resok)

/-- `Serialize for Read4res`: the variant index and the content. -/
def Read4res.serialize : Read4res → Except Xdr.Error Bytes
  | .resok4 r => variant 0 r.serialize

/-- `Entry4`: a directory entry and the entries after it. -/
inductive Entry4
  | mk (cookie : UInt64) (name : String) (attrs : Fattr4) (nextentry : Option Entry4)

/-- `Serialize for Entry4`: the next entry is optional-data. -/
def Entry4.serialize : Entry4 → Except Xdr.Error Bytes
  | .mk cookie name attrs nextentry =>
    fields [toBytes Xdr.u64 cookie, toBytes Xdr.utf8Opaque name, toBytes fattr4Codec attrs,
      match nextentry with
      | none => .ok (beBytes 4 0)
      | some e => variant 1 e.serialize]

/-- `DirList4`. -/
structure DirList4 where
  entries : Option Entry4
  eof : Bool

/-- `Serialize for DirList4`. -/
def DirList4.serialize (r : DirList4) : Except Xdr.Error Bytes :=
  fields [
    match r.entries with
    | none => .ok (beBytes 4 0)
    | some e => variant 1 e.serialize,
    toBytes Xdr.bool r.eof]

/-- `ReadDir4resok`. -/
structure ReadDir4resok where
  cookieverf : List.Vector UInt8 8
  reply : DirList4

/-- `Serialize for ReadDir4resok`. -/
def ReadDir4resok.serialize (r : ReadDir4resok) : Except Xdr.Error Bytes :=
  fields [toBytes (Xdr.fixedLength 8) r.cookieverf, r.reply.serialize]

/-- `ReadDir4res`. -/
inductive ReadDir4res
  | resok4 (r : ReadDir4resok)

/-- `Serialize for ReadDir4res`: the variant index and the content. -/
def ReadDir4res.serialize : ReadDir4res → Except Xdr.Error Bytes
  | .resok4 r => variant 0 r.serialize

/-- `Readlink4res`. -/
structure Readlink4res where
  status : NfsStat4
  link : String

/-- `Serialize for Readlink4res`. -/
def Readlink4res.serialize (r : Readlink4res) : Except Xdr.Error Bytes :=
  fields [serializeStat r.status, toBytes Xdr.utf8Opaque r.link]

/-- `Remove4res`. -/
structure Remove4res where
  status : NfsStat4
  cinfo : ChangeInfo4

/-- `Serialize for Remove4res`. -/
def Remove4res.serialize (r : Remove4res) : Except Xdr.Error Bytes :=
  fields [serializeStat r.status, r.cinfo.serialize]

/-- `Rename4resok`. -/
structure Rename4resok where
  sourceCinfo : ChangeInfo4
  targetCinfo : ChangeInfo4

/-- `Serialize for Rename4resok`. -/
def Rename4resok.serialize (r : Rename4resok) : Except Xdr.Error Bytes :=
  fields [r.sourceCinfo.serialize, r.targetCinfo.serialize]

/-- `Rename4res`. -/
inductive Rename4res
  | resok4 (r : Rename4resok)

/-- `Serialize for Rename4res`: the variant index and the content. -/
def Rename4res.serialize : Rename4res → Except Xdr.Error Bytes
  | .resok4 r => variant 0 r.serialize

/-- `Renew4res`. -/
structure Renew4res where
  status : NfsStat4

/-- `Serialize for Renew4res`. -/
def Renew4res.serialize (r : Renew4res) : Except Xdr.Error Bytes :=
  serializeStat r.status

/-- `RestoreFh4res`. -/
structure RestoreFh4res where
  status : NfsStat4

/-- `Serialize for RestoreFh4res`. -/
def RestoreFh4res.serialize (r : RestoreFh4res) : Except Xdr.Error Bytes :=
  serializeStat r.status

/-- `SaveFh4res`. -/
structure SaveFh4res where
  status : NfsStat4

/-- `Serialize for SaveFh4res`. -/
def SaveFh4res.serialize (r : SaveFh4res) : Except Xdr.Error Bytes :=
  serializeStat r.status

/-- `RpcGssSvc`. -/
inductive RpcGssSvc
  | rpcGssSvcNone | rpcGssSvcIntegrity | rpcGssSvcPrivacy

/-- `RpcSecGssInfo`. -/
structure RpcSecGssInfo where
  oid : Bytes
  qop : UInt32
  service : RpcGssSvc

/-- `SeCinfo4`. -/
inductive SeCinfo4
  | authNone
  | authSys
  | flavorInfo (info : RpcSecGssInfo)

/-- `Serialize for SeCinfo4`, hand-written: the flavor numbers and the declared service
number. -/
def SeCinfo4.serialize : SeCinfo4 → Except Xdr.Error Bytes
  | .authNone => .ok (beBytes 4 0)
  | .authSys => .ok (beBytes 4 1)
  | .flavorInfo info =>
    fields [.ok (beBytes 4 6), toBytes Xdr.opaqueData info.oid, toBytes Xdr.u32 info.qop,
      .ok (beBytes 4 (info.service.ctorIdx + 1))]

/-- `SecInfo4res`. -/
inductive SecInfo4res
  | resok4 (r : List SeCinfo4)

/-- `Serialize for SecInfo4res`: the variant index and the content. -/
def SecInfo4res.serialize : SecInfo4res → Except Xdr.Error Bytes
  | .resok4 r => variant 0 (serializeVec SeCinfo4.serialize r)

/-- `SetAttr4res`. -/
structure SetAttr4res where
  status : NfsStat4
  attrsset : List FileAttr

/-- `Serialize for SetAttr4res`. -/
def SetAttr4res.serialize (r : SetAttr4res) : Except Xdr.Error Bytes :=
  fields [serializeStat r.status, toBytes attrlistCodec r.attrsset]

/-- `SetClientId4resok`. -/
structure SetClientId4resok where
  clientid : UInt64
  setclientidConfirm : List.Vector UInt8 8

/-- `Serialize for SetClientId4resok`. -/
def SetClientId4resok.serialize (r : SetClientId4resok) : Except Xdr.Error Bytes :=
  fields [toBytes Xdr.u64 r.clientid, toBytes (Xdr.fixedLength 8) r.setclientidConfirm]

/-- `SetClientId4res`. -/
inductive SetClientId4res
  | resok4 (r : SetClientId4resok)
  | clientUsing (r : ClientAddr4)

/-- `Serialize for SetClientId4res`: the variant index and the content. -/
def SetClientId4res.serialize : SetClientId4res → Except Xdr.Error Bytes
  | .resok4 r => variant 0 r.serialize
  | .clientUsing r => variant 1 (toBytes ClientAddr4.codec r)

/-- `SetClientIdConfirm4res`. -/
structure SetClientIdConfirm4res where
  status : NfsStat4

/-- `Serialize for SetClientIdConfirm4res`. -/
def SetClientIdConfirm4res.serialize (r : SetClientIdConfirm4res) : Except Xdr.Error Bytes :=
  serializeStat r.status

/-- `Verify4res`. -/
structure Verify4res where
  status : NfsStat4

/-- `Serialize for Verify4res`. -/
def Verify4res.serialize (r : Verify4res) : Except Xdr.Error Bytes :=
  serializeStat r.status

/-- `Write4resok`. -/
structure Write4resok where
  count : UInt32
  committed : StableHow4
  writeverf : List.Vector UInt8 8

/-- `Serialize for Write4resok`. -/
def Write4resok.serialize (r : Write4resok) : Except Xdr.Error Bytes :=
  fields [toBytes Xdr.u32 r.count, toBytes StableHow4.codec r.committed,
    toBytes (Xdr.fixedLength 8) r.writeverf]

/-- `Write4res`. -/
inductive Write4res
  | resok4 (r : Write4resok)

/-- `Serialize for Write4res`: the variant index and the content. -/
def Write4res.serialize : Write4res → Except Xdr.Error Bytes
  | .resok4 r => variant 0 r.serialize

/-- `ReleaseLockowner4res`. -/
structure ReleaseLockowner4res where
  status : NfsStat4

/-- `Serialize for ReleaseLockowner4res`. -/
def ReleaseLockowner4res.serialize (r : ReleaseLockowner4res) : Except Xdr.Error Bytes :=
  serializeStat r.status

/-! ### NFSv4.1 results -/

/-- `ChannelDirFromServer4`. -/
inductive ChannelDirFromServer4
  | fore | back | both

/-- `Serialize for ChannelDirFromServer4`: the variant index and the content. -/
def ChannelDirFromServer4.serialize : ChannelDirFromServer4 → Except Xdr.Error Bytes
  | .fore => variant 0 (.ok [])
  | .back => variant 1 (.ok [])
  | .both => variant 2 (.ok [])

/-- `BindConnToSession4resok`. -/
structure BindConnToSession4resok where
  bctsrSessid : List.Vector UInt8 16
  bctsrDir : ChannelDirFromServer4
  bctsrUseConnInRdmaMode : Bool

/-- `Serialize for BindConnToSession4resok`. -/
def BindConnToSession4resok.serialize (r : BindConnToSession4resok) : Except Xdr.Error Bytes :=
  fields [toBytes (Xdr.fixedLength 16) r.bctsrSessid, r.bctsrDir.serialize,
    toBytes Xdr.bool r.bctsrUseConnInRdmaMode]

/-- `BindConnToSession4res`. -/
inductive BindConnToSession4res
  | resok4 (r : BindConnToSession4resok)

/-- `Serialize for BindConnToSession4res`: the variant index and the content. -/
def BindConnToSession4res.serialize : BindConnToSession4res → Except Xdr.Error Bytes
  | .resok4 r => variant 0 r.serialize

/-- `ServerOwner4`. -/
structure ServerOwner4 where
  soMinorId : UInt64
  soMajorId : Bytes

/-- `Serialize for ServerOwner4`. -/
def ServerOwner4.serialize (r : ServerOwner4) : Except Xdr.Error Bytes :=
  fields [toBytes Xdr.u64 r.soMinorId, toBytes Xdr.opaqueData r.soMajorId]

/-- `StateProtect4r`. -/
inductive StateProtect4r
  | spNone

/-- `Serialize for StateProtect4r`: the variant index and the content. -/
def StateProtect4r.serialize : StateProtect4r → Except Xdr.Error Bytes
  | .spNone => variant 0 (.ok [])

/-- `ExchangeId4resok`. -/
structure ExchangeId4resok where
  eirClientid : UInt64
  eirSequenceid : UInt32
  eirFlags : UInt32
  eirStateProtect : StateProtect4r
  eirServerOwner : ServerOwner4
  eirServerScope : Bytes
  eirServerImplId : List NfsImplId4

/-- `Serialize for ExchangeId4resok`. -/
def ExchangeId4resok.serialize (r : ExchangeId4resok) : Except Xdr.Error Bytes :=
  fields [toBytes Xdr.u64 r.eirClientid, toBytes Xdr.u32 r.eirSequenceid, toBytes Xdr.u32 r.eirFlags,
    r.eirStateProtect.serialize, r.eirServerOwner.serialize,
    toBytes Xdr.opaqueData r.eirServerScope,
    toBytes (Xdr.vec NfsImplId4.codec) r.eirServerImplId]

/-- `ExchangeId4res`. -/
inductive ExchangeId4res
  | resok4 (r : ExchangeId4resok)

/-- `Serialize for ExchangeId4res`: the variant index and the content. -/
def ExchangeId4res.serialize : ExchangeId4res → Except Xdr.Error Bytes
  | .resok4 r => variant 0 r.serialize

/-- `CreateSession4resok`. -/
structure CreateSession4resok where
  csrSessionid : List.Vector UInt8 16
  csrSequenceid : UInt32
  csrFlags : UInt32
  csrForeChanAttrs : ChannelAttrs4
  csrBackChanAttrs : ChannelAttrs4

/-- `Serialize for CreateSession4resok`. -/
def CreateSession4resok.serialize (r : CreateSession4resok) : Except Xdr.Error Bytes :=
  fields [toBytes (Xdr.fixedLength 16) r.csrSessionid, toBytes Xdr.u32 r.csrSequenceid,
    toBytes Xdr.u32 r.csrFlags, toBytes ChannelAttrs4.codec r.csrForeChanAttrs,
    toBytes ChannelAttrs4.codec r.csrBackChanAttrs]

/-- `CreateSession4res`. -/
inductive CreateSession4res
  | resok4 (r : CreateSession4resok)

/-- `Serialize for CreateSession4res`: the variant index and the content. -/
def CreateSession4res.serialize : CreateSession4res → Except Xdr.Error Bytes
  | .resok4 r => variant 0 r.serialize

/-- `DestroySession4res`. -/
structure DestroySession4res where
  dsrStatus : NfsStat4

/-- `Serialize for DestroySession4res`. -/
def DestroySession4res.serialize (r : DestroySession4res) : Except Xdr.Error Bytes :=
  serializeStat r.dsrStatus

/-- `FreeStateid4res`. -/
structure FreeStateid4res where
  fsrStatus : NfsStat4

/-- `Serialize for FreeStateid4res`. -/
def FreeStateid4res.serialize (r : FreeStateid4res) : Except Xdr.Error Bytes :=
  serializeStat r.fsrStatus

/-- `GetDeviceInfo4resok`. -/
structure GetDeviceInfo4resok where
  gdirNotification : UInt32

/-- `Serialize for GetDeviceInfo4resok`. -/
def GetDeviceInfo4resok.serialize (r : GetDeviceInfo4resok) : Except Xdr.Error Bytes :=
  toBytes Xdr.u32 r.gdirNotification

/-- `GetDeviceInfo4res`. -/
inductive GetDeviceInfo4res
  | resok4 (r : GetDeviceInfo4resok)
  | err (r : NfsStat4)

/-- `Serialize for GetDeviceInfo4res`: the variant index and the content. -/
def GetDeviceInfo4res.serialize : GetDeviceInfo4res → Except Xdr.Error Bytes
  | .resok4 r => variant 0 r.serialize
  | .err r => variant 1 (serializeStat r)

/-- `GetDeviceList4resok`. -/
structure GetDeviceList4resok where
  gdlrCookie : UInt64
  gdlrCookieverf : List.Vector UInt8 8
  gdlrEof : Bool

/-- `Serialize for GetDeviceList4resok`. -/
def GetDeviceList4resok.serialize (r : GetDeviceList4resok) : Except Xdr.Error Bytes :=
  fields [toBytes Xdr.u64 r.gdlrCookie, toBytes (Xdr.fixedLength 8) r.gdlrCookieverf,
    toBytes Xdr.bool r.gdlrEof]

/-- `GetDeviceList4res`. -/
inductive GetDeviceList4res
  | resok4 (r : GetDeviceList4resok)
  | err (r : NfsStat4)

/-- `Serialize for GetDeviceList4res`: the variant index and the content. -/
def GetDeviceList4res.serialize : GetDeviceList4res → Except Xdr.Error Bytes
  | .resok4 r => variant 0 r.serialize
  | .err r => variant 1 (serializeStat r)

/-- `LayoutCommit4resok`. -/
structure LayoutCommit4resok where
  locrNewsize : Bool

/-- `Serialize for LayoutCommit4resok`. -/
def LayoutCommit4resok.serialize (r : LayoutCommit4resok) : Except Xdr.Error Bytes :=
  toBytes Xdr.bool r.locrNewsize

/-- `LayoutCommit4res`. -/
inductive LayoutCommit4res
  | resok4 (r : LayoutCommit4resok)
  | err (r : NfsStat4)

/-- `Serialize for LayoutCommit4res`: the variant index and the content. -/
def LayoutCommit4res.serialize : LayoutCommit4res → Except Xdr.Error Bytes
  | .resok4 r => variant 0 r.serialize
  | .err r => variant 1 (serializeStat r)

/-- `LayoutGet4resok`. -/
structure LayoutGet4resok where
  logrReturnOnClose : Bool
  logrStateid : Stateid4

/-- `Serialize for LayoutGet4resok`. -/
def LayoutGet4resok.serialize (r : LayoutGet4resok) : Except Xdr.Error Bytes :=
  fields [toBytes Xdr.bool r.logrReturnOnClose, toBytes Stateid4.codec r.logrStateid]

/-- `LayoutGet4res`. -/
inductive LayoutGet4res
  | resok4 (r : LayoutGet4resok)
  | err (r : NfsStat4)

/-- `Serialize for LayoutGet4res`: the variant index and the content. -/
def LayoutGet4res.serialize : LayoutGet4res → Except Xdr.Error Bytes
  | .resok4 r => variant 0 r.serialize
  | .err r => variant 1 (serializeStat r)

/-- `LayoutReturn4resok`. -/
structure LayoutReturn4resok where
  lorrPresent : Bool

/-- `Serialize for LayoutReturn4resok`. -/
def LayoutReturn4resok.serialize (r : LayoutReturn4resok) : Except Xdr.Error Bytes :=
  toBytes Xdr.bool r.lorrPresent

/-- `LayoutReturn4res`. -/
inductive LayoutReturn4res
  | resok4 (r : LayoutReturn4resok)
  | err (r : NfsStat4)

/-- `Serialize for LayoutReturn4res`: the variant index and the content. -/
def LayoutReturn4res.serialize : LayoutReturn4res → Except Xdr.Error Bytes
  | .resok4 r => variant 0 r.serialize
  | .err r => variant 1 (serializeStat r)

/-- `Sequence4resok`. -/
structure Sequence4resok where
  srSessionid : List.Vector UInt8 16
  srSequenceid : UInt32
  srSlotid : UInt32
  srHighestSlotid : UInt32
  srTargetHighestSlotid : UInt32
  srStatusFlags : UInt32

/-- `Serialize for Sequence4resok`. -/
def Sequence4resok.serialize (r : Sequence4resok) : Except Xdr.Error Bytes :=
  fields [toBytes (Xdr.fixedLength 16) r.srSessionid, toBytes Xdr.u32 r.srSequenceid,
    toBytes Xdr.u32 r.srSlotid, toBytes Xdr.u32 r.srHighestSlotid,
    toBytes Xdr.u32 r.srTargetHighestSlotid, toBytes Xdr.u32 r.srStatusFlags]

/-- `Sequence4res`. -/
inductive Sequence4res
  | resok4 (r : Sequence4resok)

/-- `Serialize for Sequence4res`: the variant index and the content. -/
def Sequence4res.serialize : Sequence4res → Except Xdr.Error Bytes
  | .resok4 r => variant 0 r.serialize

/-- `TestStateid4resok`. -/
structure TestStateid4resok where
  tsrStatusCodes : List UInt32

/-- `Serialize for TestStateid4resok`. -/
def TestStateid4resok.serialize (r : TestStateid4resok) : Except Xdr.Error Bytes :=
  toBytes (Xdr.vec Xdr.u32) r.tsrStatusCodes

/-- `TestStateid4res`. -/
inductive TestStateid4res
  | resok4 (r : TestStateid4resok)

/-- `Serialize for TestStateid4res`: the variant index and the content. -/
def TestStateid4res.serialize : TestStateid4res → Except Xdr.Error Bytes
  | .resok4 r => variant 0 r.serialize

/-- `DestroyClientId4res`. -/
structure DestroyClientId4res where
  dcrStatus : NfsStat4

/-- `Serialize for DestroyClientId4res`. -/
def DestroyClientId4res.serialize (r : DestroyClientId4res) : Except Xdr.Error Bytes :=
  serializeStat r.dcrStatus

/-- `ReclaimComplete4res`. -/
structure ReclaimComplete4res where
  rcrStatus : NfsStat4

/-- `Serialize for ReclaimComplete4res`. -/
def ReclaimComplete4res.serialize (r : ReclaimComplete4res) : Except Xdr.Error Bytes :=
  serializeStat r.rcrStatus

/-! ### NFSv4.2 results -/

/-- `Allocate4res`. -/
structure Allocate4res where
  arStatus : NfsStat4

/-- `Serialize for Allocate4res`. -/
def Allocate4res.serialize (r : Allocate4res) : Except Xdr.Error Bytes :=
  serializeStat r.arStatus

/-- `WriteResponse4`. -/
structure WriteResponse4 where
  wrCallbackId : List Stateid4
  wrCount : UInt64
  wrCommitted : StableHow4
  wrWriteverf : List.Vector UInt8 8

/-- `Serialize for WriteResponse4`. -/
def WriteResponse4.serialize (r : WriteResponse4) : Except Xdr.Error Bytes :=
  fields [toBytes (Xdr.vec Stateid4.codec) r.wrCallbackId, toBytes Xdr.u64 r.wrCount,
    toBytes StableHow4.codec r.wrCommitted, toBytes (Xdr.fixedLength 8) r.wrWriteverf]

/-- `CopyRequirements4`. -/
structure CopyRequirements4 where
  crConsecutive : Bool
  crSynchronous : Bool

/-- `Serialize for CopyRequirements4`. -/
def CopyRequirements4.serialize (r : CopyRequirements4) : Except Xdr.Error Bytes :=
  fields [toBytes Xdr.bool r.crConsecutive, toBytes Xdr.bool r.crSynchronous]

/-- `Copy4resok`. -/
structure Copy4resok where
  crResponse : WriteResponse4
  crRequirements : CopyRequirements4

/-- `Serialize for Copy4resok`. -/
def Copy4resok.serialize (r : Copy4resok) : Except Xdr.Error Bytes :=
  fields [r.crResponse.serialize, r.crRequirements.serialize]

/-- `Copy4res`. -/
inductive Copy4res
  | resok4 (r : Copy4resok)

/-- `Serialize for Copy4res`: the variant index and the content. -/
def Copy4res.serialize : Copy4res → Except Xdr.Error Bytes
  | .resok4 r => variant 0 r.serialize

/-- `SeekRes4`. -/
structure SeekRes4 where
  srEof : Bool
  srOffset : UInt64

/-- `Serialize for SeekRes4`. -/
def SeekRes4.serialize (r : SeekRes4) : Except Xdr.Error Bytes :=
  fields [toBytes Xdr.bool r.srEof, toBytes Xdr.u64 r.srOffset]

/-- `Seek4res`. -/
inductive Seek4res
  | resok4 (r : SeekRes4)

/-- `Serialize for Seek4res`: the variant index and the content. -/
def Seek4res.serialize : Seek4res → Except Xdr.Error Bytes
  | .resok4 r => variant 0 r.serialize

/-! ### Result arrays -/

/-- `NfsResOp4`: the result of an operation. -/
inductive NfsResOp4
  | opUndef0
  | opUndef1
  | opUndef2
  | opAccess (r : Access4res)
  | opclose (r : Close4res)
  | opcommit (r : Commit4res)
  | opcreate (r : Create4res)
  | opdelegpurge (r : DelegPurge4res)
  | opdelegreturn (r : DelegReturn4res)
  | opgetattr (r : Getattr4resok)
  | opgetfh (r : GetFh4res)
  | oplink (r : Link4res)
  | oplock (r : Lock4res)
  | oplockt (r : Lockt4res)
  | oplocku (r : Locku4res)
  | oplookup (r : Lookup4res)
  | oplookupp (r : LookupP4res)
  | opnverify (r : Nverify4res)
  | opopen (r : Open4res)
  | opopenattr (r : OpenAttr4res)
  | opopenConfirm (r : OpenConfirm4res)
  | opopenDowngrade (r : OpenDowngrade4res)
  | opputfh (r : PutFh4res)
  | opputpubfh
  | opputrootfh (r : PutRootFh4res)
  | opread (r : Read4res)
  | opreaddir (r : ReadDir4res)
  | opreadlink (r : Readlink4res)
  | opremove (r : Remove4res)
  | oprename (r : Rename4res)
  | oprenew (r : Renew4res)
  | oprestorefh (r : RestoreFh4res)
  | opsavefh (r : SaveFh4res)
  | opSecinfo (r : SecInfo4res)
  | opsetattr (r : SetAttr4res)
  | opsetclientid (r : SetClientId4res)
  | opsetclientidConfirm (r : SetClientIdConfirm4res)
  | opverify (r : Verify4res)
  | opwrite (r : Write4res)
  | opreleaseLockOwner (r : ReleaseLockowner4res)
  | opbindConnToSession (r : BindConnToSession4res)
  | opexchangeId (r : ExchangeId4res)
  | opcreateSession (r : CreateSession4res)
  | opdestroySession (r : DestroySession4res)
  | opfreeStateid (r : FreeStateid4res)
  | opgetdeviceInfo (r : GetDeviceInfo4res)
  | opgetdeviceList (r : GetDeviceList4res)
  | oplayoutCommit (r : LayoutCommit4res)
  | oplayoutGet (r : LayoutGet4res)
  | oplayoutReturn (r : LayoutReturn4res)
  | opsecinfoNoName (r : SecInfo4res)
  | opsequence (r : Sequence4res)
  | optestStateid (r : TestStateid4res)
  | opdestroyClientid (r : DestroyClientId4res)
  | opreclaimComplete (r : ReclaimComplete4res)
  | opallocate (r : Allocate4res)
  | opcopy (r : Copy4res)
  | opseek (r : Seek4res)
  | opError (op : UInt32) (status : NfsStat4)

/-- The number of the operation a result answers: the declared number of its variant, or the
one an `OpError` names. -/
def NfsResOp4.opNum : NfsResOp4 → ℕ
  | .opUndef0 => 0
  | .opUndef1 => 1
  | .opUndef2 => 2
  | .opAccess _ => 3
  | .opclose _ => 4
  | .opcommit _ => 5
  | .opcreate _ => 6
  | .opdelegpurge _ => 7
  | .opdelegreturn _ => 8
  | .opgetattr _ => 9
  | .opgetfh _ => 10
  | .oplink _ => 11
  | .oplock _ => 12
  | .oplockt _ => 13
  | .oplocku _ => 14
  | .oplookup _ => 15
  | .oplookupp _ => 16
  | .opnverify _ => 17
  | .opopen _ => 18
  | .opopenattr _ => 19
  | .opopenConfirm _ => 20
  | .opopenDowngrade _ => 21
  | .opputfh _ => 22
  | .opputpubfh => 23
  | .opputrootfh _ => 24
  | .opread _ => 25
  | .opreaddir _ => 26
  | .opreadlink _ => 27
  | .opremove _ => 28
  | .oprename _ => 29
  | .oprenew _ => 30
  | .oprestorefh _ => 31
  | .opsavefh _ => 32
  | .opSecinfo _ => 33
  | .opsetattr _ => 34
  | .opsetclientid _ => 35
  | .opsetclientidConfirm _ => 36
  | .opverify _ => 37
  | .opwrite _ => 38
  | .opreleaseLockOwner _ => 39
  | .opbindConnToSession _ => 41
  | .opexchangeId _ => 42
  | .opcreateSession _ => 43
  | .opdestroySession _ => 44
  | .opfreeStateid _ => 45
  | .opgetdeviceInfo _ => 47
  | .opgetdeviceList _ => 48
  | .oplayoutCommit _ => 49
  | .oplayoutGet _ => 50
  | .oplayoutReturn _ => 51
  | .opsecinfoNoName _ => 52
  | .opsequence _ => 53
  | .optestStateid _ => 55
  | .opdestroyClientid _ => 57
  | .opreclaimComplete _ => 58
  | .opallocate _ => 59
  | .opcopy _ => 60
  | .opseek _ => 69
  | .opError op _ => op.toNat

/-- What a result carries, as the derived `Serialize for NfsResOp4` writes it after the
index. An `OpError` is skipped by the derived code and never gets there. -/
def NfsResOp4.serializeBody : NfsResOp4 → Except Xdr.Error Bytes
  | .opAccess r => r.serialize
  | .opclose r => r.serialize
  | .opcommit r => r.serialize
  | .opcreate r => r.serialize
  | .opdelegpurge r => r.serialize
  | .opdelegreturn r => r.serialize
  | .opgetattr r => r.serialize
  | .opgetfh r => r.serialize
  | .oplink r => r.serialize
  | .oplock r => r.serialize
  | .oplockt r => r.serialize
  | .oplocku r => r.serialize
  | .oplookup r => r.serialize
  | .oplookupp r => r.serialize
  | .opnverify r => r.serialize
  | .opopen r => r.serialize
  | .opopenattr r => r.serialize
  | .opopenConfirm r => r.serialize
  | .opopenDowngrade r => r.serialize
  | .opputfh r => r.serialize
  | .opputrootfh r => r.serialize
  | .opread r => r.serialize
  | .opreaddir r => r.serialize
  | .opreadlink r => r.serialize
  | .opremove r => r.serialize
  | .oprename r => r.serialize
  | .oprenew r => r.serialize
  | .oprestorefh r => r.serialize
  | .opsavefh r => r.serialize
  | .opSecinfo r => r.serialize
  | .opsetattr r => r.serialize
  | .opsetclientid r => r.serialize
  | .opsetclientidConfirm r => r.serialize
  | .opverify r => r.serialize
  | .opwrite r => r.serialize
  | .opreleaseLockOwner r => r.serialize
  | .opbindConnToSession r => r.serialize
  | .opexchangeId r => r.serialize
  | .opcreateSession r => r.serialize
  | .opdestroySession r => r.serialize
  | .opfreeStateid r => r.serialize
  | .opgetdeviceInfo r => r.serialize
  | .opgetdeviceList r => r.serialize
  | .oplayoutCommit r => r.serialize
  | .oplayoutGet r => r.serialize
  | .oplayoutReturn r => r.serialize
  | .opsecinfoNoName r => r.serialize
  | .opsequence r => r.serialize
  | .optestStateid r => r.serialize
  | .opdestroyClientid r => r.serialize
  | .opreclaimComplete r => r.serialize
  | .opallocate r => r.serialize
  | .opcopy r => r.serialize
  | .opseek r => r.serialize
  | .opUndef0 | .opUndef1 | .opUndef2 | .opputpubfh => .ok []
  | .opError _ _ =>
    .error (.message "the enum variant NfsResOp4::OpError cannot be serialized")

/-- One element of `write_argarray`: an `OpError` as its operation number and status, any
other result by its derived code. -/
def NfsResOp4.serializeElement : NfsResOp4 → Except Xdr.Error Bytes
  | .opError op status => fields [toBytes Xdr.u32 op, serializeStat status]
  | other => variant other.ctorIdx other.serializeBody

/-- `write_argarray`: an empty array is written by `serialize_none`. -/
def writeArgarray (values : List NfsResOp4) : Except Xdr.Error Bytes :=
  if values.isEmpty then .ok (beBytes 4 0)
  else serializeVec NfsResOp4.serializeElement values

/-- `Compound4res`. -/
structure Compound4res where
  status : NfsStat4
  tag : String
  resarray : List NfsResOp4

/-- `Serialize for Compound4res`. -/
def Compound4res.serialize (r : Compound4res) : Except Xdr.Error Bytes :=
  fields [serializeStat r.status, toBytes Xdr.utf8Opaque r.tag, writeArgarray r.resarray]

end NextNfs
