import NextNfs.Lib.Blocks
import NextNfs.Proto.Record

set_option relaxedAutoImplicit false
set_option autoImplicit false

/-!
# RPC replies

This module models the reply side of `proto/src/rpc_proto.rs`: how a reply is serialized, and the
record in which `XDRProtoCodec::encode` of `proto/src/lib.rs` puts it. A record of the server is one
fragment, whose header holds the length of the reply in 31 bits and whether the fragment is the last
one in the bit above.

## Main definitions

* `NextNfs.AcceptBody.serialize`, `NextNfs.OpaqueAuth.serialize`, `NextNfs.RpcReplyMsg.toBytes` —
  the serializers.
* `NextNfs.encode` — `XDRProtoCodec::encode`.
* `NextNfs.fragmentAt` — the fragment at the front of a stream, as record marking defines it.
* `NextNfs.FramedAs` — the record of a reply is one final fragment that holds the reply.

## Main results

* `NextNfs.framedAs_iff_length` — this is so exactly when the reply is shorter than `2 ^ 31` bytes.

## Implementation notes

The header is the sum of the length, cut to 32 bits, and `2 ^ 31`. In `encode` the sum wraps around,
as it does in a release build; a debug build panics where it does, so `FramedAs` asks that it does
not. A message that is not serialized is not sent; the text around the error is left out.
-/

namespace NextNfs

open Wire

open Xdr (toBytes)

/-! ### Serializers -/

/-- `RpcSecGssCred::encode`: the credential body, filled up to a multiple of four. -/
def RpcSecGssCred.encode (cred : RpcSecGssCred) : Bytes :=
  beBytes 4 cred.version.toNat ++ beBytes 4 cred.gssProc.toNat ++ beBytes 4 cred.seqNum.toNat ++
    beBytes 4 cred.service.toNat ++ beBytes 4 cred.handle.length ++ cred.handle ++
    List.replicate (Codec.padding cred.handle.length) 0

/-- The flavor and the body of a credential or verifier. -/
def OpaqueAuth.flavorBody : OpaqueAuth → Except Xdr.Error (UInt32 × Bytes)
  | .authNull data => .ok (0, data)
  | .authUnix auth =>
    match toBytes AuthUnix.codec auth with
    | .ok bytes => .ok (1, bytes)
    | .error e => .error (.message e.display)
  | .authShort => .ok (2, [])
  | .authDes => .ok (3, [])
  | .authGss gss => .ok (6, gss.encode)
  | .gssVerf token => .ok (6, token)

/-- `Serialize for OpaqueAuth`. -/
def OpaqueAuth.serialize (auth : OpaqueAuth) : Except Xdr.Error Bytes := do
  let (flavor, body) ← auth.flavorBody
  fields [toBytes Xdr.u32 flavor, toBytes Xdr.opaqueData body]

/-- `Words`: the words of results that are encoded already. -/
def serializeWords (bytes : Bytes) : Except Xdr.Error Bytes :=
  if bytes.length % 4 ≠ 0 then .error (.message "raw RPC results are not 4-byte aligned")
  else fields ((Blocks.chunks 4 bytes).map fun w => toBytes Xdr.u32 (UInt32.ofNat (ofBytes w)))

/-- `Serialize for AcceptBody`, hand-written: `accept_stat` and its arm. -/
def AcceptBody.serialize : AcceptBody → Except Xdr.Error Bytes
  | .success res => fields [toBytes Xdr.u32 0, res.serialize]
  | .successRaw bytes => fields [toBytes Xdr.u32 0, serializeWords bytes]
  | .progUnavail => fields [toBytes Xdr.u32 1]
  | .progMismatch low high =>
    fields [toBytes Xdr.u32 2, fields [toBytes Xdr.u32 low, toBytes Xdr.u32 high]]
  | .procUnavail => fields [toBytes Xdr.u32 3]
  | .garbageArgs => fields [toBytes Xdr.u32 4]

/-- `Serialize for AuthStat`: its number. -/
def AuthStat.toU32 : AuthStat → UInt32
  | .undefAuthCred => 0
  | .authBadCred => 1
  | .authRejectedCred => 2
  | .authBadverf => 3
  | .authRejectedverf => 4
  | .authTooWeak => 5
  | .rpcsecGssCredProblem => 13
  | .rpcsecGssCtxProblem => 14

/-- `Serialize for RejectedReply`: the variant index and the content. -/
def RejectedReply.serialize : RejectedReply → Except Xdr.Error Bytes
  | .rpcMismatch low high => variant 0 (fields [toBytes Xdr.u32 low, toBytes Xdr.u32 high])
  | .authError stat => variant 1 (toBytes Xdr.u32 stat.toU32)

/-- `Serialize for ReplyBody`: the variant index and the content. -/
def ReplyBody.serialize : ReplyBody → Except Xdr.Error Bytes
  | .msgAccepted verf replyData => variant 0 (fields [verf.serialize, replyData.serialize])
  | .msgDenied reply => variant 1 reply.serialize

/-- `RpcReplyMsg::to_bytes`. The message type of a reply is the second variant. -/
def RpcReplyMsg.toBytes (message : RpcReplyMsg) : Except Xdr.Error Bytes :=
  fields [Xdr.toBytes Xdr.u32 message.xid, variant 1 message.body.serialize]

/-! ### Records -/

/-- The header of a record: the length and the bit of the last fragment. -/
def fragmentHeader (length : ℕ) : UInt32 := UInt32.ofNat length + UInt32.ofNat (2 ^ 31)

/-- `XDRProtoCodec::encode`: the buffer with the record of the message behind it. -/
def encode (message : RpcReplyMsg) (dst : Bytes) : Except Xdr.Error Bytes := do
  let bufferMessage ← message.toBytes
  let bufferHeader := beBytes 4 (fragmentHeader bufferMessage.length).toNat
  pure (dst ++ bufferHeader ++ bufferMessage)

/-- The fragment at the front of a stream, and what follows it: a header, and as many bytes as its
low 31 bits say. -/
def fragmentAt (stream : Bytes) : Option (Part × Bytes) :=
  let header := ofBytes (stream.take 4)
  let length := header % 2 ^ 31
  if stream.length < 4 + length then none
  else some (⟨header.testBit 31, (stream.drop 4).take length⟩, stream.drop (4 + length))

/-- The record of a message is one final fragment that holds `body`, wherever in a stream it stands:
the sum in its header does not overflow, the bit of the last fragment is set, the low 31 bits are
the length, and a reader finds the body and what follows. -/
structure FramedAs (message : RpcReplyMsg) (body : Bytes) : Prop where
  noOverflow : (UInt32.ofNat body.length).toNat + 2 ^ 31 < 2 ^ 32
  isLast : (fragmentHeader body.length).toNat.testBit 31 = true
  length : (fragmentHeader body.length).toNat % 2 ^ 31 = body.length
  parses : ∀ dst rest : Bytes, ∃ record, encode message dst = .ok (dst ++ record) ∧
    fragmentAt (record ++ rest) = some (⟨true, body⟩, rest)

/-- A fragment that `decode` takes is the one of record marking. -/
lemma fragmentAt_of_nextFragment {src rest : Bytes} {fragment : Part}
    (h : nextFragment src = .frame fragment rest) : fragmentAt src = some (fragment, rest) := by
  obtain ⟨-, hlen, rfl, rfl⟩ := nextFragment_eq_frame.1 h
  simp only [fragmentAt]
  rw [if_neg (by omega)]

/-- A header and as many bytes as it says are a fragment. -/
lemma fragmentAt_append {header : ℕ} {data : Bytes} (hlt : header < 256 ^ 4)
    (hlen : header % 2 ^ 31 = data.length) (rest : Bytes) :
    fragmentAt (beBytes 4 header ++ data ++ rest) = some (⟨header.testBit 31, data⟩, rest) := by
  have htake : (beBytes 4 header ++ data ++ rest).take 4 = beBytes 4 header := by
    rw [List.append_assoc, List.take_left' (length_beBytes 4 _)]
  have hdrop : (beBytes 4 header ++ data ++ rest).drop 4 = data ++ rest := by
    rw [List.append_assoc, List.drop_left' (length_beBytes 4 _)]
  simp only [fragmentAt]
  rw [htake, ofBytes_beBytes hlt, hlen, if_neg (by simp), ← List.drop_drop, hdrop,
    List.take_left' rfl, List.drop_left' rfl]

/-- The header of a length below `2 ^ 31`. -/
lemma fragmentHeader_toNat {n : ℕ} (h : n < 2 ^ 31) : (fragmentHeader n).toNat = 2 ^ 31 + n := by
  have hword : n < UInt32.size := h.trans (by decide)
  rw [fragmentHeader, UInt32.toNat_add, UInt32.toNat_ofNat_of_lt' hword,
    UInt32.toNat_ofNat_of_lt' (by decide)]
  omega

/-- The record of a reply is one final fragment that holds the reply exactly when the reply is
shorter than `2 ^ 31` bytes.
**Proof sketch.** The low 31 bits of the header are below `2 ^ 31`, so they can be the length of a
shorter reply only. For such a reply the sum of the header is `2 ^ 31 + n`, without a carry. -/
lemma framedAs_iff_length {message : RpcReplyMsg} {body : Bytes} (h : message.toBytes = .ok body) :
    FramedAs message body ↔ body.length < 2 ^ 31 := by
  constructor
  · intro hframed
    rw [← hframed.length]
    exact Nat.mod_lt _ (by decide)
  · intro hlt
    have hheader := fragmentHeader_toNat hlt
    have hmod : (fragmentHeader body.length).toNat % 2 ^ 31 = body.length := by
      rw [hheader]
      omega
    have hbit : (fragmentHeader body.length).toNat.testBit 31 = true := by
      rw [hheader, Nat.testBit_two_pow_add_eq, Nat.testBit_lt_two_pow hlt]
      rfl
    refine ⟨?_, hbit, hmod, fun dst rest => ?_⟩
    · rw [UInt32.toNat_ofNat_of_lt' (hlt.trans (by decide))]
      omega
    · refine ⟨beBytes 4 (fragmentHeader body.length).toNat ++ body, ?_, ?_⟩
      · rw [encode, h, except_ok_bind, ← List.append_assoc]
        rfl
      · rw [fragmentAt_append (UInt32.toNat_lt _) hmod, hbit]

end NextNfs
