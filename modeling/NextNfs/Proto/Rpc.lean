import NextNfs.Proto.Results

set_option relaxedAutoImplicit false
set_option autoImplicit false

/-!
# RPC messages

This module models the call side of `proto/src/rpc_proto.rs` and the hand-written header
parser `from_bytes` of `proto/src/lib.rs`, and with them what the connection loop of
`nfs/src/lib.rs` and `NFSService::call` of `nfs/src/server/mod.rs` reply to a message. The
question is which transaction id (xid) a reply carries.

## Main definitions

* `NextNfs.OpaqueAuth`, `NextNfs.CallBody`, `NextNfs.RpcCallMsg` — the types.
* `NextNfs.rpcFromBytes` — `from_bytes`: a record parsed as a call.
* `NextNfs.yieldMessage` — what `decode` yields for a complete record.
* `NextNfs.serviceCall`, `NextNfs.replyTo` — the reply to a message.
* `NextNfs.HeaderWellFormed` — the records that start with a call header, as a grammar.

## Main results

* `NextNfs.rpcFromBytes_isOk_iff` — the header parser succeeds on exactly these records.
* `NextNfs.replies_carry_xid_iff` — the message and the reply to it carry the xid of the record
  exactly when the record starts with a call header or its xid is zero.

## Implementation notes

Errors of `from_bytes` are `anyhow` errors, of which only the text is used, so they are their
text. The server behind the service and the RPCSEC_GSS layer are parameters of `replyTo`; of
the latter it matters only that it keeps the xid, which all of `gss.rs` does.
-/

namespace NextNfs

open Wire

/-! ### Types -/

/-- `AuthUnix`: the body of an AUTH_SYS credential. -/
structure AuthUnix where
  stamp : UInt32
  machinename : String
  uid : UInt32
  gid : UInt32
  gids : List UInt32

/-- The codec of `AuthUnix`: its fields in order. -/
def AuthUnix.codec : Codec Xdr.Error AuthUnix :=
  (Xdr.u32.prod (Xdr.string.prod (Xdr.u32.prod (Xdr.u32.prod (Xdr.vec Xdr.u32))))).iso
    (fun (a, b, c, d, e) => ⟨a, b, c, d, e⟩)
    (fun s => (s.stamp, s.machinename, s.uid, s.gid, s.gids)) (fun _ => rfl) (fun _ => rfl)

/-- `RpcSecGssCred`. -/
structure RpcSecGssCred where
  version : UInt32
  gssProc : UInt32
  seqNum : UInt32
  service : UInt32
  handle : Bytes

/-- `RpcSecGssCred::parse`: five words and a handle of the length the last one gives. -/
def RpcSecGssCred.parse (body : Bytes) : Option RpcSecGssCred := do
  let version ← wordAt body 4 0
  let gssProc ← wordAt body 4 4
  let seqNum ← wordAt body 4 8
  let service ← wordAt body 4 12
  let len ← wordAt body 4 16
  if 20 + len > body.length then none
  else pure ⟨UInt32.ofNat version, UInt32.ofNat gssProc, UInt32.ofNat seqNum,
    UInt32.ofNat service, (body.drop 20).take len⟩

/-- `GssCallData`: the raw parts of an RPCSEC_GSS call. -/
structure GssCallData where
  header : Bytes
  args : Bytes

/-- `OpaqueAuth`: a credential or verifier. -/
inductive OpaqueAuth
  | authNull (body : Bytes)
  | authUnix (auth : AuthUnix)
  | authShort
  | authDes
  | authGss (cred : RpcSecGssCred)
  | gssVerf (token : Bytes)

/-- Whether a credential is one of RPCSEC_GSS. -/
def OpaqueAuth.isGss : OpaqueAuth → Bool
  | .authGss _ => true
  | _ => false

/-- `CallBody`. -/
structure CallBody where
  rpcvers : UInt32
  prog : UInt32
  vers : UInt32
  proc : UInt32
  cred : OpaqueAuth
  verf : OpaqueAuth
  args : Option Compound4args
  gss : Option GssCallData

/-- `AcceptBody`. -/
inductive AcceptBody
  | success (res : Compound4res)
  | progUnavail
  | progMismatch (low high : UInt32)
  | procUnavail
  | garbageArgs
  | successRaw (bytes : Bytes)

/-- `AuthStat`. -/
inductive AuthStat
  | undefAuthCred | authBadCred | authRejectedCred | authBadverf | authRejectedverf
  | authTooWeak | rpcsecGssCredProblem | rpcsecGssCtxProblem

/-- `RejectedReply`. -/
inductive RejectedReply
  | rpcMismatch (low high : UInt32)
  | authError (stat : AuthStat)

/-- `ReplyBody`. -/
inductive ReplyBody
  | msgAccepted (verf : OpaqueAuth) (replyData : AcceptBody)
  | msgDenied (reply : RejectedReply)

/-- `MsgType`: what a message is. -/
inductive MsgType
  | call (body : CallBody)
  | reply (body : ReplyBody)
  | parseError (reason : String)

/-- `RpcCallMsg`. -/
structure RpcCallMsg where
  xid : UInt32
  body : MsgType

/-- `RpcReplyMsg`. Its body is always a reply. -/
structure RpcReplyMsg where
  xid : UInt32
  body : ReplyBody

/-! ### The header parser -/

/-- The text of the error of `read_exact` on input that is too short. -/
def shortRead : String := "failed to fill whole buffer"

/-- `read_u32` of `from_bytes`. -/
def readU32 : Reader String UInt32 := do
  let bs ← Reader.take shortRead 4
  pure (UInt32.ofNat (ofBytes bs))

/-- `read_opaque` of `from_bytes`: the length may not exceed what is left in the record. -/
def readOpaque : Reader String Bytes := do
  let bs ← Reader.take shortRead 4
  let len := ofBytes bs
  let data ← fun rest =>
    if len > rest.length then
      .error ("opaque length " ++ toString len ++ " exceeds the " ++ toString rest.length ++
        " bytes left in the record")
    else Reader.take shortRead len rest
  let _ ← Reader.take shortRead (Codec.padding len)
  pure data

/-- How `read_opaque_auth` takes a body of a flavor. -/
def opaqueAuthOf (isCred : Bool) (flavor : UInt32) (body : Bytes) : Except String OpaqueAuth :=
  if flavor = 0 then .ok (.authNull body)
  else if flavor = 1 then
    match Xdr.fromBytes AuthUnix.codec body with
    | .ok auth => .ok (.authUnix auth)
    | .error e => .error e.display
  else if flavor = 6 then
    if isCred then
      match RpcSecGssCred.parse body with
      | some cred => .ok (.authGss cred)
      | none => .error "malformed RPCSEC_GSS credential"
    else .ok (.gssVerf body)
  else .ok (.authNull body)

/-- `read_opaque_auth` of `from_bytes`. -/
def readOpaqueAuth (isCred : Bool) : Reader String OpaqueAuth := do
  let flavor ← readU32
  let body ← readOpaque
  StateT.lift (opaqueAuthOf isCred flavor body)

/-- A parsed call header: its fields, and what was left of the record after the credential and
after the verifier. -/
structure CallHeader where
  xid : UInt32
  rpcvers : UInt32
  prog : UInt32
  vers : UInt32
  proc : UInt32
  cred : OpaqueAuth
  afterCred : Bytes
  verf : OpaqueAuth
  rest : Bytes

/-- The part of `from_bytes` up to the verifier. -/
def readCallHeader (buffer : Bytes) : Except String CallHeader := do
  let (xid, rest) ← readU32 buffer
  let (msgType, rest) ← readU32 rest
  if msgType ≠ 0 then
    .error ("expected CALL (0), got msg_type=" ++ toString msgType.toNat)
  else
    let (rpcvers, rest) ← readU32 rest
    let (prog, rest) ← readU32 rest
    let (vers, rest) ← readU32 rest
    let (proc, rest) ← readU32 rest
    let (cred, afterCred) ← readOpaqueAuth true rest
    let (verf, rest) ← readOpaqueAuth false afterCred
    pure ⟨xid, rpcvers, prog, vers, proc, cred, afterCred, verf, rest⟩

/-- What `from_bytes` makes of a header and the bytes after it. A compound that does not decode
keeps the xid. -/
def callOfHeader (buffer : Bytes) (h : CallHeader) : RpcCallMsg :=
  if h.cred.isGss then
    ⟨h.xid, .call ⟨h.rpcvers, h.prog, h.vers, h.proc, h.cred, h.verf, none,
      some ⟨buffer.take (buffer.length - h.afterCred.length), h.rest⟩⟩⟩
  else if h.proc = 0 ∨ h.prog ≠ 100003 then
    ⟨h.xid, .call ⟨h.rpcvers, h.prog, h.vers, h.proc, h.cred, h.verf, none, none⟩⟩
  else
    match Xdr.fromBytes Compound4args.codec h.rest with
    | .ok compound =>
      ⟨h.xid, .call ⟨h.rpcvers, h.prog, h.vers, h.proc, h.cred, h.verf, some compound, none⟩⟩
    | .error e =>
      ⟨h.xid, .parseError ("prog=" ++ toString h.prog.toNat ++ " vers=" ++
        toString h.vers.toNat ++ " proc=" ++ toString h.proc.toNat ++ ": " ++ e.display)⟩

/-- `from_bytes`: a record parsed as a call. -/
def rpcFromBytes (buffer : Bytes) : Except String RpcCallMsg := do
  let h ← readCallHeader buffer
  pure (callOfHeader buffer h)

/-- The end of `decode`: the message yielded for a complete record. -/
def yieldMessage (messageData : Bytes) : RpcCallMsg :=
  match rpcFromBytes messageData with
  | .ok msg => msg
  | .error e => ⟨0, .parseError e⟩

/-! ### Replies -/

/-- `NFSService::call`, with the NFSv4 server's `null` and `compound` as parameters. -/
def serviceCall (null compound : CallBody → ReplyBody) (msg : RpcCallMsg) : RpcReplyMsg :=
  match msg.body with
  | .call body =>
    if body.prog ≠ 100003 then ⟨msg.xid, .msgAccepted (.authNull []) .progUnavail⟩
    else if body.vers ≠ 4 then ⟨msg.xid, .msgAccepted (.authNull []) (.progMismatch 4 4)⟩
    else if body.cred.isGss then ⟨msg.xid, .msgDenied (.authError .authBadCred)⟩
    else if body.proc = 0 then ⟨msg.xid, null body⟩
    else if body.proc = 1 then ⟨msg.xid, compound body⟩
    else ⟨msg.xid, .msgAccepted (.authNull []) .procUnavail⟩
  | _ => ⟨msg.xid, .msgAccepted (.authNull []) .garbageArgs⟩

/-- `GssCall`: what the RPCSEC_GSS layer does with a call. A call that proceeds comes with the
protection of its reply (`wrap_reply`). -/
inductive GssCall
  | reply (msg : RpcReplyMsg)
  | drop
  | proceed (msg : RpcCallMsg) (wrap : RpcReplyMsg → RpcReplyMsg)

/-- The RPCSEC_GSS layer answers, passes on and wraps under the xid it was given. -/
def KeepsXid (gss : RpcCallMsg → GssCall) : Prop :=
  ∀ msg, match gss msg with
    | .reply reply => reply.xid = msg.xid
    | .drop => True
    | .proceed msg' wrap => msg'.xid = msg.xid ∧ ∀ reply, (wrap reply).xid = reply.xid

/-- One turn of the connection loop: the reply sent to a message, if any. -/
def replyTo (gss : Option (RpcCallMsg → GssCall)) (null compound : CallBody → ReplyBody)
    (msg : RpcCallMsg) : Option RpcReplyMsg :=
  match msg.body with
  | .parseError _ => some ⟨msg.xid, .msgAccepted (.authNull []) .garbageArgs⟩
  | .call body =>
    match body.cred.isGss, gss with
    | true, some handle =>
      match handle msg with
      | .reply reply => some reply
      | .drop => none
      | .proceed msg wrap => some (wrap (serviceCall null compound msg))
    | _, _ => some (serviceCall null compound msg)
  | .reply _ => some (serviceCall null compound msg)

/-- The service replies under the xid of the message. -/
@[simp] lemma serviceCall_xid (null compound : CallBody → ReplyBody) (msg : RpcCallMsg) :
    (serviceCall null compound msg).xid = msg.xid := by
  unfold serviceCall
  split
  · split_ifs <;> rfl
  · rfl

/-- The connection loop replies under the xid of the message. -/
lemma replyTo_xid {gss : Option (RpcCallMsg → GssCall)} {null compound : CallBody → ReplyBody}
    {msg : RpcCallMsg} {reply : RpcReplyMsg} (hgss : ∀ handle ∈ gss, KeepsXid handle)
    (h : replyTo gss null compound msg = some reply) : reply.xid = msg.xid := by
  unfold replyTo at h
  split at h
  · cases h
    rfl
  · split at h
    · rename_i handle _
      have hkeep := hgss handle rfl msg
      split at h <;> rename_i hcall <;> rw [hcall] at hkeep <;> cases h
      · exact hkeep
      · rw [hkeep.2, serviceCall_xid, hkeep.1]
    · cases h
      exact serviceCall_xid null compound msg
  · cases h
    exact serviceCall_xid null compound msg

/-! ### The grammar of call headers -/

/-- `enc` is `body` as XDR opaque data: its length, its bytes, and some padding. -/
def IsOpaque (body enc : Bytes) : Prop :=
  body.length < 256 ^ 4 ∧ ∃ pad : Bytes, pad.length = Codec.padding body.length ∧
    enc = beBytes 4 body.length ++ (body ++ pad)

/-- A credential (or verifier) of a flavor is readable: an AUTH_SYS body decodes, and an
RPCSEC_GSS credential has its five words and its handle. -/
def AuthReadable (isCred : Bool) (flavor : UInt32) (body : Bytes) : Prop :=
  (flavor = 1 → ∃ auth, Xdr.fromBytes AuthUnix.codec body = .ok auth) ∧
    (isCred = true → flavor = 6 → (RpcSecGssCred.parse body).isSome)

/-- A record starts with a call header: an xid, the message type CALL, four words, and a
readable credential and verifier. -/
def HeaderWellFormed (record : Bytes) : Prop :=
  ∃ (xid rpcvers prog vers proc credFlavor verfFlavor : UInt32)
    (cred credEnc verf verfEnc rest : Bytes),
    record = beBytes 4 xid.toNat ++ (beBytes 4 0 ++ (beBytes 4 rpcvers.toNat ++
      (beBytes 4 prog.toNat ++ (beBytes 4 vers.toNat ++ (beBytes 4 proc.toNat ++
        (beBytes 4 credFlavor.toNat ++ (credEnc ++
          (beBytes 4 verfFlavor.toNat ++ (verfEnc ++ rest))))))))) ∧
    IsOpaque cred credEnc ∧ AuthReadable true credFlavor cred ∧
    IsOpaque verf verfEnc ∧ AuthReadable false verfFlavor verf

/-- Reading a word takes it off the front. -/
lemma readU32_eq_ok {bs r : Bytes} {w : UInt32} :
    readU32 bs = .ok (w, r) ↔ bs = beBytes 4 w.toNat ++ r := by
  rw [readU32, Reader.bind_eq_ok]
  constructor
  · rintro ⟨front, r', htake, h⟩
    simp only [Reader.pure_apply, Except.ok.injEq, Prod.mk.injEq] at h
    obtain ⟨rfl, rfl⟩ := h
    obtain ⟨rfl, hlen⟩ := Reader.take_eq_ok.1 htake
    have hlt : ofBytes front < 2 ^ 32 := by
      have := ofBytes_lt front
      rw [hlen] at this
      exact this
    have hfront := beBytes_ofBytes front
    rw [hlen] at hfront
    have hword : (UInt32.ofNat (ofBytes front)).toNat = ofBytes front :=
      UInt32.toNat_ofNat_of_lt hlt
    rw [hword, hfront]
  · rintro rfl
    refine ⟨_, r, Reader.take_append shortRead r (length_beBytes 4 _), ?_⟩
    rw [ofBytes_beBytes w.toNat_lt]
    simp

/-- Reading opaque data takes it off the front. -/
lemma readOpaque_eq_ok {bs r body : Bytes} :
    readOpaque bs = .ok (body, r) ↔ ∃ enc, IsOpaque body enc ∧ bs = enc ++ r := by
  rw [readOpaque, Reader.bind_eq_ok]
  constructor
  · rintro ⟨front, r₁, htake, h⟩
    obtain ⟨data, r₂, hdata, h⟩ := Reader.bind_eq_ok.1 h
    obtain ⟨pad, r₃, hpad, h⟩ := Reader.bind_eq_ok.1 h
    cases h
    obtain ⟨rfl, hfront⟩ := Reader.take_eq_ok.1 htake
    split_ifs at hdata
    obtain ⟨rfl, hlen⟩ := Reader.take_eq_ok.1 hdata
    obtain ⟨rfl, hpadlen⟩ := Reader.take_eq_ok.1 hpad
    have hlt := ofBytes_lt front
    have hword := beBytes_ofBytes front
    rw [hfront, ← hlen] at hword
    rw [hfront, ← hlen] at hlt
    rw [← hlen] at hpadlen
    exact ⟨_, ⟨hlt, pad, hpadlen, rfl⟩, by rw [hword]; simp⟩
  · rintro ⟨enc, ⟨hlt, pad, hpad, rfl⟩, rfl⟩
    refine ⟨beBytes 4 body.length, body ++ pad ++ r, ?_, ?_⟩
    · rw [List.append_assoc]
      exact Reader.take_append shortRead _ (length_beBytes 4 _)
    · rw [ofBytes_beBytes hlt]
      refine Reader.bind_eq_ok.2 ⟨body, pad ++ r, ?_, Reader.bind_eq_ok.2 ⟨pad, r, ?_, rfl⟩⟩
      · rw [if_neg (by simp), List.append_assoc]
        exact Reader.take_append shortRead _ rfl
      · exact Reader.take_append shortRead r hpad

/-- A body is taken exactly when it is readable under its flavor. -/
lemma opaqueAuthOf_isOk_iff (isCred : Bool) (flavor : UInt32) (body : Bytes) :
    (∃ auth, opaqueAuthOf isCred flavor body = .ok auth) ↔ AuthReadable isCred flavor body := by
  unfold opaqueAuthOf AuthReadable
  by_cases h0 : flavor = 0
  · subst h0
    simp
  by_cases h1 : flavor = 1
  · subst h1
    cases hdec : Xdr.fromBytes AuthUnix.codec body with
    | ok auth => simp
    | error e => simp
  by_cases h6 : flavor = 6
  · subst h6
    cases isCred with
    | false => simp
    | true =>
      cases hparse : RpcSecGssCred.parse body with
      | none => simp
      | some cred => simp
  · simp [h0, h1, h6]

/-- Reading a credential or verifier takes it off the front. -/
lemma readOpaqueAuth_eq_ok {isCred : Bool} {bs r : Bytes} {auth : OpaqueAuth} :
    readOpaqueAuth isCred bs = .ok (auth, r) ↔ ∃ (flavor : UInt32) (body enc : Bytes),
      bs = beBytes 4 flavor.toNat ++ (enc ++ r) ∧ IsOpaque body enc ∧
        opaqueAuthOf isCred flavor body = .ok auth := by
  rw [readOpaqueAuth, Reader.bind_eq_ok]
  constructor
  · rintro ⟨flavor, r₁, hflavor, h⟩
    obtain ⟨body, r₂, hbody, h⟩ := Reader.bind_eq_ok.1 h
    obtain ⟨a, ha, h⟩ := except_bind_eq_ok.1 h
    cases h
    obtain ⟨enc, henc, rfl⟩ := readOpaque_eq_ok.1 hbody
    exact ⟨flavor, body, enc, readU32_eq_ok.1 hflavor, henc, ha⟩
  · rintro ⟨flavor, body, enc, rfl, henc, ha⟩
    refine ⟨flavor, enc ++ r, readU32_eq_ok.2 rfl, Reader.bind_eq_ok.2 ⟨body, r, ?_, ?_⟩⟩
    · exact readOpaque_eq_ok.2 ⟨enc, henc, rfl⟩
    · exact except_bind_eq_ok.2 ⟨auth, ha, rfl⟩

/-- A header that was read says how the record starts. -/
lemma readCallHeader_eq_ok {record : Bytes} {h : CallHeader} :
    readCallHeader record = .ok h ↔
      ∃ (credFlavor verfFlavor : UInt32) (cred credEnc verf verfEnc : Bytes),
        record = beBytes 4 h.xid.toNat ++ (beBytes 4 0 ++ (beBytes 4 h.rpcvers.toNat ++
          (beBytes 4 h.prog.toNat ++ (beBytes 4 h.vers.toNat ++ (beBytes 4 h.proc.toNat ++
            (beBytes 4 credFlavor.toNat ++ (credEnc ++ h.afterCred))))))) ∧
        h.afterCred = beBytes 4 verfFlavor.toNat ++ (verfEnc ++ h.rest) ∧
        IsOpaque cred credEnc ∧ opaqueAuthOf true credFlavor cred = .ok h.cred ∧
        IsOpaque verf verfEnc ∧ opaqueAuthOf false verfFlavor verf = .ok h.verf := by
  unfold readCallHeader
  constructor
  · intro hread
    obtain ⟨⟨xid, r₁⟩, h₁, hread⟩ := except_bind_eq_ok.1 hread
    obtain ⟨⟨msgType, r₂⟩, h₂, hread⟩ := except_bind_eq_ok.1 hread
    dsimp only at h₂ hread
    split_ifs at hread with hcall
    have hzero : msgType = 0 := by simpa using hcall
    subst hzero
    obtain ⟨⟨rpcvers, r₃⟩, h₃, hread⟩ := except_bind_eq_ok.1 hread
    obtain ⟨⟨prog, r₄⟩, h₄, hread⟩ := except_bind_eq_ok.1 hread
    obtain ⟨⟨vers, r₅⟩, h₅, hread⟩ := except_bind_eq_ok.1 hread
    obtain ⟨⟨proc, r₆⟩, h₆, hread⟩ := except_bind_eq_ok.1 hread
    obtain ⟨⟨credAuth, afterCred⟩, h₇, hread⟩ := except_bind_eq_ok.1 hread
    obtain ⟨⟨verfAuth, rest⟩, h₈, hread⟩ := except_bind_eq_ok.1 hread
    cases hread
    dsimp only at h₄ h₅ h₆ h₇ h₈ ⊢
    obtain ⟨credFlavor, cred, credEnc, rfl, hcredEnc, hcred⟩ := readOpaqueAuth_eq_ok.1 h₇
    obtain ⟨verfFlavor, verf, verfEnc, hafter, hverfEnc, hverf⟩ := readOpaqueAuth_eq_ok.1 h₈
    refine ⟨credFlavor, verfFlavor, cred, credEnc, verf, verfEnc, ?_, hafter, hcredEnc, hcred,
      hverfEnc, hverf⟩
    rw [readU32_eq_ok.1 h₁, readU32_eq_ok.1 h₂, readU32_eq_ok.1 h₃, readU32_eq_ok.1 h₄,
      readU32_eq_ok.1 h₅, readU32_eq_ok.1 h₆]
    rfl
  · rintro ⟨credFlavor, verfFlavor, cred, credEnc, verf, verfEnc, rfl, hafter, hcredEnc, hcred,
      hverfEnc, hverf⟩
    refine except_bind_eq_ok.2 ⟨(h.xid, _), readU32_eq_ok.2 rfl, ?_⟩
    refine except_bind_eq_ok.2 ⟨((0 : UInt32), _), readU32_eq_ok.2 rfl, ?_⟩
    change (if (0 : UInt32) ≠ 0 then _ else _) = _
    rw [if_neg (by simp)]
    refine except_bind_eq_ok.2 ⟨(h.rpcvers, _), readU32_eq_ok.2 rfl, ?_⟩
    refine except_bind_eq_ok.2 ⟨(h.prog, _), readU32_eq_ok.2 rfl, ?_⟩
    refine except_bind_eq_ok.2 ⟨(h.vers, _), readU32_eq_ok.2 rfl, ?_⟩
    refine except_bind_eq_ok.2 ⟨(h.proc, _), readU32_eq_ok.2 rfl, ?_⟩
    refine except_bind_eq_ok.2 ⟨(h.cred, h.afterCred),
      readOpaqueAuth_eq_ok.2 ⟨credFlavor, cred, credEnc, rfl, hcredEnc, hcred⟩, ?_⟩
    exact except_bind_eq_ok.2 ⟨(h.verf, h.rest),
      readOpaqueAuth_eq_ok.2 ⟨verfFlavor, verf, verfEnc, hafter, hverfEnc, hverf⟩, rfl⟩

/-- The header parser succeeds on exactly the records that start with a call header. -/
lemma rpcFromBytes_isOk_iff (record : Bytes) :
    (∃ msg, rpcFromBytes record = .ok msg) ↔ HeaderWellFormed record := by
  constructor
  · rintro ⟨msg, hmsg⟩
    obtain ⟨h, hread, -⟩ := except_bind_eq_ok.1 hmsg
    obtain ⟨credFlavor, verfFlavor, cred, credEnc, verf, verfEnc, hrec, hafter, hcredEnc, hcred,
      hverfEnc, hverf⟩ := readCallHeader_eq_ok.1 hread
    rw [hafter] at hrec
    exact ⟨h.xid, h.rpcvers, h.prog, h.vers, h.proc, credFlavor, verfFlavor, cred, credEnc, verf,
      verfEnc, h.rest, hrec, hcredEnc, (opaqueAuthOf_isOk_iff _ _ _).1 ⟨_, hcred⟩, hverfEnc,
      (opaqueAuthOf_isOk_iff _ _ _).1 ⟨_, hverf⟩⟩
  · rintro ⟨xid, rpcvers, prog, vers, proc, credFlavor, verfFlavor, cred, credEnc, verf, verfEnc,
      rest, hrec, hcredEnc, hcred, hverfEnc, hverf⟩
    obtain ⟨credAuth, hcredAuth⟩ := (opaqueAuthOf_isOk_iff _ _ _).2 hcred
    obtain ⟨verfAuth, hverfAuth⟩ := (opaqueAuthOf_isOk_iff _ _ _).2 hverf
    have hread : readCallHeader record = .ok ⟨xid, rpcvers, prog, vers, proc, credAuth,
        beBytes 4 verfFlavor.toNat ++ (verfEnc ++ rest), verfAuth, rest⟩ :=
      readCallHeader_eq_ok.2 ⟨credFlavor, verfFlavor, cred, credEnc, verf, verfEnc, hrec, rfl,
        hcredEnc, hcredAuth, hverfEnc, hverfAuth⟩
    exact ⟨_, except_bind_eq_ok.2 ⟨_, hread, rfl⟩⟩

/-- Whatever follows the header, the message has the xid of the header. -/
@[simp] lemma callOfHeader_xid (buffer : Bytes) (h : CallHeader) :
    (callOfHeader buffer h).xid = h.xid := by
  unfold callOfHeader
  split_ifs
  · rfl
  · rfl
  · split <;> rfl

/-! ### The xid of replies -/

/-- The first big-endian word of a record. -/
def recordXid (record : Bytes) : UInt32 := UInt32.ofNat (ofBytes (record.take 4))

/-- A record that is parsed gives a message under its first word. -/
lemma rpcFromBytes_xid {record : Bytes} {msg : RpcCallMsg} (h : rpcFromBytes record = .ok msg) :
    msg.xid = recordXid record := by
  obtain ⟨header, hread, hmsg⟩ := except_bind_eq_ok.1 h
  cases hmsg
  obtain ⟨_, _, _, _, _, _, rfl, -⟩ := readCallHeader_eq_ok.1 hread
  rw [callOfHeader_xid, recordXid, List.take_left' (length_beBytes 4 _),
    ofBytes_beBytes header.xid.toNat_lt]
  simp

/-- The message yielded for a record carries its first word, and so does the reply to it,
exactly when the record starts with a call header or its first word is zero.
**Proof sketch.** A record with a call header is parsed, and every way the parser can go on
keeps the xid. Any other record is turned into a parse error under xid 0. -/
theorem replies_carry_xid_iff (gss : Option (RpcCallMsg → GssCall))
    (null compound : CallBody → ReplyBody) (record : Bytes)
    (hgss : ∀ handle ∈ gss, KeepsXid handle) :
    ((yieldMessage record).xid = recordXid record ∧
      ∀ reply, replyTo gss null compound (yieldMessage record) = some reply →
        reply.xid = recordXid record) ↔
      HeaderWellFormed record ∨ recordXid record = 0 := by
  have hreply : (yieldMessage record).xid = recordXid record →
      ∀ reply, replyTo gss null compound (yieldMessage record) = some reply →
        reply.xid = recordXid record :=
    fun hxid reply h => (replyTo_xid hgss h).trans hxid
  rw [and_iff_left_of_imp hreply, ← rpcFromBytes_isOk_iff]
  cases hparse : rpcFromBytes record with
  | ok msg =>
    have hxid : (yieldMessage record).xid = recordXid record := by
      rw [yieldMessage, hparse]
      exact rpcFromBytes_xid hparse
    exact iff_of_true hxid (Or.inl ⟨msg, rfl⟩)
  | error e =>
    rw [yieldMessage, hparse]
    constructor
    · intro h
      exact Or.inr h.symm
    · rintro (⟨msg, hmsg⟩ | hzero)
      · cases hmsg
      · exact hzero.symm

/-- A service that answers every procedure with AUTH_ERROR. -/
def refuseAll : CallBody → ReplyBody := fun _ => .msgDenied (.authError .authTooWeak)

/-- The header of a NULL call with xid 7 and empty AUTH_NONE credential and verifier. -/
def nullCallRecord : Bytes :=
  [0, 0, 0, 7, 0, 0, 0, 0, 0, 0, 0, 2, 0, 1, 134, 163, 0, 0, 0, 4, 0, 0, 0, 0,
   0, 0, 0, 0, 0, 0, 0, 0, 0, 0, 0, 0, 0, 0, 0, 0]

/-- The reply to a NULL call with xid 7 carries xid 7, as its record starts with a call
header. -/
theorem replies_carry_xid_null_call :
    (yieldMessage nullCallRecord).xid = recordXid nullCallRecord ∧
      ∀ reply, replyTo none refuseAll refuseAll (yieldMessage nullCallRecord) = some reply →
        reply.xid = recordXid nullCallRecord := by
  refine (replies_carry_xid_iff none refuseAll refuseAll nullCallRecord (by simp)).2 (Or.inl ?_)
  refine ⟨7, 2, 100003, 4, 0, 0, 0, [], [0, 0, 0, 0], [], [0, 0, 0, 0], [], by decide,
    ⟨by decide, [], rfl, by decide⟩, ⟨by simp, by simp⟩, ⟨by decide, [], rfl, by decide⟩,
    ⟨by simp, by simp⟩⟩

/-- A COMPOUND call with xid 7 whose RPCSEC_GSS credential is empty. -/
def emptyGssCredRecord : Bytes :=
  [0, 0, 0, 7, 0, 0, 0, 0, 0, 0, 0, 2, 0, 1, 134, 163, 0, 0, 0, 4, 0, 0, 0, 1,
   0, 0, 0, 6, 0, 0, 0, 0, 0, 0, 0, 0, 0, 0, 0, 0]

/-- A call whose credential is malformed is answered GARBAGE_ARGS under xid 0, although its
xid, 7, is readable. -/
theorem malformed_credential_loses_xid :
    4 ≤ emptyGssCredRecord.length ∧ recordXid emptyGssCredRecord = 7 ∧
      yieldMessage emptyGssCredRecord = ⟨0, .parseError "malformed RPCSEC_GSS credential"⟩ ∧
      replyTo none refuseAll refuseAll (yieldMessage emptyGssCredRecord) =
        some ⟨0, .msgAccepted (.authNull []) .garbageArgs⟩ ∧
      (yieldMessage emptyGssCredRecord).xid ≠ recordXid emptyGssCredRecord :=
  ⟨by decide, by decide, rfl, rfl, by decide⟩

end NextNfs
