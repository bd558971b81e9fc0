import NextNfs.Server.GssReplies

set_option relaxedAutoImplicit false
set_option autoImplicit false

/-!
# An RPCSEC_GSS client

This module models the client in `tests/krb5-interop/src/main.rs`, which makes a context, uses it
and ends it, and puts it together with the server: its calls are among those of any other clients.

## Main definitions

* `NextNfs.Gss.ClientContext`, `NextNfs.Gss.Speaks` — the context of the client's GSS-API library,
  and what it means that its key is that of the server.
* `NextNfs.Gss.dataCall`, `NextNfs.Gss.readReply` — `data_call`, which sends a call and reads the
  reply.
* `NextNfs.Gss.establishCall`, `NextNfs.Gss.readEstablished` — `establish`.

## Main results

* `NextNfs.Gss.data_call_outcome` — what becomes of a client's call, in every run.

## Implementation notes

The GSS-API library is the system's: its functions are parameters, and fail as they like. A call of
the client fails as a whole where the source ends the process.
-/

namespace NextNfs.Gss

open Wire Dialogue
open Krb5 (Primitives)

/-! ### Messages of the client -/

/-- `put_u32`, of one word after another. -/
def words (ws : List UInt32) : Bytes := (ws.map fun w => beBytes 4 w.toNat).flatten

/-- `call_header`. -/
def callHeader (xid proc flavor : UInt32) (cred : Bytes) : Bytes :=
  words [xid, 0, 2, 100003, 4, proc, flavor] ++ putOpaque cred

/-- `gss_cred`. -/
def gssCred (gssProc seq service : UInt32) (handle : Bytes) : Bytes :=
  words [1, gssProc, seq, service] ++ putOpaque handle

/-- `get_u32`. -/
def getU32 (b : Bytes) : Option (UInt32 × Bytes) :=
  if b.length < 4 then none else some (UInt32.ofNat (ofBytes (b.take 4)), b.drop 4)

/-- `Reply`. -/
structure ClientReply where
  verfFlavor : UInt32
  verf : Bytes
  results : Bytes

/-- `parse_reply`: only a reply to the call that was accepted and carried out. -/
def parseReply (r : Bytes) (xid : UInt32) : Option ClientReply := do
  let (xid', r) ← getU32 r
  let (msgType, r) ← getU32 r
  if xid' ≠ xid ∨ msgType ≠ 1 then none
  else
    let (denied, r) ← getU32 r
    if denied ≠ 0 then none
    else
      let (verfFlavor, r) ← getU32 r
      let (verf, r) ← takeOpaque r
      let (stat, r) ← getU32 r
      if stat ≠ 0 then none else pure ⟨verfFlavor, verf, r⟩

/-- An established context of the GSS-API library: `gss_get_mic`, `gss_verify_mic`, `gss_wrap` with
confidentiality, and `gss_unwrap` with whether the message was confidential. -/
structure ClientContext where
  getMic : Bytes → Option Bytes
  verifyMic : Bytes → Bytes → Bool
  wrap : Bytes → Option Bytes
  unwrap : Bytes → Option (Bytes × Bool)

variable (L : ClientContext)

/-- `data_call` up to the reply, under the next xid and the next sequence number. Service 0 with
nothing to call ends the context. -/
def dataCall (handle : Bytes) (service proc : UInt32) (args : Bytes) (xid seq : UInt32) :
    Option Bytes := do
  let gssProc := if proc = 0 ∧ args = [] ∧ service = 0 then 3 else 0
  let service := if service = 0 then 1 else service
  let header := callHeader xid proc 6 (gssCred gssProc seq service handle)
  let mic ← L.getMic header
  let front := header ++ (words [6] ++ putOpaque mic)
  let body := words [seq] ++ args
  if service = 1 then pure (front ++ args)
  else if service = 2 then do
    let cksum ← L.getMic body
    pure (front ++ (putOpaque body ++ putOpaque cksum))
  else do
    let tok ← L.wrap body
    pure (front ++ putOpaque tok)

/-- `data_call` from the reply on. -/
def readReply (service proc : UInt32) (args : Bytes) (xid seq : UInt32) (r : Bytes) :
    Option Bytes := do
  let gssProc := if proc = 0 ∧ args = [] ∧ service = 0 then 3 else 0
  let service := if service = 0 then 1 else service
  let reply ← parseReply r xid
  if reply.verfFlavor ≠ 6 ∨ L.verifyMic (words [seq]) reply.verf = false then none
  else if gssProc = 3 then pure []
  else if service = 1 then pure reply.results
  else do
    let body ←
      if service = 2 then do
        let (body, rest) ← takeOpaque reply.results
        let (cksum, _) ← takeOpaque rest
        if L.verifyMic body cksum then pure body else none
      else do
        let (tok, _) ← takeOpaque reply.results
        let (body, confidential) ← L.unwrap tok
        if confidential then pure body else none
    if body.take 4 = words [seq] then pure (body.drop 4) else none

/-- `establish`, up to the reply: a call with the token of `gss_init_sec_context`. -/
def establishCall (token : Bytes) (xid : UInt32) : Bytes :=
  callHeader xid 0 6 (gssCred 1 0 1 []) ++ (words [0, 0] ++ putOpaque token)

/-- What the reply to it says: the handle, the window and the token of the acceptor. -/
structure Established where
  handle : Bytes
  window : UInt32
  token : Bytes

/-- `establish` from the reply on, with what `gss_init_sec_context` makes of the token. -/
def readEstablished (finish : Bytes → Option ClientContext) (xid : UInt32) (r : Bytes) :
    Option (Established × ClientContext) := do
  let reply ← parseReply r xid
  let (handle, r) ← takeOpaque reply.results
  let (major, r) ← getU32 r
  let (_, r) ← getU32 r
  let (window, r) ← getU32 r
  let (token, _) ← takeOpaque r
  if major ≠ 0 then none
  else
    let L ← finish token
    if reply.verfFlavor ≠ 6 ∨ L.verifyMic (words [window]) reply.verf = false then none
    else pure (⟨handle, window, token⟩, L)

/-- The context of the client has the key: each side takes the tokens of the other. -/
structure Speaks (P : Primitives) (key : Krb5.ContextKey) (L : ClientContext) : Prop where
  getMic : ∀ message token, L.getMic message = some token →
    (key.verifyMic P .initiator message token).isOk = true
  wrap : ∀ message token, L.wrap message = some token →
    ∃ seq, key.unwrap P .initiator token = .ok (message, true, seq)
  verifyMic : ∀ seq message token, key.getMic P .acceptor seq message = .ok token →
    L.verifyMic message token = true
  unwrap : ∀ random seq message token, key.wrap P random .acceptor seq true message = .ok token →
    L.unwrap token = some (message, true)

/-- A library with a key, which numbers all its tokens alike and has some random bytes. -/
def ClientContext.ofKey (P : Primitives) (key : Krb5.ContextKey) (seq : UInt64) (random : Krb5.Block) :
    ClientContext where
  getMic message := (key.getMic P .initiator seq message).toOption
  verifyMic message token := (key.verifyMic P .acceptor message token).isOk
  wrap message := (key.wrap P (.ok random) .initiator seq true message).toOption
  unwrap token := (key.unwrap P .acceptor token).toOption.map fun r => (r.1, r.2.1)

lemma eq_ok_of_toOption {ε α : Type} {x : Except ε α} {a : α} (h : x.toOption = some a) : x = .ok a := by
  cases x with
  | error e => cases h
  | ok b =>
    cases h
    rfl

/-- The length of a checksum. -/
lemma length_getMic_eq {P : Primitives} {key : Krb5.ContextKey} {sender : Krb5.Sender} {seq : UInt64}
    {body mic : Bytes} (hmic : key.getMic P sender seq body = .ok mic) :
    mic.length = 16 + key.enctype.hmacLen := by
  obtain ⟨cksum, hcksum, hlen⟩ := Krb5.exists_checksum P key.enctype key.key sender.signUsage
    (Krb5.length_of_getMic hmic) [body, Krb5.micHeader (key.flags sender) seq]
  rw [Krb5.ContextKey.getMic, hcksum] at hmic
  cases hmic
  rw [List.length_append, hlen, Krb5.length_micHeader]

/-- It speaks with the other side. -/
lemma speaks_ofKey (P : Primitives) (key : Krb5.ContextKey) (seq : UInt64) (random : Krb5.Block) :
    Speaks P key (.ofKey P key seq random) := by
  constructor
  · intro message token h
    have hmic := eq_ok_of_toOption h
    obtain ⟨token', hmic', hverify⟩ :=
      Krb5.verifyMic_getMic P key .initiator seq message (Krb5.length_of_getMic hmic)
    cases hmic.symm.trans hmic'
    rw [hverify]
    rfl
  · intro message token h
    exact ⟨seq, (Krb5.opens_of_wrap (eq_ok_of_toOption h)).1⟩
  · intro seq' message token hmic
    obtain ⟨token', hmic', hverify⟩ :=
      Krb5.verifyMic_getMic P key .acceptor seq' message (Krb5.length_of_getMic hmic)
    cases hmic.symm.trans hmic'
    show (key.verifyMic P .acceptor message token).isOk = true
    rw [hverify]
    rfl
  · intro random' seq' message token hwrap
    show (key.unwrap P .acceptor token).toOption.map _ = _
    rw [(Krb5.opens_of_wrap hwrap).1]
    rfl

/-! ### What the server reads of a call -/

section Calls

variable {L} {handle args record : Bytes} {service proc xid seq : UInt32}

@[simp] lemma length_words (ws : List UInt32) : (words ws).length = 4 * ws.length := by
  induction ws with
  | nil => rfl
  | cons w ws ih =>
    have hcons : words (w :: ws) = beBytes 4 w.toNat ++ words ws := rfl
    rw [hcons, List.length_append, ih, length_beBytes, List.length_cons]
    omega

/-- The parts of a call: a header, a checksum of it, and protected arguments. -/
structure CallParts (L : ClientContext) (gssProc service : UInt32) (handle : Bytes)
    (proc : UInt32) (args : Bytes) (xid seq : UInt32) (record : Bytes) : Prop where
  split : ∃ mic raw, L.getMic (callHeader xid proc 6 (gssCred gssProc seq service handle)) = some mic ∧
    record = callHeader xid proc 6 (gssCred gssProc seq service handle) ++
      (words [6] ++ putOpaque mic) ++ raw ∧
    (service = 1 → raw = args) ∧
    (service = 2 → ∃ cksum, L.getMic (words [seq] ++ args) = some cksum ∧
      raw = putOpaque (words [seq] ++ args) ++ putOpaque cksum) ∧
    (service = 3 → ∃ tok, L.wrap (words [seq] ++ args) = some tok ∧ raw = putOpaque tok)

/-- A call under a service. -/
lemma callParts_of_dataCall (hservice : service ≠ 0)
    (h : dataCall L handle service proc args xid seq = some record) :
    CallParts L 0 service handle proc args xid seq record := by
  unfold dataCall at h
  simp only [hservice, and_false, if_false] at h
  obtain ⟨mic, hmic, h⟩ := Option.bind_eq_some_iff.1 h
  split_ifs at h with hone htwo
  · cases h
    refine ⟨mic, args, hmic, rfl, fun _ => rfl, fun htwo => ?_, fun hthree => ?_⟩
    · exact absurd (hone.symm.trans htwo) (by decide)
    · exact absurd (hone.symm.trans hthree) (by decide)
  · obtain ⟨cksum, hcksum, h⟩ := Option.bind_eq_some_iff.1 h
    cases h
    refine ⟨mic, _, hmic, rfl, fun h => absurd h hone, fun _ => ⟨cksum, hcksum, rfl⟩, fun hthree => ?_⟩
    exact absurd (htwo.symm.trans hthree) (by decide)
  · obtain ⟨tok, htok, h⟩ := Option.bind_eq_some_iff.1 h
    cases h
    exact ⟨mic, _, hmic, rfl, fun h => absurd h hone, fun h => absurd h htwo,
      fun _ => ⟨tok, htok, rfl⟩⟩

lemma wordAt_append (pre post : Bytes) {n : ℕ} (hn : n < 2 ^ 32) :
    wordAt (pre ++ (beBytes 4 n ++ post)) 4 pre.length = some n := by
  have hlen : ¬ pre.length + 4 > (pre ++ (beBytes 4 n ++ post)).length := by
    simp only [List.length_append, length_beBytes]
    omega
  rw [wordAt, if_neg hlen, List.drop_left, List.take_left' (length_beBytes 4 n), ofBytes_beBytes hn]

/-- The server reads the credential of a client. -/
lemma parse_gssCred (gssProc seq service : UInt32) {handle : Bytes} (hlen : handle.length < 2 ^ 32) :
    RpcSecGssCred.parse (gssCred gssProc seq service handle) =
      some ⟨1, gssProc, seq, service, handle⟩ := by
  have hbody : gssCred gssProc seq service handle = words [1, gssProc, seq, service] ++
      (beBytes 4 handle.length ++ (handle ++
        List.replicate (Codec.padding handle.length) 0)) := by
    rw [gssCred, putOpaque, List.append_assoc]
  have hword : ∀ (pre : List UInt32) (w : UInt32) (post : List UInt32),
      [1, gssProc, seq, service] = pre ++ w :: post →
        wordAt (gssCred gssProc seq service handle) 4 (4 * pre.length) = some w.toNat := by
    intro pre w post hsplit
    have happend := wordAt_append (words pre) (words post ++ putOpaque handle) w.toNat_lt
    rw [length_words] at happend
    rw [gssCred, hsplit]
    simpa [words] using happend
  have hhandle : wordAt (gssCred gssProc seq service handle) 4 16 = some handle.length := by
    have happend := wordAt_append (words [1, gssProc, seq, service])
      (handle ++ List.replicate (Codec.padding handle.length) 0) hlen
    rw [hbody]
    exact happend
  have htake : ((gssCred gssProc seq service handle).drop 20).take handle.length = handle := by
    rw [hbody, ← List.append_assoc, List.drop_left' (by simp), List.take_left]
  have hfits : ¬ 20 + handle.length > (gssCred gssProc seq service handle).length := by
    rw [hbody]
    simp only [List.length_append, length_words, length_beBytes, List.length_cons, List.length_nil]
    omega
  unfold RpcSecGssCred.parse
  rw [show wordAt (gssCred gssProc seq service handle) 4 0 = _ from hword [] 1 _ rfl,
    show wordAt (gssCred gssProc seq service handle) 4 4 = _ from hword [1] gssProc _ rfl,
    show wordAt (gssCred gssProc seq service handle) 4 8 = _ from hword [1, gssProc] seq _ rfl,
    show wordAt (gssCred gssProc seq service handle) 4 12 = _ from
      hword [1, gssProc, seq] service _ rfl, hhandle]
  simp only [Option.bind_eq_bind, Option.bind_some, if_neg hfits, htake, UInt32.ofNat_toNat]
  rfl

lemma isOpaque_putOpaque {data : Bytes} (h : data.length < 2 ^ 32) : IsOpaque data (putOpaque data) :=
  ⟨h, List.replicate (Codec.padding data.length) 0, by simp, by rw [putOpaque, List.append_assoc]⟩

/-- A message of a client: a header, and a verifier with the rest behind it. -/
def message (gssProc seq service proc xid verfFlavor : UInt32) (handle verf raw : Bytes) : Bytes :=
  callHeader xid proc 6 (gssCred gssProc seq service handle) ++
    (words [verfFlavor] ++ putOpaque verf) ++ raw

/-- The server reads the header of a message of a client. -/
lemma readCallHeader_message (gssProc : UInt32) {verfFlavor : UInt32} {handle verf raw : Bytes}
    {auth : OpaqueAuth} (hauth : opaqueAuthOf false verfFlavor verf = .ok auth)
    (hlen : (message gssProc seq service proc xid verfFlavor handle verf raw).length < 2 ^ 32) :
    readCallHeader (message gssProc seq service proc xid verfFlavor handle verf raw) =
      .ok ⟨xid, 2, 100003, 4, proc, .authGss ⟨1, gssProc, seq, service, handle⟩,
        words [verfFlavor] ++ putOpaque verf ++ raw, auth, raw⟩ := by
  have hcred : (gssCred gssProc seq service handle).length < 2 ^ 32 := by
    simp only [message, callHeader, List.length_append, length_putOpaque] at hlen
    omega
  have hhandle : handle.length < 2 ^ 32 := by
    simp only [gssCred, List.length_append, length_putOpaque] at hcred
    omega
  have hverf : verf.length < 2 ^ 32 := by
    simp only [message, List.length_append, length_putOpaque] at hlen
    omega
  refine readCallHeader_eq_ok.2 ⟨6, verfFlavor, gssCred gssProc seq service handle, _, verf, _, ?_, ?_,
    isOpaque_putOpaque hcred, ?_, isOpaque_putOpaque hverf, hauth⟩
  · simp [message, callHeader, words, List.append_assoc]
  · simp [words, List.append_assoc]
  · simp only [opaqueAuthOf, parse_gssCred gssProc seq service hhandle]
    rfl

/-- What the server has of a message of a client. -/
lemma yieldMessage_message (gssProc : UInt32) {verfFlavor : UInt32} {handle verf raw : Bytes}
    {auth : OpaqueAuth} (hauth : opaqueAuthOf false verfFlavor verf = .ok auth)
    (hlen : (message gssProc seq service proc xid verfFlavor handle verf raw).length < 2 ^ 32) :
    yieldMessage (message gssProc seq service proc xid verfFlavor handle verf raw) =
      ⟨xid, .call ⟨2, 100003, 4, proc, .authGss ⟨1, gssProc, seq, service, handle⟩, auth, none,
        some ⟨callHeader xid proc 6 (gssCred gssProc seq service handle), raw⟩⟩⟩ := by
  have hread := readCallHeader_message gssProc hauth hlen
  have hheader : (message gssProc seq service proc xid verfFlavor handle verf raw).take
      ((message gssProc seq service proc xid verfFlavor handle verf raw).length -
        (words [verfFlavor] ++ putOpaque verf ++ raw).length) =
      callHeader xid proc 6 (gssCred gssProc seq service handle) := by
    rw [message, List.append_assoc, List.length_append, Nat.add_sub_cancel, List.take_left]
  unfold yieldMessage rpcFromBytes
  rw [hread, except_ok_bind]
  simp only [callOfHeader, OpaqueAuth.isGss, if_true]
  rw [hheader]
  rfl

/-! ### What becomes of a call -/

/-- The arguments that the server has of a call: those of a COMPOUND are decoded. -/
def Carries (proc : UInt32) (args : Bytes) (compound : Option Compound4args) : Prop :=
  if proc = 1 then ∃ a, Xdr.fromBytes Compound4args.codec args = .ok a ∧ compound = some a
  else compound = none

/-- The call that is carried out in a context: the header of the client, its arguments, and the
identity of the context. -/
def carriedOut (ctx : GssContext) (proc xid : UInt32) (verf : OpaqueAuth)
    (compound : Option Compound4args) : RpcCallMsg :=
  ⟨xid, .call ⟨2, 100003, 4, proc, ctx.cred, verf, compound, none⟩⟩

/-- What is asked for a call, and what becomes of it: there is no context under the handle, the
context has expired, its window refuses the sequence number, or the call is carried out. -/
inductive DataOutcome (handle : Bytes) (service proc xid seq : UInt32)
    (compound : Option Compound4args) : List Event → GssCall → Prop
  | unknown : DataOutcome handle service proc xid seq compound [⟨.get handle, none⟩]
      (.reply (denied xid .rpcsecGssCredProblem))
  | expired (ctx : GssContext) (now : ℤ) : ctx.expires < now →
      DataOutcome handle service proc xid seq compound
        [⟨.get handle, some ctx⟩, ⟨.now, now⟩, ⟨.remove handle, ()⟩]
        (.reply (denied xid .rpcsecGssCtxProblem))
  | refused (ctx : GssContext) (now : ℤ) : now ≤ ctx.expires →
      DataOutcome handle service proc xid seq compound
        [⟨.get handle, some ctx⟩, ⟨.now, now⟩, ⟨.accept ctx seq, false⟩] .drop
  | proceeds (ctx : GssContext) (now : ℤ) (verf : OpaqueAuth) (flavor : Dispatcher.SecFlavor) :
      now ≤ ctx.expires → flavorOfService service = some flavor →
      DataOutcome handle service proc xid seq compound
        [⟨.get handle, some ctx⟩, ⟨.now, now⟩, ⟨.accept ctx seq, true⟩]
        (.proceed (carriedOut ctx proc xid verf compound) ⟨ctx, seq, service, proc, flavor⟩)

variable {C : Tokens} {P : Primitives} {key : Krb5.ContextKey} {compound : Option Compound4args}

/-- The arguments of a call are opened in a context with the key of the client. -/
lemma openArgs_of_callParts (hL : Speaks P key L) {ctx : GssContext} (hctx : ctx.key = key)
    {raw : Bytes} (hlen : raw.length < 2 ^ 32) (hone : service = 1 → raw = args)
    (htwo : service = 2 → ∃ cksum, L.getMic (words [seq] ++ args) = some cksum ∧
      raw = putOpaque (words [seq] ++ args) ++ putOpaque cksum)
    (hthree : service = 3 → ∃ tok, L.wrap (words [seq] ++ args) = some tok ∧ raw = putOpaque tok)
    (hservice : service = 1 ∨ service = 2 ∨ service = 3) :
    (openArgs (.cfx P) ctx service raw).bind (stripSeq service seq) = some args := by
  have hstrip : stripSeq service seq (if service = 1 then args else words [seq] ++ args) =
      some args := by
    unfold stripSeq
    split_ifs with h₁ h₂
    · rfl
    · rw [List.drop_left' (by simp)]
    · refine absurd ⟨by simp, ?_⟩ h₂
      have hword : ofBytes (beBytes 4 seq.toNat) = seq.toNat := ofBytes_beBytes seq.toNat_lt
      rw [List.take_left' (by simp)]
      simp [words, hword]
  have hopen : openArgs (.cfx P) ctx service raw =
      some (if service = 1 then args else words [seq] ++ args) := by
    rcases hservice with rfl | rfl | rfl
    · obtain rfl := hone rfl
      rfl
    · obtain ⟨cksum, hcksum, rfl⟩ := htwo rfl
      have hverify := hL.getMic _ _ hcksum
      simp only [List.length_append, length_putOpaque] at hlen
      have hbody : takeOpaque (putOpaque (words [seq] ++ args) ++ putOpaque cksum) = _ :=
        takeOpaque_putOpaque (by simp only [List.length_append]; omega) _
      have hlast : takeOpaque (putOpaque cksum ++ []) = _ := takeOpaque_putOpaque (by omega) []
      rw [List.append_nil] at hlast
      unfold openArgs
      rw [if_neg (by decide), if_pos rfl, hbody]
      simp only [Option.bind_eq_bind, Option.bind_some, hlast, Tokens.cfx, hctx, hverify, if_true]
      rfl
    · obtain ⟨tok, htok, rfl⟩ := hthree rfl
      obtain ⟨n, hunwrap⟩ := hL.wrap _ _ htok
      simp only [length_putOpaque] at hlen
      have htake : takeOpaque (putOpaque tok ++ []) = _ := takeOpaque_putOpaque (by omega) []
      rw [List.append_nil] at htake
      unfold openArgs
      rw [if_neg (by decide), if_neg (by decide), htake]
      simp only [Option.bind_eq_bind, Option.bind_some, Tokens.cfx, hctx, hunwrap]
      rfl
  rw [hopen, Option.bind_some, hstrip]

/-- The arguments of a COMPOUND are decoded. -/
lemma decodeArgs_of_carries {cred verf : OpaqueAuth} (hcarries : Carries proc args compound) :
    decodeArgs ⟨2, 100003, 4, proc, cred, verf, none, none⟩ args =
      some ⟨2, 100003, 4, proc, cred, verf, compound, none⟩ := by
  unfold decodeArgs
  unfold Carries at hcarries
  by_cases hproc : proc = 1
  · rw [if_pos hproc] at hcarries
    obtain ⟨a, ha, rfl⟩ := hcarries
    rw [if_pos ⟨hproc, rfl⟩, ha]
  · rw [if_neg hproc] at hcarries
    rw [if_neg fun h => hproc h.1, hcarries]

/-- A call whose checks hold in every context under its handle has one of four outcomes. -/
lemma data_runs_cases {verf : OpaqueAuth} {raw : GssCallData}
    {flavor : Dispatcher.SecFlavor} {h : List Event} {out : GssCall}
    (hflavor : flavorOfService service = some flavor) (hseq : seq < MAXSEQ)
    (hcarries : Carries proc args compound)
    (hrun : Runs (data C xid ⟨2, 100003, 4, proc, .authGss ⟨1, 0, seq, service, handle⟩, verf, none,
      none⟩ ⟨1, 0, seq, service, handle⟩ raw) h (some out))
    (hchecks : ∀ ctx, (⟨.get handle, some ctx⟩ : Event) ∈ h →
      verified C ctx raw.header verf = true ∧
        (openArgs C ctx service raw.args).bind (stripSeq service seq) = some args) :
    DataOutcome handle service proc xid seq compound h out := by
  unfold data at hrun
  simp only [Prog.bind_eq, query, Prog.query, Prog.ask_bind, Prog.pure_bind, Prog.pure_eq,
    GssContext.mic] at hrun
  cases hrun with
  | @ask _ _ found h _ hrun =>
  cases found with
  | none =>
    cases hrun
    exact .unknown
  | some ctx =>
  obtain ⟨hverified, hopen⟩ := hchecks ctx List.mem_cons_self
  cases hrun with
  | @ask _ _ now h _ hrun =>
  dsimp only at hrun
  by_cases hexpired : ctx.expires < now
  · rw [if_pos hexpired] at hrun
    cases hrun with
    | ask hrun =>
    cases hrun
    exact .expired ctx now hexpired
  rw [if_neg hexpired, if_neg (by rw [hverified]; decide), if_neg (UInt32.not_le.2 hseq)] at hrun
  cases hrun with
  | @ask _ _ new h _ hrun =>
  cases new with
  | false =>
    cases hrun
    exact .refused ctx now (not_lt.1 hexpired)
  | true =>
  dsimp only at hrun
  rw [if_neg (by decide), if_neg (by decide), hflavor] at hrun
  dsimp only at hrun
  rw [hopen, Option.bind_some, decodeArgs_of_carries hcarries] at hrun
  cases hrun
  exact .proceeds ctx now verf flavor (not_lt.1 hexpired) hflavor

/-- A call whose checks hold proceeds if its window lets it pass. -/
lemma data_runs_proceeds {verf : OpaqueAuth} {raw : GssCallData} {flavor : Dispatcher.SecFlavor}
    {ctx : GssContext} {now : ℤ} (hflavor : flavorOfService service = some flavor)
    (hseq : seq < MAXSEQ) (hcarries : Carries proc args compound) (hnow : now ≤ ctx.expires)
    (hverified : verified C ctx raw.header verf = true)
    (hopen : (openArgs C ctx service raw.args).bind (stripSeq service seq) = some args) :
    Runs (data C xid ⟨2, 100003, 4, proc, .authGss ⟨1, 0, seq, service, handle⟩, verf, none, none⟩
      ⟨1, 0, seq, service, handle⟩ raw)
      [⟨.get handle, some ctx⟩, ⟨.now, now⟩, ⟨.accept ctx seq, true⟩]
      (some (.proceed (carriedOut ctx proc xid verf compound) ⟨ctx, seq, service, proc, flavor⟩)) := by
  unfold data
  simp only [Prog.bind_eq, query, Prog.query, Prog.ask_bind, Prog.pure_bind, Prog.pure_eq]
  refine .ask (.ask ?_)
  rw [if_neg (not_lt.2 hnow), if_neg (by rw [hverified]; decide), if_neg (UInt32.not_le.2 hseq)]
  refine .ask ?_
  rw [if_neg (by decide), if_neg (by decide), hflavor]
  dsimp only
  rw [hopen, Option.bind_some, decodeArgs_of_carries hcarries]
  exact .pure _

/-- Along a run the windows know what was let pass. -/
lemma windowsKeep_of_allows {s t : State} {h : List Event} {passed : Set (ℕ × ℕ)}
    (hkeep : WindowsKeep s passed) (hallow : Allows Step s h t) :
    WindowsKeep t (passed ∪ {p | ∃ g ∈ grants h, p = (g.1, g.2.toNat)}) := by
  induction hallow generalizing passed with
  | nil s => simpa [grants] using hkeep
  | @cons s s' t q a h hstep hrest ih =>
    rcases windowsKeep_step hkeep hstep with ⟨hnone, hkeep'⟩ | ⟨n, seq, hsome, -, hkeep'⟩
    · rw [grants, List.filterMap_cons_none hnone]
      exact ih hkeep'
    · have hset : passed ∪ {p | ∃ g ∈ grants (⟨q, a⟩ :: h), p = (g.1, g.2.toNat)} =
          insert (n, seq.toNat) passed ∪ {p | ∃ g ∈ grants h, p = (g.1, g.2.toNat)} := by
        rw [grants, List.filterMap_cons_some hsome]
        ext p
        simp only [Set.mem_union, Set.mem_ofPred_eq, List.mem_cons, exists_eq_or_imp,
          Set.mem_insert_iff]
        tauto
      rw [hset]
      exact ih hkeep'

/-- A window lets a sequence number pass if and only if it is new and less than 128 below all that
it has let pass. -/
def InWindow (before : List Event) (ctx : GssContext) (seq : UInt32) : Prop :=
  ∀ m, (ctx.id, m) ∈ grants before → m ≠ seq ∧ m.toNat < seq.toNat + 128

lemma accept_iff_inWindow {h₁ h₂ : List Event} {t : State} {ctx : GssContext} {b : Bool}
    (hallow : Allows Step .new (h₁ ++ ⟨.accept ctx seq, b⟩ :: h₂) t) :
    b = true ↔ InWindow h₁ ctx seq := by
  obtain ⟨s, hbefore, hafter⟩ := hallow.of_append
  have hkeep := windowsKeep_of_allows windowsKeep_new hbefore
  cases hafter with
  | cons hstep _ =>
  obtain ⟨w, haccept, rfl⟩ := hstep
  rw [(SlidingWindow.accept_keeps (hkeep ctx.id) (SeqWindow.toWindow_accept haccept)).1]
  simp only [SlidingWindow.Admits, Set.empty_union, Set.mem_ofPred_eq, InWindow, Prod.exists,
    Prod.mk.injEq]
  constructor
  · rintro ⟨hnew, hlow⟩ m hm
    refine ⟨?_, hlow _ ⟨_, m, hm, rfl, rfl⟩⟩
    rintro rfl
    exact hnew ⟨_, m, hm, rfl, rfl⟩
  · intro hin
    constructor
    · rintro ⟨n, m, hm, rfl, heq⟩
      exact (hin m hm).1 (UInt32.toNat_inj.1 heq.symm)
    · rintro k ⟨n, m, hm, rfl, rfl⟩
      exact (hin m hm).2

/-- A context that is looked up was put into the table along the run. -/
lemma mem_insertions_of_get {h : List Event} {t : State} {ctx : GssContext}
    (hallow : Allows Step .new h t) (hget : (⟨.get handle, some ctx⟩ : Event) ∈ h) :
    (handle, ctx) ∈ insertions h := by
  obtain ⟨h₁, h₂, rfl⟩ := List.append_of_mem hget
  obtain ⟨u, hbefore, hafter⟩ := hallow.of_append
  cases hafter with
  | cons hstep _ =>
  obtain ⟨hfound, -⟩ := hstep
  rcases mem_contexts_of_allows hbefore (Contexts.mem_of_get hfound.symm) with hnew | hins
  · exact absurd hnew Table.not_mem_empty
  · rw [insertions, List.filterMap_append]
    exact List.mem_append_left _ hins

/-- The server on a call of a client. -/
lemma receive_data {mic raw : Bytes}
    (hlen : (message 0 seq service proc xid 6 handle mic raw).length < 2 ^ 32) :
    receive C (message 0 seq service proc xid 6 handle mic raw) =
      (data C xid ⟨2, 100003, 4, proc, .authGss ⟨1, 0, seq, service, handle⟩, .gssVerf mic, none,
        none⟩ ⟨1, 0, seq, service, handle⟩
        ⟨callHeader xid proc 6 (gssCred 0 seq service handle), raw⟩).bind fun out =>
          .pure (some out) := by
  unfold receive
  rw [@yieldMessage_message _ _ _ _ 0 _ _ _ _ (.gssVerf mic) rfl hlen]
  rfl

end Calls

/-! ### What becomes of a call that makes a context -/

section Establishing

variable {C : Tokens} {token : Bytes} {xid : UInt32} {h : List Event} {reply : RpcReplyMsg}

/-- What is asked for a call that makes a context, and what is replied: the token is refused, there
is no random handle, or the context is in the table under one. -/
inductive InitOutcome (C : Tokens) (token : Bytes) (xid : UInt32) : List Event → RpcReplyMsg → Prop
  | refused (e : Krb5.Error) : InitOutcome C token xid [⟨.acceptToken token, .error e⟩]
      (accepted xid (.authNull []) (.successRaw (initRes [] (majorOf e) 0 [])))
  | noHandle (acc : Krb5.Accepted) (e : Krb5.Error) : InitOutcome C token xid
      [⟨.acceptToken token, .ok acc⟩, ⟨.randomBytes 16, .error e⟩]
      (accepted xid (.authNull []) (.successRaw (initRes [] GSS_S_FAILURE 0 [])))
  | established (acc : Krb5.Accepted) (handle : Bytes) (identity : Identity) (ctx : GssContext)
      (seq : UInt64) : InitOutcome C token xid
      [⟨.acceptToken token, .ok acc⟩, ⟨.randomBytes 16, .ok handle⟩, ⟨.identity acc.client, identity⟩,
        ⟨.newContext acc identity, ctx⟩, ⟨.sendSeq ctx, seq⟩, ⟨.insert handle ctx, ()⟩]
      (accepted xid (.gssVerf ((C.getMic ctx.key .acceptor seq
        (words [SEQ_WINDOW])).toOption.getD []))
        (.successRaw (initRes handle 0 SEQ_WINDOW (acc.outputToken.getD []))))

/-- The server on a call that makes a context. -/
lemma receive_establishCall (hlen : (establishCall token xid).length < 2 ^ 32) :
    receive C (establishCall token xid) =
      (init C xid ⟨2, 100003, 4, 0, .authGss ⟨1, 1, 0, 1, []⟩, .authNull [], none, none⟩
        ⟨1, 1, 0, 1, []⟩ (putOpaque token)).bind fun reply => .pure (some (.reply reply)) := by
  have hmessage : establishCall token xid = message 1 0 1 0 xid 0 [] [] (putOpaque token) := by
    have hnull : putOpaque [] = words [0] := by decide
    simp [establishCall, message, words, hnull, List.append_assoc]
  rw [hmessage] at hlen ⊢
  unfold receive
  rw [@yieldMessage_message _ _ _ _ 1 _ _ _ _ (.authNull []) rfl hlen]
  exact Prog.bind_bind _ _ _

/-- A call that makes a context has one of three outcomes, and each of them is one. -/
lemma init_runs_iff (hlen : token.length < 2 ^ 32) :
    Runs (init C xid ⟨2, 100003, 4, 0, .authGss ⟨1, 1, 0, 1, []⟩, .authNull [], none, none⟩
      ⟨1, 1, 0, 1, []⟩ (putOpaque token)) h (some reply) ↔ InitOutcome C token xid h reply := by
  have htake : takeOpaque (putOpaque token ++ []) = some (token, []) := takeOpaque_putOpaque hlen []
  rw [List.append_nil] at htake
  have hwindow : words [SEQ_WINDOW] = beBytes 4 SEQ_WINDOW.toNat := by simp [words]
  unfold init
  simp only [ne_eq, not_true_eq_false, if_false, htake, Prog.bind_eq, query, Prog.query, Prog.ask_bind,
    Prog.pure_bind, Prog.pure_eq, GssContext.mic, show ((1 : UInt32) = 2) = False from by simp]
  constructor
  · intro hrun
    cases hrun with
    | @ask _ _ acc _ _ hrun =>
    cases acc with
    | error e =>
      cases hrun
      exact .refused e
    | ok acc =>
    cases hrun with
    | @ask _ _ handle _ _ hrun =>
    cases handle with
    | error e =>
      cases hrun
      exact .noHandle acc e
    | ok handle =>
    cases hrun with
    | @ask _ _ identity _ _ hrun =>
    cases hrun with
    | @ask _ _ ctx _ _ hrun =>
    cases hrun with
    | @ask _ _ seq _ _ hrun =>
    cases hrun with
    | ask hrun =>
    cases hrun
    rw [← hwindow]
    exact .established acc handle identity ctx seq
  · rintro (⟨e⟩ | ⟨acc, e⟩ | ⟨acc, handle, identity, ctx, seq⟩)
    · exact .ask (.pure _)
    · exact .ask (.ask (.pure _))
    · rw [hwindow]
      exact .ask (.ask (.ask (.ask (.ask (.ask (.pure _))))))

end Establishing

/-- **A client's call.** In every run of records from any clients, on any connections and in any
order, with contexts made, dropped and ended meanwhile: a call under any of the three services, with
a key that is that of every context under its handle, is carried out as it is, under the identity of
the context, unless there is no such context, it has expired, or its window refuses the sequence
number; and the window refuses only what it let pass already, or what is 128 or more below that.

**Proof sketch.** The server splits the record where the client put it together
(`readCallHeader_message`), and takes the tokens that the client made with the same key. The window
is followed along the run (`windowsKeep_of_allows`). -/
theorem data_call_outcome {ι : Type} [DecidableEq ι] (P : Primitives) {key : Krb5.ContextKey}
    {L : ClientContext} (hL : Speaks P key L) (records : ι → Bytes) (h : List (ι × Event))
    (left : ι → Op (Option GssCall)) (hrun : Serves (.cfx P) records h left) (i : ι)
    {handle args : Bytes} {service proc xid seq : UInt32} {compound : Option Compound4args}
    (hservice : service = 1 ∨ service = 2 ∨ service = 3) (hcarries : Carries proc args compound)
    (hseq : seq < MAXSEQ) (hcall : dataCall L handle service proc args xid seq = some (records i))
    (hlen : (records i).length < 2 ^ 32)
    (hkey : ∀ ctx, (handle, ctx) ∈ insertions (h.map Prod.snd) → ctx.key = key)
    {out : Option GssCall} (hleft : left i = .pure out) :
    (∃ o, out = some o ∧ DataOutcome handle service proc xid seq compound (turns i h) o) ∧
    ∀ h₁ h₂ ctx b, h = h₁ ++ (i, ⟨.accept ctx seq, b⟩) :: h₂ →
      (b = true ↔ InWindow (h₁.map Prod.snd) ctx seq) := by
  obtain ⟨hinterleaves, t, hallow⟩ := hrun
  constructor
  swap
  · intro h₁ h₂ ctx b hsplit
    rw [hsplit, List.map_append, List.map_cons] at hallow
    exact accept_iff_inWindow hallow
  have hne : service ≠ 0 := by
    rcases hservice with rfl | rfl | rfl <;> decide
  obtain ⟨flavor, hflavor⟩ : ∃ flavor, flavorOfService service = some flavor := by
    rcases hservice with rfl | rfl | rfl <;> exact ⟨_, rfl⟩
  obtain ⟨mic, raw, hmic, hrecord, hone, htwo, hthree⟩ := (callParts_of_dataCall hne hcall).split
  have hmessage : records i = message 0 seq service proc xid 6 handle mic raw := hrecord
  have hruns := hinterleaves.runs hleft
  rw [hmessage] at hlen hruns
  rw [receive_data hlen] at hruns
  rcases Runs.of_bind hruns with ⟨o, h₁, h₂, hturns, hdata, hpure⟩ | ⟨hnone, -⟩
  swap
  · cases hnone
  cases hpure
  rw [List.append_nil] at hturns
  refine ⟨o, rfl, ?_⟩
  rw [hturns]
  refine data_runs_cases hflavor hseq hcarries hdata fun ctx hctx => ?_
  have hmem : (⟨.get handle, some ctx⟩ : Event) ∈ h.map Prod.snd := by
    rw [← hturns] at hctx
    exact List.mem_map_of_mem (mem_of_mem_turns hctx)
  have hctxkey : ctx.key = key := hkey ctx (mem_insertions_of_get hallow hmem)
  have hraw : raw.length < 2 ^ 32 := by
    simp only [message, List.length_append] at hlen
    omega
  refine ⟨?_, openArgs_of_callParts hL hctxkey hraw hone htwo hthree hservice⟩
  show ((Tokens.cfx P).verifyMic ctx.key .initiator _ mic).isOk = true
  rw [hctxkey]
  exact hL.getMic _ _ hmic

/-- Some random bytes. -/
def zeroBlock : Krb5.Block := ⟨List.replicate 16 0, rfl⟩

/-- The library of a client. -/
def sampleClient : ClientContext := .ofKey Krb5.samplePrimitives Krb5.sampleKey 0 zeroBlock

/-- A call of it: a COMPOUND without operations, with integrity. -/
lemma exists_sampleDataCall : ∃ record mic cksum,
    dataCall sampleClient [7, 7, 7, 7] 2 1 (List.replicate 12 0) 7 1 = some record ∧
    record.length < 2 ^ 32 ∧
    record = message 0 1 2 1 7 6 [7, 7, 7, 7] mic
      (putOpaque (words [1] ++ List.replicate 12 0) ++ putOpaque cksum) ∧
    sampleClient.getMic (callHeader 7 1 6 (gssCred 0 1 2 [7, 7, 7, 7])) = some mic ∧
    sampleClient.getMic (words [1] ++ List.replicate 12 0) = some cksum := by
  have hgetMic : ∀ body, ∃ mic, sampleClient.getMic body = some mic ∧ mic.length = 28 := by
    intro body
    obtain ⟨mic, hmic, -⟩ := Krb5.verifyMic_getMic Krb5.samplePrimitives Krb5.sampleKey .initiator 0
      body rfl
    refine ⟨mic, ?_, length_getMic_eq hmic⟩
    show (Krb5.sampleKey.getMic Krb5.samplePrimitives .initiator 0 body).toOption = some mic
    rw [hmic]
    rfl
  obtain ⟨mic, hmic, hmicLen⟩ := hgetMic (callHeader 7 1 6 (gssCred 0 1 2 [7, 7, 7, 7]))
  obtain ⟨cksum, hcksum, hcksumLen⟩ := hgetMic (words [1] ++ List.replicate 12 0)
  refine ⟨_, mic, cksum, ?_, ?_, rfl, hmic, hcksum⟩
  · unfold dataCall
    simp only [and_false, if_false, show ¬ ((2 : UInt32) = 0) from by decide,
      show ¬ ((2 : UInt32) = 1) from by decide, if_true, hmic, hcksum, Option.bind_eq_bind,
      Option.bind_some]
    rfl
  · simp [message, callHeader, gssCred, hmicLen, hcksumLen, Codec.padding]

/-- What its server has accepted. -/
def sampleAccepted : Krb5.Accepted := ⟨"a", "s", Krb5.sampleKey, 0, 0, 0, 100, none⟩

/-- What is asked to make the context. -/
def sampleInit : List Event :=
  [⟨.acceptToken [9], .ok sampleAccepted⟩, ⟨.randomBytes 16, .ok [7, 7, 7, 7]⟩, ⟨.identity "a", none⟩,
    ⟨.newContext sampleAccepted none, sampleContext⟩, ⟨.sendSeq sampleContext, (0 : UInt64)⟩,
    ⟨.insert [7, 7, 7, 7] sampleContext, ()⟩]

/-- What is asked for the call. -/
def sampleData : List Event :=
  [⟨.get [7, 7, 7, 7], some sampleContext⟩, ⟨.now, (50 : ℤ)⟩, ⟨.accept sampleContext 1, true⟩]

/-- The server answers so. -/
lemma allows_sample : ∃ s, Allows Step .new (sampleInit ++ sampleData) s := by
  refine ⟨_, .cons rfl (.cons rfl (.cons rfl (.cons ⟨⟨0, rfl⟩, rfl⟩ (.cons ⟨?_, rfl⟩
    (.cons ⟨0, _, .refl _, rfl⟩ (.cons ⟨?_, rfl⟩ (.cons rfl
      (.cons ⟨(SeqWindow.default.accept 1).1, ?_, rfl⟩ (.nil _)))))))))⟩
  · rfl
  · rfl
  · rfl

/-- A client makes a context and calls in it, and the call is carried out. -/
theorem data_call_outcome_sample : ∃ record h left msg info,
    dataCall sampleClient [7, 7, 7, 7] 2 1 (List.replicate 12 0) 7 1 = some record ∧
    Serves (.cfx Krb5.samplePrimitives) (fun b => cond b record (establishCall [9] 6)) h left ∧
    left true = .pure (some (.proceed msg info)) ∧
    (∃ o, some (GssCall.proceed msg info) = some o ∧
      DataOutcome [7, 7, 7, 7] 2 1 7 1 (some ⟨"", 0, []⟩) (turns true h) o) ∧
    ∀ h₁ h₂ ctx b, h = h₁ ++ (true, ⟨.accept ctx 1, b⟩) :: h₂ →
      (b = true ↔ InWindow (h₁.map Prod.snd) ctx 1) := by
  obtain ⟨record, mic, cksum, hcall, hlen, hrecord, hmic, hcksum⟩ := exists_sampleDataCall
  have hspeaks : Speaks Krb5.samplePrimitives Krb5.sampleKey sampleClient := speaks_ofKey _ _ _ _
  have hcarries : Carries 1 (List.replicate 12 0) (some ⟨"", 0, []⟩) := ⟨_, rfl, rfl⟩
  have hseq : (1 : UInt32) < MAXSEQ := by decide
  obtain ⟨reply, hinit⟩ : ∃ reply, Runs (receive (.cfx Krb5.samplePrimitives) (establishCall [9] 6))
      sampleInit (some (some (.reply reply))) := by
    rw [receive_establishCall (by decide)]
    exact ⟨_, ((init_runs_iff (by decide)).2 (.established sampleAccepted [7, 7, 7, 7] none
      sampleContext 0)).bind (.pure _)⟩
  have hverified : verified (.cfx Krb5.samplePrimitives) sampleContext
      (callHeader 7 1 6 (gssCred 0 1 2 [7, 7, 7, 7])) (.gssVerf mic) = true :=
    hspeaks.getMic _ _ hmic
  have hopen : (openArgs (.cfx Krb5.samplePrimitives) sampleContext 2
      (putOpaque (words [1] ++ List.replicate 12 0) ++ putOpaque cksum)).bind (stripSeq 2 1) =
        some (List.replicate 12 0) := by
    refine openArgs_of_callParts hspeaks rfl ?_ (absurd · (by decide))
      (fun _ => ⟨cksum, hcksum, rfl⟩) (absurd · (by decide)) (.inr (.inl rfl))
    rw [hrecord] at hlen
    simp only [message, List.length_append] at hlen ⊢
    omega
  obtain ⟨msg, info, hdata⟩ : ∃ msg info, Runs (receive (.cfx Krb5.samplePrimitives) record) sampleData
      (some (some (.proceed msg info))) := by
    rw [hrecord] at hlen ⊢
    rw [receive_data hlen]
    have hnow : (50 : ℤ) ≤ sampleContext.expires := by decide
    have hrun := @data_runs_proceeds [7, 7, 7, 7] _ 2 1 7 1 _ _ _ ⟨_, _⟩ _ _ _ rfl hseq hcarries hnow
      hverified hopen
    exact ⟨_, _, hrun.bind (.pure _)⟩
  have hfirst := @Runs.interleaves _ _ _ _ _
    (fun b => receive (.cfx Krb5.samplePrimitives) (cond b record (establishCall [9] 6))) false _ _ hinit
  have hboth := hfirst.append (@Runs.interleaves _ _ _ _ _ (Function.update _ false _) true _ _ hdata)
  have hallow : ∃ s, Allows Step .new ((sampleInit.map (fun x => (false, x)) ++
      sampleData.map fun x => (true, x)).map Prod.snd) s := by
    simpa using allows_sample
  have hserves : Serves (.cfx Krb5.samplePrimitives)
    (fun b => cond b record (establishCall [9] 6)) _ _ := And.intro hboth hallow
  refine ⟨record, _, _, _, _, hcall, hserves, rfl, ?_⟩
  refine data_call_outcome Krb5.samplePrimitives hspeaks _ _ _ hserves true (.inr (.inl rfl)) hcarries
    hseq hcall hlen (fun ctx hmem => ?_) rfl
  have hins : insertions (((sampleInit.map fun x => (false, x)) ++
      sampleData.map fun x => (true, x)).map Prod.snd) = [([7, 7, 7, 7], sampleContext)] := rfl
  rw [hins] at hmem
  cases List.mem_singleton.1 hmem
  rfl

/-! ### What the client reads of a reply -/

section Replies

variable {P : Primitives} {key : Krb5.ContextKey} {L : ClientContext} {ctx : GssContext}
  {h : List Event} {body mic : Bytes} {service proc xid seq : UInt32} {args : Bytes}

lemma getU32_append (w : UInt32) (rest : Bytes) :
    getU32 (beBytes 4 w.toNat ++ rest) = some (w, rest) := by
  have hword : ofBytes (beBytes 4 w.toNat) = w.toNat := ofBytes_beBytes w.toNat_lt
  unfold getU32
  rw [if_neg (by simp), List.take_left' (length_beBytes 4 _), List.drop_left' (length_beBytes 4 _),
    hword, UInt32.ofNat_toNat]

/-- A reply of the server that was accepted, as bytes. -/
lemma toBytes_accepted {auth : OpaqueAuth} {flavor : UInt32} {verf : Bytes} {data : AcceptBody}
    {rest : Bytes} (hauth : auth.flavorBody = .ok (flavor, verf)) (hverf : verf.length < 2 ^ 32)
    (hdata : data.serialize = .ok rest) : (accepted xid auth data).toBytes =
      .ok (words [xid, 1, 0, flavor] ++ (putOpaque verf ++ rest)) := by
  have hopaque : Xdr.toBytes Xdr.opaqueData verf = .ok (putOpaque verf) := by
    rw [toBytes_opaqueData hverf, putOpaque, List.append_assoc]
  have hword : ∀ w : UInt32, Xdr.toBytes Xdr.u32 w = .ok (beBytes 4 w.toNat) := fun _ => rfl
  simp only [RpcReplyMsg.toBytes, accepted, ReplyBody.serialize, OpaqueAuth.serialize, hauth,
    except_ok_bind, fields, variant, hopaque, hword, hdata]
  simp only [words, pure, Except.pure, except_ok_bind, List.map_cons, List.map_nil,
    List.flatten_cons, List.flatten_nil, List.append_nil, List.append_assoc]
  rfl

/-- The client reads the status of a reply, and what is behind it. -/
lemma parseReply_accepted {verf : Bytes} (hverf : verf.length < 2 ^ 32) (flavor stat : UInt32)
    (rest : Bytes) :
    parseReply (words [xid, 1, 0, flavor] ++ (putOpaque verf ++ (beBytes 4 stat.toNat ++ rest))) xid =
      if stat ≠ 0 then none else some ⟨flavor, verf, rest⟩ := by
  have hwords : words [xid, 1, 0, flavor] ++ (putOpaque verf ++ (beBytes 4 stat.toNat ++ rest)) =
      beBytes 4 xid.toNat ++ (beBytes 4 (1 : UInt32).toNat ++ (beBytes 4 (0 : UInt32).toNat ++
        (beBytes 4 flavor.toNat ++ (putOpaque verf ++ (beBytes 4 stat.toNat ++ rest))))) := by
    simp [words, List.append_assoc]
  rw [hwords, parseReply]
  simp only [getU32_append, Option.bind_eq_bind, Option.bind_some, takeOpaque_putOpaque hverf]
  simp only [ne_eq, not_true_eq_false, or_self, if_false]
  split_ifs <;> rfl

/-- The checksums of the server are taken by the client. -/
lemma verifyMic_of_mic (hL : Speaks P key L) (hctx : ctx.key = key)
    (hk : key.key.length = key.enctype.keyLen) (hrun : Runs (ctx.mic (.cfx P) body) h (some mic)) :
    L.verifyMic body mic = true ∧ mic.length < 2 ^ 32 ∧ ∃ seq, h = [⟨.sendSeq ctx, seq⟩] := by
  unfold GssContext.mic at hrun
  simp only [Prog.bind_eq, query, Prog.query, Prog.ask_bind, Prog.pure_bind, Prog.pure_eq] at hrun
  cases hrun with
  | @ask _ _ seq _ _ hrun =>
    cases hrun
    obtain ⟨token, hmic, -⟩ := Krb5.verifyMic_getMic P key .acceptor seq body hk
    simp only [Tokens.cfx, hctx, hmic, Except.toOption, Option.getD_some]
    exact ⟨hL.verifyMic seq body token hmic, length_getMic hmic, seq, rfl⟩

/-- What a client gets out of a reply. -/
def Reads (L : ClientContext) (service : UInt32) (body sent : Bytes) : Prop :=
  sent.length % 4 = 0 ∧ ((service = 2 ∧ body.length < 2 ^ 32 ∧ ∃ mic, mic.length < 2 ^ 32 ∧
      sent = putOpaque body ++ putOpaque mic ∧ L.verifyMic body mic = true) ∨
    (service = 3 ∧ ∃ tok, tok.length < 2 ^ 32 ∧ sent = putOpaque tok ∧
      L.unwrap tok = some (body, true)))

/-- What the server protects is opened by the client. -/
lemma reads_of_protect (hL : Speaks P key L) (hk : key.key.length = key.enctype.keyLen)
    {info : GssReply} (hctx : info.ctx.key = key) (hservice : info.service = 2 ∨ info.service = 3)
    (hfits : (if info.service = 2 then body.length
      else 48 + body.length + key.enctype.hmacLen) < 2 ^ 32) {out : Option Bytes}
    (hrun : Runs (protect P info body) h (some out)) :
    (Random h → ∃ sent, out = some sent ∧ Reads L info.service body sent) ∧
      (¬ Random h → out = none) := by
  subst hctx
  have hnone := (protect_runs hk hservice hrun).1
  refine ⟨fun hr => ?_, hnone⟩
  unfold protect at hrun
  rcases hservice with htwo | hthree
  · rw [if_pos htwo, Prog.bind_eq] at hrun
    rcases hrun.of_bind with ⟨mic, h₁, h₂, rfl, hmic, hpure⟩ | ⟨hnone, -⟩
    swap
    · cases hnone
    cases hpure
    obtain ⟨hverify, hlen, -⟩ := verifyMic_of_mic hL rfl hk hmic
    rw [if_pos htwo] at hfits
    refine ⟨_, rfl, ?_, .inl ⟨htwo, hfits, mic, hlen, rfl, hverify⟩⟩
    have h₁ := length_putOpaque_mod body
    have h₂ := length_putOpaque_mod mic
    rw [List.length_append]
    omega
  · have hne : info.service ≠ 2 := by rw [hthree]; decide
    rw [if_neg hne, if_pos hthree] at hrun
    simp only [Prog.bind_eq, query, Prog.query, Prog.ask_bind, Prog.pure_bind, Prog.pure_eq] at hrun
    cases hrun with
    | @ask _ _ seq _ _ hrun =>
    cases hrun with
    | @ask _ _ random _ _ hrun =>
    dsimp only at hrun
    cases hwrap : info.ctx.key.wrap P (asBlock random) .acceptor seq true body with
    | error e =>
      rw [hwrap] at hrun
      cases hrun
      have hblock := hr random (by simp)
      cases hasBlock : asBlock random with
      | error e =>
        rw [hasBlock] at hblock
        cases hblock
      | ok confounder =>
        obtain ⟨tok, htok, -⟩ := Krb5.opens_wrap_sealed P .acceptor seq body hk confounder
        rw [hasBlock, htok] at hwrap
        cases hwrap
    | ok tok =>
      rw [hwrap] at hrun
      cases hrun
      rw [if_neg hne] at hfits
      have hlen := length_wrap_sealed hwrap
      exact ⟨_, rfl, length_putOpaque_mod tok,
        .inr ⟨hthree, tok, by rw [hlen]; exact hfits, rfl, hL.unwrap _ seq body tok hwrap⟩⟩

/-- The client gets the results out of what it reads. -/
lemma readReply_reads (hservice : service = 1 ∨ service = 2 ∨ service = 3) (hproc : proc ≠ 0)
    {r verf sent results : Bytes} (hparse : parseReply r xid = some ⟨6, verf, sent⟩)
    (hverify : L.verifyMic (words [seq]) verf = true) (hone : service = 1 → sent = results)
    (hreads : service ≠ 1 → Reads L service (words [seq] ++ results) sent) :
    readReply L service proc args xid seq r = some results := by
  have hne : service ≠ 0 := by
    rcases hservice with rfl | rfl | rfl <;> decide
  have hbody : (words [seq] ++ results).take 4 = words [seq] ∧
      (words [seq] ++ results).drop 4 = results :=
    ⟨List.take_left' (by simp), List.drop_left' (by simp)⟩
  unfold readReply
  simp only [hparse, Option.bind_eq_bind, Option.bind_some, hproc, false_and, if_false, hne, hverify,
    ne_eq, not_true_eq_false, Bool.true_eq_false, or_self]
  rw [if_neg (by decide)]
  by_cases h₁ : service = 1
  · rw [if_pos h₁, hone h₁]
    rfl
  rw [if_neg h₁]
  rcases (hreads h₁).2 with ⟨rfl, hlen, mic, hmic, rfl, hmicOk⟩ | ⟨rfl, tok, htok, rfl, hunwrap⟩
  · have hlast : takeOpaque (putOpaque mic ++ []) = _ := takeOpaque_putOpaque hmic []
    rw [List.append_nil] at hlast
    rw [if_pos rfl, takeOpaque_putOpaque hlen]
    simp only [Option.bind_some, hlast, hmicOk, if_true, pure, hbody]
  · have hlast : takeOpaque (putOpaque tok ++ []) = _ := takeOpaque_putOpaque htok []
    rw [List.append_nil] at hlast
    rw [if_neg (by decide), hlast]
    simp only [Option.bind_some, hunwrap, if_true, pure, hbody]

end Replies

/-- **The reply to a client's call.** When a COMPOUND that proceeded is answered with results that
encode, the client gets exactly these results out of the reply, under each of the three services, if
there were random bytes to seal them with; otherwise it gets nothing. What is put in an opaque has
to fit a word, if there is a protection.

**Proof sketch.** The reply is taken apart at the places where the server put it together, and the
client takes the tokens that the server made with the same key. -/
theorem reply_reaches_client (P : Primitives) {key : Krb5.ContextKey} {L : ClientContext}
    (hL : Speaks P key L) (hk : key.key.length = key.enctype.keyLen) {ctx : GssContext}
    (hctx : ctx.key = key) {service proc xid seq : UInt32} {flavor : Dispatcher.SecFlavor}
    (hservice : service = 1 ∨ service = 2 ∨ service = 3) (hproc : proc ≠ 0) (args : Bytes)
    {verf : OpaqueAuth} {res : Compound4res} {results : Bytes} (hres : res.serialize = .ok results)
    (hfits : service ≠ 1 → opaqueLength ⟨ctx, seq, service, proc, flavor⟩ results < 2 ^ 32)
    {h : List Event} {reply : RpcReplyMsg}
    (hrun : Runs (wrapReply P (accepted xid verf (.success res))
      ⟨ctx, seq, service, proc, flavor⟩) h (some reply)) :
    ∃ bytes, reply.toBytes = .ok bytes ∧
      (Random h → readReply L service proc args xid seq bytes = some results) ∧
      (¬ Random h → readReply L service proc args xid seq bytes = none) := by
  have hword : words [seq] = beBytes 4 seq.toNat := by simp [words]
  unfold wrapReply accepted at hrun
  dsimp only at hrun
  rw [Prog.bind_eq] at hrun
  rcases hrun.of_bind with ⟨mic, h₁, h₂, rfl, hmic, hrest⟩ | ⟨hnone, -⟩
  swap
  · cases hnone
  clear hrun
  obtain ⟨hverify, hlen, n, rfl⟩ := verifyMic_of_mic hL hctx hk hmic
  rw [← hword] at hverify
  by_cases hone : service = 1
  · rw [if_pos hone] at hrest
    cases hrest
    have hdata : (AcceptBody.success res).serialize = .ok (beBytes 4 (0 : UInt32).toNat ++ results) := by
      change fields [.ok (beBytes 4 0), res.serialize] = _
      rw [hres]
      simp [fields, except_ok_bind, pure, Except.pure]
    have hparse := @parseReply_accepted xid _ hlen 6 0 results
    rw [if_neg (by decide)] at hparse
    refine ⟨_, toBytes_accepted rfl hlen hdata, fun _ => ?_, fun hnot => absurd ?_ hnot⟩
    · exact readReply_reads hservice hproc hparse hverify (fun _ => rfl) fun h => absurd hone h
    · exact random_sendSeq_append.2 random_nil
  · rw [if_neg hone] at hrest
    have hencoded : resultsOf proc (.success res) = .encoded results := by
      simp only [resultsOf, if_neg hproc, hres]
    rw [hencoded] at hrest
    dsimp only at hrest
    rw [Prog.bind_eq] at hrest
    rcases hrest.of_bind with ⟨out, h₃, h₄, rfl, hprotect, hpure⟩ | ⟨hnone, -⟩
    swap
    · cases hnone
    cases hpure
    have hrandom : Random ([⟨.sendSeq ctx, n⟩] ++ (h₃ ++ [])) ↔ Random h₃ := by
      rw [List.append_nil]
      exact random_sendSeq_append
    rw [← hword] at hprotect
    have hfit := hfits hone
    obtain ⟨hsends, hfails⟩ := reads_of_protect hL hk hctx (by simpa [hone] using hservice)
      (by
        simp only [opaqueLength] at hfit
        simp only [List.length_append, length_words, List.length_singleton]
        rw [← hctx]
        split_ifs at hfit ⊢ <;> omega) hprotect
    rw [hrandom]
    by_cases hr : Random h₃
    · obtain ⟨sent, rfl, hwords, hreads⟩ := hsends hr
      have hparse := @parseReply_accepted xid _ hlen 6 0 sent
      rw [if_neg (by decide)] at hparse
      refine ⟨_, toBytes_accepted rfl hlen (serialize_successRaw hwords), fun _ => ?_, fun h => absurd hr h⟩
      exact readReply_reads hservice hproc hparse hverify (fun h => absurd h hone)
        fun _ => ⟨hwords, hreads⟩
    · obtain rfl := hfails hr
      have hdata : AcceptBody.garbageArgs.serialize = .ok (beBytes 4 (4 : UInt32).toNat ++ []) := rfl
      refine ⟨_, toBytes_accepted rfl hlen hdata, fun h => absurd h hr, fun _ => ?_⟩
      have hparse := @parseReply_accepted xid _ hlen 6 4 []
      rw [if_pos (by decide)] at hparse
      unfold readReply
      rw [hparse]
      rfl

/-- The client gets the results of a COMPOUND without operations. -/
theorem reply_reaches_client_sample : ∃ h reply bytes,
    Runs (wrapReply Krb5.samplePrimitives (accepted 7 (.authNull []) (.success ⟨.nfs4Ok, "", []⟩))
      sampleInfo) h (some reply) ∧
    reply.toBytes = .ok bytes ∧ Random h ∧
    readReply sampleClient 2 1 (List.replicate 12 0) 7 5 bytes = some (List.replicate 12 0) := by
  obtain ⟨h, reply, hrun, hrandom⟩ := exists_wrapReply_runs Krb5.samplePrimitives
    (accepted 7 (.authNull []) (.success ⟨.nfs4Ok, "", []⟩)) sampleInfo
  obtain ⟨bytes, hbytes, hreads, -⟩ := reply_reaches_client Krb5.samplePrimitives
    (speaks_ofKey _ Krb5.sampleKey 0 zeroBlock) rfl (show sampleContext.key = _ from rfl)
    (.inr (.inl rfl)) (by decide) (List.replicate 12 0)
    (show Compound4res.serialize ⟨.nfs4Ok, "", []⟩ = .ok (List.replicate 12 0) from rfl)
    (fun _ => by decide) hrun
  exact ⟨h, reply, bytes, hrun, hbytes, hrandom, hreads hrandom⟩

end NextNfs.Gss
