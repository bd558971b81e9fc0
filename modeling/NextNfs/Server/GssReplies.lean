import NextNfs.Proto.ReplySize
import NextNfs.Server.GssAdmission

set_option relaxedAutoImplicit false
set_option autoImplicit false

/-!
# Protected replies

This module models `wrap_reply` of `nfs/src/server/gss.rs`: the reply to a call in an RPCSEC_GSS
context has a checksum of its sequence number as the verifier, and its results are protected as
those of the call were, by a checksum or by encryption.

## Main definitions

* `NextNfs.Gss.Tokens.cfx` — the tokens of `krb5/src/cfx.rs`.
* `NextNfs.Gss.wrapReply` — `wrap_reply`.
* `NextNfs.Gss.clientReads` — what a client gets out of the protection.
* `NextNfs.Gss.Protected` — the reply is protected.

## Main results

* `NextNfs.Gss.reply_protected_iff` — a reply is protected exactly when what is put in an opaque is
  shorter than `2 ^ 32` bytes.

## Implementation notes

`random_bytes(16)` fills 16 bytes or fails, so an answer of another length is taken as a failure.
-/

namespace NextNfs.Gss

open Wire Dialogue
open Krb5 (Primitives)

/-- The tokens of the context key. -/
def Tokens.cfx (P : Primitives) : Tokens where
  getMic key sender seq message := key.getMic P sender seq message
  verifyMic key sender message token := key.verifyMic P sender message token
  unwrap key sender token := key.unwrap P sender token

/-! ### Wrapping -/

/-- What `random_bytes(16)` gives. -/
def asBlock : Except Krb5.Error Bytes → Except Krb5.Error Krb5.Block
  | .ok bytes => if h : bytes.length = 16 then .ok ⟨bytes, h⟩ else .error (.crypto "getrandom")
  | .error e => .error e

/-- What there is to protect: the results of a call, if they encode, or nothing. -/
inductive Results
  | encoded (bytes : Bytes)
  | notEncoded
  | unchanged

/-- The results of a reply. -/
def resultsOf (proc : UInt32) : AcceptBody → Results
  | .success res =>
    -- NULL has no results.
    if proc = 0 then .encoded []
    else
      match res.serialize with
      | .ok bytes => .encoded bytes
      | .error _ => .notEncoded
  | .successRaw bytes => .encoded bytes
  | _ => .unchanged

variable (P : Primitives)

/-- The protection of the sequence number and the results: a checksum behind them, or a sealed
token. Nothing if they do not encrypt. -/
def protect (info : GssReply) (body : Bytes) : Op (Option Bytes) :=
  if info.service = 2 then do
    let mic ← info.ctx.mic (.cfx P) body
    pure (some (putOpaque body ++ putOpaque mic))
  else if info.service = 3 then do
    let seq : UInt64 ← query (.sendSeq info.ctx)
    let random : Except Krb5.Error Bytes ← query (.randomBytes 16)
    match info.ctx.key.wrap P (asBlock random) .acceptor seq true body with
    | .ok tok => pure (some (putOpaque tok))
    | .error _ => pure none
  else .pure (some [])

/-- `wrap_reply`. -/
def wrapReply (reply : RpcReplyMsg) (info : GssReply) : Op RpcReplyMsg :=
  match reply.body with
  | .msgDenied _ => .pure reply
  | .msgAccepted _ replyData => do
    let verf ← info.ctx.mic (.cfx P) (beBytes 4 info.seq.toNat)
    if info.service = 1 then pure (accepted reply.xid (.gssVerf verf) replyData)
    else
      match resultsOf info.proc replyData with
      | .unchanged => pure (accepted reply.xid (.gssVerf verf) replyData)
      | .notEncoded => pure (accepted reply.xid (.gssVerf verf) .garbageArgs)
      | .encoded results => do
        let out ← protect P info (beBytes 4 info.seq.toNat ++ results)
        pure (accepted reply.xid (.gssVerf verf)
          (out.elim .garbageArgs .successRaw))

/-! ### The client -/

/-- What a client gets out of the protection, with the key of the context: what the checksum is of,
or what is in the sealed token. There is nothing else in what it reads. -/
def clientReads (key : Krb5.ContextKey) (service : UInt32) (out : Bytes) : Option Bytes :=
  if service = 2 then
    match readOpaque out with
    | .ok (body, rest) =>
      match readOpaque rest with
      | .ok (mic, []) => if (key.verifyMic P .acceptor body mic).isOk then some body else none
      | _ => none
    | .error _ => none
  else
    match readOpaque out with
    | .ok (token, []) =>
      match key.unwrap P .acceptor token with
      | .ok (plain, true, _) => some plain
      | _ => none
    | _ => none

/-- The random bytes that were asked for were there. -/
def Random (h : List Event) : Prop :=
  ∀ answer, (⟨.randomBytes 16, answer⟩ : Event) ∈ h → (asBlock answer).isOk = true

/-- What is sent is the pair of what is protected and its checksum, or one sealed token. -/
def OnlyOpaques (service : UInt32) (body out : Bytes) : Prop :=
  if service = 2 then ∃ mic, out = putOpaque body ++ putOpaque mic else ∃ token, out = putOpaque token

/-- A reply is protected. The verifier is a checksum of the sequence number. What does not encode or
encrypt is not sent. Otherwise the results are sent as words, in the opaques of the service and
nowhere else, and the client gets the sequence number and the encoded results from them. NULL has
none. -/
def Protected (info : GssReply) (res : Compound4res) (h : List Event) (reply : RpcReplyMsg) : Prop :=
  ∃ verf data, reply.body = .msgAccepted (.gssVerf verf) data ∧
    (info.ctx.key.verifyMic P .acceptor (beBytes 4 info.seq.toNat) verf).isOk = true ∧
    match resultsOf info.proc (.success res) with
    | .encoded results =>
      (¬ Random h → data = .garbageArgs) ∧
      (Random h → ∃ out, data = .successRaw out ∧ out.length % 4 = 0 ∧
        data.serialize = .ok (beBytes 4 0 ++ out) ∧
        OnlyOpaques info.service (beBytes 4 info.seq.toNat ++ results) out ∧
        clientReads P info.ctx.key info.service out = some (beBytes 4 info.seq.toNat ++ results))
    | _ => data = .garbageArgs

/-- What is put in one opaque: the sequence number and the results, or the sealed token with its
header, the confounder, the header again and the checksum. -/
def opaqueLength (info : GssReply) (results : Bytes) : ℕ :=
  if info.service = 2 then 4 + results.length
  else 52 + results.length + info.ctx.key.enctype.hmacLen

/-- What is put in one opaque has a length that fits a word. -/
def FitsOpaque (info : GssReply) (res : Compound4res) (h : List Event) : Prop :=
  ∀ results, resultsOf info.proc (.success res) = .encoded results → Random h →
    opaqueLength info results < 2 ^ 32

/-! ### Opaques -/

section Opaques

variable {P} {key : Krb5.ContextKey} {data rest : Bytes}

@[simp] lemma length_putOpaque (data : Bytes) :
    (putOpaque data).length = 4 + (data.length + Codec.padding data.length) := by
  simp [putOpaque]

/-- What is put in an opaque takes up whole words. -/
lemma length_putOpaque_mod (data : Bytes) : (putOpaque data).length % 4 = 0 := by
  rw [length_putOpaque, Codec.padding]
  omega

/-- An opaque whose length fits a word is read back. -/
lemma readOpaque_putOpaque (h : data.length < 2 ^ 32) (rest : Bytes) :
    readOpaque (putOpaque data ++ rest) = .ok (data, rest) :=
  readOpaque_eq_ok.2 ⟨_, ⟨h, List.replicate (Codec.padding data.length) 0, by simp,
    by rw [putOpaque, List.append_assoc]⟩, rfl⟩

/-- The server reads it back as well. -/
lemma takeOpaque_putOpaque (h : data.length < 2 ^ 32) (rest : Bytes) :
    takeOpaque (putOpaque data ++ rest) = some (data, rest) := by
  have hword : ofBytes ((putOpaque data ++ rest).take 4) = data.length := by
    simp only [putOpaque, List.append_assoc]
    rw [List.take_left' (length_beBytes 4 _), ofBytes_beBytes h]
  have hdata : ((putOpaque data ++ rest).drop 4).take data.length = data := by
    simp only [putOpaque, List.append_assoc]
    rw [List.drop_left' (length_beBytes 4 _), List.take_left' rfl]
  have hrest : (putOpaque data ++ rest).drop (4 + data.length + Codec.padding data.length) = rest :=
    List.drop_left' (by rw [length_putOpaque, Nat.add_assoc])
  have hlen : (putOpaque data ++ rest).length =
      4 + (data.length + Codec.padding data.length) + rest.length := by
    rw [List.length_append, length_putOpaque]
  simp only [takeOpaque, hword, hdata, hrest, hlen]
  rw [if_neg (by omega), if_neg (by omega)]

/-- Of an opaque as much is read as its length is cut to 32 bits. The rest is left. -/
lemma length_of_readOpaque_putOpaque {body left : Bytes}
    (h : readOpaque (putOpaque data ++ rest) = .ok (body, left)) :
    body.length = data.length % 2 ^ 32 ∧
      body.length + left.length = data.length + rest.length := by
  obtain ⟨enc, ⟨hlt, pad, hpad, rfl⟩, heq⟩ := readOpaque_eq_ok.1 h
  have hword : beBytes 4 data.length = beBytes 4 body.length := by
    have htake := congrArg (List.take 4) heq
    simpa [putOpaque, List.append_assoc, List.take_append_of_le_length] using htake
  have hnumber := congrArg ofBytes hword
  rw [ofBytes_beBytes_mod, ofBytes_beBytes hlt] at hnumber
  have hlen := congrArg List.length heq
  simp only [List.length_append, length_putOpaque, length_beBytes, hpad, Codec.padding] at hlen
  refine ⟨hnumber.symm, ?_⟩
  have hmod : body.length % 4 = data.length % 4 := by
    rw [← hnumber]
    exact Nat.mod_mod_of_dvd _ (by decide)
  omega

end Opaques

/-! ### Tokens -/

section Tokens

variable {P} {info : GssReply} {ctx : GssContext} {key : Krb5.ContextKey} {body mic tok : Bytes}
  {h : List Event}

/-- A checksum is short. -/
lemma length_getMic {sender : Krb5.Sender} {seq : UInt64}
    (hmic : key.getMic P sender seq body = .ok mic) : mic.length < 2 ^ 32 := by
  obtain ⟨cksum, hcksum, hlen⟩ := Krb5.exists_checksum P key.enctype key.key sender.signUsage
    (Krb5.length_of_getMic hmic) [body, Krb5.micHeader (key.flags sender) seq]
  rw [Krb5.ContextKey.getMic, hcksum] at hmic
  cases hmic
  rw [List.length_append, hlen, Krb5.length_micHeader]
  cases key.enctype <;> decide

/-- The length of a sealed token. -/
lemma length_wrap_sealed {seq : UInt64} {random : Except Krb5.Error Krb5.Block}
    (htok : key.wrap P random .acceptor seq true body = .ok tok) :
    tok.length = 48 + body.length + key.enctype.hmacLen := by
  have hk := Krb5.length_of_wrap htok
  rw [Krb5.ContextKey.wrap, if_pos rfl] at htok
  obtain ⟨cipher, hcipher, htok⟩ := except_bind_eq_ok.1 htok
  obtain ⟨confounder, -, hcipher⟩ := except_bind_eq_ok.1 hcipher
  obtain ⟨c, hc, hlen, -⟩ := Krb5.decrypt_encryptWithConfounder P key.enctype key.key _ hk _ confounder
  cases hcipher.symm.trans hc
  cases htok
  rw [List.length_append, hlen, List.length_append, Krb5.length_wrapHeader]
  omega

/-- Only with a key of the enctype's length a checksum is verified. -/
lemma length_of_verifyMic {sender : Krb5.Sender}
    (hverify : (key.verifyMic P sender body mic).isOk = true) :
    key.key.length = key.enctype.keyLen := by
  by_contra hne
  unfold Krb5.ContextKey.verifyMic at hverify
  split_ifs at hverify
  · cases hverify
  cases hflags : key.checkFlags (mic.getD 2 0) sender with
  | error e =>
    rw [hflags] at hverify
    cases hverify
  | ok _ =>
    rw [hflags, except_ok_bind] at hverify
    dsimp only at hverify
    cases hcksum : Krb5.checksum P key.enctype key.key sender.signUsage [body, mic.take 16] with
    | error e =>
      rw [hcksum] at hverify
      cases hverify
    | ok want => exact Krb5.checksum_of_ne hne _ _ _ hcksum

/-- With a key of the enctype's length a checksum is made, and the client verifies it. -/
lemma mic_runs (hk : ctx.key.key.length = ctx.key.enctype.keyLen)
    (hrun : Runs (ctx.mic (.cfx P) body) h (some mic)) :
    (∃ seq, h = [⟨.sendSeq ctx, seq⟩]) ∧ mic.length < 2 ^ 32 ∧
      (ctx.key.verifyMic P .acceptor body mic).isOk = true := by
  unfold GssContext.mic at hrun
  simp only [Prog.bind_eq, query, Prog.query, Prog.ask_bind, Prog.pure_bind, Prog.pure_eq] at hrun
  cases hrun with
  | @ask _ _ seq _ _ hrun =>
    cases hrun
    obtain ⟨token, hmic, hverify⟩ := Krb5.verifyMic_getMic P ctx.key .acceptor seq body hk
    refine ⟨⟨seq, rfl⟩, ?_⟩
    simp only [Tokens.cfx, hmic, Except.toOption, Option.getD_some]
    exact ⟨length_getMic hmic, by rw [hverify]; rfl⟩

/-- Behind a checksum: the client reads what the checksum is of exactly when its length fits a
word. -/
lemma clientReads_integrity (hmic : mic.length < 2 ^ 32)
    (hverify : (key.verifyMic P .acceptor body mic).isOk = true) :
    clientReads P key 2 (putOpaque body ++ putOpaque mic) = some body ↔ body.length < 2 ^ 32 := by
  rw [clientReads, if_pos rfl]
  constructor
  · intro hreads
    split at hreads
    · rename_i body' rest hread
      split at hreads
      · split_ifs at hreads
        cases hreads
        have hcut := (length_of_readOpaque_putOpaque hread).1
        rw [hcut]
        exact Nat.mod_lt _ (by decide)
      · cases hreads
    · cases hreads
  · intro hlt
    have hlast := readOpaque_putOpaque hmic []
    rw [List.append_nil] at hlast
    rw [readOpaque_putOpaque hlt]
    dsimp only
    rw [hlast]
    dsimp only
    rw [if_pos hverify]

/-- In a sealed token: the client reads what is in it exactly when the length of the token fits a
word. -/
lemma clientReads_privacy {seq : UInt64}
    (hopen : key.unwrap P .acceptor tok = .ok (body, true, seq)) :
    clientReads P key 3 (putOpaque tok) = some body ↔ tok.length < 2 ^ 32 := by
  rw [clientReads, if_neg (by decide)]
  have hself : putOpaque tok = putOpaque tok ++ [] := (List.append_nil _).symm
  constructor
  · intro hreads
    split at hreads
    · rename_i token hread
      rw [hself] at hread
      obtain ⟨hcut, hlen⟩ := length_of_readOpaque_putOpaque hread
      rw [List.length_nil, Nat.add_zero, Nat.add_zero] at hlen
      rw [← hlen, hcut]
      exact Nat.mod_lt _ (by decide)
    · cases hreads
  · intro hlt
    rw [hself, readOpaque_putOpaque hlt]
    dsimp only
    rw [hopen]

end Tokens

/-! ### Replies -/

section Replies

variable {P} {info : GssReply} {body : Bytes} {h : List Event}

/-- A sequence number that is taken has nothing to do with random bytes. -/
lemma random_sendSeq_append {ctx : GssContext} {seq : UInt64} :
    Random (⟨.sendSeq ctx, seq⟩ :: h) ↔ Random h := by
  constructor
  · exact fun hr answer ha => hr answer (List.mem_cons_of_mem _ ha)
  · rintro hr answer (_ | ⟨_, ha⟩)
    exact hr answer ha

lemma random_nil : Random [] := nofun

/-- What is protected is sent in whole words, unless it does not encrypt, and the client reads it
exactly when what is put in an opaque fits. -/
lemma protect_runs (hk : info.ctx.key.key.length = info.ctx.key.enctype.keyLen)
    (hservice : info.service = 2 ∨ info.service = 3) {out : Option Bytes}
    (hrun : Runs (protect P info body) h (some out)) :
    (¬ Random h → out = none) ∧
      (Random h → ∃ sent, out = some sent ∧ sent.length % 4 = 0 ∧
        OnlyOpaques info.service body sent ∧
        (clientReads P info.ctx.key info.service sent = some body ↔
          (if info.service = 2 then body.length
            else 48 + body.length + info.ctx.key.enctype.hmacLen) < 2 ^ 32)) := by
  unfold protect at hrun
  rcases hservice with htwo | hthree
  · rw [if_pos htwo, Prog.bind_eq] at hrun
    rcases hrun.of_bind with ⟨mic, h₁, h₂, rfl, hmic, hpure⟩ | ⟨hnone, -⟩
    · cases hpure
      obtain ⟨⟨seq, rfl⟩, hlen, hverify⟩ := mic_runs hk hmic
      have hrandom : Random ([⟨.sendSeq info.ctx, seq⟩] ++ []) := random_sendSeq_append.2 random_nil
      refine ⟨fun hnot => absurd hrandom hnot, fun _ => ⟨_, rfl, ?_, ?_, ?_⟩⟩
      · rw [List.length_append]
        have h₁ := length_putOpaque_mod body
        have h₂ := length_putOpaque_mod mic
        omega
      · rw [OnlyOpaques, if_pos htwo]
        exact ⟨mic, rfl⟩
      · rw [if_pos htwo, htwo]
        exact clientReads_integrity hlen hverify
    · cases hnone
  · have hne : info.service ≠ 2 := by rw [hthree]; decide
    rw [if_neg hne, if_pos hthree] at hrun
    simp only [Prog.bind_eq, query, Prog.query, Prog.ask_bind, Prog.pure_bind, Prog.pure_eq] at hrun
    cases hrun with
    | @ask _ _ seq _ _ hrun =>
    cases hrun with
    | @ask _ _ random _ _ hrun =>
    dsimp only at hrun
    have hrandom : ∀ {h : List Event}, h = [] →
        (Random (⟨.sendSeq info.ctx, seq⟩ :: ⟨.randomBytes 16, random⟩ :: h) ↔
          (asBlock random).isOk = true) := by
      rintro _ rfl
      rw [random_sendSeq_append]
      constructor
      · exact fun hr => hr random List.mem_cons_self
      · rintro hok answer ha
        cases List.mem_singleton.1 ha
        exact hok
    cases hblock : asBlock random with
    | error e =>
      have hwrap : info.ctx.key.wrap P (.error e) .acceptor seq true body = .error e := rfl
      rw [hblock, hwrap] at hrun
      cases hrun
      refine ⟨fun _ => rfl, fun hr => ?_⟩
      rw [hrandom rfl, hblock] at hr
      cases hr
    | ok confounder =>
      obtain ⟨tok, htok, hopens⟩ :=
        Krb5.opens_wrap_sealed P .acceptor seq body hk confounder
      rw [hblock, htok] at hrun
      cases hrun
      refine ⟨fun hnot => absurd ((hrandom rfl).2 (by rw [hblock]; rfl)) hnot,
        fun _ => ⟨_, rfl, length_putOpaque_mod tok, ?_, ?_⟩⟩
      · rw [OnlyOpaques, if_neg hne]
        exact ⟨tok, rfl⟩
      · rw [if_neg hne, hthree, clientReads_privacy hopens.1, length_wrap_sealed htok]

/-- The key of a context in which a call proceeds has the length of the enctype, as a checksum was
verified. -/
lemma length_of_proceeds {call msg : RpcCallMsg} {h₀ : List Event}
    (hproceed : Runs (handle (.cfx P) call) h₀ (some (.proceed msg info))) :
    info.ctx.key.key.length = info.ctx.key.enctype.keyLen := by
  obtain ⟨_, _, -, -, hpasses⟩ := handle_runs hproceed
  have hverified := hpasses.verified
  unfold verified at hverified
  split at hverified
  · exact length_of_verifyMic hverified
  · cases hverified

/-- With a key of the enctype's length the reply is protected exactly when what is put in an opaque
has a length that fits a word. **Proof sketch.** The length in front of an opaque is cut to 32 bits:
a client that reads what was put there has read as much, and a client that is to find nothing behind
it has read everything. -/
lemma protected_iff (hk : info.ctx.key.key.length = info.ctx.key.enctype.keyLen)
    (hservice : info.service = 2 ∨ info.service = 3) {xid : UInt32} {verf : OpaqueAuth}
    {res : Compound4res} {reply : RpcReplyMsg}
    (hrun : Runs (wrapReply P (accepted xid verf (.success res)) info) h (some reply)) :
    Protected P info res h reply ↔ FitsOpaque info res h := by
  have hone : info.service ≠ 1 := by
    rcases hservice with h | h <;> rw [h] <;> decide
  unfold wrapReply accepted at hrun
  dsimp only at hrun
  rw [Prog.bind_eq] at hrun
  rcases hrun.of_bind with ⟨mic, h₁, h₂, rfl, hmic, hrest⟩ | ⟨hnone, -⟩
  swap
  · cases hnone
  clear hrun
  obtain ⟨⟨seq, rfl⟩, -, hverify⟩ := mic_runs hk hmic
  rw [if_neg hone] at hrest
  cases hres : resultsOf info.proc (.success res) with
  | unchanged =>
    simp only [resultsOf] at hres
    split_ifs at hres
    split at hres <;> cases hres
  | notEncoded =>
    rw [hres] at hrest
    cases hrest
    refine iff_of_true ⟨mic, .garbageArgs, rfl, hverify, ?_⟩ fun results heq => ?_
    · rw [hres]
    · rw [hres] at heq
      cases heq
  | encoded results =>
    rw [hres] at hrest
    dsimp only at hrest
    rw [Prog.bind_eq] at hrest
    rcases hrest.of_bind with ⟨out, h₃, h₄, rfl, hprotect, hpure⟩ | ⟨hnone, -⟩
    swap
    · cases hnone
    cases hpure
    obtain ⟨hfails, hsends⟩ := protect_runs hk hservice hprotect
    have hrandom : Random ([⟨.sendSeq info.ctx, seq⟩] ++ (h₃ ++ [])) ↔ Random h₃ := by
      rw [List.append_nil]
      exact random_sendSeq_append
    -- Both lengths are that of the sequence number more than the results.
    have hlength : opaqueLength info results = if info.service = 2
        then (beBytes 4 info.seq.toNat ++ results).length
        else 48 + (beBytes 4 info.seq.toNat ++ results).length +
          info.ctx.key.enctype.hmacLen := by
      simp only [opaqueLength, List.length_append, length_beBytes]
      split_ifs <;> omega
    have hfits : FitsOpaque info res ([⟨.sendSeq info.ctx, seq⟩] ++ (h₃ ++ [])) ↔
        (Random h₃ → opaqueLength info results < 2 ^ 32) := by
      unfold FitsOpaque
      rw [hres, hrandom]
      constructor
      · exact fun h hr => h results rfl hr
      · rintro h _ ⟨⟩ hr
        exact h hr
    rw [hfits, hlength]
    constructor
    · rintro ⟨verf', data, hbody, -, hdata⟩ hr
      rw [hres] at hdata
      obtain ⟨sent, rfl, -, -, hiff⟩ := hsends hr
      cases hbody
      obtain ⟨out, hout, -, -, -, hreads⟩ := hdata.2 (hrandom.2 hr)
      cases hout
      exact hiff.1 hreads
    · intro hfit
      refine ⟨mic, _, rfl, hverify, ?_⟩
      rw [hres]
      refine ⟨fun hnot => ?_, fun hr => ?_⟩
      · rw [hfails (mt hrandom.2 hnot)]
        rfl
      · have hr := hrandom.1 hr
        obtain ⟨sent, rfl, hwords, honly, hiff⟩ := hsends hr
        exact ⟨sent, rfl, hwords, serialize_successRaw hwords, honly, hiff.2 (hfit hr)⟩

/-- Reply protection: the reply to a call in a context that proceeds, with integrity or privacy and
answered SUCCESS, is protected exactly when what is put in an opaque has a length that fits a word.
**Proof sketch.** The call proceeds with a checksum that was verified, so the key makes checksums
and tokens, and the other side takes them. What it reads of an opaque is as long as the length in
front of it, which is cut to 32 bits. -/
theorem reply_protected_iff (P : Primitives) {call msg : RpcCallMsg} {info : GssReply}
    {h₀ : List Event} (hproceed : Runs (handle (.cfx P) call) h₀ (some (.proceed msg info)))
    (hservice : info.service = 2 ∨ info.service = 3) (xid : UInt32) (verf : OpaqueAuth)
    (res : Compound4res) {h : List Event} {reply : RpcReplyMsg}
    (hrun : Runs (wrapReply P (accepted xid verf (.success res)) info) h (some reply)) :
    Protected P info res h reply ↔ FitsOpaque info res h :=
  protected_iff (length_of_proceeds hproceed) hservice hrun

end Replies

/-! ### A call with integrity -/

/-- A call that passes every check proceeds. -/
lemma handle_proceeds {C : Tokens} {xid : UInt32} {call call' : CallBody} {cred : RpcSecGssCred}
    {raw : GssCallData} {ctx : GssContext} {flavor : Dispatcher.SecFlavor} {inner args : Bytes}
    (hcred : call.cred = .authGss cred) (hversion : cred.version = 1) (hdata : cred.gssProc = 0)
    (hraw : call.gss = some raw) (hverified : verified C ctx raw.header call.verf = true)
    (hmax : cred.seqNum < MAXSEQ) (hflavor : flavorOfService cred.service = some flavor)
    (hopen : openArgs C ctx cred.service raw.args = some inner)
    (hstrip : stripSeq cred.service cred.seqNum inner = some args)
    (hdecode : decodeArgs { call with gss := none } args = some call') :
    ∃ msg h, Runs (handle C ⟨xid, .call call⟩) h
      (some (.proceed msg ⟨ctx, cred.seqNum, cred.service, call'.proc, flavor⟩)) := by
  refine ⟨⟨xid, .call { call' with cred := ctx.cred }⟩,
    [⟨.get cred.handle, some ctx⟩, ⟨.now, ctx.expires⟩, ⟨.accept ctx cred.seqNum, true⟩], ?_⟩
  have hend : cred.gssProc ≠ 3 := by rw [hdata]; decide
  simp only [handle, hcred, hversion, ne_eq, not_true_eq_false, if_false, hdata, true_or,
    if_true, hraw, Option.getD_some]
  rw [hcred] at hdecode
  unfold data
  simp only [Prog.bind_eq, query, Prog.query, Prog.ask_bind, Prog.pure_bind, Prog.pure_eq]
  refine .ask (.ask ?_)
  rw [if_neg (lt_irrefl _), if_neg (by rw [hverified]; decide), if_neg (UInt32.not_le.2 hmax)]
  refine .ask ?_
  rw [if_neg (by decide), if_neg hend, hflavor]
  dsimp only
  rw [hopen, Option.bind_some, hstrip, Option.bind_some, hdecode]
  exact .pure _

/-- A context. -/
def sampleContext : GssContext := ⟨0, Krb5.sampleKey, "a", none, 100, 0⟩

/-- How the reply to a compound with integrity is protected. -/
def sampleInfo : GssReply := ⟨sampleContext, 5, 2, 1, .krb5i⟩

/-- What is protected of a compound without operations: the sequence number and the arguments. -/
def sampleArgs : Bytes := beBytes 4 5 ++ List.replicate 12 0

/-- A compound with integrity, with its checksums. -/
def sampleCall (verf mic : Bytes) : RpcCallMsg :=
  ⟨7, .call ⟨2, 100003, 4, 1, .authGss ⟨1, 0, 5, 2, [7]⟩, .gssVerf verf, none,
    some ⟨[], putOpaque sampleArgs ++ putOpaque mic⟩⟩⟩

/-- With the right checksums it proceeds. -/
lemma sampleCall_proceeds : ∃ verf mic msg h,
    Runs (handle (.cfx Krb5.samplePrimitives) (sampleCall verf mic)) h
      (some (.proceed msg sampleInfo)) := by
  obtain ⟨verf, -, hverf⟩ := Krb5.verifyMic_getMic Krb5.samplePrimitives Krb5.sampleKey .initiator 0
    [] rfl
  obtain ⟨mic, hmic, hverify⟩ := Krb5.verifyMic_getMic Krb5.samplePrimitives Krb5.sampleKey
    .initiator 1 sampleArgs rfl
  have hverified : verified (.cfx Krb5.samplePrimitives) sampleContext [] (.gssVerf verf) = true := by
    change (Krb5.sampleKey.verifyMic Krb5.samplePrimitives .initiator [] verf).isOk = true
    rw [hverf]
    rfl
  have hok : ((Tokens.cfx Krb5.samplePrimitives).verifyMic sampleContext.key .initiator sampleArgs
      mic).isOk = true := by
    change (Krb5.sampleKey.verifyMic Krb5.samplePrimitives .initiator sampleArgs mic).isOk = true
    rw [hverify]
    rfl
  have hlen : sampleArgs.length < 2 ^ 32 := by decide
  have hopen : openArgs (.cfx Krb5.samplePrimitives) sampleContext 2
      (putOpaque sampleArgs ++ putOpaque mic) = some sampleArgs := by
    have hlast := takeOpaque_putOpaque (length_getMic hmic) []
    rw [List.append_nil] at hlast
    rw [openArgs, if_neg (by decide), if_pos rfl, takeOpaque_putOpaque hlen]
    simp only [bind, Option.bind, hlast]
    rw [if_pos hok]
  have hdecode : decodeArgs ⟨2, 100003, 4, 1, .authGss ⟨1, 0, 5, 2, [7]⟩, .gssVerf verf, none, none⟩
      (List.replicate 12 0) = some ⟨2, 100003, 4, 1, .authGss ⟨1, 0, 5, 2, [7]⟩, .gssVerf verf,
        some ⟨"", 0, []⟩, none⟩ := by
    have hargs : Xdr.fromBytes Compound4args.codec (List.replicate 12 0) = .ok ⟨"", 0, []⟩ := rfl
    rw [decodeArgs, if_pos ⟨rfl, rfl⟩, hargs]
  obtain ⟨msg, h, hrun⟩ := @handle_proceeds _ 7
    ⟨2, 100003, 4, 1, .authGss ⟨1, 0, 5, 2, [7]⟩, .gssVerf verf, none,
      some ⟨[], putOpaque sampleArgs ++ putOpaque mic⟩⟩ _ ⟨1, 0, 5, 2, [7]⟩ _ sampleContext .krb5i _ _
    rfl rfl rfl rfl hverified (by decide) rfl hopen rfl hdecode
  exact ⟨verf, mic, msg, h, hrun⟩

/-- The sequence number of a token is asked for, and nothing goes wrong. -/
lemma mic_returns {ctx : GssContext} {bytes : Bytes} {post : Bytes → Prop} (hpost : ∀ mic, post mic)
    (C : Tokens) :
    (ctx.mic C bytes).Does (fun _ _ => True) (fun _ => True) False post :=
  ⟨trivial, fun _ _ => hpost _⟩

/-- `wrap_reply` returns. -/
lemma wrapReply_returns (P : Primitives) (reply : RpcReplyMsg) (info : GssReply) :
    (wrapReply P reply info).Does (fun _ _ => True) (fun _ => True) False fun _ => True := by
  unfold wrapReply
  cases reply.body with
  | msgDenied _ => trivial
  | msgAccepted _ data =>
    refine .bind (mic_returns (fun verf => ?_) _)
    split_ifs
    · trivial
    · split
      · trivial
      · trivial
      · refine .bind ?_
        unfold protect
        split_ifs
        · exact .bind (mic_returns (fun _ => trivial) _)
        · refine ⟨trivial, fun seq _ => ⟨trivial, fun random _ => ?_⟩⟩
          dsimp only
          rw [Prog.pure_bind]
          split <;> trivial
        · trivial

/-- The answers to what `wrap_reply` asks, with random bytes of the length that is asked for. -/
def fillAnswers (_ : ℕ) : (q : Question) → q.Answer
  | .randomBytes len => .ok (List.replicate len 0)
  | q => answers 0 q

/-- `wrap_reply` has a run, in which there are random bytes. -/
lemma exists_wrapReply_runs (P : Primitives) (reply : RpcReplyMsg) (info : GssReply) :
    ∃ h reply', Runs (wrapReply P reply info) h (some reply') ∧ Random h := by
  have hrun := runs_run fillAnswers 0 (wrapReply P reply info)
  have hret := ((wrapReply_returns P reply info).of_runs hrun fun _ _ => trivial).2.2
  cases hout : ((wrapReply P reply info).run fillAnswers 0).2 with
  | none => exact (hret hout).elim
  | some reply' =>
    refine ⟨_, reply', hout ▸ hrun, fun answer hmem => ?_⟩
    obtain ⟨i, hi⟩ := List.mem_iff_getElem?.1 hmem
    have hanswer := Prog.answer_of_run hi
    dsimp only [fillAnswers] at hanswer
    rw [hanswer]
    rfl

/-- The reply to a compound without operations is protected. -/
theorem reply_protected_sample : ∃ h reply,
    Runs (wrapReply Krb5.samplePrimitives (accepted 7 (.authNull []) (.success ⟨.nfs4Ok, "", []⟩))
      sampleInfo) h (some reply) ∧
    Protected Krb5.samplePrimitives sampleInfo ⟨.nfs4Ok, "", []⟩ h reply := by
  obtain ⟨verf, mic, msg, h₀, hproceed⟩ := sampleCall_proceeds
  obtain ⟨h, reply, hrun, -⟩ := exists_wrapReply_runs Krb5.samplePrimitives
    (accepted 7 (.authNull []) (.success ⟨.nfs4Ok, "", []⟩)) sampleInfo
  refine ⟨h, reply, hrun, (reply_protected_iff _ hproceed (.inl rfl) 7 _ _ hrun).2 ?_⟩
  rintro results ⟨⟩ -
  decide

/-- The results of two READs. -/
def twoReads (content : Bytes) : Compound4res :=
  ⟨.nfs4Ok, "", [.opread (.resok4 ⟨false, content⟩), .opread (.resok4 ⟨false, content⟩)]⟩

/-- They encode if the length of the data fits a word. -/
lemma exists_serialize_twoReads {content : Bytes} (h : content.length < 256 ^ 4) :
    ∃ results, (twoReads content).serialize = .ok results := by
  have hdata := toBytes_opaqueData h
  simp only [twoReads, Compound4res.serialize, writeArgarray, serializeVec,
    NfsResOp4.serializeElement, NfsResOp4.serializeBody, Read4res.serialize, Read4resok.serialize,
    fields, List.map, hdata]
  exact ⟨_, rfl⟩

/-- The results of two READs of two gigabytes encode, and the reply to a call with integrity that
was answered with them is not protected. -/
theorem reply_not_protected_large :
    ∃ (call msg : RpcCallMsg) (h₀ h : List Event) (reply : RpcReplyMsg) (results : Bytes),
      Runs (handle (.cfx Krb5.samplePrimitives) call) h₀ (some (.proceed msg sampleInfo)) ∧
      (twoReads (List.replicate (2 ^ 31) 0)).serialize = .ok results ∧
      Runs (wrapReply Krb5.samplePrimitives
        (accepted 7 (.authNull []) (.success (twoReads (List.replicate (2 ^ 31) 0)))) sampleInfo) h
        (some reply) ∧
      ¬ Protected Krb5.samplePrimitives sampleInfo (twoReads (List.replicate (2 ^ 31) 0)) h reply := by
  obtain ⟨verf, mic, msg, h₀, hproceed⟩ := sampleCall_proceeds
  set content : Bytes := List.replicate (2 ^ 31) 0 with hcontent
  have hlen : content.length = 2 ^ 31 := by
    rw [hcontent, List.length_replicate]
  have hfit : content.length < 256 ^ 4 := by
    rw [hlen]
    decide
  obtain ⟨results, hresults⟩ := exists_serialize_twoReads hfit
  obtain ⟨h, reply, hrun, hrandom⟩ := exists_wrapReply_runs Krb5.samplePrimitives
    (accepted 7 (.authNull []) (.success (twoReads content))) sampleInfo
  refine ⟨_, msg, h₀, h, reply, results, hproceed, hresults, hrun, fun hprotected => ?_⟩
  have hfits := (protected_iff rfl (.inl rfl) hrun).1 hprotected results
    (by simp [resultsOf, sampleInfo, hresults]) hrandom
  have hsize := hasSize_compound _ results hresults
  simp only [twoReads, Compound4res.size, NfsResOp4.size, NfsResOp4.bodySize, opaqueSize, List.map,
    List.sum_cons, List.sum_nil, hlen] at hsize
  rw [opaqueLength, if_pos (show sampleInfo.service = 2 from rfl)] at hfits
  omega

end NextNfs.Gss
