import Mathlib.Data.List.MinMax
import NextNfs.Krb5.Cfx
import NextNfs.Lib.SlidingWindow
import NextNfs.Server.Context

set_option relaxedAutoImplicit false
set_option autoImplicit false

/-!
# RPCSEC_GSS

This module models `nfs/src/server/gss.rs`: a call with an RPCSEC_GSS credential goes through
`GssServer::handle` before the NFS service sees it. Contexts are made and destroyed there, and for
the calls that use one the checksum of the header, the sequence number and the arguments are
checked.

## Main definitions

* `NextNfs.Gss.SeqWindow` — the sequence numbers that a context has seen, and
  `NextNfs.Gss.SeqWindow.after`, what it is after some calls.
* `NextNfs.Gss.Question` — what handling a call asks of what all connections share.
* `NextNfs.Gss.handle` — `GssServer::handle`, with `NextNfs.Gss.init` and `NextNfs.Gss.data`.
* `NextNfs.Gss.receive` — what the connection loop does with a record.
* `NextNfs.Gss.State`, `NextNfs.Gss.Step` — what is shared, and how it answers.

## Main results

* `NextNfs.Gss.SeqWindow.toWindow_accept` — the window of a context is a sliding window.
* `NextNfs.Gss.SeqWindow.window_exact` — after any calls, the window accepts what is new and less
  than 128 below the largest number that was accepted, and nothing else.

## Implementation notes

Calls are handled on any number of connections at once. Handling a call is a program that asks
questions of what the connections share: the table of contexts, which is behind a lock, the window
and the counter of a context, the clocks, the acceptor and the source of random numbers. Between two
questions other calls go on. A context that is looked up is used even if it is dropped from the
table meanwhile; which context it is says its number.

The checksums and the encryption of tokens are parameters. The mapping of principals, which reads
files, is a question.
-/

namespace NextNfs.Gss

open Wire Dialogue
open Krb5 (Sender)

/-! ### Sequence numbers -/

/-- `SEQ_WINDOW`. -/
def SEQ_WINDOW : UInt32 := 128

/-- `MAXSEQ`. -/
def MAXSEQ : UInt32 := 0x80000000

/-- `MAX_CONTEXTS`. -/
def MAX_CONTEXTS : ℕ := 16384

/-- `SeqWindow`. Bit `i` of `seen`: `max - i` has been seen. -/
structure SeqWindow where
  started : Bool
  max : UInt32
  seen : BitVec 128

namespace SeqWindow

/-- `SeqWindow::default`. -/
def default : SeqWindow := ⟨false, 0, 0⟩

/-- `accept`: record a number; `false` if it is a replay or below the window. -/
def accept (w : SeqWindow) (seq : UInt32) : SeqWindow × Bool :=
  if w.started = false then (⟨true, seq, 1#128⟩, true)
  else if seq > w.max then
    let shift := seq - w.max
    let seen := if shift ≥ 128 then 0 else w.seen <<< shift.toNat
    (⟨true, seq, seen ||| 1#128⟩, true)
  else
    let d := w.max - seq
    if d ≥ SEQ_WINDOW ∨ w.seen &&& (1#128 <<< d.toNat) ≠ 0 then (w, false)
    else ({ w with seen := w.seen ||| 1#128 <<< d.toNat }, true)

/-- The window over numbers. -/
def toWindow (w : SeqWindow) : SlidingWindow 128 :=
  ⟨if w.started then some w.max.toNat else none, w.seen⟩

/-- A bit is seen when masking it leaves something. -/
lemma and_shiftLeft_ne_zero (x : BitVec 128) {d : ℕ} (hd : d < 128) :
    x &&& (1#128 <<< d) ≠ 0 ↔ x.getLsbD d = true := by
  rw [← BitVec.twoPow_eq, BitVec.and_twoPow]
  split_ifs with hbit
  · simp only [hbit, iff_true]
    intro hzero
    have hlsb : (BitVec.twoPow 128 d).getLsbD d = true := by simp [hd]
    rw [hzero] at hlsb
    simp at hlsb
  · simp [hbit]

/-- The window of a context is a sliding window. -/
lemma toWindow_accept {w w' : SeqWindow} {seq : UInt32} {b : Bool} (h : w.accept seq = (w', b)) :
    w.toWindow.accept seq.toNat = (w'.toWindow, b) := by
  unfold accept at h
  unfold SlidingWindow.accept
  by_cases hidle : w.started = false
  · rw [if_pos hidle] at h
    cases h
    simp [toWindow, hidle]
  · rw [if_neg hidle] at h
    have hstarted : w.started = true := by simpa using hidle
    simp only [toWindow, hstarted, if_true]
    by_cases hnew : seq > w.max
    · have hlt : w.max.toNat < seq.toNat := UInt32.lt_iff_toNat_lt.1 hnew
      have hshift : (seq - w.max).toNat = seq.toNat - w.max.toNat :=
        UInt32.toNat_sub_of_le _ _ hlt.le
      have hseen : (if seq - w.max ≥ 128 then 0 else w.seen <<< (seq - w.max).toNat) =
          w.seen <<< (seq.toNat - w.max.toNat) := by
        split_ifs with hfar
        · rw [← hshift]
          exact (BitVec.shiftLeft_eq_zero (UInt32.le_iff_toNat_le.1 hfar)).symm
        · rw [hshift]
      rw [if_pos hnew] at h
      rw [if_pos hlt, ← hseen]
      cases h
      rfl
    · have hle : seq.toNat ≤ w.max.toNat := not_lt.1 fun hlt => hnew (UInt32.lt_iff_toNat_lt.2 hlt)
      have hd : (w.max - seq).toNat = w.max.toNat - seq.toNat := UInt32.toNat_sub_of_le _ _ hle
      rw [if_neg hnew] at h
      rw [if_neg (not_lt.2 hle), ← hd]
      have hwidth : w.max - seq ≥ SEQ_WINDOW ↔ 128 ≤ (w.max - seq).toNat := UInt32.le_iff_toNat_le
      have hiff : (w.max - seq ≥ SEQ_WINDOW ∨ w.seen &&& (1#128 <<< (w.max - seq).toNat) ≠ 0) ↔
          128 ≤ (w.max - seq).toNat ∨ w.seen.getLsbD (w.max - seq).toNat = true := by
        rw [hwidth]
        by_cases hfar : 128 ≤ (w.max - seq).toNat
        · simp [hfar]
        · rw [and_shiftLeft_ne_zero _ (not_le.1 hfar)]
      simp only [hiff] at h
      by_cases hout : 128 ≤ (w.max - seq).toNat ∨ w.seen.getLsbD (w.max - seq).toNat = true
      · rw [if_pos hout] at h ⊢
        cases h
        rw [hstarted]
        rfl
      · rw [if_neg hout] at h ⊢
        cases h
        simp only [hstarted, if_true]

/-! ### Runs of a window -/

/-- A call of `accept`: the window after it, and the numbers that were accepted until then. -/
def record (s : SeqWindow × List UInt32) (seq : UInt32) : SeqWindow × List UInt32 :=
  ((s.1.accept seq).1, if (s.1.accept seq).2 then s.2 ++ [seq] else s.2)

/-- A new window after some calls of `accept`, and the numbers that they accepted. -/
def after (calls : List UInt32) : SeqWindow × List UInt32 := calls.foldl record (default, [])

lemma after_append (calls : List UInt32) (seq : UInt32) :
    after (calls ++ [seq]) = record (after calls) seq := by
  rw [after, List.foldl_append]
  rfl

/-- The window knows the numbers that were accepted. -/
def Knows (s : SeqWindow × List UInt32) : Prop :=
  s.1.toWindow.Keeps {n | ∃ seq ∈ s.2, seq.toNat = n}

/-- A window that knows what was accepted accepts what is new and not below the window. -/
lemma Knows.accept_iff {s : SeqWindow × List UInt32} (h : Knows s) (seq : UInt32) :
    ((s.1.accept seq).2 = true ↔ seq ∉ s.2 ∧ ∀ m ∈ s.2, m.toNat < seq.toNat + 128) ∧
      Knows (record s seq) := by
  unfold record
  rcases haccept : s.1.accept seq with ⟨w, b⟩
  obtain ⟨hiff, hkeeps⟩ := SlidingWindow.accept_keeps h (toWindow_accept haccept)
  have hmem : seq.toNat ∈ {n | ∃ seq ∈ s.2, seq.toNat = n} ↔ seq ∈ s.2 := by
    simp [UInt32.toNat_inj]
  constructor
  · rw [hiff, SlidingWindow.Admits, hmem]
    simp
  · cases b with
    | false => exact hkeeps
    | true =>
      have hset : {n | ∃ w ∈ s.2 ++ [seq], w.toNat = n} =
          insert seq.toNat {n | ∃ w ∈ s.2, w.toNat = n} := by
        ext n
        simp [or_and_right, exists_or, or_comm, eq_comm]
      rw [if_pos rfl, ← hset] at hkeeps
      exact hkeeps

/-- The largest number that was accepted is `max`. -/
lemma Knows.isGreatest {s : SeqWindow × List UInt32} (h : Knows s) (hne : s.2 ≠ []) :
    IsGreatest {n | n ∈ s.2} s.1.max := by
  unfold Knows SlidingWindow.Keeps toWindow at h
  cases hstarted : s.1.started with
  | false =>
    simp only [hstarted, Bool.false_eq_true, if_false] at h
    obtain ⟨seq, hseq⟩ := List.exists_mem_of_ne_nil _ hne
    exact absurd h (Set.nonempty_iff_ne_empty.1 ⟨_, seq, hseq, rfl⟩)
  | true =>
    simp only [hstarted, if_true] at h
    obtain ⟨⟨seq, hseq, heq⟩, hle, -⟩ := h
    obtain rfl := UInt32.toNat_inj.1 heq
    exact ⟨hseq, fun n hn => UInt32.le_iff_toNat_le.2 (hle _ ⟨n, hn, rfl⟩)⟩

lemma knows_after (calls : List UInt32) : Knows (after calls) := by
  induction calls using List.reverseRecOn with
  | nil => simp [Knows, after, default, toWindow, SlidingWindow.Keeps]
  | append_singleton calls seq ih =>
    rw [after_append]
    exact (ih.accept_iff seq).2

/-- No number is accepted twice. -/
lemma nodup_after (calls : List UInt32) : (after calls).2.Nodup := by
  induction calls using List.reverseRecOn with
  | nil => exact List.nodup_nil
  | append_singleton calls seq ih =>
    rw [after_append, record]
    split_ifs with haccept
    · have hnew := (((knows_after calls).accept_iff seq).1.1 haccept).1
      rw [← List.concat_eq_append]
      exact ih.concat hnew
    · exact ih

/-- The first call is accepted, so that something has been once there were calls. -/
lemma after_eq_nil_iff (calls : List UInt32) : (after calls).2 = [] ↔ calls = [] := by
  constructor
  · intro h
    cases calls using List.reverseRecOn with
    | nil => rfl
    | append_singleton calls seq =>
      rw [after_append, record] at h
      split_ifs at h with haccept
      · simp at h
      · refine absurd (((knows_after calls).accept_iff seq).1.2 ?_) haccept
        rw [h]
        exact ⟨List.not_mem_nil, nofun⟩
  · rintro rfl
    rfl

/-- **The sequence window is exact.** However a new window was called before, it accepts a number
exactly if it has not accepted it and this is the first call or the number is less than 128 below
the largest that was accepted; and no number is accepted twice. -/
theorem window_exact (calls : List UInt32) :
    (∀ seq : UInt32, ((after calls).1.accept seq).2 = true ↔
      seq ∉ (after calls).2 ∧ (calls = [] ∨
        ∃ m, IsGreatest {n | n ∈ (after calls).2} m ∧ m.toNat < seq.toNat + 128)) ∧
    (after calls).2.Nodup := by
  refine ⟨fun seq => ?_, nodup_after calls⟩
  rw [((knows_after calls).accept_iff seq).1, ← after_eq_nil_iff]
  refine and_congr_right fun _ => ?_
  by_cases hnil : (after calls).2 = []
  · simp [hnil]
  · have hmax := (knows_after calls).isGreatest hnil
    constructor
    · exact fun h => .inr ⟨_, hmax, h _ hmax.1⟩
    · rintro (h | ⟨m, hm, hlt⟩) n hn
      · exact absurd h hnil
      · exact (UInt32.le_iff_toNat_le.1 (hm.2 hn)).trans_lt hlt

/-- The test `seq_window` of the source. -/
example : (after [10, 10, 12, 11, 11, 500, 373, 372, 10000, 500]).2 =
    [10, 12, 11, 500, 373, 10000] := by decide

end SeqWindow

/-! ### Contexts -/

/-- `Identity`: uid, gid and groups, or the anonymous user. -/
abbrev Identity := Option (UInt32 × UInt32 × List UInt32)

/-- `GssContext`, without what changes, and which context it is. -/
structure GssContext where
  id : ℕ
  key : Krb5.ContextKey
  principal : String
  identity : Identity
  expires : ℤ
  created : ℕ
deriving DecidableEq

/-- The tokens of a context key: `get_mic`, `verify_mic` and `unwrap`. -/
structure Tokens where
  getMic : Krb5.ContextKey → Sender → UInt64 → Bytes → Except Krb5.Error Bytes
  verifyMic : Krb5.ContextKey → Sender → Bytes → Bytes → Except Krb5.Error UInt64
  unwrap : Krb5.ContextKey → Sender → Bytes → Except Krb5.Error (Bytes × Bool × UInt64)

/-- The table of contexts, by handle. -/
abbrev Contexts := Table (Bytes × GssContext) fun a b => a.1 == b.1

namespace Contexts

/-- `get`. -/
def get (t : Contexts) (handle : Bytes) : Option GssContext :=
  (t.find? fun e => e.1 == handle).map Prod.snd

/-- `remove`. -/
def remove (t : Contexts) (handle : Bytes) : Contexts := t.erase fun e => e.1 == handle

/-- `insert`. -/
def put (t : Contexts) (handle : Bytes) (ctx : GssContext) : Contexts :=
  ((t.remove handle).insert (handle, ctx)).getD (t.remove handle)

/-- Drop the oldest context, a number of times. -/
def dropOldest : ℕ → Contexts → Contexts
  | 0, t => t
  | n + 1, t =>
    match t.entries.argmin fun e => e.2.created with
    | some e => dropOldest n (t.remove e.1)
    | none => t

/-- Make room if there are as many contexts as the limit: drop the expired ones, and then the
oldest. The loop of the source drops one context in each turn, until there are fewer than the limit.
-/
def makeRoom (limit : ℕ) (t : Contexts) (now : ℤ) : Contexts :=
  if t.entries.length ≥ limit then
    let t := t.erase fun e => !decide (e.2.expires > now)
    dropOldest (t.entries.length + 1 - limit) t
  else t

/-- The end of `init`: make room, and insert a context. -/
def insertContext (t : Contexts) (now : ℤ) (handle : Bytes) (ctx : GssContext) : Contexts :=
  (t.makeRoom MAX_CONTEXTS now).put handle ctx

end Contexts

/-! ### Questions -/

/-- What handling a call asks. -/
inductive Question
  /-- `acceptor.accept`. -/
  | acceptToken (token : Bytes)
  /-- `random_bytes`. -/
  | randomBytes (len : ℕ)
  /-- `idmap.identity`. -/
  | identity (principal : String)
  /-- `Arc::new` of a context. -/
  | newContext (acc : Krb5.Accepted) (identity : Identity)
  /-- `send_seq.fetch_add(1)`. -/
  | sendSeq (ctx : GssContext)
  /-- The end of `init`, under the lock of the table. -/
  | insert (handle : Bytes) (ctx : GssContext)
  | get (handle : Bytes)
  | remove (handle : Bytes)
  /-- `now_secs`. -/
  | now
  /-- `window.lock().accept`. -/
  | accept (ctx : GssContext) (seq : UInt32)

/-- What a question answers. -/
@[reducible] def Question.Answer : Question → Type
  | acceptToken _ => Except Krb5.Error Krb5.Accepted
  | randomBytes _ => Except Krb5.Error Bytes
  | identity _ => Identity
  | newContext .. => GssContext
  | sendSeq _ => UInt64
  | insert .. | remove _ => Unit
  | get _ => Option GssContext
  | now => ℤ
  | accept .. => Bool

/-- A program of the RPCSEC_GSS layer. -/
abbrev Op (α : Type) := Prog Question Question.Answer α

/-- Ask a question. -/
def query (q : Question) : Op q.Answer := Prog.query q

/-! ### Handling a call -/

/-- `GssReply`: how to protect the reply of a call. -/
structure GssReply where
  ctx : GssContext
  seq : UInt32
  service : UInt32
  proc : UInt32
  flavor : Dispatcher.SecFlavor

/-- `GssCall`: what to do with a call. -/
inductive GssCall
  | reply (msg : RpcReplyMsg)
  | drop
  | proceed (msg : RpcCallMsg) (info : GssReply)

/-- `denied`. -/
def denied (xid : UInt32) (stat : AuthStat) : RpcReplyMsg := ⟨xid, .msgDenied (.authError stat)⟩

/-- `accepted`. -/
def accepted (xid : UInt32) (verf : OpaqueAuth) (replyData : AcceptBody) : RpcReplyMsg :=
  ⟨xid, .msgAccepted verf replyData⟩

/-- `put_opaque`. -/
def putOpaque (data : Bytes) : Bytes :=
  beBytes 4 data.length ++ data ++ List.replicate (Codec.padding data.length) 0

/-- `take_opaque`: an XDR opaque at the front, and the rest. The padding may be missing. -/
def takeOpaque (buf : Bytes) : Option (Bytes × Bytes) :=
  if buf.length < 4 then none
  else
    let len := ofBytes (buf.take 4)
    if buf.length < 4 + len then none
    else some ((buf.drop 4).take len, buf.drop (4 + len + Codec.padding len))

/-- `from_gss_service`. -/
def flavorOfService (service : UInt32) : Option Dispatcher.SecFlavor :=
  if service = 1 then some .krb5
  else if service = 2 then some .krb5i
  else if service = 3 then some .krb5p
  else none

variable (C : Tokens)

/-- `GssContext::mic`. -/
def GssContext.mic (ctx : GssContext) (data : Bytes) : Op Bytes := do
  let seq : UInt64 ← query (.sendSeq ctx)
  pure ((C.getMic ctx.key .acceptor seq data).toOption.getD [])

/-- `rpc_gss_init_res`. -/
def initRes (handle : Bytes) (major window : UInt32) (token : Bytes) : Bytes :=
  putOpaque handle ++ beBytes 4 major.toNat ++ beBytes 4 0 ++ beBytes 4 window.toNat ++ putOpaque token

/-- `GSS_S_NO_CONTEXT`. -/
def GSS_S_NO_CONTEXT : UInt32 := 8 * 0x10000

/-- `GSS_S_DEFECTIVE_TOKEN`. -/
def GSS_S_DEFECTIVE_TOKEN : UInt32 := 9 * 0x10000

/-- `GSS_S_DEFECTIVE_CREDENTIAL`. -/
def GSS_S_DEFECTIVE_CREDENTIAL : UInt32 := 10 * 0x10000

/-- `GSS_S_CREDENTIALS_EXPIRED`. -/
def GSS_S_CREDENTIALS_EXPIRED : UInt32 := 11 * 0x10000

/-- `GSS_S_FAILURE`. -/
def GSS_S_FAILURE : UInt32 := 13 * 0x10000

/-- The major status for a token that is not accepted. -/
def majorOf : Krb5.Error → UInt32
  | .token _ | .asn1 _ => GSS_S_DEFECTIVE_TOKEN
  | .rejected text => if text = "ticket expired" then GSS_S_CREDENTIALS_EXPIRED else GSS_S_FAILURE
  | .integrity | .noKey _ => GSS_S_DEFECTIVE_CREDENTIAL
  | .unsupportedEnctype _ | .crypto _ => GSS_S_FAILURE

/-- `init`: a new context. -/
def init (xid : UInt32) (call : CallBody) (cred : RpcSecGssCred) (args : Bytes) : Op RpcReplyMsg :=
  let fail := fun major => accepted xid (.authNull []) (.successRaw (initRes [] major 0 []))
  if call.proc ≠ 0 then .pure (denied xid .authBadCred)
  else if cred.gssProc = 2 then .pure (fail GSS_S_NO_CONTEXT)
  else
    match takeOpaque args with
    | none => .pure (accepted xid (.authNull []) .garbageArgs)
    | some (token, _) => do
      let acc : Except Krb5.Error Krb5.Accepted ← query (.acceptToken token)
      match acc with
      | .error e => pure (fail (majorOf e))
      | .ok acc =>
        let handle : Except Krb5.Error Bytes ← query (.randomBytes 16)
        match handle with
        | .error _ => pure (fail GSS_S_FAILURE)
        | .ok handle =>
          let identity : Identity ← query (.identity acc.client)
          let ctx : GssContext ← query (.newContext acc identity)
          let verf ← ctx.mic C (beBytes 4 SEQ_WINDOW.toNat)
          let _ : Unit ← query (.insert handle ctx)
          pure (accepted xid (.gssVerf verf)
            (.successRaw (initRes handle 0 SEQ_WINDOW (acc.outputToken.getD []))))

/-- The verifier is the checksum of the header by the initiator. -/
def verified (ctx : GssContext) (header : Bytes) : OpaqueAuth → Bool
  | .gssVerf token => (C.verifyMic ctx.key .initiator header token).isOk
  | _ => false

/-- What the arguments of a call are inside their protection: with the sequence number in front, if
there is a protection. -/
def openArgs (ctx : GssContext) (service : UInt32) (args : Bytes) : Option Bytes :=
  if service = 1 then some args
  else if service = 2 then do
    let (body, rest) ← takeOpaque args
    let (cksum, _) ← takeOpaque rest
    if (C.verifyMic ctx.key .initiator body cksum).isOk then some body else none
  else do
    let (token, _) ← takeOpaque args
    match C.unwrap ctx.key .initiator token with
    | .ok (plain, true, _) => some plain
    | _ => none

/-- The arguments after the sequence number inside the protection, which has to be that of the
credential. -/
def stripSeq (service seqNum : UInt32) (args : Bytes) : Option Bytes :=
  if service = 1 then some args
  else if 4 ≤ args.length ∧ UInt32.ofNat (ofBytes (args.take 4)) = seqNum then some (args.drop 4)
  else none

/-- The call with its arguments decoded, if it is a COMPOUND. -/
def decodeArgs (call : CallBody) (args : Bytes) : Option CallBody :=
  if call.proc = 1 ∧ call.prog = 100003 then
    match Xdr.fromBytes Compound4args.codec args with
    | .ok a => some { call with args := some a }
    | .error _ => none
  else some call

/-- The credential of a principal. -/
def GssContext.cred (ctx : GssContext) : OpaqueAuth :=
  match ctx.identity with
  | some (uid, gid, gids) => .authUnix ⟨0, ctx.principal, uid, gid, gids⟩
  | none => .authNull []

/-- `data`: a call in a context, or the end of one. -/
def data (xid : UInt32) (call : CallBody) (cred : RpcSecGssCred) (raw : GssCallData) : Op GssCall := do
  let found : Option GssContext ← query (.get cred.handle)
  match found with
  | none => pure (.reply (denied xid .rpcsecGssCredProblem))
  | some ctx =>
    let now : ℤ ← query .now
    if ctx.expires < now then
      let _ : Unit ← query (.remove cred.handle)
      pure (.reply (denied xid .rpcsecGssCtxProblem))
    else if verified C ctx raw.header call.verf = false then
      pure (.reply (denied xid .rpcsecGssCredProblem))
    else if cred.seqNum ≥ MAXSEQ then
      let _ : Unit ← query (.remove cred.handle)
      pure (.reply (denied xid .rpcsecGssCtxProblem))
    else
      let new : Bool ← query (.accept ctx cred.seqNum)
      if new = false then pure .drop
      else if cred.gssProc = 3 then
        let _ : Unit ← query (.remove cred.handle)
        let verf ← ctx.mic C (beBytes 4 cred.seqNum.toNat)
        pure (.reply (accepted xid (.gssVerf verf) (.successRaw [])))
      else
        match flavorOfService cred.service with
        | none => pure (.reply (denied xid .authBadCred))
        | some flavor =>
          match ((openArgs C ctx cred.service raw.args).bind
              (stripSeq cred.service cred.seqNum)).bind (decodeArgs call) with
          | none => do
            let verf ← ctx.mic C (beBytes 4 cred.seqNum.toNat)
            pure (.reply (accepted xid (.gssVerf verf) .garbageArgs))
          | some call =>
            pure (.proceed ⟨xid, .call { call with cred := ctx.cred }⟩
              ⟨ctx, cred.seqNum, cred.service, call.proc, flavor⟩)

/-- `GssServer::handle`. -/
def handle (msg : RpcCallMsg) : Op GssCall :=
  match msg.body with
  | .call call =>
    match call.cred with
    | .authGss cred =>
      if cred.version ≠ 1 then .pure (.reply (denied msg.xid .authBadCred))
      else
        let raw := call.gss.getD ⟨[], []⟩
        let call := { call with gss := none }
        if cred.gssProc = 1 ∨ cred.gssProc = 2 then do
          let reply ← init C msg.xid call cred raw.args
          pure (.reply reply)
        else if cred.gssProc = 0 ∨ cred.gssProc = 3 then data C msg.xid call cred raw
        else .pure (.reply (denied msg.xid .authBadCred))
    | _ => .pure (.reply (denied msg.xid .authBadCred))
  | _ => .pure .drop

/-- The connection loop on a record, up to the service: the calls with an RPCSEC_GSS credential go
through `handle`. -/
def receive (record : Bytes) : Op (Option GssCall) :=
  let msg := yieldMessage record
  match msg.body with
  | .call call =>
    if call.cred.isGss then do
      let out ← handle C msg
      pure (some out)
    else .pure none
  | _ => .pure none

/-! ### What the connections share -/

/-- What the connections share: the table of contexts, how many contexts have been made, and the
window and the counter of each. -/
structure State where
  contexts : Contexts
  made : ℕ
  window : ℕ → SeqWindow
  sendSeq : ℕ → UInt64

/-- A server that starts. -/
def State.new : State := ⟨Table.empty, 0, fun _ => .default, fun _ => 0⟩

/-- How a question is answered, and what becomes of what is shared. The acceptor, the clocks, the
random numbers and the mapping of principals may answer anything; the table may list its entries in
any order. -/
def Step (s : State) : (q : Question) → q.Answer → State → Prop
  | .acceptToken _, _, s' | .randomBytes _, _, s' | .identity _, _, s' | .now, _, s' => s' = s
  | .newContext acc identity, ctx, s' =>
    (∃ created, ctx = ⟨s.made, acc.key, acc.client, identity, acc.expires, created⟩) ∧
      s' = { s with made := s.made + 1, sendSeq := Function.update s.sendSeq s.made acc.acceptorSeq }
  | .sendSeq ctx, n, s' =>
    n = s.sendSeq ctx.id ∧ s' = { s with sendSeq := Function.update s.sendSeq ctx.id (n + 1) }
  | .insert handle ctx, _, s' =>
    ∃ now contexts, contexts.entries.Perm (s.contexts.insertContext now handle ctx).entries ∧
      s' = { s with contexts := contexts }
  | .get handle, found, s' => found = s.contexts.get handle ∧ s' = s
  | .remove handle, _, s' => s' = { s with contexts := s.contexts.remove handle }
  | .accept ctx seq, new, s' =>
    ∃ w, (s.window ctx.id).accept seq = (w, new) ∧
      s' = { s with window := Function.update s.window ctx.id w }

end NextNfs.Gss
