import NextNfs.Krb5.Exchange
import NextNfs.Server.GssClient

set_option relaxedAutoImplicit false
set_option autoImplicit false

/-!
# Making a context

The first call of a client carries the message of its Kerberos initiator, and the reply the answer
of the acceptor. This module follows both through the server, while it handles any other records:
when the client comes out of it with a context, it has the key of the one that the server put into
its table.

## Main definitions

* `NextNfs.Gss.Answered` — the acceptor answers the tokens of a run, one after another.
* `NextNfs.Gss.finishWith` — the GSS-API library of a client, on the token in the reply.
* `NextNfs.Gss.Shared` — what the client and the server have of a context.

## Main results

* `NextNfs.Gss.handshake` — when a client gets a context, and what it shares with the server.

## Implementation notes

The acceptor works under its lock, so its answers are those of `accept_at` in the order in which the
tokens come to it. `random_bytes(16)` fills 16 bytes or fails.
-/

namespace NextNfs.Gss

open Wire Dialogue
open Krb5 (Primitives)

/-! ### The answers of the acceptor -/

section Answers

variable (M : Krb5.Mechanism) (keytab : List Krb5.KeytabEntry)

/-- In these events the acceptor answers these calls, starting with a replay cache. -/
inductive Answered : Krb5.ReplayCache → List Event → List Krb5.Call → Prop
  | nil (cache : Krb5.ReplayCache) : Answered cache [] []
  | token {cache : Krb5.ReplayCache} {c : Krb5.Call} {h : List Event} {calls : List Krb5.Call} :
      Answered (Krb5.acceptAt M keytab cache c).1 h calls →
      Answered cache (⟨.acceptToken c.input, (Krb5.acceptAt M keytab cache c).2⟩ :: h) (c :: calls)
  | other {cache : Krb5.ReplayCache} {e : Event} {h : List Event} {calls : List Krb5.Call} :
      (∀ token answer, e ≠ ⟨.acceptToken token, answer⟩) → Answered cache h calls →
      Answered cache (e :: h) calls

variable {M keytab}

/-- The answer to one of the tokens is that of the acceptor after the calls before it. -/
lemma Answered.exists_call {cache : Krb5.ReplayCache} {h₁ h₂ : List Event} {calls : List Krb5.Call}
    {token : Bytes} {answer : Except Krb5.Error Krb5.Accepted}
    (h : Answered M keytab cache (h₁ ++ ⟨.acceptToken token, answer⟩ :: h₂) calls) :
    ∃ before c after, calls = before ++ c :: after ∧ c.input = token ∧
      answer = (Krb5.acceptAt M keytab (Krb5.Acceptor.cacheAfter M keytab cache before) c).2 := by
  generalize hh : h₁ ++ ⟨.acceptToken token, answer⟩ :: h₂ = events at h
  induction h generalizing h₁ with
  | nil cache => simp at hh
  | @token cache c h calls hrest ih =>
    cases h₁ with
    | nil =>
      cases hh
      exact ⟨[], c, calls, rfl, rfl, rfl⟩
    | cons e h₁ =>
      obtain ⟨-, hh⟩ := List.cons.inj hh
      obtain ⟨before, c', after, rfl, hinput, hanswer⟩ := ih hh
      exact ⟨c :: before, c', after, rfl, hinput, hanswer⟩
  | @other cache e h calls hother hrest ih =>
    cases h₁ with
    | nil => exact absurd (List.cons.inj hh).1.symm (hother token answer)
    | cons e' h₁ => exact ih (List.cons.inj hh).2

end Answers

/-! ### The reply -/

variable (P : Primitives) (D : Krb5.Der)

/-- The second step of the client's library: the initiator takes the token, and the library goes on
with its key. -/
def finishWith (library : Krb5.ContextKey → ClientContext) (ini : Krb5.Initiator) (token : Bytes) :
    Option ClientContext :=
  (ini.finish P D token).toOption.map fun r => library r.1.key

section Reply

variable {finish : Bytes → Option ClientContext} {r verf handle token : Bytes}
  {xid flavor major window : UInt32}

/-- What a client reads of the reply to the call that makes a context. -/
lemma readEstablished_initRes
    (hparse : parseReply r xid = some ⟨flavor, verf, initRes handle major window token⟩)
    (hhandle : handle.length < 2 ^ 32) (htoken : token.length < 2 ^ 32) :
    readEstablished finish xid r = if major ≠ 0 then none else (finish token).bind fun L =>
      if flavor ≠ 6 ∨ L.verifyMic (words [window]) verf = false then none
      else some (⟨handle, window, token⟩, L) := by
  have hzero : beBytes 4 0 = beBytes 4 (0 : UInt32).toNat := rfl
  have hlast : takeOpaque (putOpaque token ++ []) = _ := takeOpaque_putOpaque htoken []
  rw [List.append_nil] at hlast
  unfold readEstablished
  simp only [hparse, Option.bind_eq_bind, Option.bind_some, initRes, List.append_assoc,
    takeOpaque_putOpaque hhandle, hzero, getU32_append, hlast]
  rfl

/-- A reply with the results of `init`, as a client parses it. -/
lemma parseReply_initRes {auth : OpaqueAuth} (hauth : auth.flavorBody = .ok (flavor, verf))
    (hverf : verf.length < 2 ^ 32) :
    ∃ bytes, (accepted xid auth (.successRaw (initRes handle major window token))).toBytes =
        .ok bytes ∧
      parseReply bytes xid = some ⟨flavor, verf, initRes handle major window token⟩ := by
  have hwords : (initRes handle major window token).length % 4 = 0 := by
    have h₁ := length_putOpaque_mod handle
    have h₂ := length_putOpaque_mod token
    simp only [initRes, List.length_append, length_beBytes]
    omega
  have hparse := @parseReply_accepted xid verf hverf flavor 0 (initRes handle major window token)
  rw [if_neg (by decide)] at hparse
  exact ⟨_, toBytes_accepted hauth hverf (serialize_successRaw hwords), hparse⟩

lemma majorOf_ne_zero (e : Krb5.Error) : majorOf e ≠ 0 := by
  unfold majorOf
  split
  case h_3 => split_ifs <;> decide
  all_goals decide

/-- A reply that a context was not made gives the client nothing. -/
lemma readEstablished_refused (hmajor : major ≠ 0) :
    ∃ bytes, (accepted xid (.authNull []) (.successRaw (initRes [] major 0 []))).toBytes = .ok bytes ∧
      readEstablished finish xid bytes = none := by
  obtain ⟨bytes, hbytes, hparse⟩ := @parseReply_initRes [] [] [] xid 0 major 0 (.authNull []) rfl
    (by decide)
  exact ⟨bytes, hbytes, by
    rw [readEstablished_initRes hparse (by decide) (by decide), if_pos hmajor]⟩

end Reply

/-! ### Making a context -/

/-- What the client and the server have of a context: the server put it into its table, under the
handle of the client, for the client's principal and with the key that the library goes on with. -/
structure Shared (key : Krb5.ContextKey) (principal : String) (stop : ℤ) (h : List Event)
    (est : Established) (L : ClientContext) : Prop where
  window : est.window = SEQ_WINDOW
  speaks : Speaks P key L
  context : ∃ ctx, (est.handle, ctx) ∈ insertions h ∧ ctx.key = key ∧ ctx.principal = principal ∧
    ctx.expires = stop ∧ (⟨.identity principal, ctx.identity⟩ : Event) ∈ h

/-- The handles that were drawn have the length that was asked for. -/
def Filled (h : List Event) : Prop :=
  ∀ bytes, (⟨.randomBytes 16, .ok bytes⟩ : Event) ∈ h → bytes.length = 16

lemma mem_turns {ι : Type} [DecidableEq ι] {i : ι} {h : List (ι × Event)} {e : Event}
    (hmem : (i, e) ∈ h) : e ∈ turns i h :=
  List.mem_map.2 ⟨_, List.mem_filter.2 ⟨hmem, by simp⟩, rfl⟩

/-- A new context is that of what was accepted. -/
lemma eq_of_newContext {h : List Event} {s t : State} {acc : Krb5.Accepted} {identity : Identity}
    {ctx : GssContext} (hallow : Allows Step s h t)
    (hmem : (⟨.newContext acc identity, ctx⟩ : Event) ∈ h) :
    ctx.key = acc.key ∧ ctx.principal = acc.client ∧ ctx.expires = acc.expires ∧
      ctx.identity = identity := by
  obtain ⟨h₁, h₂, rfl⟩ := List.append_of_mem hmem
  obtain ⟨u, -, hafter⟩ := hallow.of_append
  cases hafter with
  | cons hstep _ =>
  obtain ⟨⟨created, rfl⟩, -⟩ := hstep
  exact ⟨rfl, rfl, rfl, rfl⟩

/-- **Making a context.** Among any other records, a client sends the first message of its initiator,
to a server whose acceptor has the key of the ticket's service. It comes out of the reply with a
context if and only if the acceptor's clock is within the skew of the ticket's times and of the
authenticator's, the acceptor has not let the same authenticator pass within the lifetime of its
cache, and there were random bytes for the handle. It then has the handle of a context in the table
that is for its principal and whose key its own library goes on with, until the ticket expires.

**Proof sketch.** `init_runs_iff` says what is asked for the call; what the acceptor answers, and
that the initiator takes its token, is `Krb5.acceptAt_of_run` on the tokens that came before. -/
theorem handshake {ι : Type} [DecidableEq ι] (P : Primitives) {D : Krb5.Der} (hD : D.RoundTrips)
    (library : Krb5.ContextKey → ClientContext) (hlibrary : ∀ key, Speaks P key (library key))
    {keytab : List Krb5.KeytabEntry} {svc : Krb5.Keytab.Entry} {client : String} {start stop : ℤ}
    {flags : UInt32} {ctime : ℤ} {ini : Krb5.Initiator} {tok : Bytes}
    (hattempt : Krb5.Attempt P D keytab svc client start stop flags ctime ini tok)
    (hmutual : flags &&& Krb5.GSS_C_MUTUAL_FLAG ≠ 0) (records : ι → Bytes) (h : List (ι × Event))
    (left : ι → Op (Option GssCall)) (hrun : Serves (.cfx P) records h left) (i : ι) (xid : UInt32)
    (hrecord : records i = establishCall tok xid) (hlen : (records i).length < 2 ^ 32)
    {out : Option GssCall} (hleft : left i = .pure out) (calls : List Krb5.Call)
    (hanswered : Answered (Krb5.mechanism P D) keytab Table.empty (h.map Prod.snd) calls)
    (hclock : calls.Pairwise fun c c' => c.instant ≤ c'.instant) (hrandom : ∀ c ∈ calls, c.input = tok → c.Random)
    (hfilled : Filled (h.map Prod.snd))
    (hshort : ∀ a, (⟨.acceptToken tok, .ok a⟩ : Event) ∈ h.map Prod.snd →
      (a.outputToken.getD []).length < 2 ^ 32) :
    ∃ before c after reply bytes, calls = before ++ c :: after ∧ c.input = tok ∧
      out = some (.reply reply) ∧ reply.toBytes = .ok bytes ∧
      ((∃ r, readEstablished (finishWith P D library ini) xid bytes = some r) ↔
        Krb5.InTime start stop ctime c.now ∧
        (∀ p, Krb5.authenticate (Krb5.mechanism P D) keytab tok c.now = .ok p →
          ∀ t, (p.key, t) ∈ Krb5.Acceptor.passed (Krb5.mechanism P D) keytab Table.empty before →
            t + Krb5.ReplayCache.ttl ≤ c.instant) ∧
        ∃ handle, (i, (⟨.randomBytes 16, .ok handle⟩ : Event)) ∈ h) ∧
      ∀ est L, readEstablished (finishWith P D library ini) xid bytes = some (est, L) →
        Shared P ini.key (client ++ "@" ++ svc.realm) stop (h.map Prod.snd) est L := by
  have htok := hattempt.short
  obtain ⟨hinterleaves, t, hallow⟩ := hrun
  have hruns := hinterleaves.runs hleft
  rw [hrecord] at hlen hruns
  rw [receive_establishCall hlen] at hruns
  rcases hruns.of_bind with ⟨reply, h₁, h₂, hturns, hinit, hpure⟩ | ⟨hnone, -⟩
  swap
  · cases hnone
  cases hpure
  rw [List.append_nil] at hturns
  have hmem : ∀ e ∈ h₁, e ∈ h.map Prod.snd := by
    intro e he
    rw [← hturns] at he
    exact List.mem_map_of_mem (mem_of_mem_turns he)
  -- the call of the acceptor that answers this token, and what comes of it
  have hcall : ∀ answer rest, h₁ = ⟨.acceptToken tok, answer⟩ :: rest →
      ∃ before c after, calls = before ++ c :: after ∧ c.input = tok ∧
        ((∃ a, answer = .ok a) ↔ Krb5.InTime start stop ctime c.now ∧
          ∀ p, Krb5.authenticate (Krb5.mechanism P D) keytab tok c.now = .ok p →
            ∀ t, (p.key, t) ∈ Krb5.Acceptor.passed (Krb5.mechanism P D) keytab Table.empty before →
              t + Krb5.ReplayCache.ttl ≤ c.instant) ∧
        ∀ a, answer = .ok a → Krb5.Agree P D svc client stop flags ini a := by
    intro answer rest heq
    obtain ⟨k₁, k₂, hsplit, -⟩ := exists_of_turns_eq_cons (hturns.trans heq)
    rw [hsplit, List.map_append, List.map_cons] at hanswered
    obtain ⟨before, c, after, rfl, hinput, rfl⟩ := hanswered.exists_call
    refine ⟨before, c, after, rfl, hinput, ?_⟩
    exact Krb5.acceptAt_of_run hD hattempt hclock hrandom rfl hinput
  obtain ⟨e⟩ | ⟨acc, e⟩ | ⟨acc, handle, identity, ctx, n⟩ := (init_runs_iff htok).1 hinit
  · -- the acceptor refuses the token
    obtain ⟨before, c, after, hcalls, hinput, hiff, -⟩ := hcall _ _ rfl
    obtain ⟨bytes, hbytes, hreads⟩ := readEstablished_refused (majorOf_ne_zero e)
    refine ⟨before, c, after, _, bytes, hcalls, hinput, rfl, hbytes, ?_, fun est L hsome => ?_⟩
    · rw [hreads]
      refine iff_of_false nofun fun hok => ?_
      obtain ⟨a, ⟨⟩⟩ := hiff.2 ⟨hok.1, hok.2.1⟩
    · rw [hreads] at hsome
      cases hsome
  · -- there is no handle
    obtain ⟨before, c, after, hcalls, hinput, -, -⟩ := hcall _ _ rfl
    obtain ⟨bytes, hbytes, hreads⟩ := @readEstablished_refused _ xid GSS_S_FAILURE (by decide)
    refine ⟨before, c, after, _, bytes, hcalls, hinput, rfl, hbytes, ?_, fun est L hsome => ?_⟩
    · rw [hreads]
      refine iff_of_false nofun fun hok => ?_
      obtain ⟨handle, hhandle⟩ := hok.2.2
      have hturn := mem_turns hhandle
      rw [hturns] at hturn
      simp at hturn
    · rw [hreads] at hsome
      cases hsome
  · -- the context is in the table
    obtain ⟨before, c, after, hcalls, hinput, hiff, hagree⟩ := hcall _ _ rfl
    have hagree := hagree acc rfl
    obtain ⟨token, htoken, hfinish⟩ := hagree.bothWays hmutual
    have hhandle : handle.length = 16 := hfilled handle (hmem _ (by simp))
    have htokenLen : token.length < 2 ^ 32 := by
      have h := hshort acc (hmem _ (by simp))
      rwa [htoken] at h
    obtain ⟨hkey, hprincipal, hexpires, hidentity⟩ := eq_of_newContext hallow
      (hmem (⟨.newContext acc identity, ctx⟩ : Event) (by simp))
    rw [hagree.key] at hkey
    obtain ⟨mic, hmic, -⟩ := Krb5.verifyMic_getMic P ini.key .acceptor n (words [SEQ_WINDOW])
      hagree.length
    have hverf : ((Tokens.cfx P).getMic ctx.key .acceptor n (words [SEQ_WINDOW])).toOption.getD [] =
        mic := by
      show (ctx.key.getMic P .acceptor n (words [SEQ_WINDOW])).toOption.getD [] = mic
      rw [hkey, hmic]
      rfl
    rw [hverf, htoken]
    obtain ⟨bytes, hbytes, hparse⟩ := @parseReply_initRes mic handle token xid 6 0 SEQ_WINDOW
      (.gssVerf mic) rfl (length_getMic hmic)
    have hreads : readEstablished (finishWith P D library ini) xid bytes =
        some (⟨handle, SEQ_WINDOW, token⟩, library ini.key) := by
      have hspeaks := (hlibrary ini.key).verifyMic n _ mic hmic
      rw [readEstablished_initRes hparse (by omega) htokenLen, if_neg (by decide), finishWith,
        hfinish htokenLen]
      simp [Except.toOption, hspeaks]
    refine ⟨before, c, after, _, bytes, hcalls, hinput, rfl, hbytes, ?_, fun est L hsome => ?_⟩
    · have hhandleMem : (i, (⟨.randomBytes 16, .ok handle⟩ : Event)) ∈ h :=
        mem_of_mem_turns (by rw [hturns]; simp)
      rw [hreads]
      exact iff_of_true ⟨_, rfl⟩ ⟨(hiff.1 ⟨acc, rfl⟩).1, (hiff.1 ⟨acc, rfl⟩).2, handle, hhandleMem⟩
    · rw [hreads] at hsome
      cases hsome
      refine ⟨rfl, hlibrary ini.key, ctx, ?_, hkey, ?_, ?_, ?_⟩
      · exact List.mem_filterMap.2 ⟨⟨.insert handle ctx, ()⟩, hmem _ (by simp), rfl⟩
      · rw [hprincipal, hagree.client]
      · rw [hexpires, hagree.expires]
      · rw [hidentity, ← hagree.client]
        exact hmem _ (by simp)

/-! ### A context for one client -/

/-- The library of `alice`. -/
def sampleLibrary (key : Krb5.ContextKey) : ClientContext :=
  .ofKey Krb5.samplePrimitives key 0 zeroBlock

/-- The handle of her context. -/
def sampleHandle : Bytes := List.replicate 16 7

/-- Her message. -/
def sampleToken : Bytes := Krb5.build Krb5.TOK_ID_AP_REQ Krb5.sampleReqBytes

/-- The context that a server makes of what was accepted. -/
def contextOf (a : Krb5.Accepted) : GssContext := ⟨0, a.key, a.client, none, a.expires, 0⟩

/-- What is asked to make it. -/
def turnsOf (a : Krb5.Accepted) : List Event :=
  [⟨.acceptToken sampleToken, .ok a⟩, ⟨.randomBytes 16, .ok sampleHandle⟩, ⟨.identity a.client, none⟩,
    ⟨.newContext a none, contextOf a⟩, ⟨.sendSeq (contextOf a), a.acceptorSeq⟩,
    ⟨.insert sampleHandle (contextOf a), ()⟩]

/-- The server answers so. -/
lemma allows_turnsOf (a : Krb5.Accepted) : ∃ s, Allows Step .new (turnsOf a) s := by
  refine ⟨_, .cons rfl (.cons rfl (.cons rfl (.cons ⟨⟨0, rfl⟩, rfl⟩ (.cons ⟨?_, rfl⟩
    (.cons ⟨0, _, .refl _, rfl⟩ (.nil _))))))⟩
  simp [contextOf, State.new]

/-- The acceptor answers so. -/
lemma answered_turnsOf {M : Krb5.Mechanism} {keytab : List Krb5.KeytabEntry} {a : Krb5.Accepted}
    (ha : (Krb5.acceptAt M keytab Table.empty Krb5.sampleCall).2 = .ok a) :
    Answered M keytab Table.empty (turnsOf a) [Krb5.sampleCall] := by
  have hrest : ∀ cache, Answered M keytab cache (turnsOf a).tail [] := fun cache =>
    .other nofun (.other nofun (.other nofun (.other nofun (.other nofun (.nil cache)))))
  have h := Answered.token (hrest (Krb5.acceptAt M keytab Table.empty Krb5.sampleCall).1)
  rw [ha] at h
  exact h

/-- One handle is drawn, and one token accepted. -/
lemma mem_turnsOf {a : Krb5.Accepted} :
    (∀ bytes, (⟨.randomBytes 16, .ok bytes⟩ : Event) ∈ turnsOf a → bytes = sampleHandle) ∧
    ∀ a', (⟨.acceptToken sampleToken, .ok a'⟩ : Event) ∈ turnsOf a → a' = a := by
  constructor
  · intro bytes hmem
    simpa [turnsOf] using hmem
  · intro a' hmem
    simpa [turnsOf] using hmem

/-- `alice` makes a context with a server that has the key of the service. -/
theorem handshake_sample : ∃ h left bytes est L,
    Serves (.cfx Krb5.samplePrimitives) (fun _ : Unit => establishCall sampleToken 6) h left ∧
    readEstablished (finishWith Krb5.samplePrimitives Krb5.sampleDer sampleLibrary
      Krb5.sampleInitiator) 6 bytes = some (est, L) ∧
    Shared Krb5.samplePrimitives Krb5.sampleInitiator.key "alice@EXAMPLE.LO" 1700003600
      (h.map Prod.snd) est L := by
  have hsample := Krb5.acceptAt_attempt Krb5.roundTrips_sampleDer Krb5.attempt_sample
    (show ([] ++ [Krb5.sampleCall]).Pairwise _ from List.pairwise_singleton _ Krb5.sampleCall) rfl
    Krb5.random_sample
  have hpassed : Krb5.Acceptor.passed (Krb5.mechanism Krb5.samplePrimitives Krb5.sampleDer)
      [Krb5.Keytab.serviceKey.toKeytabEntry] Table.empty [] = [] := rfl
  obtain ⟨a, ha⟩ := hsample.1.2 ⟨Krb5.inTime_sample, fun p _ t ht => by simp [hpassed] at ht⟩
  have hlen : (establishCall sampleToken 6).length < 2 ^ 32 := by decide +kernel
  obtain ⟨reply, hruns⟩ : ∃ reply, Runs (receive (.cfx Krb5.samplePrimitives)
      (establishCall sampleToken 6)) (turnsOf a) (some (some (.reply reply))) := by
    rw [receive_establishCall hlen]
    exact ⟨_, ((init_runs_iff (by decide +kernel)).2
      (.established a sampleHandle none (contextOf a) a.acceptorSeq)).bind (.pure _)⟩
  have hturns := @Runs.interleaves _ _ _ _ _ (fun _ : Unit => receive (.cfx Krb5.samplePrimitives)
    (establishCall sampleToken 6)) () _ _ hruns
  have hmap : ((turnsOf a).map fun x => ((), x)).map Prod.snd = turnsOf a := by simp
  have hserves : Serves (.cfx Krb5.samplePrimitives) (fun _ : Unit => establishCall sampleToken 6) _ _ :=
    And.intro hturns (by rw [hmap]; exact allows_turnsOf a)
  obtain ⟨before, c, after, -, bytes, hcalls, -, -, -, hiff, hshared⟩ :=
    handshake Krb5.samplePrimitives Krb5.roundTrips_sampleDer sampleLibrary
      (fun key => speaks_ofKey _ key _ _) Krb5.attempt_sample (by decide) _ _ _ hserves () 6 rfl hlen rfl
      [Krb5.sampleCall] (by rw [hmap]; exact answered_turnsOf ha) (List.pairwise_singleton _ _)
      (fun c hc _ => by rw [List.mem_singleton.1 hc]; exact Krb5.random_sample)
      (fun bytes hmem => by
        rw [hmap] at hmem
        rw [mem_turnsOf.1 bytes hmem]
        rfl)
      (fun a' hmem => by
        rw [hmap] at hmem
        rw [mem_turnsOf.2 a' hmem, Krb5.outputToken_sample ha]
        decide +kernel)
  have hbefore : before = [] ∧ c = Krb5.sampleCall := by
    cases before with
    | nil => exact ⟨rfl, (List.cons.inj hcalls).1.symm⟩
    | cons b before => simp at hcalls
  obtain ⟨rfl, rfl⟩ := hbefore
  obtain ⟨⟨est, L⟩, hreads⟩ := hiff.2 ⟨Krb5.inTime_sample, fun p _ t ht => by simp [hpassed] at ht,
    sampleHandle, by simp [turnsOf]⟩
  exact ⟨_, _, bytes, est, L, hserves, hreads, hshared est L hreads⟩

end NextNfs.Gss
