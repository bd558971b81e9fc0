import NextNfs.Proto.Reply
import NextNfs.Server.Connections
import NextNfs.Server.GssReplies
import NextNfs.Server.ReplyRecords

set_option relaxedAutoImplicit false
set_option autoImplicit false

/-!
# The connection loop

This module models `handle_connection` of `nfs/src/lib.rs`: it takes messages off the stream of a
client one after another, puts the RPCSEC_GSS layer in front of the NFS service, and writes the
replies. It says what a client finds on its stream, and that the compounds of the connections are
those that `serve` stands for.

## Main definitions

* `NextNfs.Transport.service` — `NFSService::call`.
* `NextNfs.Transport.turn`, `NextNfs.Transport.handleConnection` — the loop.
* `NextNfs.Transport.Exchanged` — what becomes of the records of a client.
* `NextNfs.Transport.Reached` — a record holds a compound that reaches the service.

## Main results

* `NextNfs.Transport.exchanged` — each record is answered, in order, under its xid.
* `NextNfs.Transport.connections_serve` — the connections serve the compounds that reach the
  service.

## Implementation notes

A message is taken up when the one before it has been answered; what has come off the stream by then
makes no difference, so the loop gets the messages as a list.
-/

namespace NextNfs.Transport

open Wire Dialogue Dispatcher

/-! ### The loop -/

/-- What a connection asks of the RPCSEC_GSS layer and of the rest of the server, and what it writes
to its stream. -/
inductive Question
  | gss (q : Gss.Question)
  | nfs (q : Dispatcher.Question)
  | write (record : Bytes)

/-- What a question answers. Writing works or fails. -/
@[reducible] def Question.Answer : Question → Type
  | gss q => q.Answer
  | nfs q => q.Answer
  | write _ => Bool

/-- A program of the connections. -/
abbrev Op (α : Type) := Prog Question Question.Answer α

/-- A question with its answer. -/
abbrev Event := Σ q : Question, q.Answer

/-- The questions of the RPCSEC_GSS layer. -/
def gssWithin : Within Gss.Question.Answer Question.Answer := ⟨.gss, fun _ => .refl _⟩

/-- The questions of the service. -/
def nfsWithin : Within Dispatcher.Question.Answer Question.Answer := ⟨.nfs, fun _ => .refl _⟩

/-- The cache of filehandles of a connection. -/
abbrev Cache := List (NfsFh4 × ℕ × Handle)

variable (S : Server) (P : Krb5.Primitives) (keytab : Bool) (c : Dispatcher.Connection)

/-- A reply with nothing in it. -/
def plain (xid : UInt32) (data : AcceptBody) : RpcReplyMsg :=
  ⟨xid, .msgAccepted (.authNull []) data⟩

/-- One compound of a connection. -/
def one (call : CallBody) (flavor : SecFlavor) (cache : Cache) : Dispatcher.Op Outcome := do
  let _ : Unit ← query .arrive
  compound S call (.new c.clientAddr c.defaultFmanager c.bootTime cache flavor)

/-- `NFSService::call`, on a request of the connection: the reply, and the cache afterwards. -/
def service (msg : RpcCallMsg) (flavor : SecFlavor) (cache : Cache) :
    Dispatcher.Op (RpcReplyMsg × Cache) :=
  match msg.body with
  | .call call =>
    if call.prog ≠ 100003 then .pure (plain msg.xid .progUnavail, cache)
    else if call.vers ≠ 4 then .pure (plain msg.xid (.progMismatch 4 4), cache)
    else if call.cred.isGss then .pure (⟨msg.xid, .msgDenied (.authError .authBadCred)⟩, cache)
    else if call.proc = 0 then .pure (plain msg.xid (.success ⟨.nfs4Ok, "", []⟩), cache)
    else if call.proc = 1 then do
      let out ← one S c call flavor cache
      pure (compoundReply msg.xid out, out.request.filehandleCache)
    else .pure (plain msg.xid .procUnavail, cache)
  | _ => .pure (plain msg.xid .garbageArgs, cache)

/-- The RPCSEC_GSS layer on a message, if there is a keytab and the credential is one of its own. -/
def authenticate (msg : RpcCallMsg) : Gss.Op (Option Gss.GssCall) :=
  match msg.body with
  | .call call =>
    if call.cred.isGss && keytab then do
      let out ← Gss.handle (.cfx P) msg
      pure (some out)
    else .pure none
  | _ => .pure none

/-- The reply to a message, if there is one, and the cache afterwards. -/
def answer (msg : RpcCallMsg) (cache : Cache) : Op (Option RpcReplyMsg × Cache) :=
  match msg.body with
  | .parseError _ => .pure (some (plain msg.xid .garbageArgs), cache)
  | _ => do
    let out ← (authenticate P keytab msg).embed gssWithin
    match out with
    | some (.reply reply) => pure (some reply, cache)
    | some .drop => pure (none, cache)
    | some (.proceed msg info) => do
      let (reply, cache) ← (service S c msg info.flavor cache).embed nfsWithin
      let reply ← (Gss.wrapReply P reply info).embed gssWithin
      pure (some reply, cache)
    | none => do
      let (reply, cache) ← (service S c msg .sys cache).embed nfsWithin
      pure (some reply, cache)

/-- `nfs_transport.send`: whether it worked. -/
def send (reply : RpcReplyMsg) : Op Bool :=
  match encode reply [] with
  | .ok record => Prog.query (Question.write record)
  | .error _ => .pure false

/-- One turn of the loop: whether the connection goes on, and the cache afterwards. -/
def turn (msg : RpcCallMsg) (cache : Cache) : Op (Bool × Cache) := do
  let (reply, cache) ← answer S P keytab c msg cache
  match reply with
  | some reply => do
    let sent ← send reply
    pure (sent, cache)
  | none => pure (true, cache)

/-- `handle_connection`, on what comes off the stream. An error of the codec ends the connection,
and so does a reply that cannot be sent. -/
def handleConnection : List (Except String RpcCallMsg) → Cache → Op Unit
  | [], _ => .pure ()
  | .error _ :: _, _ => .pure ()
  | .ok msg :: rest, cache => do
    let (goOn, cache) ← turn S P keytab c msg cache
    if goOn then handleConnection rest cache else pure ()

/-! ### What is asked and written -/

/-- What was written, and whether that worked. -/
def written : Event → Option (Bytes × Bool)
  | ⟨.write record, ok⟩ => some (record, ok)
  | _ => none

/-- What was written in some events. -/
def writes (h : List Event) : List (Bytes × Bool) := h.filterMap written

/-- The stream of a client: what could be written. -/
def received (h : List Event) : Bytes :=
  (writes h).flatMap fun w => if w.2 then w.1 else []

/-- An event of the service. -/
def nfsEvent : Event → Option Dispatcher.Event
  | ⟨.nfs q, a⟩ => some ⟨q, a⟩
  | _ => none

/-- The events of the service among some events. -/
def nfsEvents (h : List Event) : List Dispatcher.Event := h.filterMap nfsEvent

@[simp] lemma writes_append (h₁ h₂ : List Event) : writes (h₁ ++ h₂) = writes h₁ ++ writes h₂ :=
  List.filterMap_append

@[simp] lemma nfsEvents_append (h₁ h₂ : List Event) :
    nfsEvents (h₁ ++ h₂) = nfsEvents h₁ ++ nfsEvents h₂ := List.filterMap_append

@[simp] lemma nfsEvents_gss (h : List Gss.Event) : nfsEvents (h.map gssWithin.event) = [] := by
  simp [nfsEvents, nfsEvent, Within.event, gssWithin, List.filterMap_map, Function.comp_def]

@[simp] lemma nfsEvents_nfs (h : List Dispatcher.Event) :
    nfsEvents (h.map nfsWithin.event) = h := by
  simp [nfsEvents, nfsEvent, Within.event, nfsWithin, List.filterMap_map, Function.comp_def]

lemma writes_eq_nil {h : List Event} (hquiet : ∀ e ∈ h, ∀ record, e.1 ≠ .write record) :
    writes h = [] := by
  refine List.filterMap_eq_nil_iff.2 fun e he => ?_
  obtain ⟨q, a⟩ := e
  cases q with
  | gss q => rfl
  | nfs q => rfl
  | write record => exact absurd rfl (hquiet _ he record)

/-! ### Answers -/

/-- An answer of the RPCSEC_GSS layer is under the xid of the call; a call is dropped only if
`D`. -/
def KeepsTo (xid : UInt32) (D : Prop) : Gss.GssCall → Prop
  | .reply reply => reply.xid = xid
  | .drop => D
  | .proceed msg _ => msg.xid = xid

section Gss

variable {C : Gss.Tokens} {law : (q : Gss.Question) → q.Answer → Prop} {D : Prop}

lemma mic_does {ctx : Gss.GssContext} {data : Bytes} {post : Bytes → Prop} (hpost : ∀ m, post m) :
    (ctx.mic C data).Does law (fun _ => True) False post := by
  unfold Gss.GssContext.mic
  exact ⟨trivial, fun _ _ => hpost _⟩

lemma init_does (xid : UInt32) (call : CallBody) (cred : RpcSecGssCred) (args : Bytes) :
    (Gss.init C xid call cred args).Does law (fun _ => True) False
      fun reply => reply.xid = xid := by
  unfold Gss.init
  dsimp only
  split_ifs
  · exact rfl
  · exact rfl
  split
  · exact rfl
  refine .bind ⟨trivial, fun acc _ => ?_⟩
  cases acc with
  | error e => exact rfl
  | ok acc =>
    refine .bind ⟨trivial, fun handle _ => ?_⟩
    cases handle with
    | error e => exact rfl
    | ok handle =>
      refine .bind ⟨trivial, fun identity _ => .bind ⟨trivial, fun ctx _ => ?_⟩⟩
      exact .bind (mic_does fun verf => .bind ⟨trivial, fun _ _ => rfl⟩)

lemma data_does (hlaw : ∀ ctx seq, law (.accept ctx seq) false → D) (xid : UInt32) (call : CallBody)
    (cred : RpcSecGssCred) (raw : GssCallData) :
    (Gss.data C xid call cred raw).Does law (fun _ => True) False (KeepsTo xid D) := by
  unfold Gss.data
  refine .bind ⟨trivial, fun found _ => ?_⟩
  cases found with
  | none => exact rfl
  | some ctx =>
    refine .bind ⟨trivial, fun now _ => ?_⟩
    rw [Prog.does_pure]
    split
    · exact .bind ⟨trivial, fun _ _ => rfl⟩
    split
    · exact rfl
    split
    · exact .bind ⟨trivial, fun _ _ => rfl⟩
    refine .bind ⟨trivial, fun new hnew => ?_⟩
    cases new with
    | false => exact hlaw _ _ hnew
    | true =>
      rw [Prog.does_pure, if_neg (by simp)]
      split
      · exact .bind ⟨trivial, fun _ _ => .bind (mic_does fun _ => rfl)⟩
      split
      · exact rfl
      split
      · exact .bind (mic_does fun _ => rfl)
      · exact rfl

lemma handle_does (hlaw : ∀ ctx seq, law (.accept ctx seq) false → D) {msg : RpcCallMsg}
    {call : CallBody} (hcall : msg.body = .call call) :
    (Gss.handle C msg).Does law (fun _ => True) False (KeepsTo msg.xid D) := by
  unfold Gss.handle
  rw [hcall]
  dsimp only
  split
  · split_ifs
    · exact rfl
    · exact .bind ((init_does _ _ _ _).imp fun _ h => h)
    · exact data_does hlaw _ _ _ _
    · exact rfl
  · exact rfl

lemma wrapReply_does {P : Krb5.Primitives} (reply : RpcReplyMsg) (info : Gss.GssReply) :
    (Gss.wrapReply P reply info).Does law (fun _ => True) False fun r => r.xid = reply.xid := by
  unfold Gss.wrapReply
  split
  · exact rfl
  · refine .bind (mic_does fun verf => ?_)
    split_ifs
    · exact rfl
    · split
      · exact rfl
      · exact rfl
      · refine .bind ?_
        unfold Gss.protect
        split_ifs
        · exact .bind (mic_does fun _ => rfl)
        · refine .bind ⟨trivial, fun _ _ => .bind ⟨trivial, fun _ _ => ?_⟩⟩
          simp only [Prog.does_pure]
          split <;> exact rfl
        · exact rfl

end Gss

/-- A call is a COMPOUND that the service carries out. -/
structure IsCompound (call : CallBody) : Prop where
  prog : call.prog = 100003
  vers : call.vers = 4
  cred : call.cred.isGss = false
  proc : call.proc = 1

variable {S : Server} {P : Krb5.Primitives} {keytab : Bool} {c : Dispatcher.Connection}
  {msg : RpcCallMsg} {cache cache' : Cache} {h : List Event}

/-- The service answers at once, or carries out a COMPOUND. -/
lemma service_cases (flavor : SecFlavor) :
    (∃ reply, reply.xid = msg.xid ∧ service S c msg flavor cache = .pure (reply, cache)) ∨
    ∃ call, msg.body = .call call ∧ IsCompound call ∧
      service S c msg flavor cache = (one S c call flavor cache).bind fun out =>
        .pure (compoundReply msg.xid out, out.request.filehandleCache) := by
  unfold service
  split
  · rename_i call hcall
    split
    · exact .inl ⟨_, rfl, rfl⟩
    rename_i hprog
    split
    · exact .inl ⟨_, rfl, rfl⟩
    rename_i hvers
    split
    · exact .inl ⟨_, rfl, rfl⟩
    rename_i hcred
    split
    · exact .inl ⟨_, rfl, rfl⟩
    split
    · rename_i hproc
      refine .inr ⟨call, hcall, ⟨?_, ?_, ?_, hproc⟩, rfl⟩
      · simpa using hprog
      · simpa using hvers
      · simpa using hcred
    · exact .inl ⟨_, rfl, rfl⟩
  · exact .inl ⟨_, rfl, rfl⟩

/-- The service replies under the xid of the message. -/
lemma service_does {law : (q : Dispatcher.Question) → q.Answer → Prop} (flavor : SecFlavor) :
    (service S c msg flavor cache).Does law (fun _ => True) True fun x => x.1.xid = msg.xid := by
  obtain ⟨reply, hxid, heq⟩ | ⟨call, -, -, heq⟩ := @service_cases S c msg cache flavor
  · rw [heq]
    exact hxid
  · rw [heq, Prog.does_bind]
    exact Prog.does_of_forall (fun _ => rfl) _

/-- The RPCSEC_GSS layer has to do with calls only. -/
lemma authenticate_does {law : (q : Gss.Question) → q.Answer → Prop} {D : Prop}
    (hlaw : ∀ ctx seq, law (.accept ctx seq) false → D) :
    (authenticate P keytab msg).Does law (fun _ => True) False fun out =>
      ∀ g ∈ out, KeepsTo msg.xid D g := by
  unfold authenticate
  split
  · rename_i call hcall
    split
    · refine .bind ((handle_does hlaw hcall).imp fun g hg => ?_)
      rintro _ ⟨⟩
      exact hg
    · simp
  · simp

/-- A message that proceeds has passed the checks. -/
lemma authenticate_runs {h : List Gss.Event} {msg' : RpcCallMsg} {info : Gss.GssReply}
    (hrun : Runs (authenticate P keytab msg) h (some (some (.proceed msg' info)))) :
    ∃ call cred, msg.body = .call call ∧ call.cred = .authGss cred ∧
      Gss.Passes (.cfx P) msg.xid { call with gss := none } cred (call.gss.getD ⟨[], []⟩) h msg'
        info := by
  unfold authenticate at hrun
  split at hrun
  · split at hrun
    · rw [Prog.bind_eq] at hrun
      obtain ⟨out, h₁, h₂, rfl, hhandle, hpure⟩ | ⟨hnone, -⟩ := hrun.of_bind
      · cases hpure
        rw [List.append_nil]
        exact Gss.handle_runs hhandle
      · cases hnone
    · cases hrun
  · cases hrun

/-- A message is answered under its xid, or not at all if `D`, and nothing is written. -/
lemma answer_does {law : (q : Question) → q.Answer → Prop} {D : Prop}
    (hlaw : ∀ ctx seq, law (.gss (.accept ctx seq)) false → D) :
    (answer S P keytab c msg cache).Does law (fun q => ∀ record, q ≠ .write record) True fun x =>
      (∀ reply, x.1 = some reply → reply.xid = msg.xid) ∧ (x.1 = none → D) := by
  unfold answer
  split
  · refine ⟨?_, nofun⟩
    rintro _ ⟨⟩
    rfl
  · refine .bind ((Prog.does_embed _).2 ?_)
    refine (@authenticate_does P keytab msg (fun q a => law (.gss q) a) D hlaw).mono
      (fun q _ record => nofun) False.elim fun out hout => ?_
    rcases out with _ | (reply | _ | ⟨msg', info⟩)
    · refine .bind ((Prog.does_embed _).2 ((service_does .sys).mono (fun q _ record => nofun) id
        fun x hx => ⟨?_, nofun⟩))
      rintro _ ⟨⟩
      exact hx
    · refine ⟨?_, nofun⟩
      rintro _ ⟨⟩
      exact hout _ rfl
    · exact ⟨nofun, fun _ => hout _ rfl⟩
    · have hxid : msg'.xid = msg.xid := hout _ rfl
      refine .bind ((Prog.does_embed _).2 ((service_does info.flavor).mono
        (fun q _ record => nofun) id fun x hx => .bind ((Prog.does_embed _).2
          ((wrapReply_does x.1 info).mono (fun q _ record => nofun) False.elim
            fun r hr => ⟨?_, nofun⟩))))
      rintro _ ⟨⟩
      exact hr.trans (hx.trans hxid)

/-! ### The compounds that are carried out -/

/-- A record holds a compound that reaches the service: as it is, or through the checks of a context
of RPCSEC_GSS. -/
inductive Reached (P : Krb5.Primitives) (h : List Event) (record : Bytes) :
    CallBody × SecFlavor → Prop
  | sys {call : CallBody} (hcall : (yieldMessage record).body = .call call)
      (hcompound : IsCompound call) : Reached P h record (call, .sys)
  | gss {outer call : CallBody} {cred : RpcSecGssCred} {h' : List Gss.Event} {msg : RpcCallMsg}
      {info : Gss.GssReply} (houter : (yieldMessage record).body = .call outer)
      (hcred : outer.cred = .authGss cred)
      (hpasses : Gss.Passes (.cfx P) (yieldMessage record).xid { outer with gss := none } cred
        (outer.gss.getD ⟨[], []⟩) h' msg info)
      (hmem : ∀ e ∈ h', gssWithin.event e ∈ h) (hcall : msg.body = .call call)
      (hcompound : IsCompound call) : Reached P h record (call, info.flavor)

lemma Reached.mono {P : Krb5.Primitives} {h h' : List Event} {record : Bytes}
    {x : CallBody × SecFlavor} (hreached : Reached P h record x) (hsub : ∀ e ∈ h, e ∈ h') :
    Reached P h' record x := by
  cases hreached with
  | sys hcall hcompound => exact .sys hcall hcompound
  | gss houter hcred hpasses hmem hcall hcompound =>
    exact .gss houter hcred hpasses (fun e he => hsub _ (hmem e he)) hcall hcompound

/-- What has been carried out of a record when this is left of its turn: nothing, or a compound that
has ended if the turn has, and that has crashed if it has. -/
inductive Takes (S : Server) (P : Krb5.Primitives) (c : Dispatcher.Connection) (record : Bytes)
    (cache : Cache) (h : List Event) {α : Type} (left : Op (α × Cache)) : Prop
  | nothing (hnone : nfsEvents h = []) (hpanic : left ≠ .panic)
      (hcache : ∀ a cache', left = .pure (a, cache') → cache' = cache)
  | compound {call : CallBody} {flavor : SecFlavor} {p : Dispatcher.Op Outcome}
      (hreached : Reached P h record (call, flavor))
      (hleaves : Leaves (one S c call flavor cache) (nfsEvents h) p)
      (hpanic : left = .panic ↔ p = .panic)
      (hcache : ∀ a cache', left = .pure (a, cache') →
        ∃ out, p = .pure out ∧ cache' = out.request.filehandleCache)

variable {record : Bytes}

/-- The service carries out one compound, or nothing. -/
lemma service_takes {flavor : SecFlavor} {h' : List Dispatcher.Event}
    {r : Dispatcher.Op (RpcReplyMsg × Cache)}
    (hreached : ∀ call, msg.body = .call call → IsCompound call → Reached P h record (call, flavor))
    (hleaves : Leaves (service S c msg flavor cache) h' r) (hevents : nfsEvents h = h') :
    Takes S P c record cache h (r.embed nfsWithin) := by
  obtain ⟨reply, -, heq⟩ | ⟨call, hcall, hcompound, heq⟩ := @service_cases S c msg cache flavor
  · rw [heq] at hleaves
    obtain ⟨rfl, rfl⟩ := hleaves.of_pure
    refine .nothing hevents nofun ?_
    rintro _ _ ⟨⟩
    rfl
  · rw [heq] at hleaves
    obtain ⟨out, h₁, h₂, rfl, hone, hpure⟩ | ⟨p, hp, hone, rfl⟩ := hleaves.of_bind
    · obtain ⟨rfl, rfl⟩ := hpure.of_pure
      rw [List.append_nil] at hevents
      rw [← hevents] at hone
      refine .compound (hreached call hcall hcompound) hone (by simp [Prog.embed]) ?_
      rintro _ _ ⟨⟩
      exact ⟨out, rfl, rfl⟩
    · rw [← hevents] at hone
      refine .compound (hreached call hcall hcompound) hone ?_ fun a cache' heq => ?_
      · rw [Prog.embed_eq_panic, Prog.bind_eq_panic hp]
      · exact absurd (Prog.embed_eq_pure.1 heq) (Prog.bind_ne_pure hp _)

lemma nfsEvents_eq_nil (hquiet : ∀ e ∈ h, ∀ q, e.1 ≠ .nfs q) : nfsEvents h = [] := by
  refine List.filterMap_eq_nil_iff.2 fun e he => ?_
  obtain ⟨q, a⟩ := e
  cases q with
  | gss q => rfl
  | nfs q => exact absurd rfl (hquiet _ he q)
  | write record => rfl

/-- The program asks nothing of the service, does not crash, and leaves the cache as it is. -/
def Quiet {α : Type} (p : Op (α × Cache)) (cache : Cache) : Prop :=
  p.Does (fun _ _ => True) (fun q => ∀ q', q ≠ .nfs q') False fun x => x.2 = cache

/-- What a quiet program leaves. -/
lemma Quiet.takes {α : Type} {p r : Op (α × Cache)} (hp : Quiet p cache) (hleaves : Leaves p h r) :
    nfsEvents h = [] ∧ r ≠ .panic ∧ ∀ a cache', r = .pure (a, cache') → cache' = cache := by
  obtain ⟨hasks, hleft⟩ := hleaves.does hp fun _ _ => trivial
  refine ⟨nfsEvents_eq_nil hasks, ?_, ?_⟩
  · rintro rfl
    exact hleft
  · rintro a cache' rfl
    exact hleft

/-- A quiet program may follow. -/
lemma takes_bind {α β : Type} {p : Op (α × Cache)} {f : α × Cache → Op (β × Cache)}
    {r : Op (β × Cache)} {h₀ : List Event} (hleaves : Leaves (p.bind f) h r)
    (hp : ∀ h' s, Leaves p h' s → Takes S P c record cache (h₀ ++ h') s)
    (hf : ∀ a cache', Quiet (f (a, cache')) cache') : Takes S P c record cache (h₀ ++ h) r := by
  obtain ⟨⟨a, cache'⟩, h₁, h₂, rfl, hfirst, hsecond⟩ | ⟨s, hs, hfirst, rfl⟩ := hleaves.of_bind
  · obtain ⟨hnone, hpanic, hcache⟩ := (hf a cache').takes hsecond
    rw [← List.append_assoc]
    cases hp h₁ _ hfirst with
    | nothing hnone' hpanic' hcache' =>
      refine .nothing ?_ hpanic fun b cache'' hr => ?_
      · rw [nfsEvents_append, hnone', hnone]
        rfl
      · rw [hcache b cache'' hr, hcache' a cache' rfl]
    | @compound call flavor q hreached hone hpanic' hcache' =>
      obtain ⟨out, rfl, hout⟩ := hcache' a cache' rfl
      refine .compound (p := .pure out) (hreached.mono fun e he => List.mem_append_left h₂ he) ?_
        (iff_of_false hpanic nofun) fun b cache'' hr => ⟨out, rfl, ?_⟩
      · rw [nfsEvents_append, hnone, List.append_nil]
        exact hone
      · rw [hcache b cache'' hr, hout]
  · cases hp h s hfirst with
    | nothing hnone hpanic hcache =>
      exact .nothing hnone (by rwa [Ne, Prog.bind_eq_panic hs]) fun b cache' hr =>
        absurd hr (Prog.bind_ne_pure hs _)
    | compound hreached hone hpanic hcache =>
      exact .compound hreached hone (by rw [Prog.bind_eq_panic hs, hpanic]) fun b cache' hr =>
        absurd hr (Prog.bind_ne_pure hs _)

/-- Answering a message carries out one compound, or nothing. -/
lemma answer_takes {r : Op (Option RpcReplyMsg × Cache)}
    (hleaves : Leaves (answer S P keytab c (yieldMessage record) cache) h r) :
    Takes S P c record cache h r := by
  unfold answer at hleaves
  split at hleaves
  · obtain ⟨rfl, rfl⟩ := hleaves.of_pure
    refine .nothing rfl nofun ?_
    rintro _ _ ⟨⟩
    rfl
  obtain ⟨out, h₁, h₂, rfl, hauth, hrest⟩ | ⟨s, hs, hauth, rfl⟩ := hleaves.of_bind
  · obtain ⟨h', p, rfl, hpart, hp⟩ := hauth.of_embed
    obtain rfl := Prog.embed_eq_pure.1 hp.symm
    rcases out with _ | (reply | _ | ⟨msg, info⟩)
    · refine takes_bind hrest (fun h'' s hservice => ?_) fun reply cache' => rfl
      obtain ⟨h₃, p, rfl, hserves, rfl⟩ := hservice.of_embed
      exact service_takes (fun call hcall hcompound => .sys hcall hcompound) hserves (by simp)
    · obtain ⟨rfl, rfl⟩ := hrest.of_pure
      refine .nothing (by simp) nofun ?_
      rintro _ _ ⟨⟩
      rfl
    · obtain ⟨rfl, rfl⟩ := hrest.of_pure
      refine .nothing (by simp) nofun ?_
      rintro _ _ ⟨⟩
      rfl
    · obtain ⟨outer, cred, houter, hcred, hpasses⟩ := authenticate_runs hpart.runs
      refine takes_bind hrest (fun h'' s hservice => ?_) fun reply cache' => ?_
      · obtain ⟨h₃, p, rfl, hserves, rfl⟩ := hservice.of_embed
        exact service_takes (fun call hcall hcompound => .gss houter hcred hpasses
          (fun e he => List.mem_append_left _ (List.mem_map_of_mem he)) hcall hcompound) hserves
          (by simp)
      · exact .bind ((Prog.does_embed _).2 ((wrapReply_does reply info).mono
          (fun q _ q' => nofun) id fun _ _ => rfl))
  · obtain ⟨h', p, rfl, hpart, rfl⟩ := hauth.of_embed
    have hdoes : (authenticate P keytab (yieldMessage record)).Does (fun _ _ => True)
        (fun _ => True) False fun out => ∀ g ∈ out, KeepsTo _ True g :=
      authenticate_does fun _ _ _ => trivial
    obtain ⟨-, hleft⟩ := hpart.does hdoes fun _ _ => trivial
    refine .nothing (nfsEvents_gss h') ?_ fun a cache' hr => absurd hr (Prog.bind_ne_pure hs _)
    rw [Ne, Prog.bind_eq_panic hs, Prog.embed_eq_panic]
    rintro rfl
    exact hleft

lemma send_does {law : (q : Question) → q.Answer → Prop} (reply : RpcReplyMsg) :
    (send reply).Does law (fun q => ∀ q', q ≠ .nfs q') False fun _ => True := by
  unfold send
  split
  · exact ⟨fun q' => nofun, fun _ _ => trivial⟩
  · trivial

/-- A turn carries out one compound, or nothing. -/
lemma turn_takes {r : Op (Bool × Cache)}
    (hleaves : Leaves (turn S P keytab c (yieldMessage record) cache) h r) :
    Takes S P c record cache h r := by
  refine @takes_bind S P c cache h record _ _ _ _ _ [] hleaves
    (fun h' s hanswer => answer_takes hanswer) fun reply cache' => ?_
  cases reply with
  | none => exact rfl
  | some reply => exact .bind ((send_does reply).imp fun _ _ => rfl)

/-! ### The connections as a whole -/

/-- The first compound of a connection, and the others. -/
lemma serve_cons (call : CallBody) (flavor : SecFlavor) (rest : List (CallBody × SecFlavor))
    (cache : Cache) :
    serve S c ((call, flavor) :: rest) cache = (one S c call flavor cache).bind fun out =>
      (serve S c rest out.request.filehandleCache).bind fun outs => .pure (out :: outs) := rfl

/-- An error of the codec ends a connection. -/
lemma handleConnection_errors (errors : List String) :
    handleConnection S P keytab c (errors.map .error) cache = .pure () := by
  cases errors <;> rfl

/-- What is left of a connection that gets these records: it has carried out the compounds of some
of them, in order. -/
lemma handleConnection_leaves {records : List Bytes} {errors : List String} {left : Op Unit}
    (hleaves : Leaves (handleConnection S P keytab c
      (records.map (fun r => .ok (yieldMessage r)) ++ errors.map .error) cache) h left) :
    ∃ calls left', Leaves (serve S c calls cache) (nfsEvents h) left' ∧
      (left = .panic ↔ left' = .panic) ∧
      ∃ taken : List Bytes, taken.Sublist records ∧ List.Forall₂ (Reached P h) taken calls := by
  induction records generalizing cache h with
  | nil =>
    rw [List.map_nil, List.nil_append, handleConnection_errors] at hleaves
    obtain ⟨rfl, rfl⟩ := hleaves.of_pure
    exact ⟨[], .pure [], .nil _, by simp, [], .slnil, .nil⟩
  | cons record records ih =>
    obtain ⟨⟨goOn, cache'⟩, h₁, h₂, rfl, hturn, hrest⟩ | ⟨s, hs, hturn, rfl⟩ := hleaves.of_bind
    · have hrec : ∃ calls left', Leaves (serve S c calls cache') (nfsEvents h₂) left' ∧
          (left = .panic ↔ left' = .panic) ∧ ∃ taken : List Bytes, taken.Sublist records ∧
            List.Forall₂ (Reached P h₂) taken calls := by
        cases goOn with
        | true => exact ih hrest
        | false =>
          obtain ⟨rfl, rfl⟩ := Leaves.of_pure hrest
          exact ⟨[], .pure [], .nil _, by simp, [], List.nil_sublist _, .nil⟩
      obtain ⟨calls, left', hserve, hpanic, taken, hsub, hreached⟩ := hrec
      have hreached := hreached.imp fun _ _ hr => hr.mono fun e he => List.mem_append_right h₁ he
      cases turn_takes hturn with
      | nothing hnone _ hcache =>
        obtain rfl := hcache goOn cache' rfl
        refine ⟨calls, left', ?_, hpanic, taken, hsub.cons _, hreached⟩
        rw [nfsEvents_append, hnone, List.nil_append]
        exact hserve
      | @compound call flavor p hfirst hone _ hcache =>
        obtain ⟨out, rfl, rfl⟩ := hcache goOn cache' rfl
        refine ⟨(call, flavor) :: calls, left'.bind fun outs => .pure (out :: outs), ?_, ?_,
          record :: taken, hsub.cons_cons _,
          .cons (hfirst.mono fun e he => List.mem_append_left h₂ he) hreached⟩
        · rw [serve_cons, nfsEvents_append]
          exact hone.bind (hserve.bind_left _)
        · rw [hpanic]
          cases left' <;> simp
    · cases turn_takes hturn with
      | nothing hnone hpanic _ =>
        refine ⟨[], .pure [], ?_, ?_, [], List.nil_sublist _, .nil⟩
        · rw [hnone]
          exact .nil _
        · rw [Prog.bind_eq_panic hs]
          exact iff_of_false hpanic nofun
      | @compound call flavor p hfirst hone hpanic _ =>
        have hserve := hone.bind_left fun out =>
          (serve S c [] out.request.filehandleCache).bind fun outs => .pure (out :: outs)
        refine ⟨[(call, flavor)], _, hserve, ?_, [record], by simp, .cons hfirst .nil⟩
        · rw [Prog.bind_eq_panic hs, hpanic]
          cases p <;> simp [serve]

/-! ### The streams -/

/-- A record as one final fragment. -/
def frame (record : Bytes) : Bytes := beBytes 4 (fragmentHeader record.length).toNat ++ record

/-- A client sends records, each in one fragment of at most the largest size. They arrive in chunks,
and something may follow that does not start with a fragment. -/
structure Sends (records chunks : List Bytes) : Prop where
  short : ∀ record ∈ records, record.length ≤ maxFragment
  stream : ∃ tail, chunks.flatten = (records.map frame).flatten ++ tail ∧
    ∀ fragment rest, nextFragment tail ≠ .frame fragment rest

/-- A reader of a stream finds these bodies in it, each in one fragment. -/
inductive Reads : Bytes → List Bytes → Prop
  | nil : Reads [] []
  | cons {stream rest body : Bytes} {bodies : List Bytes}
      (hfirst : fragmentAt stream = some (⟨true, body⟩, rest)) (hrest : Reads rest bodies) :
      Reads stream (body :: bodies)

lemma nextFragment_frame {record : Bytes} (hshort : record.length ≤ maxFragment) (rest : Bytes) :
    nextFragment (frame record ++ rest) = .frame ⟨true, record⟩ rest := by
  have hmax : maxFragment < 2 ^ 31 := by decide
  have hheader := fragmentHeader_toNat (hshort.trans_lt hmax)
  have hlen : (fragmentHeader record.length).toNat % 2 ^ 31 = record.length := by
    rw [hheader]
    omega
  have hbit : (fragmentHeader record.length).toNat.testBit 31 = true := by
    rw [hheader, Nat.testBit_two_pow_add_eq, Nat.testBit_lt_two_pow (hshort.trans_lt hmax)]
    rfl
  have hhead : ofBytes ((frame record ++ rest).take 4) = (fragmentHeader record.length).toNat := by
    rw [frame, List.append_assoc, List.take_left' (length_beBytes 4 _),
      ofBytes_beBytes (UInt32.toNat_lt _)]
  have hdrop : (frame record ++ rest).drop 4 = record ++ rest := by
    rw [frame, List.append_assoc, List.drop_left' (length_beBytes 4 _)]
  refine nextFragment_eq_frame.2 ⟨?_, ?_, ?_, ?_⟩
  · rw [hhead, hlen]
    exact hshort
  · rw [hhead, hlen]
    simp [frame, length_beBytes]
  · rw [hhead, hlen, hbit, hdrop, List.take_left' rfl]
  · rw [hhead, hlen, ← List.drop_drop, hdrop, List.drop_left' rfl]

/-- The fragments of a stream of records. -/
lemma parse_frames {records : List Bytes} {tail : Bytes}
    (hshort : ∀ record ∈ records, record.length ≤ maxFragment)
    (htail : ∀ fragment rest, nextFragment tail ≠ .frame fragment rest) :
    (fragments.parse ((records.map frame).flatten ++ tail)).1 = records.map fun r => ⟨true, r⟩ := by
  induction records with
  | nil =>
    rw [List.map_nil, List.flatten_nil, List.nil_append]
    cases hnext : nextFragment tail with
    | more => rw [fragments.parse_more hnext, List.map_nil]
    | bad e => rw [fragments.parse_bad hnext, List.map_nil]
    | frame fragment rest => exact absurd hnext (htail fragment rest)
  | cons record records ih =>
    have hnext : fragments.next (frame record ++ ((records.map frame).flatten ++ tail)) = _ :=
      nextFragment_frame (hshort record List.mem_cons_self) _
    rw [List.map_cons, List.flatten_cons, List.append_assoc, fragments.parse_frame hnext,
      ih fun r hr => hshort r (List.mem_cons_of_mem record hr), List.map_cons]

/-- The loop gets a message for each record, and perhaps an error of the codec. -/
lemma feed_of_sends {records chunks : List Bytes} (hsends : Sends records chunks) :
    ∃ errors : List String, feed (some []) chunks =
      records.map (fun r => .ok (yieldMessage r)) ++ errors.map .error := by
  obtain ⟨tail, hstream, htail⟩ := hsends.stream
  have hparts : (fragments.arrivals [] chunks).1.flatten = records.map fun r => ⟨true, r⟩ := by
    rw [← (fragments.parse_flatten [] (fragments.parse_more rfl) chunks).1, List.nil_append,
      hstream, parse_frames hsends.short htail]
  refine ⟨(fragments.arrivals [] chunks).2.toList, ?_⟩
  rw [feed_eq, recordsEach_of_last (by rw [hparts]; simp), hparts, List.map_map, List.map_map]
  rfl

/-! ### The replies -/

/-- A reply to a record: it has the xid of the record, or zero if that does not start with a call
header, and is what a compound without RPCSEC_GSS came to. -/
structure RepliesTo (S : Server) (c : Dispatcher.Connection) (record : Bytes) (h : List Event)
    (reply : RpcReplyMsg) : Prop where
  xid : HeaderWellFormed record → reply.xid = recordXid record
  noXid : ¬ HeaderWellFormed record → reply.xid = 0
  compound : ∀ call, (yieldMessage record).body = .call call → IsCompound call →
    ∃ cache out, Runs (one S c call .sys cache) (nfsEvents h) (some out) ∧
      reply = compoundReply reply.xid out

/-- What becomes of the records of a client in some events of its connection: the bodies that are
written for it, and what is left of the connection. -/
inductive Exchanged (S : Server) (c : Dispatcher.Connection) :
    List Bytes → List Event → List Bytes → Op Unit → Prop
  | done : Exchanged S c [] [] [] (.pure ())
  /-- A reply has been written. -/
  | replied {record body : Bytes} {records bodies : List Bytes} {h₁ h₂ : List Event}
      {reply : RpcReplyMsg} {left : Op Unit} (hquiet : writes h₁ = [])
      (hreply : RepliesTo S c record h₁ reply) (hbody : reply.toBytes = .ok body)
      (hrest : Exchanged S c records h₂ bodies left) :
      Exchanged S c (record :: records) (h₁ ++ ⟨.write (frame body), true⟩ :: h₂)
        (body :: bodies) left
  /-- The window of a context has refused the sequence number. -/
  | dropped {record : Bytes} {records bodies : List Bytes} {h₁ h₂ : List Event} {left : Op Unit}
      {ctx : Gss.GssContext} {seq : UInt32} (hquiet : writes h₁ = [])
      (hrefused : (⟨.gss (.accept ctx seq), false⟩ : Event) ∈ h₁)
      (hrest : Exchanged S c records h₂ bodies left) :
      Exchanged S c (record :: records) (h₁ ++ h₂) bodies left
  /-- The reply cannot be encoded. -/
  | unsent {record : Bytes} {records : List Bytes} {h : List Event} {reply : RpcReplyMsg}
      {e : Xdr.Error} (hquiet : writes h = []) (hreply : RepliesTo S c record h reply)
      (hbody : reply.toBytes = .error e) : Exchanged S c (record :: records) h [] (.pure ())
  /-- The stream is broken. -/
  | broken {record body : Bytes} {records : List Bytes} {h : List Event} {reply : RpcReplyMsg}
      (hquiet : writes h = []) (hreply : RepliesTo S c record h reply)
      (hbody : reply.toBytes = .ok body) :
      Exchanged S c (record :: records) (h ++ [⟨.write (frame body), false⟩]) [] (.pure ())
  /-- A message is being handled, or has crashed the connection. -/
  | underway {record : Bytes} {records : List Bytes} {h : List Event} {left : Op Unit}
      (hquiet : writes h = []) (hleft : left ≠ .pure ()) :
      Exchanged S c (record :: records) h [] left

lemma yieldMessage_xid_of_wellFormed {record : Bytes} (hwell : HeaderWellFormed record) :
    (yieldMessage record).xid = recordXid record := by
  obtain ⟨msg, hmsg⟩ := (rpcFromBytes_isOk_iff record).2 hwell
  rw [yieldMessage, hmsg]
  exact rpcFromBytes_xid hmsg

lemma yieldMessage_xid_of_not_wellFormed {record : Bytes} (hwell : ¬ HeaderWellFormed record) :
    (yieldMessage record).xid = 0 := by
  cases hparse : rpcFromBytes record with
  | ok msg => exact absurd ((rpcFromBytes_isOk_iff record).1 ⟨msg, hparse⟩) hwell
  | error e => rw [yieldMessage, hparse]

/-- A compound without RPCSEC_GSS is answered by what it comes to. -/
lemma answer_compound {call : CallBody} {reply : RpcReplyMsg} (hcall : msg.body = .call call)
    (hcompound : IsCompound call)
    (hleaves : Leaves (answer S P keytab c msg cache) h (.pure (some reply, cache'))) :
    ∃ out, Runs (one S c call .sys cache) (nfsEvents h) (some out) ∧
      reply = compoundReply msg.xid out := by
  have hservice : service S c msg .sys cache = (one S c call .sys cache).bind fun out =>
      .pure (compoundReply msg.xid out, out.request.filehandleCache) := by
    simp [service, hcall, hcompound.prog, hcompound.vers, hcompound.cred, hcompound.proc]
  have hanswer : answer S P keytab c msg cache =
      ((one S c call .sys cache).embed nfsWithin).bind fun out =>
        .pure (some (compoundReply msg.xid out), out.request.filehandleCache) := by
    have hauth : authenticate P keytab msg = .pure none := by
      simp [authenticate, hcall, hcompound.cred]
    simp [answer, hcall, hauth, hservice, Prog.embed, Prog.embed_bind, Prog.bind_bind]
  rw [hanswer] at hleaves
  obtain ⟨out, h₁, h₂, rfl, hone, hpure⟩ | ⟨s, hs, -, heq⟩ := hleaves.of_bind
  · obtain ⟨rfl, hreply⟩ := hpure.of_pure
    cases hreply
    obtain ⟨h', p, rfl, hpart, hp⟩ := hone.of_embed
    obtain rfl := Prog.embed_eq_pure.1 hp.symm
    exact ⟨out, by simpa using hpart.runs, rfl⟩
  · exact absurd heq.symm (Prog.bind_ne_pure hs _)

/-- Answering a message writes nothing; the reply is one to the record, and if there is none, a
window has refused a number. -/
lemma answer_leaves {left : Op (Option RpcReplyMsg × Cache)}
    (hleaves : Leaves (answer S P keytab c (yieldMessage record) cache) h left) :
    writes h = [] ∧
      (∀ reply cache', left = .pure (some reply, cache') → RepliesTo S c record h reply) ∧
      ∀ cache', left = .pure (none, cache') →
        ∃ ctx seq, (⟨.gss (.accept ctx seq), false⟩ : Event) ∈ h := by
  have hdoes := @answer_does S P keytab c (yieldMessage record) cache
    (fun q a => (⟨q, a⟩ : Event) ∈ h) (∃ ctx seq, (⟨.gss (.accept ctx seq), false⟩ : Event) ∈ h)
    fun ctx seq hmem => ⟨ctx, seq, hmem⟩
  obtain ⟨hasks, hleft⟩ := hleaves.does hdoes fun e he => he
  refine ⟨writes_eq_nil hasks, ?_, ?_⟩
  · rintro reply cache' rfl
    have hxid := hleft.1 reply rfl
    refine ⟨fun hwell => ?_, fun hwell => ?_, fun call hcall hcompound => ?_⟩
    · rw [hxid, yieldMessage_xid_of_wellFormed hwell]
    · rw [hxid, yieldMessage_xid_of_not_wellFormed hwell]
    · obtain ⟨out, hrun, hreply⟩ := answer_compound hcall hcompound hleaves
      exact ⟨cache, out, hrun, by rw [hxid]; exact hreply⟩
  · rintro cache' rfl
    exact hleft.2 rfl

lemma encode_nil (reply : RpcReplyMsg) : encode reply [] = reply.toBytes.map frame := by
  rw [encode]
  cases reply.toBytes <;> rfl

/-- A reply that does not encode ends the connection, and one that does is written. -/
lemma send_leaves {reply : RpcReplyMsg} {left : Op (Bool × Cache)}
    (hleaves : Leaves ((send reply).bind fun sent => .pure (sent, cache)) h left) :
    (h = [] ∧ ∀ x, left ≠ .pure x) ∨
    (∃ e, reply.toBytes = .error e ∧ h = [] ∧ left = .pure (false, cache)) ∨
    ∃ body ok, reply.toBytes = .ok body ∧ h = [⟨.write (frame body), ok⟩] ∧
      left = .pure (ok, cache) := by
  unfold send at hleaves
  rw [encode_nil] at hleaves
  cases hbody : reply.toBytes with
  | error e =>
    rw [hbody] at hleaves
    obtain ⟨rfl, rfl⟩ := hleaves.of_pure
    exact .inr (.inl ⟨e, rfl, rfl, rfl⟩)
  | ok body =>
    rw [hbody] at hleaves
    cases hleaves with
    | nil => exact .inl ⟨rfl, nofun⟩
    | @cons _ _ ok _ _ hsent =>
      obtain ⟨rfl, rfl⟩ := Leaves.of_pure hsent
      exact .inr (.inr ⟨body, ok, rfl, rfl, rfl⟩)

/-- What is left of a connection that gets these records: they have been exchanged for replies. -/
lemma handleConnection_exchanged {records : List Bytes} {errors : List String} {left : Op Unit}
    (hleaves : Leaves (handleConnection S P keytab c
      (records.map (fun r => .ok (yieldMessage r)) ++ errors.map .error) cache) h left) :
    ∃ bodies, Exchanged S c records h bodies left := by
  induction records generalizing cache h with
  | nil =>
    rw [List.map_nil, List.nil_append, handleConnection_errors] at hleaves
    obtain ⟨rfl, rfl⟩ := hleaves.of_pure
    exact ⟨[], .done⟩
  | cons record records ih =>
    obtain ⟨⟨goOn, cache₂⟩, h', h₃, rfl, hturn, hrest⟩ | ⟨s, hs, hturn, rfl⟩ := hleaves.of_bind
    · obtain ⟨⟨reply, cache₁⟩, h₁, h₂, rfl, hanswer, hsend⟩ | ⟨s, hs, -, heq⟩ := hturn.of_bind
      · obtain ⟨hquiet, hreply, hdropped⟩ := answer_leaves hanswer
        cases reply with
        | none =>
          obtain ⟨ctx, seq, hrefused⟩ := hdropped cache₁ rfl
          obtain ⟨rfl, heq⟩ := hsend.of_pure
          cases heq
          obtain ⟨bodies, hbodies⟩ := ih hrest
          rw [List.append_nil]
          exact ⟨bodies, .dropped hquiet hrefused hbodies⟩
        | some reply =>
          have hanswered := hreply reply cache₁ rfl
          obtain ⟨-, hpure⟩ | ⟨e, hbody, rfl, heq⟩ | ⟨body, ok, hbody, rfl, heq⟩ :=
            send_leaves hsend
          · exact absurd rfl (hpure _)
          · cases heq
            obtain ⟨rfl, rfl⟩ := Leaves.of_pure hrest
            rw [List.append_nil, List.append_nil]
            exact ⟨[], .unsent hquiet hanswered hbody⟩
          · cases heq
            cases goOn with
            | true =>
              obtain ⟨bodies, hbodies⟩ := ih hrest
              rw [List.append_assoc]
              exact ⟨body :: bodies, .replied hquiet hanswered hbody hbodies⟩
            | false =>
              obtain ⟨rfl, rfl⟩ := Leaves.of_pure hrest
              rw [List.append_nil]
              exact ⟨[], .broken hquiet hanswered hbody⟩
      · exact absurd heq.symm (Prog.bind_ne_pure hs _)
    · refine ⟨[], .underway ?_ (Prog.bind_ne_pure hs _)⟩
      obtain ⟨⟨reply, cache₁⟩, h₁, h₂, rfl, hanswer, hsend⟩ | ⟨s', hs', hanswer, rfl⟩ :=
        hturn.of_bind
      · rw [writes_append, (answer_leaves hanswer).1, List.nil_append]
        cases reply with
        | none => rw [hsend.of_pure.1]; rfl
        | some reply =>
          obtain ⟨rfl, -⟩ | ⟨e, -, rfl, rfl⟩ | ⟨body, ok, -, -, rfl⟩ := send_leaves hsend
          · rfl
          · rfl
          · exact absurd rfl (hs _)
      · exact (answer_leaves hanswer).1

/-- The bodies that are written are those that a client reads. -/
lemma Exchanged.reads {records bodies : List Bytes} {left : Op Unit}
    (hexchanged : Exchanged S c records h bodies left)
    (hlen : ∀ body ∈ bodies, body.length < 2 ^ 31) : Reads (received h) bodies := by
  have hnothing : ∀ {h : List Event}, writes h = [] → received h = [] := by
    intro h hquiet
    rw [received, hquiet]
    rfl
  induction hexchanged with
  | done => exact .nil
  | @replied record body records bodies h₁ h₂ reply left hquiet hreply hbody hrest ih =>
    have hreceived : received (h₁ ++ ⟨.write (frame body), true⟩ :: h₂) =
        frame body ++ received h₂ := by
      rw [received, writes_append, hquiet]
      rfl
    have hshort := hlen body List.mem_cons_self
    have hheader := fragmentHeader_toNat hshort
    rw [hreceived]
    refine .cons ?_ (ih fun b hb => hlen b (List.mem_cons_of_mem body hb))
    rw [frame, fragmentAt_append (UInt32.toNat_lt _) (by rw [hheader]; omega), hheader,
      Nat.testBit_two_pow_add_eq, Nat.testBit_lt_two_pow hshort]
    rfl
  | @dropped record records bodies h₁ h₂ left ctx seq hquiet hrefused hrest ih =>
    have hreceived : received (h₁ ++ h₂) = received h₂ := by
      rw [received, writes_append, hquiet]
      rfl
    rw [hreceived]
    exact ih hlen
  | unsent hquiet =>
    rw [hnothing hquiet]
    exact .nil
  | @broken record body records h reply hquiet =>
    have hreceived : received (h ++ [⟨.write (frame body), false⟩]) = [] := by
      rw [received, writes_append, hquiet]
      rfl
    rw [hreceived]
    exact .nil
  | underway hquiet =>
    rw [hnothing hquiet]
    exact .nil

/-! ### Several connections -/

variable {ι : Type} [DecidableEq ι] {conn : ι → Dispatcher.Connection}
  {records chunks : ι → List Bytes} {left : ι → Op Unit}

/-- Connections take turns, on the chunks of their streams. -/
def Connected (S : Server) (P : Krb5.Primitives) (keytab : Bool) (conn : ι → Dispatcher.Connection)
    (chunks : ι → List Bytes) (h : List (ι × Event)) (left : ι → Op Unit) : Prop :=
  Interleaves (fun i => handleConnection S P keytab (conn i) (feed (some []) (chunks i)) []) h left

/-- **What a client finds on its stream.** Clients send records on any connections, in fragments of
their own but cut into any chunks, and the connections take turns. At any time, each record of a
client has been answered by one reply, in the order of the records and under the xid of the record,
with what the compound came to that it holds. There is no reply only if a window of RPCSEC_GSS has
refused the sequence number, or after the connection has ended or crashed. The client reads the
bodies of these replies and nothing else, if they are shorter than `2 ^ 31` bytes.

**Proof sketch.** A chunked stream gives the messages of its fragments (`feed_of_sends`). What is
left of a turn says what it has written (`answer_leaves`, `send_leaves`); induction on the records.
-/
theorem exchanged {h : List (ι × Event)} (hsends : ∀ i, Sends (records i) (chunks i))
    (hrun : Connected S P keytab conn chunks h left) (i : ι) :
    ∃ bodies, Exchanged S (conn i) (records i) (turns i h) bodies (left i) ∧
      ((∀ body ∈ bodies, body.length < 2 ^ 31) → Reads (received (turns i h)) bodies) := by
  obtain ⟨errors, hfeed⟩ := feed_of_sends (hsends i)
  have hleaves := hrun.leaves i
  rw [hfeed] at hleaves
  obtain ⟨bodies, hbodies⟩ := handleConnection_exchanged hleaves
  exact ⟨bodies, hbodies, hbodies.reads⟩

/-- A COMPOUND call with xid 8 and without operations. -/
def emptyCompoundRecord : Bytes :=
  [0, 0, 0, 8, 0, 0, 0, 0, 0, 0, 0, 2, 0, 1, 134, 163, 0, 0, 0, 4, 0, 0, 0, 1,
   0, 0, 0, 0, 0, 0, 0, 0, 0, 0, 0, 0, 0, 0, 0, 0, 0, 0, 0, 0, 0, 0, 0, 0, 0, 0, 0, 0]

/-- A stream with a NULL and a COMPOUND, cut within a header. -/
def sampleChunks : List Bytes :=
  [frame nullCallRecord ++ (frame emptyCompoundRecord).take 2, (frame emptyCompoundRecord).drop 2]

/-- The reply with some xid to a call that is carried out and has no results. -/
def sampleBody (xid : UInt8) : Bytes := [0, 0, 0, xid, 0, 0, 0, 1] ++ List.replicate 28 0

/-- The turns of a connection that gets this stream. -/
def sampleTurns : List (Unit × Event) :=
  [((), ⟨.write (frame (sampleBody 7)), true⟩), ((), ⟨.nfs .arrive, ()⟩),
    ((), ⟨.write (frame (sampleBody 8)), true⟩)]

lemma sends_sample : Sends [nullCallRecord, emptyCompoundRecord] sampleChunks where
  short := by decide
  stream := ⟨[], rfl, fun fragment rest => nofun⟩

set_option maxRecDepth 4000 in
lemma connected_sample : Connected openServer Krb5.samplePrimitives true (fun _ => earlyConnection)
    (fun _ => sampleChunks) sampleTurns fun _ => .pure () :=
  .cons rfl (.cons rfl (.cons rfl (.nil _)))

/-- The replies to the NULL and the COMPOUND are found on the stream. -/
theorem exchanged_sample : ∃ bodies,
    Exchanged openServer earlyConnection [nullCallRecord, emptyCompoundRecord]
      (turns () sampleTurns) bodies (.pure ()) ∧
    ((∀ body ∈ bodies, body.length < 2 ^ 31) → Reads (received (turns () sampleTurns)) bodies) :=
  exchanged (fun _ => sends_sample) connected_sample ()

/-- What the connections ask of the service. -/
def nfsTurns (h : List (ι × Event)) : List (ι × Dispatcher.Event) :=
  h.filterMap fun x => (nfsEvent x.2).map fun e => (x.1, e)

lemma turns_nfsTurns (i : ι) (h : List (ι × Event)) :
    turns i (nfsTurns h) = nfsEvents (turns i h) := by
  induction h with
  | nil => rfl
  | cons x h ih =>
    obtain ⟨j, q, a⟩ := x
    rw [turns_cons]
    cases q with
    | nfs q =>
      have hhead : nfsTurns ((j, ⟨.nfs q, a⟩) :: h) = (j, ⟨q, a⟩) :: nfsTurns h := rfl
      rw [hhead, turns_cons, ih]
      split <;> rfl
    | gss q =>
      have hhead : nfsTurns ((j, ⟨.gss q, a⟩) :: h) = nfsTurns h := rfl
      rw [hhead, ih]
      split <;> rfl
    | write record =>
      have hhead : nfsTurns ((j, ⟨.write record, a⟩) :: h) = nfsTurns h := rfl
      rw [hhead, ih]
      split <;> rfl

/-- **The connections serve the compounds that reach the service.** Clients send records on any
connections, and the connections take turns. What they ask of the service is a run of `serve`, for
those records of each client, in their order, that hold a compound that reaches the service; and a
connection has crashed exactly when it has there.

**Proof sketch.** A turn carries out one compound or nothing (`turn_takes`). The compounds of a
connection are chosen from its whole partial run; the partial runs together take the same turns. -/
theorem connections_serve {h : List (ι × Event)} (hsends : ∀ i, Sends (records i) (chunks i))
    (hrun : Connected S P keytab conn chunks h left) :
    ∃ (calls : ι → List (CallBody × SecFlavor)) (left' : ι → Dispatcher.Op (List Outcome)),
      Serves S conn calls (nfsTurns h) left' ∧
      ∀ i, (left i = .panic ↔ left' i = .panic) ∧ ∃ taken : List Bytes, taken.Sublist (records i) ∧
        List.Forall₂ (Reached P (turns i h)) taken (calls i) := by
  have hserve : ∀ i, ∃ calls left',
      Leaves (serve S (conn i) calls []) (nfsEvents (turns i h)) left' ∧
      (left i = .panic ↔ left' = .panic) ∧ ∃ taken : List Bytes, taken.Sublist (records i) ∧
        List.Forall₂ (Reached P (turns i h)) taken calls := by
    intro i
    obtain ⟨errors, hfeed⟩ := feed_of_sends (hsends i)
    have hleaves := hrun.leaves i
    rw [hfeed] at hleaves
    exact handleConnection_leaves hleaves
  choose calls left' hleaves hreached using hserve
  refine ⟨calls, left', interleaves_of_leaves fun i => ?_, hreached⟩
  rw [turns_nfsTurns]
  exact hleaves i

/-- The COMPOUND of the stream is served. -/
theorem connections_serve_sample :
    ∃ (calls : Unit → List (CallBody × SecFlavor)) (left' : Unit → Dispatcher.Op (List Outcome)),
      Serves openServer (fun _ => earlyConnection) calls (nfsTurns sampleTurns) left' ∧
      ∀ i, ((.pure () : Op Unit) = .panic ↔ left' i = .panic) ∧ ∃ taken : List Bytes,
        taken.Sublist [nullCallRecord, emptyCompoundRecord] ∧
        List.Forall₂ (Reached Krb5.samplePrimitives (turns i sampleTurns)) taken (calls i) :=
  connections_serve (fun _ => sends_sample) connected_sample

end NextNfs.Transport
