import NextNfs.Server.GssServer

set_option relaxedAutoImplicit false
set_option autoImplicit false

/-!
# Admission of RPCSEC_GSS calls

Records with RPCSEC_GSS credentials arrive on any connections and are handled at the same time. This
module says which of them proceed to the NFS service, and that none proceeds twice.

## Main definitions

* `NextNfs.Gss.Splits` — the parts of a record: the header from the xid through the credential, the
  verifier and the arguments.
* `NextNfs.Gss.Unforgeable` — checksums and seals are accepted only if they were made with the key.
* `NextNfs.Gss.Admitted` — what is known of a record that proceeds.
* `NextNfs.Gss.Serves` — a run of any number of records.

## Main results

* `NextNfs.Gss.nodup_grants` — a context lets each sequence number pass at most once, along every
  run.
* `NextNfs.Gss.data_runs` — what a call that proceeds has asked, and what it was answered.
* `NextNfs.Gss.admitted_and_once` — a record proceeds only if it is admitted, and at most one
  proceeds for a context and a sequence number.

## Implementation notes

Each record is a party of its own, so that any number of them may be under way at once, on any
connections; that the records of one connection come one after another is a special case.
-/

namespace NextNfs.Gss

open Wire Dialogue

/-- A question with its answer. -/
abbrev Event := Σ q : Question, q.Answer

/-! ### Sequence numbers along a run -/

/-- The context and the sequence number that a window lets pass. -/
def grantOf : Event → Option (ℕ × UInt32)
  | ⟨.accept ctx seq, true⟩ => some (ctx.id, seq)
  | _ => none

/-- What the windows let pass along a run. -/
def grants (h : List Event) : List (ℕ × UInt32) := h.filterMap grantOf

/-- The windows know what has passed. -/
def WindowsKeep (s : State) (passed : Set (ℕ × ℕ)) : Prop :=
  ∀ n, (s.window n).toWindow.Keeps {k | (n, k) ∈ passed}

lemma windowsKeep_new : WindowsKeep .new ∅ := fun _ => rfl

/-- What one question does to the windows: a number passes that has not, or nothing does. -/
lemma windowsKeep_step {s s' : State} {q : Question} {a : q.Answer} {passed : Set (ℕ × ℕ)}
    (hkeep : WindowsKeep s passed) (hstep : Step s q a s') :
    (grantOf ⟨q, a⟩ = none ∧ WindowsKeep s' passed) ∨
    ∃ n seq, grantOf ⟨q, a⟩ = some (n, seq) ∧ (n, seq.toNat) ∉ passed ∧
      WindowsKeep s' (insert (n, seq.toNat) passed) := by
  cases q with
  | accept ctx seq =>
    obtain ⟨w, haccept, rfl⟩ := hstep
    obtain ⟨hiff, hkeeps⟩ := SlidingWindow.accept_keeps (hkeep ctx.id)
      (SeqWindow.toWindow_accept haccept)
    cases a with
    | false =>
      refine .inl ⟨rfl, fun n => ?_⟩
      by_cases hn : n = ctx.id
      · subst hn
        simpa using hkeeps
      · simpa [Function.update_of_ne hn] using hkeep n
    | true =>
      refine .inr ⟨ctx.id, seq, rfl, (hiff.1 rfl).1, fun n => ?_⟩
      by_cases hn : n = ctx.id
      · subst hn
        have hset : {k | (ctx.id, k) ∈ insert (ctx.id, seq.toNat) passed} =
            insert seq.toNat {k | (ctx.id, k) ∈ passed} := by
          ext k
          simp
        rw [hset]
        simpa using hkeeps
      · have hset : {k | (n, k) ∈ insert (ctx.id, seq.toNat) passed} = {k | (n, k) ∈ passed} := by
          ext k
          simp [hn]
        rw [hset]
        simpa [Function.update_of_ne hn] using hkeep n
  | newContext acc identity =>
    obtain ⟨-, rfl⟩ := hstep
    exact .inl ⟨rfl, hkeep⟩
  | sendSeq ctx =>
    obtain ⟨-, rfl⟩ := hstep
    exact .inl ⟨rfl, hkeep⟩
  | insert handle ctx =>
    obtain ⟨now, contexts, -, rfl⟩ := hstep
    exact .inl ⟨rfl, hkeep⟩
  | get handle =>
    obtain ⟨-, rfl⟩ := hstep
    exact .inl ⟨rfl, hkeep⟩
  | acceptToken _ | randomBytes _ | identity _ | now | remove _ =>
    obtain rfl := hstep
    exact .inl ⟨rfl, hkeep⟩

/-- Along a run, a context lets each sequence number pass at most once. -/
lemma nodup_grants {s t : State} {h : List Event} {passed : Set (ℕ × ℕ)} (hkeep : WindowsKeep s passed)
    (hallow : Allows Step s h t) :
    (grants h).Nodup ∧ ∀ g ∈ grants h, (g.1, g.2.toNat) ∉ passed := by
  induction hallow generalizing passed with
  | nil s => exact ⟨List.nodup_nil, by simp [grants]⟩
  | @cons s s' t q a h hstep hrest ih =>
    rcases windowsKeep_step hkeep hstep with ⟨hnone, hkeep'⟩ | ⟨n, seq, hsome, hnew, hkeep'⟩
    · rw [grants, List.filterMap_cons_none hnone]
      exact ih hkeep'
    · rw [grants, List.filterMap_cons_some hsome]
      obtain ⟨hnodup, hold⟩ := ih hkeep'
      refine ⟨List.nodup_cons.2 ⟨fun hmem => hold _ hmem (Set.mem_insert _ _), hnodup⟩, ?_⟩
      intro g hg
      rcases List.mem_cons.1 hg with rfl | hg
      · exact hnew
      · exact fun hmem => hold g hg (Set.mem_insert_of_mem _ hmem)

/-- A number that a window let pass was asked for once. -/
lemma eq_of_grantOf {ι : Type} {h : List (ι × Event)} {x y : ι × Event} {g : ℕ × UInt32}
    (hnodup : (grants (h.map Prod.snd)).Nodup)
    (hx : x ∈ h) (hy : y ∈ h) (hgx : grantOf x.2 = some g) (hgy : grantOf y.2 = some g) : x = y := by
  induction h with
  | nil => cases hx
  | cons z h ih =>
    have hmem : ∀ w ∈ h, grantOf w.2 = some g → g ∈ grants (h.map Prod.snd) := fun w hw hgw =>
      List.mem_filterMap.2 ⟨w.2, List.mem_map_of_mem hw, hgw⟩
    have hrest : (grants (h.map Prod.snd)).Nodup := by
      refine hnodup.sublist ?_
      rw [List.map_cons, grants, grants]
      exact (List.sublist_cons_self _ _).filterMap _
    have hhead : ∀ w ∈ h, grantOf z.2 = some g → grantOf w.2 ≠ some g := by
      intro w hw hgz hgw
      rw [List.map_cons, grants, List.filterMap_cons_some hgz] at hnodup
      exact (List.nodup_cons.1 hnodup).1 (hmem w hw hgw)
    rcases List.mem_cons.1 hx with rfl | hx' <;> rcases List.mem_cons.1 hy with rfl | hy'
    · rfl
    · exact absurd hgy (hhead y hy' hgx)
    · exact absurd hgx (hhead x hx' hgy)
    · exact ih hrest hx' hy'

/-! ### Handles along a run -/

/-- The handle and the context that are put into the table. -/
def insertionOf : Event → Option (Bytes × GssContext)
  | ⟨.insert handle ctx, _⟩ => some (handle, ctx)
  | _ => none

/-- What is put into the table along a run. -/
def insertions (h : List Event) : List (Bytes × GssContext) := h.filterMap insertionOf

namespace Contexts

variable {t : Contexts} {handle : Bytes} {ctx : GssContext} {e : Bytes × GssContext}

lemma mem_of_get (h : t.get handle = some ctx) : (handle, ctx) ∈ t := by
  obtain ⟨⟨k, c⟩, hfind, rfl⟩ := Option.map_eq_some_iff.1 h
  obtain ⟨hmem, hkey⟩ := Table.of_find?_eq_some hfind
  obtain rfl : k = handle := by simpa using hkey
  exact hmem

lemma mem_of_mem_remove (h : e ∈ t.remove handle) : e ∈ t := (Table.mem_erase.1 h).1

lemma mem_of_mem_put (h : e ∈ t.put handle ctx) : e = (handle, ctx) ∨ e ∈ t := by
  unfold put at h
  cases hinsert : (t.remove handle).insert (handle, ctx) with
  | none =>
    rw [hinsert] at h
    exact .inr (mem_of_mem_remove h)
  | some t' =>
    rw [hinsert] at h
    rcases (Table.mem_insert hinsert).1 h with hmem | rfl
    · exact .inr (mem_of_mem_remove hmem)
    · exact .inl rfl

lemma mem_of_mem_dropOldest {n : ℕ} (h : e ∈ t.dropOldest n) : e ∈ t := by
  induction n generalizing t with
  | zero => exact h
  | succ n ih =>
    unfold dropOldest at h
    split at h
    · exact mem_of_mem_remove (ih h)
    · exact h

/-- Making room only drops contexts. -/
lemma mem_of_mem_makeRoom {limit : ℕ} {now : ℤ} (h : e ∈ t.makeRoom limit now) : e ∈ t := by
  unfold makeRoom at h
  split_ifs at h
  · exact (Table.mem_erase.1 (mem_of_mem_dropOldest h)).1
  · exact h

lemma mem_of_mem_insertContext {now : ℤ} (h : e ∈ t.insertContext now handle ctx) :
    e = (handle, ctx) ∨ e ∈ t := by
  rcases mem_of_mem_put h with heq | hmem
  · exact .inl heq
  · exact .inr (mem_of_mem_makeRoom hmem)

end Contexts

/-- What one question does to the table: contexts are put into it by `insert` only. -/
lemma mem_contexts_step {s s' : State} {q : Question} {a : q.Answer} {e : Bytes × GssContext}
    (hstep : Step s q a s') (he : e ∈ s'.contexts) :
    e ∈ s.contexts ∨ insertionOf ⟨q, a⟩ = some e := by
  cases q with
  | insert handle ctx =>
    obtain ⟨now, contexts, hperm, rfl⟩ := hstep
    rcases Contexts.mem_of_mem_insertContext (hperm.mem_iff.1 he) with rfl | hmem
    · exact .inr rfl
    · exact .inl hmem
  | remove handle =>
    obtain rfl := hstep
    exact .inl (Contexts.mem_of_mem_remove he)
  | accept ctx seq =>
    obtain ⟨w, -, rfl⟩ := hstep
    exact .inl he
  | newContext _ _ | sendSeq _ | get _ =>
    obtain ⟨-, rfl⟩ := hstep
    exact .inl he
  | acceptToken _ | randomBytes _ | identity _ | now =>
    obtain rfl := hstep
    exact .inl he

/-- A context in the table was there, or was put into it along the run. -/
lemma mem_contexts_of_allows {s t : State} {h : List Event} {e : Bytes × GssContext}
    (hallow : Allows Step s h t) (he : e ∈ t.contexts) : e ∈ s.contexts ∨ e ∈ insertions h := by
  induction hallow with
  | nil s => exact .inl he
  | @cons s s' t q a h hstep hrest ih =>
    rcases ih he with hmem | hmem
    · rcases mem_contexts_step hstep hmem with hmem | hsome
      · exact .inl hmem
      · exact .inr (List.mem_filterMap.2 ⟨_, List.mem_cons_self, hsome⟩)
    · obtain ⟨x, hx, hsome⟩ := List.mem_filterMap.1 hmem
      exact .inr (List.mem_filterMap.2 ⟨x, List.mem_cons_of_mem _ hx, hsome⟩)

/-- No two contexts are put into the table under one handle: the random handles are distinct. -/
def DistinctHandles (h : List Event) : Prop := ((insertions h).map Prod.fst).Nodup

/-- With distinct handles, a handle names one context along the whole run. -/
lemma DistinctHandles.eq_of_get {h h₁ h₂ k₁ k₂ : List Event} {handle : Bytes} {ctx ctx' : GssContext}
    {t : State} (hdistinct : DistinctHandles h) (hallow : Allows Step .new h t)
    (hsplit : h = h₁ ++ ⟨.get handle, some ctx⟩ :: h₂)
    (hsplit' : h = k₁ ++ ⟨.get handle, some ctx'⟩ :: k₂) : ctx = ctx' := by
  have hmem : ∀ l₁ l₂ c, h = l₁ ++ ⟨.get handle, some c⟩ :: l₂ → (handle, c) ∈ insertions h := by
    intro l₁ l₂ c heq
    rw [heq] at hallow
    obtain ⟨u, hu, hrest⟩ := hallow.of_append
    cases hrest with
    | cons hstep _ =>
      obtain ⟨hget, -⟩ := hstep
      rcases mem_contexts_of_allows hu (Contexts.mem_of_get hget.symm) with hnew | hins
      · exact absurd hnew Table.not_mem_empty
      · rw [heq, insertions, List.filterMap_append]
        exact List.mem_append_left _ hins
  have heq := List.inj_on_of_nodup_map hdistinct (hmem _ _ _ hsplit) (hmem _ _ _ hsplit') rfl
  exact congrArg Prod.snd heq

/-! ### What a call that proceeds has asked -/

section Asked

variable {C : Tokens} {xid : UInt32} {call : CallBody} {cred : RpcSecGssCred} {raw : GssCallData}
  {h : List Event} {msg : RpcCallMsg} {info : GssReply}

/-- A call that proceeds has passed every check, in this order. -/
structure Passes (C : Tokens) (xid : UInt32) (call : CallBody) (cred : RpcSecGssCred)
    (raw : GssCallData) (h : List Event) (msg : RpcCallMsg) (info : GssReply) : Prop where
  asked : ∃ now, now ≤ info.ctx.expires ∧ h = [⟨.get cred.handle, some info.ctx⟩, ⟨.now, now⟩,
    ⟨.accept info.ctx cred.seqNum, true⟩]
  verified : verified C info.ctx raw.header call.verf = true
  seq_lt : cred.seqNum < MAXSEQ
  seq_eq : info.seq = cred.seqNum
  service_eq : info.service = cred.service
  args : ∃ inner args call', openArgs C info.ctx cred.service raw.args = some inner ∧
    stripSeq cred.service cred.seqNum inner = some args ∧ decodeArgs call args = some call' ∧
    msg = ⟨xid, .call { call' with cred := info.ctx.cred }⟩

lemma data_runs (hrun : Runs (data C xid call cred raw) h (some (.proceed msg info))) :
    Passes C xid call cred raw h msg info := by
  unfold data at hrun
  simp only [Prog.bind_eq, query, Prog.query, Prog.ask_bind, Prog.pure_bind, Prog.pure_eq,
    GssContext.mic] at hrun
  cases hrun with
  | @ask _ _ found h _ hrun =>
  cases found with
  | none => cases hrun
  | some ctx =>
  cases hrun with
  | @ask _ _ now h _ hrun =>
  dsimp only at hrun
  split_ifs at hrun with hexpired hverified hmax hdestroy
  · cases hrun with
    | ask hrun => cases hrun
  · cases hrun
  · cases hrun with
    | ask hrun => cases hrun
  · cases hrun with
    | @ask _ _ new h _ hrun =>
    cases new with
    | false => cases hrun
    | true =>
    cases hrun with
    | ask hrun =>
    cases hrun with
    | ask hrun => cases hrun
  · cases hrun with
    | @ask _ _ new h _ hrun =>
    cases new with
    | false => cases hrun
    | true =>
    dsimp only at hrun
    cases hflavor : flavorOfService cred.service with
    | none =>
      rw [hflavor] at hrun
      cases hrun
    | some flavor =>
      rw [hflavor] at hrun
      dsimp only at hrun
      split at hrun
      · cases hrun
      · split at hrun
        · cases hrun with
          | ask hrun => cases hrun
        · rename_i call' hargs
          cases hrun
          obtain ⟨args, hstrip, hdecode⟩ := Option.bind_eq_some_iff.1 hargs
          obtain ⟨inner, hopen, hstrip⟩ := Option.bind_eq_some_iff.1 hstrip
          exact ⟨⟨now, not_lt.1 hexpired, rfl⟩, by simpa using hverified, UInt32.not_le.1 hmax,
            rfl, rfl, inner, args, call', hopen, hstrip, hdecode, rfl⟩

/-- The calls that proceed are those that `data` lets proceed. -/
lemma handle_runs {msg' : RpcCallMsg} (hrun : Runs (handle C msg) h (some (.proceed msg' info))) :
    ∃ call cred, msg.body = .call call ∧ call.cred = .authGss cred ∧
      Passes C msg.xid { call with gss := none } cred (call.gss.getD ⟨[], []⟩) h msg' info := by
  unfold handle at hrun
  split at hrun
  · rename_i call hbody
    split at hrun
    · rename_i cred hcred
      split_ifs at hrun with hversion hinit hdata
      · cases hrun
      · rw [Prog.bind_eq] at hrun
        rcases hrun.of_bind with ⟨reply, h₁, h₂, -, -, hpure⟩ | ⟨hnone, -⟩
        · cases hpure
        · cases hnone
      · exact ⟨call, cred, hbody, hcred, data_runs hrun⟩
      · cases hrun
    · cases hrun
  · cases hrun

/-- A record that proceeds has a header with an RPCSEC_GSS credential. -/
lemma receive_runs {record : Bytes}
    (hrun : Runs (receive C record) h (some (some (.proceed msg info)))) :
    ∃ hdr cred, readCallHeader record = .ok hdr ∧ hdr.cred = .authGss cred ∧
      Passes C hdr.xid ⟨hdr.rpcvers, hdr.prog, hdr.vers, hdr.proc, hdr.cred, hdr.verf, none, none⟩ cred
        ⟨record.take (record.length - hdr.afterCred.length), hdr.rest⟩ h msg info := by
  unfold receive at hrun
  dsimp only at hrun
  split at hrun
  · rename_i call hbody
    split_ifs at hrun with hgss
    · rw [Prog.bind_eq] at hrun
      rcases hrun.of_bind with ⟨out, h₁, h₂, rfl, hrun, hpure⟩ | ⟨hnone, -⟩
      · cases hpure
        rw [List.append_nil]
        obtain ⟨call', cred, hbody', hcred, hpasses⟩ := handle_runs hrun
        rw [hbody] at hbody'
        cases hbody'
        unfold yieldMessage at hbody hpasses
        cases hparse : rpcFromBytes record with
        | error e =>
          rw [hparse] at hbody
          cases hbody
        | ok m =>
          rw [hparse] at hbody hpasses
          obtain ⟨hdr, hread, hm⟩ := except_bind_eq_ok.1 hparse
          cases hm
          unfold callOfHeader at hbody hpasses
          by_cases hisGss : hdr.cred.isGss = true
          · rw [if_pos hisGss] at hbody hpasses
            cases hbody
            exact ⟨hdr, cred, hread, hcred, hpasses⟩
          · rw [if_neg hisGss] at hbody
            have hcall : call.cred = hdr.cred := by
              split_ifs at hbody
              · cases hbody
                rfl
              · cases hargs : Xdr.fromBytes Compound4args.codec hdr.rest <;>
                  rw [hargs] at hbody <;> cases hbody
                rfl
            rw [hcall] at hgss
            exact absurd hgss hisGss
      · cases hnone
    · cases hrun
  · cases hrun

end Asked

/-! ### The parts of a record -/

/-- A record is a header, from the xid through an RPCSEC_GSS credential, a token in an RPCSEC_GSS
verifier, and arguments. -/
def Splits (record header token args : Bytes) (cred : RpcSecGssCred) : Prop :=
  ∃ (xid rpcvers prog vers proc : UInt32) (credBody credEnc tokenEnc : Bytes),
    header = beBytes 4 xid.toNat ++ (beBytes 4 0 ++ (beBytes 4 rpcvers.toNat ++
      (beBytes 4 prog.toNat ++ (beBytes 4 vers.toNat ++ (beBytes 4 proc.toNat ++
        (beBytes 4 6 ++ credEnc)))))) ∧
    IsOpaque credBody credEnc ∧ RpcSecGssCred.parse credBody = some cred ∧
    IsOpaque token tokenEnc ∧ record = header ++ (beBytes 4 6 ++ (tokenEnc ++ args))

/-- The RPCSEC_GSS credential of a record. -/
def credOf (record : Bytes) : Option RpcSecGssCred :=
  match readCallHeader record with
  | .ok ⟨_, _, _, _, _, .authGss cred, _, _, _⟩ => some cred
  | _ => none

lemma opaqueAuthOf_authGss {flavor : UInt32} {body : Bytes} {cred : RpcSecGssCred}
    (h : opaqueAuthOf true flavor body = .ok (.authGss cred)) :
    flavor = 6 ∧ RpcSecGssCred.parse body = some cred := by
  unfold opaqueAuthOf at h
  split_ifs at h with h0 h1 h6 htrue
  · cases h
  · split at h <;> cases h
  · cases hparse : RpcSecGssCred.parse body with
    | none => simp [hparse] at h
    | some c =>
      simp only [hparse] at h
      cases h
      exact ⟨h6, rfl⟩
  · exact absurd rfl htrue
  · cases h

lemma opaqueAuthOf_gssVerf {flavor : UInt32} {body token : Bytes}
    (h : opaqueAuthOf false flavor body = .ok (.gssVerf token)) : flavor = 6 ∧ body = token := by
  unfold opaqueAuthOf at h
  split_ifs at h with h0 h1 h6 hfalse
  · cases h
  · split at h <;> cases h
  · exact absurd hfalse id
  · cases h
    exact ⟨h6, rfl⟩
  · cases h

/-- The header parser splits a record at the end of the credential. -/
lemma splits_of_readCallHeader {record token : Bytes} {hdr : CallHeader} {cred : RpcSecGssCred}
    (hread : readCallHeader record = .ok hdr) (hcred : hdr.cred = .authGss cred)
    (hverf : hdr.verf = .gssVerf token) :
    Splits record (record.take (record.length - hdr.afterCred.length)) token hdr.rest cred := by
  obtain ⟨credFlavor, verfFlavor, credBody, credEnc, verf, verfEnc, hrecord, hafter, hcredEnc,
    hcredAuth, hverfEnc, hverfAuth⟩ := readCallHeader_eq_ok.1 hread
  rw [hcred] at hcredAuth
  rw [hverf] at hverfAuth
  obtain ⟨rfl, hparse⟩ := opaqueAuthOf_authGss hcredAuth
  obtain ⟨rfl, rfl⟩ := opaqueAuthOf_gssVerf hverfAuth
  have hhead : record = (beBytes 4 hdr.xid.toNat ++ (beBytes 4 0 ++ (beBytes 4 hdr.rpcvers.toNat ++
      (beBytes 4 hdr.prog.toNat ++ (beBytes 4 hdr.vers.toNat ++ (beBytes 4 hdr.proc.toNat ++
        (beBytes 4 6 ++ credEnc))))))) ++ hdr.afterCred := by
    rw [hrecord]
    simp only [List.append_assoc]
    rfl
  have htake : record.take (record.length - hdr.afterCred.length) = beBytes 4 hdr.xid.toNat ++
      (beBytes 4 0 ++ (beBytes 4 hdr.rpcvers.toNat ++ (beBytes 4 hdr.prog.toNat ++
        (beBytes 4 hdr.vers.toNat ++ (beBytes 4 hdr.proc.toNat ++ (beBytes 4 6 ++ credEnc)))))) := by
    rw [hhead, List.length_append, Nat.add_sub_cancel, List.take_left]
  refine ⟨hdr.xid, hdr.rpcvers, hdr.prog, hdr.vers, hdr.proc, credBody, credEnc, verfEnc, htake,
    hcredEnc, hparse, hverfEnc, ?_⟩
  rw [htake]
  conv_lhs => rw [hhead, hafter]
  rfl

/-! ### Admission -/

/-- What a key has to do with tokens: a checksum of bytes or a seal of bytes was made with it by the
initiator. -/
abbrev MadeWith := Krb5.ContextKey → Bytes → Bytes → Prop

/-- Checksums and seals are accepted only if they were made with the key. -/
structure Unforgeable (C : Tokens) (signed sealed : MadeWith) : Prop where
  verifyMic : ∀ key bytes token n, C.verifyMic key .initiator bytes token = .ok n →
    signed key bytes token
  unwrap : ∀ key token plain n, C.unwrap key .initiator token = .ok (plain, true, n) →
    sealed key plain token

lemma Unforgeable.signed_of_isOk {C : Tokens} {signed sealed : MadeWith}
    (hC : Unforgeable C signed sealed) {key : Krb5.ContextKey} {bytes token : Bytes}
    (h : (C.verifyMic key .initiator bytes token).isOk = true) : signed key bytes token := by
  cases hverify : C.verifyMic key .initiator bytes token with
  | error e => simp [hverify, Except.isOk, Except.toBool] at h
  | ok n => exact hC.verifyMic _ _ _ _ hverify

/-- The arguments of a record are protected: behind the sequence number they are the bytes that were
checksummed, for service 2, or sealed, for service 3. -/
structure Protects (signed sealed : MadeWith) (key : Krb5.ContextKey) (service seq : UInt32)
    (args inner : Bytes) : Prop where
  integrity : service = 2 → ∃ rest cksum tail,
    takeOpaque args = some (beBytes 4 seq.toNat ++ inner, rest) ∧
    takeOpaque rest = some (cksum, tail) ∧ signed key (beBytes 4 seq.toNat ++ inner) cksum
  privacy : service = 3 → ∃ token rest, takeOpaque args = some (token, rest) ∧
    sealed key (beBytes 4 seq.toNat ++ inner) token

/-- The arguments that a call goes on with are decoded from the bytes. -/
def ArgsFrom (msg : RpcCallMsg) (inner : Bytes) : Prop :=
  ∃ call, msg.body = .call call ∧
    ∀ a, call.args = some a → Xdr.fromBytes Compound4args.codec inner = .ok a

/-- Behind a protection the sequence number comes first. -/
lemma eq_append_of_stripSeq {service seq : UInt32} {inner args : Bytes}
    (h : stripSeq service seq inner = some args) (hservice : service ≠ 1) :
    inner = beBytes 4 seq.toNat ++ args := by
  unfold stripSeq at h
  rw [if_neg hservice] at h
  split_ifs at h with hseq
  cases h
  obtain ⟨hlen, rfl⟩ := hseq
  have htake : (inner.take 4).length = 4 := List.length_take_of_le hlen
  have hlt : ofBytes (inner.take 4) < 2 ^ 32 := by
    have := ofBytes_lt (inner.take 4)
    rwa [htake] at this
  have hword : beBytes 4 (ofBytes (inner.take 4)) = inner.take 4 := by
    have := beBytes_ofBytes (inner.take 4)
    rwa [htake] at this
  rw [UInt32.toNat_ofNat_of_lt' hlt, hword, List.take_append_drop]

/-- Arguments that are opened are protected. -/
lemma protects_of_openArgs {C : Tokens} {signed sealed : MadeWith} (hC : Unforgeable C signed sealed)
    {ctx : GssContext} {service seq : UInt32} {raw inner args : Bytes}
    (hopen : openArgs C ctx service raw = some inner) (hstrip : stripSeq service seq inner = some args) :
    Protects signed sealed ctx.key service seq raw args := by
  constructor
  · rintro rfl
    have hinner := eq_append_of_stripSeq hstrip (by decide)
    unfold openArgs at hopen
    rw [if_neg (by decide), if_pos rfl] at hopen
    obtain ⟨⟨body, rest⟩, hbody, hopen⟩ := Option.bind_eq_some_iff.1 hopen
    obtain ⟨⟨cksum, tail⟩, hcksum, hopen⟩ := Option.bind_eq_some_iff.1 hopen
    dsimp only at hcksum hopen
    split_ifs at hopen with hmic
    cases hopen
    rw [← hinner]
    exact ⟨rest, cksum, tail, hbody, hcksum, hC.signed_of_isOk hmic⟩
  · rintro rfl
    have hinner := eq_append_of_stripSeq hstrip (by decide)
    unfold openArgs at hopen
    rw [if_neg (by decide), if_neg (by decide)] at hopen
    obtain ⟨⟨token, rest⟩, htoken, hopen⟩ := Option.bind_eq_some_iff.1 hopen
    dsimp only at hopen
    split at hopen
    · rename_i plain n hunwrap
      cases hopen
      rw [← hinner]
      exact ⟨token, rest, htoken, hC.unwrap _ _ _ _ hunwrap⟩
    · cases hopen

/-- The arguments of a call that goes on are decoded from what was under the protection. -/
lemma argsFrom_of_decodeArgs {xid : UInt32} {call call' : CallBody} {args : Bytes} {cred : OpaqueAuth}
    (h : decodeArgs call args = some call') (hnone : call.args = none) :
    ArgsFrom ⟨xid, .call { call' with cred := cred }⟩ args := by
  refine ⟨_, rfl, fun a ha => ?_⟩
  unfold decodeArgs at h
  split_ifs at h
  · split at h
    · rename_i decoded hdecode
      cases h
      cases ha
      exact hdecode
    · cases h
  · cases h
    simp [hnone] at ha

section Run

variable {ι : Type}

/-- While a record was handled, a handle named a context that had not expired. -/
def Named (h : List (ι × Event)) (i : ι) (handle : Bytes) (ctx : GssContext) : Prop :=
  ∃ h₁ h₂ s now, h = h₁ ++ (i, ⟨.get handle, some ctx⟩) :: h₂ ∧
    Allows Step .new (h₁.map Prod.snd) s ∧ (handle, ctx) ∈ s.contexts ∧
    (i, (⟨.now, now⟩ : Event)) ∈ h₂ ∧ now ≤ ctx.expires

/-- What is known of a record that proceeds as a call, with the context, the sequence number and the
service that its reply will be protected by. -/
structure Admitted (signed sealed : MadeWith) (h : List (ι × Event)) (i : ι) (record : Bytes)
    (cred : RpcSecGssCred) (msg : RpcCallMsg) (info : GssReply) : Prop where
  seq_eq : info.seq = cred.seqNum
  service_eq : info.service = cred.service
  named : Named h i cred.handle info.ctx
  verified : ∃ header token args inner, Splits record header token args cred ∧
    signed info.ctx.key header token ∧
    Protects signed sealed info.ctx.key cred.service cred.seqNum args inner ∧ ArgsFrom msg inner
  seq_lt : cred.seqNum < MAXSEQ

variable [DecidableEq ι]

/-- A run of any number of records, from the start of the server: what was asked and answered, by
which of them, and what is left of handling each. -/
def Serves (C : Tokens) (records : ι → Bytes) (h : List (ι × Event))
    (left : ι → Op (Option GssCall)) : Prop :=
  Interleaves (fun i => receive C (records i)) h left ∧ ∃ s, Allows Step .new (h.map Prod.snd) s

section Facts

variable {C : Tokens} {signed sealed : MadeWith} {records : ι → Bytes} {h : List (ι × Event)}
  {left : ι → Op (Option GssCall)} {i j : ι} {msg msg' : RpcCallMsg} {info info' : GssReply}
  {cred cred' : RpcSecGssCred}

/-- The turns of a record that proceeds. -/
lemma Serves.turns_eq (hrun : Serves C records h left)
    (hleft : left i = .pure (some (.proceed msg info))) (hcred : credOf (records i) = some cred) :
    ∃ now, now ≤ info.ctx.expires ∧ info.seq = cred.seqNum ∧ turns i h =
      [⟨.get cred.handle, some info.ctx⟩, ⟨.now, now⟩, ⟨.accept info.ctx cred.seqNum, true⟩] := by
  obtain ⟨hdr, cred', hread, hhdr, hpasses⟩ := receive_runs (hrun.1.runs hleft)
  obtain rfl : cred' = cred := by
    obtain ⟨_, _, _, _, _, _, _, _, _⟩ := hdr
    dsimp only at hhdr
    subst hhdr
    simpa [credOf, hread] using hcred
  obtain ⟨now, hnow, hturns⟩ := hpasses.asked
  exact ⟨now, hnow, hpasses.seq_eq, hturns⟩

/-- A record that proceeds is admitted. -/
lemma Serves.admitted (hrun : Serves C records h left) (hC : Unforgeable C signed sealed)
    (hleft : left i = .pure (some (.proceed msg info))) :
    ∃ cred, credOf (records i) = some cred ∧
      Admitted signed sealed h i (records i) cred msg info := by
  obtain ⟨hdr, cred, hread, hhdr, hpasses⟩ := receive_runs (hrun.1.runs hleft)
  have hcredOf : credOf (records i) = some cred := by
    obtain ⟨_, _, _, _, _, _, _, _, _⟩ := hdr
    dsimp only at hhdr
    subst hhdr
    simp [credOf, hread]
  refine ⟨cred, hcredOf, hpasses.seq_eq, hpasses.service_eq, ?_, ?_, hpasses.seq_lt⟩
  · -- the context was in the table when it was looked up
    obtain ⟨now, hnow, hturns⟩ := hpasses.asked
    obtain ⟨h₁, h₂, rfl, hrest⟩ := exists_of_turns_eq_cons hturns
    obtain ⟨-, t, hallow⟩ := hrun
    rw [List.map_append, List.map_cons] at hallow
    obtain ⟨s, hbefore, hafter⟩ := hallow.of_append
    have hnowmem : (i, (⟨.now, now⟩ : Event)) ∈ h₂ :=
      mem_of_mem_turns (by rw [hrest]; exact List.mem_cons_self)
    cases hafter with
    | cons hstep _ =>
      exact ⟨h₁, h₂, s, now, rfl, hbefore, Contexts.mem_of_get hstep.1.symm, hnowmem, hnow⟩
  · obtain ⟨inner, args, call', hopen, hstrip, hdecode, rfl⟩ := hpasses.args
    have hverified := hpasses.verified
    unfold verified at hverified
    split at hverified
    · rename_i token hverf
      exact ⟨_, token, hdr.rest, args, splits_of_readCallHeader hread hhdr hverf,
        hC.signed_of_isOk hverified, protects_of_openArgs hC hopen hstrip,
        argsFrom_of_decodeArgs hdecode rfl⟩
    · cases hverified

/-- Two records that proceed in one context with one sequence number are the same. -/
lemma Serves.eq_of_seq (hrun : Serves C records h left)
    (hi : left i = .pure (some (.proceed msg info))) (hj : left j = .pure (some (.proceed msg' info')))
    (hcred : credOf (records i) = some cred) (hcred' : credOf (records j) = some cred')
    (hctx : info.ctx.id = info'.ctx.id) (hseq : cred.seqNum = cred'.seqNum) : i = j := by
  obtain ⟨now, -, -, hturns⟩ := hrun.turns_eq hi hcred
  obtain ⟨now', -, -, hturns'⟩ := hrun.turns_eq hj hcred'
  have hmem : (i, (⟨.accept info.ctx cred.seqNum, true⟩ : Event)) ∈ h :=
    mem_of_mem_turns (by rw [hturns]; simp)
  have hmem' : (j, (⟨.accept info'.ctx cred'.seqNum, true⟩ : Event)) ∈ h :=
    mem_of_mem_turns (by rw [hturns']; simp)
  obtain ⟨-, t, hallow⟩ := hrun
  have hnodup := (nodup_grants windowsKeep_new hallow).1
  have hgrant : grantOf ⟨.accept info'.ctx cred'.seqNum, true⟩ = some (info.ctx.id, cred.seqNum) := by
    rw [hctx, hseq]
    rfl
  have heq := eq_of_grantOf hnodup hmem hmem' rfl hgrant
  exact congrArg Prod.fst heq

end Facts

/-- **Admission.** Along every run of records with RPCSEC_GSS credentials, on any connections and in
any order, with contexts made, dropped and destroyed meanwhile: a record proceeds only if it is
admitted, and at most one record proceeds for a context and a sequence number. If the handles are
distinct, the context may be given by the handle in the record. -/
theorem admitted_and_once (C : Tokens) (signed sealed : MadeWith) (hC : Unforgeable C signed sealed)
    (records : ι → Bytes) (h : List (ι × Event)) (left : ι → Op (Option GssCall))
    (hrun : Serves C records h left) :
    (∀ i msg info, left i = .pure (some (.proceed msg info)) →
      ∃ cred, credOf (records i) = some cred ∧
        Admitted signed sealed h i (records i) cred msg info) ∧
    ∀ i j msg msg' info info' cred cred', left i = .pure (some (.proceed msg info)) →
      left j = .pure (some (.proceed msg' info')) → credOf (records i) = some cred →
      credOf (records j) = some cred' → cred.seqNum = cred'.seqNum →
      (info.ctx.id = info'.ctx.id ∨
        DistinctHandles (h.map Prod.snd) ∧ cred.handle = cred'.handle) → i = j := by
  refine ⟨fun i msg info hleft => hrun.admitted hC hleft, ?_⟩
  intro i j msg msg' info info' cred cred' hi hj hcred hcred' hseq hsame
  refine hrun.eq_of_seq hi hj hcred hcred' ?_ hseq
  rcases hsame with hctx | ⟨hdistinct, hhandle⟩
  · exact hctx
  · obtain ⟨now, -, -, hturns⟩ := hrun.turns_eq hi hcred
    obtain ⟨now', -, -, hturns'⟩ := hrun.turns_eq hj hcred'
    obtain ⟨h₁, h₂, hsplit, -⟩ := exists_of_turns_eq_cons hturns
    obtain ⟨k₁, k₂, hsplit', -⟩ := exists_of_turns_eq_cons hturns'
    obtain ⟨t, hallow⟩ := hrun.2
    rw [← hhandle] at hsplit'
    have heq := hdistinct.eq_of_get hallow
      (by rw [hsplit, List.map_append, List.map_cons]) (by rw [hsplit', List.map_append, List.map_cons])
    rw [heq]

end Run

/-! ### A run -/

/-- Tokens whose checksum is one byte and whose seal is a byte in front. -/
def plainTokens : Tokens where
  getMic _ _ _ _ := .ok [1]
  verifyMic _ _ _ token := if token = [1] then .ok 0 else .error .integrity
  unwrap _ _ token :=
    match token with
    | 1 :: plain => .ok (plain, true, 0)
    | _ => .error .integrity

lemma unforgeable_plainTokens :
    Unforgeable plainTokens (fun _ _ token => token = [1]) (fun _ plain token => token = 1 :: plain) := by
  constructor
  · intro key bytes token n h
    by_contra hne
    simp [plainTokens, hne] at h
  · intro key token plain n h
    simp only [plainTokens] at h
    split at h
    · cases h
      rfl
    · cases h

/-- A NULL call with an RPCSEC_GSS credential. -/
def gssRecord (gssProc seq : ℕ) (handle verf args : Bytes) : Bytes :=
  beBytes 4 5 ++ beBytes 4 0 ++ beBytes 4 2 ++ beBytes 4 100003 ++ beBytes 4 4 ++ beBytes 4 0 ++
    beBytes 4 6 ++ putOpaque (beBytes 4 1 ++ beBytes 4 gssProc ++ beBytes 4 seq ++ beBytes 4 1 ++
      putOpaque handle) ++ verf ++ args

/-- The first record makes a context, and the second uses it. -/
def twoRecords : Bool → Bytes
  | false => gssRecord 1 0 [] (beBytes 4 0 ++ putOpaque []) (putOpaque [9])
  | true => gssRecord 0 1 [7, 7, 7, 7] (beBytes 4 6 ++ putOpaque [1]) []

def oneAccepted : Krb5.Accepted :=
  ⟨"a", "s", ⟨.aes256CtsHmacSha1_96, [], false⟩, 0, 0, 0, 100, none⟩

def oneContext : GssContext := ⟨0, oneAccepted.key, "a", none, 100, 0⟩

/-- What the questions of the two records are answered. -/
def answers (_ : ℕ) : (q : Question) → q.Answer
  | .acceptToken _ => .ok oneAccepted
  | .randomBytes _ => .ok [7, 7, 7, 7]
  | .identity _ => none
  | .newContext .. => oneContext
  | .sendSeq _ => 0
  | .insert .. | .remove _ => ()
  | .get _ => some oneContext
  | .now => 50
  | .accept .. => true

/-- What is asked for the first record. -/
def firstTurns : List Event :=
  [⟨.acceptToken [9], .ok oneAccepted⟩, ⟨.randomBytes 16, .ok [7, 7, 7, 7]⟩, ⟨.identity "a", none⟩,
    ⟨.newContext oneAccepted none, oneContext⟩, ⟨.sendSeq oneContext, (0 : UInt64)⟩,
    ⟨.insert [7, 7, 7, 7] oneContext, ()⟩]

/-- What is asked for the second record. -/
def secondTurns : List Event :=
  [⟨.get [7, 7, 7, 7], some oneContext⟩, ⟨.now, (50 : ℤ)⟩, ⟨.accept oneContext 1, true⟩]

lemma run_first : ((receive plainTokens (twoRecords false)).run answers 0).1 = firstTurns := by
  rfl

lemma run_second : ((receive plainTokens (twoRecords true)).run answers 0).1 = secondTurns := by
  rfl

lemma proceeds_second : ∃ msg info,
    ((receive plainTokens (twoRecords true)).run answers 0).2 = some (some (.proceed msg info)) :=
  ⟨_, _, rfl⟩

/-- The server answers so. -/
lemma allows_turns : ∃ s, Allows Step .new (firstTurns ++ secondTurns) s := by
  refine ⟨_, .cons rfl (.cons rfl (.cons rfl (.cons ⟨⟨0, rfl⟩, rfl⟩ (.cons ⟨?_, rfl⟩
    (.cons ⟨0, _, .refl _, rfl⟩ (.cons ⟨?_, rfl⟩ (.cons rfl
      (.cons ⟨(SeqWindow.default.accept 1).1, ?_, rfl⟩ (.nil _)))))))))⟩
  · rfl
  · rfl
  · rfl

/-- In a run of the two records the second proceeds, and is admitted. -/
theorem admitted_second : ∃ h left msg info, Serves plainTokens twoRecords h left ∧
    left true = .pure (some (.proceed msg info)) ∧
    ∃ cred, credOf (twoRecords true) = some cred ∧ Admitted (fun _ _ token => token = [1])
      (fun _ plain token => token = 1 :: plain) h true (twoRecords true) cred msg info := by
  obtain ⟨msg, info, hproceeds⟩ := proceeds_second
  have hfirst := @Runs.interleaves _ _ _ _ _ (fun i => receive plainTokens (twoRecords i)) false _ _
    (runs_run answers 0 _)
  have hlast := runs_run answers 0 (receive plainTokens (twoRecords true))
  rw [run_first] at hfirst
  rw [run_second, hproceeds] at hlast
  have hboth := hfirst.append (@Runs.interleaves _ _ _ _ _ (Function.update _ false _) true _ _ hlast)
  have hallow : ∃ s, Allows Step .new ((firstTurns.map (fun x => (false, x)) ++
      secondTurns.map fun x => (true, x)).map Prod.snd) s := by
    simpa using allows_turns
  have hserves : Serves plainTokens twoRecords _ _ := And.intro hboth hallow
  refine ⟨_, _, msg, info, hserves, rfl, ?_⟩
  exact (admitted_and_once plainTokens _ _ unforgeable_plainTokens twoRecords _ _ hserves).1 true msg
    info rfl

end NextNfs.Gss
