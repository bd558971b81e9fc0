import NextNfs.Proto.ReplySize
import NextNfs.Server.ReplyShape

set_option relaxedAutoImplicit false
set_option autoImplicit false

/-!
# The records of replies

Nothing in the encoder bounds a reply. READ returns what the client asks for and the file holds, and
a compound may contain any number of READs. This module says which replies are put into a record
that a client can read.

## Main definitions

* `NextNfs.Dispatcher.compoundReply` — the reply to a compound.
* `NextNfs.Dispatcher.Answered.size` — what the result of an operation adds to it.

## Main results

* `NextNfs.Dispatcher.record_framed_iff` — a reply is put into one final fragment exactly when its
  parts add up to less than `2 ^ 31` bytes.
-/

namespace NextNfs.Dispatcher

open Wire Dialogue

open Xdr (toBytes)

variable {S : Server}

/-- The reply to a compound, before RPCSEC_GSS protects it. -/
def compoundReply (xid : UInt32) (out : Outcome) : RpcReplyMsg :=
  ⟨xid, .msgAccepted (.authNull []) (.success out.reply)⟩

/-- What the result of an operation adds to the reply. -/
def Answered.size (a : Answered) : ℕ := (a.result.map NfsResOp4.size).getD 0

/-- The reply to a compound has the results of the operations that were taken up. -/
lemma compound_results (msg : CallBody) (req : Request) :
    Yields (compound S msg req) fun out =>
      out.reply.resarray = out.answered.filterMap Answered.result := by
  unfold compound
  cases msg.args with
  | none => exact rfl
  | some args =>
    dsimp only
    split_ifs
    · exact rfl
    · exact .bind (yields_of_forall (fun _ => rfl) _)

/-- The results of the operations that have one have the sizes of all operations. -/
lemma sum_size_filterMap (l : List Answered) :
    ((l.filterMap Answered.result).map NfsResOp4.size).sum = (l.map Answered.size).sum := by
  induction l with
  | nil => rfl
  | cons a l ih =>
    rw [List.filterMap_cons, List.map_cons, List.sum_cons, ← ih]
    cases hres : a.result with
    | none => simp [Answered.size, hres]
    | some res => simp [Answered.size, hres]

/-- The size of the reply to a compound. -/
lemma size_compoundReply {msg : CallBody} {req : Request} {h : List (Σ q : Question, q.Answer)}
    {out : Outcome} (hrun : Runs (compound S msg req) h (some out)) (xid : UInt32) :
    (compoundReply xid out).size =
      32 + stringSize out.reply.tag + (out.answered.map Answered.size).sum := by
  have hres := ((compound_results msg req).of_runs hrun fun _ _ => trivial).2.1 out rfl
  simp only [RpcReplyMsg.size, compoundReply, ReplyBody.size, OpaqueAuth.bodyLength, AcceptBody.size,
    Compound4res.size, hres, sum_size_filterMap, opaqueSize, List.length_nil, Codec.padding]
  omega

/-- READ returns at most the bytes that it is asked for. -/
lemma read_yields_size (args : Read4args) (req : Request) :
    Yields (read args req) fun r =>
      ∀ data eof, r.result = some (.opread (.resok4 ⟨eof, data⟩)) →
        data.length ≤ args.count.toNat := by
  unfold read
  cases req.filehandle with
  | none => exact nofun
  | some fh =>
    refine .bind (yields_of_forall (fun opened => ?_) _)
    cases opened with
    | none => exact nofun
    | some _ =>
      refine .bind (yields_of_forall (fun size => ?_) _)
      refine .bind (yields_of_forall (fun sought => ?_) _)
      cases sought with
      | none => exact nofun
      | some _ =>
        refine .bind (yields_of_forall (fun answer => ?_) _)
        cases answer with
        | none => exact nofun
        | some answer =>
          rintro data eof ⟨⟩
          rw [List.length_take]
          omega

/-- Reply records: the record of a reply is one final fragment that a reader of records parses back
to the reply exactly when the parts of the reply add up to less than `2 ^ 31` bytes. For the reply
to a compound these are 32 bytes, the tag, and the result of each operation that was taken up; that
of READ has the bytes that were read. **Proof sketch.** The reply has the size of its parts. The low
31 bits of the header are the length exactly if this is below `2 ^ 31`, and then there is no carry
into the bit of the last fragment. -/
theorem record_framed_iff (reply : RpcReplyMsg) (body : Bytes) (hbody : reply.toBytes = .ok body) :
    (FramedAs reply body ↔ reply.size < 2 ^ 31) ∧
    ∀ (S : Server) (msg : CallBody) (req : Request) (h : List (Σ q : Question, q.Answer))
      (out : Outcome) (xid : UInt32), Runs (compound S msg req) h (some out) →
      reply = compoundReply xid out →
      (FramedAs reply body ↔
        32 + stringSize out.reply.tag + (out.answered.map Answered.size).sum < 2 ^ 31) := by
  have hframed : FramedAs reply body ↔ reply.size < 2 ^ 31 := by
    rw [framedAs_iff_length hbody, hasSize_toBytes reply body hbody]
  refine ⟨hframed, fun S msg req h out xid hrun hreply => ?_⟩
  rw [hframed, hreply, size_compoundReply hrun]

/-- The reply to PUTFH and GETFH is put into one final fragment. -/
theorem record_framed_putfh_getfh :
    ∃ (h : List (Σ q : Question, q.Answer)) (out : Outcome) (body : Bytes),
      Runs (compound openServer (callOf [.opputfh ⟨fileId 1⟩, .opgetfh])
        (.new "10.0.0.1" none 0 [] .sys)) h (some out) ∧
      (compoundReply 7 out).toBytes = .ok body ∧ FramedAs (compoundReply 7 out) body := by
  have hrun := runs_run (sampleAnswers steadyExport) 0
    (compound openServer (callOf [.opputfh ⟨fileId 1⟩, .opgetfh]) (.new "10.0.0.1" none 0 [] .sys))
  refine ⟨_, _, _, hrun, rfl, ((record_framed_iff _ _ rfl).2 _ _ _ _ _ 7 hrun rfl).2 ?_⟩
  decide

/-! ### Two reads -/

/-- The answers of an export whose file has a gigabyte, with this content. -/
def gigabyteAnswers (content : Bytes) (n : ℕ) : (q : Question) → q.Answer
  | .on _ (.openFile _) | .on _ (.seekStart ..) => some ()
  | .on _ (.seekEnd _) => some 1073741824
  | .on _ (.read _ count) => some (content.take count)
  | q => sampleAnswers steadyExport n q

/-- A READ of a gigabyte from the start of the file. -/
def readGigabyte : NfsArgOp := .opread ⟨⟨0, List.Vector.replicate 12 0⟩, 0, 1073741824⟩

/-- Two READs of a gigabyte. -/
def readTwice : Op Outcome :=
  compound openServer (callOf [.opputfh ⟨fileId 1⟩, readGigabyte, readGigabyte])
    (.new "10.0.0.1" none 0 [] .sys)

/-- Two READs of a gigabyte succeed, whatever the file holds. -/
lemma readTwice_reply (content : Bytes) : ∃ (eof : Bool) (n : ℕ), n = 2 ^ 30 ∧
    (readTwice.run (gigabyteAnswers content) 0).2.map Outcome.reply =
      some ⟨.nfs4Ok, "", [.opputfh ⟨.nfs4Ok⟩,
        .opread (.resok4 ⟨eof, (content.take n).take n⟩),
        .opread (.resok4 ⟨eof, (content.take n).take n⟩)]⟩ := by
  refine ⟨_, _, ?_, rfl⟩
  change min (1073741824 : UInt32).toNat (saturatingSub 1073741824 0).toNat = 2 ^ 30
  decide

/-- Two READs of a gigabyte succeed with one reply, and the record of the reply is not a final
fragment. -/
theorem record_not_framed_two_reads :
    ∃ (h : List (Σ q : Question, q.Answer)) (out : Outcome) (body : Bytes),
      Runs readTwice h (some out) ∧ out.reply.status = .nfs4Ok ∧
      (compoundReply 7 out).toBytes = .ok body ∧ ¬ FramedAs (compoundReply 7 out) body := by
  set content : Bytes := List.replicate (2 ^ 30) 0 with hcontent
  have hlen : content.length = 2 ^ 30 := by
    rw [hcontent, List.length_replicate]
  obtain ⟨eof, n, hn, hreply⟩ := readTwice_reply content
  have hall : (content.take n).take n = content := by
    rw [List.take_take, Nat.min_self, List.take_of_length_le (by rw [hlen, hn])]
  rw [hall] at hreply
  obtain ⟨out, hout, hreply⟩ := Option.map_eq_some_iff.1 hreply
  have hrun := runs_run (gigabyteAnswers content) 0 readTwice
  rw [hout] at hrun
  -- The reply is written, as the length of the data fits a word.
  have hbody : ∃ body, (compoundReply 7 out).toBytes = .ok body := by
    have hfit : content.length < 256 ^ 4 := by
      rw [hlen]
      decide
    have hdata := toBytes_opaqueData hfit
    rw [compoundReply, hreply]
    simp only [RpcReplyMsg.toBytes, ReplyBody.serialize, AcceptBody.serialize,
      Compound4res.serialize, writeArgarray, serializeVec, NfsResOp4.serializeElement,
      NfsResOp4.serializeBody, Read4res.serialize, Read4resok.serialize, fields, List.map, hdata]
    exact ⟨_, rfl⟩
  obtain ⟨body, hbody⟩ := hbody
  refine ⟨_, out, body, hrun, by rw [hreply], hbody, ?_⟩
  rw [framedAs_iff_length hbody, hasSize_toBytes _ body hbody, compoundReply, hreply]
  simp only [RpcReplyMsg.size, ReplyBody.size, AcceptBody.size, Compound4res.size, NfsResOp4.size,
    NfsResOp4.bodySize, opaqueSize, List.map, List.sum_cons, List.sum_nil, hlen]
  omega

end NextNfs.Dispatcher
