import Mathlib.Algebra.BigOperators.Group.Finset.Basic
import Mathlib.Data.Fintype.BigOperators
import NextNfs.Lib.Run
import NextNfs.Server.Dispatcher
import NextNfs.Server.OpenCreate

set_option relaxedAutoImplicit false
set_option autoImplicit false

/-!
# The quota of an export

WRITE, COPY and ALLOCATE ask the quota manager of the export for room before they work, and record
what they wrote afterwards (`export_manager.rs`). Requests of all clients take turns between the
two. This module is about whether the hard limit holds.

## Main definitions

* `NextNfs.Quota.DataRequest` — WRITEs, COPYs and ALLOCATEs on an export.
* `NextNfs.Quota.Shared`, `NextNfs.Quota.step` — requests that share the quota manager of their
  export, and a turn of one of them.
* `NextNfs.Quota.LeavesRoom` — what a request is let through with fits beside what was granted to
  the others.

## Main results

* `NextNfs.Quota.records_execute` — no request records more than it was let through with or found
  out to need.
* `NextNfs.Quota.hard_limit_of_leavesRoom` — the hard limit holds in every run in which requests are
  let through only while there is room.

## Implementation notes

The programs are those of the dispatcher. Their questions to the quota manager are answered by the
one of the export, and all others by an oracle that each turn brings along: other requests may
change the files at any time. With `checks` the server is built with overflow checks, and the
request whose addition overflows panics; without them the addition wraps.
-/

namespace NextNfs

open Wire Dialogue

namespace QuotaManager

/-- `record_write`. An atomic addition wraps in every build. -/
def recordWrite (q : QuotaManager) (bytes : UInt64) : QuotaManager :=
  { q with bytesUsed := q.bytesUsed + bytes }

/-- The addition of `check_write` overflows. There is none without a limit. -/
def overflows (q : QuotaManager) (additionalBytes : UInt64) : Bool :=
  q.hardLimitBytes != 0 && decide (2 ^ 64 ≤ q.bytesUsed.toNat + additionalBytes.toNat)

@[simp] lemma recordWrite_hardLimitBytes (q : QuotaManager) (bytes : UInt64) :
    (q.recordWrite bytes).hardLimitBytes = q.hardLimitBytes := rfl

/-- What is recorded is added, or less if the counter wraps. -/
lemma recordWrite_bytesUsed_le (q : QuotaManager) (bytes : UInt64) :
    (q.recordWrite bytes).bytesUsed.toNat ≤ q.bytesUsed.toNat + bytes.toNat := by
  show (q.bytesUsed + bytes).toNat ≤ _
  rw [UInt64.toNat_add]
  exact Nat.mod_le _ _

/-- A passing check whose addition does not overflow leaves room. -/
lemma le_of_checkWrite {q : QuotaManager} {n : UInt64} (hlimit : q.hardLimitBytes ≠ 0)
    (hallowed : q.checkWrite n = true) (hover : q.overflows n = false) :
    q.bytesUsed.toNat + n.toNat ≤ q.hardLimitBytes.toNat := by
  have hsmall : q.bytesUsed.toNat + n.toNat < 2 ^ 64 := by
    simpa [overflows, hlimit] using hover
  have hle : q.bytesUsed + n ≤ q.hardLimitBytes := by
    simpa [checkWrite, hlimit] using hallowed
  rw [UInt64.le_iff_toNat_le, UInt64.toNat_add, Nat.mod_eq_of_lt hsmall] at hle
  exact hle

end QuotaManager

namespace Quota

open Dispatcher

/-! ### Requests -/

/-- ALLOCATE in a build without overflow checks: the end of what is allocated wraps. -/
def allocateWrapping (args : Allocate4args) (req : Request) : Op Response :=
  let answer := fun (status : NfsStat4) => Response.some req (.opallocate ⟨status⟩) status
  match req.filehandle with
  | none => .pure (answer .nfs4errFhexpired)
  | some fh => do
    let allowed ← quotaAllows req args.aaLength
    if allowed = false then pure (answer .nfs4errDquot)
    else
      let opened : Option Unit ← ask fh.vfs (.appendFile fh.file)
      match opened with
      | none => pure (answer .nfs4errIo)
      | some _ =>
        let size : Option UInt64 ← ask fh.vfs (.seekEnd fh.file)
        match size with
        | none => pure (answer .nfs4errIo)
        | some size =>
          let allocEnd := args.aaOffset + args.aaLength
          if allocEnd > size then
            let done ← writeZeros fh (zeroChunks (allocEnd - size).toNat)
            match done with
            | none => pure (answer .nfs4errIo)
            | some _ =>
              recordWrite req (allocEnd - size)
              pure (answer .nfs4Ok)
          else pure (answer .nfs4Ok)

/-- The operations that ask for room and record what they wrote. -/
inductive DataOp
  | write (args : Write4args)
  | copy (args : Copy4args)
  | allocate (args : Allocate4args)

/-- The program of an operation. -/
def DataOp.execute (checks : Bool) : DataOp → Request → Op Response
  | .write args, req => Dispatcher.write args req
  | .copy args, req => Dispatcher.copy args req
  | .allocate args, req =>
    if checks then Dispatcher.allocate args req else allocateWrapping args req

/-- A request on the export with number `e`: its quota manager is that of the export. -/
structure DataRequest (e : UInt8) where
  op : DataOp
  req : Request
  onExport : req.quotaManager = some e

/-- The bytes that a COPY is going to copy, if the source has the given size. -/
def copyCount (args : Copy4args) (size : UInt64) : ℕ :=
  let available := (saturatingSub size args.caSrcOffset).toNat
  if args.caCount = 0 then available else min args.caCount.toNat available

/-- The end of what an ALLOCATE allocates. -/
def allocEnd (checks : Bool) (args : Allocate4args) : ℕ :=
  if checks then args.aaOffset.toNat + args.aaLength.toNat
  else (args.aaOffset + args.aaLength).toNat

/-- The bytes that a request finds out to need when it seeks to the end of a file. -/
def DataOp.need (checks : Bool) (op : DataOp) (req : Request) (size : Option UInt64) : ℕ :=
  match op, req.savedFilehandle, size with
  | .copy args, some src, size => copyCount args (size.getD src.attrSize)
  | .allocate args, _, some size => allocEnd checks args - size.toNat
  | _, _, _ => 0

namespace DataRequest

variable {e : UInt8} (checks : Bool) (r : DataRequest e)

/-- The bytes that a request is let through with, or finds out to need beyond those, by the answer
to a question. -/
def claims (granted : ℕ) : (q : Question) → q.Answer → ℕ
  | .checkWrite _ n, true => n.toNat
  | .on _ (.seekEnd _), size => r.op.need checks r.req size - granted
  | _, _ => 0

/-- What a request may still record after the answer to a question. -/
def grant (granted : ℕ) : (q : Question) → q.Answer → ℕ
  | .recordWrite _ _, _ => 0
  | q, a => granted + r.claims checks granted q a

end DataRequest

/-! ### Turns -/

/-- `read` and `write` transfer at most what they were asked to. Lengths have 64 bits. -/
def Transfers : (q : Question) → q.Answer → Prop
  | .on _ (.read _ count), some data => data.length ≤ count
  | .on _ (.write _ data), some n => n.toUInt64 ≤ UInt64.ofNat data.length
  | _, _ => True

/-- What all but the quota manager answers. -/
structure Luck where
  answer : (q : Question) → q.Answer
  transfers : ∀ q, Transfers q (answer q)

/-- A request with what is left of its program, and what it may still record. -/
structure Party (e : UInt8) where
  request : DataRequest e
  program : Op Response
  granted : ℕ

/-- What is granted to a request that still runs. -/
def Party.reserved {e : UInt8} (p : Party e) : ℕ :=
  match p.program with
  | .ask _ _ => p.granted
  | _ => 0

/-- Requests on an export, and its quota manager. -/
structure Shared (ι : Type) (e : UInt8) where
  quota : QuotaManager
  parties : ι → Party e

/-- The answer to a question, unless the addition of the quota manager panics. -/
def respond (checks : Bool) (quota : QuotaManager) (luck : Luck) : (q : Question) → Option q.Answer
  | .checkWrite _ n => if checks && quota.overflows n then none else some (quota.checkWrite n)
  | q => some (luck.answer q)

/-- The quota manager after a question. -/
def charge (quota : QuotaManager) : Question → QuotaManager
  | .recordWrite _ n => quota.recordWrite n
  | _ => quota

section Shared

variable {ι : Type} [DecidableEq ι] {e : UInt8} (checks : Bool)

/-- One request takes a turn: its next question is answered. -/
def step (s : Shared ι e) (act : ι × Luck) : Option (Shared ι e) :=
  let p := s.parties act.1
  match p.program with
  | .ask q k =>
    match respond checks s.quota act.2 q with
    | none =>
      some { s with parties := Function.update s.parties act.1 { p with program := .panic } }
    | some a =>
      some {
        quota := charge s.quota q
        parties := Function.update s.parties act.1
          ⟨p.request, k a, p.request.grant checks p.granted q a⟩ }
  | _ => none

/-- Requests that have not begun. -/
def start (quota : QuotaManager) (requests : ι → DataRequest e) : Shared ι e where
  quota := quota
  parties i := ⟨requests i, (requests i).op.execute checks (requests i).req, 0⟩

variable [Fintype ι]

/-- What is granted and not recorded yet. -/
def Shared.reserved (s : Shared ι e) : ℕ := ∑ i, (s.parties i).reserved

/-- If a request is let through, or finds out to need more than it was let through with, there is
room for it beside what is used and what is granted. -/
def LeavesRoom (s : Shared ι e) (act : ι × Luck) : Prop :=
  let p := s.parties act.1
  ∀ q k a, p.program = .ask q k → respond checks s.quota act.2 q = some a →
    0 < p.request.claims checks p.granted q a →
    s.quota.bytesUsed.toNat + s.reserved + p.request.claims checks p.granted q a ≤
      s.quota.hardLimitBytes.toNat

end Shared

/-! ### What a request records -/

/-- A request asks the quota manager of its export only, and records no more than it may. -/
def Within (e : UInt8) (granted : ℕ) : Question → Prop
  | .checkWrite e' _ => e' = e
  | .recordWrite e' n => e' = e ∧ n.toNat ≤ granted
  | _ => True

section Records

variable {e : UInt8} {checks : Bool} {r : DataRequest e} {granted : ℕ} {α β : Type}

/-- What an answer grants to a request, if it transfers what it should. -/
def DataRequest.Grants (checks : Bool) (r : DataRequest e) (granted : ℕ) (q : Question)
    (a : q.Answer) (granted' : ℕ) : Prop :=
  Transfers q a ∧ granted' = r.grant checks granted q a

/-- A program records no more than it may, and ends as it should. -/
abbrev DataRequest.Records (checks : Bool) (r : DataRequest e) (p : Op α) (granted : ℕ)
    (post : α → ℕ → Prop) : Prop :=
  p.Sat (r.Grants checks) (Within e) True granted post

/-- A call that is not a seek to the end of a file grants nothing. -/
lemma ask_records {vfs : Option UInt8} {call : Call} {post : call.Answer → ℕ → Prop}
    (hcall : ∀ p, call ≠ .seekEnd p)
    (hpost : ∀ a, Transfers (.on vfs call) a → post a granted) :
    r.Records checks (ask vfs call) granted post := by
  refine ⟨trivial, ?_⟩
  rintro a _ ⟨htransfers, rfl⟩
  have hsame : r.grant checks granted (.on vfs call) a = granted := by
    cases call
    case seekEnd p => exact absurd rfl (hcall p)
    all_goals rfl
  show post a (r.grant checks granted (.on vfs call) a)
  rw [hsame]
  exact hpost a htransfers

lemma askManager_records {req : Request} {call : Call} {post : call.Answer → ℕ → Prop}
    (hcall : ∀ p, call ≠ .seekEnd p) (hpost : ∀ e a, Transfers (.on (some e) call) a → post a granted) :
    r.Records checks (req.askManager call) granted post := by
  unfold Request.askManager Request.fileManager
  cases req.cachedFmanager with
  | none => trivial
  | some e => exact ask_records hcall (hpost e)

/-- A request that is let through is granted what it asked for. -/
lemma quotaAllows_records {req : Request} (hreq : req.quotaManager = some e) {n : UInt64}
    {post : Bool → ℕ → Prop} (hyes : post true (granted + n.toNat)) (hno : post false granted) :
    r.Records checks (quotaAllows req n) granted post := by
  unfold quotaAllows
  rw [hreq]
  refine ⟨rfl, ?_⟩
  rintro allowed _ ⟨-, rfl⟩
  cases allowed with
  | true => exact hyes
  | false => exact hno

lemma recordWrite_records {req : Request} (hreq : req.quotaManager = some e) {n : UInt64}
    (hn : n.toNat ≤ granted) {post : Unit → ℕ → Prop} (hpost : ∀ g, post () g) :
    r.Records checks (recordWrite req n) granted post := by
  unfold recordWrite
  rw [hreq]
  exact ⟨⟨rfl, hn⟩, fun _ _ _ => hpost _⟩

/-! #### WRITE -/

/-- The count of a WRITE is that of its data, cut to 32 bits. -/
lemma count_le_length (data : Bytes) :
    (UInt32.ofNat data.length).toUInt64 ≤ UInt64.ofNat data.length := by
  rw [UInt64.le_iff_toNat_le, UInt32.toNat_toUInt64, UInt32.toNat_ofNat', UInt64.toNat_ofNat']
  omega

/-- At most the data is written. -/
lemma writeThrough_records {args : Write4args} {fh : Handle} {req : Request}
    {post : Option UInt32 → ℕ → Prop}
    (hpost : ∀ n : Option UInt32,
      (∀ c, n = some c → c.toUInt64 ≤ UInt64.ofNat args.data.length) → post n granted) :
    r.Records checks (writeThrough args fh req) granted post := by
  have hdone : ∀ done : Option Unit,
      post (done.map fun _ => UInt32.ofNat args.data.length) granted := by
    intro done
    cases done with
    | none => exact hpost _ nofun
    | some _ =>
      apply hpost
      rintro _ ⟨⟩
      exact count_le_length args.data
  unfold writeThrough
  refine .bind (askManager_records nofun fun _ there _ => ?_)
  split_ifs
  · refine .bind (askManager_records nofun fun _ len _ => ?_)
    dsimp only
    split_ifs
    · exact .bind (askManager_records nofun fun _ done _ => hdone done)
    · exact .bind (askManager_records nofun fun _ done _ => hdone done)
  · refine .bind (ask_records nofun fun opened _ => ?_)
    cases opened with
    | none => exact hpost _ nofun
    | some _ =>
      refine .bind (ask_records nofun fun _ _ => .bind (ask_records nofun fun n hn => ?_))
      cases n with
      | none => exact hpost _ nofun
      | some n =>
        refine .bind (ask_records nofun fun flushed _ => ?_)
        cases flushed with
        | none => exact hpost _ nofun
        | some _ =>
          apply hpost
          rintro _ ⟨⟩
          exact hn

lemma finishWrite_records {req : Request} (hreq : req.quotaManager = some e) {count : UInt32}
    (hcount : count.toUInt64.toNat ≤ granted) (committed : StableHow4) :
    r.Records checks (finishWrite count committed req) granted fun _ _ => True := by
  unfold finishWrite
  split_ifs
  · exact .bind (recordWrite_records hreq hcount fun _ => trivial)
  · trivial

lemma writeCached_records {args : Write4args} {fh : Handle} {req : Request}
    (hreq : req.quotaManager = some e)
    (hn : (UInt64.ofNat args.data.length).toNat ≤ granted) :
    r.Records checks (writeCached args fh req) granted fun _ _ => True := by
  have hcount : (UInt32.ofNat args.data.length).toUInt64.toNat ≤ granted :=
    (UInt64.le_iff_toNat_le.1 (count_le_length args.data)).trans hn
  unfold writeCached
  dsimp only
  split_ifs
  · exact .bind (ask_records nofun fun _ _ => finishWrite_records hreq hcount _)
  · refine .bind (askManager_records nofun fun _ cache _ => ?_)
    cases cache with
    | none => trivial
    | some _ =>
      have hreq' : (req.dropFilehandleFromCache fh.id).quotaManager = some e := hreq
      exact .bind (askManager_records nofun fun _ _ _ => finishWrite_records hreq' hcount _)

lemma writeStable_records {args : Write4args} {fh : Handle} {req : Request}
    (hreq : req.quotaManager = some e)
    (hn : (UInt64.ofNat args.data.length).toNat ≤ granted) :
    r.Records checks (writeStable args fh req) granted fun _ _ => True := by
  unfold writeStable
  refine .bind (writeThrough_records fun written hwritten => ?_)
  cases written with
  | none => trivial
  | some count =>
    have hcount : count.toUInt64.toNat ≤ granted :=
      (UInt64.le_iff_toNat_le.1 (hwritten count rfl)).trans hn
    dsimp only
    split_ifs
    · exact .bind (askManager_records nofun fun _ _ _ => finishWrite_records hreq hcount _)
    · exact finishWrite_records hreq hcount _

/-- WRITE, once it was let through. -/
lemma write_records_of_allowed {args : Write4args} {fh : Handle} {req : Request}
    (hreq : req.quotaManager = some e) (allowed : Bool)
    (hn : allowed = true → (UInt64.ofNat args.data.length).toNat ≤ granted) :
    r.Records checks
      (if allowed = false then pure (.none req .nfs4errDquot)
      else
        match args.stable with
        | .unstable4 => writeCached args fh req
        | .dataSync4 | .fileSync4 => writeStable args fh req) granted fun _ _ => True := by
  split
  · trivial
  · have hallowed := hn (by simpa using ‹¬ allowed = false›)
    split
    · exact writeCached_records hreq hallowed
    · exact writeStable_records hreq hallowed
    · exact writeStable_records hreq hallowed

lemma write_records {args : Write4args} {req : Request} (hreq : req.quotaManager = some e) :
    r.Records checks (write args req) 0 fun _ _ => True := by
  unfold write
  cases req.filehandle with
  | none => trivial
  | some fh =>
    dsimp only
    split_ifs with hempty
    · refine .bind (write_records_of_allowed hreq true fun _ => ?_)
      have hnil : args.data = [] := List.isEmpty_iff.1 hempty
      simp [hnil]
    · refine .bind (quotaAllows_records hreq ?_ ?_)
      · exact write_records_of_allowed hreq true fun _ => by omega
      · exact write_records_of_allowed hreq false nofun

/-! #### ALLOCATE -/

lemma writeZeros_records {fh : Handle} {post : Option Unit → ℕ → Prop}
    (hpost : ∀ done, post done granted) (chunks : List ℕ) :
    r.Records checks (writeZeros fh chunks) granted post := by
  induction chunks with
  | nil => exact hpost _
  | cons n rest ih =>
    refine .bind (ask_records nofun fun done _ => ?_)
    cases done with
    | none => exact hpost _
    | some _ => exact ih

/-- A seek to the end of a file shows what the request needs. -/
lemma seekEnd_records {vfs : Option UInt8} {p : VfsPath} {post : Option UInt64 → ℕ → Prop}
    (hpost : ∀ (size : Option UInt64) (g : ℕ), r.op.need checks r.req size ≤ g → post size g) :
    r.Records checks (ask vfs (.seekEnd p)) granted post := by
  refine ⟨trivial, ?_⟩
  rintro size _ ⟨-, rfl⟩
  apply hpost
  show _ ≤ granted + (r.op.need checks r.req size - granted)
  omega

lemma allocate_records {args : Allocate4args} (hop : r.op = .allocate args) :
    r.Records true (allocate args r.req) 0 fun _ _ => True := by
  unfold allocate
  dsimp only
  cases r.req.filehandle with
  | none => trivial
  | some fh =>
    refine .bind (quotaAllows_records r.onExport ?_ trivial)
    refine .bind (ask_records nofun fun opened _ => ?_)
    cases opened with
    | none => trivial
    | some _ =>
      refine .bind (seekEnd_records fun size g hneed => ?_)
      cases size with
      | none => trivial
      | some size =>
        dsimp only
        split_ifs with hover hgrow
        · trivial
        · refine .bind (writeZeros_records (fun done => ?_) _)
          cases done with
          | none => trivial
          | some _ =>
            refine .bind (recordWrite_records r.onExport ?_ fun _ => trivial)
            rw [hop] at hneed
            have hrecord : (UInt64.ofNat (args.aaOffset.toNat + args.aaLength.toNat
                - size.toNat)).toNat ≤ args.aaOffset.toNat + args.aaLength.toNat - size.toNat := by
              rw [UInt64.toNat_ofNat']
              exact Nat.mod_le _ _
            exact hrecord.trans hneed
        · trivial

lemma allocateWrapping_records {args : Allocate4args} (hop : r.op = .allocate args) :
    r.Records false (allocateWrapping args r.req) 0 fun _ _ => True := by
  unfold allocateWrapping
  dsimp only
  cases r.req.filehandle with
  | none => trivial
  | some fh =>
    refine .bind (quotaAllows_records r.onExport ?_ trivial)
    refine .bind (ask_records nofun fun opened _ => ?_)
    cases opened with
    | none => trivial
    | some _ =>
      refine .bind (seekEnd_records fun size g hneed => ?_)
      cases size with
      | none => trivial
      | some size =>
        dsimp only
        split_ifs with hgrow
        · refine .bind (writeZeros_records (fun done => ?_) _)
          cases done with
          | none => trivial
          | some _ =>
            refine .bind (recordWrite_records r.onExport ?_ fun _ => trivial)
            rw [hop] at hneed
            have hsub : (args.aaOffset + args.aaLength - size).toNat =
                (args.aaOffset + args.aaLength).toNat - size.toNat :=
              UInt64.toNat_sub_of_le _ _ (UInt64.le_of_lt hgrow)
            exact hsub.le.trans hneed
        · trivial

/-! #### COPY -/

/-- The loop copies no more than it should, as `read` reads no more than it should. -/
lemma copyLoop_records {src dst : Handle} {count : ℕ} {post : Option ℕ → ℕ → Prop}
    (hpost : ∀ n : Option ℕ, (∀ c, n = some c → c ≤ count) → post n granted) (copied : ℕ)
    (hcopied : copied ≤ count) :
    r.Records checks (copyLoop src dst count copied) granted post := by
  have hdone : post (some copied) granted := hpost _ (by rintro _ ⟨⟩; exact hcopied)
  induction copied using copyLoop.induct count with
  | case1 copied hlt ih =>
    rw [copyLoop, if_pos hlt]
    refine .bind (ask_records nofun fun data hdata => ?_)
    cases data with
    | none => exact hpost _ nofun
    | some data =>
      dsimp only
      split_ifs with hempty
      · exact hdone
      · refine .bind (ask_records nofun fun done _ => ?_)
        cases done with
        | none => exact hpost _ nofun
        | some _ =>
          have hread : data.length ≤ min (count - copied) 262144 := hdata
          have hnext : copied + data.length ≤ count := by omega
          exact ih data hempty hnext (hpost _ (by rintro _ ⟨⟩; exact hnext))
  | case2 copied hge =>
    rw [copyLoop, if_neg hge]
    exact hdone

lemma copyBytes_records {args : Copy4args} {src dst : Handle} {count : ℕ} {req : Request}
    (hreq : req.quotaManager = some e) (hcount : count ≤ granted) :
    r.Records checks (copyBytes args src dst count req) granted fun _ _ => True := by
  unfold copyBytes
  refine .bind (ask_records nofun fun sought _ => ?_)
  cases sought with
  | none => trivial
  | some _ =>
    refine .bind (ask_records nofun fun opened _ => ?_)
    cases opened with
    | none => trivial
    | some _ =>
      refine .bind (ask_records nofun fun sought _ => ?_)
      cases sought with
      | none => trivial
      | some _ =>
        refine .bind (copyLoop_records (fun copied hcopied => ?_) 0 (Nat.zero_le _))
        cases copied with
        | none => trivial
        | some n =>
          refine .bind (ask_records nofun fun flushed _ => ?_)
          cases flushed with
          | none => trivial
          | some _ =>
            have hn : n ≤ count := hcopied n rfl
            refine .bind (recordWrite_records hreq ?_ fun _ => trivial)
            rw [UInt64.toNat_ofNat']
            exact (Nat.mod_le _ _).trans (hn.trans hcount)

lemma copy_records {args : Copy4args} (hop : r.op = .copy args) :
    r.Records checks (copy args r.req) 0 fun _ _ => True := by
  unfold copy
  cases r.req.filehandle with
  | none => trivial
  | some dst =>
    cases hsrc : r.req.savedFilehandle with
    | none => trivial
    | some src =>
      refine .bind (quotaAllows_records r.onExport ?_ trivial)
      refine .bind (ask_records nofun fun opened _ => ?_)
      cases opened with
      | none => trivial
      | some _ =>
        refine .bind (.bind (seekEnd_records fun size g hneed => ?_))
        have hcount : copyCount args (size.getD src.attrSize) ≤ g := by
          simpa only [hop, DataOp.need, hsrc] using hneed
        show r.Records checks
          (if copyCount args (size.getD src.attrSize) = 0 then
            pure (.some r.req (copyResok 0) .nfs4Ok)
          else copyBytes args src dst (copyCount args (size.getD src.attrSize)) r.req) g _
        split
        · trivial
        · exact copyBytes_records r.onExport hcount

/-- **No request records more than it was granted**, in either build and whatever it is answered.

**Proof sketch.** A WRITE is let through with the length of its data and writes no more; a COPY and
an ALLOCATE find out what they need when they seek to the end of the file. -/
lemma records_execute (checks : Bool) (r : DataRequest e) :
    r.Records checks (r.op.execute checks r.req) 0 fun _ _ => True := by
  cases hop : r.op with
  | write args => exact write_records r.onExport
  | copy args => exact copy_records hop
  | allocate args =>
    cases checks with
    | true => exact allocate_records hop
    | false => exact allocateWrapping_records hop

end Records

/-! ### The hard limit -/

section Limit

variable {ι : Type} [DecidableEq ι] {e : UInt8} {checks : Bool}

/-- What is recorded was granted, and what is granted was claimed. -/
lemma charge_grant_le (checks : Bool) (r : DataRequest e) (quota : QuotaManager) {granted : ℕ}
    {q : Question} (hq : Within e granted q) (a : q.Answer) :
    (charge quota q).bytesUsed.toNat + r.grant checks granted q a ≤
      quota.bytesUsed.toNat + granted + r.claims checks granted q a := by
  cases q
  case recordWrite e' n =>
    obtain ⟨-, hn⟩ := hq
    have hcharge := quota.recordWrite_bytesUsed_le n
    show (quota.recordWrite n).bytesUsed.toNat + 0 ≤ quota.bytesUsed.toNat + granted + 0
    omega
  all_goals exact (Nat.add_assoc _ _ _).ge

variable [Fintype ι]

lemma Party.reserved_le (p : Party e) : p.reserved ≤ p.granted := by
  unfold Party.reserved
  split
  · exact le_rfl
  · exact Nat.zero_le _

/-- A turn changes what is reserved by one request. -/
lemma reserved_update (quota quota' : QuotaManager) (parties : ι → Party e) (i : ι) (p : Party e) :
    Shared.reserved ⟨quota', Function.update parties i p⟩ + (parties i).reserved =
      Shared.reserved ⟨quota, parties⟩ + p.reserved := by
  have hupdate : ∀ j, (Function.update parties i p j).reserved =
      Function.update (fun j => (parties j).reserved) i p.reserved j :=
    Function.apply_update (fun _ => Party.reserved) parties i p
  unfold Shared.reserved
  simp only [hupdate]
  rw [Finset.sum_update_of_mem (Finset.mem_univ i),
    Finset.sum_eq_add_sum_sdiff_singleton_of_mem (Finset.mem_univ i) fun j => (parties j).reserved]
  omega

/-- The invariant: what is used and what is granted fit, and no request records more than it was
granted. -/
structure Fits (checks : Bool) (limit : UInt64) (s : Shared ι e) : Prop where
  limit_eq : s.quota.hardLimitBytes = limit
  room : s.quota.bytesUsed.toNat + s.reserved ≤ limit.toNat
  records : ∀ i, (s.parties i).request.Records checks (s.parties i).program (s.parties i).granted
    fun _ _ => True

/-- The invariant after a turn, if there is room for what the request is granted then. -/
lemma Fits.update {limit : UInt64} {s : Shared ι e} (h : Fits checks limit s) {quota : QuotaManager}
    (hlimit : quota.hardLimitBytes = limit) {i : ι} {p : Party e}
    (hroom : quota.bytesUsed.toNat + s.reserved + p.reserved ≤
      limit.toNat + (s.parties i).reserved)
    (hrecords : p.request.Records checks p.program p.granted fun _ _ => True) :
    Fits checks limit (⟨quota, Function.update s.parties i p⟩ : Shared ι e) where
  limit_eq := hlimit
  room := by
    have hsum := reserved_update s.quota quota s.parties i p
    show quota.bytesUsed.toNat + Shared.reserved ⟨quota, Function.update s.parties i p⟩ ≤ _
    have hs : Shared.reserved ⟨s.quota, s.parties⟩ = s.reserved := rfl
    omega
  records j := by
    by_cases hj : j = i
    · subst hj
      simpa only [Function.update_self] using hrecords
    · simpa only [Function.update_of_ne hj] using h.records j

omit [DecidableEq ι] in
lemma fits_start {quota : QuotaManager} (hused : quota.bytesUsed ≤ quota.hardLimitBytes)
    (requests : ι → DataRequest e) :
    Fits checks quota.hardLimitBytes (start checks quota requests) where
  limit_eq := rfl
  room := by
    have hnone : (start checks quota requests).reserved = 0 := by
      apply Finset.sum_eq_zero
      intro i _
      exact Nat.le_zero.1 (Party.reserved_le _)
    rw [hnone]
    exact UInt64.le_iff_toNat_le.1 hused
  records i := records_execute checks (requests i)

omit [Fintype ι] in
/-- What a turn can do: the request panics, or goes on with the answer to its question. -/
lemma step_cases {s : Shared ι e} {act : ι × Luck} {s' : Shared ι e}
    (hstep : step checks s act = some s') :
    ∃ q k, (s.parties act.1).program = .ask q k ∧
      ((respond checks s.quota act.2 q = none ∧
          s' = ⟨s.quota, Function.update s.parties act.1
            { s.parties act.1 with program := .panic }⟩) ∨
        ∃ a, respond checks s.quota act.2 q = some a ∧
          s' = ⟨charge s.quota q, Function.update s.parties act.1
            ⟨(s.parties act.1).request, k a,
              (s.parties act.1).request.grant checks (s.parties act.1).granted q a⟩⟩) := by
  unfold step at hstep
  dsimp only at hstep
  split at hstep
  case h_1 q k hprogram =>
    refine ⟨q, k, hprogram, ?_⟩
    split at hstep
    case h_1 hpanic =>
      cases hstep
      exact .inl ⟨hpanic, rfl⟩
    case h_2 a hanswer =>
      cases hstep
      exact .inr ⟨a, hanswer, rfl⟩
  case h_2 => cases hstep

/-- The quota manager answers what it should, and the oracle transfers what it should. -/
lemma transfers_of_respond {quota : QuotaManager} {luck : Luck} {q : Question} {a : q.Answer}
    (ha : respond checks quota luck q = some a) : Transfers q a := by
  cases q
  case checkWrite => trivial
  all_goals
    cases ha
    exact luck.transfers _

@[simp] lemma charge_hardLimitBytes (quota : QuotaManager) (q : Question) :
    (charge quota q).hardLimitBytes = quota.hardLimitBytes := by
  cases q <;> rfl

/-- A turn keeps the invariant if there is room for what the request claims. -/
lemma fits_step {limit : UInt64} (s : Shared ι e) (act : ι × Luck) (s' : Shared ι e)
    (h : Fits checks limit s) (hroom : LeavesRoom checks s act)
    (hstep : step checks s act = some s') : Fits checks limit s' := by
  obtain ⟨q, k, hprogram, hcases⟩ := step_cases hstep
  have hrecords := h.records act.1
  rw [hprogram] at hrecords
  obtain ⟨hwithin, hrest⟩ := hrecords
  have hfits := h.room
  have hreserved : (s.parties act.1).reserved = (s.parties act.1).granted := by
    rw [Party.reserved, hprogram]
  rcases hcases with ⟨-, rfl⟩ | ⟨a, ha, rfl⟩
  · -- A request that panics gives back what it was granted.
    refine h.update h.limit_eq ?_ trivial
    show s.quota.bytesUsed.toNat + s.reserved + 0 ≤ _
    omega
  · refine h.update ?_ ?_ (hrest a _ ⟨transfers_of_respond ha, rfl⟩)
    · rw [charge_hardLimitBytes, h.limit_eq]
    · have hcharge := charge_grant_le checks (s.parties act.1).request s.quota hwithin a
      have hclaims : s.quota.bytesUsed.toNat + s.reserved +
          (s.parties act.1).request.claims checks (s.parties act.1).granted q a ≤ limit.toNat := by
        rcases Nat.eq_zero_or_pos
          ((s.parties act.1).request.claims checks (s.parties act.1).granted q a) with hzero | hpos
        · rw [hzero]
          exact hfits
        · rw [← h.limit_eq]
          exact hroom q k a hprogram ha hpos
      have hnext := Party.reserved_le (⟨(s.parties act.1).request, k a,
        (s.parties act.1).request.grant checks (s.parties act.1).granted q a⟩ : Party e)
      dsimp only at hnext
      omega

/-! #### Requests that leave room -/

/-- A COPY with a count needs no more than it asks for. -/
lemma need_copy_le {args : Copy4args} (hcount : args.caCount ≠ 0) (req : Request)
    (size : Option UInt64) : (DataOp.copy args).need checks req size ≤ args.caCount.toNat := by
  unfold DataOp.need
  cases req.savedFilehandle with
  | none => exact Nat.zero_le _
  | some src =>
    show copyCount args (size.getD src.attrSize) ≤ _
    unfold copyCount
    dsimp only
    rw [if_neg hcount]
    exact Nat.min_le_left _ _

/-- An ALLOCATE that does not begin after the end of the file needs no more than it asks for. -/
lemma need_allocate_le {args : Allocate4args} {size : UInt64} (hoffset : args.aaOffset ≤ size)
    (req : Request) :
    (DataOp.allocate args).need checks req (some size) ≤ args.aaLength.toNat := by
  have hle : args.aaOffset.toNat ≤ size.toNat := UInt64.le_iff_toNat_le.1 hoffset
  have hend : allocEnd checks args ≤ args.aaOffset.toNat + args.aaLength.toNat := by
    unfold allocEnd
    split
    · exact le_rfl
    · rw [UInt64.toNat_add]
      exact Nat.mod_le _ _
  show allocEnd checks args - size.toNat ≤ _
  omega

omit [DecidableEq ι] in
/-- A turn leaves room if a request is let through while nothing is granted to others, without an
overflow, and needs no more than that. -/
lemma leavesRoom_of_alone {s : Shared ι e} {act : ι × Luck} (hlimit : s.quota.hardLimitBytes ≠ 0)
    (hcheck : ∀ e' n k, (s.parties act.1).program = .ask (.checkWrite e' n) k →
      s.reserved = 0 ∧ s.quota.overflows n = false)
    (hseek : ∀ vfs p k, (s.parties act.1).program = .ask (.on vfs (.seekEnd p)) k →
      (s.parties act.1).request.op.need checks (s.parties act.1).request.req
        (act.2.answer (.on vfs (.seekEnd p))) ≤ (s.parties act.1).granted) :
    LeavesRoom checks s act := by
  intro q k a hprogram ha hpos
  cases q
  case checkWrite e' n =>
    obtain ⟨halone, hover⟩ := hcheck e' n k hprogram
    have hallowed : a = s.quota.checkWrite n := by
      simpa [respond, hover] using ha.symm
    subst hallowed
    cases hpass : s.quota.checkWrite n with
    | false =>
      rw [hpass] at hpos
      exact absurd hpos (Nat.lt_irrefl 0)
    | true =>
      rw [halone]
      exact QuotaManager.le_of_checkWrite hlimit hpass hover
  case on vfs call =>
    cases call
    case seekEnd p =>
      cases ha
      have hneed := hseek vfs p k hprogram
      have hclaims : 0 < (s.parties act.1).request.op.need checks (s.parties act.1).request.req
        (act.2.answer (.on vfs (.seekEnd p))) - (s.parties act.1).granted := hpos
      omega
    all_goals exact absurd hpos (Nat.lt_irrefl 0)
  all_goals exact absurd hpos (Nat.lt_irrefl 0)

/-- **The hard limit** holds in every run in which a request is let through, or finds out to need
more, only while there is room beside what the others were granted.

**Proof sketch.** What is used and what is granted fit together, and this is an invariant: a request
records at most what it was granted, and then has nothing left of it. -/
theorem hard_limit_of_leavesRoom (checks : Bool) (quota : QuotaManager)
    (hused : quota.bytesUsed ≤ quota.hardLimitBytes) (requests : ι → DataRequest e)
    (acts : List (ι × Luck))
    (h : Run.Meets (step checks) (LeavesRoom checks) (start checks quota requests) acts) :
    Run.Holds (step checks) (fun s => s.quota.bytesUsed ≤ quota.hardLimitBytes)
      (start checks quota requests) acts := by
  have hfits := Run.holds_of_meets fits_step (fits_start hused requests) h
  refine hfits.mono fun s hs => ?_
  rw [UInt64.le_iff_toNat_le]
  exact (Nat.le_add_right _ _).trans hs.room

end Limit

section Examples

lemma plain_cachedWrite : ∀ c ∈ ["f"], PlainName c := by decide

/-- A WRITE to a file that has a write cache, on an export with a quota. -/
def cachedWrite (data : Bytes) : DataRequest 1 where
  op := .write ⟨⟨0, List.Vector.replicate 12 0⟩, 0, .unstable4, data⟩
  req := {
    Request.new "10.0.0.1" (some 1) 0 [] .sys with
    quotaManager := some 1
    filehandle := some {
      Filehandle.newReal ⟨["f"], plain_cachedWrite⟩ ⟨0x01 :: 1 :: List.replicate 24 0, rfl⟩ 0 0 0
        ⟨2, 64, 0o100644, 1, 0, 0, 0, 0, 0, 0, 0, 0, 0, 0⟩ with
      vfs := some 1
      writeCache := true } }
  onExport := rfl

/-- An oracle that answers as a server on which nothing works. -/
def idleLuck : Luck where
  answer := Question.idle
  transfers q := by
    cases q with
    | on e call => cases call <;> trivial
    | _ => trivial

/-- One WRITE within the limit. -/
theorem hard_limit_one_write :
    Run.Holds (step true) (fun s => s.quota.bytesUsed ≤ 10)
      (start true ⟨10, 0⟩ fun _ : Unit => cachedWrite [1])
      [((), idleLuck), ((), idleLuck), ((), idleLuck)] := by
  refine hard_limit_of_leavesRoom true ⟨10, 0⟩ (by decide) _ _ ?_
  refine Run.meets_cons rfl ?_ (Run.meets_cons rfl ?_ (Run.meets_cons rfl ?_ trivial))
  · intro q k a hprogram ha hpos
    cases hprogram
    cases ha
    decide
  -- The other turns claim nothing.
  all_goals
    intro q k a hprogram ha hpos
    cases hprogram
    exact absurd hpos (Nat.lt_irrefl 0)

/-- Two WRITEs are let through before either has recorded what it wrote. -/
theorem not_hard_limit_two_writes :
    ¬ Run.Holds (step true) (fun s => s.quota.bytesUsed ≤ 10)
      (start true ⟨10, 0⟩ fun _ : Bool => cachedWrite [1, 2, 3, 4, 5, 6])
      ([false, true, false, false, true, true].map fun i => (i, idleLuck)) := by
  intro h
  have hrun : ∃ s, ([false, true, false, false, true, true].map fun i => (i, idleLuck)).foldlM
      (step true) (start true ⟨10, 0⟩ fun _ : Bool => cachedWrite [1, 2, 3, 4, 5, 6]) = some s ∧
      s.quota.bytesUsed = 12 := ⟨_, rfl, by decide⟩
  obtain ⟨s, hs, hused⟩ := hrun
  have hle := h.last hs
  rw [hused] at hle
  exact absurd hle (by decide)

end Examples

end Quota

end NextNfs
