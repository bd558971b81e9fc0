import NextNfs.Lib.ByteFile
import NextNfs.Server.ExportManager
import NextNfs.Server.QuotaAccounting

set_option relaxedAutoImplicit false
set_option autoImplicit false

/-!
# What ALLOCATE and COPY do to files

ALLOCATE fills a file up with zeros to the end of a range. COPY writes a range of the file of the
saved filehandle to a position of the current one. Both write through a handle that is open for
appending. This module says what becomes of the contents of the files and of the quota of the
export, and when that is what the operations promise.

## Main definitions

* `NextNfs.FileContents.Machine`, `NextNfs.FileContents.step` — files with their contents, and the
  calls on them.
* `NextNfs.FileContents.Allocates` — what an ALLOCATE should do.
* `NextNfs.FileContents.Fits` — the end of its range can be told, and the quota counter has room.
* `NextNfs.FileContents.Copies` — what a COPY should do.
* `NextNfs.FileContents.AtEnd` — nothing is copied, or to the end of the destination.

## Main results

* `NextNfs.FileContents.allocates_iff_fits` — an ALLOCATE that succeeds does what it should exactly
  when its range fits.
* `NextNfs.FileContents.copies_iff_atEnd` — a COPY that succeeds does what it should exactly when it
  is at the end.

## Implementation notes

A question about an open file has the path of the file only. The programs have at most one handle
that reads and one that appends, so that it is clear which one reads and which one writes; a seek is
on the handle that was opened last. Two paths may lead to one file. The files are regular files of
the operating system: a seek to the end of one does not fail, and its length is told as it is. Every
other call may fail, a read may be short, and a write that fails may have written a part.
-/

namespace NextNfs.FileContents

open Wire Dialogue Dispatcher Quota ByteFile
open QuotaAccounting (sum_zeroChunks)

/-! ### Files -/

/-- Files with their contents, the position of the handle that reads, whether the handle that was
opened last appends, and the quota managers of the exports. -/
structure Machine (ι : Type) where
  content : ι → Bytes
  position : ℕ
  appending : Bool
  quota : UInt8 → QuotaManager

section Step

variable {ι : Type}

/-- The handle that was opened last is moved. Where an appending handle is does not matter. -/
def Machine.seek (m : Machine ι) (position : ℕ) : Machine ι :=
  if m.appending then m else { m with position := position }

/-- `record_write` of the quota manager of a request, if it has one. -/
def Machine.record (m : Machine ι) (quota : Option UInt8) (bytes : UInt64) : Machine ι :=
  match quota with
  | none => m
  | some e => { m with quota := Function.update m.quota e ((m.quota e).recordWrite bytes) }

variable {m m' : Machine ι}

@[simp] lemma record_content (quota : Option UInt8) (bytes : UInt64) :
    (m.record quota bytes).content = m.content := by
  cases quota <;> rfl

/-- Nothing is recorded. -/
lemma record_zero (quota : Option UInt8) : m.record quota 0 = m := by
  cases quota with
  | none => rfl
  | some e =>
    have hsame : (m.quota e).recordWrite 0 = m.quota e := by simp [QuotaManager.recordWrite]
    simp [Machine.record, hsame]

variable [DecidableEq ι]

/-- Some bytes are written through a handle that is open with `O_APPEND`. -/
def Machine.append (m : Machine ι) (file : ι) (bytes : Bytes) : Machine ι :=
  { m with content := Function.update m.content file (m.content file ++ bytes) }

variable (fileAt : Option UInt8 → VfsPath → ι)

/-- The machine before a question, its answer, and the machine after it. The other questions are not
asked by the operations of this module. -/
def step (m : Machine ι) : (q : Question) → q.Answer → Machine ι → Prop
  | .checkWrite e n, allowed, m' => allowed = (m.quota e).checkWrite n ∧ m' = m
  | .recordWrite e n, _, m' => m' = m.record (some e) n
  | .on _ (.openFile _), some _, m' => m' = { m with position := 0, appending := false }
  | .on _ (.appendFile _), some _, m' => m' = { m with appending := true }
  | .on v (.seekEnd p), size, m' =>
    ∃ n : UInt64, size = some n ∧ n.toNat = (m.content (fileAt v p)).length ∧ m' = m.seek n.toNat
  | .on _ (.seekStart _ offset), some _, m' => m' = m.seek offset.toNat
  | .on v (.read p count), some data, m' =>
    data <+: (m.content (fileAt v p)).drop m.position ∧ data.length ≤ count ∧
      (data = [] → count = 0 ∨ (m.content (fileAt v p)).length ≤ m.position) ∧
      m' = { m with position := m.position + data.length }
  | .on v (.writeAll p data), done, m' =>
    ∃ written, written <+: data ∧ (done.isSome = true → written = data) ∧
      m' = m.append (fileAt v p) written
  | .on _ (.flush _), _, m' => m' = m
  | _, _, _ => True

variable {fileAt} {α : Type}

@[simp] lemma append_content (file : ι) (bytes : Bytes) :
    (m.append file bytes).content = Function.update m.content file (m.content file ++ bytes) := rfl

@[simp] lemma append_quota (file : ι) (bytes : Bytes) : (m.append file bytes).quota = m.quota := rfl

@[simp] lemma append_nil (file : ι) : m.append file [] = m := by
  simp [Machine.append]

/-- What is appended in two turns is appended. -/
lemma append_append (file : ι) (bytes bytes' : Bytes) :
    (m.append file bytes).append file bytes' = m.append file (bytes ++ bytes') := by
  simp [Machine.append]

/-- A program does as it should on the machine, unless it panics. -/
abbrev Does (fileAt : Option UInt8 → VfsPath → ι) (p : Op α) (m : Machine ι)
    (post : α → Machine ι → Prop) : Prop :=
  p.Sat (step fileAt) (fun _ _ => True) True m post

/-- The rule for one call. -/
lemma ask_does {vfs : Option UInt8} {call : Call} {post : call.Answer → Machine ι → Prop}
    (h : ∀ a m', step fileAt m (.on vfs call) a m' → post a m') :
    Does fileAt (ask vfs call) m post := ⟨trivial, h⟩

lemma quotaAllows_does {req : Request} {n : UInt64} {post : Bool → Machine ι → Prop}
    (h : ∀ allowed, post allowed m) : Does fileAt (quotaAllows req n) m post := by
  unfold quotaAllows
  cases req.quotaManager with
  | none => exact h true
  | some e =>
    refine ⟨trivial, ?_⟩
    rintro allowed _ ⟨-, rfl⟩
    exact h allowed

lemma recordWrite_does {req : Request} {n : UInt64} {post : Unit → Machine ι → Prop}
    (h : post () (m.record req.quotaManager n)) : Does fileAt (recordWrite req n) m post := by
  unfold recordWrite
  cases hquota : req.quotaManager with
  | none =>
    rw [hquota] at h
    exact h
  | some e =>
    rw [hquota] at h
    refine ⟨trivial, ?_⟩
    rintro ⟨⟩ _ rfl
    exact h

/-! ### ALLOCATE -/

/-- What an ALLOCATE should do to a file: it is as long as before or as the range needs it to be,
with its old bytes and zeros after them; no other file is changed; and the quota manager counts the
bytes by which it has grown. -/
structure Allocates (file : ι) (quota : Option UInt8) (args : Allocate4args) (m m' : Machine ι) :
    Prop where
  size : (m'.content file).length =
    max (m.content file).length (args.aaOffset.toNat + args.aaLength.toNat)
  old : m.content file <+: m'.content file
  zeros : ∀ b ∈ (m'.content file).drop (m.content file).length, b = 0
  others : ∀ other, other ≠ file → m'.content other = m.content other
  charged : ∀ e, quota = some e → (m'.quota e).bytesUsed.toNat =
    (m.quota e).bytesUsed.toNat + ((m'.content file).length - (m.content file).length)

/-- The end of the range is a number of 64 bits, and so is what the quota manager counts then. -/
structure Fits (file : ι) (quota : Option UInt8) (args : Allocate4args) (m : Machine ι) : Prop where
  range : args.aaOffset.toNat + args.aaLength.toNat < 2 ^ 64
  counter : ∀ e, quota = some e → (m.quota e).bytesUsed.toNat +
    (args.aaOffset.toNat + args.aaLength.toNat - (m.content file).length) < 2 ^ 64

/-- A file is filled up with zeros, which are recorded. -/
structure Pads (file : ι) (quota : Option UInt8) (n : ℕ) (m m' : Machine ι) : Prop where
  content : m'.content =
    Function.update m.content file (m.content file ++ List.replicate n 0)
  quota : m'.quota = (m.record quota (UInt64.ofNat n)).quota

/-- A file is not filled up. -/
lemma Pads.refl (file : ι) (quota : Option UInt8) (m : Machine ι) : Pads file quota 0 m m := by
  constructor
  · simp
  · show m.quota = (m.record quota 0).quota
    rw [record_zero]

/-- The chunks of zeros, one after another. -/
lemma writeZeros_does {fh : Handle} (chunks : List ℕ) {post : Option Unit → Machine ι → Prop}
    (hnone : ∀ m', post none m')
    (hsome : post (some ()) (m.append (fileAt fh.vfs fh.file) (List.replicate chunks.sum 0))) :
    Does fileAt (writeZeros fh chunks) m post := by
  induction chunks generalizing m with
  | nil =>
    rw [List.sum_nil, List.replicate_zero, append_nil] at hsome
    exact hsome
  | cons k rest ih =>
    refine .bind (ask_does ?_)
    rintro done _ ⟨written, -, hwritten, rfl⟩
    cases done with
    | none => exact hnone _
    | some _ =>
      rw [hwritten rfl]
      apply ih
      rwa [append_append, List.replicate_append_replicate, ← List.sum_cons]

/-- ALLOCATE once it knows how much is missing. -/
lemma pad_does {req : Request} {fh : Handle} {n : ℕ} {k : UInt64}
    (hk : k = UInt64.ofNat n) {post : Response → Machine ι → Prop}
    (hfail : ∀ resp m', resp.status ≠ .nfs4Ok → post resp m')
    (hok : ∀ resp m', Pads (fileAt fh.vfs fh.file) req.quotaManager n m m' → post resp m') :
    Does fileAt (do
      let done ← writeZeros fh (zeroChunks n)
      match done with
      | none => pure (Response.some req (.opallocate ⟨.nfs4errIo⟩) .nfs4errIo)
      | some _ =>
        recordWrite req k
        pure (Response.some req (.opallocate ⟨.nfs4Ok⟩) .nfs4Ok)) m post := by
  refine .bind (writeZeros_does _ (fun m' => hfail _ _ nofun) ?_)
  refine .bind (recordWrite_does (hok _ _ ⟨?_, ?_⟩))
  · rw [record_content, append_content, sum_zeroChunks]
  · rw [hk]
    cases req.quotaManager with
    | none => rfl
    | some e => rfl

/-- ALLOCATE up to where it knows the size of the file. It is the same in every build. -/
def allocateFrom (grow : Handle → UInt64 → Op Response) (args : Allocate4args) (req : Request) :
    Op Response :=
  let answer := fun (status : NfsStat4) => Response.some req (.opallocate ⟨status⟩) status
  match req.filehandle with
  | none => .pure (answer .nfs4errFhexpired)
  | some fh => do
    let allowed ← quotaAllows req args.aaLength
    if allowed = false then pure (answer .nfs4errDquot)
    else
      let opened : Option Unit ← ask fh.vfs (.appendFile fh.file)
      match opened with
      | none => pure (answer .nfs4errIo)
      | some _ =>
        let size : Option UInt64 ← ask fh.vfs (.seekEnd fh.file)
        match size with
        | none => pure (answer .nfs4errIo)
        | some size => grow fh size

/-- A property of an answer with NFS4_OK holds of any other answer. -/
lemma of_failure {status : NfsStat4} {P : Prop} (hne : status ≠ .nfs4Ok) (h : status = .nfs4Ok) :
    P := absurd h hne

lemma allocateFrom_does {grow : Handle → UInt64 → Op Response} {args : Allocate4args}
    {req : Request} {P : Handle → Machine ι → Prop}
    (hgrow : ∀ fh size, size.toNat = (m.content (fileAt fh.vfs fh.file)).length →
      Does fileAt (grow fh size) { m with appending := true } fun resp m' =>
        resp.status = .nfs4Ok → P fh m') :
    Does fileAt (allocateFrom grow args req) m fun resp m' =>
      resp.status = .nfs4Ok → ∃ fh, req.filehandle = some fh ∧ P fh m' := by
  unfold allocateFrom
  dsimp only
  cases hfh : req.filehandle with
  | none => exact of_failure nofun
  | some fh =>
    refine .bind (quotaAllows_does fun allowed => ?_)
    split_ifs
    · exact of_failure nofun
    · refine .bind (ask_does fun opened m₁ hopened => ?_)
      cases opened with
      | none => exact of_failure nofun
      | some _ =>
        obtain rfl : m₁ = { m with appending := true } := hopened
        refine .bind (ask_does ?_)
        rintro _ _ ⟨size, rfl, hsize, rfl⟩
        exact (hgrow fh size hsize).mono fun resp m' h hok => ⟨fh, rfl, h hok⟩

/-- The result of an ALLOCATE that succeeds: the file is filled up to the end of the range as it is
computed, which without overflow checks may be another than the range has. -/
lemma allocate_does (checks : Bool) {args : Allocate4args} {req : Request} :
    Does fileAt ((DataOp.allocate args).execute checks req) m fun resp m' =>
      resp.status = .nfs4Ok → ∃ fh, req.filehandle = some fh ∧
        (m.content (fileAt fh.vfs fh.file)).length < 2 ^ 64 ∧
        (checks = true → args.aaOffset.toNat + args.aaLength.toNat < 2 ^ 64) ∧
        Pads (fileAt fh.vfs fh.file) req.quotaManager
          (allocEnd checks args - (m.content (fileAt fh.vfs fh.file)).length) m m' := by
  have hpads : ∀ {file : ι} {n : ℕ} {m' : Machine ι},
      Pads file req.quotaManager n { m with appending := true } m' →
        Pads file req.quotaManager n m m' := by
    rintro file n m' ⟨hcontent, hquota⟩
    refine ⟨hcontent, hquota.trans ?_⟩
    cases req.quotaManager <;> rfl
  cases checks with
  | true =>
    refine allocateFrom_does fun fh size hsize => ?_
    have hlt : (m.content (fileAt fh.vfs fh.file)).length < 2 ^ 64 := hsize ▸ size.toNat_lt
    have hend : allocEnd true args = args.aaOffset.toNat + args.aaLength.toNat := rfl
    dsimp only
    split_ifs with hover hgrow
    · trivial
    · refine pad_does rfl (fun _ _ => of_failure) fun resp m' hpad _ => ⟨hlt, fun _ => by omega, ?_⟩
      rw [hend, ← hsize]
      exact hpads hpad
    · refine fun _ => ⟨hlt, fun _ => by omega, ?_⟩
      rw [hend, ← hsize, Nat.sub_eq_zero_of_le (not_lt.1 hgrow)]
      exact hpads (.refl _ _ _)
  | false =>
    refine allocateFrom_does fun fh size hsize => ?_
    have hlt : (m.content (fileAt fh.vfs fh.file)).length < 2 ^ 64 := hsize ▸ size.toNat_lt
    have hend : allocEnd false args = (args.aaOffset + args.aaLength).toNat := rfl
    dsimp only
    split_ifs with hgrow
    · have hsub : (args.aaOffset + args.aaLength - size).toNat =
          allocEnd false args - (m.content (fileAt fh.vfs fh.file)).length := by
        rw [UInt64.toNat_sub_of_le _ _ (UInt64.le_of_lt hgrow), hend, hsize]
      refine pad_does (UInt64.ofNat_toNat.symm) (fun _ _ => of_failure)
        fun resp m' hpad _ => ⟨hlt, nofun, ?_⟩
      rw [← hsub]
      exact hpads hpad
    · refine fun _ => ⟨hlt, nofun, ?_⟩
      rw [hend, ← hsize, Nat.sub_eq_zero_of_le (UInt64.le_iff_toNat_le.1 (UInt64.not_lt.1 hgrow))]
      exact hpads (.refl _ _ _)

/-- Filling up a file is what an ALLOCATE should do exactly if the range fits. -/
lemma allocates_iff {checks : Bool} {file : ι} {quota : Option UInt8} {args : Allocate4args}
    (hsize : (m.content file).length < 2 ^ 64)
    (hchecked : checks = true → args.aaOffset.toNat + args.aaLength.toNat < 2 ^ 64)
    (hpads : Pads file quota (allocEnd checks args - (m.content file).length) m m') :
    Allocates file quota args m m' ↔ Fits file quota args m := by
  obtain ⟨hcontent, hquota⟩ := hpads
  have hfile : m'.content file = m.content file ++
      List.replicate (allocEnd checks args - (m.content file).length) 0 := by
    rw [hcontent, Function.update_self]
  have hlen : (m'.content file).length = max (m.content file).length (allocEnd checks args) := by
    rw [hfile, List.length_append, List.length_replicate]
    omega
  have hend : allocEnd checks args < 2 ^ 64 := by
    cases checks with
    | true => exact hchecked rfl
    | false => exact UInt64.toNat_lt _
  constructor
  · intro h
    have hrange : args.aaOffset.toNat + args.aaLength.toNat < 2 ^ 64 := by
      -- No file is longer than what the end of the range was computed to be.
      have hsize' := h.size
      omega
    refine ⟨hrange, fun e he => ?_⟩
    have hcharged := h.charged e he
    have hlt := (m'.quota e).bytesUsed.toNat_lt
    have hgrown := h.size
    omega
  · rintro ⟨hrange, hcounter⟩
    have hexact : allocEnd checks args = args.aaOffset.toNat + args.aaLength.toNat := by
      cases checks with
      | true => rfl
      | false =>
        show (args.aaOffset + args.aaLength).toNat = _
        rw [UInt64.toNat_add, Nat.mod_eq_of_lt hrange]
    rw [hexact] at hquota hfile hlen
    refine ⟨hlen, ⟨_, hfile.symm⟩, fun b hb => ?_, fun other hother => ?_, fun e he => ?_⟩
    · rw [hfile, List.drop_left] at hb
      exact List.eq_of_mem_replicate hb
    · rw [hcontent, Function.update_of_ne hother]
    · subst he
      have hroom := hcounter e rfl
      have hused : m'.quota e = (m.quota e).recordWrite (UInt64.ofNat
          (args.aaOffset.toNat + args.aaLength.toNat - (m.content file).length)) := by
        rw [hquota]
        exact Function.update_self _ _ _
      have hgrown : (m'.content file).length - (m.content file).length =
          args.aaOffset.toNat + args.aaLength.toNat - (m.content file).length := by omega
      rw [hused, hgrown]
      show ((m.quota e).bytesUsed + UInt64.ofNat _).toNat = _
      have hlt : args.aaOffset.toNat + args.aaLength.toNat - (m.content file).length < 2 ^ 64 := by
        omega
      rw [UInt64.toNat_add, UInt64.toNat_ofNat', Nat.mod_eq_of_lt hlt, Nat.mod_eq_of_lt hroom]

/-- **What ALLOCATE does.** In a run of ALLOCATE that ends with NFS4_OK, with or without overflow
checks, the current file has got the size and the contents that it should have, and the quota has
been charged for its growth, exactly if the end of the range and the count of the quota manager are
numbers of 64 bits.

**Proof sketch.** Up to the size of the file the builds agree (`allocateFrom_does`). The loop then
writes the missing zeros, chunk by chunk (`writeZeros_does`), up to the end of the range as it was
computed. If the sum has wrapped, that is less than the range has, and no file is long enough to
make up for it (`allocates_iff`). -/
theorem allocates_iff_fits (checks : Bool) {fileAt : Option UInt8 → VfsPath → ι}
    {args : Allocate4args} {req : Request} {h : List (Σ q : Question, q.Answer)} {resp : Response}
    (hrun : Runs ((DataOp.allocate args).execute checks req) h (some resp))
    (hallow : Allows (step fileAt) m h m') (hok : resp.status = .nfs4Ok) :
    ∃ fh, req.filehandle = some fh ∧
      (Allocates (fileAt fh.vfs fh.file) req.quotaManager args m m' ↔
        Fits (fileAt fh.vfs fh.file) req.quotaManager args m) := by
  obtain ⟨fh, hfh, hsize, hchecked, hpads⟩ :=
    ((allocate_does checks).holds_of_runs hrun hallow).2.1 resp rfl hok
  exact ⟨fh, hfh, allocates_iff hsize hchecked hpads⟩

/-! ### COPY -/

/-- The bytes that a COPY should copy, from a source of a size. -/
def copyLength (args : Copy4args) (size : ℕ) : ℕ :=
  let available := size - args.caSrcOffset.toNat
  if args.caCount = 0 then available else min args.caCount.toNat available

/-- What a COPY should do: it copies what it was asked to as far as the source goes, to its place in
the destination, which is filled up with zeros to there; and it changes no other file. -/
structure Copies (src dst : ι) (args : Copy4args) (wrCount : UInt64) (m m' : Machine ι) : Prop where
  count : wrCount.toNat = copyLength args (m.content src).length
  content : m'.content dst = splice 0 (m.content dst) args.caDstOffset.toNat
    (((m.content src).drop args.caSrcOffset.toNat).take wrCount.toNat)
  others : ∀ other, other ≠ dst → m'.content other = m.content other

/-- There is nothing to copy, or its place is the end of the destination. -/
def AtEnd (src dst : ι) (args : Copy4args) (m : Machine ι) : Prop :=
  copyLength args (m.content src).length = 0 ∨ args.caDstOffset.toNat = (m.content dst).length

/-- A part of a file is appended to another, or to itself. -/
def Appends (src dst : ι) (offset count : ℕ) (m m' : Machine ι) : Prop :=
  m'.content = Function.update m.content dst
    (m.content dst ++ ((m.content src).drop offset).take count)

section Appends

variable {src dst : ι} {offset copied : ℕ}

/-- No file gets shorter. -/
lemma le_length_of_appends (h : Appends src dst offset copied m m') (file : ι) :
    (m.content file).length ≤ (m'.content file).length := by
  rw [h]
  by_cases hfile : file = dst
  · subst hfile
    rw [Function.update_self, List.length_append]
    omega
  · rw [Function.update_of_ne hfile]

/-- What is read then of what the source had before is what it had before. -/
lemma take_of_appends {n : ℕ} (h : Appends src dst offset copied m m')
    (hsize : offset + copied + n ≤ (m.content src).length) :
    ((m'.content src).drop (offset + copied)).take n =
      ((m.content src).drop (offset + copied)).take n := by
  rw [h]
  by_cases hsame : src = dst
  · subst hsame
    have hdrop : n ≤ ((m.content src).drop (offset + copied)).length := by
      rw [List.length_drop]
      omega
    rw [Function.update_self, List.drop_append_of_le_length (by omega),
      List.take_append_of_le_length hdrop]
  · rw [Function.update_of_ne hsame]

/-- The next chunk is appended. -/
lemma Appends.next {data : Bytes} {position : ℕ} (h : Appends src dst offset copied m m')
    (hdata : data <+: (m'.content src).drop (offset + copied))
    (hsize : offset + copied + data.length ≤ (m.content src).length) :
    Appends src dst offset (copied + data.length) m
      (Machine.append { m' with position := position } dst data) := by
  have htake : data = ((m.content src).drop (offset + copied)).take data.length := by
    rw [← take_of_appends h hsize]
    exact List.prefix_iff_eq_take.1 hdata
  have hchunk : ((m.content src).drop offset).take (copied + data.length) =
      ((m.content src).drop offset).take copied ++ data := by
    rw [List.take_add, List.drop_drop, ← htake]
  show Function.update m'.content dst (m'.content dst ++ data) = _
  rw [h, Function.update_self, Function.update_idem, hchunk, List.append_assoc]

end Appends

/-- The loop appends to the destination what it reads of the source. -/
lemma copyLoop_does {src dst : Handle} {count offset : ℕ} {m₀ : Machine ι}
    {post : Option ℕ → Machine ι → Prop} (hnone : ∀ m', post none m')
    (hsome : ∀ m', Appends (fileAt src.vfs src.file) (fileAt dst.vfs dst.file) offset count m₀ m' →
      post (some count) m')
    (hsize : offset + count ≤ (m₀.content (fileAt src.vfs src.file)).length) (copied : ℕ)
    (hcopied : copied ≤ count) (hposition : m.position = offset + copied)
    (happends : Appends (fileAt src.vfs src.file) (fileAt dst.vfs dst.file) offset copied m₀ m) :
    Does fileAt (copyLoop src dst count copied) m post := by
  induction copied using copyLoop.induct count generalizing m with
  | case1 copied hlt ih =>
    rw [copyLoop, if_pos hlt]
    refine .bind (ask_does ?_)
    rintro data m₁ hread
    cases data with
    | none => exact hnone _
    | some data =>
      obtain ⟨hdata, hcount, heof, rfl⟩ := hread
      rw [hposition] at hdata heof
      dsimp only
      split_ifs with hempty
      · -- The source does not end before the last of the bytes that are to be copied.
        have hlonger := le_length_of_appends happends (fileAt src.vfs src.file)
        have hend := heof hempty
        omega
      · refine .bind (ask_does ?_)
        rintro done _ ⟨written, -, hwritten, rfl⟩
        cases done with
        | none => exact hnone _
        | some _ =>
          rw [hwritten rfl]
          refine ih data hempty (by omega) ?_ (happends.next hdata (by omega))
          show m.position + data.length = _
          omega
  | case2 copied hge =>
    rw [copyLoop, if_neg hge]
    obtain rfl : copied = count := by omega
    exact hsome _ happends

/-- COPY once there is something to copy. -/
lemma copyBytes_does {args : Copy4args} {src dst : Handle} {count : ℕ} {req : Request}
    (hreads : m.appending = false)
    (hsize : args.caSrcOffset.toNat + count ≤ (m.content (fileAt src.vfs src.file)).length) :
    Does fileAt (copyBytes args src dst count req) m fun resp m' =>
      resp.status = .nfs4Ok → resp.result = some (copyResok count) ∧
        Appends (fileAt src.vfs src.file) (fileAt dst.vfs dst.file) args.caSrcOffset.toNat count
          m m' := by
  unfold copyBytes
  refine .bind (ask_does fun sought m₁ hsought => ?_)
  cases sought with
  | none => exact of_failure nofun
  | some _ =>
    obtain rfl : m₁ = m.seek args.caSrcOffset.toNat := hsought
    refine .bind (ask_does fun opened m₁ hopened => ?_)
    cases opened with
    | none => exact of_failure nofun
    | some _ =>
      obtain rfl : m₁ = { m.seek args.caSrcOffset.toNat with appending := true } := hopened
      refine .bind (ask_does fun sought m₁ hsought => ?_)
      cases sought with
      | none => exact of_failure nofun
      | some _ =>
        -- The destination is open for appending: this seek moves nothing.
        obtain rfl : m₁ = { m.seek args.caSrcOffset.toNat with appending := true } := hsought
        have hseek : m.seek args.caSrcOffset.toNat =
            { m with position := args.caSrcOffset.toNat } := by simp [Machine.seek, hreads]
        rw [hseek]
        have hstart : Appends (fileAt src.vfs src.file) (fileAt dst.vfs dst.file)
            args.caSrcOffset.toNat 0 m
            { m with position := args.caSrcOffset.toNat, appending := true } := by simp [Appends]
        refine .bind (copyLoop_does (fun _ => (nofun : NfsStat4.nfs4errIo = .nfs4Ok → _))
          (fun m₁ happends => ?_) hsize 0 (Nat.zero_le _) rfl hstart)
        refine .bind (ask_does fun flushed m₂ hflushed => ?_)
        obtain rfl : m₂ = m₁ := hflushed
        cases flushed with
        | none => exact of_failure nofun
        | some _ =>
          refine .bind (recordWrite_does fun _ => ⟨rfl, ?_⟩)
          rw [Appends, record_content]
          exact happends

/-- The count of COPY. -/
lemma copyCount_eq (args : Copy4args) (size : UInt64) :
    copyCount args size = copyLength args size.toNat := by
  have havailable : (saturatingSub size args.caSrcOffset).toNat =
      size.toNat - args.caSrcOffset.toNat := by
    unfold saturatingSub
    split_ifs with hle
    · exact UInt64.toNat_sub_of_le _ _ hle
    · have hlt := UInt64.lt_iff_toNat_lt.1 (UInt64.not_le.1 hle)
      rw [UInt64.toNat_zero]
      omega
  rw [copyCount, copyLength, havailable]

lemma copyLength_le (args : Copy4args) (size : ℕ) :
    copyLength args size ≤ size - args.caSrcOffset.toNat := by
  unfold copyLength
  dsimp only
  split_ifs
  · exact le_rfl
  · exact Nat.min_le_right _ _

/-- The result of a COPY that succeeds: what it should copy is appended to the destination. -/
lemma copy_does {args : Copy4args} {req : Request} :
    Does fileAt (Dispatcher.copy args req) m fun resp m' =>
      resp.status = .nfs4Ok → ∃ dst src,
        req.filehandle = some dst ∧ req.savedFilehandle = some src ∧
        (m.content (fileAt src.vfs src.file)).length < 2 ^ 64 ∧
        resp.result =
          some (copyResok (copyLength args (m.content (fileAt src.vfs src.file)).length)) ∧
        Appends (fileAt src.vfs src.file) (fileAt dst.vfs dst.file) args.caSrcOffset.toNat
          (copyLength args (m.content (fileAt src.vfs src.file)).length) m m' := by
  unfold Dispatcher.copy
  cases hdst : req.filehandle with
  | none => exact of_failure nofun
  | some dst =>
    cases hsrc : req.savedFilehandle with
    | none => exact of_failure nofun
    | some src =>
      refine .bind (quotaAllows_does fun allowed => ?_)
      split
      · exact of_failure nofun
      · refine .bind (ask_does fun opened m₁ hopened => ?_)
        cases opened with
        | none => exact of_failure nofun
        | some _ =>
          obtain rfl : m₁ = { m with position := 0, appending := false } := hopened
          refine .bind (.bind (ask_does ?_))
          rintro _ _ ⟨size, rfl, hsize, rfl⟩
          have hlt : (m.content (fileAt src.vfs src.file)).length < 2 ^ 64 := hsize ▸ size.toNat_lt
          have hcount : copyCount args size =
              copyLength args (m.content (fileAt src.vfs src.file)).length := by
            rw [copyCount_eq, hsize]
          have hle := copyLength_le args (m.content (fileAt src.vfs src.file)).length
          show Does fileAt
            (if copyCount args size = 0 then pure (.some req (copyResok 0) .nfs4Ok)
            else copyBytes args src dst (copyCount args size) req) _ _
          rw [hcount]
          split_ifs with hzero
          · refine fun _ => ⟨dst, src, rfl, rfl, hlt, ?_, ?_⟩
            · rw [hzero]
              rfl
            · rw [hzero]
              simp [Appends, Machine.seek]
          · refine (copyBytes_does rfl ?_).mono fun resp m' hcopied hok => ?_
            · show args.caSrcOffset.toNat + _ ≤ (m.content (fileAt src.vfs src.file)).length
              omega
            · obtain ⟨hresult, happends⟩ := hcopied hok
              exact ⟨dst, src, rfl, rfl, hlt, hresult, happends⟩

/-- Bytes at the end of a file are written there. -/
lemma splice_length {c bs : Bytes} : splice 0 c c.length bs = c ++ bs := by
  by_cases hbs : bs = []
  · rw [hbs, splice_nil, List.append_nil]
  · rw [splice_of_ne_nil hbs, List.takeD_eq_take _ le_rfl, List.take_length,
      List.drop_eq_nil_of_le (by omega), List.append_nil]

/-- A file that gets longer by what is written to it has it at its end. -/
lemma eq_length_of_splice {c bs : Bytes} {position : ℕ} (hbs : bs ≠ [])
    (h : c ++ bs = splice 0 c position bs) : position = c.length := by
  have hpos := List.length_pos_iff.2 hbs
  have hlen := congrArg List.length h
  rw [splice_of_ne_nil hbs] at hlen
  simp only [List.length_append, List.takeD_length, List.length_drop] at hlen
  omega

/-- Appending is what a COPY should do exactly at the end. -/
lemma copies_iff {src dst : ι} {args : Copy4args} (hsize : (m.content src).length < 2 ^ 64)
    (happends : Appends src dst args.caSrcOffset.toNat (copyLength args (m.content src).length)
      m m') :
    Copies src dst args (UInt64.ofNat (copyLength args (m.content src).length)) m m' ↔
      AtEnd src dst args m := by
  have hle := copyLength_le args (m.content src).length
  have hcount : (UInt64.ofNat (copyLength args (m.content src).length)).toNat =
      copyLength args (m.content src).length := by
    rw [UInt64.toNat_ofNat', Nat.mod_eq_of_lt (by omega)]
  have hdst : m'.content dst = m.content dst ++ ((m.content src).drop args.caSrcOffset.toNat).take
      (copyLength args (m.content src).length) := by
    rw [happends, Function.update_self]
  constructor
  · intro h
    have hcontent := h.content
    rw [hcount, hdst] at hcontent
    by_cases hzero : copyLength args (m.content src).length = 0
    · exact Or.inl hzero
    · refine Or.inr (eq_length_of_splice ?_ hcontent)
      apply List.ne_nil_of_length_pos
      rw [List.length_take, List.length_drop]
      omega
  · intro hend
    refine ⟨hcount, ?_, fun other hother => ?_⟩
    · rw [hcount, hdst]
      rcases hend with hzero | hplace
      · rw [hzero, List.take_zero, splice_nil, List.append_nil]
      · rw [hplace, splice_length]
    · rw [happends, Function.update_of_ne hother]

/-- **What COPY does.** In a run of COPY that ends with NFS4_OK, the count that is answered and the
contents of the files are what they should be exactly if nothing is copied or the place in the
destination is its end.

**Proof sketch.** The count is cut off at the end of the source (`copyCount_eq`), so that the loop
never reads what it has written, not even in one file (`take_of_appends`). The destination is open
for appending, and the seek to the place in it moves nothing (`copyBytes_does`): what is read is put
at its end, chunk by chunk (`copyLoop_does`). A file that has got longer by all that was written
to it has it at its end (`eq_length_of_splice`). -/
theorem copies_iff_atEnd {fileAt : Option UInt8 → VfsPath → ι} {args : Copy4args} {req : Request}
    {h : List (Σ q : Question, q.Answer)} {resp : Response}
    (hrun : Runs (Dispatcher.copy args req) h (some resp)) (hallow : Allows (step fileAt) m h m')
    (hok : resp.status = .nfs4Ok) :
    ∃ dst src resok, req.filehandle = some dst ∧ req.savedFilehandle = some src ∧
      resp.result = some (.opcopy (.resok4 resok)) ∧
      (Copies (fileAt src.vfs src.file) (fileAt dst.vfs dst.file) args resok.crResponse.wrCount
        m m' ↔ AtEnd (fileAt src.vfs src.file) (fileAt dst.vfs dst.file) args m) := by
  obtain ⟨dst, src, hdst, hsrc, hsize, hresult, happends⟩ :=
    (copy_does.holds_of_runs hrun hallow).2.1 resp rfl hok
  exact ⟨dst, src, _, hdst, hsrc, hresult, copies_iff hsize happends⟩

end Step

/-! #### Samples -/

/-- A request on the file of an export with a quota. -/
def sampleRequest : Request :=
  { Request.new "10.0.0.1" (some 1) 0 [] .sys with
    filehandle := some (fileHandle 1)
    savedFilehandle := some (fileHandle 1)
    quotaManager := some 1 }

/-- A machine with one file, to which every path leads. The quotas have no limit. -/
def sampleMachine (content : Bytes) : Machine Unit where
  content _ := content
  position := 0
  appending := false
  quota _ := ⟨0, 3⟩

/-- The arguments of an ALLOCATE. -/
def sampleAllocate (offset length : UInt64) : Allocate4args :=
  ⟨⟨0, List.Vector.replicate 12 0⟩, offset, length⟩

/-- **What ALLOCATE does** to a file of three bytes that is to have five. -/
theorem allocates_iff_fits_five :
    ∃ m', m'.content () = [97, 98, 99, 0, 0] ∧
      Allocates () (some 1) (sampleAllocate 1 4) (sampleMachine [97, 98, 99]) m' := by
  let p : VfsPath := (fileHandle 1).file
  let h : List (Σ q : Question, q.Answer) := [⟨.checkWrite 1 4, true⟩,
    ⟨.on (some 1) (.appendFile p), some ()⟩, ⟨.on (some 1) (.seekEnd p), some 3⟩,
    ⟨.on (some 1) (.writeAll p [0, 0]), some ()⟩, ⟨.recordWrite 1 2, ()⟩]
  have hrun : Runs ((DataOp.allocate (sampleAllocate 1 4)).execute true sampleRequest) h
      (some (.some sampleRequest (.opallocate ⟨.nfs4Ok⟩) .nfs4Ok)) :=
    .ask (.ask (.ask (.ask (.ask (.pure _)))))
  have hallow : ∃ m', m'.content () = [97, 98, 99, 0, 0] ∧
      Allows (step fun _ _ => ()) (sampleMachine [97, 98, 99]) h m' :=
    ⟨_, rfl, .cons ⟨rfl, rfl⟩ (.cons rfl (.cons ⟨3, rfl, rfl, rfl⟩
      (.cons ⟨[0, 0], List.prefix_rfl, fun _ => rfl, rfl⟩ (.cons rfl (.nil _)))))⟩
  obtain ⟨m', hcontent, hallow⟩ := hallow
  obtain ⟨fh, -, hiff⟩ := allocates_iff_fits true hrun hallow rfl
  refine ⟨m', hcontent, hiff.2 ⟨by decide, ?_⟩⟩
  rintro _ ⟨⟩
  decide

/-- **An ALLOCATE that succeeds without doing anything.** Two bytes from the last offset there is on
are allocated in a file of three bytes, which stays as it is: the end of the range wraps. -/
theorem allocate_wraps :
    ∃ (h : List (Σ q : Question, q.Answer)) (resp : Response) (m' : Machine Unit),
      Runs ((DataOp.allocate (sampleAllocate 0xffffffffffffffff 2)).execute false sampleRequest) h
        (some resp) ∧
      Allows (step fun _ _ => ()) (sampleMachine [97, 98, 99]) h m' ∧ resp.status = .nfs4Ok ∧
      m'.content () = [97, 98, 99] ∧
      ¬ Allocates () (some 1) (sampleAllocate 0xffffffffffffffff 2) (sampleMachine [97, 98, 99])
        m' := by
  let p : VfsPath := (fileHandle 1).file
  refine ⟨[⟨.checkWrite 1 2, true⟩, ⟨.on (some 1) (.appendFile p), some ()⟩,
    ⟨.on (some 1) (.seekEnd p), some 3⟩], .some sampleRequest (.opallocate ⟨.nfs4Ok⟩) .nfs4Ok, _,
    .ask (.ask (.ask (.pure _))),
    .cons ⟨rfl, rfl⟩ (.cons rfl (.cons ⟨3, rfl, rfl, rfl⟩ (.nil _))), rfl, rfl, fun hdoes => ?_⟩
  exact absurd hdoes.size (by decide)

/-- The arguments of a COPY of two bytes. -/
def sampleCopy (srcOffset dstOffset : UInt64) : Copy4args :=
  ⟨⟨0, List.Vector.replicate 12 0⟩, ⟨0, List.Vector.replicate 12 0⟩, srcOffset, dstOffset, 2, true,
    true, []⟩

/-- A COPY of the last two bytes of a file of three in one chunk, to the file itself. -/
def sampleCopied (dstOffset : UInt64) : List (Σ q : Question, q.Answer) :=
  let p : VfsPath := (fileHandle 1).file
  [⟨.checkWrite 1 2, true⟩, ⟨.on (some 1) (.openFile p), some ()⟩,
    ⟨.on (some 1) (.seekEnd p), some 3⟩, ⟨.on (some 1) (.seekStart p 1), some ()⟩,
    ⟨.on (some 1) (.appendFile p), some ()⟩, ⟨.on (some 1) (.seekStart p dstOffset), some ()⟩,
    ⟨.on (some 1) (.read p 2), some [98, 99]⟩, ⟨.on (some 1) (.writeAll p [98, 99]), some ()⟩,
    ⟨.on (some 1) (.flush p), some ()⟩, ⟨.recordWrite 1 2, ()⟩]

/-- Wherever they are to be copied, the two bytes are put at the end. -/
lemma exists_copied (dstOffset : UInt64) :
    Runs (Dispatcher.copy (sampleCopy 1 dstOffset) sampleRequest) (sampleCopied dstOffset)
      (some (.some sampleRequest (copyResok 2) .nfs4Ok)) ∧
    ∃ m', m'.content () = [97, 98, 99, 98, 99] ∧
      Allows (step fun _ _ => ()) (sampleMachine [97, 98, 99]) (sampleCopied dstOffset) m' := by
  have hread : ([98, 99] : Bytes) <+: [98, 99] := List.prefix_rfl
  constructor
  · have hcount : copyCount (sampleCopy 1 dstOffset) 3 = 2 := by
      rw [copyCount_eq]
      rfl
    refine .ask (.ask (.ask ?_))
    show Runs (if copyCount (sampleCopy 1 dstOffset) 3 = 0 then _ else
      copyBytes (sampleCopy 1 dstOffset) (fileHandle 1) (fileHandle 1)
        (copyCount (sampleCopy 1 dstOffset) 3) sampleRequest) _ _
    rw [hcount]
    refine .ask (.ask (.ask ?_))
    rw [copyLoop, if_pos (by decide)]
    refine .ask (.ask ?_)
    rw [copyLoop, if_neg (by decide)]
    exact .ask (.ask (.pure _))
  · exact ⟨_, rfl, .cons ⟨rfl, rfl⟩ (.cons rfl (.cons ⟨3, rfl, rfl, rfl⟩ (.cons rfl (.cons rfl
      (.cons rfl (.cons ⟨hread, le_rfl, by simp, rfl⟩ (.cons ⟨_, hread, fun _ => rfl, rfl⟩
        (.cons rfl (.cons rfl (.nil _))))))))))⟩

/-- **What COPY does** to the end of a file. -/
theorem copies_iff_atEnd_sample :
    ∃ m', m'.content () = [97, 98, 99, 98, 99] ∧
      Copies () () (sampleCopy 1 3) 2 (sampleMachine [97, 98, 99]) m' := by
  obtain ⟨hrun, m', hcontent, hallow⟩ := exists_copied 3
  obtain ⟨dst, src, resok, -, -, hresult, hiff⟩ := copies_iff_atEnd hrun hallow rfl
  cases hresult
  exact ⟨m', hcontent, hiff.2 (Or.inr rfl)⟩

/-- **A COPY that succeeds and puts the data elsewhere.** The last two bytes of a file of three are
to be copied over its first two; they are put after the third. -/
theorem copy_appends :
    ∃ (h : List (Σ q : Question, q.Answer)) (resp : Response) (m' : Machine Unit),
      Runs (Dispatcher.copy (sampleCopy 1 0) sampleRequest) h (some resp) ∧
      Allows (step fun _ _ => ()) (sampleMachine [97, 98, 99]) h m' ∧
      resp.status = .nfs4Ok ∧ resp.result = some (copyResok 2) ∧
      m'.content () = [97, 98, 99, 98, 99] ∧
      ¬ Copies () () (sampleCopy 1 0) 2 (sampleMachine [97, 98, 99]) m' := by
  obtain ⟨hrun, m', hcontent, hallow⟩ := exists_copied 0
  refine ⟨_, _, m', hrun, hallow, rfl, rfl, hcontent, fun hcopies => ?_⟩
  have hshould := hcopies.content
  rw [hcontent] at hshould
  exact absurd hshould (by decide)

end NextNfs.FileContents
