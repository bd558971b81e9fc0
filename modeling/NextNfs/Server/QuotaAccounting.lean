import NextNfs.Server.Quota
import NextNfs.Server.Ownership
import NextNfs.Server.ExportManager

set_option relaxedAutoImplicit false
set_option autoImplicit false

/-!
# Quota accounting

The quota manager of an export counts the bytes of its files: WRITE, COPY and ALLOCATE record what
they wrote, and nothing else is recorded (`record_free` is never called). This module is about
whether the count follows the total size of the files, if requests are executed one after another.

## Main definitions

* `NextNfs.FileSizes` — file systems whose files have sizes.
* `NextNfs.QuotaAccounting.SizeRequest`, `NextNfs.QuotaAccounting.serve` — the requests that change
  sizes, and one of them with what the file system does.
* `NextNfs.QuotaAccounting.Exact` — a call changes the total size by what its request counts for it.
* `NextNfs.QuotaAccounting.Act`, `NextNfs.QuotaAccounting.step` — requests and sweeps, one after
  another.

## Main results

* `NextNfs.QuotaAccounting.counts_execute` — a request records what it counted, or has counted
  nothing.
* `NextNfs.QuotaAccounting.accounted_of_exact` — the count follows the total size in every run whose
  calls are exact.

## Implementation notes

The programs are those of the dispatcher, and REMOVE and the sweep are those of the file manager.
What a failing write has transferred, which file a write cache has open, and the tables of the file
manager are chosen for each call; so are all answers that do not depend on sizes. A write cache has
written what it was sent before the next request begins.
-/

namespace NextNfs

open Wire Dialogue

/-! ### Sizes -/

/-- A file system whose files have sizes. An open file is given by its object. -/
class FileSizes (F : Type) [FileSystem F] where
  /-- The file that opening a path of the operating system leads to. -/
  fileAt : F → String → Option ObjectId
  /-- The length of a file. -/
  lengthOf : F → ObjectId → ℕ
  /-- The file has a name in the export. -/
  kept : F → ObjectId → Bool
  /-- The total size of the files that have a name in the export. -/
  total : F → ℕ
  /-- The state after a file got another length. -/
  setLength : F → ObjectId → ℕ → F
  /-- The bytes that are freed if the name is removed: those of the file, if it was its last name.
  -/
  freed : F → VfsPath → ℕ
  total_setLength : ∀ (fs : F) (o : ObjectId) (n : ℕ), kept fs o = true →
    total (setLength fs o n) + lengthOf fs o = total fs + n
  total_setLength_of_not_kept : ∀ (fs : F) (o : ObjectId) (n : ℕ), kept fs o = false →
    total (setLength fs o n) = total fs
  total_removeFile : ∀ (fs : F) (p : VfsPath),
    total ((removeFile fs p).getD fs) + freed fs p = total fs
  total_removeDir : ∀ {fs fs' : F} {p : VfsPath}, removeDir fs p = .ok fs' → total fs' = total fs

export FileSizes (fileAt lengthOf kept total setLength freed)

namespace QuotaAccounting

open Dispatcher Quota

section Sizes

variable {F : Type} [FileSystem F] [FileSizes F]

/-- The state after some bytes are written to a file: at an offset, or at its end. -/
def putBytes (fs : F) (file : Option ObjectId) (offset : Option UInt64) (n : ℕ) : F :=
  match file with
  | none => fs
  | some o =>
    if n = 0 then fs
    else
      match offset with
      | none => setLength fs o (lengthOf fs o + n)
      | some offset => setLength fs o (max (lengthOf fs o) (offset.toNat + n))

/-- The bytes by which the files of the export grow then: none within the file, and more than are
written beyond its end. -/
def growth (fs : F) (file : Option ObjectId) (offset : Option UInt64) (n : ℕ) : ℕ :=
  match file with
  | none => 0
  | some o =>
    if n = 0 ∨ kept fs o = false then 0
    else
      match offset with
      | none => n
      | some offset => offset.toNat + n - lengthOf fs o

lemma total_putBytes (fs : F) (file : Option ObjectId) (offset : Option UInt64) (n : ℕ) :
    total (putBytes fs file offset n) = total fs + growth fs file offset n := by
  unfold putBytes growth
  cases file with
  | none => rfl
  | some o =>
    dsimp only
    by_cases hn : n = 0
    · rw [if_pos hn, if_pos (Or.inl hn)]
      rfl
    · rw [if_neg hn]
      cases hkept : kept fs o with
      | false =>
        rw [if_pos (Or.inr rfl)]
        cases offset with
        | none => exact FileSizes.total_setLength_of_not_kept fs o _ hkept
        | some offset => exact FileSizes.total_setLength_of_not_kept fs o _ hkept
      | true =>
        rw [if_neg (by simp [hn])]
        cases offset with
        | none =>
          have hset := FileSizes.total_setLength fs o (lengthOf fs o + n) hkept
          show total (setLength fs o (lengthOf fs o + n)) = total fs + n
          omega
        | some offset =>
          have hset := FileSizes.total_setLength fs o (max (lengthOf fs o) (offset.toNat + n)) hkept
          show total (setLength fs o _) = total fs + (offset.toNat + n - lengthOf fs o)
          omega

end Sizes

/-! ### Calls -/

/-- What the environment chooses for a call: the answers that do not depend on sizes, the bytes that
a write transfers if it fails, the file that a write cache writes to and whether it holds it open,
and the tables of the file manager. -/
structure Luck (F : Type) extends Quota.Luck where
  written : ℕ
  cacheFile : Option ObjectId
  cacheOpened : Bool
  manager : FileManager F

/-- A call that writes to a file. -/
structure WriteCall where
  file : Option ObjectId
  offset : Option UInt64
  bytes : ℕ

section Calls

variable {F : Type} [FileSystem F] [FileSizes F]

/-- The bytes that a call transfers. -/
def Luck.transferred (luck : Luck F) (n : ℕ) (done : Bool) : ℕ :=
  if done then n else min luck.written n

/-- The calls that write data. Every file is opened for appending, but the calls of the standard
library that write at an offset. A write cache without an open file falls back to appending. -/
def writeCall (fs : F) (luck : Luck F) : (q : Question) → q.Answer → Option WriteCall
  | .on _ (.osAppend path data), done =>
    some ⟨fileAt fs (realPath (FileSystem.exportRoot F) path), none,
      luck.transferred data.length done.isSome⟩
  | .on _ (.osWriteAt path data offset), done =>
    some ⟨fileAt fs (realPath (FileSystem.exportRoot F) path), some offset,
      luck.transferred data.length done.isSome⟩
  | .on _ (.writeAll p data), done =>
    some ⟨fileAt fs (VfsPath.real F p), none, luck.transferred data.length done.isSome⟩
  | .on _ (.write p data), n =>
    some ⟨fileAt fs (VfsPath.real F p), none, luck.transferred (n.elim data.length UInt32.toNat) n.isSome⟩
  | .on _ (.writeBytes _ offset data), _ =>
    some ⟨luck.cacheFile, if luck.cacheOpened then some offset else none,
      luck.transferred data.length false⟩
  | _, _ => none

/-- The size in `set_attr`: as many bytes as the new size are read from the file, and appended to
it. Reading more than there are fails. -/
def resize (luck : Luck F) (path : String) (fs : F) (size : UInt64) : WriteCall :=
  match fileAt fs path with
  | none => ⟨none, none, 0⟩
  | some o => ⟨some o, none, if size.toNat ≤ lengthOf fs o then min luck.written size.toNat else 0⟩

/-- The sizes among the attributes of `set_attr`. -/
def setSizes (luck : Luck F) (path : String) (fs : F) : List FileAttrValue → F
  | [] => fs
  | .size size :: attrs =>
    let w := resize luck path fs size
    setSizes luck path (putBytes fs w.file w.offset w.bytes) attrs
  | _ :: attrs => setSizes luck path fs attrs

/-- The bytes by which the files of the export grow then. -/
def sizesGrowth (luck : Luck F) (path : String) (fs : F) : List FileAttrValue → ℕ
  | [] => 0
  | .size size :: attrs =>
    let w := resize luck path fs size
    growth fs w.file w.offset w.bytes +
      sizesGrowth luck path (putBytes fs w.file w.offset w.bytes) attrs
  | _ :: attrs => sizesGrowth luck path fs attrs

/-- The file system after a call. -/
def effect (fs : F) (luck : Luck F) (q : Question) (a : q.Answer) : F :=
  match writeCall fs luck q a, q with
  | some w, _ => putBytes fs w.file w.offset w.bytes
  | none, .on _ (.setAttr fh attrs) => setSizes luck (VfsPath.real F fh.file) fs attrs
  | none, .on _ (.removeFile p) => ({ luck.manager with fs := fs }.removeFile p).1.fs
  | none, _ => fs

/-- The bytes that a call adds to the files of the export. -/
def gain (fs : F) (luck : Luck F) (q : Question) (a : q.Answer) : ℕ :=
  match writeCall fs luck q a, q with
  | some w, _ => growth fs w.file w.offset w.bytes
  | none, .on _ (.setAttr fh attrs) => sizesGrowth luck (VfsPath.real F fh.file) fs attrs
  | none, _ => 0

end Calls

/-! ### Removals -/

section Removals

variable {F : Type} [FileSystem F] [FileSizes F]

/-- The move to the silly name keeps the total size, and if it fails so does the removal after it. A
move copies the file and removes its name. -/
def SparesSilly (fm : FileManager F) (p : VfsPath) (fh : Filehandle) : Prop :=
  match FileSystem.join F p.parent (FileManager.sillyName fh) with
  | none => freed fm.fs p = 0
  | some silly =>
    total (moveFile fm.fs p silly).1 = total fm.fs ∧
      ((moveFile fm.fs p silly).2 = false → freed (moveFile fm.fs p silly).1 p = 0)

/-- The message `RemoveFile` frees nothing: the path is that of a directory; or the file is open,
and is moved; or it is empty, has another name or cannot be removed. -/
def Spares (fm : FileManager F) (p : VfsPath) : Prop :=
  isDir fm.fs p = false →
    match (fm.getFilehandleByPath p.toStr).2.filter fun fh => fm.locks.hasLocks fh.id with
    | some fh => SparesSilly fm p fh
    | none => freed fm.fs p = 0

/-- A sweep frees nothing: the files that it removes are empty, have other names or cannot be
removed. -/
def SparesSwept : FileManager F → List NfsFh4 → Prop
  | _, [] => True
  | fm, id :: ids =>
    (∀ fh, fm.getById id = some fh → freed fm.fs fh.file = 0) ∧ SparesSwept (fm.sweepOne id) ids

/-- A file that is removed frees its bytes. -/
lemma total_of_removeFile {fs fs' : F} {p : VfsPath} (hremove : removeFile fs p = some fs')
    (hfreed : freed fs p = 0) : total fs' = total fs := by
  have hsum := FileSizes.total_removeFile fs p
  rw [hremove, hfreed] at hsum
  exact hsum

lemma total_unlinkFile {fs fs' : F} {p : VfsPath} (hunlink : FileManager.unlinkFile fs p = .ok fs')
    (hfreed : isDir fs p = false → freed fs p = 0) : total fs' = total fs := by
  unfold FileManager.unlinkFile at hunlink
  split_ifs at hunlink with hdir
  · split at hunlink
    case h_1 hremove =>
      cases hunlink
      exact FileSizes.total_removeDir hremove
    all_goals cases hunlink
  · split at hunlink
    case h_1 hremove =>
      cases hunlink
      exact total_of_removeFile hremove (hfreed (by simpa using hdir))
    case h_2 => cases hunlink

lemma total_sillyRename {fm : FileManager F} {p : VfsPath} {fh : Filehandle}
    (hspares : SparesSilly fm p fh) : total (fm.sillyRename p fh).1.fs = total fm.fs := by
  unfold SparesSilly at hspares
  unfold FileManager.sillyRename
  dsimp only
  split
  case h_1 hjoin =>
    rw [hjoin] at hspares
    split
    case h_1 hremove => exact total_of_removeFile hremove hspares
    case h_2 => rfl
  case h_2 silly hjoin =>
    rw [hjoin] at hspares
    obtain ⟨hmove, hfailed⟩ := hspares
    split
    case h_1 hmoved =>
      rw [hmoved] at hmove hfailed
      split
      case h_1 hremove => exact (total_of_removeFile hremove (hfailed rfl)).trans hmove
      case h_2 => exact hmove
    case h_2 hmoved =>
      rw [hmoved] at hmove
      exact hmove

lemma total_removeName {fm : FileManager F} {p : VfsPath} (hspares : Spares fm p) :
    total (fm.removeName p).1.fs = total fm.fs := by
  unfold Spares at hspares
  unfold FileManager.removeName
  have hsame := FileManager.sameWorld_getFilehandleByPath fm p.toStr
  generalize fm.getFilehandleByPath p.toStr = found at hsame hspares ⊢
  obtain ⟨fm₁, fh⟩ := found
  have hfs : fm₁.fs = fm.fs := hsame.fs
  have hlocks : fm₁.locks = fm.locks := hsame.locks
  dsimp only at hspares ⊢
  rw [← hlocks] at hspares
  split
  case h_1 fh hopen =>
    rw [hopen] at hspares
    split_ifs with hdir
    · split
      case h_1 hunlink =>
        exact (total_unlinkFile hunlink fun hfile => by simp [hdir] at hfile).trans
          (congrArg total hfs)
      case h_2 => exact congrArg total hfs
    · have hsilly : SparesSilly fm₁ p fh := by
        have h := hspares (by simpa [hfs] using hdir)
        unfold SparesSilly at h ⊢
        rw [hfs]
        exact h
      exact (total_sillyRename hsilly).trans (congrArg total hfs)
  case h_2 hclosed =>
    rw [hclosed] at hspares
    have hfreed : isDir fm₁.fs p = false → freed fm₁.fs p = 0 := by
      rw [hfs]
      exact hspares
    split
    case h_1 => exact congrArg total hfs
    case h_2 hunlink =>
      split
      · exact (total_unlinkFile hunlink hfreed).trans (congrArg total hfs)
      · rw [fs_forget]
        exact (total_unlinkFile hunlink hfreed).trans (congrArg total hfs)

/-- The message `RemoveFile` keeps the total size if it frees nothing. -/
lemma total_removeFile {fm : FileManager F} {p : VfsPath} (hspares : Spares fm p) :
    total (fm.removeFile p).1.fs = total fm.fs := by
  have hname := total_removeName hspares
  unfold FileManager.removeFile
  generalize fm.removeName p = res at hname ⊢
  rcases res with ⟨fm₁, e | silly⟩
  · exact hname
  · dsimp only at hname ⊢
    rw [(FileManager.sameWorld_touchPath _ _).fs]
    exact hname

lemma total_sweepOne {fm : FileManager F} {id : NfsFh4}
    (hspares : ∀ fh, fm.getById id = some fh → freed fm.fs fh.file = 0) :
    total (fm.sweepOne id).fs = total fm.fs := by
  unfold FileManager.sweepOne
  dsimp only
  split
  case h_1 => rfl
  case h_2 fh hfh =>
    have hsum := FileSizes.total_removeFile fm.fs fh.file
    rw [hspares fh hfh] at hsum
    exact (congrArg total (FileManager.sameWorld_dropCacheHandle _ id).fs).trans hsum

/-- A sweep keeps the total size if it frees nothing. -/
lemma total_sweepPendingDeletes {ids : List NfsFh4} {fm : FileManager F}
    (hspares : SparesSwept fm ids) : total (fm.sweepPendingDeletes ids).fs = total fm.fs := by
  induction ids generalizing fm with
  | nil => rfl
  | cons id ids ih => exact (ih hspares.2).trans (total_sweepOne hspares.1)

end Removals

/-! ### What a request counts -/

/-- The bytes that a request counts for a call: what it takes to be written. A write cache does not
answer. -/
def counted : (q : Question) → q.Answer → ℕ
  | .on _ (.osAppend _ data), some _ | .on _ (.osWriteAt _ data _), some _
  | .on _ (.writeAll _ data), some _ | .on _ (.writeBytes _ _ data), _ => data.length
  | .on _ (.write _ _), some n => n.toNat
  | _, _ => 0

/-- The bytes counted and not recorded after a call. -/
def added (n : ℕ) : (q : Question) → q.Answer → ℕ
  | .recordWrite _ _, _ => 0
  | q, a => n + counted q a

/-- A call that ends a request that may have written before. -/
def Fails : (q : Question) → q.Answer → Prop
  | .on _ (.osAppend ..), none | .on _ (.osWriteAt ..), none | .on _ (.writeAll ..), none
  | .on _ (.write ..), none | .on _ (.read ..), none | .on _ (.flush _), none => True
  | _, _ => False

/-- The calls that change the sizes of files. -/
def resizes : Call → Bool
  | .osAppend .. | .osWriteAt .. | .writeAll .. | .write .. | .writeBytes .. | .setAttr ..
  | .removeFile _ => true
  | _ => false

/-- A request changes sizes on its export only, asks for room before it writes, and records what it
has counted. -/
def Notes (e : UInt8) (n : ℕ) : Question → Prop
  | .checkWrite e' _ => e' = e ∧ n = 0
  | .recordWrite e' bytes => e' = e ∧ bytes.toNat = n
  | .on vfs call => resizes call = true → vfs = some e
  | _ => True

/-- A call transfers what it should, and fails only if nothing was counted. -/
def Adds (n : ℕ) (q : Question) (a : q.Answer) (n' : ℕ) : Prop :=
  Transfers q a ∧ (Fails q a → n = 0) ∧ n' = added n q a

/-- A program records what it counts, and ends as it should. -/
abbrev Counts {α : Type} (e : UInt8) (p : Op α) (n : ℕ) (post : Option α → ℕ → Prop) : Prop :=
  p.Ends Adds (Notes e) n post

/-! #### Rules -/

section Counts

variable {e : UInt8} {n : ℕ} {α β : Type}

/-- The calls that a request counts nothing for. -/
lemma ask_counts {vfs : Option UInt8} {call : Call} {post : Option call.Answer → ℕ → Prop}
    (hvfs : resizes call = true → vfs = some e)
    (hpost : ∀ a, Transfers (.on vfs call) a → (Fails (.on vfs call) a → n = 0) →
      post (some a) (n + counted (.on vfs call) a)) :
    Counts e (ask vfs call) n post := by
  refine ⟨hvfs, ?_⟩
  rintro a _ ⟨htransfers, hclean, rfl⟩
  exact hpost a htransfers hclean

lemma askManager_counts {req : Request} (hmanager : req.cachedFmanager = some e) {call : Call}
    {post : Option call.Answer → ℕ → Prop}
    (hpost : ∀ a, Transfers (.on (some e) call) a → (Fails (.on (some e) call) a → n = 0) →
      post (some a) (n + counted (.on (some e) call) a)) :
    Counts e (req.askManager call) n post := by
  unfold Request.askManager Request.fileManager
  rw [hmanager]
  exact ask_counts (fun _ => rfl) hpost

lemma quotaAllows_counts {req : Request} (hquota : req.quotaManager = some e) {bytes : UInt64}
    {post : Option Bool → ℕ → Prop} (hpost : ∀ allowed, post (some allowed) 0) :
    Counts e (quotaAllows req bytes) 0 post := by
  unfold quotaAllows
  rw [hquota]
  refine ⟨⟨rfl, rfl⟩, ?_⟩
  rintro allowed _ ⟨-, -, rfl⟩
  exact hpost allowed

lemma recordWrite_counts {req : Request} (hquota : req.quotaManager = some e) {bytes : UInt64}
    (hbytes : bytes.toNat = n) {post : Option Unit → ℕ → Prop} (hpost : post (some ()) 0) :
    Counts e (Dispatcher.recordWrite req bytes) n post := by
  unfold Dispatcher.recordWrite
  rw [hquota]
  refine ⟨⟨rfl, hbytes⟩, ?_⟩
  rintro _ _ ⟨-, -, rfl⟩
  exact hpost

/-! #### WRITE -/

/-- Whatever a request ends with, it has counted nothing that it did not record. -/
def Settled {α : Type} : Option α → ℕ → Prop := fun _ n => n = 0

lemma writeThrough_counts {args : Write4args} {fh : Handle} {req : Request}
    (hmanager : req.cachedFmanager = some e) (hfh : fh.vfs = some e)
    (hshort : args.data.length < 2 ^ 32) {post : Option (Option UInt32) → ℕ → Prop}
    (hnone : post (some none) 0) (hsome : ∀ c : UInt32, post (some (some c)) c.toNat) :
    Counts e (writeThrough args fh req) 0 post := by
  have hlength : (UInt32.ofNat args.data.length).toNat = args.data.length := by
    rw [UInt32.toNat_ofNat']
    exact Nat.mod_eq_of_lt hshort
  have hdone : post (some (some (UInt32.ofNat args.data.length))) args.data.length := by
    have h := hsome (UInt32.ofNat args.data.length)
    rwa [hlength] at h
  unfold writeThrough
  refine .bind (askManager_counts hmanager fun there _ _ => ?_)
  dsimp only [Option.elim]
  split_ifs
  · refine .bind (askManager_counts hmanager fun len _ _ => ?_)
    dsimp only [Option.elim]
    split_ifs
    · refine .bind (askManager_counts hmanager fun done _ _ => ?_)
      cases done with
      | none => exact hnone
      | some _ =>
        show post _ (0 + args.data.length)
        rw [Nat.zero_add]
        exact hdone
    · refine .bind (askManager_counts hmanager fun done _ _ => ?_)
      cases done with
      | none => exact hnone
      | some _ =>
        show post _ (0 + args.data.length)
        rw [Nat.zero_add]
        exact hdone
  · refine .bind (ask_counts nofun fun opened _ _ => ?_)
    cases opened with
    | none => exact hnone
    | some _ =>
      refine .bind (ask_counts nofun fun _ _ _ => .bind (ask_counts (fun _ => hfh) fun c _ _ => ?_))
      cases c with
      | none => exact hnone
      | some c =>
        refine .bind (ask_counts nofun fun flushed _ hclean => ?_)
        cases flushed with
        | none =>
          have hzero : 0 + 0 + 0 + c.toNat = 0 := hclean trivial
          show post (some none) (0 + 0 + 0 + c.toNat)
          rw [hzero]
          exact hnone
        | some _ =>
          show post (some (some c)) (0 + c.toNat)
          rw [Nat.zero_add]
          exact hsome c

lemma finishWrite_counts {req : Request} (hquota : req.quotaManager = some e) {count : UInt32}
    (committed : StableHow4) :
    Counts e (finishWrite count committed req) count.toNat Settled := by
  unfold finishWrite
  split_ifs with hpos
  · exact .bind (recordWrite_counts hquota (UInt32.toNat_toUInt64 count) rfl)
  · have hzero : count.toNat = 0 := by
      simpa [UInt32.lt_iff_toNat_lt] using hpos
    exact hzero

lemma writeCached_counts {args : Write4args} {fh : Handle} {req : Request}
    (hquota : req.quotaManager = some e) (hmanager : req.cachedFmanager = some e)
    (hfh : fh.vfs = some e) (hshort : args.data.length < 2 ^ 32) :
    Counts e (writeCached args fh req) 0 Settled := by
  have hcount : 0 + args.data.length = (UInt32.ofNat args.data.length).toNat := by
    rw [UInt32.toNat_ofNat', Nat.mod_eq_of_lt hshort, Nat.zero_add]
  unfold writeCached
  dsimp only
  split_ifs
  · refine .bind (ask_counts (fun _ => hfh) fun _ _ _ => ?_)
    show Counts e _ (0 + args.data.length) Settled
    rw [hcount]
    exact finishWrite_counts hquota _
  · refine .bind (askManager_counts hmanager fun cache _ _ => ?_)
    cases cache with
    | none => rfl
    | some _ =>
      refine .bind (askManager_counts hmanager fun _ _ _ => ?_)
      have hquota' : (req.dropFilehandleFromCache fh.id).quotaManager = some e := hquota
      show Counts e _ (0 + args.data.length) Settled
      rw [hcount]
      exact finishWrite_counts hquota' _

lemma writeStable_counts {args : Write4args} {fh : Handle} {req : Request}
    (hquota : req.quotaManager = some e) (hmanager : req.cachedFmanager = some e)
    (hfh : fh.vfs = some e) (hshort : args.data.length < 2 ^ 32) :
    Counts e (writeStable args fh req) 0 Settled := by
  unfold writeStable
  refine .bind (writeThrough_counts hmanager hfh hshort rfl fun count => ?_)
  dsimp only [Option.elim]
  split_ifs
  · exact .bind (askManager_counts hmanager fun _ _ _ => finishWrite_counts hquota _)
  · exact finishWrite_counts hquota _

lemma write_counts {args : Write4args} {req : Request} (hquota : req.quotaManager = some e)
    (hmanager : req.cachedFmanager = some e)
    (hfile : ∀ fh, req.filehandle = some fh → fh.vfs = some e)
    (hshort : args.data.length < 2 ^ 32) : Counts e (write args req) 0 Settled := by
  unfold write
  cases hfh : req.filehandle with
  | none => rfl
  | some fh =>
    have hcached := writeCached_counts hquota hmanager (hfile fh hfh) hshort
    have hstable := writeStable_counts hquota hmanager (hfile fh hfh) hshort
    dsimp only
    split_ifs
    · refine .bind ?_
      split <;> assumption
    · refine .bind (quotaAllows_counts hquota fun allowed => ?_)
      cases allowed with
      | false => rfl
      | true =>
        split
        · exact hcached
        · exact hstable
        · exact hstable

/-! #### ALLOCATE -/

lemma sum_zeroChunks (n : ℕ) : (zeroChunks n).sum = n := by
  unfold zeroChunks
  rw [List.sum_append, List.sum_replicate_nat]
  split_ifs with hzero
  · rw [List.sum_nil]
    omega
  · rw [List.sum_singleton]
    omega

lemma writeZeros_counts {fh : Handle} (hfh : fh.vfs = some e)
    {post : Option (Option Unit) → ℕ → Prop} (chunks : List ℕ) (hnone : post (some none) 0)
    (hsome : post (some (some ())) (n + chunks.sum)) :
    Counts e (writeZeros fh chunks) n post := by
  induction chunks generalizing n with
  | nil => exact hsome
  | cons k rest ih =>
    refine .bind (ask_counts (fun _ => hfh) fun done _ hclean => ?_)
    cases done with
    | none =>
      have hzero : n = 0 := hclean trivial
      subst hzero
      exact hnone
    | some _ =>
      show Counts e (writeZeros fh rest) (n + (List.replicate k (0 : UInt8)).length) post
      apply ih
      rwa [List.length_replicate, Nat.add_assoc, ← List.sum_cons]

lemma allocate_counts {args : Allocate4args} {req : Request} (hquota : req.quotaManager = some e)
    (hfile : ∀ fh, req.filehandle = some fh → fh.vfs = some e) :
    Counts e (allocate args req) 0 Settled := by
  unfold allocate
  dsimp only
  cases hfh : req.filehandle with
  | none => rfl
  | some fh =>
    refine .bind (quotaAllows_counts hquota fun allowed => ?_)
    dsimp only [Option.elim]
    split
    · rfl
    · refine .bind (ask_counts nofun fun opened _ _ => ?_)
      cases opened with
      | none => rfl
      | some _ =>
        refine .bind (ask_counts nofun fun size _ _ => ?_)
        cases size with
        | none => rfl
        | some size =>
          dsimp only [Option.elim]
          split_ifs with hover hgrow
          · rfl
          · refine .bind (writeZeros_counts (hfile fh hfh) _ rfl ?_)
            refine .bind (recordWrite_counts hquota ?_ rfl)
            rw [sum_zeroChunks, UInt64.toNat_ofNat', Nat.mod_eq_of_lt (by omega)]
            show _ = 0 + 0 + 0 + _
            omega
          · rfl

lemma allocateWrapping_counts {args : Allocate4args} {req : Request}
    (hquota : req.quotaManager = some e)
    (hfile : ∀ fh, req.filehandle = some fh → fh.vfs = some e) :
    Counts e (allocateWrapping args req) 0 Settled := by
  unfold allocateWrapping
  dsimp only
  cases hfh : req.filehandle with
  | none => rfl
  | some fh =>
    refine .bind (quotaAllows_counts hquota fun allowed => ?_)
    dsimp only [Option.elim]
    split
    · rfl
    · refine .bind (ask_counts nofun fun opened _ _ => ?_)
      cases opened with
      | none => rfl
      | some _ =>
        refine .bind (ask_counts nofun fun size _ _ => ?_)
        cases size with
        | none => rfl
        | some size =>
          dsimp only [Option.elim]
          split_ifs with hgrow
          · refine .bind (writeZeros_counts (hfile fh hfh) _ rfl ?_)
            refine .bind (recordWrite_counts hquota ?_ rfl)
            rw [sum_zeroChunks]
            show _ = 0 + 0 + 0 + _
            omega
          · rfl

/-! #### COPY -/

/-- The loop counts what it copies. -/
lemma copyLoop_counts {src dst : Handle} (hdst : dst.vfs = some e) {count : ℕ}
    {post : Option (Option ℕ) → ℕ → Prop} (hnone : post (some none) 0)
    (hsome : ∀ c ≤ count, post (some (some c)) c) (copied : ℕ) (hcopied : copied ≤ count) :
    Counts e (copyLoop src dst count copied) copied post := by
  induction copied using copyLoop.induct count with
  | case1 copied hlt ih =>
    rw [copyLoop, if_pos hlt]
    refine .bind (ask_counts (by rintro ⟨⟩) fun data hdata hclean => ?_)
    cases data with
    | none =>
      have hzero : copied = 0 := hclean trivial
      subst hzero
      exact hnone
    | some data =>
      dsimp only [Option.elim]
      split_ifs with hempty
      · exact hsome copied hcopied
      · refine .bind (ask_counts (fun _ => hdst) fun done _ hclean => ?_)
        cases done with
        | none =>
          have hzero : copied = 0 := hclean trivial
          subst hzero
          exact hnone
        | some _ =>
          have hread : data.length ≤ min (count - copied) 262144 := hdata
          exact ih data hempty (by omega)
  | case2 copied hge =>
    rw [copyLoop, if_neg hge]
    exact hsome copied hcopied

lemma copyBytes_counts {args : Copy4args} {src dst : Handle} {req : Request}
    (hquota : req.quotaManager = some e) (hdst : dst.vfs = some e) {count : ℕ}
    (hcount : count < 2 ^ 64) : Counts e (copyBytes args src dst count req) 0 Settled := by
  unfold copyBytes
  refine .bind (ask_counts nofun fun sought _ _ => ?_)
  cases sought with
  | none => rfl
  | some _ =>
    refine .bind (ask_counts nofun fun opened _ _ => ?_)
    cases opened with
    | none => rfl
    | some _ =>
      refine .bind (ask_counts nofun fun sought _ _ => ?_)
      cases sought with
      | none => rfl
      | some _ =>
        refine .bind (copyLoop_counts hdst rfl (fun n hn => ?_) 0 (Nat.zero_le _))
        refine .bind (ask_counts nofun fun flushed _ hclean => ?_)
        cases flushed with
        | none => exact hclean trivial
        | some _ =>
          refine .bind (recordWrite_counts hquota ?_ rfl)
          rw [UInt64.toNat_ofNat', Nat.mod_eq_of_lt (by omega)]
          rfl

lemma copy_counts {args : Copy4args} {req : Request} (hquota : req.quotaManager = some e)
    (hfile : ∀ fh, req.filehandle = some fh → fh.vfs = some e) :
    Counts e (copy args req) 0 Settled := by
  unfold copy
  cases hdst : req.filehandle with
  | none => rfl
  | some dst =>
    cases req.savedFilehandle with
    | none => rfl
    | some src =>
      refine .bind (quotaAllows_counts hquota fun allowed => ?_)
      dsimp only [Option.elim]
      split
      · rfl
      · refine .bind (ask_counts nofun fun opened _ _ => ?_)
        cases opened with
        | none => rfl
        | some _ =>
          refine .bind (.bind (ask_counts nofun fun size _ _ => ?_))
          have hcount : copyCount args (size.getD src.attrSize) < 2 ^ 64 := by
            have havailable := (saturatingSub (size.getD src.attrSize) args.caSrcOffset).toNat_lt
            unfold copyCount
            dsimp only
            split
            · exact havailable
            · exact (Nat.min_le_right _ _).trans_lt havailable
          show Counts e
            (if copyCount args (size.getD src.attrSize) = 0 then
              pure (.some req (copyResok 0) .nfs4Ok)
            else copyBytes args src dst (copyCount args (size.getD src.attrSize)) req) 0 Settled
          split
          · rfl
          · exact copyBytes_counts hquota (hfile dst hdst) hcount

end Counts

/-! #### SETATTR and REMOVE -/

section Light

variable {e : UInt8} {S : Server} {α : Type}

/-- The questions that change neither sizes nor the quota. -/
def Light : Question → Prop
  | .checkWrite .. | .recordWrite .. => False
  | .on _ call => resizes call = false
  | _ => True

/-- A program that asks nothing else counts nothing. -/
lemma counts_of_light {p : Op α} (h : p.AsksOnly Light) : Counts e p 0 Settled := by
  induction p with
  | pure a => rfl
  | panic => rfl
  | ask q k ih =>
    obtain ⟨hq, hrest⟩ := h
    have hnotes : Notes e 0 q := by
      cases q
      case on vfs call => exact fun hresizes => by simp [Light, hresizes] at hq
      all_goals first | exact hq.elim | trivial
    refine ⟨hnotes, ?_⟩
    rintro a _ ⟨-, -, rfl⟩
    have hsame : added 0 q a = 0 := by
      cases q
      case on vfs call => cases call <;> first | rfl | cases hq
      all_goals rfl
    rw [hsame]
    exact ih a (hrest a trivial)

lemma setFilehandleId_light (id : NfsFh4) (req : Request) :
    (req.setFilehandleId S id).AsksOnly Light :=
  req.setFilehandleId_asks (fun _ _ => trivial) (fun _ _ => rfl) id

lemma setattr_counts {args : SetAttr4args} {req : Request}
    (hmanager : req.cachedFmanager = some e) : Counts e (setattr S args req) 0 Settled := by
  unfold setattr
  cases req.filehandle with
  | none => rfl
  | some fh =>
    dsimp only
    split_ifs
    · rfl
    · refine .bind (askManager_counts hmanager fun attrsset _ _ => counts_of_light ?_)
      refine (req.askManager_asks fun _ => rfl).bind fun _ =>
        (setFilehandleId_light fh.id req).bind fun res => ?_
      obtain ⟨req, found⟩ := res
      cases found with
      | ok fh =>
        refine Prog.AsksOnly.bind ?_ fun _ => Prog.asksOnly_pure _
        exact (Prog.asksOnly_query trivial).bind fun _ => Prog.asksOnly_pure _
      | error e => exact Prog.asksOnly_pure _

lemma remove_counts {args : Remove4args} {req : Request}
    (hmanager : req.cachedFmanager = some e) : Counts e (remove S args req) 0 Settled := by
  unfold remove
  dsimp only
  cases req.filehandle with
  | none => rfl
  | some fh =>
    dsimp only
    cases S.join fh.file args.target with
    | none => rfl
    | some p =>
      refine .bind (askManager_counts hmanager fun res _ _ => ?_)
      cases res with
      | ok cinfo => rfl
      | error e => rfl

end Light

/-! ### Requests, one after another -/

/-- The operations that change sizes. -/
inductive SizeOp
  | data (op : DataOp)
  | setattr (args : SetAttr4args)
  | remove (args : Remove4args)

/-- The program of an operation. -/
def SizeOp.execute (S : Server) (checks : Bool) : SizeOp → Request → Op Response
  | .data op, req => op.execute checks req
  | .setattr args, req => Dispatcher.setattr S args req
  | .remove args, req => Dispatcher.remove S args req

/-- The data of a WRITE comes with a length of 32 bits. -/
def SizeOp.Short : SizeOp → Prop
  | .data (.write args) => args.data.length < 2 ^ 32
  | _ => True

/-- A request on the export with number `e`: its quota manager, its file manager and its filehandle
are those of the export. -/
structure SizeRequest (e : UInt8) where
  op : SizeOp
  req : Request
  short : op.Short
  quota : req.quotaManager = some e
  manager : req.cachedFmanager = some e
  file : ∀ fh, req.filehandle = some fh → fh.vfs = some e

/-- **What a request records** is what it has counted, or it has counted nothing, whatever it is
answered.

**Proof sketch.** A WRITE, a COPY and an ALLOCATE count what they write call by call, and record the
sum after the last call that can fail. -/
lemma counts_execute (S : Server) (checks : Bool) {e : UInt8} (r : SizeRequest e) :
    Counts e (r.op.execute S checks r.req) 0 Settled := by
  have hshort := r.short
  cases hop : r.op with
  | data op =>
    rw [hop] at hshort
    cases op with
    | write args => exact write_counts r.quota r.manager r.file hshort
    | copy args => exact copy_counts r.quota r.file
    | allocate args =>
      cases checks with
      | true => exact allocate_counts r.quota r.file
      | false => exact allocateWrapping_counts r.quota r.file
  | setattr args => exact setattr_counts r.manager
  | remove args => exact remove_counts r.manager

section Requests

variable {F : Type} [FileSystem F] [FileSizes F]

/-- The file system of an export, and its quota manager. -/
structure Store (F : Type) where
  fs : F
  quota : QuotaManager

/-- One question of a request: the answer and the store after it, unless the addition of the quota
manager panics. -/
def turn (checks : Bool) (s : Store F) (luck : Luck F) (q : Question) :
    Option (q.Answer × Store F) :=
  (respond checks s.quota luck.toLuck q).map fun a =>
    (a, ⟨effect s.fs luck q a, charge s.quota q⟩)

/-- A request is executed: its questions are answered one after another. The store stays as it is if
the request panics. -/
def serve (checks : Bool) : Op Response → Store F → List (Luck F) → Option (Store F)
  | .ask _ _, _, [] => none
  | .ask q k, s, luck :: lucks =>
    match turn checks s luck q with
    | none => some s
    | some (a, s') => serve checks (k a) s' lucks
  | _, s, _ => some s

/-- A call changes the total size by what the request counts for it: a write adds as many bytes as
it should, a size that is set adds none, and a removal frees none. It fails only if nothing was
written before, and the counter does not overflow. -/
structure Exact (s : Store F) (luck : Luck F) (n : ℕ) (q : Question) (a : q.Answer) : Prop where
  gains : gain s.fs luck q a = counted q a
  clean : Fails q a → n = 0
  spares : ∀ vfs p, q = .on vfs (.removeFile p) → Spares { luck.manager with fs := s.fs } p
  fits : ∀ e bytes, q = .recordWrite e bytes → s.quota.bytesUsed.toNat + bytes.toNat < 2 ^ 64

/-- All calls of a request are exact. -/
def ExactCalls (checks : Bool) : Op Response → Store F → ℕ → List (Luck F) → Prop
  | .ask q k, s, n, luck :: lucks => ∀ a s', turn checks s luck q = some (a, s') →
    Exact s luck n q a ∧ ExactCalls checks (k a) s' (added n q a) lucks
  | _, _, _, _ => True

/-- A request is executed, or the file manager sweeps. -/
inductive Act (F : Type) (e : UInt8)
  | request (r : SizeRequest e) (lucks : List (Luck F))
  | sweep (manager : FileManager F) (ids : List NfsFh4)

/-- A request or a sweep. -/
def step (S : Server) (checks : Bool) {e : UInt8} (s : Store F) : Act F e → Option (Store F)
  | .request r lucks => serve checks (r.op.execute S checks r.req) s lucks
  | .sweep manager ids =>
    some { s with fs := ({ manager with fs := s.fs }.sweepPendingDeletes ids).fs }

/-- All calls of a request are exact, and a sweep frees nothing. -/
def Act.Exact (S : Server) (checks : Bool) {e : UInt8} (s : Store F) : Act F e → Prop
  | .request r lucks => ExactCalls checks (r.op.execute S checks r.req) s 0 lucks
  | .sweep manager ids => SparesSwept { manager with fs := s.fs } ids

/-- `bytes_used` is its initial value and the change of the total size, with `n` bytes counted and
not recorded. -/
def Balanced (s₀ s : Store F) (n : ℕ) : Prop :=
  s.quota.bytesUsed.toNat + n + total s₀.fs = s₀.quota.bytesUsed.toNat + total s.fs

/-- `bytes_used` is its initial value and the change of the total size. -/
def Accounted (s₀ s : Store F) : Prop :=
  s.quota.bytesUsed.toNat + total s₀.fs = s₀.quota.bytesUsed.toNat + total s.fs

lemma total_setSizes (luck : Luck F) (path : String) (attrs : List FileAttrValue) (fs : F) :
    total (setSizes luck path fs attrs) = total fs + sizesGrowth luck path fs attrs := by
  induction attrs generalizing fs with
  | nil => rfl
  | cons attr attrs ih =>
    cases attr
    case size size =>
      have hput := total_putBytes fs (resize luck path fs size).file (resize luck path fs size).offset
        (resize luck path fs size).bytes
      refine (ih _).trans ?_
      rw [hput]
      exact Nat.add_assoc _ _ _
    all_goals exact ih fs

/-- An exact call changes the total size by what is counted for it. -/
lemma total_effect {s : Store F} {luck : Luck F} {n : ℕ} {q : Question} {a : q.Answer}
    (h : Exact s luck n q a) : total (effect s.fs luck q a) = total s.fs + counted q a := by
  have hgains := h.gains
  have hspares := h.spares
  rw [← hgains]
  unfold effect gain
  cases writeCall s.fs luck q a with
  | some w => exact total_putBytes s.fs w.file w.offset w.bytes
  | none =>
    cases q
    case on vfs call =>
      cases call
      case setAttr fh attrs => exact total_setSizes luck _ attrs s.fs
      case removeFile p => exact total_removeFile (hspares vfs p rfl)
      all_goals rfl
    all_goals rfl

omit [FileSystem F] [FileSizes F] in
/-- What is recorded was counted. -/
lemma charge_added {e : UInt8} {quota : QuotaManager} {n : ℕ} {q : Question} (hnotes : Notes e n q)
    (hfits : ∀ e bytes, q = .recordWrite e bytes →
      quota.bytesUsed.toNat + bytes.toNat < 2 ^ 64) (a : q.Answer) :
    (charge quota q).bytesUsed.toNat + added n q a = quota.bytesUsed.toNat + n + counted q a := by
  cases q
  case recordWrite e' bytes =>
    obtain ⟨-, hbytes⟩ := hnotes
    show (quota.bytesUsed + bytes).toNat + 0 = quota.bytesUsed.toNat + n + 0
    rw [UInt64.toNat_add, Nat.mod_eq_of_lt (hfits e' bytes rfl), hbytes]
  all_goals exact (Nat.add_assoc _ _ _).symm

/-- A request whose calls are exact leaves the count and the total size in balance. -/
lemma balanced_serve {checks : Bool} {e : UInt8} {s₀ : Store F} {p : Op Response}
    {s s' : Store F} {n : ℕ} {lucks : List (Luck F)} (hcounts : Counts e p n Settled)
    (hexact : ExactCalls checks p s n lucks) (hs : Balanced s₀ s n)
    (hserve : serve checks p s lucks = some s') : Balanced s₀ s' 0 := by
  induction p generalizing s n lucks with
  | pure r =>
    cases hserve
    have hzero : n = 0 := hcounts
    rwa [hzero] at hs
  | panic =>
    cases hserve
    have hzero : n = 0 := hcounts
    rwa [hzero] at hs
  | ask q k ih =>
    obtain ⟨hnotes, hrest⟩ := hcounts
    cases lucks with
    | nil => cases hserve
    | cons luck lucks =>
      rw [serve] at hserve
      cases hturn : turn checks s luck q with
      | none =>
        -- Only a check panics, and nothing was written before it.
        rw [hturn] at hserve
        cases hserve
        have hzero : n = 0 := by
          cases q
          case checkWrite => exact hnotes.2
          all_goals cases hturn
        rwa [hzero] at hs
      | some res =>
        obtain ⟨a, s₁⟩ := res
        rw [hturn] at hserve
        obtain ⟨hcall, hcalls⟩ := hexact a s₁ hturn
        obtain ⟨b, hb, hres⟩ := Option.map_eq_some_iff.1 hturn
        cases hres
        have hadds : Adds n q a (added n q a) :=
          ⟨transfers_of_respond hb, hcall.clean, rfl⟩
        refine ih a (hrest a _ hadds) hcalls ?_ hserve
        have htotal := total_effect hcall
        have hcharge := charge_added hnotes hcall.fits a
        have hbefore : s.quota.bytesUsed.toNat + n + total s₀.fs =
          s₀.quota.bytesUsed.toNat + total s.fs := hs
        show (charge s.quota q).bytesUsed.toNat + added n q a + total s₀.fs =
          s₀.quota.bytesUsed.toNat + total (effect s.fs luck q a)
        omega

/-- A step whose calls are exact leaves them in balance. -/
lemma accounted_step {S : Server} {checks : Bool} {e : UInt8} {s₀ : Store F} (s : Store F)
    (act : Act F e) (s' : Store F) (hs : Accounted s₀ s) (hexact : act.Exact S checks s)
    (hstep : step S checks s act = some s') : Accounted s₀ s' := by
  cases act with
  | request r lucks => exact balanced_serve (counts_execute S checks r) hexact hs hstep
  | sweep manager ids =>
    cases hstep
    exact hs.trans (congrArg _ (total_sweepPendingDeletes hexact).symm)

/-- **The count follows the total size** in every run of requests and sweeps whose calls are exact:
writes begin at the end of the file and are not cut short, sizes that are set change nothing,
removals free nothing, and what fails had not written anything.

**Proof sketch.** What is counted and not recorded yet is kept beside the store; with it, the count
and the total size are in balance after every call. -/
theorem accounted_of_exact (S : Server) (checks : Bool) {e : UInt8} (s₀ : Store F)
    (acts : List (Act F e)) (h : Run.Meets (step S checks) (Act.Exact S checks) s₀ acts) :
    Run.Holds (step S checks) (Accounted s₀) s₀ acts :=
  Run.holds_of_meets accounted_step (rfl : Accounted s₀ s₀) h

end Requests

section Examples

/-- An export with at most one file, which has a size. -/
structure OneFile where
  size : Option ℕ

instance : FileSystem OneFile where
  exportRoot := .root
  join := AbsPath.join
  existsAt fs p := fs.size.isSome && p.components == ["f"]
  isDir _ p := p.components == []
  isFile fs p := fs.size.isSome && p.components == ["f"]
  len fs p := if p.components = ["f"] then fs.size.map UInt64.ofNat else none
  createFile fs p := if p.components = ["f"] then some { fs with size := some 0 } else none
  createDir _ _ := none
  removeFile fs p := if p.components = ["f"] ∧ fs.size.isSome then some ⟨none⟩ else none
  removeDir _ _ := .error .other
  moveFile fs _ _ := (fs, false)
  moveDir fs _ _ := (fs, false)
  symlinkMetadata _ _ := none
  osExists fs s := fs.size.isSome && s == "/f"
  readDir _ _ := none
  symlink _ _ _ := .error .other
  hardLink _ _ _ := .error .other
  rename _ _ _ := none
  lchown _ _ _ _ := none
  hashStr _ := 0
  through _ p q := p.components == q.components
  fills _ p q := p.components == q.components

instance : FileSizes OneFile where
  fileAt fs s := if fs.size.isSome ∧ s = "/f" then some (64, 2) else none
  lengthOf fs _ := fs.size.getD 0
  kept fs _ := fs.size.isSome
  total fs := fs.size.getD 0
  setLength fs _ n := ⟨fs.size.map fun _ => n⟩
  freed fs p := if p.components = ["f"] then fs.size.getD 0 else 0
  total_setLength fs o n hkept := by
    obtain ⟨m, hm⟩ := Option.isSome_iff_exists.1 hkept
    simp only [hm, Option.map_some, Option.getD_some]
    omega
  total_setLength_of_not_kept fs o n hkept := by
    have hnone : fs.size = none := by simpa using hkept
    simp [hnone]
  total_removeFile fs p := by
    show ((if p.components = ["f"] ∧ fs.size.isSome then some ⟨none⟩ else none : Option OneFile).getD
      fs).size.getD 0 + (if p.components = ["f"] then fs.size.getD 0 else 0) = fs.size.getD 0
    by_cases hp : p.components = ["f"]
    · cases hsize : fs.size with
      | none => simp [hsize]
      | some n => simp [hp]
    · simp [hp]
  total_removeDir h := by cases h

/-- An UNSTABLE WRITE to the file, whose write cache holds it open. -/
def unstableWrite (offset : UInt64) (data : Bytes) (hshort : data.length < 2 ^ 32) :
    SizeRequest 1 where
  op := .data (.write ⟨⟨0, List.Vector.replicate 12 0⟩, offset, .unstable4, data⟩)
  req := (cachedWrite data).req
  short := hshort
  quota := rfl
  manager := rfl
  file := by
    rintro _ ⟨⟩
    rfl

/-- The write cache transfers one byte. -/
def oneByte : Luck OneFile where
  toLuck := idleLuck
  written := 1
  cacheFile := some (64, 2)
  cacheOpened := true
  manager := .new ⟨some 3⟩ 0 none

/-- A byte is appended. -/
theorem accounted_append :
    Run.Holds (step openServer true) (Accounted (⟨⟨some 3⟩, ⟨10, 3⟩⟩ : Store OneFile))
      ⟨⟨some 3⟩, ⟨10, 3⟩⟩
      [.request (unstableWrite 3 [1] (by decide)) [oneByte, oneByte, oneByte]] := by
  refine accounted_of_exact openServer true _ _ (Run.meets_cons rfl ?_ trivial)
  -- The check, the write of the cache and the record.
  intro a s hturn
  cases hturn
  refine ⟨⟨rfl, by rintro ⟨⟩, by simp, by simp⟩, ?_⟩
  intro a s hturn
  cases hturn
  refine ⟨⟨rfl, by rintro ⟨⟩, by simp, by simp⟩, ?_⟩
  intro a s hturn
  cases hturn
  refine ⟨⟨rfl, by rintro ⟨⟩, by simp, ?_⟩, trivial⟩
  rintro _ _ ⟨⟩
  decide

/-- A byte is written in place. -/
theorem not_accounted_overwrite :
    ¬ Run.Holds (step openServer true) (Accounted (⟨⟨some 3⟩, ⟨10, 3⟩⟩ : Store OneFile))
      ⟨⟨some 3⟩, ⟨10, 3⟩⟩
      [.request (unstableWrite 0 [1] (by decide)) [oneByte, oneByte, oneByte]] := by
  intro h
  have hrun : ∃ s, [Act.request (unstableWrite 0 [1] (by decide))
      [oneByte, oneByte, oneByte]].foldlM (step openServer true)
        (⟨⟨some 3⟩, ⟨10, 3⟩⟩ : Store OneFile) = some s ∧
      s.quota.bytesUsed = 4 ∧ total s.fs = 3 := ⟨_, rfl, rfl, rfl⟩
  obtain ⟨s, hs, hused, htotal⟩ := hrun
  have hbalance : s.quota.bytesUsed.toNat + 3 = 3 + total s.fs := h.last hs
  rw [hused, htotal] at hbalance
  exact absurd hbalance (by decide)

end Examples

end QuotaAccounting

end NextNfs
