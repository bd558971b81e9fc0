import NextNfs.Server.Handlers

set_option relaxedAutoImplicit false
set_option autoImplicit false

/-!
# The calls that change owners

Two calls change the owner of an object: `lchown`, and `set_attr` with an owner or a group. This
module says which operations make neither, whatever they are answered and whatever the other
connections do between their questions.

## Main definitions

* `NextNfs.Dispatcher.Call.givesAway` — the call may change the owner of an object.
* `NextNfs.Dispatcher.leavesOwners` — the operations that make no such call.

## Main results

* `NextNfs.Dispatcher.dispatch_quiet` — in every run of such an operation.
-/

namespace NextNfs

open Wire Dialogue

/-- An attribute that says who owns an object. -/
def setsOwner : FileAttrValue → Bool
  | .owner _ | .ownerGroup _ => true
  | _ => false

namespace Dispatcher

/-- The calls that may change the owner of an object. -/
def Call.givesAway : Call → Bool
  | lchown .. => true
  | setAttr _ attrs => attrs.any setsOwner
  | _ => false

/-- The questions that change no owner. -/
def Question.quiet : Question → Prop
  | on _ call => call.givesAway = false
  | _ => True

/-- The questions of the operations that move the filehandle. -/
def Question.roams : Question → Prop
  | arrive | execute _ _ => False
  | on _ call => call.modifies = false
  | _ => True

/-- The operations that change no owner and create no object. -/
def leavesOwners : NfsArgOp → Bool
  | .opcreate _ | .opopen _ | .opsetattr _ => false
  | _ => true

lemma Call.modifies_of_givesAway {call : Call} (h : call.givesAway = true) :
    call.modifies = true := by
  cases call with
  | lchown | setAttr => rfl
  | _ => cases h

/-- Moving the filehandle changes no owner. -/
lemma Question.quiet_of_roams {q : Question} (h : q.roams) : q.quiet := by
  cases q with
  | on e call =>
    have hreads : call.modifies = false := h
    refine Bool.eq_false_of_not_eq_true fun hgives => ?_
    exact Bool.false_ne_true (hreads.symm.trans (Call.modifies_of_givesAway hgives))
  | _ => trivial

/-! ### Rules -/

lemma ask_quiet (e : Option UInt8) {call : Call} (h : call.givesAway = false) :
    (ask e call).AsksOnly Question.quiet := Prog.asksOnly_query h

lemma askManager_quiet (req : Request) {call : Call} (h : call.givesAway = false) :
    (req.askManager call).AsksOnly Question.quiet := req.askManager_asks fun _ => h

variable {S : Server} {req : Request}

/-! ### The operations that move the filehandle -/

lemma getFilehandleFromCache_roams (id : NfsFh4) (req : Request) :
    (req.getFilehandleFromCache id).AsksOnly Question.roams := by
  unfold Request.getFilehandleFromCache
  split
  · exact Prog.asksOnly_pure _
  · refine (Prog.asksOnly_query trivial).bind fun now => ?_
    split_ifs
    · exact Prog.asksOnly_pure _
    · refine Prog.AsksOnly.bind (Prog.asksOnly_query (show Call.modifies _ = false from rfl))
        fun there => ?_
      split_ifs
      · exact Prog.asksOnly_pure _
      · exact Prog.asksOnly_pure _

lemma setFilehandleId_roams (id : NfsFh4) (req : Request) :
    (req.setFilehandleId S id).AsksOnly Question.roams :=
  req.setFilehandleId_asks (fun _ _ => trivial) (fun _ _ => rfl) id

lemma askManager_roams (req : Request) {call : Call} (h : call.modifies = false) :
    (req.askManager call).AsksOnly Question.roams := req.askManager_asks fun _ => h

lemma enterPseudoRoot_roams (id : NfsFh4) (req : Request) :
    (enterPseudoRoot S id req).AsksOnly Question.roams :=
  (req.setExport_asks (fun _ _ => trivial) _).bind fun _ => (Prog.asksOnly_query trivial).bind fun _ =>
    Prog.asksOnly_pure _

lemma putRootFilehandle_roams (req : Request) :
    (putRootFilehandle S req).AsksOnly Question.roams := by
  refine (Prog.asksOnly_query trivial).bind fun exports => ?_
  split
  · refine (req.setExport_asks (fun _ _ => trivial) _).bind fun req => ?_
    split_ifs
    · exact Prog.asksOnly_pure _
    · refine (askManager_roams req rfl).bind fun root => ?_
      cases root with
      | ok fh => exact (setFilehandleId_roams fh.id req).bind fun _ => Prog.asksOnly_pure _
      | error e => exact Prog.asksOnly_pure _
  · exact (enterPseudoRoot_roams _ req).bind fun _ => Prog.asksOnly_pure _

lemma putfh_roams (args : PutFh4args) (req : Request) :
    (putfh S args req).AsksOnly Question.roams := by
  unfold putfh
  dsimp only
  split_ifs
  · exact (enterPseudoRoot_roams _ req).bind fun _ => Prog.asksOnly_pure _
  · refine (req.switchExport_asks (fun _ _ => trivial) _).bind fun req => ?_
    split_ifs
    · exact Prog.asksOnly_pure _
    · refine (getFilehandleFromCache_roams _ req).bind fun res => ?_
      obtain ⟨req, cached⟩ := res
      cases cached with
      | some fh => exact Prog.asksOnly_pure _
      | none =>
        refine (setFilehandleId_roams _ req).bind fun res => ?_
        obtain ⟨req, found⟩ := res
        cases found with
        | ok fh =>
          refine Prog.AsksOnly.bind ?_ fun _ => Prog.asksOnly_pure _
          exact (Prog.asksOnly_query trivial).bind fun _ => Prog.asksOnly_pure _
        | error e => exact Prog.asksOnly_pure _

lemma restoreFilehandle_roams (req : Request) :
    (restoreFilehandle S req).AsksOnly Question.roams := by
  unfold restoreFilehandle
  cases req.savedFilehandle with
  | none => exact Prog.asksOnly_pure _
  | some saved =>
    refine Prog.AsksOnly.bind ?_ fun _ => Prog.asksOnly_pure _
    exact (req.switchExport_asks (fun _ _ => trivial) saved.id).bind fun _ => Prog.asksOnly_pure _

lemma lookup_roams (args : Lookup4args) (req : Request) :
    (lookup S args req).AsksOnly Question.roams := by
  unfold lookup
  split_ifs
  · unfold lookupExport
    refine (Prog.asksOnly_query trivial).bind fun found => ?_
    cases found with
    | none => exact Prog.asksOnly_pure _
    | some e =>
      refine (req.setExport_asks (fun _ _ => trivial) e).bind fun req => ?_
      split_ifs
      · exact Prog.asksOnly_pure _
      · refine (askManager_roams req rfl).bind fun root => ?_
        cases root with
        | ok fh => exact Prog.asksOnly_pure _
        | error e => exact Prog.asksOnly_pure _
  · cases req.filehandle with
    | none => exact Prog.asksOnly_pure _
    | some fh =>
      refine (askManager_roams req rfl).bind fun found => ?_
      cases found with
      | ok fh => exact Prog.asksOnly_pure _
      | error e => exact Prog.asksOnly_pure _

lemma lookupParent_roams (req : Request) :
    (lookupParent S req).AsksOnly Question.roams := by
  unfold lookupParent
  dsimp only
  split_ifs
  · exact Prog.asksOnly_pure _
  · cases req.filehandle with
    | none => exact Prog.asksOnly_pure _
    | some fh =>
      dsimp only
      split_ifs
      · refine (Prog.asksOnly_query trivial).bind fun exports => ?_
        split_ifs
        · exact (enterPseudoRoot_roams _ req).bind fun _ => Prog.asksOnly_pure _
        · refine (askManager_roams req rfl).bind fun found => ?_
          cases found with
          | ok fh => exact Prog.asksOnly_pure _
          | error e => exact Prog.asksOnly_pure _
      · refine (Prog.asksOnly_pure _).bind fun exports => ?_
        split_ifs
        · exact (enterPseudoRoot_roams _ req).bind fun _ => Prog.asksOnly_pure _
        · refine (askManager_roams req rfl).bind fun found => ?_
          cases found with
          | ok fh => exact Prog.asksOnly_pure _
          | error e => exact Prog.asksOnly_pure _

/-! ### The operations on data and names -/

lemma quotaAllows_asks {ok : Question → Prop} (hcheck : ∀ e bytes, ok (.checkWrite e bytes))
    (req : Request) (bytes : UInt64) : (quotaAllows req bytes).AsksOnly ok := by
  unfold quotaAllows
  cases req.quotaManager with
  | none => exact Prog.asksOnly_pure _
  | some e => exact Prog.asksOnly_query (hcheck e bytes)

lemma recordWrite_asks {ok : Question → Prop} (hrecord : ∀ e bytes, ok (.recordWrite e bytes))
    (req : Request) (bytes : UInt64) : (recordWrite req bytes).AsksOnly ok := by
  unfold recordWrite
  cases req.quotaManager with
  | none => exact Prog.asksOnly_pure _
  | some e => exact Prog.asksOnly_query (hrecord e bytes)

lemma quotaAllows_quiet (req : Request) (bytes : UInt64) :
    (quotaAllows req bytes).AsksOnly Question.quiet :=
  quotaAllows_asks (fun _ _ => trivial) req bytes

lemma recordWrite_quiet (req : Request) (bytes : UInt64) :
    (recordWrite req bytes).AsksOnly Question.quiet :=
  recordWrite_asks (fun _ _ => trivial) req bytes

lemma writeThrough_quiet (args : Write4args) (fh : Handle) (req : Request) :
    (writeThrough args fh req).AsksOnly Question.quiet := by
  refine (askManager_quiet req rfl).bind fun there => ?_
  split_ifs
  · refine (askManager_quiet req rfl).bind fun len => ?_
    dsimp only
    split_ifs
    · exact (askManager_quiet req rfl).bind fun _ => Prog.asksOnly_pure _
    · exact (askManager_quiet req rfl).bind fun _ => Prog.asksOnly_pure _
  · refine (ask_quiet _ rfl).bind fun opened => ?_
    cases opened with
    | none => exact Prog.asksOnly_pure _
    | some _ =>
      refine (ask_quiet _ rfl).bind fun _ => (ask_quiet _ rfl).bind fun n => ?_
      cases n with
      | none => exact Prog.asksOnly_pure _
      | some n => exact (ask_quiet _ rfl).bind fun _ => Prog.asksOnly_pure _

lemma finishWrite_quiet (count : UInt32) (committed : StableHow4) (req : Request) :
    (finishWrite count committed req).AsksOnly Question.quiet := by
  unfold finishWrite
  split_ifs
  · exact (recordWrite_quiet req _).bind fun _ => Prog.asksOnly_pure _
  · exact (Prog.asksOnly_pure ()).bind fun _ => Prog.asksOnly_pure _

lemma writeCached_quiet (args : Write4args) (fh : Handle) (req : Request) :
    (writeCached args fh req).AsksOnly Question.quiet := by
  unfold writeCached
  dsimp only
  split_ifs
  · exact (ask_quiet _ rfl).bind fun _ => finishWrite_quiet _ _ _
  · refine (askManager_quiet req rfl).bind fun cache => ?_
    cases cache with
    | none => exact Prog.asksOnly_pure _
    | some _ => exact (askManager_quiet req rfl).bind fun _ => finishWrite_quiet _ _ _

lemma writeStable_quiet (args : Write4args) (fh : Handle) (req : Request) :
    (writeStable args fh req).AsksOnly Question.quiet := by
  refine (writeThrough_quiet args fh req).bind fun written => ?_
  cases written with
  | none => exact Prog.asksOnly_pure _
  | some count =>
    dsimp only
    split_ifs
    · exact (askManager_quiet req rfl).bind fun _ => finishWrite_quiet _ _ _
    · exact finishWrite_quiet _ _ _

lemma write_quiet (args : Write4args) (req : Request) :
    (write args req).AsksOnly Question.quiet := by
  unfold write
  cases req.filehandle with
  | none => exact Prog.asksOnly_pure _
  | some fh =>
    dsimp only
    split_ifs
    · refine (Prog.asksOnly_pure true).bind fun allowed => ?_
      split
      · exact Prog.asksOnly_pure _
      · split
        · exact writeCached_quiet args fh req
        · exact writeStable_quiet args fh req
        · exact writeStable_quiet args fh req
    · refine (quotaAllows_quiet req _).bind fun allowed => ?_
      split
      · exact Prog.asksOnly_pure _
      · split
        · exact writeCached_quiet args fh req
        · exact writeStable_quiet args fh req
        · exact writeStable_quiet args fh req

lemma commit_quiet (req : Request) : (commit req).AsksOnly Question.quiet := by
  unfold commit
  cases req.filehandle with
  | none => exact Prog.asksOnly_pure _
  | some fh =>
    refine (askManager_quiet req rfl).bind fun cache => ?_
    cases cache with
    | none => exact Prog.asksOnly_pure _
    | some _ =>
      exact (askManager_quiet req rfl).bind fun _ => (askManager_quiet req rfl).bind fun _ =>
        Prog.asksOnly_pure _

lemma writeZeros_quiet (fh : Handle) (chunks : List ℕ) :
    (writeZeros fh chunks).AsksOnly Question.quiet := by
  induction chunks with
  | nil => exact Prog.asksOnly_pure _
  | cons n rest ih =>
    refine (ask_quiet _ rfl).bind fun done => ?_
    cases done with
    | none => exact Prog.asksOnly_pure _
    | some _ => exact ih

lemma allocate_quiet (args : Allocate4args) (req : Request) :
    (allocate args req).AsksOnly Question.quiet := by
  unfold allocate
  cases req.filehandle with
  | none => exact Prog.asksOnly_pure _
  | some fh =>
    refine (quotaAllows_quiet req _).bind fun allowed => ?_
    split_ifs
    · exact Prog.asksOnly_pure _
    · refine (ask_quiet _ rfl).bind fun opened => ?_
      cases opened with
      | none => exact Prog.asksOnly_pure _
      | some _ =>
        refine (ask_quiet _ rfl).bind fun size => ?_
        cases size with
        | none => exact Prog.asksOnly_pure _
        | some size =>
          dsimp only
          split_ifs
          · exact Prog.asksOnly_panic
          · refine (writeZeros_quiet fh _).bind fun done => ?_
            cases done with
            | none => exact Prog.asksOnly_pure _
            | some _ => exact (recordWrite_quiet req _).bind fun _ => Prog.asksOnly_pure _
          · exact Prog.asksOnly_pure _

/-! ### COPY -/

/-- The calls that read from an open file. -/
def Call.reads : Call → Bool
  | .read .. => true
  | _ => false

/-- With both filehandles set, a file is that of the saved one. -/
def Request.CopiesFrom (req : Request) (e : Option UInt8) (p : VfsPath) : Prop :=
  ∃ src dst, req.savedFilehandle = some src ∧ req.filehandle = some dst ∧ e = src.vfs ∧ p = src.file

/-- The questions of a COPY, which reads the file of the saved filehandle only. -/
def Request.Copies (req : Request) : Question → Prop
  | .checkWrite .. | .recordWrite .. => True
  | .on e (.read p _) => req.CopiesFrom e p
  | .on _ call => call.givesAway = false
  | _ => False

section Copy

variable {src dst : Handle}

lemma ask_copies (e : Option UInt8) {call : Call} (hreads : call.reads = false)
    (hgives : call.givesAway = false) : (ask e call).AsksOnly req.Copies := by
  refine Prog.asksOnly_query ?_
  cases call with
  | read => cases hreads
  | _ => exact hgives

lemma copyLoop_asks (hsrc : req.savedFilehandle = some src) (hdst : req.filehandle = some dst)
    (count copied : ℕ) : (copyLoop src dst count copied).AsksOnly req.Copies := by
  induction copied using copyLoop.induct count with
  | case1 copied hlt ih =>
    rw [copyLoop, if_pos hlt]
    have hread : ∀ n, req.Copies (.on src.vfs (.read src.file n)) :=
      fun _ => ⟨src, dst, hsrc, hdst, rfl, rfl⟩
    refine (Prog.asksOnly_query (hread _)).bind fun data => ?_
    cases data with
    | none => exact Prog.asksOnly_pure _
    | some data =>
      dsimp only
      split_ifs with hempty
      · exact Prog.asksOnly_pure _
      · refine (ask_copies _ rfl rfl).bind fun done => ?_
        cases done with
        | none => exact Prog.asksOnly_pure _
        | some _ => exact ih data hempty
  | case2 copied hge =>
    rw [copyLoop, if_neg hge]
    exact Prog.asksOnly_pure _

lemma copyBytes_asks (args : Copy4args) (hsrc : req.savedFilehandle = some src)
    (hdst : req.filehandle = some dst) (count : ℕ) :
    (copyBytes args src dst count req).AsksOnly req.Copies := by
  refine (ask_copies _ rfl rfl).bind fun sought => ?_
  cases sought with
  | none => exact Prog.asksOnly_pure _
  | some _ =>
    refine (ask_copies _ rfl rfl).bind fun opened => ?_
    cases opened with
    | none => exact Prog.asksOnly_pure _
    | some _ =>
      refine (ask_copies _ rfl rfl).bind fun sought => ?_
      cases sought with
      | none => exact Prog.asksOnly_pure _
      | some _ =>
        refine (copyLoop_asks hsrc hdst count 0).bind fun copied => ?_
        cases copied with
        | none => exact Prog.asksOnly_pure _
        | some n =>
          refine (ask_copies _ rfl rfl).bind fun flushed => ?_
          cases flushed with
          | none => exact Prog.asksOnly_pure _
          | some _ =>
            exact (recordWrite_asks (fun _ _ => trivial) req _).bind fun _ => Prog.asksOnly_pure _

/-- COPY reads the file of the saved filehandle, and changes no owner. -/
lemma copy_asks (args : Copy4args) (req : Request) : (copy args req).AsksOnly req.Copies := by
  unfold copy
  cases hdst : req.filehandle with
  | none => exact Prog.asksOnly_pure _
  | some dst =>
    cases hsrc : req.savedFilehandle with
    | none => exact Prog.asksOnly_pure _
    | some src =>
      refine (quotaAllows_asks (fun _ _ => trivial) req _).bind fun allowed => ?_
      split
      · exact Prog.asksOnly_pure _
      · refine (ask_copies _ rfl rfl).bind fun opened => ?_
        cases opened with
        | none => exact Prog.asksOnly_pure _
        | some _ =>
          have hsize : (fileSize src).AsksOnly req.Copies :=
            (ask_copies _ rfl rfl).bind fun _ => Prog.asksOnly_pure _
          refine hsize.bind fun size => ?_
          dsimp only
          generalize (if args.caCount = 0 then (saturatingSub size args.caSrcOffset).toNat
            else min args.caCount.toNat (saturatingSub size args.caSrcOffset).toNat) = count
          split_ifs
          · exact Prog.asksOnly_pure _
          · exact copyBytes_asks args hsrc hdst count

lemma quiet_of_copies {q : Question} (hq : req.Copies q) : q.quiet := by
  cases q with
  | on e call =>
    cases call with
    | read => rfl
    | _ => exact hq
  | _ => trivial

end Copy

/-! ### The other operations -/

lemma openattr_quiet (args : OpenAttr4args) (req : Request) :
    (openattr args req).AsksOnly Question.quiet := by
  unfold openattr
  cases req.filehandle with
  | none => exact Prog.asksOnly_pure _
  | some fh =>
    refine (askManager_quiet req rfl).bind fun found => ?_
    cases found with
    | ok dir => exact Prog.asksOnly_pure _
    | error e => exact Prog.asksOnly_pure _

lemma close_quiet (args : Close4args) (req : Request) :
    (close args req).AsksOnly Question.quiet := by
  unfold close
  cases req.filehandle with
  | none => exact Prog.asksOnly_pure _
  | some fh =>
    refine Prog.AsksOnly.bind ?_ fun _ => (askManager_quiet req rfl).bind fun _ =>
      Prog.asksOnly_pure _
    unfold flushBeforeClose
    split_ifs
    · refine (askManager_quiet req rfl).bind fun cache => ?_
      cases cache with
      | some _ => exact (askManager_quiet req rfl).bind fun _ => askManager_quiet req rfl
      | none => exact askManager_quiet req rfl
    · exact Prog.asksOnly_pure _

lemma link_quiet (args : Link4args) (req : Request) :
    (link S args req).AsksOnly Question.quiet := by
  unfold link
  cases req.savedFilehandle with
  | none => exact Prog.asksOnly_pure _
  | some saved =>
    cases req.filehandle with
    | none => exact Prog.asksOnly_pure _
    | some fh =>
      dsimp only
      cases S.join fh.file args.newname with
      | none => exact Prog.asksOnly_pure _
      | some p =>
        dsimp only
        split_ifs
        · exact Prog.asksOnly_pure _
        · refine (askManager_quiet req rfl).bind fun made => ?_
          cases made with
          | error e => exact Prog.asksOnly_pure _
          | ok _ => exact Prog.asksOnly_pure _

lemma remove_quiet (args : Remove4args) (req : Request) :
    (remove S args req).AsksOnly Question.quiet := by
  unfold remove
  cases req.filehandle with
  | none => exact Prog.asksOnly_pure _
  | some fh =>
    dsimp only
    cases S.join fh.file args.target with
    | none => exact Prog.asksOnly_pure _
    | some p =>
      refine (askManager_quiet req rfl).bind fun res => ?_
      cases res with
      | ok cinfo => exact Prog.asksOnly_pure _
      | error e => exact Prog.asksOnly_pure _

lemma renameFile_quiet (saved : Handle) (srcPath dstPath : String) (srcVfs dstVfs : VfsPath)
    (req : Request) :
    (renameFile saved srcPath dstPath srcVfs dstVfs req).AsksOnly Question.quiet := by
  refine (ask_quiet _ rfl).bind fun isDir => (askManager_quiet req rfl).bind fun there => ?_
  split_ifs
  · exact askManager_quiet req rfl
  · exact ask_quiet _ rfl
  · exact ask_quiet _ rfl

lemma rename_quiet (args : Rename4args) (req : Request) :
    (rename S args req).AsksOnly Question.quiet := by
  unfold rename
  cases req.savedFilehandle with
  | none => exact Prog.asksOnly_pure _
  | some saved =>
    cases req.filehandle with
    | none => exact Prog.asksOnly_pure _
    | some fh =>
      dsimp only
      cases S.join saved.file args.oldname with
      | none => exact Prog.asksOnly_pure _
      | some srcVfs =>
        refine (ask_quiet _ rfl).bind fun there => ?_
        split_ifs
        · exact Prog.asksOnly_pure _
        · cases S.join fh.file args.newname with
          | none => exact Prog.asksOnly_pure _
          | some dstVfs =>
            refine (renameFile_quiet saved _ _ srcVfs dstVfs req).bind fun done => ?_
            cases done with
            | none => exact Prog.asksOnly_pure _
            | some _ =>
              exact (askManager_quiet req rfl).bind fun _ => (askManager_quiet req rfl).bind fun _ =>
                (askManager_quiet req rfl).bind fun _ => Prog.asksOnly_pure _

/-! ### One operation -/

/-- What an operation asks that stays on its export. -/
lemma execute_asks {arg : NfsArgOp} (hstationary : stationary arg req = true) :
    (execute S arg req).AsksOnly (Asks arg req) := by
  have hready : Ready S (fun _ _ => True) True (fun _ => True) arg req :=
    ⟨fun _ _ => trivial, fun _ _ _ _ _ _ _ _ => trivial, fun _ _ => trivial, fun _ _ _ => trivial,
      fun _ _ _ _ => trivial, fun _ _ _ _ _ _ _ _ _ _ => trivial⟩
  exact (execute_conducts hready hstationary).mono (fun _ hq => hq) id fun _ _ => trivial

/-- An operation that stays on its export and may not change it is quiet. -/
lemma execute_quiet_of_stationary {arg : NfsArgOp} (hstationary : stationary arg req = true)
    (hmodify : mayModify arg req = false) : (execute S arg req).AsksOnly Question.quiet := by
  refine (execute_asks hstationary).widen fun q hq => ?_
  cases q with
  | on e call =>
    change call.givesAway = false
    by_contra hgives
    have hmodifies := Call.modifies_of_givesAway (Bool.eq_true_of_not_eq_false hgives)
    rw [(hq.2 hmodifies).2] at hmodify
    cases hmodify
  | _ => trivial

lemma execute_quiet {arg : NfsArgOp} (h : leavesOwners arg = true) :
    (execute S arg req).AsksOnly Question.quiet := by
  cases arg with
  | opcreate | opopen | opsetattr => cases h
  | opputfh args => exact (putfh_roams args req).widen fun _ => Question.quiet_of_roams
  | opputrootfh | opputpubfh =>
    exact (putRootFilehandle_roams req).widen fun _ => Question.quiet_of_roams
  | oprestorefh => exact (restoreFilehandle_roams req).widen fun _ => Question.quiet_of_roams
  | oplookup args => exact (lookup_roams args req).widen fun _ => Question.quiet_of_roams
  | oplookupp => exact (lookupParent_roams req).widen fun _ => Question.quiet_of_roams
  | opwrite args => exact write_quiet args req
  | opcommit args => exact commit_quiet req
  | opallocate args => exact allocate_quiet args req
  | opcopy args => exact (copy_asks args req).widen fun _ => quiet_of_copies
  | opopenattr args => exact openattr_quiet args req
  | opclose args => exact close_quiet args req
  | oplink args => exact link_quiet args req
  | opremove args => exact remove_quiet args req
  | oprename args => exact rename_quiet args req
  | _ => exact execute_quiet_of_stationary rfl rfl

lemma admission_quiet (arg : NfsArgOp) (req : Request) :
    (admission S arg req).AsksOnly Question.quiet := by
  refine Prog.AsksOnly.bind ?_ fun limited => ?_
  · unfold rateLimited
    cases req.rateLimiter with
    | none => exact Prog.asksOnly_pure _
    | some e => exact (Prog.asksOnly_query trivial).bind fun _ => Prog.asksOnly_pure _
  split
  · exact Prog.asksOnly_pure _
  refine (Prog.asksOnly_query trivial).bind fun inGrace => ?_
  split_ifs
  · exact Prog.asksOnly_pure _
  · exact Prog.asksOnly_pure _
  · exact Prog.asksOnly_pure _
  refine Prog.AsksOnly.bind ?_ fun permitted => ?_
  · unfold checkOp
    split
    · exact Prog.asksOnly_pure _
    · split
      · split_ifs
        · exact Prog.asksOnly_pure _
        · exact ask_quiet _ rfl
        · exact Prog.asksOnly_pure _
      · exact Prog.asksOnly_pure _
  · cases permitted with
    | error e => exact Prog.asksOnly_pure _
    | ok _ => exact Prog.asksOnly_pure _

/-- An operation other than CREATE, OPEN and SETATTR makes no call that changes an owner. -/
lemma dispatch_quiet {arg : NfsArgOp} (h : leavesOwners arg = true) (next : Option ℕ)
    (req : Request) : (dispatch S arg next req).AsksOnly Question.quiet := by
  refine (admission_quiet arg req).bind fun refused => ?_
  cases refused with
  | some answer => exact Prog.asksOnly_pure _
  | none =>
    have hcreates : createsObject arg req = .pure false := by
      cases arg with
      | opcreate | opopen => cases h
      | _ => rfl
    unfold perform
    rw [hcreates]
    change Prog.AsksOnly Question.quiet (query (.execute arg req) >>= fun _ =>
      execute S arg req >>= fun r => pure (recheck S arg next req.currentExportId r))
    exact (Prog.asksOnly_query trivial).bind fun _ => (execute_quiet h).bind fun _ =>
      Prog.asksOnly_pure _

end Dispatcher

end NextNfs
