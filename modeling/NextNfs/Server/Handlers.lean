import NextNfs.Server.Conduct

set_option relaxedAutoImplicit false
set_option autoImplicit false

/-!
# What each operation does

For each operation that stays on the export of the request, one lemma says what it asks, when it may
panic, what it answers and what it leaves of the request.

## Main results

* `NextNfs.Dispatcher.execute_conducts` — what these operations have in common.
-/

namespace NextNfs.Dispatcher

open Wire Dialogue

variable {S : Server} {law : (q : Question) → q.Answer → Prop} {crash : Prop} {K : Tag → Prop}
  {req : Request}

/-! ### The current filehandle -/

lemma getCurrentFilehandle_conducts (h : Ready S law crash K .opgetfh req) :
    Conducts law crash K .opgetfh req (getCurrentFilehandle req) := by
  unfold getCurrentFilehandle
  cases req.filehandle with
  | none => exact .none (.refl h.current) rfl
  | some fh => exact .some (.refl h.current) rfl ⟨rfl, rfl⟩

lemma saveFilehandle_conducts (h : Ready S law crash K .opsavefh req) :
    Conducts law crash K .opsavefh req (saveFilehandle req) := by
  unfold saveFilehandle
  cases req.filehandle with
  | none => exact .some (.refl h.current) rfl ⟨rfl, rfl⟩
  | some fh =>
    have hrefl := Stays.refl h.current
    exact .some ⟨rfl, hrefl.filehandle, .inr rfl, hrefl.cache⟩ rfl ⟨rfl, rfl⟩

/-! ### Directories -/

lemma lookup_conducts {args : Lookup4args} (h : Ready S law crash K (.oplookup args) req)
    (hroot : req.isPseudoRoot = false) :
    Conducts law crash K (.oplookup args) req (lookup S args req) := by
  have hrefl := Stays.refl h.current
  unfold lookup
  rw [hroot]
  cases hfh : req.filehandle with
  | none => exact .none hrefl (by simp [hroot, hfh])
  | some fh =>
    have hsome : req.filehandle.isSome := by simp [hfh]
    have hsilent : ∀ status, silent (.oplookup args) req status = false := by
      simp [hfh]
    have hneeds : needsManager S (.oplookup args) req = true := by simp [needsManager, hfh, hroot]
    refine .bind (askManager_does h rfl hneeds nofun fun e he found hfound => ?_)
    cases found with
    | error e => exact .some hrefl.unsetFilehandle (hsilent _) ⟨rfl, rfl⟩
    | ok fh' =>
      have hK : K fh'.tag := h.gives hsome e he _ _ fh' hfound rfl
      exact .some (hrefl.setFilehandle hK hsome) (hsilent _) ⟨rfl, rfl⟩

section Readdir

variable {args : Readdir4args} {post : Option Listing → Prop}

lemma listEntry_does (h : Ready S law crash K (.opreaddir args) req)
    (hneeds : needsManager S (.opreaddir args) req = true) (entry : VfsPath) (l : Listing)
    (hpost : ∀ l, post l) :
    (listEntry args req entry l).Does law (Asks (.opreaddir args) req) crash post := by
  unfold listEntry
  dsimp only
  split_ifs
  · exact hpost _
  · refine .bind (askManager_does h rfl hneeds nofun fun e he found _ => ?_)
    cases found with
    | error e => exact hpost _
    | ok fh => exact hpost _
  · exact hpost _
  · exact hpost _

lemma listEntries_does (h : Ready S law crash K (.opreaddir args) req)
    (hneeds : needsManager S (.opreaddir args) req = true) (hpost : ∀ l, post l)
    (entries : List VfsPath) (l : Listing) :
    (listEntries args req entries l).Does law (Asks (.opreaddir args) req) crash post := by
  induction entries generalizing l with
  | nil => exact hpost _
  | cons entry rest ih =>
    unfold listEntries
    refine .bind (listEntry_does h hneeds entry l fun step => ?_)
    cases step with
    | none => exact hpost _
    | some l => exact ih l

lemma entryAttrs_does (h : Ready S law crash K (.opreaddir args) req)
    (hneeds : needsManager S (.opreaddir args) req = true)
    {post : Option (List (UInt64 × String × Fattr4)) → Prop} (hpost : ∀ l, post l)
    (fhs : List (ℕ × Handle)) :
    (entryAttrs args req fhs).Does law (Asks (.opreaddir args) req) crash post := by
  induction fhs generalizing post with
  | nil => exact hpost _
  | cons entry rest ih =>
    unfold entryAttrs
    refine .bind (ih fun later => ?_)
    cases later with
    | none => exact hpost _
    | some entries =>
      refine .bind (askManager_does h rfl hneeds nofun fun e he attrs _ => ?_)
      cases attrs with
      | none => exact hpost _
      | some attrs => exact hpost _

lemma finishReaddir_conducts (h : Ready S law crash K (.opreaddir args) req)
    (hneeds : needsManager S (.opreaddir args) req = true) (l : Listing) :
    Conducts law crash K (.opreaddir args) req (finishReaddir args req l) := by
  have hrefl := Stays.refl h.current
  unfold finishReaddir
  dsimp only
  split_ifs
  · exact .none hrefl rfl
  · refine .bind (entryAttrs_does h hneeds (fun entries => ?_) _)
    cases entries with
    | none => exact .none hrefl rfl
    | some entries => exact .some hrefl rfl ⟨rfl, rfl⟩

lemma readdir_conducts (h : Ready S law crash K (.opreaddir args) req) :
    Conducts law crash K (.opreaddir args) req (readdir S args req) := by
  have hrefl := Stays.refl h.current
  unfold readdir
  split_ifs with hroot
  · exact .bind (query_does trivial fun exports _ => .some hrefl rfl ⟨rfl, rfl⟩)
  · cases hfh : req.filehandle with
    | none => exact .none hrefl rfl
    | some fh =>
      have hneeds : needsManager S (.opreaddir args) req = true := by
        simp [needsManager, hfh, hroot]
      refine .bind (ask_does hfh nofun fun dir _ => ?_)
      cases dir with
      | none => exact .none hrefl rfl
      | some entries =>
        refine .bind (listEntries_does h hneeds (fun listing => ?_) _ _)
        cases listing with
        | none => exact .none hrefl rfl
        | some l => exact finishReaddir_conducts h hneeds l

end Readdir

lemma secinfoFlavors_does {arg : NfsArgOp} {name : Option String} {post : List SeCinfo4 → Prop}
    (hpost : ∀ l, post l) :
    (req.secinfoFlavors S name).Does law (Asks arg req) crash post := by
  unfold Request.secinfoFlavors
  cases req.access S with
  | some ac => exact hpost _
  | none =>
    exact .bind (query_does trivial fun exports _ => hpost _)

lemma secinfo_conducts {args : SecInfo4args} (h : Ready S law crash K (.opSecinfo args) req) :
    Conducts law crash K (.opSecinfo args) req (secinfo S args req) := by
  have hrefl := Stays.refl h.current
  unfold secinfo
  cases hfh : req.filehandle with
  | none => exact .none hrefl rfl
  | some fh =>
    refine .bind (ask_does hfh nofun fun dir _ => ?_)
    split_ifs
    · exact .none hrefl rfl
    · exact .bind (secinfoFlavors_does fun flavors => .some hrefl rfl ⟨rfl, rfl⟩)

lemma secinfoNoName_conducts {args : SecinfoNoName4args}
    (h : Ready S law crash K (.opsecinfoNoName args) req) :
    Conducts law crash K (.opsecinfoNoName args) req (secinfoNoName S req) :=
  .bind (secinfoFlavors_does fun _ => .some (.refl h.current) rfl ⟨rfl, rfl⟩)

/-! ### Names -/

lemma quotaAllows_does {arg : NfsArgOp} {bytes : UInt64} {post : Bool → Prop}
    (hpost : ∀ b, post b) : (quotaAllows req bytes).Does law (Asks arg req) crash post := by
  unfold quotaAllows
  cases hq : req.quotaManager with
  | none => exact hpost _
  | some e => exact query_does hq fun b _ => hpost b

section Create

variable {args : Create4args} {fh : Handle}

lemma finishCreate_conducts (h : Ready S law crash K (.opcreate args) req)
    (hsome : req.filehandle.isSome) (hneeds : needsManager S (.opcreate args) req = true)
    (dir newPath : VfsPath) (before : UInt64) :
    Conducts law crash K (.opcreate args) req (finishCreate fh dir newPath before req) := by
  have hrefl := Stays.refl h.current
  unfold finishCreate
  refine .bind (askManager_does h rfl hneeds nofun fun _ _ _ _ => ?_)
  refine .bind (askManager_does h rfl hneeds nofun fun _ _ after _ => ?_)
  refine .bind (askManager_does h rfl hneeds nofun fun e he found hfound => ?_)
  cases found with
  | error e => exact .none hrefl.unsetFilehandle (by simp [silent, e.2])
  | ok fh' =>
    have hK : K fh'.tag := h.gives hsome e he _ _ fh' hfound rfl
    exact .some (hrefl.setFilehandle hK hsome) rfl ⟨rfl, rfl⟩

lemma createDirectory_does {arg : NfsArgOp} (hfh : req.filehandle = some fh)
    {post : VfsPath → Prop} (hpost : ∀ p, post p) :
    (createDirectory fh).Does law (Asks arg req) crash post := by
  unfold createDirectory
  exact .bind (ask_does hfh nofun fun file _ => hpost _)

lemma createSymlink_conducts (h : Ready S law crash K (.opcreate args) req)
    (hfh : req.filehandle = some fh) (hneeds : needsManager S (.opcreate args) req = true)
    (linkdata : String) :
    Conducts law crash K (.opcreate args) req (createSymlink S args linkdata fh req) := by
  have hsome : req.filehandle.isSome := by simp [hfh]
  have hrefl := Stays.refl h.current
  unfold createSymlink
  refine .bind (createDirectory_does hfh fun dir => ?_)
  cases S.join dir args.objname with
  | none => exact .none hrefl rfl
  | some p =>
    refine .bind (fileManager_does h hneeds fun _ => ?_)
    refine .bind (askManager_does h rfl hneeds nofun fun _ _ before _ => ?_)
    refine .bind (askManager_does h rfl hneeds (fun _ => ⟨hsome, rfl⟩) fun _ _ made _ => ?_)
    cases made with
    | error e => exact .none hrefl (by cases e <;> rfl)
    | ok _ => exact finishCreate_conducts h hsome hneeds dir p before

lemma createDirectoryObject_conducts (h : Ready S law crash K (.opcreate args) req)
    (hfh : req.filehandle = some fh) (hneeds : needsManager S (.opcreate args) req = true) :
    Conducts law crash K (.opcreate args) req (createDirectoryObject S args fh req) := by
  unfold createDirectoryObject
  refine .bind (createDirectory_does hfh fun dir => ?_)
  cases S.join dir args.objname with
  | none => exact .none (.refl h.current) rfl
  | some p =>
    refine .bind (askManager_does h rfl hneeds nofun fun _ _ before _ => ?_)
    refine .bind (ask_does hfh (fun _ => rfl) fun _ _ => ?_)
    exact finishCreate_conducts h (by simp [hfh]) hneeds dir p before

lemma create_conducts (h : Ready S law crash K (.opcreate args) req) :
    Conducts law crash K (.opcreate args) req (create S args req) := by
  have hrefl := Stays.refl h.current
  unfold create
  cases hfh : req.filehandle with
  | none => exact .none hrefl rfl
  | some fh =>
    dsimp only
    split_ifs with hname
    · exact .none hrefl rfl
    · refine .bind (quotaAllows_does fun allowed => ?_)
      split_ifs
      · exact .none hrefl rfl
      · cases htype : args.objtype with
        | nf4lnk linkdata =>
          exact createSymlink_conducts h hfh (by simp [needsManager, hfh, hname, htype]) linkdata
        | nf4dir =>
          exact createDirectoryObject_conducts h hfh (by simp [needsManager, hfh, hname, htype])
        | _ => exact .none hrefl rfl

end Create

lemma link_conducts {args : Link4args} (h : Ready S law crash K (.oplink args) req) :
    Conducts law crash K (.oplink args) req (link S args req) := by
  have hrefl := Stays.refl h.current
  unfold link
  cases hsaved : req.savedFilehandle with
  | none => exact .none hrefl rfl
  | some saved =>
    cases hfh : req.filehandle with
    | none => exact .none hrefl rfl
    | some fh =>
      dsimp only
      cases hjoin : S.join fh.file args.newname with
      | none => exact .none hrefl rfl
      | some p =>
        have hneeds : needsManager S (.oplink args) req = true := by
          simp [needsManager, hfh, hsaved, hjoin]
        dsimp only
        split_ifs
        · exact .none hrefl rfl
        · refine .bind (askManager_does h rfl hneeds (fun _ => ⟨by simp [hfh], rfl⟩)
            fun _ _ made _ => ?_)
          cases made with
          | error e => exact .none hrefl (by cases e <;> rfl)
          | ok _ => exact .some hrefl rfl ⟨rfl, rfl⟩

lemma remove_conducts {args : Remove4args} (h : Ready S law crash K (.opremove args) req) :
    Conducts law crash K (.opremove args) req (remove S args req) := by
  have hrefl := Stays.refl h.current
  unfold remove
  cases hfh : req.filehandle with
  | none => exact .some hrefl rfl ⟨rfl, rfl⟩
  | some fh =>
    dsimp only
    cases hjoin : S.join fh.file args.target with
    | none => exact .some hrefl rfl ⟨rfl, rfl⟩
    | some p =>
      have hneeds : needsManager S (.opremove args) req = true := by
        simp [needsManager, hfh, hjoin]
      refine .bind (askManager_does h rfl hneeds (fun _ => ⟨by simp [hfh], rfl⟩)
        fun _ _ res _ => ?_)
      cases res with
      | error e => exact .some hrefl rfl ⟨rfl, rfl⟩
      | ok cinfo => exact .some hrefl rfl ⟨rfl, rfl⟩

section Rename

variable {args : Rename4args} {fh saved : Handle}

lemma renameFile_does (h : Ready S law crash K (.oprename args) req)
    (hfh : req.filehandle = some fh) (hsaved : req.savedFilehandle = some saved)
    (hneeds : needsManager S (.oprename args) req = true) (srcPath dstPath : String)
    (srcVfs dstVfs : VfsPath) {post : Option Unit → Prop} (hpost : ∀ a, post a) :
    (renameFile saved srcPath dstPath srcVfs dstVfs req).Does law (Asks (.oprename args) req)
      crash post := by
  have hsome : req.filehandle.isSome := by simp [hfh]
  unfold renameFile
  refine .bind (ask_saved_does hfh hsaved nofun fun isDir _ => ?_)
  refine .bind (askManager_does h rfl hneeds nofun fun e he there _ => ?_)
  have hmod : needsOneExport (.oprename args) = true ∧ req.cachedFmanager.isSome ∧
      mayModify (.oprename args) req = true := ⟨rfl, by simp [he], rfl⟩
  split_ifs
  · exact askManager_does h rfl hneeds (fun _ => ⟨hsome, rfl⟩) fun _ _ a _ => hpost a
  · exact ask_saved_does hfh hsaved (fun _ => hmod) fun a _ => hpost a
  · exact ask_saved_does hfh hsaved (fun _ => hmod) fun a _ => hpost a

lemma rename_conducts (h : Ready S law crash K (.oprename args) req) :
    Conducts law crash K (.oprename args) req (rename S args req) := by
  have hrefl := Stays.refl h.current
  unfold rename
  cases hsaved : req.savedFilehandle with
  | none => exact .some hrefl (by simp [silent, hsaved]) ⟨rfl, .inr rfl⟩
  | some saved =>
    have hsilent : ∀ status, status ≠ .nfs4Ok → silent (.oprename args) req status = true := by
      simp [silent, hsaved]
    cases hfh : req.filehandle with
    | none => exact .none hrefl (hsilent _ (by decide))
    | some fh =>
      dsimp only
      cases S.join saved.file args.oldname with
      | none => exact .none hrefl (hsilent _ (by decide))
      | some srcVfs =>
        refine .bind (ask_saved_does hfh hsaved (by rintro ⟨⟩) fun there _ => ?_)
        split_ifs
        · exact .none hrefl (hsilent _ (by decide))
        · cases hjoin : S.join fh.file args.newname with
          | none => exact .none hrefl (hsilent _ (by decide))
          | some dstVfs =>
            have hneeds : needsManager S (.oprename args) req = true := by
              simp [needsManager, hfh, hsaved, hjoin]
            refine .bind (renameFile_does h hfh hsaved hneeds _ _ _ _ fun done => ?_)
            cases done with
            | none => exact .none hrefl (hsilent _ (by decide))
            | some _ =>
              refine .bind (askManager_does h rfl hneeds (by rintro ⟨⟩) fun _ _ _ _ => ?_)
              refine .bind (askManager_does h rfl hneeds (by rintro ⟨⟩) fun _ _ _ _ => ?_)
              refine .bind (askManager_does h rfl hneeds (by rintro ⟨⟩) fun _ _ _ _ => ?_)
              exact .some hrefl rfl ⟨rfl, .inl rfl⟩

end Rename

lemma readlink_conducts (h : Ready S law crash K .opreadlink req) :
    Conducts law crash K .opreadlink req (readlink req) := by
  have hrefl := Stays.refl h.current
  unfold readlink
  cases hfh : req.filehandle with
  | none => exact .none hrefl (by simp [hfh])
  | some fh =>
    have hsilent : ∀ status, silent .opreadlink req status = false := by simp [hfh]
    have hneeds : needsManager S .opreadlink req = true := by simp [needsManager, hfh]
    refine .bind (askManager_does h rfl hneeds nofun fun _ _ target _ => ?_)
    cases target with
    | error e => exact .some hrefl (hsilent _) ⟨rfl, rfl⟩
    | ok link => exact .some hrefl (hsilent _) ⟨rfl, rfl⟩

/-! ### Opens -/

lemma flushBeforeClose_does {args : Close4args} (h : Ready S law crash K (.opclose args) req)
    {fh : Handle} (hfh : req.filehandle = some fh) {post : Unit → Prop} (hpost : post ()) :
    (flushBeforeClose fh req).Does law (Asks (.opclose args) req) crash post := by
  have hneeds : needsManager S (.opclose args) req = true := by simp [needsManager, hfh]
  unfold flushBeforeClose
  split
  · rename_i hcache
    have hmay : mayModify (.opclose args) req = true := by simp [mayModify, hfh, hcache]
    refine .bind (askManager_does h rfl hneeds (fun _ => ⟨by simp [hfh], hmay⟩) fun e he a ha => ?_)
    cases a with
    | none => exact askManager_does h rfl hneeds nofun fun _ _ _ _ => hpost
    | some _ =>
      refine .bind (askManager_does h rfl hneeds nofun fun _ _ _ _ => ?_)
      exact askManager_does h rfl hneeds nofun fun _ _ _ _ => hpost
  · exact hpost

lemma close_conducts {args : Close4args} (h : Ready S law crash K (.opclose args) req) :
    Conducts law crash K (.opclose args) req (close args req) := by
  unfold close
  cases hfh : req.filehandle with
  | none => exact .none (.refl h.current) rfl
  | some fh =>
    refine .bind (flushBeforeClose_does h hfh ?_)
    refine .bind (askManager_does h rfl (by simp [needsManager, hfh]) nofun fun _ _ _ _ => ?_)
    exact .some (.dropFilehandleFromCache (.refl h.current) _) rfl ⟨rfl, rfl⟩

lemma openForReading_conducts {args : Open4args} (h : Ready S law crash K (.opopen args) req)
    {fh : Handle} (hfh : req.filehandle = some fh) {file : String}
    (hneeds : needsManager S (.opopen args) req = true) :
    Conducts law crash K (.opopen args) req (openForReading args fh file req) := by
  have hsome : req.filehandle.isSome := by simp [hfh]
  have hrefl := Stays.refl h.current
  unfold openForReading
  refine .bind (askManager_does h rfl hneeds (by rintro ⟨⟩) fun e he found hfound => ?_)
  cases found with
  | error e => exact .none hrefl (by simp [silent, e.2])
  | ok fh' =>
    have hK : K fh'.tag := h.gives hsome e he _ _ fh' hfound rfl
    refine .bind (askManager_does h rfl hneeds (by rintro ⟨⟩) fun _ _ state _ => ?_)
    cases state with
    | error e => exact .none hrefl (by simp [silent, e.2])
    | ok lock =>
      refine .bind (cacheFilehandle_does hK hsome hrefl fun req' hreq' => ?_)
      exact .some (hreq'.setFilehandle hK hsome) rfl ⟨rfl, rfl, rfl⟩

/-- OPEN, once the path of the new file is known. -/
lemma createOpened_conducts {args : Open4args} (h : Ready S law crash K (.opopen args) req)
    {fh : Handle} (hfh : req.filehandle = some fh) {how : CreateHow4}
    (hhow : args.openhow = .how how) (hneeds : needsManager S (.opopen args) req = true)
    (newfile : VfsPath) (before : UInt64) (verifier : Option (List.Vector UInt8 8)) :
    Conducts law crash K (.opopen args) req (do
      let made : Except Failure Handle ← req.askManager (.createFile newfile args.owner.clientid
        args.owner.owner args.shareAccess args.shareDeny verifier)
      match made with
      | .error _ => pure (.none req .nfs4errServerfault)
      | .ok newFh =>
        let req ← req.cacheFilehandle newFh
        let req := req.setFilehandle newFh
        match newFh.locks with
        | [] => .panic
        | lock :: _ =>
          let after : UInt64 ← req.askManager (.dirChangeAttr fh.path)
          pure (.some req (openResok lock ⟨false, before, after⟩ OPEN4_RESULT_CONFIRM)
            .nfs4Ok)) := by
  have hsome : req.filehandle.isSome := by simp [hfh]
  have hrefl := Stays.refl h.current
  have hmay : mayModify (.opopen args) req = true := by simp [mayModify, isMutating, hhow]
  refine .bind (askManager_does h rfl hneeds (fun _ => ⟨hsome, hmay⟩) fun e he made hmade => ?_)
  cases made with
  | error e => exact .none hrefl rfl
  | ok newFh =>
    have hK : K newFh.tag := h.gives hsome e he _ _ newFh hmade rfl
    refine .bind (cacheFilehandle_does hK hsome hrefl fun req' hreq' => ?_)
    have hset := hreq'.setFilehandle hK hsome
    cases hlocks : newFh.locks with
    | nil => exact h.locks _ _ _ _ _ _ _ _ hmade hlocks
    | cons lock locks =>
      refine .bind (askManager_does h hset.cachedFmanager hneeds nofun fun _ _ after _ => ?_)
      exact .some hset rfl ⟨rfl, rfl, rfl⟩

lemma openForWriting_conducts {args : Open4args} (h : Ready S law crash K (.opopen args) req)
    {fh : Handle} (hfh : req.filehandle = some fh) {file : String} {how : CreateHow4}
    (hhow : args.openhow = .how how) (hneeds : needsManager S (.opopen args) req = true) :
    Conducts law crash K (.opopen args) req (openForWriting S args fh file how req) := by
  have hrefl := Stays.refl h.current
  have hcreate := createOpened_conducts h hfh hhow hneeds
  unfold openForWriting
  refine .bind (quotaAllows_does fun allowed => ?_)
  split_ifs
  · exact .none hrefl rfl
  · cases S.join fh.file file with
    | none => exact .none hrefl rfl
    | some newfile =>
      refine .bind (askManager_does h rfl hneeds nofun fun _ _ before _ => ?_)
      cases how with
      | unchecked4 attrs => exact hcreate newfile before none
      | exclusive4 verifier => exact hcreate newfile before (some verifier)
      | guarded4 attrs => exact .none hrefl rfl

lemma openPrevious_conducts {args : Open4args} (h : Ready S law crash K (.opopen args) req)
    {type : OpenDelegationType4} (hclaim : args.claim = .claimPrevious type) :
    Conducts law crash K (.opopen args) req (openPrevious args req) := by
  have hrefl := Stays.refl h.current
  unfold openPrevious
  cases hfh : req.filehandle with
  | none => exact .none hrefl rfl
  | some fh =>
    have hneeds : needsManager S (.opopen args) req = true := by simp [needsManager, hfh, hclaim]
    refine .bind (askManager_does h rfl hneeds nofun fun _ _ state _ => ?_)
    cases state with
    | error e => exact .none hrefl (by simp [silent, e.2])
    | ok lock => exact .some hrefl rfl ⟨rfl, rfl, rfl⟩

lemma open_conducts {args : Open4args} (h : Ready S law crash K (.opopen args) req) :
    Conducts law crash K (.opopen args) req (open_ S args req) := by
  have hrefl := Stays.refl h.current
  unfold open_
  split
  · rename_i type hclaim
    exact openPrevious_conducts h hclaim
  · cases hfh : req.filehandle with
    | none => exact .none hrefl rfl
    | some fh =>
      refine .bind (ask_does hfh nofun fun dir _ => ?_)
      split_ifs
      · exact .none hrefl rfl
      · split
        · rename_i file hclaim
          split_ifs with hfile
          · exact .none hrefl rfl
          · have hneeds : needsManager S (.opopen args) req = true := by
              simp [needsManager, hfh, hclaim, hfile]
            split
            · exact openForReading_conducts h hfh hneeds
            · rename_i how hhow
              exact openForWriting_conducts h hfh hhow hneeds
        · exact .none hrefl rfl

lemma openattr_conducts {args : OpenAttr4args} (h : Ready S law crash K (.opopenattr args) req) :
    Conducts law crash K (.opopenattr args) req (openattr args req) := by
  have hrefl := Stays.refl h.current
  unfold openattr
  cases hfh : req.filehandle with
  | none => exact .some hrefl rfl ⟨rfl, rfl⟩
  | some fh =>
    have hsome : req.filehandle.isSome := by simp [hfh]
    have hneeds : needsManager S (.opopenattr args) req = true := by simp [needsManager, hfh]
    refine .bind (askManager_does h rfl hneeds (fun hmod => ⟨hsome, hmod⟩)
      fun e he found hfound => ?_)
    cases found with
    | error e => exact .some hrefl rfl ⟨rfl, rfl⟩
    | ok dir =>
      have hK : K dir.tag := h.gives hsome e he _ _ dir hfound rfl
      exact .some (hrefl.setFilehandle hK hsome) rfl ⟨rfl, rfl⟩

lemma openConfirm_conducts {args : OpenConfirm4args}
    (h : Ready S law crash K (.opopenConfirm args) req) :
    Conducts law crash K (.opopenConfirm args) req (openConfirm req) := by
  have hrefl := Stays.refl h.current
  unfold openConfirm
  cases req.filehandle with
  | none => exact .none hrefl rfl
  | some fh =>
    dsimp only
    cases fh.locks with
    | nil => exact .none hrefl rfl
    | cons lock locks => exact .some hrefl rfl ⟨rfl, rfl⟩

lemma openDowngrade_conducts {args : OpenDowngrade4args}
    (h : Ready S law crash K (.opopenDowngrade args) req) :
    Conducts law crash K (.opopenDowngrade args) req (openDowngrade args req) := by
  have hrefl := Stays.refl h.current
  unfold openDowngrade
  cases req.filehandle with
  | none => exact .none hrefl rfl
  | some fh =>
    dsimp only
    split_ifs
    · exact .none hrefl rfl
    · cases fh.locks with
      | nil => exact .none hrefl rfl
      | cons lock locks => exact .some hrefl rfl ⟨rfl, rfl⟩

/-! ### Attributes -/

lemma freshMeta_does {arg : NfsArgOp} {fh : Handle} (hfh : req.filehandle = some fh)
    {post : RealMeta → Prop} (hpost : ∀ m, post m) :
    (freshMeta fh req).Does law (Asks arg req) crash post := by
  unfold freshMeta
  cases hm : req.cachedFmanager with
  | none => exact hpost _
  | some e =>
    refine .bind (query_does ⟨.inl ⟨rfl, hm.symm, .inl (by simp [hfh])⟩, nofun⟩ fun m _ => ?_)
    exact hpost _

lemma access_conducts {args : Access4args} (h : Ready S law crash K (.opAccess args) req) :
    Conducts law crash K (.opAccess args) req (access S args req) := by
  have hrefl := Stays.refl h.current
  unfold access
  dsimp only
  cases hfh : req.filehandle with
  | none => exact .some hrefl rfl ⟨rfl, rfl⟩
  | some fh =>
    refine .bind (freshMeta_does hfh fun m => ?_)
    exact .some hrefl rfl ⟨rfl, rfl⟩

lemma getattr_conducts {args : Getattr4args} (h : Ready S law crash K (.opgetattr args) req) :
    Conducts law crash K (.opgetattr args) req (getattr S args req) := by
  have hrefl := Stays.refl h.current
  unfold getattr
  dsimp only
  split_ifs with hroot
  · exact .bind (query_does trivial fun now _ => .some hrefl rfl ⟨rfl, rfl, fun _ => rfl⟩)
  · cases hfh : req.filehandle with
    | none => exact .some hrefl rfl ⟨rfl, rfl, nofun⟩
    | some fh =>
      have hneeds : needsManager S (.opgetattr args) req = true := by
        simp [needsManager, hfh, hroot]
      refine .bind (askManager_does h rfl hneeds nofun fun _ _ attrs _ => ?_)
      cases attrs with
      | none => exact .some hrefl rfl ⟨rfl, rfl, nofun⟩
      | some attrs => exact .some hrefl rfl ⟨rfl, rfl, fun _ => rfl⟩

lemma verify_conducts {args : Verify4args} (h : Ready S law crash K (.opverify args) req) :
    Conducts law crash K (.opverify args) req (verify args req) := by
  have hrefl := Stays.refl h.current
  unfold verify
  cases hfh : req.filehandle with
  | none => exact .none hrefl (by simp [hfh])
  | some fh => exact .some hrefl (by simp [hfh]) ⟨rfl, rfl⟩

lemma nverify_conducts {args : Nverify4args} (h : Ready S law crash K (.opnverify args) req) :
    Conducts law crash K (.opnverify args) req (nverify args req) := by
  have hrefl := Stays.refl h.current
  unfold nverify
  cases hfh : req.filehandle with
  | none => exact .none hrefl (by simp [hfh])
  | some fh => exact .some hrefl (by simp [hfh]) ⟨rfl, rfl⟩

/-! ### Data -/

lemma fileSize_does {arg : NfsArgOp} {fh : Handle}
    (hask : ∀ {post : Option UInt64 → Prop}, (∀ a, post a) →
      (ask fh.vfs (.seekEnd fh.file)).Does law (Asks arg req) crash post)
    {post : UInt64 → Prop} (hpost : ∀ n, post n) :
    (fileSize fh).Does law (Asks arg req) crash post :=
  .bind (hask fun _ => hpost _)

lemma read_conducts {args : Read4args} (h : Ready S law crash K (.opread args) req) :
    Conducts law crash K (.opread args) req (read args req) := by
  have hrefl := Stays.refl h.current
  unfold read
  cases hfh : req.filehandle with
  | none => exact .none hrefl rfl
  | some fh =>
    refine .bind (ask_does hfh nofun fun opened _ => ?_)
    cases opened with
    | none => exact .none hrefl rfl
    | some _ =>
      refine .bind (fileSize_does (fun hpost => ask_does hfh nofun fun a _ => hpost a)
        fun size => ?_)
      refine .bind (ask_does hfh nofun fun sought _ => ?_)
      cases sought with
      | none => exact .none hrefl rfl
      | some _ =>
        refine .bind (ask_does hfh nofun fun data _ => ?_)
        cases data with
        | none => exact .none hrefl rfl
        | some data => exact .some hrefl rfl ⟨rfl, rfl⟩

lemma recordWrite_does {arg : NfsArgOp} {req' : Request} (hstays : Stays K req req')
    {bytes : UInt64} {post : Unit → Prop} (hpost : post ()) :
    (recordWrite req' bytes).Does law (Asks arg req) crash post := by
  have hquota : req'.quotaManager = req.quotaManager :=
    congrArg Context.quotaManager hstays.context
  unfold recordWrite
  rw [hquota]
  cases hq : req.quotaManager with
  | none => exact hpost
  | some e => exact query_does hq fun _ _ => hpost

section Write

variable {args : Write4args} {fh : Handle}

lemma finishWrite_conducts {req' : Request} (hstays : Stays K req req') (count : UInt32)
    (committed : StableHow4) :
    Conducts law crash K (.opwrite args) req (finishWrite count committed req') := by
  unfold finishWrite
  dsimp only
  split_ifs
  · exact .bind (recordWrite_does hstays (Conducts.some hstays rfl ⟨rfl, rfl⟩))
  · exact .some hstays rfl ⟨rfl, rfl⟩

lemma writeThrough_does (h : Ready S law crash K (.opwrite args) req)
    (hfh : req.filehandle = some fh) (hneeds : needsManager S (.opwrite args) req = true)
    {post : Option UInt32 → Prop} (hpost : ∀ n, post n) :
    (writeThrough args fh req).Does law (Asks (.opwrite args) req) crash post := by
  have hmod : req.filehandle.isSome ∧ mayModify (.opwrite args) req = true := ⟨by simp [hfh], rfl⟩
  unfold writeThrough
  refine .bind (askManager_does h rfl hneeds nofun fun _ _ there _ => ?_)
  split_ifs
  · refine .bind (askManager_does h rfl hneeds nofun fun _ _ len _ => ?_)
    dsimp only
    split_ifs
    · exact .bind (askManager_does h rfl hneeds (fun _ => hmod) fun _ _ _ _ => hpost _)
    · exact .bind (askManager_does h rfl hneeds (fun _ => hmod) fun _ _ _ _ => hpost _)
  · refine .bind (ask_does hfh nofun fun opened _ => ?_)
    cases opened with
    | none => exact hpost _
    | some _ =>
      refine .bind (ask_does hfh nofun fun _ _ => ?_)
      refine .bind (ask_does hfh (fun _ => rfl) fun n _ => ?_)
      cases n with
      | none => exact hpost _
      | some n => exact .bind (ask_does hfh nofun fun _ _ => hpost _)

lemma writeCached_conducts (h : Ready S law crash K (.opwrite args) req)
    (hfh : req.filehandle = some fh) (hstable : args.stable = .unstable4) :
    Conducts law crash K (.opwrite args) req (writeCached args fh req) := by
  have hrefl := Stays.refl h.current
  unfold writeCached
  split_ifs with hcache
  · refine .bind (ask_does hfh (fun _ => rfl) fun _ _ => ?_)
    exact finishWrite_conducts hrefl _ _
  · have hneeds : needsManager S (.opwrite args) req = true := by
      simp [needsManager, hfh, hstable, hcache]
    refine .bind (askManager_does h rfl hneeds (fun _ => ⟨by simp [hfh], rfl⟩)
      fun _ _ cache _ => ?_)
    cases cache with
    | none => exact .none hrefl rfl
    | some _ =>
      refine .bind (askManager_does h rfl hneeds (fun _ => ⟨by simp [hfh], rfl⟩) fun _ _ _ _ => ?_)
      exact finishWrite_conducts (hrefl.dropFilehandleFromCache _) _ _

lemma writeStable_conducts (h : Ready S law crash K (.opwrite args) req)
    (hfh : req.filehandle = some fh) (hneeds : needsManager S (.opwrite args) req = true) :
    Conducts law crash K (.opwrite args) req (writeStable args fh req) := by
  have hrefl := Stays.refl h.current
  unfold writeStable
  refine .bind (writeThrough_does h hfh hneeds fun written => ?_)
  cases written with
  | none => exact .none hrefl rfl
  | some count =>
    dsimp only
    split_ifs
    · refine .bind (askManager_does h rfl hneeds nofun fun _ _ _ _ => ?_)
      exact finishWrite_conducts hrefl _ _
    · exact finishWrite_conducts hrefl _ _

/-- WRITE, once the quota is known. -/
lemma write_conducts_of_allowed (h : Ready S law crash K (.opwrite args) req)
    (hfh : req.filehandle = some fh) (allowed : Bool) : Conducts law crash K (.opwrite args) req
      (if allowed = false then pure (.none req .nfs4errDquot)
      else
        match args.stable with
        | .unstable4 => writeCached args fh req
        | .dataSync4 | .fileSync4 => writeStable args fh req) := by
  split
  · exact .none (Stays.refl h.current) rfl
  · cases hstable : args.stable with
    | unstable4 => exact writeCached_conducts h hfh hstable
    | dataSync4 => exact writeStable_conducts h hfh (by simp [needsManager, hfh, hstable])
    | fileSync4 => exact writeStable_conducts h hfh (by simp [needsManager, hfh, hstable])

lemma write_conducts (h : Ready S law crash K (.opwrite args) req) :
    Conducts law crash K (.opwrite args) req (write args req) := by
  unfold write
  cases hfh : req.filehandle with
  | none => exact .none (Stays.refl h.current) rfl
  | some fh =>
    dsimp only
    split
    · exact write_conducts_of_allowed h hfh true
    · exact .bind (quotaAllows_does (write_conducts_of_allowed h hfh))

end Write

lemma commit_conducts {args : Commit4args} (h : Ready S law crash K (.opcommit args) req) :
    Conducts law crash K (.opcommit args) req (commit req) := by
  have hrefl := Stays.refl h.current
  unfold commit
  cases hfh : req.filehandle with
  | none => exact .none hrefl rfl
  | some fh =>
    have hneeds : needsManager S (.opcommit args) req = true := by simp [needsManager, hfh]
    refine .bind (askManager_does h rfl hneeds (fun _ => ⟨by simp [hfh], rfl⟩)
      fun _ _ cache _ => ?_)
    cases cache with
    | none => exact .none hrefl rfl
    | some _ =>
      refine .bind (askManager_does h rfl hneeds nofun fun _ _ _ _ => ?_)
      refine .bind (askManager_does h rfl hneeds nofun fun _ _ _ _ => ?_)
      exact .some (hrefl.dropFilehandleFromCache _) rfl ⟨rfl, rfl⟩

lemma writeZeros_does {args : Allocate4args} {fh : Handle} (hfh : req.filehandle = some fh)
    {post : Option Unit → Prop} (hpost : ∀ a, post a) (chunks : List ℕ) :
    (writeZeros fh chunks).Does law (Asks (.opallocate args) req) crash post := by
  induction chunks with
  | nil => exact hpost _
  | cons n rest ih =>
    unfold writeZeros
    refine .bind (ask_does hfh (fun _ => rfl) fun done _ => ?_)
    cases done with
    | none => exact hpost _
    | some _ => exact ih

lemma allocate_conducts {args : Allocate4args} (h : Ready S law crash K (.opallocate args) req) :
    Conducts law crash K (.opallocate args) req (allocate args req) := by
  have hrefl := Stays.refl h.current
  unfold allocate
  dsimp only
  cases hfh : req.filehandle with
  | none => exact .some hrefl rfl ⟨rfl, rfl⟩
  | some fh =>
    refine .bind (quotaAllows_does fun allowed => ?_)
    split
    · exact .some hrefl rfl ⟨rfl, rfl⟩
    · refine .bind (ask_does hfh nofun fun opened _ => ?_)
      cases opened with
      | none => exact .some hrefl rfl ⟨rfl, rfl⟩
      | some _ =>
        refine .bind (ask_does hfh nofun fun size _ => ?_)
        cases size with
        | none => exact .some hrefl rfl ⟨rfl, rfl⟩
        | some size =>
          dsimp only
          split_ifs with hover hgrow
          · exact h.overflow args rfl hover
          · refine .bind (writeZeros_does hfh (fun done => ?_) _)
            cases done with
            | none => exact .some hrefl rfl ⟨rfl, rfl⟩
            | some _ => exact .bind (recordWrite_does hrefl (Conducts.some hrefl rfl ⟨rfl, rfl⟩))
          · exact .some hrefl rfl ⟨rfl, rfl⟩

section Copy

variable {args : Copy4args} {src dst : Handle}

lemma copyLoop_does (hdst : req.filehandle = some dst) (hsrc : req.savedFilehandle = some src)
    {post : Option ℕ → Prop} (hpost : ∀ a, post a) (count copied : ℕ) :
    (copyLoop src dst count copied).Does law (Asks (.opcopy args) req) crash post := by
  -- The loop goes on only after something was read, which brings `copied` closer to `count`.
  induction hn : count - copied using Nat.strong_induction_on generalizing copied with
  | _ n ih =>
    unfold copyLoop
    split_ifs with hlt
    · refine .bind (ask_saved_does hdst hsrc nofun fun data _ => ?_)
      cases data with
      | none => exact hpost _
      | some data =>
        dsimp only
        split_ifs with hdata
        · exact hpost _
        · refine .bind (ask_does hdst (fun _ => rfl) fun done _ => ?_)
          cases done with
          | none => exact hpost _
          | some _ =>
            have hlen : 0 < data.length := List.length_pos_iff.2 hdata
            exact ih (count - (copied + data.length)) (by omega) _ rfl
    · exact hpost _

lemma copyBytes_conducts (h : Ready S law crash K (.opcopy args) req)
    (hdst : req.filehandle = some dst) (hsrc : req.savedFilehandle = some src) (count : ℕ) :
    Conducts law crash K (.opcopy args) req (copyBytes args src dst count req) := by
  have hrefl := Stays.refl h.current
  unfold copyBytes
  refine .bind (ask_saved_does hdst hsrc nofun fun sought _ => ?_)
  cases sought with
  | none => exact .none hrefl rfl
  | some _ =>
    refine .bind (ask_does hdst nofun fun opened _ => ?_)
    cases opened with
    | none => exact .none hrefl rfl
    | some _ =>
      refine .bind (ask_does hdst nofun fun sought _ => ?_)
      cases sought with
      | none => exact .none hrefl rfl
      | some _ =>
        refine .bind (copyLoop_does hdst hsrc (fun copied => ?_) _ _)
        cases copied with
        | none => exact .none hrefl rfl
        | some n =>
          refine .bind (ask_does hdst nofun fun flushed _ => ?_)
          cases flushed with
          | none => exact .none hrefl rfl
          | some _ => exact .bind (recordWrite_does hrefl (Conducts.some hrefl rfl ⟨rfl, rfl⟩))

lemma copy_conducts (h : Ready S law crash K (.opcopy args) req) :
    Conducts law crash K (.opcopy args) req (copy args req) := by
  have hrefl := Stays.refl h.current
  unfold copy
  cases hdst : req.filehandle with
  | none => exact .none hrefl rfl
  | some dst =>
    cases hsrc : req.savedFilehandle with
    | none => exact .none hrefl rfl
    | some src =>
      refine .bind (quotaAllows_does fun allowed => ?_)
      split
      · exact .none hrefl rfl
      · refine .bind (ask_saved_does hdst hsrc nofun fun opened _ => ?_)
        cases opened with
        | none => exact .none hrefl rfl
        | some _ =>
          refine .bind (fileSize_does
            (fun hpost => ask_saved_does hdst hsrc nofun fun a _ => hpost a) fun size => ?_)
          dsimp only
          generalize (if args.caCount = 0 then _ else _) = count
          split
          · exact .some hrefl rfl ⟨rfl, rfl⟩
          · exact copyBytes_conducts h hdst hsrc _

end Copy

lemma seek_conducts {args : Seek4args} (h : Ready S law crash K (.opseek args) req) :
    Conducts law crash K (.opseek args) req (seek args req) := by
  have hrefl := Stays.refl h.current
  unfold seek
  cases hfh : req.filehandle with
  | none => exact .none hrefl rfl
  | some fh =>
    refine .bind (ask_does hfh nofun fun opened _ => ?_)
    cases opened with
    | none => exact .none hrefl rfl
    | some _ =>
      refine .bind (fileSize_does (fun hpost => ask_does hfh nofun fun a _ => hpost a)
        fun size => ?_)
      split_ifs
      · exact .some hrefl rfl ⟨rfl, rfl⟩
      · cases args.saWhat with
        | data => exact .some hrefl rfl ⟨rfl, rfl⟩
        | hole => exact .some hrefl rfl ⟨rfl, rfl⟩

/-! ### Locks and delegations -/

lemma lock_conducts {args : Lock4args} (h : Ready S law crash K (.oplock args) req) :
    Conducts law crash K (.oplock args) req (lock args req) := by
  have hrefl := Stays.refl h.current
  unfold lock
  cases hfh : req.filehandle with
  | none => exact .none hrefl rfl
  | some fh =>
    have hneeds : needsManager S (.oplock args) req = true := by simp [needsManager, hfh]
    refine .bind (askManager_does h rfl hneeds nofun fun _ _ result _ => ?_)
    obtain ⟨result, hresult⟩ := result
    cases result with
    | ok stateid => exact .some hrefl rfl ⟨rfl, rfl⟩
    | denied offset length lockType clientid owner => exact .some hrefl rfl ⟨rfl, rfl⟩
    | error status =>
      have hok : status ≠ .nfs4Ok := fun hs => hresult.1 (by rw [hs])
      have hdenied : status ≠ .nfs4errDenied := fun hs => hresult.2 (by rw [hs])
      exact .none hrefl (by simp [silent, LockResult.response, hok, hdenied])

lemma lockt_conducts {args : Lockt4args} (h : Ready S law crash K (.oplockt args) req) :
    Conducts law crash K (.oplockt args) req (lockt args req) := by
  have hrefl := Stays.refl h.current
  unfold lockt
  cases hfh : req.filehandle with
  | none => exact .none hrefl (by simp [hfh])
  | some fh =>
    have hsilent : ∀ status, silent (.oplockt args) req status = false := by simp [hfh]
    have hneeds : needsManager S (.oplockt args) req = true := by simp [needsManager, hfh]
    refine .bind (askManager_does h rfl hneeds nofun fun _ _ result _ => ?_)
    cases result with
    | ok => exact .some hrefl (hsilent _) ⟨rfl, .inl rfl⟩
    | denied offset length lockType clientid owner =>
      exact .some hrefl (hsilent _) ⟨rfl, .inr rfl⟩

lemma locku_conducts {args : Locku4args} (h : Ready S law crash K (.oplocku args) req) :
    Conducts law crash K (.oplocku args) req (locku args req) := by
  have hrefl := Stays.refl h.current
  have hneeds : needsManager S (.oplocku args) req = true := by
    cases hfh : req.filehandle <;> simp [needsManager, hfh, ignoresFilehandle]
  unfold locku
  refine .bind (askManager_does h rfl hneeds nofun fun _ _ result _ => ?_)
  obtain ⟨result, hresult⟩ := result
  cases result with
  | ok stateid => exact .some hrefl rfl ⟨rfl, rfl⟩
  | error status =>
    have hstatus : status ≠ .nfs4Ok := fun hs => hresult (by rw [hs])
    exact .none hrefl (by simpa [silent] using hstatus)

lemma releaseLockowner_conducts {args : ReleaseLockowner4args}
    (h : Ready S law crash K (.opreleaseLockOwner args) req) :
    Conducts law crash K (.opreleaseLockOwner args) req (releaseLockowner args req) := by
  have hneeds : needsManager S (.opreleaseLockOwner args) req = true := by
    cases hfh : req.filehandle <;> simp [needsManager, hfh, ignoresFilehandle]
  unfold releaseLockowner
  refine .bind (askManager_does h rfl hneeds nofun fun _ _ status _ => ?_)
  exact .some (.refl h.current) rfl ⟨rfl, rfl⟩

lemma delegreturn_conducts {args : DelegReturn4args}
    (h : Ready S law crash K (.opdelegreturn args) req) :
    Conducts law crash K (.opdelegreturn args) req (delegreturn args req) := by
  have hrefl := Stays.refl h.current
  unfold delegreturn
  cases hfh : req.filehandle with
  | none => exact .some hrefl rfl ⟨rfl, rfl⟩
  | some fh =>
    have hneeds : needsManager S (.opdelegreturn args) req = true := by simp [needsManager, hfh]
    refine .bind (askManager_does h rfl hneeds nofun fun _ _ status _ => ?_)
    exact .some hrefl rfl ⟨rfl, rfl⟩

/-! ### Clients and sessions -/

lemma setclientid_conducts {args : SetClientId4args}
    (h : Ready S law crash K (.opsetclientid args) req) :
    Conducts law crash K (.opsetclientid args) req (setclientid args req) := by
  have hrefl := Stays.refl h.current
  unfold setclientid
  refine .bind (query_does trivial fun res _ => ?_)
  cases res with
  | error e => exact .none hrefl (by simp [silent, e.2])
  | ok client => exact .some hrefl rfl ⟨rfl, rfl⟩

lemma setclientidConfirm_conducts {args : SetClientIdConfirm4args}
    (h : Ready S law crash K (.opsetclientidConfirm args) req) :
    Conducts law crash K (.opsetclientidConfirm args) req (setclientidConfirm args req) := by
  have hrefl := Stays.refl h.current
  unfold setclientidConfirm
  refine .bind (query_does trivial fun res _ => ?_)
  cases res with
  | error e => exact .none hrefl (by simp [silent, e.2])
  | ok _ => exact .some hrefl rfl ⟨rfl, rfl⟩

lemma renew_conducts {args : Renew4args} (h : Ready S law crash K (.oprenew args) req) :
    Conducts law crash K (.oprenew args) req (renew args req) := by
  have hrefl := Stays.refl h.current
  unfold renew
  refine .bind (query_does trivial fun res _ => ?_)
  cases res with
  | error e => exact .some hrefl rfl ⟨rfl, rfl⟩
  | ok _ => exact .some hrefl rfl ⟨rfl, rfl⟩

lemma bindConnToSession_conducts {args : BindConnToSession4args}
    (h : Ready S law crash K (.opbindConnToSession args) req) :
    Conducts law crash K (.opbindConnToSession args) req (bindConnToSession args req) := by
  have hrefl := Stays.refl h.current
  unfold bindConnToSession
  split
  · exact .none hrefl rfl
  · refine .bind (query_does trivial fun session _ => ?_)
    cases session with
    | none => exact .none hrefl rfl
    | some session => exact .bind (query_does trivial fun _ _ => .some hrefl rfl ⟨rfl, rfl⟩)

lemma exchangeId_conducts {args : ExchangeId4args}
    (h : Ready S law crash K (.opexchangeId args) req) :
    Conducts law crash K (.opexchangeId args) req (exchangeId req) := by
  have hrefl := Stays.refl h.current
  unfold exchangeId
  split
  · exact .none hrefl rfl
  · exact .bind (query_does trivial fun clientid _ => .some hrefl rfl ⟨rfl, rfl⟩)

lemma createSession_conducts {args : CreateSession4args}
    (h : Ready S law crash K (.opcreateSession args) req) :
    Conducts law crash K (.opcreateSession args) req (createSession args req) := by
  have hrefl := Stays.refl h.current
  unfold createSession
  split
  · exact .none hrefl rfl
  · refine .bind (query_does ⟨args, rfl, rfl, rfl⟩ fun session _ => ?_)
    exact .some ⟨rfl, hrefl.filehandle, .inl rfl, hrefl.cache⟩ rfl ⟨rfl, rfl⟩

lemma sequence_conducts {args : Sequence4args} (h : Ready S law crash K (.opsequence args) req) :
    Conducts law crash K (.opsequence args) req (sequence args req) := by
  have hrefl := Stays.refl h.current
  unfold sequence
  split
  · exact .none hrefl rfl
  · refine .bind (query_does trivial fun session hsession => ?_)
    cases session with
    | none => exact .none hrefl rfl
    | some session =>
      dsimp only
      split_ifs with hslots hslot
      · exact h.slots _ session hsession hslots
      · exact .none hrefl rfl
      · exact .some ⟨rfl, hrefl.filehandle, .inl rfl, hrefl.cache⟩ rfl ⟨rfl, rfl⟩

lemma destroySession_conducts {args : DestroySession4args}
    (h : Ready S law crash K (.opdestroySession args) req) :
    Conducts law crash K (.opdestroySession args) req (destroySession args req) := by
  have hrefl := Stays.refl h.current
  unfold destroySession
  dsimp only
  split
  · exact .some hrefl rfl ⟨rfl, rfl⟩
  · exact .bind (query_does trivial fun destroyed _ => .some hrefl rfl ⟨rfl, rfl⟩)

lemma destroyClientid_conducts {args : DestroyClientId4args}
    (h : Ready S law crash K (.opdestroyClientid args) req) :
    Conducts law crash K (.opdestroyClientid args) req (destroyClientid args req) := by
  have hrefl := Stays.refl h.current
  unfold destroyClientid
  dsimp only
  split
  · exact .some hrefl rfl ⟨rfl, rfl⟩
  · exact .bind (query_does trivial fun _ _ => .some hrefl rfl ⟨rfl, rfl⟩)

/-! ### The operations that stay on their export -/

/-- The operations that stay on the export of the request. -/
def stationary (arg : NfsArgOp) (req : Request) : Bool :=
  match arg with
  | .opputfh _ | .opputrootfh | .opputpubfh | .oprestorefh | .oplookupp | .opsetattr _ => false
  | .oplookup _ => !req.isPseudoRoot
  | _ => true

/-- What an operation does that stays on the export of the request. -/
theorem execute_conducts {arg : NfsArgOp} (h : Ready S law crash K arg req)
    (hstationary : stationary arg req = true) :
    Conducts law crash K arg req (execute S arg req) := by
  have hrefl := Stays.refl h.current
  cases arg with
  | opputfh | opputrootfh | opputpubfh | oprestorefh | oplookupp | opsetattr => cases hstationary
  | opUndef0 | opUndef1 | opUndef2 => exact .none hrefl rfl
  | opdelegpurge | opreclaimComplete | opfreeStateid | optestStateid | opgetdeviceInfo
  | opgetdeviceList | oplayoutCommit | oplayoutGet | oplayoutReturn =>
    exact .some hrefl rfl ⟨rfl, rfl⟩
  | opgetfh => exact getCurrentFilehandle_conducts h
  | opsavefh => exact saveFilehandle_conducts h
  | oplookup args => exact lookup_conducts h (by simpa [stationary] using hstationary)
  | opsetclientid args => exact setclientid_conducts h
  | opsetclientidConfirm args => exact setclientidConfirm_conducts h
  | oprenew args => exact renew_conducts h
  | opreaddir args => exact readdir_conducts h
  | opAccess args => exact access_conducts h
  | opgetattr args => exact getattr_conducts h
  | opopen args => exact open_conducts h
  | opopenConfirm args => exact openConfirm_conducts h
  | opclose args => exact close_conducts h
  | opread args => exact read_conducts h
  | opwrite args => exact write_conducts h
  | opcommit args => exact commit_conducts h
  | opcreate args => exact create_conducts h
  | opremove args => exact remove_conducts h
  | oprename args => exact rename_conducts h
  | opreadlink => exact readlink_conducts h
  | opdelegreturn args => exact delegreturn_conducts h
  | oplink args => exact link_conducts h
  | oplock args => exact lock_conducts h
  | oplockt args => exact lockt_conducts h
  | oplocku args => exact locku_conducts h
  | opreleaseLockOwner args => exact releaseLockowner_conducts h
  | opnverify args => exact nverify_conducts h
  | opverify args => exact verify_conducts h
  | opopenattr args => exact openattr_conducts h
  | opopenDowngrade args => exact openDowngrade_conducts h
  | opSecinfo args => exact secinfo_conducts h
  | opexchangeId args => exact exchangeId_conducts h
  | opcreateSession args => exact createSession_conducts h
  | opsequence args => exact sequence_conducts h
  | opdestroySession args => exact destroySession_conducts h
  | opdestroyClientid args => exact destroyClientid_conducts h
  | opbindConnToSession args => exact bindConnToSession_conducts h
  | opsecinfoNoName args => exact secinfoNoName_conducts h
  | opallocate args => exact allocate_conducts h
  | opcopy args => exact copy_conducts h
  | opseek args => exact seek_conducts h

end NextNfs.Dispatcher
