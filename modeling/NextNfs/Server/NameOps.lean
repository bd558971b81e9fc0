import NextNfs.Server.Context

set_option relaxedAutoImplicit false
set_option autoImplicit false

/-!
# Operations on filehandles and names

This module models the operations of a compound that move the current filehandle or work on the
names of a directory, for a server with several exports: `nfs40.rs` and the modules
`op_putfh.rs`, `op_lookup.rs`, `op_readdir.rs`, `op_create.rs`, `op_link.rs`, `op_remove.rs`,
`op_rename.rs`, `op_readlink.rs`, `op_open.rs`, `op_openattr.rs`, `op_openconfirm.rs`,
`op_open_downgrade.rs`, `op_close.rs`, `op_secinfo.rs` and `op_secinfo_no_name.rs`.

## Main definitions

* `NextNfs.Dispatcher.putfh`, `NextNfs.Dispatcher.lookup`, `NextNfs.Dispatcher.open_` and their
  siblings — the operations.
-/

namespace NextNfs.Dispatcher

open Wire Dialogue

variable (S : Server)

/-! ### The current filehandle -/

/-- The id of the root that lists the exports: `pseudo_root_fh`. -/
def pseudoRootFh : NfsFh4 := ⟨[0x02, pseudoRootExportId] ++ List.replicate 24 0, rfl⟩

/-- `Filehandle::pseudo_root`, in a file system of its own. -/
def pseudoRootHandle (now : ℕ) (id : NfsFh4) : Handle :=
  { Filehandle.pseudoRoot now id with vfs := none, writeCache := false }

/-- Put a request on the root that lists the exports. -/
def enterPseudoRoot (id : NfsFh4) (req : Request) : Op Request := do
  let req ← req.setExport S pseudoRootExportId
  let now : ℕ ← query .now
  pure (req.setFilehandle (pseudoRootHandle now id))

/-- PUTROOTFH and PUTPUBFH: `put_root_filehandle`. With one export its root is the root. -/
def putRootFilehandle (req : Request) : Op Response := do
  let exports : List UInt8 ← query .listExports
  match exports with
  | [e] =>
    let req ← req.setExport S e
    if req.checkClientAccess S = false then pure (.none req .nfs4errAccess)
    else
      let root : Except Failure Handle ← req.askManager .getRootFilehandle
      match root with
      | .ok fh =>
        let (req, _) ← req.setFilehandleId S fh.id
        pure (.some req (.opputrootfh ⟨.nfs4Ok⟩) .nfs4Ok)
      | .error _ => pure (.none req .nfs4errServerfault)
  | _ =>
    let req ← enterPseudoRoot S pseudoRootFh req
    pure (.some req (.opputrootfh ⟨.nfs4Ok⟩) .nfs4Ok)

/-- PUTFH: `PutFh4args::execute`. -/
def putfh (args : PutFh4args) (req : Request) : Op Response :=
  let answer := fun (req : Request) (status : NfsStat4) => Response.some req (.opputfh ⟨status⟩) status
  if isPseudoRootFh args.object then do
    let req ← enterPseudoRoot S args.object req
    pure (answer req .nfs4Ok)
  else do
    let req ← req.switchExport S args.object
    if req.checkClientAccess S = false then pure (answer req .nfs4errAccess)
    else
      let (req, cached) ← req.getFilehandleFromCache args.object
      match cached with
      | some fh => pure (answer (req.setFilehandle fh) .nfs4Ok)
      | none =>
        let (req, res) ← req.setFilehandleId S args.object
        match res with
        | .ok fh =>
          let req ← req.cacheFilehandle fh
          pure (answer req .nfs4Ok)
        | .error e => pure (answer req e.1)

/-- GETFH: `get_current_filehandle`. -/
def getCurrentFilehandle (req : Request) : Op Response :=
  match req.filehandle with
  | some fh => .pure (.some req (.opgetfh (.resok4 ⟨fh.id⟩)) .nfs4Ok)
  | none => .pure (.none req .nfs4errNofilehandle)

/-- SAVEFH: `save_filehandle`. -/
def saveFilehandle (req : Request) : Op Response :=
  match req.filehandle with
  | some _ => .pure (.some req.saveFilehandle (.opsavefh ⟨.nfs4Ok⟩) .nfs4Ok)
  | none => .pure (.some req (.opsavefh ⟨.nfs4errNofilehandle⟩) .nfs4errNofilehandle)

/-- RESTOREFH: `restore_filehandle`. -/
def restoreFilehandle (req : Request) : Op Response :=
  match req.savedFilehandle with
  | some saved => do
    let req ← req.restoreFilehandle S saved
    pure (.some req (.oprestorefh ⟨.nfs4Ok⟩) .nfs4Ok)
  | none => .pure (.some req (.oprestorefh ⟨.nfs4errRestorefh⟩) .nfs4errRestorefh)

/-! ### Directories -/

/-- LOOKUP at the root that lists the exports: enter the export with the name. -/
def lookupExport (args : Lookup4args) (req : Request) : Op Response := do
  let answer := fun (req : Request) (status : NfsStat4) => Response.some req (.oplookup ⟨status⟩) status
  let found : Option UInt8 ← query (.getExportByName args.objname)
  match found with
  | none => pure (answer req .nfs4errNoent)
  | some e =>
    let req ← req.setExport S e
    if req.checkClientAccess S = false then pure (answer req .nfs4errAccess)
    else
      let root : Except Failure Handle ← req.askManager .getRootFilehandle
      match root with
      | .ok fh =>
        -- `stamp_export_id` writes the number of the export into the id.
        let id : NfsFh4 := ⟨fh.id.head :: e :: fh.id.toList.drop 2, by simp⟩
        pure (answer (req.setFilehandle { fh with id := id }) .nfs4Ok)
      | .error _ => pure (answer req .nfs4errServerfault)

/-- LOOKUP: `Lookup4args::execute`. -/
def lookup (args : Lookup4args) (req : Request) : Op Response :=
  if req.isPseudoRoot then lookupExport S args req
  else
    match req.filehandle with
    | none => .pure (.none req .nfs4errFhexpired)
    | some fh => do
      let found : Except Failure Handle ←
        req.askManager (.getFilehandleForPath (fh.childPath args.objname))
      match found with
      | .ok fh => pure (.some (req.setFilehandle fh) (.oplookup ⟨.nfs4Ok⟩) .nfs4Ok)
      | .error e => pure (.some req.unsetFilehandle (.oplookup ⟨e.1⟩) e.1)

/-- LOOKUPP: `lookup_parent`. The parent of the root of an export is the root that lists the
exports, if there are several. -/
def lookupParent (req : Request) : Op Response :=
  let answer := fun (req : Request) (status : NfsStat4) => Response.some req (.oplookupp ⟨status⟩) status
  if req.isPseudoRoot then .pure (answer req .nfs4errNoent)
  else
    match req.filehandle with
    | none => .pure (answer req .nfs4errNofilehandle)
    | some fh => do
      let exports : List UInt8 ←
        if fh.path = "/" then (query .listExports : Op (List UInt8)) else pure []
      if exports.length > 1 then
        let req ← enterPseudoRoot S pseudoRootFh req
        pure (answer req .nfs4Ok)
      else
        let found : Except Failure Handle ←
          req.askManager (.getFilehandleForPath (pathStr fh.file.parent))
        match found with
        | .ok fh => pure (answer (req.setFilehandle fh) .nfs4Ok)
        | .error _ => pure (answer req .nfs4errNoent)

/-- `pseudo_readdir`: the exports that the client is let into, after the cookie. -/
def pseudoReaddir (args : Readdir4args) (req : Request) (exports : List UInt8) :
    List (UInt64 × UInt8) :=
  (exports.zipIdx.map fun (e, i) => (UInt64.ofNat (i + 3), e)).filter fun (cookie, e) =>
    args.cookie < cookie && (S.exports e).accessControl.checkClient req.clientAddr

/-- The entries of a directory listing, linked from the first to the last. -/
def linkEntries : List (UInt64 × String × Fattr4) → Option Entry4
  | [] => none
  | (cookie, name, attrs) :: rest => some (.mk cookie name attrs (linkEntries rest))

/-- What is collected along a linked list of entries is what is taken of each. -/
lemma collect_linkEntries {α : Type} {collect : Entry4 → List α}
    {f : UInt64 × String × Fattr4 → α}
    (hlast : ∀ cookie name attrs, collect (.mk cookie name attrs none) = [f (cookie, name, attrs)])
    (hmore : ∀ cookie name attrs next,
      collect (.mk cookie name attrs (some next)) = f (cookie, name, attrs) :: collect next)
    (es : List (UInt64 × String × Fattr4)) :
    ((linkEntries es).map collect).getD [] = es.map f := by
  induction es with
  | nil => rfl
  | cons e es ih =>
    obtain ⟨cookie, name, attrs⟩ := e
    cases hes : linkEntries es with
    | none =>
      rw [hes] at ih
      simpa [linkEntries, hes, hlast] using ih
    | some next =>
      rw [hes] at ih
      simpa [linkEntries, hes, hmore] using ih

/-- `filename`: the last component of a path. -/
def filename (p : VfsPath) : String := p.components.getLast?.getD ""

/-- What READDIR has gone through: the entries so far, the two counts, the names and the
filehandles with their cookies. -/
structure Listing where
  entryIdx : ℕ
  dircountActual : ℕ
  maxcountActual : ℕ
  fnames : List String
  filehandles : List (ℕ × Handle)

/-- READDIR: one entry of the directory. The store of named attributes and the names of removed
files are hidden. -/
def listEntry (args : Readdir4args) (req : Request) (entry : VfsPath) (l : Listing) :
    Op (Option Listing) :=
  let name := filename entry
  if name = ".nfs4attrs" ∨ name.startsWith ".nfs." then .pure (some l)
  else
    let l := { l with fnames := l.fnames ++ [name] }
    if l.entryIdx + 2 ≥ args.cookie.toNat then
      let l := { l with
        dircountActual := l.dircountActual + 8 + name.utf8ByteSize + 5
        maxcountActual := l.maxcountActual + 200 }
      if args.dircount = 0 ∨
          (args.dircount.toNat > l.dircountActual ∧ args.maxcount.toNat > l.maxcountActual) then do
        let found : Except Failure Handle ← req.askManager (.getFilehandleForPath entry.toStr)
        match found with
        | .error _ => pure none
        | .ok fh =>
          pure (some { l with
            filehandles := l.filehandles ++ [(l.entryIdx + 3, fh)], entryIdx := l.entryIdx + 1 })
      else .pure (some { l with entryIdx := l.entryIdx + 1 })
    else .pure (some { l with entryIdx := l.entryIdx + 1 })

/-- READDIR: the entries of the directory, one after another. -/
def listEntries (args : Readdir4args) (req : Request) :
    List VfsPath → Listing → Op (Option Listing)
  | [], l => .pure (some l)
  | entry :: rest, l => do
    let step ← listEntry args req entry l
    match step with
    | none => pure none
    | some l => listEntries args req rest l

/-- READDIR: the verifier of a directory, bytes picked from its names. -/
def cookieVerifier (fnames : List String) : Bytes :=
  let seed := (String.join fnames).toUTF8.toList
  let step := seed.length / 8 + 1
  (List.range ((seed.length + step - 1) / step)).filterMap fun i => seed[i * step]?

/-- READDIR: the attributes of the entries, from the last to the first. -/
def entryAttrs (args : Readdir4args) (req : Request) :
    List (ℕ × Handle) → Op (Option (List (UInt64 × String × Fattr4)))
  | [] => .pure (some [])
  | (cookie, fh) :: rest => do
    let later ← entryAttrs args req rest
    match later with
    | none => pure none
    | some entries =>
      let attrs : Option Fattr4 ← req.askManager (.filehandleAttrs args.attrRequest fh.toFilehandle)
      match attrs with
      | none => pure none
      | some attrs => pure (some ((UInt64.ofNat cookie, filename fh.file, attrs) :: entries))

/-- READDIR: a verifier of eight bytes. -/
def paddedVerifier (verf : Bytes) : List.Vector UInt8 8 :=
  ⟨(verf ++ List.replicate 8 0).take 8, by simp⟩

/-- READDIR after the entries have been gone through. -/
def finishReaddir (args : Readdir4args) (req : Request) (l : Listing) : Op Response :=
  let verf := cookieVerifier l.fnames
  if args.cookie ≠ 0 ∧ verf ≠ args.cookieverf.toList then .pure (.none req .nfs4errNotSame)
  else do
    let entries ← entryAttrs args req l.filehandles
    match entries with
    | none => pure (.none req .nfs4errServerfault)
    | some entries =>
      let eof := match entries.head? with
        | some (cookie, _) =>
          decide (cookie.toNat + entries.length - 1 ≥ l.fnames.length + 2)
        | none => true
      pure (.some req (.opreaddir (.resok4
        ⟨paddedVerifier verf, ⟨linkEntries entries, eof⟩⟩)) .nfs4Ok)

/-- READDIR: `Readdir4args::execute`. -/
def readdir (args : Readdir4args) (req : Request) : Op Response :=
  if req.isPseudoRoot then do
    let exports : List UInt8 ← query .listExports
    let entries := (pseudoReaddir S args req exports).map fun (cookie, e) =>
      (cookie, (S.exports e).name, S.exportEntryAttrs args.attrRequest e)
    pure (.some req (.opreaddir (.resok4
      ⟨List.Vector.replicate 8 0, ⟨linkEntries entries, true⟩⟩)) .nfs4Ok)
  else
    match req.filehandle with
    | none => .pure (.none req .nfs4errFhexpired)
    | some fh => do
      let dir : Option (List VfsPath) ← ask fh.vfs (.readDir fh.file)
      match dir with
      | none => pure (.none req .nfs4errIo)
      | some entries =>
        let listing ← listEntries args req entries ⟨0, 0, 128, [], []⟩
        match listing with
        | none => pure (.none req .nfs4errFhexpired)
        | some l => finishReaddir args req l

/-- SECINFO: `SecInfo4args::execute`. -/
def secinfo (args : SecInfo4args) (req : Request) : Op Response :=
  match req.filehandle with
  | none => .pure (.none req .nfs4errNofilehandle)
  | some fh => do
    let dir : Bool ← ask fh.vfs (.isDir fh.file)
    if dir = false then pure (.none req .nfs4errNotdir)
    else
      let flavors ← req.secinfoFlavors S (some args.name)
      pure (.some req (.opSecinfo (.resok4 flavors)) .nfs4Ok)

/-- SECINFO_NO_NAME: `SecinfoNoName4args::execute`. -/
def secinfoNoName (req : Request) : Op Response := do
  let flavors ← req.secinfoFlavors S none
  pure (.some req (.opsecinfoNoName (.resok4 flavors)) .nfs4Ok)

/-! ### Names -/

/-- CREATE after the object is made: touch the directory, and go on to the new object. -/
def finishCreate (fh : Handle) (dir newPath : VfsPath) (before : UInt64) (req : Request) :
    Op Response := do
  let _ : Unit ← req.askManager (.touchFile fh.id)
  let after : UInt64 ← req.askManager (.dirChangeAttr dir.toStr)
  let found : Except Failure Handle ← req.askManager (.getFilehandleForPath newPath.toStr)
  match found with
  | .error e => pure (.none req.unsetFilehandle e.1)
  | .ok newFh =>
    pure (.some (req.setFilehandle newFh) (.opcreate (.resok4 ⟨⟨false, before, after⟩, []⟩)) .nfs4Ok)

/-- The directory CREATE works in: the current filehandle, or its parent if it is a file. -/
def createDirectory (fh : Handle) : Op VfsPath := do
  let file : Bool ← ask fh.vfs (.isFile fh.file)
  pure (if file then fh.file.parent else fh.file)

/-- CREATE of a symbolic link. -/
def createSymlink (args : Create4args) (linkdata : String) (fh : Handle) (req : Request) :
    Op Response := do
  let dir ← createDirectory fh
  match S.join dir args.objname with
  | none => pure (.none req .nfs4errInval)
  | some p =>
    let _ ← req.fileManager
    let before : UInt64 ← req.askManager (.dirChangeAttr dir.toStr)
    let made : Except IoError Unit ← req.askManager (.osSymlink linkdata p.toStr)
    match made with
    | .error e => pure (.none req e.toStatus)
    | .ok _ => finishCreate fh dir p before req

/-- CREATE of a directory. One that cannot be created is looked up all the same. -/
def createDirectoryObject (args : Create4args) (fh : Handle) (req : Request) : Op Response := do
  let dir ← createDirectory fh
  match S.join dir args.objname with
  | none => pure (.none req .nfs4errInval)
  | some p =>
    let before : UInt64 ← req.askManager (.dirChangeAttr dir.toStr)
    let _ : Option Unit ← ask fh.vfs (.createDir p)
    finishCreate fh dir p before req

/-- `check_write` of the quota manager of the request, if it has one. -/
def quotaAllows (req : Request) (bytes : UInt64) : Op Bool :=
  match req.quotaManager with
  | none => .pure true
  | some e => query (.checkWrite e bytes)

/-- CREATE: `Create4args::execute`. -/
def create (args : Create4args) (req : Request) : Op Response :=
  match req.filehandle with
  | none => .pure (.none req .nfs4errFhexpired)
  | some fh =>
    if args.objname = "" then .pure (.none req .nfs4errInval)
    else do
      let allowed ← quotaAllows req 0
      if allowed = false then pure (.none req .nfs4errDquot)
      else
        match args.objtype with
        | .nf4lnk linkdata => createSymlink S args linkdata fh req
        | .nf4dir => createDirectoryObject S args fh req
        | _ => pure (.none req .nfs4errBadtype)

/-- LINK: `Link4args::execute`. -/
def link (args : Link4args) (req : Request) : Op Response :=
  match req.savedFilehandle with
  | none => .pure (.none req .nfs4errRestorefh)
  | some saved =>
    match req.filehandle with
    | none => .pure (.none req .nfs4errNofilehandle)
    | some fh =>
      match S.join fh.file args.newname with
      | none => .pure (.none req .nfs4errInval)
      | some p =>
        if saved.file = .root then .pure (.none req .nfs4errInval)
        else do
          let made : Except IoError Unit ← req.askManager (.osHardLink saved.file.toStr p.toStr)
          match made with
          | .error e => pure (.none req e.toStatus)
          | .ok _ =>
            pure (.some req (.oplink (.resok4 ⟨⟨true, fh.attrChange, fh.attrChange + 1⟩⟩)) .nfs4Ok)

/-- REMOVE: `Remove4args::execute`. -/
def remove (args : Remove4args) (req : Request) : Op Response :=
  let failed := fun (status : NfsStat4) => Response.some req (.opremove ⟨status, noChange⟩) status
  match req.filehandle with
  | none => .pure (failed .nfs4errStale)
  | some fh =>
    match S.join fh.file args.target with
    | none => .pure (failed .nfs4errInval)
    | some p => do
      let res : Except Failure DirChangeInfo ← req.askManager (.removeFile p)
      match res with
      | .ok cinfo => pure (.some req (.opremove ⟨.nfs4Ok, cinfo⟩) .nfs4Ok)
      | .error e => pure (failed e.1)

/-- The call of RENAME: on the path strings if the source exists there. -/
def renameFile (saved : Handle) (srcPath dstPath : String) (srcVfs dstVfs : VfsPath)
    (req : Request) : Op (Option Unit) := do
  let isDir : Bool ← ask saved.vfs (.isDir srcVfs)
  let there : Bool ← req.askManager (.osExists srcPath)
  if there then req.askManager (.osRename srcPath dstPath)
  else if isDir then ask saved.vfs (.moveDir srcVfs dstVfs)
  else ask saved.vfs (.moveFile srcVfs dstVfs)

/-- RENAME: `Rename4args::execute`. -/
def rename (args : Rename4args) (req : Request) : Op Response :=
  match req.savedFilehandle with
  | none =>
    .pure (.some req (.oprename (.resok4 ⟨noChange, noChange⟩)) .nfs4errNofilehandle)
  | some saved =>
    match req.filehandle with
    | none => .pure (.none req .nfs4errNofilehandle)
    | some fh =>
      let srcPath := saved.renamePath args.oldname
      let dstPath := fh.renamePath args.newname
      match S.join saved.file args.oldname with
      | none => .pure (.none req .nfs4errNoent)
      | some srcVfs => do
        let there : Bool ← ask saved.vfs (.pathExists srcVfs)
        if there = false then pure (.none req .nfs4errNoent)
        else
          match S.join fh.file args.newname with
          | none => pure (.none req .nfs4errInval)
          | some dstVfs =>
            let done ← renameFile saved srcPath dstPath srcVfs dstVfs req
            match done with
            | none => pure (.none req .nfs4errServerfault)
            | some _ =>
              let _ : Unit ← req.askManager (.renamePath srcPath dstPath dstVfs)
              let _ : Unit ← req.askManager (.touchFile saved.id)
              let _ : Unit ← req.askManager (.touchFile fh.id)
              pure (.some req (.oprename (.resok4
                ⟨⟨true, saved.attrChange, saved.attrChange + 1⟩,
                  ⟨true, fh.attrChange, fh.attrChange + 1⟩⟩)) .nfs4Ok)

/-- READLINK: `Readlink4args::execute`. -/
def readlink (req : Request) : Op Response :=
  match req.filehandle with
  | none => .pure (.none req .nfs4errNofilehandle)
  | some fh => do
    let target : Except ReadLinkError String ← req.askManager (.osReadLink fh.file.toStr)
    match target with
    | .ok link => pure (.some req (.opreadlink ⟨.nfs4Ok, link⟩) .nfs4Ok)
    | .error e =>
      let status : NfsStat4 := match e with
        | .notFound => .nfs4errNoent
        | .invalidInput => .nfs4errInval
        | .other => .nfs4errIo
      pure (.some req (.opreadlink ⟨status, ""⟩) status)

/-! ### Opens -/

/-- The answer of an OPEN that succeeds. -/
def openResok (lock : LockingState) (cinfo : ChangeInfo4) (rflags : UInt32) : NfsResOp4 :=
  .opopen (.resok4 ⟨⟨lock.seqid, lock.stateid⟩, cinfo, rflags, [], .none⟩)

/-- `open_for_reading`. -/
def openForReading (args : Open4args) (fh : Handle) (file : String) (req : Request) :
    Op Response := do
  let found : Except Failure Handle ← req.askManager (.getFilehandleForPath (fh.childPath file))
  match found with
  | .error e => pure (.none req e.1)
  | .ok fh =>
    let state : Except Failure LockingState ← req.askManager
      (.createOpenState fh.file args.owner.clientid args.owner.owner args.shareAccess args.shareDeny)
    match state with
    | .error e => pure (.none req e.1)
    | .ok lock =>
      let fh := { fh with locks := fh.locks ++ [lock] }
      let req ← req.cacheFilehandle fh
      pure (.some (req.setFilehandle fh) (openResok lock noChange OPEN4_RESULT_CONFIRM) .nfs4Ok)

/-- `open_for_writing`. The new filehandle is expected to have the share reservation as its first
lock. -/
def openForWriting (args : Open4args) (fh : Handle) (file : String) (how : CreateHow4)
    (req : Request) : Op Response := do
  let allowed ← quotaAllows req 0
  if allowed = false then pure (.none req .nfs4errDquot)
  else
    match S.join fh.file file with
    | none => pure (.none req .nfs4errInval)
    | some newfile =>
      let before : UInt64 ← req.askManager (.dirChangeAttr fh.path)
      let create := fun (verifier : Option (List.Vector UInt8 8)) => show Op Response from do
        let made : Except Failure Handle ← req.askManager (.createFile newfile args.owner.clientid
          args.owner.owner args.shareAccess args.shareDeny verifier)
        match made with
        | .error _ => pure (.none req .nfs4errServerfault)
        | .ok newFh =>
          let req ← req.cacheFilehandle newFh
          let req := req.setFilehandle newFh
          match newFh.locks with
          | [] => .panic
          | lock :: _ =>
            let after : UInt64 ← req.askManager (.dirChangeAttr fh.path)
            pure (.some req (openResok lock ⟨false, before, after⟩ OPEN4_RESULT_CONFIRM) .nfs4Ok)
      match how with
      | .unchecked4 _ => create none
      | .exclusive4 verifier => create (some verifier)
      | .guarded4 _ => pure (.none req .nfs4errNotsupp)

/-- OPEN with CLAIM_PREVIOUS: the current filehandle is the file. -/
def openPrevious (args : Open4args) (req : Request) : Op Response :=
  match req.filehandle with
  | none => .pure (.none req .nfs4errNofilehandle)
  | some fh => do
    let state : Except Failure LockingState ← req.askManager
      (.createOpenState fh.file args.owner.clientid args.owner.owner args.shareAccess args.shareDeny)
    match state with
    | .error e => pure (.none req e.1)
    | .ok lock => pure (.some req (openResok lock noChange 0) .nfs4Ok)

/-- OPEN: `Open4args::execute`. -/
def open_ (args : Open4args) (req : Request) : Op Response :=
  match args.claim with
  | .claimPrevious _ => openPrevious args req
  | claim =>
    match req.filehandle with
    | none => .pure (.none req .nfs4errFhexpired)
    | some fh => do
      let dir : Bool ← ask fh.vfs (.isDir fh.file)
      if dir = false then pure (.none req .nfs4errNotdir)
      else
        match claim with
        | .claimNull file =>
          if file = "" then pure (.none req .nfs4errInval)
          else
            match args.openhow with
            | .open4Nocreate => openForReading args fh file req
            | .how how => openForWriting S args fh file how req
        | _ => pure (.none req .nfs4errNotsupp)

/-- OPENATTR: `OpenAttr4args::execute`. -/
def openattr (args : OpenAttr4args) (req : Request) : Op Response :=
  let answer := fun (req : Request) (status : NfsStat4) =>
    Response.some req (.opopenattr ⟨status⟩) status
  match req.filehandle with
  | none => .pure (answer req .nfs4errFhexpired)
  | some fh => do
    let found : Except Failure Handle ←
      req.askManager (.openNamedAttrDir fh.attrFileid args.createdir)
    match found with
    | .ok dir => pure (answer (req.setFilehandle dir) .nfs4Ok)
    | .error e => pure (answer req e.1)

/-- OPEN_CONFIRM: `OpenConfirm4args::execute`. -/
def openConfirm (req : Request) : Op Response :=
  match req.filehandle with
  | none => .pure (.none req .nfs4errNofilehandle)
  | some fh =>
    match fh.locks with
    | [] => .pure (.none req .nfs4errBadStateid)
    | lock :: _ =>
      .pure (.some req (.opopenConfirm (.resok4 ⟨⟨lock.seqid, lock.stateid⟩⟩)) .nfs4Ok)

/-- OPEN_DOWNGRADE: `OpenDowngrade4args::execute`. -/
def openDowngrade (args : OpenDowngrade4args) (req : Request) : Op Response :=
  match req.filehandle with
  | none => .pure (.none req .nfs4errNofilehandle)
  | some fh =>
    if args.shareAccess = 0 ∨ args.shareAccess > 3 then .pure (.none req .nfs4errInval)
    else
      match fh.locks with
      | [] => .pure (.none req .nfs4errBadStateid)
      | lock :: _ =>
        .pure (.some req (.opopenDowngrade (.resok4 ⟨⟨args.seqid + 1, lock.stateid⟩⟩)) .nfs4Ok)

/-- CLOSE before the state is released: the write cache of the filehandle is flushed. -/
def flushBeforeClose (fh : Handle) (req : Request) : Op Unit :=
  if fh.writeCache then do
    let cache : Option Unit ← req.askManager (.getWriteCacheHandle fh.id)
    match cache with
    | some _ =>
      let _ : Unit ← req.askManager (.commit fh.id)
      req.askManager (.touchFile fh.id)
    | none => req.askManager (.touchFile fh.id)
  else .pure ()

/-- CLOSE: `Close4args::execute`. -/
def close (args : Close4args) (req : Request) : Op Response :=
  match req.filehandle with
  | none => .pure (.none req .nfs4errNofilehandle)
  | some fh => do
    flushBeforeClose fh req
    let _ : Unit ← req.askManager (.closeFile args.openStateid.other)
    pure (.some (req.dropFilehandleFromCache fh.id)
      (.opclose (.openStateid ⟨args.seqid, args.openStateid.other⟩)) .nfs4Ok)

end NextNfs.Dispatcher
