import NextNfs.Proto.AttrDecoding
import NextNfs.Proto.AttrEncoding
import NextNfs.Server.ExportManager
import NextNfs.Server.FileOps
import NextNfs.Server.NameOps

set_option relaxedAutoImplicit false
set_option autoImplicit false

/-!
# The attributes of objects

Three functions answer an attribute request: `filehandle_attrs` of `filemanager/handle.rs` for the
objects of an export, `pseudo_root_getattr` and `pseudo_export_entry_attrs` of `op_pseudo.rs` for
the root that lists the exports and its entries. Each goes through the request and pushes an
attribute and a value beside one another. This module models them and shows that what GETATTR and
READDIR send is consistent.

## Main definitions

* `NextNfs.Attributes.pushAnswers` — the loop of the three functions.
* `NextNfs.Attributes.filehandleAttrs`, `NextNfs.Attributes.pseudoRootGetattr`,
  `NextNfs.Attributes.pseudoExportEntryAttrs` — the functions.
* `NextNfs.Attributes.Answering` — a server that uses them.

## Main results

* `NextNfs.Attributes.attributes_consistent` — every `Fattr4` in a result of GETATTR or READDIR is
  consistent with the request.
-/

namespace NextNfs.Attributes

open Wire Dialogue Dispatcher

/-! ### Access control entries -/

/-- `ACE4_ACCESS_ALLOWED_ACE_TYPE`. -/
def ACE4_ACCESS_ALLOWED_ACE_TYPE : UInt32 := 0
/-- `ACE4_IDENTIFIER_GROUP`. -/
def ACE4_IDENTIFIER_GROUP : UInt32 := 0x40
/-- `ACE4_READ_DATA`. -/
def ACE4_READ_DATA : UInt32 := 0x1
/-- `ACE4_WRITE_DATA`. -/
def ACE4_WRITE_DATA : UInt32 := 0x2
/-- `ACE4_APPEND_DATA`. -/
def ACE4_APPEND_DATA : UInt32 := 0x4
/-- `ACE4_EXECUTE`. -/
def ACE4_EXECUTE : UInt32 := 0x20
/-- `ACE4_DELETE_CHILD`. -/
def ACE4_DELETE_CHILD : UInt32 := 0x40
/-- `ACE4_READ_ATTRIBUTES`. -/
def ACE4_READ_ATTRIBUTES : UInt32 := 0x80
/-- `ACE4_WRITE_ATTRIBUTES`. -/
def ACE4_WRITE_ATTRIBUTES : UInt32 := 0x100
/-- `ACE4_DELETE`. -/
def ACE4_DELETE : UInt32 := 0x10000
/-- `ACE4_READ_ACL`. -/
def ACE4_READ_ACL : UInt32 := 0x20000
/-- `ACE4_WRITE_ACL`. -/
def ACE4_WRITE_ACL : UInt32 := 0x40000
/-- `ACE4_WRITE_OWNER`. -/
def ACE4_WRITE_OWNER : UInt32 := 0x80000
/-- `ACE4_SYNCHRONIZE`. -/
def ACE4_SYNCHRONIZE : UInt32 := 0x100000

/-- `mode_bits_to_mask`. -/
def modeBitsToMask (bits : UInt32) : UInt32 :=
  let mask := ACE4_READ_ATTRIBUTES ||| ACE4_READ_ACL ||| ACE4_SYNCHRONIZE
  let mask := if bits &&& 4 ≠ 0 then mask ||| ACE4_READ_DATA else mask
  let mask := if bits &&& 2 ≠ 0 then
      mask ||| (ACE4_WRITE_DATA ||| ACE4_APPEND_DATA ||| ACE4_WRITE_ATTRIBUTES ||| ACE4_WRITE_ACL |||
        ACE4_WRITE_OWNER ||| ACE4_DELETE ||| ACE4_DELETE_CHILD)
    else mask
  if bits &&& 1 ≠ 0 then mask ||| ACE4_EXECUTE else mask

/-- `mode_to_acl`. -/
def modeToAcl (mode : UInt32) (owner group : String) : List Nfsace4 :=
  let ownerBits := (mode >>> 6) &&& 7
  let groupBits := (mode >>> 3) &&& 7
  let otherBits := mode &&& 7
  [⟨ACE4_ACCESS_ALLOWED_ACE_TYPE, 0, modeBitsToMask ownerBits, owner⟩,
    ⟨ACE4_ACCESS_ALLOWED_ACE_TYPE, ACE4_IDENTIFIER_GROUP, modeBitsToMask groupBits, group⟩,
    ⟨ACE4_ACCESS_ALLOWED_ACE_TYPE, 0, modeBitsToMask otherBits, "EVERYONE@"⟩]

/-! ### The loop -/

/-- Go through a request: for an attribute that is answered, push an attribute and a value. -/
def pushAnswers (answer : FileAttr → Option (FileAttr × FileAttrValue)) :
    List FileAttr → Fattr4 → Fattr4
  | [], f => f
  | fileattr :: request, f =>
    match answer fileattr with
    | some (attr, value) => pushAnswers answer request ⟨f.attrmask ++ [attr], f.attrVals ++ [value]⟩
    | none => pushAnswers answer request f

/-! ### Objects of an export -/

/-- `FH4_PERSISTENT`. -/
def FH4_PERSISTENT : UInt32 := 0

/-- `ACL4_SUPPORT_ALLOW_ACL`. -/
def ACL4_SUPPORT_ALLOW_ACL : UInt32 := 1

/-- `i64::MAX as u64`. -/
def maxFileSize : UInt64 := 2 ^ 63 - 1

/-- `u64::MAX`. -/
def maxU64 : UInt64 := 2 ^ 64 - 1

/-- `QuotaInfo`. -/
structure QuotaInfo where
  quotaAvailHard : UInt64
  quotaAvailSoft : UInt64
  quotaUsed : UInt64
  spaceAvail : UInt64
  spaceFree : UInt64
  spaceTotal : UInt64

/-- `FileManagerHandle`, as far as attributes are answered from it. -/
structure FileManagerHandle where
  leaseTime : UInt32
  hardLinkSupport : Bool
  symlinkSupport : Bool
  uniqueHandles : Bool

/-- `attr_supported_attrs`. -/
def attrSupportedAttrs : List FileAttr := [
  .supportedAttrs, .type, .fhExpireType, .change, .size, .linkSupport, .symlinkSupport, .namedAttr,
  .fsid, .uniqueHandles, .leaseTime, .rdattrError, .acl, .aclSupport, .archive, .cansettime,
  .caseInsensitive, .casePreserving, .chownRestricted, .filehandle, .fileid, .filesAvail,
  .filesFree, .filesTotal, .fsLocations, .homogeneous, .maxfilesize, .maxlink, .maxname, .maxread,
  .maxwrite, .mode, .noTrunc, .numlinks, .owner, .ownerGroup, .quotaAvailHard, .quotaAvailSoft,
  .quotaUsed, .spaceAvail, .spaceFree, .spaceTotal, .spaceUsed, .timeAccess, .timeCreate,
  .timeDelta, .timeMetadata, .timeModify, .mountedOnFileid]

/-- The number of files that fit a space, of 4096 bytes each; no limit if there is no space. -/
def filesOf (quota : Option QuotaInfo) (space : QuotaInfo → UInt64) : UInt64 :=
  match quota with
  | none => maxU64
  | some q => if q.spaceTotal = 0 then maxU64 else space q / 4096

/-- A quota; zero if there is none. -/
def quotaOf (quota : Option QuotaInfo) (value : QuotaInfo → UInt64) : UInt64 :=
  match quota with
  | none => 0
  | some q => value q

/-- The arms of `filehandle_attrs`: what is pushed for an attribute. -/
def filehandleAnswer (fm : FileManagerHandle) (fh : Filehandle) (quota : Option QuotaInfo) :
    FileAttr → Option (FileAttr × FileAttrValue)
  | .supportedAttrs => some (.supportedAttrs, .supportedAttrs attrSupportedAttrs)
  | .type => some (.type, .type fh.attrType)
  | .leaseTime => some (.leaseTime, .leaseTime fm.leaseTime)
  | .change => some (.change, .change fh.attrChange)
  | .size => some (.size, .size fh.attrSize)
  | .linkSupport => some (.linkSupport, .linkSupport fm.hardLinkSupport)
  | .symlinkSupport => some (.symlinkSupport, .symlinkSupport fm.symlinkSupport)
  | .namedAttr => some (.namedAttr, .namedAttr true)
  | .acl => some (.acl, .acl (modeToAcl fh.attrMode fh.attrOwner fh.attrOwnerGroup))
  | .aclSupport => some (.aclSupport, .aclSupport ACL4_SUPPORT_ALLOW_ACL)
  | .fsid => some (.fsid, .fsid fh.attrFsid)
  | .uniqueHandles => some (.uniqueHandles, .uniqueHandles fm.uniqueHandles)
  | .fhExpireType => some (.fhExpireType, .fhExpireType FH4_PERSISTENT)
  | .rdattrError => some (.rdattrError, .rdattrError .nfs4errInval)
  | .fileid => some (.fileid, .fileid fh.attrFileid)
  | .mode => some (.mode, .mode fh.attrMode)
  | .numlinks => some (.numlinks, .numlinks fh.attrNlink)
  | .owner => some (.owner, .owner fh.attrOwner)
  | .ownerGroup => some (.ownerGroup, .ownerGroup fh.attrOwnerGroup)
  | .quotaAvailHard => some (.quotaAvailHard, .quotaAvailHard (quotaOf quota (·.quotaAvailHard)))
  | .quotaAvailSoft => some (.quotaAvailSoft, .quotaAvailSoft (quotaOf quota (·.quotaAvailSoft)))
  | .quotaUsed => some (.quotaUsed, .quotaUsed (quotaOf quota (·.quotaUsed)))
  | .spaceAvail => some (.spaceAvail, .spaceAvail (quotaOf quota (·.spaceAvail)))
  | .spaceFree => some (.spaceFree, .spaceFree (quotaOf quota (·.spaceFree)))
  | .spaceTotal => some (.spaceTotal, .spaceTotal (quotaOf quota (·.spaceTotal)))
  | .spaceUsed => some (.spaceUsed, .spaceUsed fh.attrSpaceUsed)
  | .timeAccess => some (.timeAccess, .timeAccess fh.attrTimeAccess)
  | .timeMetadata => some (.timeMetadata, .timeMetadata fh.attrTimeMetadata)
  | .timeModify => some (.timeModify, .timeModify fh.attrTimeModify)
  | .maxfilesize => some (.maxfilesize, .maxfilesize maxFileSize)
  | .maxread => some (.maxread, .maxread 1048576)
  | .maxwrite => some (.maxwrite, .maxwrite 1048576)
  | .maxlink => some (.maxlink, .maxlink 32000)
  | .maxname => some (.maxname, .maxname 255)
  | .homogeneous => some (.homogeneous, .homogeneous true)
  | .noTrunc => some (.noTrunc, .noTrunc true)
  | .cansettime => some (.cansettime, .cansettime true)
  | .chownRestricted => some (.chownRestricted, .chownRestricted true)
  | .caseInsensitive => some (.caseInsensitive, .caseInsensitive false)
  | .casePreserving => some (.casePreserving, .casePreserving true)
  | .filesAvail => some (.filesAvail, .filesAvail (filesOf quota (·.spaceAvail)))
  | .filesFree => some (.filesFree, .filesFree (filesOf quota (·.spaceFree)))
  | .filesTotal => some (.filesTotal, .filesTotal (filesOf quota (·.spaceTotal)))
  | .fsLocations => some (.fsLocations, .fsLocations ⟨["/"], []⟩)
  | .timeDelta => some (.timeDelta, .timeDelta ⟨0, 1⟩)
  | .timeCreate => some (.timeCreate, .timeCreate fh.attrTimeModify)
  | .mountedOnFileid => some (.mountedOnFileid, .mountedOnFileid fh.attrFileid)
  | _ => none

/-- `filehandle_attrs`: the attributes of a file, refreshed if its metadata can be read. -/
def filehandleAttrs (fm : FileManagerHandle) (real : Option RealMeta) (attrRequest : List FileAttr)
    (fh : Filehandle) (quota : Option QuotaInfo) : Option Fattr4 :=
  let fh := match real with
    | some m => .newReal fh.file fh.id fh.attrFsid.major fh.attrFsid.minor fh.version m
    | none => fh
  some (pushAnswers (filehandleAnswer fm fh quota) attrRequest ⟨[], []⟩)

/-! ### The root that lists the exports -/

/-- `pseudo_supported_attrs`. -/
def pseudoSupportedAttrs : List FileAttr := [
  .supportedAttrs, .type, .fhExpireType, .change, .size, .linkSupport, .symlinkSupport, .namedAttr,
  .fsid, .uniqueHandles, .leaseTime, .rdattrError, .aclSupport, .cansettime, .chownRestricted,
  .fileid, .homogeneous, .maxfilesize, .maxlink, .maxname, .maxread, .maxwrite, .mode, .noTrunc,
  .numlinks, .owner, .ownerGroup, .spaceUsed, .timeAccess, .timeMetadata, .timeModify]

/-- The arms of `pseudo_root_getattr` and `pseudo_export_entry_attrs`, which differ in the file
system and the number of the file. -/
def pseudoAnswer (fsid : Fsid4) (fileid : UInt64) (now : ℕ) :
    FileAttr → Option (FileAttr × FileAttrValue)
  | .supportedAttrs => some (.supportedAttrs, .supportedAttrs pseudoSupportedAttrs)
  | .type => some (.type, .type .nf4dir)
  | .fhExpireType => some (.fhExpireType, .fhExpireType FH4_PERSISTENT)
  | .change => some (.change, .change 1)
  | .size => some (.size, .size 4096)
  | .linkSupport => some (.linkSupport, .linkSupport false)
  | .symlinkSupport => some (.symlinkSupport, .symlinkSupport false)
  | .namedAttr => some (.namedAttr, .namedAttr true)
  | .fsid => some (.fsid, .fsid fsid)
  | .uniqueHandles => some (.uniqueHandles, .uniqueHandles true)
  | .leaseTime => some (.leaseTime, .leaseTime 90)
  | .rdattrError => some (.rdattrError, .rdattrError .nfs4errInval)
  | .fileid => some (.fileid, .fileid fileid)
  | .mode => some (.mode, .mode 0o755)
  | .numlinks => some (.numlinks, .numlinks 2)
  | .owner => some (.owner, .owner "0")
  | .ownerGroup => some (.ownerGroup, .ownerGroup "0")
  | .spaceUsed => some (.spaceUsed, .spaceUsed 4096)
  | .timeAccess => some (.timeAccess, .timeAccess (currentTime now))
  | .timeMetadata => some (.timeMetadata, .timeMetadata (currentTime now))
  | .timeModify => some (.timeModify, .timeModify (currentTime now))
  | .acl => some (.acl, .acl [])
  | .aclSupport => some (.aclSupport, .aclSupport 0)
  | .fsLocations => some (.fsLocations, .fsLocations ⟨["/"], []⟩)
  | .maxfilesize => some (.maxfilesize, .maxfilesize maxFileSize)
  | .maxread => some (.maxread, .maxread 1048576)
  | .maxwrite => some (.maxwrite, .maxwrite 1048576)
  | .maxlink => some (.maxlink, .maxlink 32000)
  | .maxname => some (.maxname, .maxname 255)
  | .homogeneous => some (.homogeneous, .homogeneous true)
  | .noTrunc => some (.noTrunc, .noTrunc true)
  | .cansettime => some (.cansettime, .cansettime true)
  | .chownRestricted => some (.chownRestricted, .chownRestricted true)
  | _ => none

/-- `pseudo_root_getattr`. -/
def pseudoRootGetattr (now : ℕ) (attrRequest : List FileAttr) : Fattr4 :=
  pushAnswers (pseudoAnswer ⟨0, 0⟩ 1 now) attrRequest ⟨[], []⟩

/-- `pseudo_export_entry_attrs`. -/
def pseudoExportEntryAttrs (now : ℕ) (attrRequest : List FileAttr) (exportId : UInt8) : Fattr4 :=
  pushAnswers (pseudoAnswer ⟨exportId.toUInt64, exportId.toUInt64⟩ (exportId.toUInt64 + 100) now)
    attrRequest ⟨[], []⟩

/-! ### Answers -/

/-- What is pushed for an attribute is the attribute and a value of it that is written. -/
def Sound (answer : FileAttr → Option (FileAttr × FileAttrValue)) : Prop :=
  ∀ fileattr attr value, answer fileattr = some (attr, value) →
    attr = fileattr ∧ value.attr = fileattr ∧ value.Written

lemma ascending_attrSupportedAttrs : Ascending attrSupportedAttrs := by
  unfold Ascending
  decide

lemma ascending_pseudoSupportedAttrs : Ascending pseudoSupportedAttrs := by
  unfold Ascending
  decide

lemma sound_filehandleAnswer (fm : FileManagerHandle) (fh : Filehandle) (quota : Option QuotaInfo) :
    Sound (filehandleAnswer fm fh quota) := by
  intro fileattr attr value h
  cases fileattr with
  | supportedAttrs =>
    cases h
    exact ⟨rfl, rfl, ascending_attrSupportedAttrs⟩
  | archive | filehandle | hidden | mimetype | rawdev | system | timeAccessSet | timeBackup
  | timeModifySet => cases h
  | _ =>
    cases h
    exact ⟨rfl, rfl, trivial⟩

lemma sound_pseudoAnswer (fsid : Fsid4) (fileid : UInt64) (now : ℕ) :
    Sound (pseudoAnswer fsid fileid now) := by
  intro fileattr attr value h
  cases fileattr with
  | supportedAttrs =>
    cases h
    exact ⟨rfl, rfl, ascending_pseudoSupportedAttrs⟩
  | archive | filehandle | hidden | mimetype | rawdev | system | timeAccessSet | timeBackup
  | timeModifySet | caseInsensitive | casePreserving | filesAvail | filesFree | filesTotal
  | quotaAvailHard | quotaAvailSoft | quotaUsed | spaceAvail | spaceFree | spaceTotal | timeCreate
  | timeDelta | mountedOnFileid => cases h
  | _ =>
    cases h
    exact ⟨rfl, rfl, trivial⟩

/-- The loop pushes what is answered, in the order of the request. -/
lemma pushAnswers_eq (answer : FileAttr → Option (FileAttr × FileAttrValue))
    (request : List FileAttr) (f : Fattr4) :
    pushAnswers answer request f = ⟨f.attrmask ++ (request.filterMap answer).map Prod.fst,
      f.attrVals ++ (request.filterMap answer).map Prod.snd⟩ := by
  induction request generalizing f with
  | nil => simp [pushAnswers]
  | cons fileattr request ih =>
    rw [pushAnswers]
    cases hanswer : answer fileattr with
    | none => rw [ih, List.filterMap_cons_none hanswer]
    | some x =>
      obtain ⟨attr, value⟩ := x
      simp only [ih, List.filterMap_cons_some hanswer, List.map_cons, List.append_assoc,
        List.singleton_append]

/-- The attributes pushed are among those requested, in their order. -/
lemma sublist_of_sound {answer : FileAttr → Option (FileAttr × FileAttrValue)}
    (hsound : Sound answer) (request : List FileAttr) :
    ((request.filterMap answer).map Prod.fst).Sublist request := by
  induction request with
  | nil => exact .slnil
  | cons fileattr request ih =>
    cases hanswer : answer fileattr with
    | none =>
      rw [List.filterMap_cons_none hanswer]
      exact ih.cons fileattr
    | some x =>
      rw [List.filterMap_cons_some hanswer, List.map_cons, (hsound fileattr x.1 x.2 hanswer).1]
      exact ih.cons_cons fileattr

/-- What the loop pushes for an ascending request is consistent with it. -/
lemma consistent_pushAnswers {answer : FileAttr → Option (FileAttr × FileAttrValue)}
    (hsound : Sound answer) {request : List FileAttr} (hasc : Ascending request) :
    Consistent request (pushAnswers answer request ⟨[], []⟩) := by
  rw [pushAnswers_eq, List.nil_append, List.nil_append]
  have hpushed : ∀ x ∈ request.filterMap answer, x.2.attr = x.1 ∧ x.2.Written := by
    intro x hx
    obtain ⟨fileattr, -, hanswer⟩ := List.mem_filterMap.1 hx
    obtain ⟨hattr, hvalue, hwritten⟩ := hsound fileattr x.1 x.2 hanswer
    exact ⟨hvalue.trans hattr.symm, hwritten⟩
  refine consistent_of_answers hasc (sublist_of_sound hsound request) ?_ fun v hv => ?_
  · rw [List.map_map]
    exact List.map_congr_left fun x hx => (hpushed x hx).1
  · obtain ⟨x, hx, rfl⟩ := List.mem_map.1 hv
    exact (hpushed x hx).2

/-! ### What GETATTR and READDIR send -/

/-- A server whose root answers as in `op_pseudo.rs`. -/
structure Answering (S : Server) : Prop where
  root : ∀ now request, S.pseudoRootGetattr now request = pseudoRootGetattr now request
  entries : ∀ request e, ∃ now, S.exportEntryAttrs request e = pseudoExportEntryAttrs now request e

/-- The file managers answer for attributes as `filehandle_attrs` does. -/
def attrLaw : (q : Question) → q.Answer → Prop
  | .on _ (.filehandleAttrs request fh), a =>
    ∃ fm real quota, a = filehandleAttrs fm real request fh quota
  | _, _ => True

/-- The attributes that an operation is asked for. -/
def attrRequest : NfsArgOp → Option (List FileAttr)
  | .opgetattr args => some args.attrRequest
  | .opreaddir args => some args.attrRequest
  | _ => none

/-- The attributes in a linked list of entries. -/
def entryFattrs : Entry4 → List Fattr4
  | .mk _ _ attrs none => [attrs]
  | .mk _ _ attrs (some next) => attrs :: entryFattrs next

/-- The attributes in a result of GETATTR or READDIR. -/
def fattrs : Option NfsResOp4 → List Fattr4
  | some (.opgetattr r) => r.objAttributes.toList
  | some (.opreaddir (.resok4 r)) => (r.reply.entries.map entryFattrs).getD []
  | _ => []

/-- A linked list of entries has the attributes it was made from. -/
lemma entryFattrs_linkEntries (es : List (UInt64 × String × Fattr4)) :
    ((linkEntries es).map entryFattrs).getD [] = es.map fun e => e.2.2 :=
  collect_linkEntries (fun _ _ _ => rfl) (fun _ _ _ _ => rfl) es

/-- What a program does when attributes are answered as in the source. -/
abbrev Sends {α : Type} (p : Op α) (post : α → Prop) : Prop :=
  p.Does attrLaw (fun _ => True) True post

section Sends

variable {S : Server} {req : Request}

/-- What the file manager is asked for is answered by the law. -/
lemma askManager_sends (call : Call) {post : call.Answer → Prop}
    (h : ∀ e a, attrLaw (.on e call) a → post a) : Sends (req.askManager call) post := by
  unfold Request.askManager Request.fileManager
  cases req.cachedFmanager with
  | none => trivial
  | some e => exact ⟨trivial, fun a ha => h (some e) a ha⟩

/-- The attributes that a file manager answers are consistent with the request. -/
lemma consistent_of_attrLaw {request : List FileAttr} (hasc : Ascending request) {e : Option UInt8}
    {fh : Filehandle} {f : Fattr4} (h : attrLaw (.on e (.filehandleAttrs request fh)) (some f)) :
    Consistent request f := by
  obtain ⟨fm, real, quota, heq⟩ := h
  cases heq
  exact consistent_pushAnswers (sound_filehandleAnswer _ _ _) hasc

/-- GETATTR sends consistent attributes. -/
lemma getattr_sends (hS : Answering S) {args : Getattr4args} (hasc : Ascending args.attrRequest) :
    Sends (getattr S args req) fun resp =>
      ∀ f ∈ fattrs resp.result, Consistent args.attrRequest f := by
  unfold getattr
  split_ifs with hroot
  · refine .bind ⟨trivial, fun now _ f hf => ?_⟩
    obtain rfl := List.mem_singleton.1 hf
    rw [hS.root]
    exact consistent_pushAnswers (sound_pseudoAnswer _ _ _) hasc
  · cases req.filehandle with
    | none => exact fun f hf => absurd hf List.not_mem_nil
    | some fh =>
      refine .bind (askManager_sends _ fun e a ha => ?_)
      cases a with
      | none => exact fun f hf => absurd hf List.not_mem_nil
      | some attrs =>
        intro f hf
        obtain rfl := List.mem_singleton.1 hf
        exact consistent_of_attrLaw hasc ha

/-- The attributes of the entries of a listing are consistent. -/
lemma entryAttrs_sends {args : Readdir4args} (hasc : Ascending args.attrRequest)
    (fhs : List (ℕ × Handle)) :
    Sends (entryAttrs args req fhs) fun out =>
      ∀ es, out = some es → ∀ e ∈ es, Consistent args.attrRequest e.2.2 := by
  induction fhs with
  | nil =>
    rintro es heq e he
    cases heq
    exact absurd he List.not_mem_nil
  | cons x fhs ih =>
    refine .bind (ih.imp fun out hout => ?_)
    cases out with
    | none => exact nofun
    | some es =>
      refine .bind (askManager_sends _ fun m a ha => ?_)
      cases a with
      | none => exact nofun
      | some attrs =>
        rintro es' heq e he
        cases heq
        rcases List.mem_cons.1 he with rfl | he
        · exact consistent_of_attrLaw hasc ha
        · exact hout es rfl e he

/-- READDIR sends consistent attributes. -/
lemma readdir_sends (hS : Answering S) {args : Readdir4args} (hasc : Ascending args.attrRequest) :
    Sends (readdir S args req) fun resp =>
      ∀ f ∈ fattrs resp.result, Consistent args.attrRequest f := by
  unfold readdir
  split_ifs with hroot
  · refine .bind ⟨trivial, fun exports _ f hf => ?_⟩
    change f ∈ ((linkEntries _).map entryFattrs).getD [] at hf
    rw [entryFattrs_linkEntries, List.map_map] at hf
    obtain ⟨x, -, rfl⟩ := List.mem_map.1 hf
    obtain ⟨now, hnow⟩ := hS.entries args.attrRequest x.2
    change Consistent args.attrRequest (S.exportEntryAttrs args.attrRequest x.2)
    rw [hnow]
    exact consistent_pushAnswers (sound_pseudoAnswer _ _ _) hasc
  · cases req.filehandle with
    | none => exact fun f hf => absurd hf List.not_mem_nil
    | some fh =>
      refine .bind ⟨trivial, fun dir _ => ?_⟩
      cases dir with
      | none => exact fun f hf => absurd hf List.not_mem_nil
      | some entries =>
        refine .bind (Prog.does_of_forall (fun listing => ?_) _)
        cases listing with
        | none => exact fun f hf => absurd hf List.not_mem_nil
        | some l =>
          unfold finishReaddir
          simp only
          split_ifs with hverf
          · exact fun f hf => absurd hf List.not_mem_nil
          · refine .bind ((entryAttrs_sends hasc l.filehandles).imp fun out hout => ?_)
            cases out with
            | none => exact fun f hf => absurd hf List.not_mem_nil
            | some es =>
              intro f hf
              change f ∈ ((linkEntries es).map entryFattrs).getD [] at hf
              rw [entryFattrs_linkEntries] at hf
              obtain ⟨e, he, rfl⟩ := List.mem_map.1 hf
              exact hout es rfl e he

/-- GETATTR and READDIR send consistent attributes. -/
lemma execute_sends (hS : Answering S) {arg : NfsArgOp} {request : List FileAttr}
    (harg : attrRequest arg = some request) (hasc : Ascending request) :
    Sends (execute S arg req) fun resp => ∀ f ∈ fattrs resp.result, Consistent request f := by
  cases arg with
  | opgetattr args =>
    cases harg
    exact getattr_sends hS hasc
  | opreaddir args =>
    cases harg
    exact readdir_sends hS hasc
  | _ => cases harg

/-- **Attributes are consistent.** Every `Fattr4` in a result of GETATTR or READDIR, also at the
root that lists the exports and for its entries, has values of attributes that the client's bitmap
asks for, and is sent as a bitmap of exactly these and the XDR encodings of one value of each, in
ascending order.

**Proof sketch.** The attributes read off a bitmap are ascending: with up to 2^27 words, half a
gigabyte, their numbers do not wrap around, and a fragment of a call has at most 8 MB. Each arm of
the three functions pushes the attribute it is for and a value of it that `to_bytes` writes, so what
is pushed is a sublist of the request beside its values; the bitmap of an ascending list is decoded
to it, and the bytes of each value are its XDR encoding. -/
theorem attributes_consistent (hS : Answering S) {arg : NfsArgOp} {raw : List UInt32}
    (hraw : raw.length ≤ 2 ^ 27) (harg : attrRequest arg = some (fileAttrsFromU32 raw))
    {h : List (Σ q : Question, q.Answer)} {resp : Response}
    (hrun : Runs (execute S arg req) h (some resp)) (hlaw : ∀ e ∈ h, attrLaw e.1 e.2) :
    ∀ f ∈ fattrs resp.result, Consistent (fileAttrsFromU32 raw) f :=
  ((execute_sends hS harg (ascending_fileAttrsFromU32 hraw)).of_runs hrun hlaw).2.1 resp rfl

end Sends

/-- A server whose root answers as in the source. -/
def answeringServer : Server :=
  { openServer with
    pseudoRootGetattr := pseudoRootGetattr
    exportEntryAttrs := pseudoExportEntryAttrs 0 }

lemma answering_answeringServer : Answering answeringServer :=
  ⟨fun _ _ => rfl, fun _ _ => ⟨0, rfl⟩⟩

/-- **Attributes are consistent**, for the type and the mode of the root that lists the exports. -/
theorem attributes_consistent_root :
    Consistent [.type, .mode] ⟨[.type, .mode], [.type .nf4dir, .mode 0o755]⟩ := by
  have hbits : fileAttrsFromU32 [2, 2] = [.type, .mode] := by decide
  have hrun : Runs (execute answeringServer (.opgetattr ⟨[.type, .mode]⟩)
      (Request.new "10.0.0.1" none 0 [] .sys).onPseudoRoot)
      [⟨.now, (0 : ℕ)⟩] (some (.some (Request.new "10.0.0.1" none 0 [] .sys).onPseudoRoot
        (.opgetattr ⟨.nfs4Ok, some (pseudoRootGetattr 0 [.type, .mode])⟩) .nfs4Ok)) :=
    .ask (.pure _)
  have harg : attrRequest (.opgetattr ⟨[.type, .mode]⟩) = some (fileAttrsFromU32 [2, 2]) :=
    congrArg some hbits.symm
  have hconsistent := attributes_consistent answering_answeringServer (by decide) harg hrun
    (fun e he => by
      obtain rfl := List.mem_singleton.1 he
      trivial) _ List.mem_cons_self
  rw [hbits] at hconsistent
  exact hconsistent

end NextNfs.Attributes
