import Mathlib.Data.List.Sort
import Mathlib.Data.List.TakeWhile
import Mathlib.Data.Nat.BitIndices
import NextNfs.Proto.Xdr

set_option relaxedAutoImplicit false
set_option autoImplicit false

/-!
# File attributes

This module models the attribute types of `proto/src/nfs4_proto.rs` and their encoding in
`proto/src/utils.rs`: the bitmap of an attribute list, the bytes of attribute values, and the
hand-written deserializer of `Fattr4`.

## Main definitions

* `NextNfs.FileAttr`, `NextNfs.FileAttrValue`, `NextNfs.Fattr4` — the types.
* `NextNfs.fileAttrsToBitmap`, `NextNfs.fileAttrsFromU32` — `file_attrs_to_bitmap` and
  `from_u32` (`FattrRaw::to_fileattrs` is the same function).
* `NextNfs.attrvalueToBytes` — one arm of `Attrlist4<FileAttrValue>::to_bytes`.
* `NextNfs.attrvalueAt`, `NextNfs.attrvaluesFromBytes` — `attrvalues_from_bytes`.
* `NextNfs.attrlistCodec`, `NextNfs.fattr4Codec` — the codecs built from them.

## Main results

* `NextNfs.fileAttrsFromU32_fileAttrsToBitmap` — ascending attribute lists round trip through
  the bitmap.
* `NextNfs.attrvaluesFromBytes_toBytes` — of the values written, the deserializer gives back
  those in front of the first one it has no arm for.
-/

namespace NextNfs

open Wire

/-! ### Types -/

/-- `NfsFtype4`: file types. -/
inductive NfsFtype4
  | nf4Undef | nf4reg | nf4dir | nf4blk | nf4chr | nf4lnk | nf4sock | nf4fifo | nf4attrdir
  | nf4namedattr
deriving DecidableEq, Repr

/-- The discriminant of a file type. -/
def NfsFtype4.toU32 (t : NfsFtype4) : ℕ := t.ctorIdx

/-- `NfsStat4`: error status. -/
inductive NfsStat4
  | nfs4Ok | nfs4errPerm | nfs4errNoent | nfs4errIo | nfs4errNxio | nfs4errAccess | nfs4errExist
  | nfs4errXdev | nfs4errNotdir | nfs4errIsdir | nfs4errInval | nfs4errFbig | nfs4errNospc
  | nfs4errRofs | nfs4errMlink | nfs4errNametoolong | nfs4errNotempty | nfs4errDquot
  | nfs4errStale | nfs4errBadhandle | nfs4errBadCookie | nfs4errNotsupp | nfs4errToosmall
  | nfs4errServerfault | nfs4errBadtype | nfs4errDelay | nfs4errSame | nfs4errDenied
  | nfs4errExpired | nfs4errLocked | nfs4errGrace | nfs4errFhexpired | nfs4errShareDenied
  | nfs4errWrongsec | nfs4errClidInuse | nfs4errResource | nfs4errMoved | nfs4errNofilehandle
  | nfs4errMinorVersMismatch | nfs4errStaleClientid | nfs4errStaleStateid | nfs4errOldStateid
  | nfs4errBadStateid | nfs4errBadSeqid | nfs4errNotSame | nfs4errLockRange | nfs4errSymlink
  | nfs4errRestorefh | nfs4errLeaseMoved | nfs4errAttrnotsupp | nfs4errNoGrace
  | nfs4errReclaimBad | nfs4errReclaimConflict | nfs4errBadxdr | nfs4errLocksHeld
  | nfs4errOpenmode | nfs4errBadOwner | nfs4errBadchar | nfs4errBadname | nfs4errBadRange
  | nfs4errLockNotsupp | nfs4errOpIllegal | nfs4errDeadlock | nfs4errFileOpen
  | nfs4errAdminRevoked | nfs4errCbPathDown | nfs4errBadIomode | nfs4errBadLayout
  | nfs4errBadSession | nfs4errBadSlot | nfs4errConnNotBoundToSession | nfs4errLayoutTrylater
  | nfs4errLayoutUnavailable | nfs4errNomatchingLayout | nfs4errRecallconflict
  | nfs4errUnknownLayouttype | nfs4errSeqMisordered | nfs4errOpNotInSession
  | nfs4errSeqFalseRetry
deriving DecidableEq, Repr

/-- The discriminant of a status. Statuses are serialized as it (`utils.rs`). -/
def NfsStat4.toU32 : NfsStat4 → ℕ
  | .nfs4Ok => 0
  | .nfs4errPerm => 1
  | .nfs4errNoent => 2
  | .nfs4errIo => 5
  | .nfs4errNxio => 6
  | .nfs4errAccess => 13
  | .nfs4errExist => 17
  | .nfs4errXdev => 18
  | .nfs4errNotdir => 20
  | .nfs4errIsdir => 21
  | .nfs4errInval => 22
  | .nfs4errFbig => 27
  | .nfs4errNospc => 28
  | .nfs4errRofs => 30
  | .nfs4errMlink => 31
  | .nfs4errNametoolong => 63
  | .nfs4errNotempty => 66
  | .nfs4errDquot => 69
  | .nfs4errStale => 70
  | .nfs4errBadhandle => 10001
  | .nfs4errBadCookie => 10003
  | .nfs4errNotsupp => 10004
  | .nfs4errToosmall => 10005
  | .nfs4errServerfault => 10006
  | .nfs4errBadtype => 10007
  | .nfs4errDelay => 10008
  | .nfs4errSame => 10009
  | .nfs4errDenied => 10010
  | .nfs4errExpired => 10011
  | .nfs4errLocked => 10012
  | .nfs4errGrace => 10013
  | .nfs4errFhexpired => 10014
  | .nfs4errShareDenied => 10015
  | .nfs4errWrongsec => 10016
  | .nfs4errClidInuse => 10017
  | .nfs4errResource => 10018
  | .nfs4errMoved => 10019
  | .nfs4errNofilehandle => 10020
  | .nfs4errMinorVersMismatch => 10021
  | .nfs4errStaleClientid => 10022
  | .nfs4errStaleStateid => 10023
  | .nfs4errOldStateid => 10024
  | .nfs4errBadStateid => 10025
  | .nfs4errBadSeqid => 10026
  | .nfs4errNotSame => 10027
  | .nfs4errLockRange => 10028
  | .nfs4errSymlink => 10029
  | .nfs4errRestorefh => 10030
  | .nfs4errLeaseMoved => 10031
  | .nfs4errAttrnotsupp => 10032
  | .nfs4errNoGrace => 10033
  | .nfs4errReclaimBad => 10034
  | .nfs4errReclaimConflict => 10035
  | .nfs4errBadxdr => 10036
  | .nfs4errLocksHeld => 10037
  | .nfs4errOpenmode => 10038
  | .nfs4errBadOwner => 10039
  | .nfs4errBadchar => 10040
  | .nfs4errBadname => 10041
  | .nfs4errBadRange => 10042
  | .nfs4errLockNotsupp => 10043
  | .nfs4errOpIllegal => 10044
  | .nfs4errDeadlock => 10045
  | .nfs4errFileOpen => 10046
  | .nfs4errAdminRevoked => 10047
  | .nfs4errCbPathDown => 10048
  | .nfs4errBadIomode => 10049
  | .nfs4errBadLayout => 10050
  | .nfs4errBadSession => 10052
  | .nfs4errBadSlot => 10053
  | .nfs4errConnNotBoundToSession => 10055
  | .nfs4errLayoutTrylater => 10058
  | .nfs4errLayoutUnavailable => 10059
  | .nfs4errNomatchingLayout => 10060
  | .nfs4errRecallconflict => 10061
  | .nfs4errUnknownLayouttype => 10062
  | .nfs4errSeqMisordered => 10063
  | .nfs4errOpNotInSession => 10071
  | .nfs4errSeqFalseRetry => 10076

/-- `NfsFh4`: a filehandle. -/
abbrev NfsFh4 := List.Vector UInt8 26

/-- `Nfstime4`. -/
structure Nfstime4 where
  seconds : Int64
  nseconds : UInt32
deriving DecidableEq

/-- `Fsid4`. -/
structure Fsid4 where
  major : UInt64
  minor : UInt64
deriving DecidableEq

/-- `FsLocation4`. -/
structure FsLocation4 where
  server : List String
  rootpath : List String
deriving DecidableEq

/-- `FsLocations4`. -/
structure FsLocations4 where
  fsRoot : List String
  locations : List FsLocation4
deriving DecidableEq

/-- `Nfsace4`: an access control entry. -/
structure Nfsace4 where
  acetype : UInt32
  flag : UInt32
  accessMask : UInt32
  who : String
deriving DecidableEq

/-- `FileAttr`: the attributes, in the order of their numbers. -/
inductive FileAttr
  | supportedAttrs | type | fhExpireType | change | size | linkSupport | symlinkSupport
  | namedAttr | fsid | uniqueHandles | leaseTime | rdattrError | acl | aclSupport | archive
  | cansettime | caseInsensitive | casePreserving | chownRestricted | filehandle | fileid
  | filesAvail | filesFree | filesTotal | fsLocations | hidden | homogeneous | maxfilesize
  | maxlink | maxname | maxread | maxwrite | mimetype | mode | noTrunc | numlinks | owner
  | ownerGroup | quotaAvailHard | quotaAvailSoft | quotaUsed | rawdev | spaceAvail | spaceFree
  | spaceTotal | spaceUsed | system | timeAccess | timeAccessSet | timeBackup | timeCreate
  | timeDelta | timeMetadata | timeModify | timeModifySet | mountedOnFileid
deriving DecidableEq, Repr

/-- The number of an attribute. -/
def FileAttr.toU32 (a : FileAttr) : ℕ := a.ctorIdx

/-- All attributes in the order of their numbers. -/
def FileAttr.all : List FileAttr := [
  .supportedAttrs, .type, .fhExpireType, .change, .size, .linkSupport, .symlinkSupport,
  .namedAttr, .fsid, .uniqueHandles, .leaseTime, .rdattrError, .acl, .aclSupport, .archive,
  .cansettime, .caseInsensitive, .casePreserving, .chownRestricted, .filehandle, .fileid,
  .filesAvail, .filesFree, .filesTotal, .fsLocations, .hidden, .homogeneous, .maxfilesize,
  .maxlink, .maxname, .maxread, .maxwrite, .mimetype, .mode, .noTrunc, .numlinks, .owner,
  .ownerGroup, .quotaAvailHard, .quotaAvailSoft, .quotaUsed, .rawdev, .spaceAvail, .spaceFree,
  .spaceTotal, .spaceUsed, .system, .timeAccess, .timeAccessSet, .timeBackup, .timeCreate,
  .timeDelta, .timeMetadata, .timeModify, .timeModifySet, .mountedOnFileid]

/-- `FromPrimitive::from_u32`. -/
def FileAttr.fromU32 (n : ℕ) : Option FileAttr := FileAttr.all[n]?

/-- `FileAttrValue`: an attribute with its value. -/
inductive FileAttrValue
  | supportedAttrs (v : List FileAttr)
  | type (v : NfsFtype4)
  | fhExpireType (v : UInt32)
  | change (v : UInt64)
  | size (v : UInt64)
  | linkSupport (v : Bool)
  | symlinkSupport (v : Bool)
  | namedAttr (v : Bool)
  | fsid (v : Fsid4)
  | uniqueHandles (v : Bool)
  | leaseTime (v : UInt32)
  | rdattrError (v : NfsStat4)
  | acl (v : List Nfsace4)
  | aclSupport (v : UInt32)
  | archive
  | cansettime (v : Bool)
  | caseInsensitive (v : Bool)
  | casePreserving (v : Bool)
  | chownRestricted (v : Bool)
  | filehandle (v : NfsFh4)
  | fileid (v : UInt64)
  | filesAvail (v : UInt64)
  | filesFree (v : UInt64)
  | filesTotal (v : UInt64)
  | fsLocations (v : FsLocations4)
  | hidden
  | homogeneous (v : Bool)
  | maxfilesize (v : UInt64)
  | maxlink (v : UInt32)
  | maxname (v : UInt32)
  | maxread (v : UInt64)
  | maxwrite (v : UInt64)
  | mimetype (v : String)
  | mode (v : UInt32)
  | noTrunc (v : Bool)
  | numlinks (v : UInt32)
  | owner (v : String)
  | ownerGroup (v : String)
  | quotaAvailHard (v : UInt64)
  | quotaAvailSoft (v : UInt64)
  | quotaUsed (v : UInt64)
  | rawdev
  | spaceAvail (v : UInt64)
  | spaceFree (v : UInt64)
  | spaceTotal (v : UInt64)
  | spaceUsed (v : UInt64)
  | system
  | timeAccess (v : Nfstime4)
  | timeAccessSet
  | timeBackup
  | timeCreate (v : Nfstime4)
  | timeDelta (v : Nfstime4)
  | timeMetadata (v : Nfstime4)
  | timeModify (v : Nfstime4)
  | timeModifySet
  | mountedOnFileid (v : UInt64)
deriving DecidableEq

/-- The attribute a value belongs to. -/
def FileAttrValue.attr : FileAttrValue → FileAttr
  | .supportedAttrs _ => .supportedAttrs
  | .type _ => .type
  | .fhExpireType _ => .fhExpireType
  | .change _ => .change
  | .size _ => .size
  | .linkSupport _ => .linkSupport
  | .symlinkSupport _ => .symlinkSupport
  | .namedAttr _ => .namedAttr
  | .fsid _ => .fsid
  | .uniqueHandles _ => .uniqueHandles
  | .leaseTime _ => .leaseTime
  | .rdattrError _ => .rdattrError
  | .acl _ => .acl
  | .aclSupport _ => .aclSupport
  | .archive => .archive
  | .cansettime _ => .cansettime
  | .caseInsensitive _ => .caseInsensitive
  | .casePreserving _ => .casePreserving
  | .chownRestricted _ => .chownRestricted
  | .filehandle _ => .filehandle
  | .fileid _ => .fileid
  | .filesAvail _ => .filesAvail
  | .filesFree _ => .filesFree
  | .filesTotal _ => .filesTotal
  | .fsLocations _ => .fsLocations
  | .hidden => .hidden
  | .homogeneous _ => .homogeneous
  | .maxfilesize _ => .maxfilesize
  | .maxlink _ => .maxlink
  | .maxname _ => .maxname
  | .maxread _ => .maxread
  | .maxwrite _ => .maxwrite
  | .mimetype _ => .mimetype
  | .mode _ => .mode
  | .noTrunc _ => .noTrunc
  | .numlinks _ => .numlinks
  | .owner _ => .owner
  | .ownerGroup _ => .ownerGroup
  | .quotaAvailHard _ => .quotaAvailHard
  | .quotaAvailSoft _ => .quotaAvailSoft
  | .quotaUsed _ => .quotaUsed
  | .rawdev => .rawdev
  | .spaceAvail _ => .spaceAvail
  | .spaceFree _ => .spaceFree
  | .spaceTotal _ => .spaceTotal
  | .spaceUsed _ => .spaceUsed
  | .system => .system
  | .timeAccess _ => .timeAccess
  | .timeAccessSet => .timeAccessSet
  | .timeBackup => .timeBackup
  | .timeCreate _ => .timeCreate
  | .timeDelta _ => .timeDelta
  | .timeMetadata _ => .timeMetadata
  | .timeModify _ => .timeModify
  | .timeModifySet => .timeModifySet
  | .mountedOnFileid _ => .mountedOnFileid

/-- `Fattr4`: attributes and their values. -/
structure Fattr4 where
  attrmask : List FileAttr
  attrVals : List FileAttrValue
deriving DecidableEq

/-- The number of an attribute determines it. -/
@[simp] lemma FileAttr.fromU32_toU32 (a : FileAttr) : FileAttr.fromU32 a.toU32 = some a := by
  cases a <;> rfl

/-- An attribute is read off its own number only. -/
lemma FileAttr.toU32_of_fromU32 {n : ℕ} {a : FileAttr} (h : FileAttr.fromU32 n = some a) :
    a.toU32 = n := by
  have hnum : (FileAttr.all.map FileAttr.toU32)[n]? = some a.toU32 := by
    rw [List.getElem?_map, ← FileAttr.fromU32, h, Option.map_some]
  rw [show FileAttr.all.map FileAttr.toU32 = List.range 56 from rfl] at hnum
  obtain ⟨hlt, hget⟩ := List.getElem?_eq_some_iff.1 hnum
  rw [← hget, List.getElem_range]

/-- The attributes fit two bitmap words. -/
lemma FileAttr.toU32_lt (a : FileAttr) : a.toU32 < 56 := by
  cases a <;> decide

/-! ### Bitmaps -/

/-- An attribute list is ascending when its numbers are. -/
def Ascending (l : List FileAttr) : Prop := l.Pairwise (fun a b => a.toU32 < b.toU32)

/-- One turn of the loop of `file_attrs_to_bitmap`: the words pushed so far and the current
one. -/
def bitmapStep (st : List UInt32 × UInt32) (idx : ℕ) : List UInt32 × UInt32 :=
  let st := if (((idx + 30) / 31 : ℕ) : ℤ) - 1 > st.1.length then (st.1 ++ [st.2], 0) else st
  (st.1, st.2 + UInt32.ofNat (2 ^ (idx % 32)))

/-- `Attrlist4::<FileAttr>::file_attrs_to_bitmap`. -/
def fileAttrsToBitmap (l : List FileAttr) : List UInt32 :=
  let st := (l.map FileAttr.toU32).foldl bitmapStep ([], 0)
  st.1 ++ [st.2]

/-- The attributes whose bits are set in the word at position `idx` of a bitmap. -/
def segmentAttrs (idx : ℕ) (segment : UInt32) : List FileAttr :=
  (List.range 32).filterMap fun n =>
    if segment.toNat.testBit n then FileAttr.fromU32 ((idx * 32 + n) % 2 ^ 32) else none

/-- `Attrlist4::<FileAttr>::from_u32`, and `FattrRaw::to_fileattrs`. -/
def fileAttrsFromU32 (raw : List UInt32) : List FileAttr :=
  raw.zipIdx.flatMap fun p => segmentAttrs p.2 p.1

/-- Bits are the members of the list their powers of two were summed over. -/
lemma testBit_sum_two_pow {L : List ℕ} (hL : L.SortedLT) (i : ℕ) :
    (L.map (fun i => 2 ^ i)).sum.testBit i = true ↔ i ∈ L := by
  rw [← Nat.mem_bitIndices, Nat.bitIndices_sum_map_two_pow hL]

/-- A sum of distinct powers below `2 ^ 32` fits a word. -/
lemma sum_two_pow_lt {L : List ℕ} (hL : L.SortedLT) (hlt : ∀ i ∈ L, i < 32) :
    (L.map (fun i => 2 ^ i)).sum < 2 ^ 32 := by
  apply Nat.lt_pow_two_of_testBit
  intro i hi
  by_contra hne
  have hmem := (testBit_sum_two_pow hL i).1 (by simpa using hne)
  exact absurd (hlt i hmem) (by omega)

/-- Over attributes of one word, the loop only adds bits to the current word. -/
lemma foldl_bitmapStep (k : ℕ) (pushed : List UInt32) (hk : pushed.length = k) (L : List ℕ)
    (seg : UInt32) (hL : ∀ i ∈ L, 32 * k ≤ i ∧ i < 32 * (k + 1) ∧ i < 56) :
    L.foldl bitmapStep (pushed, seg) =
      (pushed, seg + UInt32.ofNat ((L.map (fun i => 2 ^ (i % 32))).sum)) := by
  induction L generalizing seg with
  | nil => simp
  | cons i L ih =>
    simp only [List.mem_cons, forall_eq_or_imp] at hL
    have hno : ¬ ((((i + 30) / 31 : ℕ) : ℤ) - 1 > pushed.length) := by
      rw [hk]
      omega
    rw [List.foldl_cons, bitmapStep, if_neg hno, ih _ hL.2, List.map_cons, List.sum_cons,
      UInt32.ofNat_add, UInt32.add_assoc]

/-- The attributes read off a word are those whose powers of two were summed into it. -/
lemma segmentAttrs_sum (k : ℕ) (l : List FileAttr) (hasc : Ascending l)
    (hl : ∀ a ∈ l, 32 * k ≤ a.toU32 ∧ a.toU32 < 32 * (k + 1)) :
    segmentAttrs k (UInt32.ofNat (((l.map FileAttr.toU32).map (fun i => 2 ^ (i % 32))).sum)) =
      l := by
  set L := l.map (fun a => a.toU32 % 32) with hLdef
  have hsorted : L.SortedLT := by
    rw [List.sortedLT_iff_pairwise, hLdef, List.pairwise_map]
    refine List.Pairwise.imp_of_mem ?_ hasc
    intro a b ha hb hab
    have := hl a ha
    have := hl b hb
    omega
  have hlt : ∀ i ∈ L, i < 32 := by
    intro i hi
    obtain ⟨a, _, rfl⟩ := List.mem_map.1 hi
    exact Nat.mod_lt _ (by norm_num)
  have hsum : ((l.map FileAttr.toU32).map (fun i => 2 ^ (i % 32))).sum =
      (L.map (fun i => 2 ^ i)).sum := by
    rw [hLdef, List.map_map, List.map_map]
    rfl
  have hbits : (List.range 32).filter
      (fun n => ((L.map (fun i => 2 ^ i)).sum).testBit n) = L := by
    refine List.SortedLT.eq_of_mem_iff ?_ hsorted ?_
    · rw [List.sortedLT_iff_pairwise]
      exact List.Pairwise.filter _ List.pairwise_lt_range
    · intro n
      rw [List.mem_filter, List.mem_range, testBit_sum_two_pow hsorted]
      exact ⟨fun h => h.2, fun h => ⟨hlt n h, h⟩⟩
  have hword : (UInt32.ofNat (L.map (fun i => 2 ^ i)).sum).toNat = (L.map (fun i => 2 ^ i)).sum :=
    UInt32.toNat_ofNat_of_lt (sum_two_pow_lt hsorted hlt)
  have hsplit : segmentAttrs k (UInt32.ofNat (L.map (fun i => 2 ^ i)).sum) =
      ((List.range 32).filter (fun n => ((L.map (fun i => 2 ^ i)).sum).testBit n)).filterMap
        (fun n => FileAttr.fromU32 ((k * 32 + n) % 2 ^ 32)) := by
    rw [segmentAttrs, hword, List.filterMap_filter]
  rw [hsum, hsplit, hbits, hLdef, List.filterMap_map]
  have hall : ∀ a ∈ l, ((fun n => FileAttr.fromU32 ((k * 32 + n) % 2 ^ 32)) ∘
      fun a => a.toU32 % 32) a = some a := by
    intro a ha
    have h := hl a ha
    have hlt := a.toU32_lt
    have he : (k * 32 + a.toU32 % 32) % 2 ^ 32 = a.toU32 := by omega
    simp only [Function.comp_apply, he, FileAttr.fromU32_toU32]
  rw [List.filterMap_congr hall, List.filterMap_some]

/-- Attributes of the second word move the loop on to it once. -/
lemma foldl_bitmapStep_second (seg : UInt32) (L : List ℕ) (hne : L ≠ [])
    (hL : ∀ i ∈ L, 32 ≤ i ∧ i < 56) :
    L.foldl bitmapStep ([], seg) =
      ([seg], UInt32.ofNat ((L.map (fun i => 2 ^ (i % 32))).sum)) := by
  obtain ⟨i, L, rfl⟩ := List.exists_cons_of_ne_nil hne
  simp only [List.mem_cons, forall_eq_or_imp] at hL
  have hyes : (((i + 30) / 31 : ℕ) : ℤ) - 1 > (([] : List UInt32).length : ℤ) := by
    simp only [List.length_nil]
    omega
  rw [List.foldl_cons, bitmapStep, if_pos hyes,
    foldl_bitmapStep 1 _ rfl L _ (fun j hj => by have := hL.2 j hj; omega), List.map_cons,
    List.sum_cons, UInt32.ofNat_add]
  simp

/-- Ascending attribute lists round trip through the bitmap.
**Proof sketch.** The list splits into the attributes below 32 and the others. The loop sums
the former into the first word and, if there are any of the latter, pushes it and sums them
into a second one; each word is read back by `segmentAttrs_sum`. -/
lemma fileAttrsFromU32_fileAttrsToBitmap (l : List FileAttr) (hasc : Ascending l) :
    fileAttrsFromU32 (fileAttrsToBitmap l) = l := by
  set lo := l.takeWhile (fun a => a.toU32 < 32) with hlo
  set hi := l.dropWhile (fun a => a.toU32 < 32) with hhi
  have hl : l = lo ++ hi := (List.takeWhile_append_dropWhile).symm
  have hlo_lt : ∀ a ∈ lo, a.toU32 < 32 := fun a ha => by
    simpa using List.mem_takeWhile_imp ha
  have hasc' : Ascending (lo ++ hi) := hl ▸ hasc
  obtain ⟨hasc_lo, hasc_hi, -⟩ := List.pairwise_append.1 hasc'
  have hhi_ge : ∀ a ∈ hi, 32 ≤ a.toU32 := by
    intro a ha
    cases hcase : hi with
    | nil => simp [hcase] at ha
    | cons b t =>
      have hb : 32 ≤ b.toU32 := by
        have := List.head?_dropWhile_not (fun a : FileAttr => decide (a.toU32 < 32)) l
        rw [← hhi, hcase] at this
        simpa using this
      rw [hcase] at ha hasc_hi
      rcases List.mem_cons.1 ha with rfl | hat
      · exact hb
      · exact le_of_lt (lt_of_le_of_lt hb (List.rel_of_pairwise_cons hasc_hi hat))
  have hfirst : (lo.map FileAttr.toU32).foldl bitmapStep ([], 0) =
      ([], UInt32.ofNat (((lo.map FileAttr.toU32).map (fun i => 2 ^ (i % 32))).sum)) := by
    rw [foldl_bitmapStep 0 [] rfl _ 0 ?_]
    · simp
    · intro i hi'
      obtain ⟨a, ha, rfl⟩ := List.mem_map.1 hi'
      have := hlo_lt a ha
      omega
  have hseg0 := segmentAttrs_sum 0 lo hasc_lo (fun a ha => by have := hlo_lt a ha; omega)
  by_cases hne : hi = []
  · rw [hl, hne, List.append_nil, fileAttrsToBitmap, hfirst]
    simpa [fileAttrsFromU32] using hseg0
  · have hseg1 := segmentAttrs_sum 1 hi hasc_hi
      (fun a ha => by have := hhi_ge a ha; have := a.toU32_lt; omega)
    have hsecond := foldl_bitmapStep_second
      (UInt32.ofNat (((lo.map FileAttr.toU32).map (fun i => 2 ^ (i % 32))).sum))
      (hi.map FileAttr.toU32) (by simpa using hne) (by
        intro i hi'
        obtain ⟨a, ha, rfl⟩ := List.mem_map.1 hi'
        exact ⟨hhi_ge a ha, a.toU32_lt⟩)
    rw [hl, fileAttrsToBitmap, List.map_append, List.foldl_append, hfirst, hsecond]
    simpa [fileAttrsFromU32] using congrArg₂ (· ++ ·) hseg0 hseg1

/-! ### Attribute values -/

/-- A string as `to_bytes` writes it: the length cast to `u32`, the bytes, zeros up to a
multiple of four. -/
def putStr (s : String) : Bytes :=
  beBytes 4 (Xdr.asBytes s).length ++
    (Xdr.asBytes s ++ List.replicate (Codec.padding (Xdr.asBytes s).length) 0)

/-- `write_pathname4`. -/
def writePathname4 (path : List String) : Bytes :=
  beBytes 4 path.length ++ path.flatMap putStr

/-- A time as `to_bytes` writes it. -/
def putTime (t : Nfstime4) : Bytes :=
  beBytes 8 t.seconds.toUInt64.toNat ++ beBytes 4 t.nseconds.toNat

/-- An access control entry as `to_bytes` writes it. -/
def putAce (ace : Nfsace4) : Bytes :=
  beBytes 4 ace.acetype.toNat ++ (beBytes 4 ace.flag.toNat ++
    (beBytes 4 ace.accessMask.toNat ++ putStr ace.who))

/-- An `fs_location4` as `to_bytes` writes it. -/
def putLocation (loc : FsLocation4) : Bytes :=
  writePathname4 loc.server ++ writePathname4 loc.rootpath

/-- A flag as `to_bytes` writes it. -/
def putBool (b : Bool) : Bytes := beBytes 4 b.toNat

/-- The arm of `Attrlist4<FileAttrValue>::to_bytes` for one value. The values that carry
nothing, the filehandle and the MIME type have no arm and are written as nothing. -/
def attrvalueToBytes : FileAttrValue → Bytes
  | .type v => beBytes 4 v.toU32
  | .leaseTime v => beBytes 4 v.toNat
  | .supportedAttrs v =>
    let attrs := fileAttrsToBitmap v
    beBytes 4 attrs.length ++ attrs.flatMap (fun attr => beBytes 4 attr.toNat)
  | .fhExpireType v => beBytes 4 v.toNat
  | .change v => beBytes 8 v.toNat
  | .size v => beBytes 8 v.toNat
  | .linkSupport v => putBool v
  | .symlinkSupport v => putBool v
  | .namedAttr v => putBool v
  | .fsid v => beBytes 8 v.major.toNat ++ beBytes 8 v.minor.toNat
  | .uniqueHandles v => putBool v
  | .rdattrError v => beBytes 4 v.toU32
  | .fileid v => beBytes 8 v.toNat
  | .acl aces => beBytes 4 aces.length ++ aces.flatMap putAce
  | .aclSupport v => beBytes 4 v.toNat
  | .mode v => beBytes 4 v.toNat
  | .timeAccess v => putTime v
  | .timeModify v => putTime v
  | .timeMetadata v => putTime v
  | .mountedOnFileid v => beBytes 8 v.toNat
  | .owner v => putStr v
  | .ownerGroup v => putStr v
  | .quotaAvailHard v => beBytes 8 v.toNat
  | .quotaAvailSoft v => beBytes 8 v.toNat
  | .quotaUsed v => beBytes 8 v.toNat
  | .spaceAvail v => beBytes 8 v.toNat
  | .spaceFree v => beBytes 8 v.toNat
  | .spaceTotal v => beBytes 8 v.toNat
  | .spaceUsed v => beBytes 8 v.toNat
  | .numlinks v => beBytes 4 v.toNat
  | .maxfilesize v => beBytes 8 v.toNat
  | .maxread v => beBytes 8 v.toNat
  | .maxwrite v => beBytes 8 v.toNat
  | .maxlink v => beBytes 4 v.toNat
  | .maxname v => beBytes 4 v.toNat
  | .homogeneous v => putBool v
  | .noTrunc v => putBool v
  | .cansettime v => putBool v
  | .caseInsensitive v => putBool v
  | .casePreserving v => putBool v
  | .chownRestricted v => putBool v
  | .filesAvail v => beBytes 8 v.toNat
  | .filesFree v => beBytes 8 v.toNat
  | .filesTotal v => beBytes 8 v.toNat
  | .fsLocations v =>
    writePathname4 v.fsRoot ++ (beBytes 4 v.locations.length ++ v.locations.flatMap putLocation)
  | .timeCreate v => putTime v
  | .timeDelta v => putTime v
  | .archive | .hidden | .rawdev | .system | .timeAccessSet | .timeBackup | .timeModifySet
  | .filehandle _ | .mimetype _ => []

/-- `Attrlist4<FileAttrValue>::to_bytes`. -/
def attrvaluesToBytes (vals : List FileAttrValue) : Bytes := vals.flatMap attrvalueToBytes

/-- The `k`-byte word at `off` (`buf[off..off + k]`), if the buffer reaches that far. -/
def wordAt (buf : Bytes) (k off : ℕ) : Option ℕ :=
  if off + k > buf.length then none else some (ofBytes ((buf.drop off).take k))

/-- The `len` bytes at `off` (`buf[off..off + len]`), read leniently as text. -/
def textAt (buf : Bytes) (len off : ℕ) : String := Xdr.fromUtf8Lossy ((buf.drop off).take len)

/-- The loop of `read_pathname4` over the components; `(slen + 3) & !3` is the padded
length. -/
def componentsAt (buf : Bytes) : ℕ → ℕ → Option (List String × ℕ)
  | 0, off => some ([], off)
  | n + 1, off => do
    let slen ← wordAt buf 4 off
    let off := off + 4
    let padded := (slen + 3) / 4 * 4
    if off + padded > buf.length then none
    else
      let (rest, off') ← componentsAt buf n (off + padded)
      pure (textAt buf slen off :: rest, off')

/-- `read_pathname4`. -/
def readPathname4 (buf : Bytes) (off : ℕ) : Option (List String × ℕ) := do
  let count ← wordAt buf 4 off
  componentsAt buf count (off + 4)

/-- The loop over the locations of an `fs_locations4`. -/
def locationsAt (buf : Bytes) : ℕ → ℕ → Option (List FsLocation4 × ℕ)
  | 0, off => some ([], off)
  | n + 1, off => do
    let (server, off) ← readPathname4 buf off
    let (rootpath, off) ← readPathname4 buf off
    let (rest, off) ← locationsAt buf n off
    pure (⟨server, rootpath⟩ :: rest, off)

/-- The loop over the entries of an ACL. Its `break`s leave the inner loop only, so entries
that do not fit are dropped without an error. -/
def acesAt (buf : Bytes) : ℕ → ℕ → List Nfsace4 × ℕ
  | 0, off => ([], off)
  | n + 1, off =>
    match wordAt buf 4 off, wordAt buf 4 (off + 4), wordAt buf 4 (off + 8) with
    | some acetype, some flag, some accessMask =>
      match wordAt buf 4 (off + 12) with
      | none => ([], off + 12)
      | some whoLen =>
        if off + 16 + whoLen > buf.length then ([], off + 16)
        else
          let (rest, off') := acesAt buf n (off + 16 + (whoLen + Codec.padding whoLen))
          (⟨UInt32.ofNat acetype, UInt32.ofNat flag, UInt32.ofNat accessMask,
            textAt buf whoLen (off + 16)⟩ :: rest, off')
    | _, _, _ => ([], off)

/-- A `u32` value of an attribute. -/
def u32At (buf : Bytes) (off : ℕ) (mk : UInt32 → FileAttrValue) : Option (FileAttrValue × ℕ) :=
  (wordAt buf 4 off).map fun n => (mk (UInt32.ofNat n), off + 4)

/-- A `u64` value of an attribute. -/
def u64At (buf : Bytes) (off : ℕ) (mk : UInt64 → FileAttrValue) : Option (FileAttrValue × ℕ) :=
  (wordAt buf 8 off).map fun n => (mk (UInt64.ofNat n), off + 8)

/-- A flag of an attribute: every nonzero word sets it. -/
def boolAt (buf : Bytes) (off : ℕ) (mk : Bool → FileAttrValue) : Option (FileAttrValue × ℕ) :=
  (wordAt buf 4 off).map fun n => (mk (n != 0), off + 4)

/-- A time of an attribute. -/
def timeAt (buf : Bytes) (off : ℕ) (mk : Nfstime4 → FileAttrValue) :
    Option (FileAttrValue × ℕ) :=
  if off + 12 > buf.length then none
  else do
    let seconds ← wordAt buf 8 off
    let nseconds ← wordAt buf 4 (off + 8)
    pure (mk ⟨(UInt64.ofNat seconds).toInt64, UInt32.ofNat nseconds⟩, off + 12)

/-- A string of an attribute. The padding after it is skipped unchecked. -/
def strAt (buf : Bytes) (off : ℕ) (mk : String → FileAttrValue) : Option (FileAttrValue × ℕ) := do
  let len ← wordAt buf 4 off
  let off := off + 4
  if off + len > buf.length then none
  else pure (mk (textAt buf len off), off + (len + Codec.padding len))

/-- The file type a word stands for: unknown words are `Nf4Undef`. -/
def ftypeOfU32 : ℕ → NfsFtype4
  | 1 => .nf4reg | 2 => .nf4dir | 3 => .nf4blk | 4 => .nf4chr | 5 => .nf4lnk | 6 => .nf4sock
  | 7 => .nf4fifo | 8 => .nf4attrdir | 9 => .nf4namedattr | _ => NfsFtype4.nf4Undef

/-- The arm of `attrvalues_from_bytes` for one attribute at `off`: the value and the offset
after it, or `none` where the source leaves the loop. -/
def attrvalueAt (buf : Bytes) (off : ℕ) : FileAttr → Option (FileAttrValue × ℕ)
  | .type => (wordAt buf 4 off).map fun n => (.type (ftypeOfU32 n), off + 4)
  | .change => u64At buf off .change
  | .size => u64At buf off .size
  | .mode => u32At buf off .mode
  | .numlinks => u32At buf off .numlinks
  | .quotaAvailHard => u64At buf off .quotaAvailHard
  | .quotaAvailSoft => u64At buf off .quotaAvailSoft
  | .quotaUsed => u64At buf off .quotaUsed
  | .spaceAvail => u64At buf off .spaceAvail
  | .spaceFree => u64At buf off .spaceFree
  | .spaceTotal => u64At buf off .spaceTotal
  | .spaceUsed => u64At buf off .spaceUsed
  | .mountedOnFileid => u64At buf off .mountedOnFileid
  | .filesAvail => u64At buf off .filesAvail
  | .filesFree => u64At buf off .filesFree
  | .filesTotal => u64At buf off .filesTotal
  | .fsLocations => do
    let (fsRoot, off) ← readPathname4 buf off
    let count ← wordAt buf 4 off
    let (locations, off) ← locationsAt buf count (off + 4)
    pure (.fsLocations ⟨fsRoot, locations⟩, off)
  | .caseInsensitive => boolAt buf off .caseInsensitive
  | .casePreserving => boolAt buf off .casePreserving
  | .timeCreate => timeAt buf off .timeCreate
  | .timeDelta => timeAt buf off .timeDelta
  | .timeAccess => timeAt buf off .timeAccess
  | .timeModify => timeAt buf off .timeModify
  | .timeMetadata => timeAt buf off .timeMetadata
  | .owner => strAt buf off .owner
  | .ownerGroup => strAt buf off .ownerGroup
  | .acl => (wordAt buf 4 off).map fun count =>
      let (aces, off) := acesAt buf count (off + 4)
      (.acl aces, off)
  | _ => none

/-- `FattrRaw::attrvalues_from_bytes`, from offset `off`. -/
def attrvaluesFromBytes (buf : Bytes) : List FileAttr → ℕ → List FileAttrValue
  | [], _ => []
  | attr :: attrs, off =>
    if off > buf.length then []
    else
      match attrvalueAt buf off attr with
      | none => []
      | some (v, off') => v :: attrvaluesFromBytes buf attrs off'

/-- Whether `attrvalues_from_bytes` has an arm for an attribute. -/
def FileAttr.decodable : FileAttr → Bool
  | .type | .change | .size | .mode | .numlinks | .quotaAvailHard | .quotaAvailSoft
  | .quotaUsed | .spaceAvail | .spaceFree | .spaceTotal | .spaceUsed | .mountedOnFileid
  | .filesAvail | .filesFree | .filesTotal | .fsLocations | .caseInsensitive
  | .casePreserving | .timeCreate | .timeDelta | .timeAccess | .timeModify | .timeMetadata
  | .owner | .ownerGroup | .acl => true
  | _ => false

/-- Padding a length to a multiple of four in the two ways the source does. -/
lemma padded_eq (n : ℕ) : (n + 3) / 4 * 4 = n + Codec.padding n := by
  rw [Codec.padding]
  omega

/-! ### The layout of values -/

/-- A big-endian word of `k` bytes. -/
def IsWord (k n : ℕ) (bs : Bytes) : Prop := bs.length = k ∧ ofBytes bs = n

/-- A string: its length, its bytes and up to three more. -/
def IsStr (s : String) (bs : Bytes) : Prop :=
  ∃ len raw pad, bs = len ++ (raw ++ pad) ∧ IsWord 4 raw.length len ∧
    pad.length = Codec.padding raw.length ∧ Xdr.fromUtf8Lossy raw = s

/-- An array: the number of its elements and the elements. -/
def IsArray {α : Type} (IsElem : α → Bytes → Prop) (l : List α) (bs : Bytes) : Prop :=
  ∃ count elems, bs = count ++ elems.flatten ∧ IsWord 4 l.length count ∧
    List.Forall₂ IsElem l elems

/-- A time. -/
def IsTime (t : Nfstime4) (bs : Bytes) : Prop :=
  ∃ seconds nseconds, bs = seconds ++ nseconds ∧ IsWord 8 t.seconds.toUInt64.toNat seconds ∧
    IsWord 4 t.nseconds.toNat nseconds

/-- An access control entry. -/
def IsAce (ace : Nfsace4) (bs : Bytes) : Prop :=
  ∃ acetype flag accessMask who, bs = acetype ++ (flag ++ (accessMask ++ who)) ∧
    IsWord 4 ace.acetype.toNat acetype ∧ IsWord 4 ace.flag.toNat flag ∧
    IsWord 4 ace.accessMask.toNat accessMask ∧ IsStr ace.who who

/-- An `fs_location4`. -/
def IsLocation (loc : FsLocation4) (bs : Bytes) : Prop :=
  ∃ server rootpath, bs = server ++ rootpath ∧ IsArray IsStr loc.server server ∧
    IsArray IsStr loc.rootpath rootpath

/-- Bytes that stand for a value of an attribute the server takes from clients. -/
def Encodes : FileAttrValue → Bytes → Prop
  | .type v, bs => ∃ n, IsWord 4 n bs ∧ ftypeOfU32 n = v
  | .caseInsensitive v, bs | .casePreserving v, bs => ∃ n, IsWord 4 n bs ∧ (n != 0) = v
  | .mode v, bs | .numlinks v, bs => IsWord 4 v.toNat bs
  | .change v, bs | .size v, bs | .quotaAvailHard v, bs | .quotaAvailSoft v, bs
  | .quotaUsed v, bs | .spaceAvail v, bs | .spaceFree v, bs | .spaceTotal v, bs
  | .spaceUsed v, bs | .mountedOnFileid v, bs | .filesAvail v, bs | .filesFree v, bs
  | .filesTotal v, bs => IsWord 8 v.toNat bs
  | .timeCreate v, bs | .timeDelta v, bs | .timeAccess v, bs | .timeModify v, bs
  | .timeMetadata v, bs => IsTime v bs
  | .owner v, bs | .ownerGroup v, bs => IsStr v bs
  | .acl v, bs => IsArray IsAce v bs
  | .fsLocations v, bs => ∃ fsRoot locations, bs = fsRoot ++ locations ∧
      IsArray IsStr v.fsRoot fsRoot ∧ IsArray IsLocation v.locations locations
  | _, _ => False

/-! ### Reading values back -/

/-- At offset `off` the buffer continues with `front` and then `post`. -/
structure At (buf : Bytes) (off : ℕ) (front post : Bytes) : Prop where
  le : off ≤ buf.length
  drop_eq : buf.drop off = front ++ post

namespace At

variable {buf front post : Bytes} {off : ℕ}

/-- The whole buffer stands at its start. -/
lemma start (buf : Bytes) : At buf 0 buf [] := ⟨Nat.zero_le _, by simp⟩

/-- What stands at `off` ends within the buffer. -/
lemma length_le (h : At buf off front post) : off + front.length ≤ buf.length := by
  have hlen := congrArg List.length h.drop_eq
  have hle := h.le
  simp only [List.length_drop, List.length_append] at hlen
  omega

/-- Two parts stand one after the other. -/
lemma split {a b : Bytes} (h : At buf off (a ++ b) post) :
    At buf off a (b ++ post) ∧ At buf (off + a.length) b post := by
  refine ⟨⟨h.le, by rw [h.drop_eq, List.append_assoc]⟩, ⟨?_, ?_⟩⟩
  · have := h.length_le
    rw [List.length_append] at this
    omega
  · rw [← List.drop_drop, h.drop_eq, List.append_assoc, List.drop_left]

/-- The first bytes of what stands at `off`. -/
lemma take_eq (h : At buf off front post) : (buf.drop off).take front.length = front := by
  rw [h.drop_eq, List.take_left]

/-- A word is read. -/
lemma wordAt_eq {k n : ℕ} (h : At buf off front post) (hw : IsWord k n front) :
    wordAt buf k off = some n := by
  obtain ⟨rfl, rfl⟩ := hw
  rw [wordAt, if_neg (by have := h.length_le; omega), h.take_eq]

/-- The parts of a string: the length, the text, and the end. -/
lemma str {s : String} (h : At buf off front post) (hs : IsStr s front) :
    ∃ n, wordAt buf 4 off = some n ∧ textAt buf n (off + 4) = s ∧
      front.length = 4 + (n + Codec.padding n) ∧ off + front.length ≤ buf.length := by
  obtain ⟨len, raw, pad, rfl, hlen, hpad, hraw⟩ := hs
  have hle := h.length_le
  obtain ⟨hl, ht⟩ := h.split
  rw [hlen.1] at ht
  refine ⟨raw.length, hl.wordAt_eq hlen, ?_, ?_, hle⟩
  · rw [textAt, ht.split.1.take_eq, hraw]
  · simp only [List.length_append, hlen.1, hpad]

end At

/-- The components of a path are read. -/
lemma componentsAt_eq {buf post : Bytes} {off : ℕ} {path : List String} {elems : List Bytes}
    (hpath : List.Forall₂ IsStr path elems) (h : At buf off elems.flatten post) :
    componentsAt buf path.length off = some (path, off + elems.flatten.length) := by
  induction hpath generalizing off with
  | nil => rfl
  | @cons s bs path elems hs _ ih =>
    rw [List.flatten_cons] at h ⊢
    obtain ⟨hfirst, hrest⟩ := h.split
    obtain ⟨n, hw, ht, hlen, hle⟩ := hfirst.str hs
    have hoff : off + bs.length = off + 4 + (n + 3) / 4 * 4 := by
      rw [padded_eq]
      omega
    rw [hoff] at hrest
    rw [List.length_cons, componentsAt, hw]
    simp only [Option.bind_eq_bind, Option.bind_some]
    rw [if_neg (by rw [padded_eq]; omega), ih hrest, ht]
    simp only [Option.bind_some, Option.pure_def, List.length_append]
    congr 2
    omega

/-- A path is read. -/
lemma readPathname4_eq {buf front post : Bytes} {off : ℕ} {path : List String}
    (h : At buf off front post) (hp : IsArray IsStr path front) :
    readPathname4 buf off = some (path, off + front.length) := by
  obtain ⟨count, elems, rfl, hcount, hpath⟩ := hp
  obtain ⟨hw, hrest⟩ := h.split
  rw [hcount.1] at hrest
  rw [readPathname4, hw.wordAt_eq hcount]
  simp only [Option.bind_eq_bind, Option.bind_some]
  rw [componentsAt_eq hpath hrest, List.length_append, hcount.1, Nat.add_assoc]

/-- The locations of an `fs_locations4` are read. -/
lemma locationsAt_eq {buf post : Bytes} {off : ℕ} {locs : List FsLocation4} {elems : List Bytes}
    (hlocs : List.Forall₂ IsLocation locs elems) (h : At buf off elems.flatten post) :
    locationsAt buf locs.length off = some (locs, off + elems.flatten.length) := by
  induction hlocs generalizing off with
  | nil => rfl
  | @cons loc bs locs elems hloc _ ih =>
    rw [List.flatten_cons] at h ⊢
    obtain ⟨hfirst, hrest⟩ := h.split
    obtain ⟨server, rootpath, rfl, hs, hr⟩ := hloc
    obtain ⟨hserver, hroot⟩ := hfirst.split
    rw [List.length_append, ← Nat.add_assoc] at hrest
    rw [List.length_cons, locationsAt, readPathname4_eq hserver hs]
    simp only [Option.bind_eq_bind, Option.bind_some]
    rw [readPathname4_eq hroot hr]
    simp only [Option.bind_some]
    rw [ih hrest]
    simp only [Option.bind_some, Option.pure_def, List.length_append]
    congr 2
    omega

/-- The entries of an ACL are read. -/
lemma acesAt_eq {buf post : Bytes} {off : ℕ} {aces : List Nfsace4} {elems : List Bytes}
    (haces : List.Forall₂ IsAce aces elems) (h : At buf off elems.flatten post) :
    acesAt buf aces.length off = (aces, off + elems.flatten.length) := by
  induction haces generalizing off with
  | nil => rfl
  | @cons ace bs aces elems hace _ ih =>
    rw [List.flatten_cons] at h ⊢
    obtain ⟨hfirst, hrest⟩ := h.split
    obtain ⟨acetype, flag, accessMask, who, rfl, htype, hflag, hmask, hwho⟩ := hace
    obtain ⟨hatype, h⟩ := hfirst.split
    obtain ⟨haflag, h⟩ := h.split
    obtain ⟨hamask, hawho⟩ := h.split
    simp only [htype.1, hflag.1, hmask.1] at haflag hamask hawho
    obtain ⟨n, hlen, htext, hwlen, hle⟩ := hawho.str hwho
    simp only [List.length_append, htype.1, hflag.1, hmask.1, hwlen] at hrest
    have hoff : off + (4 + (4 + (4 + (4 + (n + Codec.padding n))))) =
        off + 16 + (n + Codec.padding n) := by
      omega
    rw [hoff] at hrest
    have hlen' : wordAt buf 4 (off + 12) = some n := hlen
    have htext' : textAt buf n (off + 16) = ace.who := htext
    have hflag' : wordAt buf 4 (off + 4) = some ace.flag.toNat := haflag.wordAt_eq hflag
    have hmask' : wordAt buf 4 (off + 8) = some ace.accessMask.toNat := hamask.wordAt_eq hmask
    rw [List.length_cons, acesAt, hatype.wordAt_eq htype, hflag', hmask', hlen']
    simp only [UInt32.ofNat_toNat]
    rw [if_neg (by omega), ih hrest, htext']
    simp only [List.length_append, htype.1, hflag.1, hmask.1, hwlen]
    congr 1
    omega

/-- A time is read. -/
lemma timeAt_eq {buf front post : Bytes} {off : ℕ} {t : Nfstime4}
    (mk : Nfstime4 → FileAttrValue) (h : At buf off front post) (ht : IsTime t front) :
    timeAt buf off mk = some (mk t, off + front.length) := by
  obtain ⟨seconds, nseconds, rfl, hs, hn⟩ := ht
  have hle := h.length_le
  obtain ⟨has, han⟩ := h.split
  simp only [List.length_append, hs.1, hn.1] at hle han ⊢
  rw [timeAt, if_neg (by omega), has.wordAt_eq hs, han.wordAt_eq hn]
  simp only [Option.bind_eq_bind, Option.bind_some, Option.pure_def, UInt64.ofNat_toNat,
    UInt32.ofNat_toNat, Int64.toInt64_toUInt64]

/-- A string is read. -/
lemma strAt_eq {buf front post : Bytes} {off : ℕ} {s : String} (mk : String → FileAttrValue)
    (h : At buf off front post) (hs : IsStr s front) :
    strAt buf off mk = some (mk s, off + front.length) := by
  obtain ⟨n, hw, ht, hlen, hle⟩ := h.str hs
  rw [strAt, hw]
  simp only [Option.bind_eq_bind, Option.bind_some]
  rw [if_neg (by omega), ht, hlen, Nat.add_assoc]
  rfl

/-- An attribute without an arm ends the loop. -/
lemma attrvalueAt_of_not_decodable (buf : Bytes) (off : ℕ) {attr : FileAttr}
    (h : attr.decodable = false) : attrvalueAt buf off attr = none := by
  cases attr <;> first | rfl | cases h

/-- The bytes of a value are read as the value.
**Proof sketch.** One case for each arm; every word is read by `At.wordAt_eq`, and the
compound values by the lemmas above. -/
lemma attrvalueAt_eq {buf front post : Bytes} {off : ℕ} {v : FileAttrValue}
    (hv : Encodes v front) (h : At buf off front post) :
    attrvalueAt buf off v.attr = some (v, off + front.length) := by
  cases v with
  | type v =>
    obtain ⟨n, hw, rfl⟩ := hv
    simp [attrvalueAt, FileAttrValue.attr, h.wordAt_eq hw, hw.1]
  | mode v | numlinks v =>
    have hw : IsWord 4 v.toNat front := hv
    simp [attrvalueAt, FileAttrValue.attr, u32At, h.wordAt_eq hw, hw.1]
  | change v | size v | quotaAvailHard v | quotaAvailSoft v | quotaUsed v | spaceAvail v
  | spaceFree v | spaceTotal v | spaceUsed v | mountedOnFileid v | filesAvail v | filesFree v
  | filesTotal v =>
    have hw : IsWord 8 v.toNat front := hv
    simp [attrvalueAt, FileAttrValue.attr, u64At, h.wordAt_eq hw, hw.1]
  | caseInsensitive v | casePreserving v =>
    obtain ⟨n, hw, rfl⟩ := hv
    simp [attrvalueAt, FileAttrValue.attr, boolAt, h.wordAt_eq hw, hw.1]
  | timeCreate v | timeDelta v | timeAccess v | timeModify v | timeMetadata v =>
    exact timeAt_eq _ h hv
  | owner v | ownerGroup v => exact strAt_eq _ h hv
  | acl aces =>
    obtain ⟨count, elems, rfl, hcount, haces⟩ := hv
    obtain ⟨hw, ha⟩ := h.split
    rw [hcount.1] at ha
    simp [attrvalueAt, FileAttrValue.attr, hw.wordAt_eq hcount, acesAt_eq haces ha, hcount.1,
      Nat.add_assoc]
  | fsLocations v =>
    obtain ⟨fsRoot, locations, rfl, hroot, count, elems, rfl, hcount, hlocs⟩ := hv
    obtain ⟨haroot, h'⟩ := h.split
    obtain ⟨hw, halocs⟩ := h'.split
    rw [hcount.1] at halocs
    simp only [attrvalueAt, FileAttrValue.attr, Option.bind_eq_bind, Option.bind_some,
      Option.pure_def, readPathname4_eq haroot hroot, hw.wordAt_eq hcount,
      locationsAt_eq hlocs halocs, List.length_append, hcount.1]
    congr 2
    omega
  | _ => exact hv.elim

/-- The bytes of values are read as the values, up to an attribute without an arm. -/
lemma attrvaluesFromBytes_eq {buf post : Bytes} {off : ℕ} {vals : List FileAttrValue}
    {elems : List Bytes} (hvals : List.Forall₂ Encodes vals elems)
    (h : At buf off elems.flatten post) (attrs : List FileAttr)
    (hattrs : ∀ attr ∈ attrs.head?, attr.decodable = false) :
    attrvaluesFromBytes buf (vals.map FileAttrValue.attr ++ attrs) off = vals := by
  induction hvals generalizing off with
  | nil =>
    cases attrs with
    | nil => rfl
    | cons attr attrs =>
      have hnone := attrvalueAt_of_not_decodable buf off (hattrs attr rfl)
      simp only [List.map_nil, List.nil_append, attrvaluesFromBytes, hnone, ite_self]
  | cons hv _ ih =>
    rw [List.flatten_cons] at h
    obtain ⟨hfirst, hrest⟩ := h.split
    rw [List.map_cons, List.cons_append, attrvaluesFromBytes, if_neg (by have := h.le; omega),
      attrvalueAt_eq hv hfirst]
    simp only
    rw [ih hrest]

/-! ### Writing values -/

/-- The length of a string fits a word. -/
def StrFits (s : String) : Prop := (Xdr.asBytes s).length < 2 ^ 32

/-- The number of components of a path and their lengths fit a word. -/
def PathFits (path : List String) : Prop := path.length < 2 ^ 32 ∧ ∀ s ∈ path, StrFits s

/-- Every count and every length in a value fits a word. -/
def FileAttrValue.Fits : FileAttrValue → Prop
  | .owner s | .ownerGroup s => StrFits s
  | .acl aces => aces.length < 2 ^ 32 ∧ ∀ ace ∈ aces, StrFits ace.who
  | .fsLocations v => PathFits v.fsRoot ∧ v.locations.length < 2 ^ 32 ∧
      ∀ loc ∈ v.locations, PathFits loc.server ∧ PathFits loc.rootpath
  | _ => True

lemma isWord_beBytes {k n : ℕ} (hn : n < 256 ^ k) : IsWord k n (beBytes k n) :=
  ⟨length_beBytes k n, ofBytes_beBytes hn⟩

lemma isStr_putStr {s : String} (hs : StrFits s) : IsStr s (putStr s) :=
  ⟨_, _, _, rfl, isWord_beBytes hs, by simp, Xdr.fromUtf8Lossy_asBytes s⟩

/-- An array is written by writing its elements. -/
lemma isArray_put {α : Type} {IsElem : α → Bytes → Prop} {put : α → Bytes} {l : List α}
    (hlen : l.length < 2 ^ 32) (hput : ∀ a ∈ l, IsElem a (put a)) :
    IsArray IsElem l (beBytes 4 l.length ++ l.flatMap put) :=
  ⟨_, l.map put, rfl, isWord_beBytes hlen, List.forall₂_map_right_iff.2 (List.forall₂_same.2 hput)⟩

lemma isArray_writePathname4 {path : List String} (h : PathFits path) :
    IsArray IsStr path (writePathname4 path) :=
  isArray_put h.1 fun s hs => isStr_putStr (h.2 s hs)

lemma isTime_putTime (t : Nfstime4) : IsTime t (putTime t) :=
  ⟨_, _, rfl, isWord_beBytes t.seconds.toUInt64.toNat_lt, isWord_beBytes t.nseconds.toNat_lt⟩

/-- A value is written as bytes that stand for it. -/
lemma encodes_attrvalueToBytes {v : FileAttrValue} (hdec : v.attr.decodable = true)
    (hfits : v.Fits) : Encodes v (attrvalueToBytes v) := by
  cases v with
  | type v => exact ⟨_, isWord_beBytes (by cases v <;> decide), by cases v <;> rfl⟩
  | mode v | numlinks v => exact isWord_beBytes v.toNat_lt
  | change v | size v | quotaAvailHard v | quotaAvailSoft v | quotaUsed v | spaceAvail v
  | spaceFree v | spaceTotal v | spaceUsed v | mountedOnFileid v | filesAvail v | filesFree v
  | filesTotal v => exact isWord_beBytes v.toNat_lt
  | caseInsensitive v | casePreserving v =>
    exact ⟨v.toNat, isWord_beBytes (by cases v <;> decide), by cases v <;> rfl⟩
  | timeCreate v | timeDelta v | timeAccess v | timeModify v | timeMetadata v =>
    exact isTime_putTime v
  | owner v | ownerGroup v => exact isStr_putStr hfits
  | acl aces =>
    refine isArray_put hfits.1 fun ace hace => ?_
    exact ⟨_, _, _, _, rfl, isWord_beBytes ace.acetype.toNat_lt, isWord_beBytes ace.flag.toNat_lt,
      isWord_beBytes ace.accessMask.toNat_lt, isStr_putStr (hfits.2 ace hace)⟩
  | fsLocations v =>
    obtain ⟨hroot, hcount, hlocs⟩ := hfits
    refine ⟨_, _, rfl, isArray_writePathname4 hroot, isArray_put hcount fun loc hloc => ?_⟩
    exact ⟨_, _, rfl, isArray_writePathname4 (hlocs loc hloc).1,
      isArray_writePathname4 (hlocs loc hloc).2⟩
  | _ => cases hdec

/-- The bytes of one element are among those of all. -/
lemma length_le_of_mem {α : Type} (put : α → Bytes) {a : α} {l : List α} (ha : a ∈ l) :
    (put a).length ≤ (l.flatMap put).length :=
  (List.sublist_flatten_of_mem (List.mem_map_of_mem ha)).length_le

/-- If every element is written with at least one byte, there are no more elements than
bytes. -/
lemma length_le_flatMap {α : Type} (put : α → Bytes) (hput : ∀ a, 0 < (put a).length)
    (l : List α) : l.length ≤ (l.flatMap put).length := by
  induction l with
  | nil => simp
  | cons a l ih =>
    have := hput a
    simp only [List.length_cons, List.flatMap_cons, List.length_append]
    omega

lemma strFits_of_length {s : String} (h : (putStr s).length < 2 ^ 32) : StrFits s := by
  simp only [putStr, List.length_append, length_beBytes] at h
  unfold StrFits
  omega

lemma pathFits_of_length {path : List String} (h : (writePathname4 path).length < 2 ^ 32) :
    PathFits path := by
  simp only [writePathname4, List.length_append, length_beBytes] at h
  have hcount := length_le_flatMap putStr (fun s => by simp [putStr]) path
  refine ⟨by omega, fun s hs => strFits_of_length ?_⟩
  have := length_le_of_mem putStr hs
  omega

/-- In a value of fewer than 2^32 bytes every count and every length fits a word. -/
lemma fits_of_length {v : FileAttrValue} (h : (attrvalueToBytes v).length < 2 ^ 32) : v.Fits := by
  cases v with
  | owner s | ownerGroup s => exact strFits_of_length h
  | acl aces =>
    simp only [attrvalueToBytes, List.length_append, length_beBytes] at h
    have hcount := length_le_flatMap putAce (fun a => by simp [putAce]) aces
    refine ⟨by omega, fun ace hace => strFits_of_length ?_⟩
    have hle := length_le_of_mem putAce hace
    simp only [putAce, List.length_append] at hle
    omega
  | fsLocations v =>
    simp only [attrvalueToBytes, List.length_append, length_beBytes] at h
    have hcount := length_le_flatMap putLocation
      (fun loc => by simp [putLocation, writePathname4]) v.locations
    refine ⟨pathFits_of_length (by omega), by omega, fun loc hloc => ?_⟩
    have hle := length_le_of_mem putLocation hloc
    simp only [putLocation, List.length_append] at hle
    exact ⟨pathFits_of_length (by omega), pathFits_of_length (by omega)⟩
  | _ => trivial

/-- Values that fit are written as bytes that stand for them. -/
lemma forall₂_encodes {vals : List FileAttrValue}
    (h : ∀ v ∈ vals, v.attr.decodable = true ∧ v.Fits) :
    List.Forall₂ Encodes vals (vals.map attrvalueToBytes) :=
  List.forall₂_map_right_iff.2
    (List.forall₂_same.2 fun v hv => encodes_attrvalueToBytes (h v hv).1 (h v hv).2)

/-- Of the values written, `attrvalues_from_bytes` gives back those in front of the first one
it has no arm for. -/
lemma attrvaluesFromBytes_toBytes {vals : List FileAttrValue}
    (h : ∀ v ∈ vals, v.attr.decodable = true → v.Fits) :
    attrvaluesFromBytes (attrvaluesToBytes vals) (vals.map FileAttrValue.attr) 0 =
      vals.takeWhile (fun v => v.attr.decodable) := by
  set front := vals.takeWhile (fun v => v.attr.decodable) with hfront
  set rest := vals.dropWhile (fun v => v.attr.decodable) with hrest
  have hvals : vals = front ++ rest := List.takeWhile_append_dropWhile.symm
  have hfits : ∀ v ∈ front, v.attr.decodable = true ∧ v.Fits := fun v hv =>
    have hdec := List.mem_takeWhile_imp (p := fun v : FileAttrValue => v.attr.decodable) hv
    ⟨hdec, h v (List.takeWhile_subset _ hv) hdec⟩
  have hat : At (attrvaluesToBytes vals) 0 (front.map attrvalueToBytes).flatten
      (attrvaluesToBytes rest) :=
    ⟨Nat.zero_le _, by
      rw [List.drop_zero]
      nth_rewrite 1 [hvals]
      rw [attrvaluesToBytes, List.flatMap_append]
      rfl⟩
  nth_rewrite 2 [hvals]
  rw [List.map_append]
  refine attrvaluesFromBytes_eq (forall₂_encodes hfits) hat _ fun attr hattr => ?_
  rw [List.head?_map, Option.mem_def, Option.map_eq_some_iff] at hattr
  obtain ⟨v, hv, rfl⟩ := hattr
  have hnot := List.head?_dropWhile_not (fun v : FileAttrValue => v.attr.decodable) vals
  rw [← hrest, hv] at hnot
  simpa using hnot

/-! ### Codecs -/

/-- `Attrlist4<FileAttr>`: a bitmap. -/
def attrlistCodec : Codec Xdr.Error (List FileAttr) where
  put ν l := (Xdr.vec Xdr.u32).put ν (fileAttrsToBitmap l)
  get := do
    let raw ← (Xdr.vec Xdr.u32).get
    pure (fileAttrsFromU32 raw)
  Wf := Ascending
  Reads _ _ := True
  get_put := by
    intro ν l bs r hasc _ h
    rw [Reader.bind_ok _ ((Xdr.vec Xdr.u32).get_put r (fun _ _ => trivial)
      (fun _ _ => trivial) h), fileAttrsFromU32_fileAttrsToBitmap l hasc]
    rfl
  reads_of_get _ _ _ := trivial

/-- A `Fattr4` is well formed when its values are those of its mask, in ascending order. -/
def Fattr4.WellFormed (f : Fattr4) : Prop :=
  Ascending f.attrmask ∧ f.attrVals.map FileAttrValue.attr = f.attrmask

/-- Whether the deserializer has an arm for every attribute of a `Fattr4`. -/
def Fattr4.decodable (f : Fattr4) : Bool := f.attrVals.all (fun v => v.attr.decodable)

/-- What `Deserialize for Fattr4` makes of the mask and the value bytes. -/
def fattr4OfRaw (attrmask : List UInt32) (attrVals : Bytes) : Fattr4 :=
  let mask := fileAttrsFromU32 attrmask
  ⟨mask, attrvaluesFromBytes attrVals mask 0⟩

/-- The mask and the values of a well-formed `Fattr4` are read back up to the first attribute
without an arm. -/
lemma fattr4OfRaw_eq {f : Fattr4} (hwf : f.WellFormed)
    (hlt : (attrvaluesToBytes f.attrVals).length < 256 ^ 4) :
    fattr4OfRaw (fileAttrsToBitmap f.attrmask) (attrvaluesToBytes f.attrVals) =
      ⟨f.attrmask, f.attrVals.takeWhile (fun v => v.attr.decodable)⟩ := by
  have hvals := attrvaluesFromBytes_toBytes fun v hv _ => fits_of_length
    (lt_of_le_of_lt (length_le_of_mem attrvalueToBytes hv) hlt)
  rw [hwf.2] at hvals
  rw [fattr4OfRaw, fileAttrsFromU32_fileAttrsToBitmap _ hwf.1, hvals]

/-- `Fattr4`: the bitmap of the mask and the bytes of the values. -/
def fattr4Codec : Codec Xdr.Error Fattr4 where
  put ν f := do
    let mask ← (Xdr.vec Xdr.u32).put ν (fileAttrsToBitmap f.attrmask)
    let vals ← Xdr.opaqueData.put ν (attrvaluesToBytes f.attrVals)
    pure (mask ++ vals)
  get := do
    let attrmask ← (Xdr.vec Xdr.u32).get
    let attrVals ← Xdr.opaqueData.get
    pure (fattr4OfRaw attrmask attrVals)
  Wf := Fattr4.WellFormed
  Reads _ f := f.decodable = true
  get_put := by
    intro ν f out r hwf hdec h
    obtain ⟨mask, hmask, h⟩ := except_bind_eq_ok.1 h
    obtain ⟨vals, hvals, h⟩ := except_bind_eq_ok.1 h
    cases h
    rw [List.append_assoc,
      Reader.bind_ok _ ((Xdr.vec Xdr.u32).get_put _ (fun _ _ => trivial) (fun _ _ => trivial)
        hmask),
      Reader.bind_ok _ (Xdr.opaqueData.get_put r trivial trivial hvals),
      fattr4OfRaw_eq hwf (Codec.length_lt_of_bytes_put hvals)]
    have hall : f.attrVals.takeWhile (fun v => v.attr.decodable) = f.attrVals := by
      rw [List.takeWhile_eq_self_iff]
      exact fun v hv => List.all_eq_true.1 hdec v hv
    rw [hall]
    rfl
  reads_of_get := by
    intro ν f out r r' hwf h hget
    obtain ⟨mask, hmask, h⟩ := except_bind_eq_ok.1 h
    obtain ⟨vals, hvals, h⟩ := except_bind_eq_ok.1 h
    cases h
    rw [List.append_assoc,
      Reader.bind_ok _ ((Xdr.vec Xdr.u32).get_put _ (fun _ _ => trivial) (fun _ _ => trivial)
        hmask),
      Reader.bind_ok _ (Xdr.opaqueData.get_put r trivial trivial hvals),
      fattr4OfRaw_eq hwf (Codec.length_lt_of_bytes_put hvals)] at hget
    simp only [Reader.pure_apply, Except.ok.injEq, Prod.mk.injEq] at hget
    have hall : f.attrVals.takeWhile (fun v => v.attr.decodable) = f.attrVals :=
      congrArg Fattr4.attrVals hget.1
    rw [Fattr4.decodable, List.all_eq_true]
    exact fun v hv => List.takeWhile_eq_self_iff.1 hall v hv

end NextNfs
