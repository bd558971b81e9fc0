import NextNfs.Proto.ReplySize

set_option relaxedAutoImplicit false
set_option autoImplicit false

/-!
# The encoding of attributes

The bytes of attribute values are written by hand (`Attrlist4<FileAttrValue>::to_bytes`), beside the
XDR serializer that writes everything else. This module says what XDR makes of the value of an
attribute, in terms of that serializer, and that the bytes written by hand are no others.

## Main definitions

* `NextNfs.XdrEncodes` — bytes are the XDR encoding of a value of an attribute.
* `NextNfs.FileAttrValue.Written` — `to_bytes` has an arm for the value.
* `NextNfs.Consistent` — a `Fattr4` answers an attribute request, also as it is sent.

## Main results

* `NextNfs.xdrEncodes_attrvalueToBytes` — `to_bytes` writes the XDR encoding of every value it has
  an arm for.
* `NextNfs.consistent_of_answers` — values beside their attributes, in ascending order, are sent
  consistently.
-/

namespace NextNfs

open Wire Xdr

/-! ### XDR -/

/-- A time in XDR. -/
def Nfstime4.xdr (t : Nfstime4) : Except Xdr.Error Bytes :=
  fields [toBytes Xdr.i64 t.seconds, toBytes Xdr.u32 t.nseconds]

/-- An access control entry in XDR. -/
def Nfsace4.xdr (ace : Nfsace4) : Except Xdr.Error Bytes :=
  fields [toBytes Xdr.u32 ace.acetype, toBytes Xdr.u32 ace.flag, toBytes Xdr.u32 ace.accessMask,
    toBytes Xdr.string ace.who]

/-- A path in XDR: its components. -/
def pathnameXdr (path : List String) : Except Xdr.Error Bytes :=
  serializeVec (toBytes Xdr.string) path

/-- An `fs_location4` in XDR. -/
def FsLocation4.xdr (loc : FsLocation4) : Except Xdr.Error Bytes :=
  fields [pathnameXdr loc.server, pathnameXdr loc.rootpath]

/-- The bytes are the XDR encoding of the value of an attribute. A list of attributes is encoded as
any bitmap that is decoded to it. -/
def XdrEncodes : FileAttrValue → Bytes → Prop
  | .supportedAttrs v, bs =>
    ∃ words, fileAttrsFromU32 words = v ∧ serializeVec (toBytes Xdr.u32) words = .ok bs
  | .type v, bs => toBytes Xdr.u32 (UInt32.ofNat v.toU32) = .ok bs
  | .rdattrError v, bs => serializeStat v = .ok bs
  | .fhExpireType v, bs | .leaseTime v, bs | .aclSupport v, bs | .maxlink v, bs | .maxname v, bs
  | .mode v, bs | .numlinks v, bs => toBytes Xdr.u32 v = .ok bs
  | .change v, bs | .size v, bs | .fileid v, bs | .filesAvail v, bs | .filesFree v, bs
  | .filesTotal v, bs | .maxfilesize v, bs | .maxread v, bs | .maxwrite v, bs
  | .quotaAvailHard v, bs | .quotaAvailSoft v, bs | .quotaUsed v, bs | .spaceAvail v, bs
  | .spaceFree v, bs | .spaceTotal v, bs | .spaceUsed v, bs | .mountedOnFileid v, bs =>
    toBytes Xdr.u64 v = .ok bs
  | .linkSupport v, bs | .symlinkSupport v, bs | .namedAttr v, bs | .uniqueHandles v, bs
  | .cansettime v, bs | .caseInsensitive v, bs | .casePreserving v, bs | .chownRestricted v, bs
  | .homogeneous v, bs | .noTrunc v, bs => toBytes Xdr.bool v = .ok bs
  | .timeAccess v, bs | .timeCreate v, bs | .timeDelta v, bs | .timeMetadata v, bs
  | .timeModify v, bs => v.xdr = .ok bs
  | .fsid v, bs => fields [toBytes Xdr.u64 v.major, toBytes Xdr.u64 v.minor] = .ok bs
  | .owner v, bs | .ownerGroup v, bs => toBytes Xdr.string v = .ok bs
  | .acl v, bs => serializeVec Nfsace4.xdr v = .ok bs
  | .fsLocations v, bs =>
    fields [pathnameXdr v.fsRoot, serializeVec FsLocation4.xdr v.locations] = .ok bs
  | .archive, _ | .hidden, _ | .rawdev, _ | .system, _ | .timeAccessSet, _ | .timeBackup, _
  | .timeModifySet, _ | .filehandle _, _ | .mimetype _, _ => False

/-! ### Writing by hand -/

/-- `to_bytes` has an arm for the value, and what it writes of a list of attributes is their
bitmap. -/
def FileAttrValue.Written : FileAttrValue → Prop
  | .supportedAttrs v => Ascending v
  | .archive | .hidden | .rawdev | .system | .timeAccessSet | .timeBackup | .timeModifySet
  | .filehandle _ | .mimetype _ => False
  | _ => True

/-- Fields that are written are written one after the other. -/
lemma fields_map_ok (parts : List Bytes) : fields (parts.map .ok) = .ok parts.flatten := by
  induction parts with
  | nil => rfl
  | cons part parts ih =>
    rw [List.map_cons, fields, ih]
    rfl

lemma serializeVec_ok {α : Type} {f : α → Except Xdr.Error Bytes} {put : α → Bytes} {l : List α}
    (hlen : l.length < 2 ^ 32) (hput : ∀ a ∈ l, f a = .ok (put a)) :
    serializeVec f l = .ok (beBytes 4 l.length ++ l.flatMap put) := by
  have hparts : l.map f = (l.map put).map .ok := by
    rw [List.map_map]
    exact List.map_congr_left hput
  rw [serializeVec, if_pos (show l.length < 256 ^ 4 from hlen), hparts, ← List.map_cons,
    fields_map_ok]
  rfl

lemma toBytes_string {s : String} (hs : StrFits s) : toBytes Xdr.string s = .ok (putStr s) :=
  toBytes_opaqueData hs

lemma nfstime4Xdr_eq (t : Nfstime4) : t.xdr = .ok (putTime t) :=
  (fields_map_ok [_, _]).trans (by simp [putTime])

lemma pathnameXdr_eq {path : List String} (h : PathFits path) :
    pathnameXdr path = .ok (writePathname4 path) :=
  serializeVec_ok h.1 fun s hs => toBytes_string (h.2 s hs)

lemma nfsace4Xdr_eq {ace : Nfsace4} (h : StrFits ace.who) : ace.xdr = .ok (putAce ace) := by
  rw [Nfsace4.xdr, toBytes_string h]
  exact (fields_map_ok [_, _, _, _]).trans (by simp [putAce])

lemma fsLocation4Xdr_eq {loc : FsLocation4} (hserver : PathFits loc.server)
    (hroot : PathFits loc.rootpath) : loc.xdr = .ok (putLocation loc) := by
  rw [FsLocation4.xdr, pathnameXdr_eq hserver, pathnameXdr_eq hroot]
  exact (fields_map_ok [_, _]).trans (by simp [putLocation])

/-- At most one word is pushed before the last. -/
lemma length_foldl_bitmapStep_le {L : List ℕ} (hL : ∀ i ∈ L, i < 56) {st : List UInt32 × UInt32}
    (hst : st.1.length ≤ 1) : (L.foldl bitmapStep st).1.length ≤ 1 := by
  induction L generalizing st with
  | nil => exact hst
  | cons i L ih =>
    obtain ⟨hi, hrest⟩ := List.forall_mem_cons.1 hL
    refine ih hrest ?_
    unfold bitmapStep
    split_ifs with hpush
    · simp only [List.length_append, List.length_singleton] at hpush ⊢
      omega
    · exact hst

lemma length_fileAttrsToBitmap_lt (l : List FileAttr) :
    (fileAttrsToBitmap l).length < 2 ^ 32 := by
  have hpushed := @length_foldl_bitmapStep_le (l.map FileAttr.toU32)
    (fun i hi => by
      obtain ⟨a, -, rfl⟩ := List.mem_map.1 hi
      exact a.toU32_lt) ([], 0) (Nat.zero_le _)
  rw [fileAttrsToBitmap, List.length_append, List.length_singleton]
  omega

/-- Words are written one after the other. -/
lemma exists_putAll_u32 (words : List UInt32) : ∃ bs, Xdr.u32.putAll .position words = .ok bs := by
  induction words with
  | nil => exact ⟨[], rfl⟩
  | cons w words ih =>
    obtain ⟨bs, hbs⟩ := ih
    exact ⟨_, except_bind_eq_ok.2 ⟨_, rfl, except_bind_eq_ok.2 ⟨bs, hbs, rfl⟩⟩⟩

/-- Words that are not too many are written. -/
lemma toBytes_words {words : List UInt32} (h : words.length < 2 ^ 32) :
    ∃ bs, toBytes (Xdr.vec Xdr.u32) words = .ok bs := by
  obtain ⟨bs, hbs⟩ := exists_putAll_u32 words
  exact ⟨_, except_bind_eq_ok.2 ⟨_, if_pos (show words.length < 256 ^ 4 from h),
    except_bind_eq_ok.2 ⟨bs, hbs, rfl⟩⟩⟩

/-- `to_bytes` writes the XDR encoding of a value. -/
lemma xdrEncodes_attrvalueToBytes {v : FileAttrValue} (hwritten : v.Written) (hfits : v.Fits) :
    XdrEncodes v (attrvalueToBytes v) := by
  cases v with
  | supportedAttrs v =>
    have hwords : (fileAttrsToBitmap v).length < 2 ^ 32 := length_fileAttrsToBitmap_lt v
    exact ⟨_, fileAttrsFromU32_fileAttrsToBitmap v hwritten, serializeVec_ok hwords fun _ _ => rfl⟩
  | type v =>
    cases v <;> rfl
  | linkSupport v | symlinkSupport v | namedAttr v | uniqueHandles v | cansettime v
  | caseInsensitive v | casePreserving v | chownRestricted v | homogeneous v | noTrunc v =>
    cases v <;> rfl
  | timeAccess v | timeCreate v | timeDelta v | timeMetadata v | timeModify v =>
    exact nfstime4Xdr_eq v
  | fsid v => exact (fields_map_ok [_, _]).trans (by simp [attrvalueToBytes])
  | owner v | ownerGroup v => exact toBytes_string hfits
  | acl v => exact serializeVec_ok hfits.1 fun ace hace => nfsace4Xdr_eq (hfits.2 ace hace)
  | fsLocations v =>
    obtain ⟨hroot, hcount, hlocs⟩ := hfits
    have hlist := serializeVec_ok hcount fun loc hloc =>
      fsLocation4Xdr_eq (hlocs loc hloc).1 (hlocs loc hloc).2
    simp only [XdrEncodes]
    rw [pathnameXdr_eq hroot, hlist]
    exact (fields_map_ok [_, _]).trans (by simp [attrvalueToBytes])
  | archive | hidden | rawdev | system | timeAccessSet | timeBackup | timeModifySet | filehandle _
  | mimetype _ => exact hwritten.elim
  | _ => rfl

/-! ### What is sent -/

/-- A `Fattr4` answers a request for attributes: what it has values of was asked for, it has one
value of each, and what is sent is a bitmap of these attributes and the XDR encodings of their
values, in ascending order. It is sent if its values are not too long for a word. -/
structure Consistent (request : List FileAttr) (f : Fattr4) : Prop where
  requested : f.attrmask ⊆ request
  ascending : Ascending f.attrmask
  values : f.attrVals.map FileAttrValue.attr = f.attrmask
  bitmap : fileAttrsFromU32 (fileAttrsToBitmap f.attrmask) = f.attrmask
  bytes : ∀ bs, toBytes fattr4Codec f = .ok bs → ∃ mask vals elems,
    toBytes (Xdr.vec Xdr.u32) (fileAttrsToBitmap f.attrmask) = .ok mask ∧
      toBytes Xdr.opaqueData elems.flatten = .ok vals ∧ bs = mask ++ vals ∧
      List.Forall₂ XdrEncodes f.attrVals elems
  sent : (attrvaluesToBytes f.attrVals).length < 2 ^ 32 → ∃ bs, toBytes fattr4Codec f = .ok bs

/-- Values beside their attributes, in the order of the request, are sent consistently.

**Proof sketch.** The attributes are ascending as the request is, so the bitmap is decoded to them.
What is sent as opaque data is shorter than 2^32 bytes, so every length in it fits its word, and the
bytes written by hand are those of XDR. -/
lemma consistent_of_answers {request : List FileAttr} {f : Fattr4} (hasc : Ascending request)
    (hmask : f.attrmask.Sublist request) (hvals : f.attrVals.map FileAttrValue.attr = f.attrmask)
    (hwritten : ∀ v ∈ f.attrVals, v.Written) : Consistent request f where
  requested := hmask.subset
  ascending := hasc.sublist hmask
  values := hvals
  bitmap := fileAttrsFromU32_fileAttrsToBitmap _ (hasc.sublist hmask)
  bytes := by
    intro bs hbs
    obtain ⟨mask, hput, hrest⟩ := except_bind_eq_ok.1 hbs
    obtain ⟨vals, hopaque, hout⟩ := except_bind_eq_ok.1 hrest
    cases hout
    have hlt := Codec.length_lt_of_bytes_put hopaque
    refine ⟨mask, vals, f.attrVals.map attrvalueToBytes, hput, hopaque, rfl,
      List.forall₂_map_right_iff.2 (List.forall₂_same.2 fun v hv => ?_)⟩
    exact xdrEncodes_attrvalueToBytes (hwritten v hv)
      (fits_of_length ((length_le_of_mem attrvalueToBytes hv).trans_lt hlt))
  sent := by
    intro hlt
    obtain ⟨mask, hput⟩ := toBytes_words (length_fileAttrsToBitmap_lt f.attrmask)
    refine ⟨_, except_bind_eq_ok.2 ⟨mask, hput, except_bind_eq_ok.2 ⟨_, toBytes_opaqueData hlt, rfl⟩⟩⟩

end NextNfs
