import NextNfs.Lib.WireSize
import NextNfs.Proto.Reply

set_option relaxedAutoImplicit false
set_option autoImplicit false

/-!
# The sizes of replies

How many bytes a reply is on the wire, by what is in it: the words are four bytes each, and opaque
data, of which the data of READ is the largest, its length, the data and the padding.

## Main definitions

* `NextNfs.NfsResOp4.size` — the size of the result of an operation.
* `NextNfs.RpcReplyMsg.size` — the size of a reply.

## Main results

* `NextNfs.hasSize_serializeElement` — a result is as long as it says.
* `NextNfs.hasSize_toBytes` — a reply is as long as it says.
-/

namespace NextNfs

open Wire

open Xdr (toBytes)

/-! ### Sizes -/

/-- The size of opaque data of some length. -/
def opaqueSize (length : ℕ) : ℕ := 4 + (length + Codec.padding length)

/-- The size of a string. -/
def stringSize (s : String) : ℕ := opaqueSize (Xdr.asBytes s).length

/-- The size of a list of attributes: the count and the words of its bitmap. -/
def attrlistSize (l : List FileAttr) : ℕ := 4 + 4 * (fileAttrsToBitmap l).length

/-- The size of attributes with their values. -/
def Fattr4.size (f : Fattr4) : ℕ :=
  attrlistSize f.attrmask + opaqueSize (attrvaluesToBytes f.attrVals).length

/-- The size of a lock that is in the way. -/
def Lock4denied.size (r : Lock4denied) : ℕ := 20 + (8 + opaqueSize r.owner.owner.length)

/-- The size of an access control entry. -/
def Nfsace4.size (r : Nfsace4) : ℕ := 12 + stringSize r.who

/-- The size of a space limit. -/
def NfsSpaceLimit4.size (_ : NfsSpaceLimit4) : ℕ := 12

/-- The size of a delegation. -/
def OpenDelegation4.size : OpenDelegation4 → ℕ
  | .none => 4
  | .read r => 4 + (20 + r.permissions.size)
  | .write r => 4 + (20 + (r.spaceLimit.size + r.permissions.size))

/-- The size of a directory entry and those after it. -/
def Entry4.size : Entry4 → ℕ
  | .mk _ name attrs nextentry =>
    8 + (stringSize name + (attrs.size +
      match nextentry with
      | none => 4
      | some e => 4 + e.size))

/-- The size of a page of a directory. -/
def DirList4.size (r : DirList4) : ℕ :=
  (match r.entries with
    | none => 4
    | some e => 4 + e.size) + 4

/-- The size of a security flavor. -/
def SeCinfo4.size : SeCinfo4 → ℕ
  | .authNone | .authSys => 4
  | .flavorInfo info => 4 + (opaqueSize info.oid.length + 8)

/-- The size of what names an implementation. -/
def NfsImplId4.size (r : NfsImplId4) : ℕ := stringSize r.niiDomain + (stringSize r.niiName + 12)

/-- The size of the attributes of a channel. -/
def ChannelAttrs4.size (r : ChannelAttrs4) : ℕ := 24 + (4 + 4 * r.caRdmaIrd.length)

/-- The size of what EXCHANGE_ID returns. -/
def ExchangeId4resok.size (r : ExchangeId4resok) : ℕ :=
  20 + (8 + opaqueSize r.eirServerOwner.soMajorId.length) + opaqueSize r.eirServerScope.length +
    (4 + (r.eirServerImplId.map NfsImplId4.size).sum)

/-- The size of a list of security flavors. -/
def secinfoSize (l : List SeCinfo4) : ℕ := 4 + (l.map SeCinfo4.size).sum

/-- The size of a result after its number. -/
def NfsResOp4.bodySize : NfsResOp4 → ℕ
  | .opUndef0 | .opUndef1 | .opUndef2 | .opputpubfh => 0
  | .opdelegpurge _ | .opdelegreturn _ | .oplookup _ | .oplookupp _ | .opnverify _ | .opopenattr _
  | .opputfh _ | .opputrootfh _ | .oprenew _ | .oprestorefh _ | .opsavefh _
  | .opsetclientidConfirm _ | .opverify _ | .opreleaseLockOwner _ | .opdestroySession _
  | .opfreeStateid _ | .opdestroyClientid _ | .opreclaimComplete _ | .opallocate _
  | .opError .. => 4
  | .opAccess _ => 12
  | .opclose _ | .oplocku _ | .opopenConfirm _ | .opopenDowngrade _ | .opwrite _ => 20
  | .opcommit _ => 12
  | .opcreate (.resok4 r) => 24 + attrlistSize r.attrset
  | .opgetattr r => 4 + if r.status = .nfs4Ok then (r.objAttributes.map Fattr4.size).getD 0 else 0
  | .opgetfh _ => 4 + opaqueSize 26
  | .oplink _ | .opremove _ => 24
  | .oplock (.resok4 _) => 20
  | .oplock (.denied r) | .oplockt (.denied r) => 4 + r.size
  | .opopen (.resok4 r) => 44 + (attrlistSize r.attrset + r.delegation.size)
  | .opread (.resok4 r) => 8 + opaqueSize r.data.length
  | .opreaddir (.resok4 r) => 12 + r.reply.size
  | .opreadlink r => 4 + stringSize r.link
  | .oprename _ => 44
  | .opSecinfo (.resok4 l) | .opsecinfoNoName (.resok4 l) => 4 + secinfoSize l
  | .opsetattr r => 4 + attrlistSize r.attrsset
  | .opsetclientid (.resok4 _) => 20
  | .opsetclientid (.clientUsing r) => 4 + (stringSize r.rnetid + stringSize r.raddr)
  | .opbindConnToSession _ => 28
  | .opexchangeId (.resok4 r) => 4 + r.size
  | .opcreateSession (.resok4 r) => 28 + (r.csrForeChanAttrs.size + r.csrBackChanAttrs.size)
  | .opgetdeviceInfo _ | .oplayoutCommit _ | .oplayoutReturn _ => 8
  | .opgetdeviceList (.resok4 _) | .oplayoutGet (.resok4 _) => 24
  | .opgetdeviceList (.err _) | .oplayoutGet (.err _) => 8
  | .opsequence _ => 40
  | .optestStateid (.resok4 r) => 8 + 4 * r.tsrStatusCodes.length
  | .opcopy (.resok4 r) => 36 + 16 * r.crResponse.wrCallbackId.length
  | .opseek _ => 16

/-- The size of the result of an operation. -/
def NfsResOp4.size (r : NfsResOp4) : ℕ := 4 + r.bodySize

/-- The size of the results of a compound: the status, the tag, and the results with their count. -/
def Compound4res.size (r : Compound4res) : ℕ :=
  4 + (stringSize r.tag + (4 + (r.resarray.map NfsResOp4.size).sum))

/-- The size of the body of an AUTH_SYS credential. -/
def AuthUnix.size (auth : AuthUnix) : ℕ :=
  4 + (stringSize auth.machinename + (8 + (4 + 4 * auth.gids.length)))

/-- The length of the body of a credential or verifier. -/
def OpaqueAuth.bodyLength : OpaqueAuth → ℕ
  | .authNull data | .gssVerf data => data.length
  | .authUnix auth => auth.size
  | .authShort | .authDes => 0
  | .authGss gss => 20 + (gss.handle.length + Codec.padding gss.handle.length)

/-- The size of what is accepted. -/
def AcceptBody.size : AcceptBody → ℕ
  | .success res => 4 + res.size
  | .successRaw bytes => 4 + bytes.length
  | .progMismatch _ _ => 12
  | .progUnavail | .procUnavail | .garbageArgs => 4

/-- The size of the body of a reply. -/
def ReplyBody.size : ReplyBody → ℕ
  | .msgAccepted verf replyData => 4 + ((4 + opaqueSize verf.bodyLength) + replyData.size)
  | .msgDenied (.rpcMismatch _ _) => 16
  | .msgDenied (.authError _) => 12

/-- The size of a reply. -/
def RpcReplyMsg.size (message : RpcReplyMsg) : ℕ := 8 + message.body.size

/-! ### Fields -/

section Fields

variable {α : Type} {l : List (Except Xdr.Error Bytes)} {x : Except Xdr.Error Bytes} {m n : ℕ}

lemma hasSize_fields_cons (hx : HasSize x m) (hl : HasSize (fields l) n) :
    HasSize (fields (x :: l)) (m + n) :=
  hx.append hl

/-- The fields together have the sizes of the fields. -/
lemma hasSize_fields {ns : List ℕ} (h : List.Forall₂ HasSize l ns) :
    HasSize (fields l) ns.sum := by
  induction h with
  | nil => exact hasSize_ok []
  | cons hx _ ih =>
    rw [List.sum_cons]
    exact hasSize_fields_cons hx ih

lemma hasSize_variant (i : ℕ) (hx : HasSize x n) : HasSize (variant i x) (4 + n) := by
  intro out h
  obtain ⟨bs, hbs, h⟩ := except_bind_eq_ok.1 h
  cases h
  rw [List.length_append, length_beBytes, hx bs hbs]

lemma hasSize_serializeVec {f : α → Except Xdr.Error Bytes} {size : α → ℕ}
    (hf : ∀ a, HasSize (f a) (size a)) (as : List α) :
    HasSize (serializeVec f as) (4 + (as.map size).sum) := by
  unfold serializeVec
  split_ifs
  · refine hasSize_fields_cons (hasSize_word 4 _) (hasSize_fields ?_)
    rw [List.forall₂_map_left_iff, List.forall₂_map_right_iff, List.forall₂_same]
    exact fun a _ => hf a
  · exact hasSize_error _ _

lemma hasSize_stat (s : NfsStat4) : HasSize (serializeStat s) 4 := hasSize_word 4 _

lemma hasSize_u32 (w : UInt32) : HasSize (toBytes Xdr.u32 w) 4 := hasSize_word 4 _

lemma hasSize_u64 (w : UInt64) : HasSize (toBytes Xdr.u64 w) 8 := hasSize_word 8 _

lemma hasSize_bool (b : Bool) : HasSize (toBytes Xdr.bool b) 4 := hasSize_word 4 _

lemma hasSize_fixedLength {k : ℕ} (v : List.Vector UInt8 k) :
    HasSize (toBytes (Xdr.fixedLength k) v) (k + Codec.padding k) := Codec.sized_fixed .position v

lemma hasSize_opaqueData (bs : Bytes) : HasSize (toBytes Xdr.opaqueData bs) (opaqueSize bs.length) :=
  Codec.sized_bytes .position bs

/-- Opaque data whose length fits a word is written. -/
lemma toBytes_opaqueData {bs : Bytes} (h : bs.length < 256 ^ 4) : toBytes Xdr.opaqueData bs =
    .ok (beBytes 4 bs.length ++ (bs ++ List.replicate (Codec.padding bs.length) 0)) := by
  have hword : (Codec.natWord Xdr.eof (Xdr.tooLong "opaque data") 4).put .position bs.length =
      .ok (beBytes 4 bs.length) := if_pos h
  change (do
    let n ← (Codec.natWord Xdr.eof (Xdr.tooLong "opaque data") 4).put .position bs.length
    pure (n ++ (bs ++ List.replicate (Codec.padding bs.length) 0))) = _
  rw [hword]
  rfl

lemma hasSize_utf8Opaque (s : String) : HasSize (toBytes Xdr.utf8Opaque s) (stringSize s) :=
  hasSize_opaqueData (Xdr.asBytes s)

end Fields

/-! ### Values -/

lemma hasSize_stateid (r : Stateid4) : HasSize (toBytes Stateid4.codec r) 16 :=
  (hasSize_u32 r.seqid).append (hasSize_fixedLength r.other)

lemma hasSize_u32s (l : List UInt32) : HasSize (toBytes (Xdr.vec Xdr.u32) l) (4 + 4 * l.length) :=
  (Codec.Sized.seq (c := Xdr.u32) Codec.sized_word .position l).of_eq (by simp [Nat.mul_comm])

lemma hasSize_attrlist (l : List FileAttr) : HasSize (toBytes attrlistCodec l) (attrlistSize l) :=
  hasSize_u32s (fileAttrsToBitmap l)

lemma hasSize_fattr4 (f : Fattr4) : HasSize (toBytes fattr4Codec f) f.size :=
  (hasSize_u32s (fileAttrsToBitmap f.attrmask)).append
    (hasSize_opaqueData (attrvaluesToBytes f.attrVals))

lemma hasSize_cinfo (r : ChangeInfo4) : HasSize r.serialize 20 :=
  hasSize_fields (.cons (hasSize_bool _) (.cons (hasSize_u64 _) (.cons (hasSize_u64 _) .nil)))

lemma hasSize_denied (r : Lock4denied) : HasSize r.serialize r.size := by
  have htype : HasSize (toBytes NfsLockType4.codec r.locktype) 4 := by
    cases r.locktype <;> exact hasSize_word 4 _
  have howner : HasSize (toBytes LockOwner4.codec r.owner) (8 + opaqueSize r.owner.owner.length) :=
    (hasSize_u64 r.owner.clientid).append (hasSize_opaqueData r.owner.owner)
  refine (hasSize_fields (.cons (hasSize_u64 _) (.cons (hasSize_u64 _) (.cons htype
    (.cons howner .nil))))).of_eq ?_
  simp only [Lock4denied.size, List.sum_cons, List.sum_nil]
  omega

lemma hasSize_ace (r : Nfsace4) : HasSize r.serialize r.size := by
  refine (hasSize_fields (.cons (hasSize_u32 _) (.cons (hasSize_u32 _) (.cons (hasSize_u32 _)
    (.cons (hasSize_utf8Opaque _) .nil))))).of_eq ?_
  simp only [Nfsace4.size, List.sum_cons, List.sum_nil]
  omega

lemma hasSize_spaceLimit (r : NfsSpaceLimit4) : HasSize r.serialize r.size := by
  cases r with
  | filesize r => exact hasSize_variant 0 (hasSize_u64 r)
  | modBlocks r =>
    exact hasSize_variant 1 (hasSize_fields (.cons (hasSize_u32 _) (.cons (hasSize_u32 _) .nil)))

lemma hasSize_delegation (r : OpenDelegation4) : HasSize r.serialize r.size := by
  cases r with
  | none => exact hasSize_variant 0 (hasSize_ok [])
  | read r =>
    refine (hasSize_variant 1 (hasSize_fields (.cons (hasSize_stateid _) (.cons (hasSize_bool _)
      (.cons (hasSize_ace _) .nil))))).of_eq ?_
    simp only [OpenDelegation4.size, List.sum_cons, List.sum_nil]
    omega
  | write r =>
    refine (hasSize_variant 2 (hasSize_fields (.cons (hasSize_stateid _) (.cons (hasSize_bool _)
      (.cons (hasSize_spaceLimit _) (.cons (hasSize_ace _) .nil)))))).of_eq ?_
    simp only [OpenDelegation4.size, List.sum_cons, List.sum_nil]
    omega

/-- A directory entry is as long as it says. The induction is on the entries after it. -/
lemma hasSize_entry : ∀ e : Entry4, HasSize e.serialize e.size
  | .mk cookie name attrs none => by
    refine (hasSize_fields (.cons (hasSize_u64 cookie) (.cons (hasSize_utf8Opaque name)
      (.cons (hasSize_fattr4 attrs) (.cons (hasSize_word 4 0) .nil))))).of_eq ?_
    simp [Entry4.size]
  | .mk cookie name attrs (some e) => by
    refine (hasSize_fields (.cons (hasSize_u64 cookie) (.cons (hasSize_utf8Opaque name)
      (.cons (hasSize_fattr4 attrs) (.cons (hasSize_variant 1 (hasSize_entry e)) .nil))))).of_eq ?_
    simp [Entry4.size]

lemma hasSize_dirList (r : DirList4) : HasSize r.serialize r.size := by
  obtain ⟨entries, eof⟩ := r
  cases entries with
  | none => exact hasSize_fields (.cons (hasSize_word 4 0) (.cons (hasSize_bool eof) .nil))
  | some e =>
    exact hasSize_fields (.cons (hasSize_variant 1 (hasSize_entry e)) (.cons (hasSize_bool eof) .nil))

lemma hasSize_secinfo (r : SeCinfo4) : HasSize r.serialize r.size := by
  cases r with
  | authNone => exact hasSize_word 4 _
  | authSys => exact hasSize_word 4 _
  | flavorInfo info =>
    refine (hasSize_fields (.cons (hasSize_word 4 6) (.cons (hasSize_opaqueData _)
      (.cons (hasSize_u32 _) (.cons (hasSize_word 4 _) .nil))))).of_eq ?_
    simp [SeCinfo4.size]

lemma hasSize_implIds (l : List NfsImplId4) :
    HasSize (toBytes (Xdr.vec NfsImplId4.codec) l) (4 + (l.map NfsImplId4.size).sum) := by
  have hone : NfsImplId4.codec.Sized NfsImplId4.size := fun ν r =>
    (hasSize_utf8Opaque r.niiDomain).append
      ((hasSize_utf8Opaque r.niiName).append ((hasSize_word 8 _).append (hasSize_word 4 _)))
  exact hone.seq .position l

lemma hasSize_channel (r : ChannelAttrs4) : HasSize (toBytes ChannelAttrs4.codec r) r.size := by
  refine ((hasSize_u32 _).append ((hasSize_u32 _).append ((hasSize_u32 _).append
    ((hasSize_u32 _).append ((hasSize_u32 _).append ((hasSize_u32 _).append
      (hasSize_u32s r.caRdmaIrd))))))).of_eq ?_
  simp only [ChannelAttrs4.size]
  omega

lemma hasSize_exchangeId (r : ExchangeId4resok) : HasSize r.serialize r.size := by
  have howner : HasSize r.eirServerOwner.serialize (8 + opaqueSize r.eirServerOwner.soMajorId.length) :=
    hasSize_fields (.cons (hasSize_u64 _) (.cons (hasSize_opaqueData _) .nil))
  have hprotect : HasSize r.eirStateProtect.serialize 4 := by
    cases r.eirStateProtect
    exact hasSize_word 4 0
  refine (hasSize_fields (.cons (hasSize_u64 _) (.cons (hasSize_u32 _) (.cons (hasSize_u32 _)
    (.cons hprotect (.cons howner (.cons (hasSize_opaqueData _) (.cons (hasSize_implIds _)
      .nil)))))))).of_eq ?_
  simp only [ExchangeId4resok.size, List.sum_cons, List.sum_nil]
  omega

/-! ### Replies -/

/-- A result is as long as it says.
**Proof sketch.** One case for each operation; the sizes of its fields add up. -/
lemma hasSize_serializeBody (r : NfsResOp4) (hop : ∀ op status, r ≠ .opError op status) :
    HasSize r.serializeBody r.bodySize := by
  cases r with
  | opUndef0 | opUndef1 | opUndef2 | opputpubfh => exact hasSize_ok []
  | opdelegpurge r | opdelegreturn r | oplookup r | oplookupp r | opnverify r | opopenattr r
  | opputfh r | opputrootfh r | oprenew r | oprestorefh r | opsavefh r | opsetclientidConfirm r
  | opverify r | opreleaseLockOwner r | opdestroySession r | opfreeStateid r | opdestroyClientid r
  | opreclaimComplete r | opallocate r => exact hasSize_stat _
  | opAccess r =>
    obtain ⟨r⟩ := r
    exact hasSize_variant 0 (hasSize_fields (.cons (hasSize_u32 _) (.cons (hasSize_u32 _) .nil)))
  | opclose r | oplocku r =>
    obtain ⟨r⟩ := r
    exact hasSize_variant 0 (hasSize_stateid r)
  | opopenConfirm r | opopenDowngrade r =>
    obtain ⟨r⟩ := r
    exact hasSize_variant 0 (hasSize_stateid _)
  | opcommit r =>
    obtain ⟨r⟩ := r
    exact hasSize_variant 0 (hasSize_fixedLength _)
  | opcreate r =>
    obtain ⟨r⟩ := r
    refine (hasSize_variant 0 (hasSize_fields (.cons (hasSize_cinfo _) (.cons (hasSize_attrlist _)
      .nil)))).of_eq ?_
    simp only [NfsResOp4.bodySize, List.sum_cons, List.sum_nil]
    omega
  | opgetattr r =>
    obtain ⟨status, attrs⟩ := r
    simp only [NfsResOp4.serializeBody, Getattr4resok.serialize, NfsResOp4.bodySize]
    by_cases hok : status = .nfs4Ok
    · rw [if_neg (by simpa using hok), if_pos hok]
      cases attrs with
      | none => exact hasSize_stat _
      | some attrs =>
        exact hasSize_fields (.cons (hasSize_stat _) (.cons (hasSize_fattr4 attrs) .nil))
    · rw [if_pos hok, if_neg hok]
      exact hasSize_stat _
  | opgetfh r =>
    obtain ⟨⟨fh⟩⟩ := r
    refine (hasSize_variant 0 (hasSize_opaqueData fh.1)).of_eq ?_
    rw [fh.2]
    rfl
  | oplink r =>
    obtain ⟨r⟩ := r
    exact hasSize_variant 0 (hasSize_cinfo _)
  | oplock r =>
    cases r with
    | resok4 r => exact hasSize_variant 0 (hasSize_stateid _)
    | denied r => exact hasSize_variant 1 (hasSize_denied r)
  | oplockt r =>
    obtain ⟨r⟩ := r
    exact hasSize_variant 0 (hasSize_denied r)
  | opopen r =>
    obtain ⟨r⟩ := r
    refine (hasSize_variant 0 (hasSize_fields (.cons (hasSize_stateid _) (.cons (hasSize_cinfo _)
      (.cons (hasSize_u32 _) (.cons (hasSize_attrlist _) (.cons (hasSize_delegation _)
        .nil))))))).of_eq ?_
    simp only [NfsResOp4.bodySize, List.sum_cons, List.sum_nil]
    omega
  | opread r =>
    obtain ⟨r⟩ := r
    refine (hasSize_variant 0 (hasSize_fields (.cons (hasSize_bool _) (.cons (hasSize_opaqueData _)
      .nil)))).of_eq ?_
    simp only [NfsResOp4.bodySize, List.sum_cons, List.sum_nil]
    omega
  | opreaddir r =>
    obtain ⟨r⟩ := r
    refine (hasSize_variant 0 (hasSize_fields (.cons (hasSize_fixedLength _)
      (.cons (hasSize_dirList _) .nil)))).of_eq ?_
    simp only [NfsResOp4.bodySize, List.sum_cons, List.sum_nil, Codec.padding]
    omega
  | opreadlink r => exact hasSize_fields (.cons (hasSize_stat _) (.cons (hasSize_utf8Opaque _) .nil))
  | opremove r => exact hasSize_fields (.cons (hasSize_stat _) (.cons (hasSize_cinfo _) .nil))
  | oprename r =>
    obtain ⟨r⟩ := r
    exact hasSize_variant 0 (hasSize_fields (.cons (hasSize_cinfo _) (.cons (hasSize_cinfo _) .nil)))
  | opSecinfo r | opsecinfoNoName r =>
    obtain ⟨l⟩ := r
    exact hasSize_variant 0 (hasSize_serializeVec hasSize_secinfo l)
  | opsetattr r => exact hasSize_fields (.cons (hasSize_stat _) (.cons (hasSize_attrlist _) .nil))
  | opsetclientid r =>
    cases r with
    | resok4 r =>
      exact hasSize_variant 0 (hasSize_fields (.cons (hasSize_u64 _)
        (.cons (hasSize_fixedLength _) .nil)))
    | clientUsing r =>
      exact hasSize_variant 1 ((hasSize_utf8Opaque r.rnetid).append (hasSize_utf8Opaque r.raddr))
  | opwrite r =>
    obtain ⟨r⟩ := r
    have hstable : HasSize (toBytes StableHow4.codec r.committed) 4 := by
      cases r.committed <;> exact hasSize_word 4 _
    exact hasSize_variant 0 (hasSize_fields (.cons (hasSize_u32 _) (.cons hstable
      (.cons (hasSize_fixedLength _) .nil))))
  | opbindConnToSession r =>
    obtain ⟨r⟩ := r
    have hdir : HasSize r.bctsrDir.serialize 4 := by
      cases r.bctsrDir <;> exact hasSize_word 4 _
    exact hasSize_variant 0 (hasSize_fields (.cons (hasSize_fixedLength _) (.cons hdir
      (.cons (hasSize_bool _) .nil))))
  | opexchangeId r =>
    obtain ⟨r⟩ := r
    exact hasSize_variant 0 (hasSize_exchangeId r)
  | opcreateSession r =>
    obtain ⟨r⟩ := r
    refine (hasSize_variant 0 (hasSize_fields (.cons (hasSize_fixedLength _) (.cons (hasSize_u32 _)
      (.cons (hasSize_u32 _) (.cons (hasSize_channel _) (.cons (hasSize_channel _)
        .nil))))))).of_eq ?_
    simp only [NfsResOp4.bodySize, List.sum_cons, List.sum_nil, Codec.padding]
    omega
  | opgetdeviceInfo r =>
    cases r with
    | resok4 r => exact hasSize_variant 0 (hasSize_u32 _)
    | err s => exact hasSize_variant 1 (hasSize_stat s)
  | opgetdeviceList r =>
    cases r with
    | resok4 r =>
      exact hasSize_variant 0 (hasSize_fields (.cons (hasSize_u64 _) (.cons (hasSize_fixedLength _)
        (.cons (hasSize_bool _) .nil))))
    | err s => exact hasSize_variant 1 (hasSize_stat s)
  | oplayoutCommit r | oplayoutReturn r =>
    cases r with
    | resok4 r => exact hasSize_variant 0 (hasSize_bool _)
    | err s => exact hasSize_variant 1 (hasSize_stat s)
  | oplayoutGet r =>
    cases r with
    | resok4 r =>
      exact hasSize_variant 0 (hasSize_fields (.cons (hasSize_bool _) (.cons (hasSize_stateid _) .nil)))
    | err s => exact hasSize_variant 1 (hasSize_stat s)
  | opsequence r =>
    obtain ⟨r⟩ := r
    exact hasSize_variant 0 (hasSize_fields (.cons (hasSize_fixedLength _) (.cons (hasSize_u32 _)
      (.cons (hasSize_u32 _) (.cons (hasSize_u32 _) (.cons (hasSize_u32 _) (.cons (hasSize_u32 _)
        .nil)))))))
  | optestStateid r =>
    obtain ⟨r⟩ := r
    refine (hasSize_variant 0 (hasSize_u32s r.tsrStatusCodes)).of_eq ?_
    simp only [NfsResOp4.bodySize]
    omega
  | opcopy r =>
    obtain ⟨⟨response, req⟩⟩ := r
    have hids : HasSize (toBytes (Xdr.vec Stateid4.codec) response.wrCallbackId)
        (4 + 16 * response.wrCallbackId.length) := by
      have hone : Stateid4.codec.Sized fun _ => 16 := fun _ r => hasSize_stateid r
      exact (hone.seq .position _).of_eq (by simp [Nat.mul_comm])
    have hstable : HasSize (toBytes StableHow4.codec response.wrCommitted) 4 := by
      cases response.wrCommitted <;> exact hasSize_word 4 _
    refine (hasSize_variant 0 (hasSize_fields (.cons (hasSize_fields (.cons hids
      (.cons (hasSize_u64 _) (.cons hstable (.cons (hasSize_fixedLength _) .nil)))))
        (.cons (hasSize_fields (.cons (hasSize_bool _) (.cons (hasSize_bool _) .nil))) .nil)))).of_eq ?_
    simp only [NfsResOp4.bodySize, List.sum_cons, List.sum_nil, Codec.padding]
    omega
  | opseek r =>
    obtain ⟨r⟩ := r
    exact hasSize_variant 0 (hasSize_fields (.cons (hasSize_bool _) (.cons (hasSize_u64 _) .nil)))
  | opError op status => exact absurd rfl (hop op status)

/-- A result with its number is as long as it says. -/
lemma hasSize_serializeElement (r : NfsResOp4) : HasSize r.serializeElement r.size := by
  by_cases hop : ∃ op status, r = .opError op status
  · obtain ⟨op, status, rfl⟩ := hop
    exact hasSize_fields (.cons (hasSize_u32 op) (.cons (hasSize_stat status) .nil))
  · simp only [not_exists] at hop
    have helement : r.serializeElement = variant r.ctorIdx r.serializeBody := by
      cases r <;> first | rfl | exact absurd rfl (hop _ _)
    rw [helement]
    exact hasSize_variant _ (hasSize_serializeBody r hop)

/-- The results of a compound are as long as they say. -/
lemma hasSize_compound (r : Compound4res) : HasSize r.serialize r.size := by
  have harray : HasSize (writeArgarray r.resarray) (4 + (r.resarray.map NfsResOp4.size).sum) := by
    unfold writeArgarray
    split_ifs with hempty
    · rw [List.isEmpty_iff.1 hempty]
      exact hasSize_word 4 0
    · exact hasSize_serializeVec hasSize_serializeElement r.resarray
  exact hasSize_fields (.cons (hasSize_stat _) (.cons (hasSize_utf8Opaque _) (.cons harray .nil)))

/-- The body of a credential or verifier is as long as it says. -/
lemma length_of_flavorBody {auth : OpaqueAuth} {flavor : UInt32} {body : Bytes}
    (h : auth.flavorBody = .ok (flavor, body)) : body.length = auth.bodyLength := by
  cases auth with
  | authUnix auth =>
    simp only [OpaqueAuth.flavorBody] at h
    split at h
    · rename_i bytes hbytes
      cases h
      exact ((hasSize_u32 auth.stamp).append ((hasSize_opaqueData _).append
        (((hasSize_u32 auth.uid).append ((hasSize_u32 auth.gid).append (hasSize_u32s auth.gids))).of_eq
          (by omega)))) body hbytes
    · cases h
  | authGss gss =>
    cases h
    simp only [RpcSecGssCred.encode, List.length_append, length_beBytes, List.length_replicate,
      OpaqueAuth.bodyLength]
    omega
  | authNull _ | authShort | authDes | gssVerf _ =>
    cases h
    rfl

lemma hasSize_auth (auth : OpaqueAuth) :
    HasSize auth.serialize (4 + opaqueSize auth.bodyLength) := by
  intro out h
  obtain ⟨⟨flavor, body⟩, hbody, h⟩ := except_bind_eq_ok.1 h
  rw [← length_of_flavorBody hbody]
  exact hasSize_fields (.cons (hasSize_u32 flavor) (.cons (hasSize_opaqueData body) .nil)) out h

/-- Four bytes are the encoding of the word that they are. -/
lemma toBytes_u32_ofBytes {bs : Bytes} (h : bs.length = 4) :
    toBytes Xdr.u32 (UInt32.ofNat (ofBytes bs)) = .ok bs := by
  have hlt := ofBytes_lt bs
  have hback := beBytes_ofBytes bs
  rw [h] at hlt hback
  change Except.ok (beBytes 4 (UInt32.ofNat (ofBytes bs)).toNat) = _
  rw [UInt32.toNat_ofNat_of_lt' hlt, hback]

/-- The words of a byte string are encoded as this byte string. -/
lemma fields_chunks {bs : Bytes} {n : ℕ} (h : bs.length = 4 * n) :
    fields ((Blocks.chunks 4 bs).map fun w => toBytes Xdr.u32 (UInt32.ofNat (ofBytes w))) =
      .ok bs := by
  induction n generalizing bs with
  | zero =>
    obtain rfl := List.length_eq_zero_iff.1 h
    rw [Blocks.chunks]
    rfl
  | succ n ih =>
    have hne : bs ≠ [] := fun hnil => by simp [hnil] at h
    have hfront : (bs.take 4).length = 4 := by
      rw [List.length_take]
      omega
    have hrest : (bs.drop 4).length = 4 * n := by
      rw [List.length_drop]
      omega
    rw [Blocks.chunks_of_ne hne (by decide), List.map_cons, fields, toBytes_u32_ofBytes hfront,
      except_ok_bind, ih hrest, except_ok_bind]
    simp [pure, Except.pure]

/-- The words of results that are encoded already are these results. -/
lemma serializeWords_eq {bytes : Bytes} (h : bytes.length % 4 = 0) :
    serializeWords bytes = .ok bytes := by
  have hlen : bytes.length = 4 * (bytes.length / 4) := by omega
  rw [serializeWords, if_neg (by simpa using h)]
  exact fields_chunks hlen

/-- Results that are encoded already are sent behind SUCCESS as they are. -/
lemma serialize_successRaw {bytes : Bytes} (h : bytes.length % 4 = 0) :
    (AcceptBody.successRaw bytes).serialize = .ok (beBytes 4 0 ++ bytes) := by
  change fields [.ok (beBytes 4 0), serializeWords bytes] = _
  rw [serializeWords_eq h]
  simp [fields, except_ok_bind, pure, Except.pure]

lemma hasSize_accept (body : AcceptBody) : HasSize body.serialize body.size := by
  cases body with
  | success res => exact hasSize_fields (.cons (hasSize_u32 0) (.cons (hasSize_compound res) .nil))
  | successRaw bytes =>
    have hwords : HasSize (serializeWords bytes) bytes.length := by
      by_cases h : bytes.length % 4 = 0
      · rw [serializeWords_eq h]
        exact hasSize_ok bytes
      · rw [serializeWords, if_pos h]
        exact hasSize_error _ _
    exact hasSize_fields (.cons (hasSize_u32 0) (.cons hwords .nil))
  | progMismatch low high =>
    exact hasSize_fields (.cons (hasSize_u32 2)
      (.cons (hasSize_fields (.cons (hasSize_u32 low) (.cons (hasSize_u32 high) .nil))) .nil))
  | progUnavail | procUnavail | garbageArgs => exact hasSize_fields (.cons (hasSize_u32 _) .nil)

lemma hasSize_replyBody (body : ReplyBody) : HasSize body.serialize body.size := by
  cases body with
  | msgAccepted verf replyData =>
    exact hasSize_variant 0 (hasSize_fields (.cons (hasSize_auth verf)
      (.cons (hasSize_accept replyData) .nil)))
  | msgDenied reply =>
    cases reply with
    | rpcMismatch low high =>
      exact hasSize_variant 1 (hasSize_variant 0
        (hasSize_fields (.cons (hasSize_u32 low) (.cons (hasSize_u32 high) .nil))))
    | authError stat => exact hasSize_variant 1 (hasSize_variant 1 (hasSize_u32 _))

/-- A reply is as long as it says. -/
lemma hasSize_toBytes (message : RpcReplyMsg) : HasSize message.toBytes message.size := by
  refine (hasSize_fields (.cons (hasSize_u32 message.xid)
    (.cons (hasSize_variant 1 (hasSize_replyBody message.body)) .nil))).of_eq ?_
  simp only [RpcReplyMsg.size, List.sum_cons, List.sum_nil]
  omega

end NextNfs
