import NextNfs.Proto.Results

set_option relaxedAutoImplicit false
set_option autoImplicit false

/-!
# Two numberings of the operations

`NfsArgOp` and `NfsResOp4` declare the operation numbers of the protocol as discriminants, and
so do enums inside the arguments, such as `NfsLockType4`. The derived code never looks at a
discriminant: it writes and reads variant indices. This module says exactly where that makes a
difference.

## Main definitions

* `NextNfs.wireElement`, `NextNfs.wireBytes` — an operation and a compound as the protocol
  writes them, with declared numbers throughout.
* `NextNfs.NfsArgOp.WellFormed` — attribute lists are ascending and attribute values match
  their mask.
* `NextNfs.NfsArgOp.InStep`, `NextNfs.NfsResOp4.InStep` — the operations and results on which
  the two numberings agree.

## Main results

* `NextNfs.fromBytes_wireBytes_iff` — a compound is decoded as it was sent exactly when each of
  its operations is in step.
* `NextNfs.wire_numbering_agrees_iff` — both directions together.

## Implementation notes

Up to RELEASE_LOCKOWNER (39) the operations are numbered without a gap, so an index is a
number. From BIND_CONN_TO_SESSION (41) on, every index is too small. LOCK, LOCKT and LOCKU are
below 39 but carry an `NfsLockType4`, whose numbers start at 1. Independently of numbers, a
`Fattr4` loses the values from the first attribute on that the deserializer has no arm for.
-/

namespace NextNfs

open Wire

/-! ### The wire -/

/-- An operation on the wire: its declared number and its body, the enums in which are written
with their declared numbers too. -/
def wireElement (op : NfsArgOp) : Except Xdr.Error Bytes := NfsArgOp.codec.put .declared op

/-- The operations of a compound on the wire. -/
def wireElements (ops : List NfsArgOp) : Except Xdr.Error (List Bytes) := ops.mapM wireElement

/-- The arguments of COMPOUND on the wire. -/
def wireBytes (args : Compound4args) : Except Xdr.Error Bytes :=
  Compound4args.codec.put .declared args

/-- The word an element starts with. -/
def leadingWord (element : Bytes) : ℕ := ofBytes (element.take 4)

/-- An argument body is well formed when its attribute lists are ascending and its attribute
values match their mask. -/
def NfsArgOp.WellFormed : NfsArgOp → Prop
  | .opcreate args => args.createattrs.WellFormed
  | .opgetattr args => Ascending args.attrRequest
  | .opnverify args => args.objAttributes.WellFormed
  | .opopen args =>
    match args.openhow with
    | .how (.unchecked4 createattrs) => createattrs.WellFormed
    | .how (.guarded4 createattrs) => createattrs.WellFormed
    | _ => True
  | .opreaddir args => Ascending args.attrRequest
  | .opsetattr args => args.objAttributes.WellFormed
  | .opverify args => args.objAttributes.WellFormed
  | _ => True

/-- Whether the deserializer has an arm for every attribute value of an argument body. -/
def NfsArgOp.attrsDecodable : NfsArgOp → Bool
  | .opcreate args => args.createattrs.decodable
  | .opnverify args => args.objAttributes.decodable
  | .opopen args =>
    match args.openhow with
    | .how (.unchecked4 createattrs) => createattrs.decodable
    | .how (.guarded4 createattrs) => createattrs.decodable
    | _ => true
  | .opsetattr args => args.objAttributes.decodable
  | .opverify args => args.objAttributes.decodable
  | _ => true

/-- Whether an operation carries an `NfsLockType4`. -/
def NfsArgOp.carriesLockType : NfsArgOp → Bool
  | .oplock _ | .oplockt _ | .oplocku _ => true
  | _ => false

/-- The operations whose numbering the deserializer shares: the number is at most that of
RELEASE_LOCKOWNER, there is no lock type inside, and the attribute values have arms. -/
def NfsArgOp.InStep (op : NfsArgOp) : Prop :=
  opCode op ≤ 39 ∧ op.carriesLockType = false ∧ op.attrsDecodable = true

/-- The results whose numbering the serializer shares. -/
def NfsResOp4.InStep : NfsResOp4 → Prop
  | .opError _ _ => True
  | r => r.opNum ≤ 39

/-! ### Enums inside the arguments -/

section Attributes

@[simp] lemma attrlistCodec_wf (l : List FileAttr) : attrlistCodec.Wf l ↔ Ascending l := Iff.rfl
@[simp] lemma attrlistCodec_reads (ν : Numbering) (l : List FileAttr) :
    attrlistCodec.Reads ν l ↔ True := Iff.rfl
@[simp] lemma fattr4Codec_wf (f : Fattr4) : fattr4Codec.Wf f ↔ f.WellFormed := Iff.rfl
@[simp] lemma fattr4Codec_reads (ν : Numbering) (f : Fattr4) :
    fattr4Codec.Reads ν f ↔ f.decodable = true := Iff.rfl

end Attributes

section WellFormed

@[simp] lemma NfsLockType4.codec_wf (e : NfsLockType4) : NfsLockType4.codec.Wf e := by
  cases e <;> trivial

@[simp] lemma OpenDelegationType4.codec_wf (e : OpenDelegationType4) : OpenDelegationType4.codec.Wf e := by
  cases e <;> trivial

@[simp] lemma StableHow4.codec_wf (e : StableHow4) : StableHow4.codec.Wf e := by
  cases e <;> trivial

@[simp] lemma ChannelDirFromClient4.codec_wf (e : ChannelDirFromClient4) : ChannelDirFromClient4.codec.Wf e := by
  cases e <;> trivial

@[simp] lemma StateProtect4a.codec_wf (e : StateProtect4a) : StateProtect4a.codec.Wf e := by
  cases e
  trivial

@[simp] lemma LayoutType4.codec_wf (e : LayoutType4) : LayoutType4.codec.Wf e := by
  cases e <;> trivial

@[simp] lemma LayoutIomode4.codec_wf (e : LayoutIomode4) : LayoutIomode4.codec.Wf e := by
  cases e <;> trivial

@[simp] lemma LayoutReturnType4.codec_wf (e : LayoutReturnType4) : LayoutReturnType4.codec.Wf e := by
  cases e <;> trivial

@[simp] lemma SecinfoStyle4.codec_wf (e : SecinfoStyle4) : SecinfoStyle4.codec.Wf e := by
  cases e <;> trivial

@[simp] lemma DataContent4.codec_wf (e : DataContent4) : DataContent4.codec.Wf e := by
  cases e <;> trivial

@[simp] lemma Createtype4.codec_wf (e : Createtype4) : Createtype4.codec.Wf e := by
  cases e <;> trivial

@[simp] lemma Locker4.codec_wf (e : Locker4) : Locker4.codec.Wf e := by
  cases e <;> trivial

@[simp] lemma OpenClaim4.codec_wf (e : OpenClaim4) : OpenClaim4.codec.Wf e := by
  cases e with
  | claimPrevious v => exact OpenDelegationType4.codec_wf v
  | _ => trivial

@[simp] lemma CallbackSecParms4.codec_wf (e : CallbackSecParms4) :
    CallbackSecParms4.codec.Wf e := by
  cases e with
  | authNone => trivial
  | authSys v => exact ⟨trivial, trivial, trivial, trivial, fun _ _ => trivial⟩

@[simp] lemma Netloc4.codec_wf (e : Netloc4) : Netloc4.codec.Wf e := by
  cases e <;> trivial

/-- The attributes of an OPEN that creates are well formed when the codec says so. -/
@[simp] lemma OpenFlag4.codec_wf (e : OpenFlag4) :
    OpenFlag4.codec.Wf e ↔
      match e with
      | .how (.unchecked4 createattrs) => createattrs.WellFormed
      | .how (.guarded4 createattrs) => createattrs.WellFormed
      | _ => True := by
  cases e with
  | open4Nocreate => exact Iff.rfl
  | how v => cases v <;> exact Iff.rfl

end WellFormed

section Reads

@[simp] lemma OpenDelegationType4.codec_reads (e : OpenDelegationType4) :
    OpenDelegationType4.codec.Reads .declared e := by
  cases e <;> exact ⟨rfl, trivial⟩

@[simp] lemma StableHow4.codec_reads (e : StableHow4) : StableHow4.codec.Reads .declared e := by
  cases e <;> exact ⟨rfl, trivial⟩

@[simp] lemma Createtype4.codec_reads (e : Createtype4) :
    Createtype4.codec.Reads .declared e := by
  cases e <;> exact ⟨rfl, by trivial⟩

@[simp] lemma OpenClaim4.codec_reads (e : OpenClaim4) : OpenClaim4.codec.Reads .declared e := by
  cases e with
  | claimPrevious v => exact ⟨rfl, OpenDelegationType4.codec_reads v⟩
  | _ => exact ⟨rfl, by trivial⟩

@[simp] lemma OpenFlag4.codec_reads (e : OpenFlag4) :
    OpenFlag4.codec.Reads .declared e ↔
      match e with
      | .how (.unchecked4 createattrs) => createattrs.decodable = true
      | .how (.guarded4 createattrs) => createattrs.decodable = true
      | _ => True := by
  cases e with
  | open4Nocreate => exact ⟨fun _ => trivial, fun _ => ⟨rfl, trivial⟩⟩
  | how v =>
    cases v with
    | unchecked4 f => exact ⟨fun h => h.2.2, fun h => ⟨rfl, rfl, h⟩⟩
    | guarded4 f => exact ⟨fun h => h.2.2, fun h => ⟨rfl, rfl, h⟩⟩
    | exclusive4 v => exact ⟨fun _ => trivial, fun _ => ⟨rfl, rfl, trivial⟩⟩

/-- The numbers of `NfsLockType4` start at 1, so none of them is an index. -/
@[simp] lemma NfsLockType4.codec_reads (e : NfsLockType4) :
    ¬ NfsLockType4.codec.Reads .declared e := by
  rintro ⟨htag, -⟩
  cases e <;> cases htag

end Reads

/-! ### Operations -/

/-- The codec asks of an operation exactly that it is well formed.
**Proof sketch.** Only attributes are asked anything of. Where a body has an enum or a vector
inside, its codec is unfolded; elsewhere there is nothing to show. -/
lemma NfsArgOp.codec_wf_iff (op : NfsArgOp) : NfsArgOp.codec.Wf op ↔ op.WellFormed := by
  cases op with
  | opcreate a =>
    change Create4args.codec.Wf a ↔ a.createattrs.WellFormed
    simp [Create4args.codec]
  | opgetattr a => exact Iff.rfl
  | opnverify a => exact Iff.rfl
  | opopen a =>
    change Open4args.codec.Wf a ↔ (NfsArgOp.opopen a).WellFormed
    simp [Open4args.codec, OpenOwner4.codec, NfsArgOp.WellFormed]
  | opreaddir a =>
    change Readdir4args.codec.Wf a ↔ Ascending a.attrRequest
    simp [Readdir4args.codec]
  | opsetattr a =>
    change SetAttr4args.codec.Wf a ↔ a.objAttributes.WellFormed
    simp [SetAttr4args.codec, Stateid4.codec]
  | opverify a => exact Iff.rfl
  | oplock a =>
    refine iff_of_true ?_ trivial
    change Lock4args.codec.Wf a
    simp [Lock4args.codec]
  | oplockt a =>
    refine iff_of_true ?_ trivial
    change Lockt4args.codec.Wf a
    simp [Lockt4args.codec, LockOwner4.codec]
  | oplocku a =>
    refine iff_of_true ?_ trivial
    change Locku4args.codec.Wf a
    simp [Locku4args.codec, Stateid4.codec]
  | opwrite a =>
    refine iff_of_true ?_ trivial
    change Write4args.codec.Wf a
    simp [Write4args.codec, Stateid4.codec]
  | opbindConnToSession a =>
    refine iff_of_true ?_ trivial
    change BindConnToSession4args.codec.Wf a
    simp [BindConnToSession4args.codec]
  | opexchangeId a =>
    refine iff_of_true ?_ trivial
    change ExchangeId4args.codec.Wf a
    simp [ExchangeId4args.codec, ClientOwner4.codec, NfsImplId4.codec, Nfstime4.codec]
  | opcreateSession a =>
    refine iff_of_true ?_ trivial
    change CreateSession4args.codec.Wf a
    simp [CreateSession4args.codec, ChannelAttrs4.codec]
  | opgetdeviceInfo a =>
    refine iff_of_true ?_ trivial
    change GetDeviceInfo4args.codec.Wf a
    simp [GetDeviceInfo4args.codec]
  | opgetdeviceList a =>
    refine iff_of_true ?_ trivial
    change GetDeviceList4args.codec.Wf a
    simp [GetDeviceList4args.codec]
  | oplayoutCommit a =>
    refine iff_of_true ?_ trivial
    change LayoutCommit4args.codec.Wf a
    simp [LayoutCommit4args.codec, Stateid4.codec]
  | oplayoutGet a =>
    refine iff_of_true ?_ trivial
    change LayoutGet4args.codec.Wf a
    simp [LayoutGet4args.codec, Stateid4.codec]
  | oplayoutReturn a =>
    refine iff_of_true ?_ trivial
    change LayoutReturn4args.codec.Wf a
    simp [LayoutReturn4args.codec]
  | opsecinfoNoName a => exact iff_of_true (SecinfoStyle4.codec_wf _) trivial
  | optestStateid a => exact iff_of_true (fun _ _ => ⟨trivial, trivial⟩) trivial
  | opcopy a =>
    refine iff_of_true ?_ trivial
    change Copy4args.codec.Wf a
    simp [Copy4args.codec, Stateid4.codec]
  | opseek a =>
    refine iff_of_true ?_ trivial
    change Seek4args.codec.Wf a
    simp [Seek4args.codec, Stateid4.codec]
  | _ => exact iff_of_true (by trivial) trivial

/-- An operation whose number is beyond its index is out of step. -/
lemma NfsArgOp.codec_reads_iff_of_lt {op : NfsArgOp}
    (hindex : (NfsArgOp.union.index op).1 < (NfsArgOp.union.variant op).number)
    (hcode : 39 < opCode op) : NfsArgOp.codec.Reads .declared op ↔ op.InStep := by
  refine iff_of_false ?_ ?_
  · rintro ⟨htag, -⟩
    exact (ne_of_lt hindex) htag.symm
  · rintro ⟨hle, -⟩
    exact absurd hle (not_le.2 hcode)

/-- The deserializer understands exactly the operations in step.
**Proof sketch.** From BIND_CONN_TO_SESSION on the declared number is beyond the index. Below,
the number is the index, and what is left to understand is the lock type, which never is, or
the attribute values. -/
lemma NfsArgOp.codec_reads_iff (op : NfsArgOp) :
    NfsArgOp.codec.Reads .declared op ↔ op.InStep := by
  cases op with
  | opcreate a =>
    refine ⟨fun h => ⟨of_decide_eq_true rfl, rfl, h.2.2.2⟩, fun h => ⟨rfl, ?_⟩⟩
    exact ⟨Createtype4.codec_reads _, trivial, h.2.2⟩
  | opgetattr a => exact iff_of_true ⟨rfl, trivial⟩ ⟨of_decide_eq_true rfl, rfl, rfl⟩
  | opnverify a =>
    exact ⟨fun h => ⟨of_decide_eq_true rfl, rfl, h.2⟩, fun h => ⟨rfl, h.2.2⟩⟩
  | opopen a =>
    have hbody : Open4args.codec.Reads .declared a ↔ (NfsArgOp.opopen a).attrsDecodable = true := by
      simp only [Open4args.codec, OpenOwner4.codec, NfsArgOp.attrsDecodable, Codec.iso_reads,
        Codec.prod_reads, Xdr.u32_reads, Xdr.u64_reads, Xdr.opaqueData_reads,
        OpenFlag4.codec_reads, OpenClaim4.codec_reads, true_and, and_true]
      split <;> simp_all
    exact ⟨fun h => ⟨of_decide_eq_true rfl, rfl, hbody.1 h.2⟩, fun h => ⟨rfl, hbody.2 h.2.2⟩⟩
  | opsetattr a =>
    refine ⟨fun h => ⟨of_decide_eq_true rfl, rfl, h.2.2⟩, fun h => ⟨rfl, ⟨by trivial, h.2.2⟩⟩⟩
  | opverify a =>
    exact ⟨fun h => ⟨of_decide_eq_true rfl, rfl, h.2⟩, fun h => ⟨rfl, h.2.2⟩⟩
  | opwrite a =>
    refine iff_of_true ⟨rfl, ?_⟩ ⟨of_decide_eq_true rfl, rfl, rfl⟩
    exact ⟨by trivial, trivial, StableHow4.codec_reads _, trivial⟩
  | oplock a =>
    exact iff_of_false (fun h => NfsLockType4.codec_reads _ h.2.1) (fun h => by cases h.2.1)
  | oplockt a =>
    exact iff_of_false (fun h => NfsLockType4.codec_reads _ h.2.1) (fun h => by cases h.2.1)
  | oplocku a =>
    exact iff_of_false (fun h => NfsLockType4.codec_reads _ h.2.1) (fun h => by cases h.2.1)
  | opbindConnToSession _ | opexchangeId _ | opcreateSession _ | opdestroySession _
  | opfreeStateid _ | opgetdeviceInfo _ | opgetdeviceList _ | oplayoutCommit _ | oplayoutGet _
  | oplayoutReturn _ | opsecinfoNoName _ | opsequence _ | optestStateid _ | opdestroyClientid _
  | opreclaimComplete _ | opallocate _ | opcopy _ | opseek _ =>
    exact NfsArgOp.codec_reads_iff_of_lt (of_decide_eq_true rfl) (of_decide_eq_true rfl)
  | _ => exact iff_of_true ⟨rfl, by trivial⟩ ⟨of_decide_eq_true rfl, rfl, rfl⟩

/-! ### Compounds -/

/-- The dispatcher's `op_code` is the declared number. -/
lemma number_eq_opCode (op : NfsArgOp) : (NfsArgOp.union.variant op).number = opCode op := by
  cases op <;> rfl

/-- Operation numbers fit a word. -/
lemma opCode_lt (op : NfsArgOp) : opCode op < 256 ^ 4 := by
  cases op <;> exact of_decide_eq_true rfl

/-- The leading word of bytes that start with a word. -/
lemma leadingWord_append {n : ℕ} (hn : n < 256 ^ 4) (bs : Bytes) :
    leadingWord (beBytes 4 n ++ bs) = n := by
  rw [leadingWord, List.take_left' (length_beBytes 4 n), ofBytes_beBytes hn]

/-- An operation on the wire starts with its number. -/
lemma leadingWord_wireElement {op : NfsArgOp} {bs : Bytes} (h : wireElement op = .ok bs) :
    leadingWord bs = opCode op := by
  obtain ⟨body, -, h⟩ := except_bind_eq_ok.1 h
  cases h
  have htag : NfsArgOp.union.tag .declared op = opCode op := number_eq_opCode op
  rw [htag, leadingWord_append (opCode_lt op)]

/-- A property of the elements of a successful `mapM` becomes an equation of lists. -/
lemma map_eq_of_mapM {α : Type} {f : α → Except Xdr.Error Bytes} {g : α → ℕ} {l : List α}
    {parts : List Bytes} (h : l.mapM f = .ok parts)
    (hg : ∀ a ∈ l, ∀ bs, f a = .ok bs → leadingWord bs = g a) :
    parts.map leadingWord = l.map g := by
  induction l generalizing parts with
  | nil =>
    cases h
    rfl
  | cons a l ih =>
    rw [List.mapM_cons] at h
    obtain ⟨b, hb, h⟩ := except_bind_eq_ok.1 h
    obtain ⟨bs, hbs, h⟩ := except_bind_eq_ok.1 h
    cases h
    rw [List.map_cons, List.map_cons, hg a List.mem_cons_self b hb,
      ih hbs (fun x hx => hg x (List.mem_cons_of_mem a hx))]

/-- Conversely, every element of the list has the property. -/
lemma forall_of_map_eq {α : Type} {f : α → Except Xdr.Error Bytes} {g : α → ℕ} {l : List α}
    {parts : List Bytes} (h : l.mapM f = .ok parts) (hg : parts.map leadingWord = l.map g) :
    ∀ a ∈ l, ∃ bs, f a = .ok bs ∧ leadingWord bs = g a := by
  induction l generalizing parts with
  | nil => simp
  | cons a l ih =>
    rw [List.mapM_cons] at h
    obtain ⟨b, hb, h⟩ := except_bind_eq_ok.1 h
    obtain ⟨bs, hbs, h⟩ := except_bind_eq_ok.1 h
    cases h
    rw [List.map_cons, List.map_cons, List.cons.injEq] at hg
    intro x hx
    rcases List.mem_cons.1 hx with rfl | hx
    · exact ⟨b, hb, hg.1⟩
    · exact ih hbs hg.2 x hx

/-- The tag and the minor version of a compound are always read back, so that decoding it
comes down to decoding its operations. -/
lemma get_wireBytes {args : Compound4args} {wire : Bytes} (h : wireBytes args = .ok wire) :
    ∃ arr, (Xdr.vec NfsArgOp.codec).put .declared args.argarray = .ok arr ∧
      ∀ decoded r, Compound4args.codec.get wire = .ok (decoded, r) ↔
        decoded.tag = args.tag ∧ decoded.minorVersion = args.minorVersion ∧
          (Xdr.vec NfsArgOp.codec).get arr = .ok (decoded.argarray, r) := by
  obtain ⟨tag, htag, h⟩ := except_bind_eq_ok.1 h
  obtain ⟨rest, hrest, h⟩ := except_bind_eq_ok.1 h
  obtain ⟨minor, hminor, hrest⟩ := except_bind_eq_ok.1 hrest
  obtain ⟨arr, harr, hrest⟩ := except_bind_eq_ok.1 hrest
  cases hrest
  cases h
  refine ⟨arr, harr, fun decoded r => ?_⟩
  rw [Compound4args.codec, Codec.iso_get_eq_ok, Codec.prod_get_eq_ok trivial trivial htag,
    Codec.prod_get_eq_ok trivial trivial hminor]

/-- A compound is decoded as it was sent exactly when each of its operations is in step. -/
lemma fromBytes_wireBytes_iff {args : Compound4args} {wire : Bytes}
    (hwf : ∀ op ∈ args.argarray, op.WellFormed) (h : wireBytes args = .ok wire) :
    (∃ decoded, Xdr.fromBytes Compound4args.codec wire = .ok decoded ∧
      decoded.argarray = args.argarray) ↔ ∀ op ∈ args.argarray, op.InStep := by
  obtain ⟨arr, harr, hget⟩ := get_wireBytes h
  have hwf' : (Xdr.vec NfsArgOp.codec).Wf args.argarray := fun op hop =>
    (NfsArgOp.codec_wf_iff op).2 (hwf op hop)
  constructor
  · rintro ⟨decoded, hdec, heq⟩
    obtain ⟨r, hr⟩ : ∃ r, Compound4args.codec.get wire = .ok (decoded, r) := by
      rw [Xdr.fromBytes] at hdec
      cases hcase : Compound4args.codec.get wire with
      | error e => rw [hcase] at hdec; cases hdec
      | ok p =>
        rw [hcase] at hdec
        cases hdec
        exact ⟨p.2, rfl⟩
    obtain ⟨-, -, hops⟩ := (hget decoded r).1 hr
    rw [heq, ← List.append_nil arr] at hops
    exact fun op hop => (NfsArgOp.codec_reads_iff op).1
      ((Xdr.vec NfsArgOp.codec).reads_of_get hwf' harr hops op hop)
  · intro hstep
    have hops := (Xdr.vec NfsArgOp.codec).get_put [] hwf'
      (fun op hop => (NfsArgOp.codec_reads_iff op).2 (hstep op hop)) harr
    rw [List.append_nil] at hops
    have hdec := (hget args []).2 ⟨rfl, rfl, hops⟩
    exact ⟨args, by rw [Xdr.fromBytes, hdec]; rfl, rfl⟩

/-- The operations of a compound on the wire, if the compound has a form there. -/
lemma wireElements_of_wireBytes {args : Compound4args} {wire : Bytes}
    (h : wireBytes args = .ok wire) : ∃ ops, wireElements args.argarray = .ok ops := by
  obtain ⟨arr, harr, -⟩ := get_wireBytes h
  obtain ⟨n, -, harr⟩ := except_bind_eq_ok.1 harr
  obtain ⟨bs, hbs, -⟩ := except_bind_eq_ok.1 harr
  obtain ⟨parts, hparts, -⟩ := Codec.putAll_eq_ok.1 hbs
  exact ⟨parts, hparts⟩

/-! ### Result arrays -/

/-- The index of a result variant is its declared number exactly up to RELEASE_LOCKOWNER. -/
lemma NfsResOp4.ctorIdx_eq_opNum_iff (r : NfsResOp4) (h : ∀ op status, r ≠ .opError op status) :
    r.ctorIdx = r.opNum ↔ r.InStep := by
  cases r with
  | opError op status => exact absurd rfl (h op status)
  | opbindConnToSession _ | opexchangeId _ | opcreateSession _ | opdestroySession _
  | opfreeStateid _ | opgetdeviceInfo _ | opgetdeviceList _ | oplayoutCommit _ | oplayoutGet _
  | oplayoutReturn _ | opsecinfoNoName _ | opsequence _ | optestStateid _ | opdestroyClientid _
  | opreclaimComplete _ | opallocate _ | opcopy _ | opseek _ =>
    exact iff_of_false (Nat.ne_of_lt (of_decide_eq_true rfl)) (Nat.not_le_of_lt (Nat.le_of_ble_eq_true rfl))
  | _ => exact iff_of_true rfl (Nat.le_of_ble_eq_true rfl)

/-- A serialized result starts with the number of the operation it answers exactly when it is
in step. -/
lemma leadingWord_serializeElement_iff {r : NfsResOp4} {bs : Bytes}
    (h : r.serializeElement = .ok bs) : leadingWord bs = r.opNum ↔ r.InStep := by
  by_cases herr : ∃ op status, r = .opError op status
  · obtain ⟨op, status, rfl⟩ := herr
    obtain ⟨word, hword, h⟩ := except_bind_eq_ok.1 h
    obtain ⟨rest, -, h⟩ := except_bind_eq_ok.1 h
    cases hword
    cases h
    exact iff_of_true (leadingWord_append op.toNat_lt rest) trivial
  · have hne : ∀ op status, r ≠ .opError op status := fun op status he => herr ⟨op, status, he⟩
    have hel : r.serializeElement = variant r.ctorIdx r.serializeBody := by
      cases r with
      | opError op status => exact absurd rfl (hne op status)
      | _ => rfl
    rw [hel] at h
    obtain ⟨body, -, h⟩ := except_bind_eq_ok.1 h
    cases h
    have hlt : r.ctorIdx < 256 ^ 4 := by cases r <;> exact of_decide_eq_true rfl
    rw [leadingWord_append hlt, NfsResOp4.ctorIdx_eq_opNum_iff r hne]

/-- Results that are written one after the other are their elements. -/
lemma fields_serializeElement {values : List NfsResOp4} {out : Bytes}
    (h : fields (values.map NfsResOp4.serializeElement) = .ok out) :
    ∃ elements, values.mapM NfsResOp4.serializeElement = .ok elements ∧
      out = elements.flatten := by
  induction values generalizing out with
  | nil =>
    cases h
    exact ⟨[], rfl, rfl⟩
  | cons r values ih =>
    obtain ⟨b, hb, h⟩ := except_bind_eq_ok.1 h
    obtain ⟨cs, hcs, h⟩ := except_bind_eq_ok.1 h
    cases h
    obtain ⟨elements, hel, rfl⟩ := ih hcs
    refine ⟨b :: elements, ?_, by simp⟩
    rw [List.mapM_cons, hb, hel]
    rfl

/-- A result array that is written is its count and its elements. -/
lemma writeArgarray_eq_ok {values : List NfsResOp4} {out : Bytes}
    (h : writeArgarray values = .ok out) :
    ∃ elements, values.mapM NfsResOp4.serializeElement = .ok elements ∧
      out = beBytes 4 values.length ++ elements.flatten := by
  cases values with
  | nil =>
    cases h
    exact ⟨[], rfl, by simp⟩
  | cons r l =>
    rw [writeArgarray, if_neg (by simp), serializeVec] at h
    split_ifs at h with hlen
    obtain ⟨count, hcount, h⟩ := except_bind_eq_ok.1 h
    obtain ⟨rest, hrest, h⟩ := except_bind_eq_ok.1 h
    cases hcount
    cases h
    obtain ⟨elements, hel, rfl⟩ := fields_serializeElement hrest
    exact ⟨elements, hel, rfl⟩

/-! ### Both directions -/

/-- The numbering agrees on a compound and a result array: what is decoded from the wire is
the list of operations sent, whose `op_code`s are the words on the wire, and every element of
the reply starts with the declared number of the operation it answers. -/
def NumberingAgrees (args : Compound4args) (wire : Bytes) (resarray : List NfsResOp4)
    (out : Bytes) : Prop :=
  (∃ decoded ops, Xdr.fromBytes Compound4args.codec wire = .ok decoded ∧
    wireElements args.argarray = .ok ops ∧ decoded.argarray = args.argarray ∧
    decoded.argarray.map opCode = ops.map leadingWord) ∧
  ∃ elements, resarray.mapM NfsResOp4.serializeElement = .ok elements ∧
    out = beBytes 4 resarray.length ++ elements.flatten ∧
    elements.map leadingWord = resarray.map NfsResOp4.opNum

/-- The numbering agrees exactly on the compounds and result arrays all of whose operations
are in step. -/
theorem wire_numbering_agrees_iff (args : Compound4args) (wire : Bytes)
    (resarray : List NfsResOp4) (out : Bytes) (hwf : ∀ op ∈ args.argarray, op.WellFormed)
    (hwire : wireBytes args = .ok wire) (hout : writeArgarray resarray = .ok out) :
    NumberingAgrees args wire resarray out ↔
      (∀ op ∈ args.argarray, op.InStep) ∧ ∀ r ∈ resarray, r.InStep := by
  obtain ⟨ops, hops⟩ := wireElements_of_wireBytes hwire
  obtain ⟨elements, hel, hflat⟩ := writeArgarray_eq_ok hout
  constructor
  · rintro ⟨⟨decoded, -, hdec, -, heq, -⟩, ⟨elements', hel', -, hnum⟩⟩
    refine ⟨(fromBytes_wireBytes_iff hwf hwire).1 ⟨decoded, hdec, heq⟩, fun r hr => ?_⟩
    obtain ⟨bs, hbs, hword⟩ := forall_of_map_eq hel' hnum r hr
    exact (leadingWord_serializeElement_iff hbs).1 hword
  · rintro ⟨hargs, hres⟩
    obtain ⟨decoded, hdec, heq⟩ := (fromBytes_wireBytes_iff hwf hwire).2 hargs
    refine ⟨⟨decoded, ops, hdec, hops, heq, ?_⟩, ⟨elements, hel, hflat, ?_⟩⟩
    · rw [heq]
      exact (map_eq_of_mapM hops (fun _ _ _ h => leadingWord_wireElement h)).symm
    · exact map_eq_of_mapM hel
        (fun r hr _ h => (leadingWord_serializeElement_iff h).2 (hres r hr))

/-- PUTROOTFH and GETFH, with the reply to PUTROOTFH, are in step. -/
theorem wire_numbering_agrees_putrootfh_getfh :
    NumberingAgrees ⟨"", 0, [.opputrootfh, .opgetfh]⟩
      [0, 0, 0, 0, 0, 0, 0, 0, 0, 0, 0, 2, 0, 0, 0, 24, 0, 0, 0, 10]
      [.opputrootfh ⟨.nfs4Ok⟩] [0, 0, 0, 1, 0, 0, 0, 24, 0, 0, 0, 0] :=
  (wire_numbering_agrees_iff ⟨"", 0, [.opputrootfh, .opgetfh]⟩ _ [.opputrootfh ⟨.nfs4Ok⟩] _
    (by simp [NfsArgOp.WellFormed]) rfl rfl).2
    ⟨by simp [NfsArgOp.InStep, opCode, NfsArgOp.carriesLockType, NfsArgOp.attrsDecodable],
      by simp [NfsResOp4.InStep, NfsResOp4.opNum]⟩

/-- A compound of one LOCKU for the lock type `t`. -/
def lockuOf (t : NfsLockType4) : Compound4args :=
  ⟨"", 0, [.oplocku ⟨t, 0, ⟨1, List.Vector.replicate 12 0⟩, 0, 0⟩]⟩

/-- A LOCKU for READ_LT arrives as one for WRITE_LT, and the reply to RECLAIM_COMPLETE (58) is
sent under the number 54. -/
theorem locku_read_arrives_as_write :
    ∃ wire out, (∀ op ∈ (lockuOf .readLt).argarray, op.WellFormed) ∧
      wireBytes (lockuOf .readLt) = .ok wire ∧
      Xdr.fromBytes Compound4args.codec wire = .ok (lockuOf .writeLt) ∧
      writeArgarray [.opreclaimComplete ⟨.nfs4Ok⟩] = .ok out ∧
      out = [0, 0, 0, 1, 0, 0, 0, 54, 0, 0, 0, 0] ∧
      ¬ NumberingAgrees (lockuOf .readLt) wire [.opreclaimComplete ⟨.nfs4Ok⟩] out := by
  refine ⟨_, _, by simp [lockuOf, NfsArgOp.WellFormed], rfl, rfl, rfl, rfl, ?_⟩
  rintro ⟨⟨decoded, -, hdec, -, heq, -⟩, -⟩
  have hwrite : decoded = lockuOf .writeLt := (Except.ok.inj hdec).symm
  rw [hwrite] at heq
  cases heq

end NextNfs
