import NextNfs.Proto.AttrDecoding
import NextNfs.Server.ExportManager
import NextNfs.Server.FileOps
import NextNfs.Server.OwnerCalls
import NextNfs.Server.Perm

set_option relaxedAutoImplicit false
set_option autoImplicit false

/-!
# What SETATTR does to a file

`set_attr` of `filemanager/handle.rs` goes through the values of a request and makes one or more
system calls for each. What fails is logged and left out of the list of attributes that it returns,
and SETATTR sends that list with NFS4_OK. This module models the calls on one file and says when the
request has been carried out.

## Main definitions

* `NextNfs.SetAttr.File`, `NextNfs.SetAttr.Host` — a file, and the machine it is on.
* `NextNfs.SetAttr.setAttr` — `set_attr` on the file.
* `NextNfs.SetAttr.Effect` — the file has what was asked for and its content is otherwise the same.
* `NextNfs.SetAttr.Settable` — the values that can be set.

## Main results

* `NextNfs.SetAttr.effect_iff_settable` — a SETATTR that succeeds has its effect exactly when all
  its values can be set.

## Implementation notes

A host answers by its fields, which are fixed for a run. As a request has each attribute once and
each attribute has calls of its own, they say what becomes of each call. `append_file` opens a file
with `O_APPEND`, so that what is written goes to the end of the file whatever the position before it
is.
-/

namespace NextNfs.SetAttr

open Wire Dialogue Dispatcher

/-! ### Files -/

/-- What SETATTR may change about a file. -/
structure File where
  content : Bytes
  mode : UInt32
  uid : UInt32
  gid : UInt32
  atime : ℕ
  mtime : ℕ

/-- A machine, as far as it answers the calls of `set_attr`. -/
structure Host where
  names : NameService
  /-- Whether there is memory for a number of bytes. -/
  allocates : ℕ → Bool
  /-- Whether the file can be opened to be read, read up to its end, and opened to be appended to.
  -/
  opens : Bool
  reads : Bool
  appends : Bool
  /-- The number of bytes that can be written before writing fails. -/
  room : ℕ
  chmods : UInt32 → Bool
  chownsUid : UInt32 → Bool
  chownsGid : UInt32 → Bool
  utimes : Bool
  /-- The bits of a mode that are cleared when the file is written to or given away, or left out
  when the mode is set. -/
  writeClears : UInt32 → UInt32
  chownClears : UInt32 → UInt32
  chmodClears : UInt32 → UInt32
  now : ℕ

variable (host : Host)

/-- `write_all` on a file that is open with `O_APPEND`: the file, and whether all was written. -/
def File.writeAll (f : File) (buf : Bytes) : File × Bool :=
  let written := buf.take host.room
  if written.isEmpty then (f, written.length == buf.length)
  else
    ({ f with
        content := f.content ++ written
        mode := f.mode &&& ~~~host.writeClears f.mode
        mtime := host.now },
      written.length == buf.length)

/-- `chown`. The id 0xffffffff stands for the one that the file has. -/
def File.chown (f : File) (uid gid : UInt32) : File :=
  { f with
    uid := if uid = 0xffffffff then f.uid else uid
    gid := if gid = 0xffffffff then f.gid else gid
    mode := f.mode &&& ~~~host.chownClears f.mode }

/-- The mode of a file after `chmod`. -/
def Host.modeSet (mode : UInt32) : UInt32 := mode &&& 0o7777 &&& ~~~host.chmodClears mode

/-- `chmod`. -/
def File.chmod (f : File) (mode : UInt32) : File := { f with mode := host.modeSet mode }

/-- `utimensat` with `UTIME_NOW` for both times. -/
def File.utimensNow (f : File) : File := { f with atime := host.now, mtime := host.now }

/-! ### The call -/

/-- The arm of `set_attr` for a size: as many bytes as the new size are read from the start of the
file and written to it. `none` if there is no buffer of this size. -/
def setSize (f : File) (size : UInt64) : Option (File × Bool) :=
  if size.toNat < 2 ^ 63 ∧ host.allocates size.toNat = true then
    -- Nothing is read into an empty buffer.
    if host.opens ∧ (size.toNat = 0 ∨ (host.reads ∧ size.toNat ≤ f.content.length)) then
      if host.appends then some (f.writeAll host (f.content.take size.toNat)) else some (f, false)
    else some (f, false)
  else none

/-- The file after a call that succeeds. -/
def File.callIf (f f' : File) (succeeds : Bool) : File × Bool :=
  if succeeds then (f', true) else (f, false)

/-- One attribute of `set_attr`: the file, and whether the attribute was set. -/
def setAttrOne (f : File) : FileAttrValue → Option (File × Bool)
  | .size size => setSize host f size
  | .owner owner =>
    match resolveNfs4 host.names.getpwnam owner with
    | some uid => some (f.callIf (f.chown host uid 0xffffffff) (host.chownsUid uid))
    | none => some (f, false)
  | .ownerGroup group =>
    match resolveNfs4 host.names.getgrnam group with
    | some gid => some (f.callIf (f.chown host 0xffffffff gid) (host.chownsGid gid))
    | none => some (f, false)
  | .mode mode => some (f.callIf (f.chmod host mode) (host.chmods mode))
  | .timeModifySet => some (f.callIf (f.utimensNow host) host.utimes)
  | _ => some (f, false)

/-- `set_attr`: the file, and the attributes that were set; `none` if it panics. -/
def setAttr (f : File) : List FileAttrValue → Option (File × List FileAttr)
  | [] => some (f, [])
  | attr :: attrVals => do
    let (f, done) ← setAttrOne host f attr
    let (f, attrsset) ← setAttr f attrVals
    pure (f, if done then attr.attr :: attrsset else attrsset)

/-! ### The effect -/

/-- A content with one attribute set: a new size cuts it off or fills it up with zeros. -/
def resize (content : Bytes) : FileAttrValue → Bytes
  | .size size =>
    content.take size.toNat ++ List.replicate (size.toNat - content.length) 0
  | _ => content

/-- A new size is the length of the content after it. -/
lemma length_resize (content : Bytes) (size : UInt64) :
    (resize content (.size size)).length = size.toNat := by
  rw [resize, List.length_append, List.length_take, List.length_replicate]
  omega

/-- The file has the value of an attribute. Nothing but these attributes can be set. -/
def File.Has (f : File) : FileAttrValue → Prop
  | .size size => f.content.length = size.toNat
  | .mode mode => f.mode = mode
  | .owner owner => resolveNfs4 host.names.getpwnam owner = some f.uid
  | .ownerGroup group => resolveNfs4 host.names.getgrnam group = some f.gid
  | .timeModifySet => f.mtime = host.now
  | _ => False

/-- What a request asks for is done: all attributes of its mask are reported to be set, the new file
has their values, and its content is the old one but for the new size. -/
structure Effect (old : File) (attrs : Fattr4) (attrsset : List FileAttr) (new : File) : Prop where
  mask : attrsset = attrs.attrmask
  values : ∀ v ∈ attrs.attrVals, new.Has host v
  content : new.content = attrs.attrVals.foldl resize old.content

/-- The value of an attribute of a request with a mask can be set. -/
def CanSet (old : File) (attrmask : List FileAttr) : FileAttrValue → Prop
  | .size size => size = 0 ∧ old.content = [] ∧ host.opens = true ∧ host.appends = true
  | .mode mode => host.chmods mode = true ∧ host.modeSet mode = mode ∧
    (.owner ∈ attrmask ∨ .ownerGroup ∈ attrmask → mode &&& ~~~host.chownClears mode = mode)
  | .owner owner => ∃ uid, resolveNfs4 host.names.getpwnam owner = some uid ∧
    host.chownsUid uid = true ∧ (uid = 0xffffffff → old.uid = uid)
  | .ownerGroup group => ∃ gid, resolveNfs4 host.names.getgrnam group = some gid ∧
    host.chownsGid gid = true ∧ (gid = 0xffffffff → old.gid = gid)
  | .timeModifySet => host.utimes = true
  | _ => False

/-- A request all of whose attributes have values that can be set. -/
structure Settable (old : File) (attrs : Fattr4) : Prop where
  complete : attrs.attrVals.map FileAttrValue.attr = attrs.attrmask
  all : ∀ v ∈ attrs.attrVals, CanSet host old attrs.attrmask v

/-- A request as it is decoded: the attributes of the mask in order, and values of the first of
them. -/
structure Decoded (attrs : Fattr4) : Prop where
  ascending : Ascending attrs.attrmask
  prefix_mask : attrs.attrVals.map FileAttrValue.attr <+: attrs.attrmask

/-- What is read off the wire is decoded, for a bitmap as long as a record can be. -/
lemma decoded_fattr4OfRaw {raw : List UInt32} (h : raw.length ≤ 2 ^ 27) (buf : Bytes) :
    Decoded (fattr4OfRaw raw buf) :=
  ⟨ascending_fileAttrsFromU32 h, attrvaluesFromBytes_prefix buf _ 0⟩

/-! ### One attribute -/

/-- What becomes of one attribute. -/
inductive Turn (f : File) : FileAttrValue → File → Bool → Prop
  | size {size : UInt64} {f' : File} {done : Bool} :
    setSize host f size = some (f', done) → Turn f (.size size) f' done
  | mode {mode : UInt32} : host.chmods mode = true → Turn f (.mode mode) (f.chmod host mode) true
  | owner {owner : String} {uid : UInt32} : resolveNfs4 host.names.getpwnam owner = some uid →
    host.chownsUid uid = true → Turn f (.owner owner) (f.chown host uid 0xffffffff) true
  | ownerGroup {group : String} {gid : UInt32} : resolveNfs4 host.names.getgrnam group = some gid →
    host.chownsGid gid = true → Turn f (.ownerGroup group) (f.chown host 0xffffffff gid) true
  | timeModifySet : host.utimes = true → Turn f .timeModifySet (f.utimensNow host) true
  | fails {v : FileAttrValue} : v.attr ≠ .size → (∀ old attrmask, ¬ CanSet host old attrmask v) →
    Turn f v f false

variable {host} {f f' new old : File} {v : FileAttrValue} {done : Bool}

lemma callIf_cases {f₁ : File} {succeeds : Bool}
    (h : some (f.callIf f₁ succeeds) = some (f', done)) :
    (succeeds = true ∧ f' = f₁ ∧ done = true) ∨ (succeeds = false ∧ f' = f ∧ done = false) := by
  cases succeeds with
  | true =>
    cases h
    exact .inl ⟨rfl, rfl, rfl⟩
  | false =>
    cases h
    exact .inr ⟨rfl, rfl, rfl⟩

/-- The arms of `set_attr` have these outcomes. -/
lemma turn_of_setAttrOne (h : setAttrOne host f v = some (f', done)) : Turn host f v f' done := by
  cases v with
  | size size => exact .size h
  | mode mode =>
    rcases callIf_cases h with ⟨hgoes, rfl, rfl⟩ | ⟨hgoes, rfl, rfl⟩
    · exact .mode hgoes
    · exact .fails nofun fun _ _ hset => Bool.false_ne_true (hgoes.symm.trans hset.1)
  | owner owner =>
    dsimp only [setAttrOne] at h
    cases huid : resolveNfs4 host.names.getpwnam owner with
    | none =>
      rw [huid] at h
      cases h
      exact .fails nofun fun _ _ ⟨_, hsome, _⟩ => by simp [huid] at hsome
    | some uid =>
      rw [huid] at h
      rcases callIf_cases h with ⟨hgoes, rfl, rfl⟩ | ⟨hgoes, rfl, rfl⟩
      · exact .owner huid hgoes
      · refine .fails nofun fun _ _ ⟨uid', hsome, hset, _⟩ => ?_
        cases huid.symm.trans hsome
        exact Bool.false_ne_true (hgoes.symm.trans hset)
  | ownerGroup group =>
    dsimp only [setAttrOne] at h
    cases hgid : resolveNfs4 host.names.getgrnam group with
    | none =>
      rw [hgid] at h
      cases h
      exact .fails nofun fun _ _ ⟨_, hsome, _⟩ => by simp [hgid] at hsome
    | some gid =>
      rw [hgid] at h
      rcases callIf_cases h with ⟨hgoes, rfl, rfl⟩ | ⟨hgoes, rfl, rfl⟩
      · exact .ownerGroup hgid hgoes
      · refine .fails nofun fun _ _ ⟨gid', hsome, hset, _⟩ => ?_
        cases hgid.symm.trans hsome
        exact Bool.false_ne_true (hgoes.symm.trans hset)
  | timeModifySet =>
    rcases callIf_cases h with ⟨hgoes, rfl, rfl⟩ | ⟨hgoes, rfl, rfl⟩
    · exact .timeModifySet hgoes
    · exact .fails nofun fun _ _ hset => Bool.false_ne_true (hgoes.symm.trans hset)
  | _ =>
    cases h
    exact .fails nofun fun _ _ hset => hset

/-- `write_all` leaves the owners, and if it succeeds the bytes are at the end of the file. -/
lemma File.writeAll_spec (f : File) (buf : Bytes) :
    (f.writeAll host buf).1.uid = f.uid ∧ (f.writeAll host buf).1.gid = f.gid ∧
      ((f.writeAll host buf).2 = true → (f.writeAll host buf).1.content = f.content ++ buf) := by
  have hall : ∀ {written : Bytes}, written = buf.take host.room →
      (written.length == buf.length) = true → written = buf := by
    rintro _ rfl hlen
    rw [beq_iff_eq, List.length_take] at hlen
    exact List.take_of_length_le (by omega)
  unfold File.writeAll
  dsimp only
  split_ifs with hempty
  · refine ⟨rfl, rfl, fun hlen => ?_⟩
    have hbuf : buf = [] := (hall rfl hlen).symm.trans (List.isEmpty_iff.1 hempty)
    rw [hbuf, List.append_nil]
  · exact ⟨rfl, rfl, fun hlen => by rw [hall rfl hlen]⟩

/-- Writing nothing changes nothing. -/
lemma File.writeAll_nil (f : File) : f.writeAll host [] = (f, true) := by
  simp [File.writeAll]

/-- What setting a size does: it leaves the owners, and if it succeeds the start of the content is
put after the content. -/
lemma setSize_spec {size : UInt64} (h : setSize host f size = some (f', done)) :
    f'.uid = f.uid ∧ f'.gid = f.gid ∧
      (done = true → host.opens = true ∧ host.appends = true ∧ size.toNat ≤ f.content.length ∧
        f'.content = f.content ++ f.content.take size.toNat) := by
  unfold setSize at h
  split_ifs at h with hmem hread hwrite
  · obtain ⟨huid, hgid, hcontent⟩ := @File.writeAll_spec host f (f.content.take size.toNat)
    rw [Option.some.inj h] at huid hgid hcontent
    refine ⟨huid, hgid, fun hdone => ⟨hread.1, hwrite, ?_, hcontent hdone⟩⟩
    rcases hread.2 with hzero | ⟨-, hle⟩
    · omega
    · exact hle
  · cases h
    exact ⟨rfl, rfl, nofun⟩
  · cases h
    exact ⟨rfl, rfl, nofun⟩

/-- Setting the size of an empty file to zero changes nothing. -/
lemma setSize_zero (hcontent : f.content = []) (hopens : host.opens = true)
    (happends : host.appends = true) (h : setSize host f 0 = some (f', done)) :
    f' = f ∧ done = true := by
  unfold setSize at h
  rw [hcontent, List.take_nil, f.writeAll_nil] at h
  split_ifs at h with hmem hread
  · cases h
    exact ⟨rfl, rfl⟩
  · exact absurd ⟨hopens, .inl rfl⟩ hread

/-! ### The loop -/

section Loop

variable {vals pre post : List FileAttrValue} {attrsset : List FileAttr}

/-- What every attribute keeps is kept. -/
lemma setAttr_keeps {P : File → Prop} (h : setAttr host f vals = some (new, attrsset)) (hP : P f)
    (hstep : ∀ v ∈ vals, ∀ {f f' done}, Turn host f v f' done → P f → P f') : P new := by
  induction vals generalizing f attrsset with
  | nil =>
    cases h
    exact hP
  | cons v vals ih =>
    obtain ⟨⟨f₁, done⟩, hone, h⟩ := Option.bind_eq_some_iff.1 h
    obtain ⟨⟨f₂, rest⟩, hrest, h⟩ := Option.bind_eq_some_iff.1 h
    cases h
    have hP₁ : P f₁ := hstep v List.mem_cons_self (turn_of_setAttrOne hone) hP
    exact ih hrest hP₁ fun w hw => hstep w (List.mem_cons_of_mem _ hw)

/-- Only attributes that were asked for are set, each at most once. -/
lemma attrsset_sublist (h : setAttr host f vals = some (new, attrsset)) :
    attrsset.Sublist (vals.map FileAttrValue.attr) := by
  induction vals generalizing f attrsset with
  | nil =>
    cases h
    exact .slnil
  | cons v vals ih =>
    obtain ⟨⟨f₁, done⟩, hone, h⟩ := Option.bind_eq_some_iff.1 h
    obtain ⟨⟨f₂, rest⟩, hrest, h⟩ := Option.bind_eq_some_iff.1 h
    cases h
    cases done with
    | true => exact (ih hrest).cons_cons _
    | false => exact (ih hrest).cons _

/-- The loop in two parts. -/
lemma setAttr_append (h : setAttr host f (pre ++ post) = some (new, attrsset)) :
    ∃ mid l₁ l₂, setAttr host f pre = some (mid, l₁) ∧ setAttr host mid post = some (new, l₂) ∧
      attrsset = l₁ ++ l₂ := by
  induction pre generalizing f attrsset with
  | nil => exact ⟨f, [], attrsset, rfl, h, rfl⟩
  | cons v pre ih =>
    obtain ⟨⟨f₁, done⟩, hone, h⟩ := Option.bind_eq_some_iff.1 h
    obtain ⟨⟨f₂, rest⟩, hrest, h⟩ := Option.bind_eq_some_iff.1 h
    cases h
    obtain ⟨mid, l₁, l₂, hpre, hpost, rfl⟩ := ih hrest
    refine ⟨mid, if done then v.attr :: l₁ else l₁, l₂, ?_, hpost, ?_⟩
    · simp [setAttr, hone, hpre]
    · cases done with
      | true => rfl
      | false => rfl

/-- The turn of an attribute: the attributes before it have been gone through, those after it
follow. -/
structure At (host : Host) (old : File) (vals : List FileAttrValue) (new : File)
    (attrsset : List FileAttr) (v : FileAttrValue) (f f' : File) (done : Bool)
    (pre post : List FileAttrValue) : Prop where
  split : vals = pre ++ v :: post
  before : ∃ l, setAttr host old pre = some (f, l)
  turn : Turn host f v f' done
  after : ∃ l, setAttr host f' post = some (new, l) ∧
    ∀ a ∈ attrsset, v.attr.toU32 < a.toU32 → a ∈ l
  mem_iff : v.attr ∈ attrsset ↔ done = true
  lt_of_mem_pre : ∀ w ∈ pre, w.attr.toU32 < v.attr.toU32
  lt_of_mem_post : ∀ w ∈ post, v.attr.toU32 < w.attr.toU32

/-- Every attribute of an ascending request has its turn. -/
lemma exists_at (h : setAttr host old vals = some (new, attrsset))
    (hasc : Ascending (vals.map FileAttrValue.attr)) (hv : v ∈ vals) :
    ∃ f f' done pre post, At host old vals new attrsset v f f' done pre post := by
  obtain ⟨pre, post, rfl⟩ := List.append_of_mem hv
  obtain ⟨f, l₁, l₂, hpre, hpost, rfl⟩ := setAttr_append h
  obtain ⟨⟨f', done⟩, hone, hpost⟩ := Option.bind_eq_some_iff.1 hpost
  obtain ⟨⟨f₂, rest⟩, hrest, hpost⟩ := Option.bind_eq_some_iff.1 hpost
  cases hpost
  rw [Ascending, List.map_append, List.map_cons, List.pairwise_append, List.pairwise_cons] at hasc
  obtain ⟨-, ⟨hafter, -⟩, hbefore⟩ := hasc
  have hpreLt : ∀ w ∈ pre, w.attr.toU32 < v.attr.toU32 := fun w hw =>
    hbefore _ (List.mem_map_of_mem hw) _ List.mem_cons_self
  have hpostLt : ∀ w ∈ post, v.attr.toU32 < w.attr.toU32 := fun w hw =>
    hafter _ (List.mem_map_of_mem hw)
  have hset₁ : ∀ a ∈ l₁, a.toU32 < v.attr.toU32 := fun a ha => by
    obtain ⟨w, hw, rfl⟩ := List.mem_map.1 ((attrsset_sublist hpre).subset ha)
    exact hpreLt w hw
  have hset₂ : ∀ a ∈ rest, v.attr.toU32 < a.toU32 := fun a ha => by
    obtain ⟨w, hw, rfl⟩ := List.mem_map.1 ((attrsset_sublist hrest).subset ha)
    exact hpostLt w hw
  refine ⟨f, f', done, pre, post, rfl, ⟨_, hpre⟩, turn_of_setAttrOne hone, ⟨_, hrest, ?_⟩, ?_, hpreLt,
    hpostLt⟩
  · intro a ha hlt
    rcases List.mem_append.1 ha with hmem | hmem
    · exact absurd (hset₁ a hmem) hlt.not_gt
    · cases done with
      | false => exact hmem
      | true =>
        rcases List.mem_cons.1 hmem with rfl | hmem
        · exact absurd hlt (lt_irrefl _)
        · exact hmem
  · have hnot₁ : v.attr ∉ l₁ := fun hmem => lt_irrefl _ (hset₁ _ hmem)
    have hnot₂ : v.attr ∉ rest := fun hmem => lt_irrefl _ (hset₂ _ hmem)
    cases done with
    | true => simp
    | false => simp [hnot₁, hnot₂]

end Loop

/-! ### What the attributes leave alone -/

namespace Turn

lemma content_eq (h : Turn host f v f' done) (hv : v.attr ≠ .size) : f'.content = f.content := by
  cases h with
  | size => exact absurd rfl hv
  | _ => rfl

lemma uid_eq (h : Turn host f v f' done) (hv : v.attr ≠ .owner) : f'.uid = f.uid := by
  cases h with
  | size h => exact (setSize_spec h).1
  | owner => exact absurd rfl hv
  | ownerGroup => simp [File.chown]
  | _ => rfl

lemma gid_eq (h : Turn host f v f' done) (hv : v.attr ≠ .ownerGroup) : f'.gid = f.gid := by
  cases h with
  | size h => exact (setSize_spec h).2.1
  | owner => simp [File.chown]
  | ownerGroup => exact absurd rfl hv
  | _ => rfl

lemma mtime_eq (h : Turn host f v f' done) (hv : FileAttr.timeModifySet.toU32 < v.attr.toU32) :
    f'.mtime = f.mtime := by
  cases h with
  | size => exact absurd hv (show ¬ FileAttr.timeModifySet.toU32 < FileAttr.size.toU32 by decide)
  | timeModifySet => exact absurd hv (lt_irrefl _)
  | _ => rfl

/-- After the mode bits are only taken away, by a change of the owner or the group. -/
lemma mode_eq (h : Turn host f v f' done) (hv : FileAttr.mode.toU32 < v.attr.toU32) :
    f'.mode = f.mode ∨
      (v.attr = .owner ∨ v.attr = .ownerGroup) ∧ f'.mode = f.mode &&& ~~~host.chownClears f.mode := by
  cases h with
  | size => exact absurd hv (show ¬ FileAttr.mode.toU32 < FileAttr.size.toU32 by decide)
  | mode => exact absurd hv (lt_irrefl _)
  | owner => exact .inr ⟨.inl rfl, rfl⟩
  | ownerGroup => exact .inr ⟨.inr rfl, rfl⟩
  | _ => exact .inl rfl

lemma mode_le (h : Turn host f v f' done) (hv : FileAttr.mode.toU32 < v.attr.toU32) :
    f'.mode ≤ f.mode := by
  rcases h.mode_eq hv with heq | ⟨-, heq⟩
  · rw [heq]
    exact UInt32.le_refl _
  · rw [heq]
    exact UInt32.and_le_left

lemma mode_of_chown (h : Turn host f v f' true) (hv : v.attr = .owner ∨ v.attr = .ownerGroup) :
    f'.mode = f.mode &&& ~~~host.chownClears f.mode := by
  cases h with
  | owner => rfl
  | ownerGroup => rfl
  | _ => simp [FileAttrValue.attr] at hv

end Turn

/-- After the mode bits are only taken away. -/
lemma mode_le_of_setAttr {vals : List FileAttrValue} {attrsset : List FileAttr}
    (h : setAttr host f vals = some (new, attrsset))
    (hvals : ∀ v ∈ vals, FileAttr.mode.toU32 < v.attr.toU32) : new.mode ≤ f.mode :=
  setAttr_keeps (P := fun g => g.mode ≤ f.mode) h (UInt32.le_refl _) fun w hw _ _ _ hturn hg =>
    UInt32.le_trans (hturn.mode_le (hvals w hw)) hg

/-! ### Whether an attribute is set -/

/-- An id that `chown` was given is the one that the file has then, but for the id that stands for
the old one. -/
lemma chown_id_eq_iff {id oldId : UInt32} :
    (if id = 0xffffffff then oldId else id) = id ↔ (id = 0xffffffff → oldId = id) := by
  split_ifs with hid
  · exact ⟨fun h _ => h, fun h => h hid⟩
  · exact ⟨fun _ h => absurd h hid, fun _ => rfl⟩

namespace At

variable {vals pre post : List FileAttrValue} {attrsset attrmask : List FileAttr}

lemma ne_of_mem_pre (hAt : At host old vals new attrsset v f f' done pre post) {w : FileAttrValue}
    (hw : w ∈ pre) : w.attr ≠ v.attr := fun hwv => by
  have hlt := hAt.lt_of_mem_pre w hw
  rw [hwv] at hlt
  exact lt_irrefl _ hlt

lemma ne_of_mem_post (hAt : At host old vals new attrsset v f f' done pre post) {w : FileAttrValue}
    (hw : w ∈ post) : w.attr ≠ v.attr := fun hwv => by
  have hlt := hAt.lt_of_mem_post w hw
  rw [hwv] at hlt
  exact lt_irrefl _ hlt

/-- What only this attribute changes is the same before it as at first, and after it to the end. -/
lemma keeps {β : Type} {p : File → β} (hAt : At host old vals new attrsset v f f' done pre post)
    (hp : ∀ {w g g' done}, Turn host g w g' done → w.attr ≠ v.attr → p g' = p g) :
    p f = p old ∧ p new = p f' := by
  obtain ⟨l, hpre⟩ := hAt.before
  obtain ⟨l', hpost, -⟩ := hAt.after
  constructor
  · refine setAttr_keeps (P := fun g => p g = p old) hpre rfl fun w hw g g' done hturn hg => ?_
    exact (hp hturn (hAt.ne_of_mem_pre hw)).trans hg
  · refine setAttr_keeps (P := fun g => p g = p f') hpost rfl fun w hw g g' done hturn hg => ?_
    exact (hp hturn (hAt.ne_of_mem_post hw)).trans hg

/-- An attribute whose call fails is not set. -/
lemma fails_iff (hAt : At host old vals new attrsset v f f' false pre post)
    (hnot : ∀ old attrmask, ¬ CanSet host old attrmask v) {P : Prop} :
    (v.attr ∈ attrsset ∧ P) ↔ CanSet host old attrmask v :=
  ⟨fun h => absurd (hAt.mem_iff.1 h.1) Bool.false_ne_true, fun h => absurd h (hnot _ _)⟩

lemma owner_iff {owner : String}
    (hAt : At host old vals new attrsset (.owner owner) f f' done pre post) :
    (.owner ∈ attrsset ∧ new.Has host (.owner owner)) ↔ CanSet host old attrmask (.owner owner) := by
  obtain ⟨hold, hnew⟩ := hAt.keeps (p := File.uid) fun hturn hw => hturn.uid_eq hw
  cases hAt.turn with
  | @owner _ uid hresolve hgoes =>
    have huid : new.uid = if uid = 0xffffffff then old.uid else uid := by
      rw [hnew, ← hold]
      rfl
    have hmem : FileAttr.owner ∈ attrsset := hAt.mem_iff.2 rfl
    have hhas : new.Has host (.owner owner) ↔ (uid = 0xffffffff → old.uid = uid) := by
      show resolveNfs4 host.names.getpwnam owner = some new.uid ↔ _
      rw [← chown_id_eq_iff, ← huid, hresolve, Option.some.injEq, eq_comm]
    rw [hhas]
    constructor
    · exact fun h => ⟨uid, hresolve, hgoes, h.2⟩
    · rintro ⟨uid', hresolve', -, h⟩
      cases hresolve.symm.trans hresolve'
      exact ⟨hmem, h⟩
  | fails _ hnot => exact hAt.fails_iff hnot

lemma ownerGroup_iff {group : String}
    (hAt : At host old vals new attrsset (.ownerGroup group) f f' done pre post) :
    (.ownerGroup ∈ attrsset ∧ new.Has host (.ownerGroup group)) ↔
      CanSet host old attrmask (.ownerGroup group) := by
  obtain ⟨hold, hnew⟩ := hAt.keeps (p := File.gid) fun hturn hw => hturn.gid_eq hw
  cases hAt.turn with
  | @ownerGroup _ gid hresolve hgoes =>
    have hgid : new.gid = if gid = 0xffffffff then old.gid else gid := by
      rw [hnew, ← hold]
      rfl
    have hmem : FileAttr.ownerGroup ∈ attrsset := hAt.mem_iff.2 rfl
    have hhas : new.Has host (.ownerGroup group) ↔ (gid = 0xffffffff → old.gid = gid) := by
      show resolveNfs4 host.names.getgrnam group = some new.gid ↔ _
      rw [← chown_id_eq_iff, ← hgid, hresolve, Option.some.injEq, eq_comm]
    rw [hhas]
    constructor
    · exact fun h => ⟨gid, hresolve, hgoes, h.2⟩
    · rintro ⟨gid', hresolve', -, h⟩
      cases hresolve.symm.trans hresolve'
      exact ⟨hmem, h⟩
  | fails _ hnot => exact hAt.fails_iff hnot

lemma timeModifySet_iff (hAt : At host old vals new attrsset .timeModifySet f f' done pre post) :
    (.timeModifySet ∈ attrsset ∧ new.Has host .timeModifySet) ↔
      CanSet host old attrmask .timeModifySet := by
  cases hAt.turn with
  | timeModifySet hgoes =>
    obtain ⟨l, hpost, -⟩ := hAt.after
    have hmem : FileAttr.timeModifySet ∈ attrsset := hAt.mem_iff.2 rfl
    have htime : new.mtime = host.now :=
      setAttr_keeps (P := fun g => g.mtime = host.now) hpost rfl fun w hw g g' done hturn hg =>
        (hturn.mtime_eq (hAt.lt_of_mem_post w hw)).trans hg
    exact ⟨fun _ => hgoes, fun _ => ⟨hmem, htime⟩⟩
  | fails _ hnot => exact hAt.fails_iff hnot

/-- A size is set, and the content is then as it should be, only if there is nothing to do. -/
lemma size_iff {size : UInt64}
    (hAt : At host old vals new attrsset (.size size) f f' done pre post) :
    (.size ∈ attrsset ∧ new.content = resize old.content (.size size)) ↔
      CanSet host old attrmask (.size size) := by
  obtain ⟨hold, hnew⟩ := hAt.keeps (p := File.content) fun hturn hw => hturn.content_eq hw
  cases hAt.turn with
  | size hset =>
    constructor
    · rintro ⟨hmem, hcontent⟩
      obtain ⟨hopens, happends, hle, htwice⟩ := (setSize_spec hset).2.2 (hAt.mem_iff.1 hmem)
      rw [hold] at hle htwice
      have hlen : (old.content ++ old.content.take size.toNat).length = size.toNat := by
        rw [← htwice, ← hnew, hcontent, length_resize]
      rw [List.length_append, List.length_take] at hlen
      have hempty : old.content = [] := List.length_eq_zero_iff.1 (by omega)
      have hzero : size.toNat = 0 := by
        rw [hempty, List.length_nil] at hle
        omega
      exact ⟨UInt64.toNat_inj.1 hzero, hempty, hopens, happends⟩
    · rintro ⟨rfl, hempty, hopens, happends⟩
      obtain ⟨rfl, hdone⟩ := setSize_zero (hold.trans hempty) hopens happends hset
      refine ⟨hAt.mem_iff.2 hdone, ?_⟩
      rw [hnew, hold, hempty]
      rfl
  | fails hsize => exact absurd rfl hsize

lemma mem (hAt : At host old vals new attrsset v f f' done pre post) : v ∈ vals := by
  rw [hAt.split]
  exact List.mem_append_right _ List.mem_cons_self

/-- What has a higher number comes after it. -/
lemma mem_post (hAt : At host old vals new attrsset v f f' done pre post) {w : FileAttrValue}
    (hw : w ∈ vals) (hlt : v.attr.toU32 < w.attr.toU32) : w ∈ post := by
  rw [hAt.split, List.mem_append, List.mem_cons] at hw
  rcases hw with hw | rfl | hw
  · exact absurd (hAt.lt_of_mem_pre w hw) hlt.not_gt
  · exact absurd hlt (lt_irrefl _)
  · exact hw

/-- A mode that is set, and that the file has in the end, is one that the calls leave alone. -/
lemma canSet_mode {mode : UInt32}
    (hAt : At host old vals new attrsset (.mode mode) f f' done pre post)
    (hasc : Ascending (vals.map FileAttrValue.attr))
    (hall : ∀ w ∈ vals, w.attr ∈ attrsset) (hhas : new.mode = mode) :
    CanSet host old (vals.map FileAttrValue.attr) (.mode mode) := by
  obtain ⟨l, hpost, hrest⟩ := hAt.after
  cases hAt.turn with
  | fails => exact absurd (hAt.mem_iff.1 (hall _ hAt.mem)) Bool.false_ne_true
  | mode hgoes =>
    have hle : host.modeSet mode ≤ mode := UInt32.le_trans UInt32.and_le_left UInt32.and_le_left
    have hnew : mode ≤ host.modeSet mode := hhas ▸ mode_le_of_setAttr hpost hAt.lt_of_mem_post
    refine ⟨hgoes, UInt32.le_antisymm hle hnew, fun hchown => ?_⟩
    have hw : ∃ w ∈ vals, w.attr = .owner ∨ w.attr = .ownerGroup := by
      rcases hchown with h | h
      · obtain ⟨w, hw, hattr⟩ := List.mem_map.1 h
        exact ⟨w, hw, .inl hattr⟩
      · obtain ⟨w, hw, hattr⟩ := List.mem_map.1 h
        exact ⟨w, hw, .inr hattr⟩
    obtain ⟨w, hw, hattr⟩ := hw
    have hlt : FileAttr.mode.toU32 < w.attr.toU32 := by
      rcases hattr with hattr | hattr
      · rw [hattr]
        decide
      · rw [hattr]
        decide
    -- The mode before the change of the owner is below the one that was asked for, the one after
    -- it above.
    have hmem : w ∈ post := hAt.mem_post hw hlt
    have hascPost : Ascending (post.map FileAttrValue.attr) := by
      rw [hAt.split, Ascending, List.map_append, List.map_cons] at hasc
      exact (hasc.sublist (List.sublist_append_right _ _)).of_cons
    obtain ⟨g, g', done', pre', post', hW⟩ := exists_at hpost hascPost hmem
    have hdone : done' = true := hW.mem_iff.1 (hrest _ (hall w hw) hlt)
    subst hdone
    obtain ⟨l₁, hpre'⟩ := hW.before
    obtain ⟨l₂, hpost', -⟩ := hW.after
    have hbefore : g.mode ≤ mode := by
      refine UInt32.le_trans (mode_le_of_setAttr hpre' fun u hu => ?_) hle
      exact hAt.lt_of_mem_post u (hW.split ▸ List.mem_append_left _ hu)
    have hafter : mode ≤ g'.mode := hhas ▸ mode_le_of_setAttr hpost' fun u hu =>
      hlt.trans (hW.lt_of_mem_post u hu)
    rw [hW.turn.mode_of_chown hattr] at hafter
    have hg : g.mode = mode :=
      UInt32.le_antisymm hbefore (UInt32.le_trans hafter UInt32.and_le_left)
    rw [hg] at hafter
    exact UInt32.le_antisymm UInt32.and_le_left hafter

/-- A mode that the calls leave alone is set. -/
lemma set_mode {mode : UInt32}
    (hAt : At host old vals new attrsset (.mode mode) f f' done pre post)
    (hcan : CanSet host old (vals.map FileAttrValue.attr) (.mode mode)) :
    .mode ∈ attrsset ∧ new.mode = mode := by
  obtain ⟨l, hpost, -⟩ := hAt.after
  cases hAt.turn with
  | fails _ hnot => exact absurd hcan (hnot _ _)
  | mode hgoes =>
    refine ⟨hAt.mem_iff.2 rfl, ?_⟩
    refine setAttr_keeps (P := fun g => g.mode = mode) hpost hcan.2.1 fun w hw g g' done hturn hg => ?_
    rcases hturn.mode_eq (hAt.lt_of_mem_post w hw) with heq | ⟨hchown, heq⟩
    · exact heq.trans hg
    · rw [heq, hg]
      have hmem : w.attr ∈ vals.map FileAttrValue.attr := List.mem_map_of_mem
        (hAt.split ▸ List.mem_append_right _ (List.mem_cons_of_mem _ hw))
      refine hcan.2.2 ?_
      rcases hchown with h | h
      · exact .inl (h ▸ hmem)
      · exact .inr (h ▸ hmem)

end At

/-! ### Whether a request is carried out -/

lemma foldl_resize_of_ne {vals : List FileAttrValue} (h : ∀ v ∈ vals, v.attr ≠ .size)
    (content : Bytes) : vals.foldl resize content = content := by
  induction vals with
  | nil => rfl
  | cons v vals ih =>
    have hv : resize content v = content := by
      cases v with
      | size => exact absurd rfl (h _ List.mem_cons_self)
      | _ => rfl
    rw [List.foldl_cons, hv]
    exact ih fun w hw => h w (List.mem_cons_of_mem _ hw)

/-- The content that is asked for is that of the one size. -/
lemma At.foldl_resize {vals pre post : List FileAttrValue} {attrsset : List FileAttr} {size : UInt64}
    (hAt : At host old vals new attrsset (.size size) f f' done pre post) :
    vals.foldl resize old.content = resize old.content (.size size) := by
  rw [hAt.split, List.foldl_append, List.foldl_cons,
    foldl_resize_of_ne fun _ hw => hAt.ne_of_mem_pre hw,
    foldl_resize_of_ne fun _ hw => hAt.ne_of_mem_post hw]

variable {attrs : Fattr4} {attrsset : List FileAttr}

/-- The loop carries out a request exactly when all its values can be set. -/
lemma effect_iff (hdec : Decoded attrs)
    (h : setAttr host old attrs.attrVals = some (new, attrsset)) :
    Effect host old attrs attrsset new ↔ Settable host old attrs := by
  have hsub : attrsset.Sublist (attrs.attrVals.map FileAttrValue.attr) := attrsset_sublist h
  have hasc : Ascending (attrs.attrVals.map FileAttrValue.attr) :=
    hdec.ascending.sublist hdec.prefix_mask.sublist
  constructor
  · intro heffect
    have hcomplete : attrs.attrVals.map FileAttrValue.attr = attrs.attrmask :=
      hdec.prefix_mask.sublist.antisymm (heffect.mask ▸ hsub)
    have hall : ∀ w ∈ attrs.attrVals, w.attr ∈ attrsset := fun w hw => by
      rw [heffect.mask, ← hcomplete]
      exact List.mem_map_of_mem hw
    refine ⟨hcomplete, fun v hv => ?_⟩
    obtain ⟨f, f', done, pre, post, hAt⟩ := exists_at h hasc hv
    have hmem := hall v hv
    have hhas := heffect.values v hv
    cases v with
    | size size => exact hAt.size_iff.1 ⟨hmem, heffect.content.trans hAt.foldl_resize⟩
    | mode mode =>
      rw [← hcomplete]
      exact hAt.canSet_mode hasc hall hhas
    | owner owner => exact hAt.owner_iff.1 ⟨hmem, hhas⟩
    | ownerGroup group => exact hAt.ownerGroup_iff.1 ⟨hmem, hhas⟩
    | timeModifySet => exact hAt.timeModifySet_iff.1 ⟨hmem, hhas⟩
    | _ => exact hhas
  · intro hset
    have hturn : ∀ v ∈ attrs.attrVals, v.attr ∈ attrsset ∧ new.Has host v := by
      intro v hv
      obtain ⟨f, f', done, pre, post, hAt⟩ := exists_at h hasc hv
      have hcan := hset.all v hv
      cases v with
      | size size =>
        obtain ⟨hmem, hcontent⟩ := hAt.size_iff.2 hcan
        refine ⟨hmem, ?_⟩
        show new.content.length = size.toNat
        rw [hcontent, length_resize]
      | mode mode => exact hAt.set_mode (hset.complete ▸ hcan)
      | owner owner => exact hAt.owner_iff.2 hcan
      | ownerGroup group => exact hAt.ownerGroup_iff.2 hcan
      | timeModifySet => exact hAt.timeModifySet_iff.2 hcan
      | _ => exact hcan.elim
    refine ⟨?_, fun v hv => (hturn v hv).2, ?_⟩
    · rw [← hset.complete]
      have hnodup : (attrs.attrVals.map FileAttrValue.attr).Nodup :=
        hasc.imp fun {a b} hlt (heq : a = b) => lt_irrefl _ (heq ▸ hlt)
      refine hsub.eq_of_length_le (List.subperm_of_subset hnodup fun a ha => ?_).length_le
      obtain ⟨v, hv, rfl⟩ := List.mem_map.1 ha
      exact (hturn v hv).1
    · by_cases hsize : ∃ size, FileAttrValue.size size ∈ attrs.attrVals
      · obtain ⟨size, hv⟩ := hsize
        obtain ⟨f, f', done, pre, post, hAt⟩ := exists_at h hasc hv
        rw [hAt.foldl_resize]
        exact (hAt.size_iff.2 (hset.all _ hv)).2
      · have hne : ∀ v ∈ attrs.attrVals, v.attr ≠ .size := by
          intro v hv hattr
          cases v with
          | size size => exact hsize ⟨size, hv⟩
          | _ => cases hattr
        rw [foldl_resize_of_ne hne]
        exact setAttr_keeps (P := fun g => g.content = old.content) h rfl
          fun w hw g g' done hturn hg => (hturn.content_eq (hne w hw)).trans hg

/-! ### SETATTR -/

section Run

variable {S : Server} {args : SetAttr4args} {req : Request}

/-- The environment of a SETATTR. The file is that of the current filehandle, and the file manager
sets its attributes. No call but those that change files changes it. -/
def step (host : Host) (req : Request) (file : File) : (q : Question) → q.Answer → File → Prop
  | .on e (.setAttr fh attrVals), attrsset, file' =>
    e = req.cachedFmanager → req.filehandle.map Handle.toFilehandle = some fh →
      setAttr host file attrVals = some (file', attrsset)
  | .on _ call, _, file' => call.modifies = false → file' = file
  | _, _, file' => file' = file

/-- The questions that leave the file alone. -/
def Leaves : Question → Prop
  | .on _ call => call.modifies = false
  | _ => True

lemma eq_of_step {file file' : File} {q : Question} {a : q.Answer} (h : step host req file q a file')
    (hq : Leaves q) : file' = file := by
  cases q with
  | on e call =>
    cases call with
    | setAttr => cases hq
    | _ => exact h hq
  | _ => exact h

/-- A program that asks nothing else leaves the file alone. -/
lemma stays {α : Type} {p : Op α} (hp : p.AsksOnly Leaves) {file : File} :
    p.Sat (step host req) (fun _ _ => True) True file fun _ file' => file' = file := by
  refine (Prog.Does.sat (I := fun file' => file' = file) hp rfl ?_ (fun _ _ _ _ => trivial)
    fun _ => trivial).mono fun _ _ h => h.2
  exact fun s q a s' hs hq hstep => ⟨trivial, (eq_of_step hstep hq).trans hs⟩

/-- SETATTR goes through its values once, and answers with what was set. -/
lemma setattr_sat (hdec : Decoded args.objAttributes) (old : File) :
    (Dispatcher.setattr S args req).Sat (step host req) (fun _ _ => True) True old fun resp new =>
      resp.status = .nfs4Ok → ∃ attrsset, resp.result = some (.opsetattr ⟨.nfs4Ok, attrsset⟩) ∧
        setAttr host old args.objAttributes.attrVals = some (new, attrsset) := by
  unfold Dispatcher.setattr
  cases hfh : req.filehandle with
  | none => exact nofun
  | some fh =>
    dsimp only
    split_ifs with hmask
    · refine fun _ => ⟨[], rfl, ?_⟩
      have hvals : args.objAttributes.attrVals = [] := by
        have hprefix := hdec.prefix_mask
        rw [List.isEmpty_iff.1 hmask, List.prefix_nil, List.map_eq_nil_iff] at hprefix
        exact hprefix
      rw [hvals]
      rfl
    · have hset : (req.askManager (.setAttr fh.toFilehandle args.objAttributes.attrVals)).Sat
          (step host req) (fun _ _ => True) True old fun attrsset new =>
            setAttr host old args.objAttributes.attrVals = some (new, attrsset) := by
        unfold Request.askManager Request.fileManager
        cases hmanager : req.cachedFmanager with
        | none => exact trivial
        | some e =>
          exact ⟨trivial, fun attrsset new hset => hset hmanager.symm (by rw [hfh]; rfl)⟩
      refine .bind (hset.mono fun attrsset new hnew => ?_)
      have htouch : (req.askManager (.touchFile fh.id)).AsksOnly Leaves :=
        req.askManager_asks fun _ => rfl
      refine .bind ((stays htouch).mono fun _ _ htouched => ?_)
      subst htouched
      refine .bind ((stays (req.setFilehandleId_asks (fun _ _ => trivial) (fun _ _ => rfl) _)).mono
        fun found _ hfind => ?_)
      subst hfind
      obtain ⟨req', res⟩ := found
      cases res with
      | error e => exact fun hok => absurd hok e.2
      | ok fh' =>
        have hcache : (req'.cacheFilehandle fh').AsksOnly Leaves :=
          (Prog.asksOnly_query trivial).bind fun _ => Prog.asksOnly_pure _
        refine .bind ((stays hcache).mono fun _ _ hcached => ?_)
        subst hcached
        exact fun _ => ⟨attrsset, rfl, hnew⟩

/-- **The effect of SETATTR.** A SETATTR that returns NFS4_OK has reported to be set what it was
asked to set, the file has the values that were asked for, and its content is otherwise the same,
exactly when all attributes of the request have values that can be set. A size can be set only to
zero, and only for an empty file.

**Proof sketch.** The attributes of a request are ascending, so that each has one turn, and what
only it changes is the same before its turn as at first, and after it to the end. At the turn of a
size the start of the content is put after the content, which has the new size only if both are
empty. After the turn of a mode its bits are only taken away, so that they are all there in the end
only if no call has taken one away. -/
theorem effect_iff_settable (S : Server) (host : Host) {args : SetAttr4args} {req : Request}
    {old new : File} {h : List (Σ q : Question, q.Answer)} {resp : Response}
    (hdec : Decoded args.objAttributes) (hrun : Runs (Dispatcher.setattr S args req) h (some resp))
    (hallow : Allows (step host req) old h new) (hok : resp.status = .nfs4Ok) :
    ∃ attrsset, resp.result = some (.opsetattr ⟨.nfs4Ok, attrsset⟩) ∧
      (Effect host old args.objAttributes attrsset new ↔ Settable host old args.objAttributes) := by
  obtain ⟨attrsset, hres, hset⟩ :=
    ((setattr_sat hdec old).holds_of_runs hrun hallow).2.1 resp rfl hok
  exact ⟨attrsset, hres, effect_iff hdec hset⟩

end Run

/-! ### Runs -/

/-- A request on the file of an export. -/
def sampleRequest : Request :=
  { Request.new "10.0.0.1" (some 1) 0 [] .sys with
    filehandle := some (fileHandle 1)
    currentExportId := some 1 }

/-- The arguments of a SETATTR. -/
def sampleArgs (attrs : Fattr4) : SetAttr4args := ⟨⟨0, List.Vector.replicate 12 0⟩, attrs⟩

/-- What a loop does to the file is what a SETATTR does to it. -/
lemma exists_run (attrs : Fattr4) {attrsset : List FileAttr} (hmask : attrs.attrmask ≠ [])
    (hset : setAttr host old attrs.attrVals = some (new, attrsset)) :
    ∃ (h : List (Σ q : Question, q.Answer)) (resp : Response),
      Runs (Dispatcher.setattr openServer (sampleArgs attrs) sampleRequest) h (some resp) ∧
        Allows (step host sampleRequest) old h new ∧ resp.status = .nfs4Ok ∧
        resp.result = some (.opsetattr ⟨.nfs4Ok, attrsset⟩) := by
  refine ⟨[⟨.on (some 1) (.setAttr (fileHandle 1).toFilehandle attrs.attrVals), attrsset⟩,
    ⟨.on (some 1) (.touchFile (fileId 1)), ()⟩,
    ⟨.on (some 1) (.getFilehandleForId (fileId 1)), .ok (fileHandle 1)⟩, ⟨.now, 0⟩],
    .some { sampleRequest with filehandleCache := [(fileId 1, 0, fileHandle 1)] }
      (.opsetattr ⟨.nfs4Ok, attrsset⟩) .nfs4Ok, ?_, ?_, rfl, rfl⟩
  · obtain ⟨attrmask, attrVals⟩ := attrs
    cases attrmask with
    | nil => exact absurd rfl hmask
    | cons attr attrmask => exact .ask (.ask (.ask (.ask (.pure _))))
  · exact .cons (fun _ _ => hset) (.cons (fun _ => rfl) (.cons (fun _ => rfl) (.cons rfl (.nil _))))

/-- A machine on which everything goes well. -/
def sampleHost : Host where
  names := ⟨fun _ => none, fun _ => none⟩
  allocates := fun _ => true
  opens := true
  reads := true
  appends := true
  room := 2 ^ 40
  chmods := fun _ => true
  chownsUid := fun _ => true
  chownsGid := fun _ => true
  utimes := true
  writeClears := fun _ => 0
  chownClears := fun _ => 0o6000
  chmodClears := fun _ => 0
  now := 1

/-- A file of three bytes. -/
def sampleFile : File := ⟨[97, 98, 99], 0o644, 0, 0, 0, 0⟩

/-- **The effect of SETATTR** on a mode, which can be set. -/
theorem effect_iff_settable_mode :
    ∃ attrsset, attrsset = [.mode] ∧ Effect sampleHost sampleFile ⟨[.mode], [.mode 0o600]⟩ attrsset
      { sampleFile with mode := 0o600 } := by
  have hset : setAttr sampleHost sampleFile [.mode 0o600] =
      some ({ sampleFile with mode := 0o600 }, [.mode]) := by rfl
  have hdec : Decoded (sampleArgs ⟨[.mode], [.mode 0o600]⟩).objAttributes :=
    ⟨List.pairwise_singleton _ _, List.prefix_refl _⟩
  obtain ⟨h, resp, hrun, hallow, hok, hres⟩ :=
    exists_run ⟨[.mode], [.mode 0o600]⟩ (List.cons_ne_nil _ _) hset
  obtain ⟨attrsset, hres', heffect⟩ := effect_iff_settable openServer sampleHost hdec hrun hallow hok
  rw [hres] at hres'
  cases hres'
  refine ⟨_, rfl, heffect.2 ⟨rfl, fun v hv => ?_⟩⟩
  cases List.mem_singleton.1 hv
  refine ⟨rfl, by decide, fun hchown => ?_⟩
  rcases hchown with hmem | hmem
  · cases List.mem_singleton.1 hmem
  · cases List.mem_singleton.1 hmem

/-- **SETATTR of a size that succeeds without its effect.** Cutting a file of three bytes off after
the first puts that byte after the three. -/
theorem setattr_size_appends :
    ∃ (attrs : Fattr4) (h : List (Σ q : Question, q.Answer)) (resp : Response) (new : File),
      attrs = fattr4OfRaw [0x10] [0, 0, 0, 0, 0, 0, 0, 1] ∧ attrs = ⟨[.size], [.size 1]⟩ ∧
      Runs (Dispatcher.setattr openServer (sampleArgs attrs) sampleRequest) h (some resp) ∧
      Allows (step sampleHost sampleRequest) sampleFile h new ∧
      resp.status = .nfs4Ok ∧ resp.result = some (.opsetattr ⟨.nfs4Ok, [.size]⟩) ∧
      new.content = [97, 98, 99, 97] ∧
      ∀ attrsset, ¬ Effect sampleHost sampleFile attrs attrsset new := by
  have hread : (⟨[.size], [.size 1]⟩ : Fattr4) = fattr4OfRaw [0x10] [0, 0, 0, 0, 0, 0, 0, 1] := by
    decide +kernel
  have hset : setAttr sampleHost sampleFile [.size 1] =
      some ({ sampleFile with content := [97, 98, 99, 97], mtime := 1 }, [.size]) := by rfl
  obtain ⟨h, resp, hrun, hallow, hok, hres⟩ :=
    exists_run ⟨[.size], [.size 1]⟩ (List.cons_ne_nil _ _) hset
  refine ⟨_, h, resp, _, hread, rfl, hrun, hallow, hok, hres, rfl, fun attrsset heffect => ?_⟩
  exact absurd heffect.content (by decide)

end NextNfs.SetAttr
