import Mathlib.Data.UInt
import NextNfs.Proto.Attr

set_option relaxedAutoImplicit false
set_option autoImplicit false

/-!
# What the decoder of attribute values accepts

`attrvalues_from_bytes` walks over the value bytes of a `Fattr4` along the attributes of its mask.
This module says on which bytes it reads a value for every bit of the bitmap, that it reads back
what `to_bytes` writes, and that it stays within the buffer.

## Main definitions

* `NextNfs.Sliced.attrvaluesFromBytes` — the decoder with the slices it takes, each of which panics
  out of range.
* `NextNfs.AllOrNothing` — the values are those of the set bits, and all of the value bytes.
* `NextNfs.Layout` — the bytes have the shape of a value of an attribute.

## Main results

* `NextNfs.attrvalues_round_trip_in_bounds` — the round trip, and that the decoder never panics.
* `NextNfs.allOrNothing_iff` — when the decoder reads all.

## Implementation notes

Offsets are natural numbers: they stay below the length of the buffer plus 2^33, which a 64-bit
`usize` holds.
-/

namespace NextNfs

open Wire

/-! ### The decoder with its slices -/

namespace Sliced

/-- How the reading of a value ends early: the source leaves the loop, or it panics. -/
inductive Exit
  | leave
  | panic

/-- `buf[lo..hi]`. -/
def slice (buf : Bytes) (lo hi : ℕ) : Except Exit Bytes :=
  if lo ≤ hi ∧ hi ≤ buf.length then .ok ((buf.drop lo).take (hi - lo)) else .error .panic

/-- `from_be_bytes` of `buf[off..off + k]`, after the check in front of it. -/
def wordAt (buf : Bytes) (k off : ℕ) : Except Exit ℕ :=
  if off + k > buf.length then .error .leave
  else do
    let bytes ← slice buf off (off + k)
    pure (ofBytes bytes)

/-- The loop of `read_pathname4` over the components. -/
def componentsAt (buf : Bytes) : ℕ → ℕ → Except Exit (List String × ℕ)
  | 0, off => pure ([], off)
  | n + 1, off => do
    let slen ← wordAt buf 4 off
    let off := off + 4
    let padded := (slen + 3) / 4 * 4
    if off + padded > buf.length then .error .leave
    else
      let bytes ← slice buf off (off + slen)
      let (rest, off') ← componentsAt buf n (off + padded)
      pure (Xdr.fromUtf8Lossy bytes :: rest, off')

/-- `read_pathname4`. -/
def readPathname4 (buf : Bytes) (off : ℕ) : Except Exit (List String × ℕ) := do
  let count ← wordAt buf 4 off
  componentsAt buf count (off + 4)

/-- The loop over the locations of an `fs_locations4`. -/
def locationsAt (buf : Bytes) : ℕ → ℕ → Except Exit (List FsLocation4 × ℕ)
  | 0, off => pure ([], off)
  | n + 1, off => do
    let (server, off) ← readPathname4 buf off
    let (rootpath, off) ← readPathname4 buf off
    let (rest, off) ← locationsAt buf n off
    pure (⟨server, rootpath⟩ :: rest, off)

/-- The loop over the entries of an ACL. -/
def acesAt (buf : Bytes) : ℕ → ℕ → Except Exit (List Nfsace4 × ℕ)
  | 0, off => pure ([], off)
  | n + 1, off =>
    if off + 12 > buf.length then pure ([], off)
    else do
      let acetype ← slice buf off (off + 4)
      let flag ← slice buf (off + 4) (off + 8)
      let accessMask ← slice buf (off + 8) (off + 12)
      let off := off + 12
      if off + 4 > buf.length then pure ([], off)
      else
        let whoLen := ofBytes (← slice buf off (off + 4))
        let off := off + 4
        if off + whoLen > buf.length then pure ([], off)
        else
          let who ← slice buf off (off + whoLen)
          let (rest, off') ← acesAt buf n (off + (whoLen + Codec.padding whoLen))
          pure (⟨UInt32.ofNat (ofBytes acetype), UInt32.ofNat (ofBytes flag),
            UInt32.ofNat (ofBytes accessMask), Xdr.fromUtf8Lossy who⟩ :: rest, off')

/-- A `u32` value of an attribute. -/
def u32At (buf : Bytes) (off : ℕ) (mk : UInt32 → FileAttrValue) :
    Except Exit (FileAttrValue × ℕ) := do
  let n ← wordAt buf 4 off
  pure (mk (UInt32.ofNat n), off + 4)

/-- A `u64` value of an attribute. -/
def u64At (buf : Bytes) (off : ℕ) (mk : UInt64 → FileAttrValue) :
    Except Exit (FileAttrValue × ℕ) := do
  let n ← wordAt buf 8 off
  pure (mk (UInt64.ofNat n), off + 8)

/-- A flag of an attribute. -/
def boolAt (buf : Bytes) (off : ℕ) (mk : Bool → FileAttrValue) :
    Except Exit (FileAttrValue × ℕ) := do
  let n ← wordAt buf 4 off
  pure (mk (n != 0), off + 4)

/-- A time of an attribute. -/
def timeAt (buf : Bytes) (off : ℕ) (mk : Nfstime4 → FileAttrValue) :
    Except Exit (FileAttrValue × ℕ) :=
  if off + 12 > buf.length then .error .leave
  else do
    let seconds ← slice buf off (off + 8)
    let nseconds ← slice buf (off + 8) (off + 12)
    pure (mk ⟨(UInt64.ofNat (ofBytes seconds)).toInt64, UInt32.ofNat (ofBytes nseconds)⟩, off + 12)

/-- A string of an attribute. -/
def strAt (buf : Bytes) (off : ℕ) (mk : String → FileAttrValue) :
    Except Exit (FileAttrValue × ℕ) := do
  let len ← wordAt buf 4 off
  let off := off + 4
  if off + len > buf.length then .error .leave
  else
    let bytes ← slice buf off (off + len)
    pure (mk (Xdr.fromUtf8Lossy bytes), off + (len + Codec.padding len))

/-- The arm of `attrvalues_from_bytes` for one attribute at `off`. -/
def attrvalueAt (buf : Bytes) (off : ℕ) : FileAttr → Except Exit (FileAttrValue × ℕ)
  | .type => do
    let n ← wordAt buf 4 off
    pure (.type (ftypeOfU32 n), off + 4)
  | .change => u64At buf off .change
  | .size => u64At buf off .size
  | .mode => u32At buf off .mode
  | .numlinks => u32At buf off .numlinks
  | .quotaAvailHard => u64At buf off .quotaAvailHard
  | .quotaAvailSoft => u64At buf off .quotaAvailSoft
  | .quotaUsed => u64At buf off .quotaUsed
  | .spaceAvail => u64At buf off .spaceAvail
  | .spaceFree => u64At buf off .spaceFree
  | .spaceTotal => u64At buf off .spaceTotal
  | .spaceUsed => u64At buf off .spaceUsed
  | .mountedOnFileid => u64At buf off .mountedOnFileid
  | .filesAvail => u64At buf off .filesAvail
  | .filesFree => u64At buf off .filesFree
  | .filesTotal => u64At buf off .filesTotal
  | .fsLocations => do
    let (fsRoot, off) ← readPathname4 buf off
    let count ← wordAt buf 4 off
    let (locations, off) ← locationsAt buf count (off + 4)
    pure (.fsLocations ⟨fsRoot, locations⟩, off)
  | .caseInsensitive => boolAt buf off .caseInsensitive
  | .casePreserving => boolAt buf off .casePreserving
  | .timeCreate => timeAt buf off .timeCreate
  | .timeDelta => timeAt buf off .timeDelta
  | .timeAccess => timeAt buf off .timeAccess
  | .timeModify => timeAt buf off .timeModify
  | .timeMetadata => timeAt buf off .timeMetadata
  | .owner => strAt buf off .owner
  | .ownerGroup => strAt buf off .ownerGroup
  | .acl => do
    let count ← wordAt buf 4 off
    let (aces, off) ← acesAt buf count (off + 4)
    pure (.acl aces, off)
  | _ => .error .leave

/-- `FattrRaw::attrvalues_from_bytes`, from offset `off`; `none` if it panics. -/
def attrvaluesFromBytes (buf : Bytes) : List FileAttr → ℕ → Option (List FileAttrValue)
  | [], _ => some []
  | attr :: attrs, off =>
    if off > buf.length then some []
    else
      match attrvalueAt buf off attr with
      | .error .leave => some []
      | .error .panic => none
      | .ok (v, off') => (attrvaluesFromBytes buf attrs off').map (v :: ·)

/-- Leaving the loop where there is nothing to read. -/
def orLeave {α : Type} : Option α → Except Exit α
  | some a => .ok a
  | none => .error .leave

lemma orLeave_bind {α β : Type} (o : Option α) (f : α → Option β) :
    orLeave (o >>= f) = orLeave o >>= fun a => orLeave (f a) := by
  cases o <;> rfl

lemma orLeave_map {α β : Type} (o : Option α) (f : α → β) :
    orLeave (o.map f) = orLeave o >>= fun a => pure (f a) := by
  cases o <;> rfl

/-- A slice within the buffer. -/
lemma slice_eq {buf : Bytes} {lo n : ℕ} (h : lo + n ≤ buf.length) :
    slice buf lo (lo + n) = .ok ((buf.drop lo).take n) := by
  rw [slice, if_pos ⟨Nat.le_add_right _ _, h⟩, Nat.add_sub_cancel_left]

lemma wordAt_eq (buf : Bytes) (k off : ℕ) : wordAt buf k off = orLeave (NextNfs.wordAt buf k off) := by
  unfold wordAt NextNfs.wordAt
  split_ifs with h
  · rfl
  · rw [slice_eq (by omega)]
    rfl

lemma componentsAt_eq (buf : Bytes) (n off : ℕ) :
    componentsAt buf n off = orLeave (NextNfs.componentsAt buf n off) := by
  induction n generalizing off with
  | zero => rfl
  | succ n ih =>
    rw [componentsAt, NextNfs.componentsAt, orLeave_bind, wordAt_eq]
    refine bind_congr fun slen => ?_
    simp only
    split_ifs with h
    · rfl
    · have hle : slen ≤ (slen + 3) / 4 * 4 := by omega
      rw [slice_eq (by omega), ih, orLeave_bind]
      rfl

lemma readPathname4_eq (buf : Bytes) (off : ℕ) :
    readPathname4 buf off = orLeave (NextNfs.readPathname4 buf off) := by
  rw [readPathname4, NextNfs.readPathname4, orLeave_bind, wordAt_eq]
  exact bind_congr fun count => componentsAt_eq buf count _

lemma locationsAt_eq (buf : Bytes) (n off : ℕ) :
    locationsAt buf n off = orLeave (NextNfs.locationsAt buf n off) := by
  induction n generalizing off with
  | zero => rfl
  | succ n ih =>
    rw [locationsAt, NextNfs.locationsAt, orLeave_bind, readPathname4_eq]
    refine bind_congr fun p => ?_
    obtain ⟨server, off⟩ := p
    simp only
    rw [orLeave_bind, readPathname4_eq]
    refine bind_congr fun p => ?_
    obtain ⟨rootpath, off⟩ := p
    simp only
    rw [orLeave_bind, ih]
    rfl

/-- The inner loop never panics. -/
lemma acesAt_eq (buf : Bytes) (n off : ℕ) :
    acesAt buf n off = .ok (NextNfs.acesAt buf n off) := by
  induction n generalizing off with
  | zero => rfl
  | succ n ih =>
    have hword : ∀ i, off + i + 4 ≤ buf.length → NextNfs.wordAt buf 4 (off + i) =
        some (ofBytes ((buf.drop (off + i)).take 4)) := fun i hi => by
      rw [NextNfs.wordAt, if_neg (by omega)]
    unfold acesAt NextNfs.acesAt
    split_ifs with hentry
    · have hnone : NextNfs.wordAt buf 4 (off + 8) = none := by
        rw [NextNfs.wordAt, if_pos (by omega)]
      rw [hnone]
      cases NextNfs.wordAt buf 4 off <;> cases NextNfs.wordAt buf 4 (off + 4) <;> rfl
    · rw [slice_eq (by omega), show off + 8 = off + 4 + 4 from rfl, slice_eq (by omega),
        show off + 12 = off + 8 + 4 from rfl, show off + 4 + 4 = off + 8 from rfl,
        slice_eq (by omega), show NextNfs.wordAt buf 4 off = _ from hword 0 (by omega),
        hword 4 (by omega), hword 8 (by omega)]
      show (if off + 12 + 4 > buf.length then _ else _) = _
      split_ifs with hlen
      · have hnone : NextNfs.wordAt buf 4 (off + 8 + 4) = none := by
          rw [NextNfs.wordAt, if_pos (by omega)]
        rw [hnone]
        rfl
      · rw [slice_eq (by omega), show off + 8 + 4 = off + 12 from rfl, hword 12 (by omega)]
        simp only
        show (if off + 12 + 4 + ofBytes ((buf.drop (off + 12)).take 4) > buf.length then _ else _) = _
        split_ifs with hwho
        · rfl
        · rw [slice_eq (by omega)]
          show (acesAt buf n _ >>= _) = _
          rw [ih]
          rfl

lemma timeAt_eq (buf : Bytes) (off : ℕ) (mk : Nfstime4 → FileAttrValue) :
    timeAt buf off mk = orLeave (NextNfs.timeAt buf off mk) := by
  unfold timeAt NextNfs.timeAt
  split_ifs with h
  · rfl
  · rw [slice_eq (by omega), show off + 12 = off + 8 + 4 from rfl, slice_eq (by omega),
      NextNfs.wordAt, if_neg (by omega), NextNfs.wordAt, if_neg (by omega)]
    rfl

lemma strAt_eq (buf : Bytes) (off : ℕ) (mk : String → FileAttrValue) :
    strAt buf off mk = orLeave (NextNfs.strAt buf off mk) := by
  rw [strAt, NextNfs.strAt, orLeave_bind, wordAt_eq]
  refine bind_congr fun len => ?_
  simp only
  split_ifs with h
  · rfl
  · rw [slice_eq (by omega)]
    rfl

/-- No arm panics. -/
lemma attrvalueAt_eq (buf : Bytes) (off : ℕ) (attr : FileAttr) :
    attrvalueAt buf off attr = orLeave (NextNfs.attrvalueAt buf off attr) := by
  cases attr with
  | type => rw [attrvalueAt, NextNfs.attrvalueAt, orLeave_map, wordAt_eq]
  | mode | numlinks =>
    rw [attrvalueAt, NextNfs.attrvalueAt, u32At, NextNfs.u32At, orLeave_map, wordAt_eq]
  | change | size | quotaAvailHard | quotaAvailSoft | quotaUsed | spaceAvail | spaceFree
  | spaceTotal | spaceUsed | mountedOnFileid | filesAvail | filesFree | filesTotal =>
    rw [attrvalueAt, NextNfs.attrvalueAt, u64At, NextNfs.u64At, orLeave_map, wordAt_eq]
  | caseInsensitive | casePreserving =>
    rw [attrvalueAt, NextNfs.attrvalueAt, boolAt, NextNfs.boolAt, orLeave_map, wordAt_eq]
  | timeCreate | timeDelta | timeAccess | timeModify | timeMetadata => exact timeAt_eq buf off _
  | owner | ownerGroup => exact strAt_eq buf off _
  | fsLocations =>
    rw [attrvalueAt, NextNfs.attrvalueAt, orLeave_bind, readPathname4_eq]
    refine bind_congr fun p => ?_
    obtain ⟨root, off⟩ := p
    simp only
    rw [orLeave_bind, wordAt_eq]
    refine bind_congr fun count => ?_
    rw [orLeave_bind, locationsAt_eq]
    rfl
  | acl =>
    rw [attrvalueAt, NextNfs.attrvalueAt, orLeave_map, wordAt_eq]
    refine bind_congr fun count => ?_
    rw [acesAt_eq]
    rfl
  | _ => rfl

/-- The decoder never panics. -/
lemma attrvaluesFromBytes_eq (buf : Bytes) (attrs : List FileAttr) (off : ℕ) :
    attrvaluesFromBytes buf attrs off = some (NextNfs.attrvaluesFromBytes buf attrs off) := by
  induction attrs generalizing off with
  | nil => rfl
  | cons attr attrs ih =>
    rw [attrvaluesFromBytes, NextNfs.attrvaluesFromBytes, attrvalueAt_eq]
    split_ifs with h
    · rfl
    · cases NextNfs.attrvalueAt buf off attr with
      | none => rfl
      | some r =>
        simp only [orLeave]
        rw [ih]
        rfl

end Sliced

/-- **The attribute value round trip.** Values whose counts and lengths fit a word are read back
from what `to_bytes` writes of them; and whatever the bytes and the attributes are, the decoder
comes to an end without a slice out of range.

**Proof sketch.** Every value is written as bytes that `Encodes` it, and each arm reads the value
off bytes that do. For the second part, every slice follows a check of its end. -/
theorem attrvalues_round_trip_in_bounds :
    (∀ (attrs : List FileAttr) (vals : List FileAttrValue),
      (∀ attr ∈ attrs, attr.decodable = true) → vals.map FileAttrValue.attr = attrs →
        (∀ v ∈ vals, v.Fits) →
          Sliced.attrvaluesFromBytes (attrvaluesToBytes vals) attrs 0 = some vals) ∧
      ∀ (buf : Bytes) (attrs : List FileAttr),
        ∃ vals, Sliced.attrvaluesFromBytes buf attrs 0 = some vals := by
  refine ⟨?_, fun buf attrs => ⟨_, Sliced.attrvaluesFromBytes_eq buf attrs 0⟩⟩
  rintro _ vals hdec rfl hfits
  have hdec' : ∀ v ∈ vals, v.attr.decodable = true := fun v hv =>
    hdec v.attr (List.mem_map_of_mem hv)
  rw [Sliced.attrvaluesFromBytes_eq, attrvaluesFromBytes_toBytes fun v hv _ => hfits v hv,
    List.takeWhile_eq_self_iff.2 hdec']

/-- An owner and a mode. -/
theorem attrvalues_round_trip_owner_mode :
    Sliced.attrvaluesFromBytes (attrvaluesToBytes [.mode 420, .owner "ab"]) [.mode, .owner] 0 =
      some [.mode 420, .owner "ab"] :=
  attrvalues_round_trip_in_bounds.1 [.mode, .owner] [.mode 420, .owner "ab"] (by decide) rfl
    (by
      simp only [List.mem_cons, List.not_mem_nil, or_false, forall_eq_or_imp, forall_eq,
        FileAttrValue.Fits, StrFits, true_and]
      decide)

/-! ### The shapes of values -/

/-- The shape of a string: a length, as many bytes, and up to three more. -/
def StrLayout (bs : Bytes) : Prop :=
  ∃ len rest, bs = len ++ rest ∧ len.length = 4 ∧
    rest.length = ofBytes len + Codec.padding (ofBytes len)

/-- The shape of an array: a number, and as many elements. -/
def ArrayLayout (ElemLayout : Bytes → Prop) (bs : Bytes) : Prop :=
  ∃ (count : Bytes) (elems : List Bytes), bs = count ++ elems.flatten ∧ count.length = 4 ∧
    elems.length = ofBytes count ∧ ∀ e ∈ elems, ElemLayout e

/-- The shape of an access control entry: three words and a string. -/
def AceLayout (bs : Bytes) : Prop :=
  ∃ words who, bs = words ++ who ∧ words.length = 12 ∧ StrLayout who

/-- The shape of an `fs_location4`: two paths. -/
def LocationLayout (bs : Bytes) : Prop :=
  ∃ server rootpath, bs = server ++ rootpath ∧ ArrayLayout StrLayout server ∧
    ArrayLayout StrLayout rootpath

/-- The shape of a value of an attribute. The attributes without an arm have none. -/
def Layout : FileAttr → Bytes → Prop
  | .type, bs | .mode, bs | .numlinks, bs | .caseInsensitive, bs | .casePreserving, bs =>
    bs.length = 4
  | .change, bs | .size, bs | .quotaAvailHard, bs | .quotaAvailSoft, bs | .quotaUsed, bs
  | .spaceAvail, bs | .spaceFree, bs | .spaceTotal, bs | .spaceUsed, bs | .mountedOnFileid, bs
  | .filesAvail, bs | .filesFree, bs | .filesTotal, bs => bs.length = 8
  | .timeCreate, bs | .timeDelta, bs | .timeAccess, bs | .timeModify, bs | .timeMetadata, bs =>
    bs.length = 12
  | .owner, bs | .ownerGroup, bs => StrLayout bs
  | .acl, bs => ArrayLayout AceLayout bs
  | .fsLocations, bs => ∃ fsRoot locations, bs = fsRoot ++ locations ∧
      ArrayLayout StrLayout fsRoot ∧ ArrayLayout LocationLayout locations
  | _, _ => False

lemma strLayout_iff (bs : Bytes) : StrLayout bs ↔ ∃ s, IsStr s bs := by
  constructor
  · rintro ⟨len, rest, rfl, hlen, hrest⟩
    have hraw : (rest.take (ofBytes len)).length = ofBytes len := by
      rw [List.length_take, hrest, Nat.min_eq_left (Nat.le_add_right _ _)]
    refine ⟨_, len, rest.take (ofBytes len), rest.drop (ofBytes len), ?_, ⟨hlen, hraw.symm⟩, ?_, rfl⟩
    · rw [List.take_append_drop]
    · rw [List.length_drop, hrest, hraw, Nat.add_sub_cancel_left]
  · rintro ⟨s, len, raw, pad, rfl, ⟨hlen, hraw⟩, hpad, -⟩
    exact ⟨len, raw ++ pad, rfl, hlen, by rw [List.length_append, hpad, hraw]⟩

lemma exists_forall₂ {α β : Type} {R : α → β → Prop} {bs : List β} (h : ∀ b ∈ bs, ∃ a, R a b) :
    ∃ l, List.Forall₂ R l bs := by
  induction bs with
  | nil => exact ⟨[], .nil⟩
  | cons b bs ih =>
    obtain ⟨a, ha⟩ := h b List.mem_cons_self
    obtain ⟨l, hl⟩ := ih fun b' hb' => h b' (List.mem_cons_of_mem _ hb')
    exact ⟨a :: l, .cons ha hl⟩

/-- Bytes have the shape of an array exactly when they stand for one. -/
lemma arrayLayout_iff {α : Type} {IsElem : α → Bytes → Prop} {ElemLayout : Bytes → Prop}
    (h : ∀ bs, ElemLayout bs ↔ ∃ a, IsElem a bs) (bs : Bytes) :
    ArrayLayout ElemLayout bs ↔ ∃ l, IsArray IsElem l bs := by
  constructor
  · rintro ⟨count, elems, rfl, hcount, hlen, helems⟩
    obtain ⟨l, hl⟩ := exists_forall₂ fun e he => (h e).1 (helems e he)
    exact ⟨l, count, elems, rfl, ⟨hcount, by rw [hl.length_eq, hlen]⟩, hl⟩
  · rintro ⟨l, count, elems, rfl, ⟨hcount, hnum⟩, hl⟩
    refine ⟨count, elems, rfl, hcount, by rw [← hl.length_eq, hnum], fun e he => ?_⟩
    obtain ⟨i, hi, rfl⟩ := List.getElem_of_mem he
    exact (h _).2 ⟨_, (List.forall₂_iff_get.1 hl).2 i (by rw [hl.length_eq]; exact hi) hi⟩

lemma isWord_uint32 {bs : Bytes} (h : bs.length = 4) :
    IsWord 4 (UInt32.ofNat (ofBytes bs)).toNat bs :=
  ⟨h, (UInt32.toNat_ofNat_of_lt (by have := ofBytes_lt bs; rw [h] at this; exact this)).symm⟩

lemma isWord_uint64 {bs : Bytes} (h : bs.length = 8) :
    IsWord 8 (UInt64.ofNat (ofBytes bs)).toNat bs :=
  ⟨h, (UInt64.toNat_ofNat_of_lt (by have := ofBytes_lt bs; rw [h] at this; exact this)).symm⟩

lemma exists_isTime_iff (bs : Bytes) : bs.length = 12 ↔ ∃ t, IsTime t bs := by
  constructor
  · intro h
    have h8 : (bs.take 8).length = 8 := by rw [List.length_take, h]; rfl
    have h4 : (bs.drop 8).length = 4 := by rw [List.length_drop, h]
    refine ⟨⟨(UInt64.ofNat (ofBytes (bs.take 8))).toInt64, UInt32.ofNat (ofBytes (bs.drop 8))⟩,
      bs.take 8, bs.drop 8, (List.take_append_drop 8 bs).symm, ?_, isWord_uint32 h4⟩
    rw [UInt64.toUInt64_toInt64]
    exact isWord_uint64 h8
  · rintro ⟨t, seconds, nseconds, rfl, hs, hn⟩
    rw [List.length_append, hs.1, hn.1]

lemma aceLayout_iff (bs : Bytes) : AceLayout bs ↔ ∃ ace, IsAce ace bs := by
  constructor
  · rintro ⟨words, who, rfl, hwords, hwho⟩
    obtain ⟨s, hs⟩ := (strLayout_iff who).1 hwho
    have h0 : (words.take 4).length = 4 := by rw [List.length_take, hwords]; rfl
    have h4 : ((words.drop 4).take 4).length = 4 := by
      rw [List.length_take, List.length_drop, hwords]; rfl
    have h8 : (words.drop 8).length = 4 := by rw [List.length_drop, hwords]
    refine ⟨⟨UInt32.ofNat (ofBytes (words.take 4)), UInt32.ofNat (ofBytes ((words.drop 4).take 4)),
      UInt32.ofNat (ofBytes (words.drop 8)), s⟩, _, _, _, who, ?_, isWord_uint32 h0,
      isWord_uint32 h4, isWord_uint32 h8, hs⟩
    rw [← List.append_assoc, ← List.append_assoc]
    congr 1
    rw [List.append_assoc, show words.drop 8 = (words.drop 4).drop 4 by rw [List.drop_drop],
      List.take_append_drop, List.take_append_drop]
  · rintro ⟨ace, acetype, flag, accessMask, who, rfl, ht, hf, hm, hw⟩
    refine ⟨acetype ++ (flag ++ accessMask), who, by simp only [List.append_assoc], ?_,
      (strLayout_iff who).2 ⟨_, hw⟩⟩
    rw [List.length_append, List.length_append, ht.1, hf.1, hm.1]

lemma locationLayout_iff (bs : Bytes) : LocationLayout bs ↔ ∃ loc, IsLocation loc bs := by
  simp only [LocationLayout, IsLocation, arrayLayout_iff strLayout_iff]
  constructor
  · rintro ⟨server, rootpath, hbs, ⟨s, hs⟩, r, hr⟩
    exact ⟨⟨s, r⟩, server, rootpath, hbs, hs, hr⟩
  · rintro ⟨⟨s, r⟩, server, rootpath, hbs, hs, hr⟩
    exact ⟨server, rootpath, hbs, ⟨s, hs⟩, r, hr⟩

/-- Bytes have the shape of a value of an attribute exactly when they stand for one. -/
lemma layout_iff (attr : FileAttr) (bs : Bytes) :
    Layout attr bs ↔ ∃ v : FileAttrValue, v.attr = attr ∧ Encodes v bs := by
  constructor
  · intro h
    cases attr with
    | type => exact ⟨.type _, rfl, _, ⟨h, rfl⟩, rfl⟩
    | caseInsensitive => exact ⟨.caseInsensitive _, rfl, _, ⟨h, rfl⟩, rfl⟩
    | casePreserving => exact ⟨.casePreserving _, rfl, _, ⟨h, rfl⟩, rfl⟩
    | mode => exact ⟨.mode _, rfl, isWord_uint32 h⟩
    | numlinks => exact ⟨.numlinks _, rfl, isWord_uint32 h⟩
    | change => exact ⟨.change _, rfl, isWord_uint64 h⟩
    | size => exact ⟨.size _, rfl, isWord_uint64 h⟩
    | quotaAvailHard => exact ⟨.quotaAvailHard _, rfl, isWord_uint64 h⟩
    | quotaAvailSoft => exact ⟨.quotaAvailSoft _, rfl, isWord_uint64 h⟩
    | quotaUsed => exact ⟨.quotaUsed _, rfl, isWord_uint64 h⟩
    | spaceAvail => exact ⟨.spaceAvail _, rfl, isWord_uint64 h⟩
    | spaceFree => exact ⟨.spaceFree _, rfl, isWord_uint64 h⟩
    | spaceTotal => exact ⟨.spaceTotal _, rfl, isWord_uint64 h⟩
    | spaceUsed => exact ⟨.spaceUsed _, rfl, isWord_uint64 h⟩
    | mountedOnFileid => exact ⟨.mountedOnFileid _, rfl, isWord_uint64 h⟩
    | filesAvail => exact ⟨.filesAvail _, rfl, isWord_uint64 h⟩
    | filesFree => exact ⟨.filesFree _, rfl, isWord_uint64 h⟩
    | filesTotal => exact ⟨.filesTotal _, rfl, isWord_uint64 h⟩
    | timeCreate => exact (exists_isTime_iff bs).1 h |>.imp' .timeCreate fun _ ht => ⟨rfl, ht⟩
    | timeDelta => exact (exists_isTime_iff bs).1 h |>.imp' .timeDelta fun _ ht => ⟨rfl, ht⟩
    | timeAccess => exact (exists_isTime_iff bs).1 h |>.imp' .timeAccess fun _ ht => ⟨rfl, ht⟩
    | timeModify => exact (exists_isTime_iff bs).1 h |>.imp' .timeModify fun _ ht => ⟨rfl, ht⟩
    | timeMetadata => exact (exists_isTime_iff bs).1 h |>.imp' .timeMetadata fun _ ht => ⟨rfl, ht⟩
    | owner => exact (strLayout_iff bs).1 h |>.imp' .owner fun _ hs => ⟨rfl, hs⟩
    | ownerGroup => exact (strLayout_iff bs).1 h |>.imp' .ownerGroup fun _ hs => ⟨rfl, hs⟩
    | acl => exact (arrayLayout_iff aceLayout_iff bs).1 h |>.imp' .acl fun _ ha => ⟨rfl, ha⟩
    | fsLocations =>
      obtain ⟨fsRoot, locations, hbs, hroot, hlocs⟩ := h
      obtain ⟨r, hr⟩ := (arrayLayout_iff strLayout_iff _).1 hroot
      obtain ⟨l, hl⟩ := (arrayLayout_iff locationLayout_iff _).1 hlocs
      exact ⟨.fsLocations ⟨r, l⟩, rfl, fsRoot, locations, hbs, hr, hl⟩
    | _ => exact h.elim
  · rintro ⟨v, rfl, h⟩
    cases v with
    | type v | caseInsensitive v | casePreserving v =>
      obtain ⟨n, hn, -⟩ := h
      exact hn.1
    | mode v | numlinks v => exact h.1
    | change v | size v | quotaAvailHard v | quotaAvailSoft v | quotaUsed v | spaceAvail v
    | spaceFree v | spaceTotal v | spaceUsed v | mountedOnFileid v | filesAvail v | filesFree v
    | filesTotal v => exact h.1
    | timeCreate v | timeDelta v | timeAccess v | timeModify v | timeMetadata v =>
      exact (exists_isTime_iff bs).2 ⟨v, h⟩
    | owner v | ownerGroup v => exact (strLayout_iff bs).2 ⟨v, h⟩
    | acl v => exact (arrayLayout_iff aceLayout_iff bs).2 ⟨v, h⟩
    | fsLocations v =>
      obtain ⟨fsRoot, locations, hbs, hroot, hlocs⟩ := h
      exact ⟨fsRoot, locations, hbs, (arrayLayout_iff strLayout_iff _).2 ⟨_, hroot⟩,
        (arrayLayout_iff locationLayout_iff _).2 ⟨_, hlocs⟩⟩
    | _ => exact h.elim

/-! ### The attributes of the values -/

lemma exists_of_timeAt {buf : Bytes} {off off' : ℕ} {v : FileAttrValue}
    {mk : Nfstime4 → FileAttrValue} (h : timeAt buf off mk = some (v, off')) : ∃ t, v = mk t := by
  unfold timeAt at h
  split_ifs at h
  simp only [Option.bind_eq_bind, Option.bind_eq_some_iff] at h
  obtain ⟨seconds, -, nseconds, -, h⟩ := h
  cases h
  exact ⟨_, rfl⟩

lemma exists_of_strAt {buf : Bytes} {off off' : ℕ} {v : FileAttrValue}
    {mk : String → FileAttrValue} (h : strAt buf off mk = some (v, off')) : ∃ s, v = mk s := by
  simp only [strAt, Option.bind_eq_bind, Option.bind_eq_some_iff] at h
  obtain ⟨len, -, h⟩ := h
  split_ifs at h
  cases h
  exact ⟨_, rfl⟩

/-- The value that is read for an attribute is one of it. -/
lemma attr_of_attrvalueAt {buf : Bytes} {off off' : ℕ} {attr : FileAttr} {v : FileAttrValue}
    (h : attrvalueAt buf off attr = some (v, off')) : v.attr = attr := by
  cases attr with
  | type | mode | numlinks | caseInsensitive | casePreserving | change | size | quotaAvailHard
  | quotaAvailSoft | quotaUsed | spaceAvail | spaceFree | spaceTotal | spaceUsed | mountedOnFileid
  | filesAvail | filesFree | filesTotal | acl =>
    obtain ⟨n, -, hn⟩ := Option.map_eq_some_iff.1 h
    cases hn
    rfl
  | timeCreate | timeDelta | timeAccess | timeModify | timeMetadata =>
    obtain ⟨t, rfl⟩ := exists_of_timeAt h
    rfl
  | owner | ownerGroup =>
    obtain ⟨s, rfl⟩ := exists_of_strAt h
    rfl
  | fsLocations =>
    simp only [attrvalueAt, Option.bind_eq_bind, Option.bind_eq_some_iff] at h
    obtain ⟨x, -, count, -, y, -, h⟩ := h
    cases h
    rfl
  | _ => cases h

/-- The values that are read are those of the first attributes of the mask. -/
lemma attrvaluesFromBytes_prefix (buf : Bytes) (attrs : List FileAttr) (off : ℕ) :
    (attrvaluesFromBytes buf attrs off).map FileAttrValue.attr <+: attrs := by
  induction attrs generalizing off with
  | nil => exact List.prefix_refl _
  | cons attr attrs ih =>
    unfold attrvaluesFromBytes
    split_ifs
    · exact List.nil_prefix
    · cases hv : attrvalueAt buf off attr with
      | none => exact List.nil_prefix
      | some x =>
        obtain ⟨v, off'⟩ := x
        rw [← attr_of_attrvalueAt hv]
        exact (List.prefix_cons_inj _).2 (ih off')

/-! ### All or nothing -/

/-- The numbers of the bits that are set in a bitmap. -/
def setBits (raw : List UInt32) : List ℕ :=
  raw.zipIdx.flatMap fun p =>
    ((List.range 32).filter fun n => p.1.toNat.testBit n).map fun n => p.2 * 32 + n

/-- The mask has an attribute for every bit that is set, the values are those of the mask, in its
order, and the value bytes stand for them and nothing else. -/
structure AllOrNothing (raw : List UInt32) (buf : Bytes) (f : Fattr4) : Prop where
  mask : f.attrmask.map FileAttr.toU32 = setBits raw
  vals : f.attrVals.map FileAttrValue.attr = f.attrmask
  bytes : ∃ elems, List.Forall₂ Encodes f.attrVals elems ∧ buf = elems.flatten

/-- `from_u32` reads the attributes off the bits that are set. -/
lemma fileAttrsFromU32_eq_filterMap (raw : List UInt32) :
    fileAttrsFromU32 raw = (setBits raw).filterMap fun n => FileAttr.fromU32 (n % 2 ^ 32) := by
  rw [fileAttrsFromU32, setBits, List.filterMap_flatMap]
  refine List.flatMap_congr fun p _ => ?_
  rw [segmentAttrs, List.filterMap_map, List.filterMap_filter]
  rfl

/-- Bits that are all numbers of attributes are read as these. -/
lemma fileAttrsFromU32_eq {raw : List UInt32} {attrs : List FileAttr}
    (h : attrs.map FileAttr.toU32 = setBits raw) : fileAttrsFromU32 raw = attrs := by
  have hself : ∀ a ∈ attrs, ((fun n => FileAttr.fromU32 (n % 2 ^ 32)) ∘ FileAttr.toU32) a =
      some a := fun a _ => by
    have hlt := a.toU32_lt
    rw [Function.comp_apply, Nat.mod_eq_of_lt (by omega), FileAttr.fromU32_toU32]
  rw [fileAttrsFromU32_eq_filterMap, ← h, List.filterMap_map, List.filterMap_congr hself,
    List.filterMap_some]

/-- Where a bit of a bitmap stands. -/
lemma mem_setBits {raw : List UInt32} {n : ℕ} (h : n ∈ setBits raw) :
    ∃ p ∈ raw.zipIdx, p.2 * 32 ≤ n ∧ n < (p.2 + 1) * 32 := by
  obtain ⟨p, hp, hn⟩ := List.mem_flatMap.1 h
  obtain ⟨bit, hbit, rfl⟩ := List.mem_map.1 hn
  have hlt := List.mem_range.1 (List.mem_filter.1 hbit).1
  exact ⟨p, hp, by omega, by omega⟩

/-- The bits are numbered in ascending order. -/
lemma pairwise_setBits (raw : List UInt32) : (setBits raw).Pairwise (· < ·) := by
  have hidx : raw.zipIdx.Pairwise fun p q => p.2 < q.2 := by
    have hrange : (raw.zipIdx.map Prod.snd).Pairwise (· < ·) := by
      rw [List.zipIdx_map_snd]
      exact List.pairwise_lt_range'
    exact List.pairwise_map.1 hrange
  rw [setBits, List.pairwise_flatMap]
  refine ⟨fun p _ => ?_, hidx.imp ?_⟩
  · rw [List.pairwise_map]
    refine (List.Pairwise.filter _ List.pairwise_lt_range).imp ?_
    intro m n hlt
    exact Nat.add_lt_add_left hlt _
  · intro p q hlt m hm n hn
    obtain ⟨i, hi, rfl⟩ := List.mem_map.1 hm
    obtain ⟨j, -, rfl⟩ := List.mem_map.1 hn
    have hsmall := List.mem_range.1 (List.mem_filter.1 hi).1
    omega

/-- The attributes read off a bitmap are ascending, if their numbers do not wrap around. -/
lemma ascending_fileAttrsFromU32 {raw : List UInt32} (h : raw.length ≤ 2 ^ 27) :
    Ascending (fileAttrsFromU32 raw) := by
  have hnum : ∀ {n : ℕ} {a : FileAttr}, n ∈ setBits raw → FileAttr.fromU32 (n % 2 ^ 32) = some a →
      a.toU32 = n := by
    intro n a hn ha
    obtain ⟨p, hp, -, hlt⟩ := mem_setBits hn
    have hidx : p.2 < raw.length := by
      have hlt := List.snd_lt_of_mem_zipIdx hp
      omega
    rw [Nat.mod_eq_of_lt (by omega)] at ha
    exact FileAttr.toU32_of_fromU32 ha
  rw [Ascending, fileAttrsFromU32_eq_filterMap, List.pairwise_filterMap]
  refine (pairwise_setBits raw).imp_of_mem ?_
  intro m n hm hn hlt a ha b hb
  rw [hnum hm ha, hnum hn hb]
  exact hlt

/-- Bytes that have the shapes of values stand for values. -/
lemma exists_encodes {attrs : List FileAttr} {elems : List Bytes}
    (h : List.Forall₂ Layout attrs elems) :
    ∃ vals : List FileAttrValue, vals.map FileAttrValue.attr = attrs ∧
      List.Forall₂ Encodes vals elems := by
  induction h with
  | nil => exact ⟨[], rfl, .nil⟩
  | cons hattr _ ih =>
    obtain ⟨v, rfl, hv⟩ := (layout_iff _ _).1 hattr
    obtain ⟨vals, rfl, hvals⟩ := ih
    exact ⟨v :: vals, rfl, .cons hv hvals⟩

/-- **All or nothing.** A `Fattr4` is read in full exactly when every bit of its bitmap is the
number of an attribute the decoder has an arm for, and the value bytes are one after the other, in
the order of the bits, of the shapes of values of these attributes.

**Proof sketch.** Bytes of the shape of a value are read as the value they stand for, and the next
value is read where they end. Conversely bytes that stand for values have their shapes. -/
theorem allOrNothing_iff (raw : List UInt32) (buf : Bytes) :
    AllOrNothing raw buf (fattr4OfRaw raw buf) ↔
      ∃ (attrs : List FileAttr) (elems : List Bytes), attrs.map FileAttr.toU32 = setBits raw ∧
        List.Forall₂ Layout attrs elems ∧ buf = elems.flatten := by
  constructor
  · rintro ⟨hmask, hvals, elems, henc, hbuf⟩
    refine ⟨_, elems, hmask, ?_, hbuf⟩
    rw [← hvals, List.forall₂_map_left_iff]
    exact henc.imp fun v bs hv => (layout_iff v.attr bs).2 ⟨v, rfl, hv⟩
  · rintro ⟨attrs, elems, hmask, hlayout, rfl⟩
    obtain ⟨vals, rfl, henc⟩ := exists_encodes hlayout
    have hread := attrvaluesFromBytes_eq henc (.start _) [] nofun
    rw [List.append_nil] at hread
    rw [fattr4OfRaw, fileAttrsFromU32_eq hmask, hread]
    exact ⟨hmask, rfl, elems, henc, rfl⟩

/-- An ACL of one entry of which no byte is there is read as an ACL without entries. -/
theorem short_acl_accepted :
    (fattr4OfRaw [2 ^ 12] [0, 0, 0, 1]).attrVals = [.acl []] ∧
      ¬ AllOrNothing [2 ^ 12] [0, 0, 0, 1] (fattr4OfRaw [2 ^ 12] [0, 0, 0, 1]) := by
  have hvals : (fattr4OfRaw [2 ^ 12] [0, 0, 0, 1]).attrVals = [.acl []] := by decide
  refine ⟨hvals, fun h => ?_⟩
  obtain ⟨elems, henc, hbuf⟩ := h.bytes
  rw [hvals] at henc
  obtain ⟨e, rest, ⟨count, entries, rfl, hcount, hentries⟩, hrest, rfl⟩ :=
    List.forall₂_cons_left_iff.1 henc
  rw [List.forall₂_nil_left_iff] at hentries hrest
  subst hentries hrest
  simp only [List.flatten_cons, List.flatten_nil, List.append_nil] at hbuf
  rw [← hbuf] at hcount
  exact absurd hcount.2 (by decide)

end NextNfs
