import NextNfs.Proto.Xdr

set_option relaxedAutoImplicit false
set_option autoImplicit false

/-!
# XDR over the serde data model

`proto/src/xdr.rs` is written once for all types: a type hands its value to the serializer through
the calls of the serde data model, and the derived code of a type is determined by its shape. This
module models these shapes, the serializer and the deserializer on them.

## Main definitions

* `NextNfs.Serde.Shape`, `NextNfs.Serde.Shape.Val` — the shapes of types, and their values.
* `NextNfs.Serde.Shape.serialize`, `NextNfs.Serde.Shape.deserialize` — the two directions.
* `NextNfs.Serde.Shape.Fits` — all lengths in a value fit a word.
* `NextNfs.Serde.Shape.marks` — which bytes of the encoding of a value are padding.

## Main results

* `NextNfs.Serde.xdr_round_trip` — reading undoes writing, and writing undoes reading up to the
  content of padding.

## Implementation notes

Names of structs, fields and variants do not reach the wire; only the name of an enum is kept, for
the error text. A tuple struct has the calls of a tuple. Characters, floating point numbers and
maps are left out; 128-bit integers have no form in this serializer.
-/

namespace NextNfs.Serde

open Wire Xdr

/-! ### Shapes and their values -/

/-- The types that are handed over in one call. -/
inductive Scalar
  | bool
  | i8
  | i16
  | i32
  | i64
  | u8
  | u16
  | u32
  | u64
  | string
  /-- `serde_bytes`: opaque data. -/
  | bytes
  /-- `opaque_data::fixed_length`. -/
  | fixedLength (n : ℕ)

/-- The values of a scalar type. -/
def Scalar.Val : Scalar → Type
  | .bool => Bool
  | .i8 => Int8
  | .i16 => Int16
  | .i32 => Int32
  | .i64 => Int64
  | .u8 => UInt8
  | .u16 => UInt16
  | .u32 => UInt32
  | .u64 => UInt64
  | .string => String
  | .bytes => Bytes
  | .fixedLength n => List.Vector UInt8 n

mutual

/-- The shape of a type. -/
inductive Shape
  | scalar (k : Scalar)
  | option (s : Shape)
  | seq (s : Shape)
  /-- The unit type, or a unit struct. -/
  | unit
  | newtypeStruct (s : Shape)
  /-- A tuple, or a tuple struct. -/
  | tuple (fs : Fields)
  | struct (fs : Fields)
  | enum (name : String) (vs : Variants)

/-- The shapes of fields, in order. -/
inductive Fields
  | nil
  | cons (s : Shape) (fs : Fields)

/-- The shapes of the variants of an enum, in order. -/
inductive Variants
  | nil
  | cons (p : Payload) (vs : Variants)

/-- What a variant carries. -/
inductive Payload
  | unit
  | newtype (s : Shape)
  | tuple (fs : Fields)
  | struct (fs : Fields)

end

mutual

/-- The values of a shape. -/
def Shape.Val : Shape → Type
  | .scalar k => k.Val
  | .option s => Option s.Val
  | .seq s => List s.Val
  | .unit => Unit
  | .newtypeStruct s => s.Val
  | .tuple fs => fs.Val
  | .struct fs => fs.Val
  | .enum _ vs => vs.Val

/-- The values of fields. -/
def Fields.Val : Fields → Type
  | .nil => Unit
  | .cons s fs => s.Val × fs.Val

/-- The values of an enum: a variant and what it carries. -/
def Variants.Val : Variants → Type
  | .nil => Empty
  | .cons p vs => p.Val ⊕ vs.Val

/-- What a variant carries. -/
def Payload.Val : Payload → Type
  | .unit => Unit
  | .newtype s => s.Val
  | .tuple fs => fs.Val
  | .struct fs => fs.Val

end

/-! ### Fixed-length opaque data -/

/-- The word of a block of at most four bytes. -/
def blockWord (bs : Bytes) : UInt32 :=
  UInt32.ofNat (ofBytes (bs ++ List.replicate (4 - bs.length) 0))

/-- `fixed_length::serialize`: one word per block of four bytes. -/
def putBlocks : Bytes → Except Error Bytes
  | [] => .ok []
  | a :: b :: c :: d :: bs => do
    let word ← u32.put .position (blockWord [a, b, c, d])
    let rest ← putBlocks bs
    pure (word ++ rest)
  | bs => u32.put .position (blockWord bs)

/-- The first bytes of a word. -/
def wordBytes (word : UInt32) (n : ℕ) (h : n ≤ 4) : List.Vector UInt8 n :=
  ⟨(beBytes 4 word.toNat).take n, by simp [h]⟩

/-- `fixed_length::deserialize`: one word per block of four bytes. -/
def getBlocks : (n : ℕ) → Reader Error (List.Vector UInt8 n)
  | 0 => pure .nil
  | 1 => (wordBytes · 1 (by decide)) <$> u32.get
  | 2 => (wordBytes · 2 (by decide)) <$> u32.get
  | 3 => (wordBytes · 3 (by decide)) <$> u32.get
  | n + 4 => do
    let word ← u32.get
    let rest ← getBlocks n
    pure ⟨(wordBytes word 4 le_rfl).1 ++ rest.1, by simp [(wordBytes word 4 le_rfl).2, rest.2]; omega⟩

/-! ### The serializer -/

/-- `Serializer`, on a scalar. -/
def Scalar.serialize : (k : Scalar) → k.Val → Except Error Bytes
  | .bool, v => Xdr.bool.put .position v
  | .i8, v => Xdr.i8.put .position v
  | .i16, v => Xdr.i16.put .position v
  | .i32, v => Xdr.i32.put .position v
  | .i64, v => Xdr.i64.put .position v
  | .u8, v => Xdr.u8.put .position v
  | .u16, v => Xdr.u16.put .position v
  | .u32, v => Xdr.u32.put .position v
  | .u64, v => Xdr.u64.put .position v
  | .string, v => Xdr.string.put .position v
  | .bytes, v => Xdr.opaqueData.put .position v
  | .fixedLength _, v => putBlocks v.1

/-- Values one after the other. -/
def putAll {α : Type} (put : α → Except Error Bytes) : List α → Except Error Bytes
  | [] => .ok []
  | a :: as => do
    let bs ← put a
    let cs ← putAll put as
    pure (bs ++ cs)

mutual

/-- `to_bytes`: the serializer on a value. -/
def Shape.serialize : (s : Shape) → s.Val → Except Error Bytes
  | .scalar k, v => k.serialize v
  | .option _, none => u32.put .position 0
  | .option s, some v => do
    let flag ← u32.put .position 1
    let bs ← s.serialize v
    pure (flag ++ bs)
  | .seq s, vs => do
    let count ← (Codec.natWord eof (tooLong "sequence") 4).put .position vs.length
    let bs ← putAll s.serialize vs
    pure (count ++ bs)
  | .unit, _ => .ok []
  | .newtypeStruct s, v => s.serialize v
  | .tuple fs, v => fs.serialize v
  | .struct fs, v => fs.serialize v
  | .enum _ vs, v => vs.serialize 0 v

/-- The serializer on fields. -/
def Fields.serialize : (fs : Fields) → fs.Val → Except Error Bytes
  | .nil, _ => .ok []
  | .cons s fs, v => do
    let bs ← s.serialize v.1
    let cs ← fs.serialize v.2
    pure (bs ++ cs)

/-- The serializer on a variant: its index, counted from `i`, and what it carries. -/
def Variants.serialize : (vs : Variants) → ℕ → vs.Val → Except Error Bytes
  | .cons p _, i, .inl v => do
    let index ← u32.put .position (UInt32.ofNat i)
    let bs ← p.serialize v
    pure (index ++ bs)
  | .cons _ vs, i, .inr v => vs.serialize (i + 1) v

/-- The serializer on what a variant carries. -/
def Payload.serialize : (p : Payload) → p.Val → Except Error Bytes
  | .unit, _ => .ok []
  | .newtype s, v => s.serialize v
  | .tuple fs, v => fs.serialize v
  | .struct fs, v => fs.serialize v

end

/-! ### The deserializer -/

/-- `Deserializer`, on a scalar. -/
def Scalar.deserialize : (k : Scalar) → Reader Error k.Val
  | .bool => Xdr.bool.get
  | .i8 => Xdr.i8.get
  | .i16 => Xdr.i16.get
  | .i32 => Xdr.i32.get
  | .i64 => Xdr.i64.get
  | .u8 => Xdr.u8.get
  | .u16 => Xdr.u16.get
  | .u32 => Xdr.u32.get
  | .u64 => Xdr.u64.get
  | .string => Xdr.string.get
  | .bytes => Xdr.opaqueData.get
  | .fixedLength n => getBlocks n

mutual

/-- `from_reader`: the deserializer. -/
def Shape.deserialize : (s : Shape) → Reader Error s.Val
  | .scalar k => k.deserialize
  | .option s => do
    let flag ← u32.get
    if flag = 0 then pure none
    else if flag = 1 then some <$> s.deserialize
    else throw (.message ("invalid optional-data flag: " ++ toString flag.toNat))
  | .seq s => do
    let count ← (Codec.natWord eof (tooLong "sequence") 4).get
    Reader.replicate s.deserialize count
  | .unit => pure ()
  | .newtypeStruct s => s.deserialize
  | .tuple fs => fs.deserialize
  | .struct fs => fs.deserialize
  | .enum name vs => do
    let index ← u32.get
    vs.deserialize (.message ("invalid " ++ name ++ " variant: " ++ toString index.toNat)) index.toNat

/-- The deserializer on fields. -/
def Fields.deserialize : (fs : Fields) → Reader Error fs.Val
  | .nil => pure ()
  | .cons s fs => do
    let v ← s.deserialize
    let vs ← fs.deserialize
    pure (v, vs)

/-- The deserializer on the variant with an index, which has to be one. -/
def Variants.deserialize : (vs : Variants) → Error → ℕ → Reader Error vs.Val
  | .nil, unknown, _ => throw unknown
  | .cons p _, _, 0 => Sum.inl <$> p.deserialize
  | .cons _ vs, unknown, i + 1 => Sum.inr <$> vs.deserialize unknown i

/-- The deserializer on what a variant carries. -/
def Payload.deserialize : (p : Payload) → Reader Error p.Val
  | .unit => pure ()
  | .newtype s => s.deserialize
  | .tuple fs => fs.deserialize
  | .struct fs => fs.deserialize

end

/-! ### Lengths and padding -/

/-- The length of a scalar fits a word. -/
def Scalar.Fits : (k : Scalar) → k.Val → Prop
  | .string, v => (asBytes v).length < 2 ^ 32
  | .bytes, v => List.length v < 2 ^ 32
  | _, _ => True

/-- The length of a sequence fits a word, and so do the lengths in its elements. -/
def AllFit {α : Type} (fits : α → Prop) (vs : List α) : Prop :=
  vs.length < 2 ^ 32 ∧ ∀ v ∈ vs, fits v

mutual

/-- All lengths in a value fit a word, and so do the indices of its variants. -/
def Shape.Fits : (s : Shape) → s.Val → Prop
  | .scalar k, v => k.Fits v
  | .option _, none => True
  | .option s, some v => s.Fits v
  | .seq s, vs => AllFit s.Fits vs
  | .unit, _ => True
  | .newtypeStruct s, v => s.Fits v
  | .tuple fs, v => fs.Fits v
  | .struct fs, v => fs.Fits v
  | .enum _ vs, v => vs.Fits 0 v

/-- All lengths in fields fit a word. -/
def Fields.Fits : (fs : Fields) → fs.Val → Prop
  | .nil, _ => True
  | .cons s fs, v => s.Fits v.1 ∧ fs.Fits v.2

/-- The index of a variant, counted from `i`, and all lengths in what it carries fit a word. -/
def Variants.Fits : (vs : Variants) → ℕ → vs.Val → Prop
  | .cons p _, i, .inl v => i < 2 ^ 32 ∧ p.Fits v
  | .cons _ vs, i, .inr v => vs.Fits (i + 1) v

/-- All lengths in what a variant carries fit a word. -/
def Payload.Fits : (p : Payload) → p.Val → Prop
  | .unit, _ => True
  | .newtype s, v => s.Fits v
  | .tuple fs, v => fs.Fits v
  | .struct fs, v => fs.Fits v

end

/-- Data without padding. -/
abbrev data (n : ℕ) : List Bool := List.replicate n false

/-- Data that is filled up to a multiple of four. -/
def padded (n : ℕ) : List Bool := data n ++ List.replicate (Codec.padding n) true

/-- Which bytes of the encoding of a scalar are padding. -/
def Scalar.marks : (k : Scalar) → k.Val → List Bool
  | .i64, _ => data 8
  | .u64, _ => data 8
  | .string, v => data 4 ++ padded (asBytes v).length
  | .bytes, v => data 4 ++ padded (List.length v)
  | .fixedLength n, _ => padded n
  | _, _ => data 4

mutual

/-- Which bytes of the encoding of a value are padding. -/
def Shape.marks : (s : Shape) → s.Val → List Bool
  | .scalar k, v => k.marks v
  | .option _, none => data 4
  | .option s, some v => data 4 ++ s.marks v
  | .seq s, vs => data 4 ++ List.flatMap s.marks vs
  | .unit, _ => []
  | .newtypeStruct s, v => s.marks v
  | .tuple fs, v => fs.marks v
  | .struct fs, v => fs.marks v
  | .enum _ vs, v => vs.marks v

/-- Which bytes of the encoding of fields are padding. -/
def Fields.marks : (fs : Fields) → fs.Val → List Bool
  | .nil, _ => []
  | .cons s fs, v => s.marks v.1 ++ fs.marks v.2

/-- Which bytes of the encoding of a variant are padding. -/
def Variants.marks : (vs : Variants) → vs.Val → List Bool
  | .cons p _, .inl v => data 4 ++ p.marks v
  | .cons _ vs, .inr v => vs.marks v

/-- Which bytes of the encoding of what a variant carries are padding. -/
def Payload.marks : (p : Payload) → p.Val → List Bool
  | .unit, _ => []
  | .newtype s, v => s.marks v
  | .tuple fs, v => fs.marks v
  | .struct fs, v => fs.marks v

end

/-! ### What the two directions do, one type at a time -/

/-- Writing gives whole words, and reading undoes it. -/
def Writes {α : Type} (put : Except Error Bytes) (get : Reader Error α) (v : α) : Prop :=
  ∃ bs, put = .ok bs ∧ 4 ∣ bs.length ∧ ∀ rest, get (bs ++ rest) = .ok (v, rest)

/-- What is read is what is written, off the marked bytes, and then the rest. -/
def Rewrites (put : Except Error Bytes) (marks : List Bool) (input rest : Bytes) : Prop :=
  ∃ bs front, put = .ok bs ∧ input = front ++ rest ∧ Codec.EqOff marks bs front

/-- A codec of words: no padding, and nothing that does not fit. -/
structure Exact {α : Type} (c : Codec Error α) (n : ℕ) : Prop where
  four_dvd : 4 ∣ n
  reads : ∀ v, c.Wf v ∧ c.Reads .position v
  put : ∀ v, ∃ bs, c.put .position v = .ok bs ∧ bs.length = n
  get : ∀ {input v rest}, c.get input = .ok (v, rest) →
    ∃ bs, c.put .position v = .ok bs ∧ input = bs ++ rest

section Exact

variable {α β : Type} {c : Codec Error α} {n : ℕ}

lemma Exact.writes (h : Exact c n) (v : α) : Writes (c.put .position v) c.get v := by
  obtain ⟨bs, hput, hlen⟩ := h.put v
  refine ⟨bs, hput, hlen ▸ h.four_dvd, fun rest => ?_⟩
  exact c.get_put rest (h.reads v).1 (h.reads v).2 hput

lemma Exact.rewrites (h : Exact c n) {input rest : Bytes} {v : α}
    (hget : c.get input = .ok (v, rest)) :
    Rewrites (c.put .position v) (data n) input rest := by
  obtain ⟨bs, hput, rfl⟩ := h.get hget
  obtain ⟨bs', hput', hlen⟩ := h.put v
  rw [hput] at hput'
  cases hput'
  exact ⟨bs, bs, hput, rfl, .refl hlen⟩

/-- A word that is read is the word of the number it denotes. -/
lemma Exact.word {toNat : α → ℕ} {ofNat : ℕ → α} {lt : ∀ a, toNat a < 256 ^ n}
    {inv : ∀ a, ofNat (toNat a) = a} (hn : 4 ∣ n) (hinv : ∀ k < 256 ^ n, toNat (ofNat k) = k) :
    Exact (Codec.word eof n toNat ofNat lt inv) n where
  four_dvd := hn
  reads _ := ⟨trivial, trivial⟩
  put v := ⟨_, rfl, length_beBytes n _⟩
  get {input v rest} h := by
    obtain ⟨bs, rest', htake, hpure⟩ := Reader.bind_eq_ok.1 h
    obtain ⟨rfl, hlen⟩ := Reader.take_eq_ok.1 htake
    cases hpure
    refine ⟨bs, ?_, rfl⟩
    change Except.ok (beBytes n (toNat (ofNat (ofBytes bs)))) = _
    rw [hinv _ (hlen ▸ ofBytes_lt bs), ← hlen, beBytes_ofBytes]

/-- Exactness moves along a bijection onto the accepted values. -/
lemma Exact.refine (h : Exact c n) {f : α → Except Error β} {g : β → α}
    {f_g : ∀ b, f (g b) = .ok b} {g_f : ∀ a b, f a = .ok b → g b = a} :
    Exact (c.refine f g f_g g_f) n where
  four_dvd := h.four_dvd
  reads v := h.reads (g v)
  put v := h.put (g v)
  get {input v rest} hget := by
    obtain ⟨a, rest', ha, hlift⟩ := Reader.bind_eq_ok.1 hget
    obtain ⟨b, hb, hpure⟩ := except_bind_eq_ok.1 hlift
    cases hpure
    obtain ⟨bs, hput, hinput⟩ := h.get ha
    refine ⟨bs, ?_, hinput⟩
    rw [← g_f a v hb] at hput
    exact hput

lemma Exact.iso (h : Exact c n) {f : α → β} {g : β → α} {f_g : ∀ b, f (g b) = b}
    {g_f : ∀ a, g (f a) = a} : Exact (c.iso f g f_g g_f) n := by
  unfold Codec.iso
  exact h.refine

end Exact

lemma exact_u32 : Exact u32 4 := .word (by decide) fun k hk => by simp; omega

lemma exact_u64 : Exact u64 8 := .word (by decide) fun k hk => by simp; omega

lemma exact_bool : Exact bool 4 := exact_u32.refine

lemma exact_u8 : Exact u8 4 := exact_u32.refine

lemma exact_u16 : Exact u16 4 := exact_u32.refine

lemma exact_i32 : Exact i32 4 := exact_u32.iso

lemma exact_i64 : Exact i64 8 := exact_u64.iso

lemma exact_i8 : Exact i8 4 := exact_i32.refine

lemma exact_i16 : Exact i16 4 := exact_i32.refine

/-! ### Opaque data -/

lemma dvd_length_padded (n k : ℕ) (hk : 4 ∣ k) (bs : Bytes) (hbs : bs.length = n) :
    4 ∣ k + (bs ++ List.replicate (Codec.padding n) 0).length := by
  rw [List.length_append, List.length_replicate, hbs]
  exact Nat.dvd_add hk (Codec.four_dvd_add_padding n)

/-- Data is equal to data with other padding, off the padding. -/
lemma eqOff_padded {bs pad : Bytes} (hpad : pad.length = Codec.padding bs.length) :
    Codec.EqOff (padded bs.length) (bs ++ List.replicate (Codec.padding bs.length) 0)
      (bs ++ pad) :=
  (Codec.EqOff.refl rfl).append (.of_length List.length_replicate hpad)

lemma opaqueData_put {bs : Bytes} (h : bs.length < 2 ^ 32) :
    opaqueData.put .position bs = .ok (beBytes 4 bs.length ++
      (bs ++ List.replicate (Codec.padding bs.length) 0)) := by
  have hlen : (Codec.natWord eof (tooLong "opaque data") 4).put .position bs.length =
      .ok (beBytes 4 bs.length) := if_pos (by omega)
  change (Codec.natWord eof (tooLong "opaque data") 4).put .position bs.length >>= _ = _
  rw [hlen]
  rfl

/-- A count that is read fits a word and is the word in front. -/
lemma natWord_get {tooLong : ℕ → Error} {input rest : Bytes} {n : ℕ}
    (h : (Codec.natWord eof tooLong 4).get input = .ok (n, rest)) :
    n < 2 ^ 32 ∧ input = beBytes 4 n ++ rest := by
  obtain ⟨word, rest', htake, hpure⟩ := Reader.bind_eq_ok.1 h
  obtain ⟨rfl, hlen⟩ := Reader.take_eq_ok.1 htake
  cases hpure
  have hlt := ofBytes_lt word
  rw [hlen] at hlt
  refine ⟨by omega, ?_⟩
  rw [← hlen, beBytes_ofBytes]

lemma opaqueData_get {input bs rest : Bytes} (h : opaqueData.get input = .ok (bs, rest)) :
    bs.length < 2 ^ 32 ∧ ∃ pad, pad.length = Codec.padding bs.length ∧
      input = (beBytes 4 bs.length ++ (bs ++ pad)) ++ rest := by
  obtain ⟨n, rest₁, hn, h₁⟩ := Reader.bind_eq_ok.1 h
  obtain ⟨data, rest₂, hdata, h₂⟩ := Reader.bind_eq_ok.1 h₁
  obtain ⟨pad, rest₃, hpad, h₃⟩ := Reader.bind_eq_ok.1 h₂
  cases h₃
  obtain ⟨hlt, rfl⟩ := natWord_get hn
  obtain ⟨rfl, rfl⟩ := Reader.take_eq_ok.1 hdata
  obtain ⟨rfl, hlen⟩ := Reader.take_eq_ok.1 hpad
  exact ⟨hlt, pad, hlen, by simp⟩

lemma opaqueData_writes {bs : Bytes} (h : bs.length < 2 ^ 32) :
    Writes (opaqueData.put .position bs) opaqueData.get bs := by
  refine ⟨_, opaqueData_put h, ?_, fun rest => ?_⟩
  · rw [List.length_append, length_beBytes]
    exact dvd_length_padded _ _ (by decide) bs rfl
  · exact opaqueData.get_put rest trivial trivial (opaqueData_put h)

lemma opaqueData_rewrites {input bs rest : Bytes} (h : opaqueData.get input = .ok (bs, rest)) :
    Rewrites (opaqueData.put .position bs) (data 4 ++ padded bs.length) input rest := by
  obtain ⟨hlt, pad, hpad, rfl⟩ := opaqueData_get h
  refine ⟨_, _, opaqueData_put hlt, rfl, ?_⟩
  exact (Codec.EqOff.refl (length_beBytes 4 _)).append (eqOff_padded hpad)

/-- A string that is read is what its bytes denote. -/
lemma string_get {input rest : Bytes} {v : String} (h : string.get input = .ok (v, rest)) :
    opaqueData.get input = .ok (asBytes v, rest) := by
  obtain ⟨bs, rest', hbs, hlift⟩ := Reader.bind_eq_ok.1 h
  obtain ⟨v', hv, hpure⟩ := except_bind_eq_ok.1 hlift
  cases hpure
  dsimp only at hv
  cases hutf8 : fromUtf8 bs with
  | error e =>
    rw [hutf8] at hv
    cases hv
  | ok w =>
    rw [hutf8] at hv
    cases hv
    rwa [asBytes_of_fromUtf8 bs v hutf8]

/-! ### Fixed-length opaque data -/

/-- Four bytes are the bytes of their word. -/
lemma beBytes_ofNat {bs : Bytes} (h : bs.length = 4) :
    beBytes 4 (UInt32.ofNat (ofBytes bs)).toNat = bs := by
  have hlt := ofBytes_lt bs
  rw [h] at hlt
  rw [UInt32.toNat_ofNat', Nat.mod_eq_of_lt (by omega), ← h, beBytes_ofBytes]

/-- A whole block is written as it is. -/
lemma put_blockWord (bs : Bytes) (h : bs.length ≤ 4) :
    u32.put .position (blockWord bs) = .ok (bs ++ List.replicate (4 - bs.length) 0) := by
  have hlen : (bs ++ List.replicate (4 - bs.length) (0 : UInt8)).length = 4 := by
    simp
    omega
  change Except.ok (beBytes 4 (blockWord bs).toNat) = _
  rw [blockWord, beBytes_ofNat hlen]

/-- The blocks are the bytes and the padding. -/
lemma putBlocks_eq (bs : Bytes) :
    putBlocks bs = .ok (bs ++ List.replicate (Codec.padding bs.length) 0) := by
  induction bs using putBlocks.induct with
  | case1 => rfl
  | case2 a b c d bs ih =>
    have hpad : Codec.padding (a :: b :: c :: d :: bs).length = Codec.padding bs.length := by
      simp only [Codec.padding, List.length_cons]
      omega
    rw [putBlocks, put_blockWord _ (by simp), ih, hpad]
    rfl
  | case3 bs hnil hfour =>
    have hlen : bs.length < 4 ∧ bs ≠ [] := by
      refine ⟨?_, hnil⟩
      by_contra hge
      match bs, hge with
      | a :: b :: c :: d :: rest, _ => exact hfour a b c d rest rfl
      | [], _ => exact hnil rfl
      | [_], hge => simp at hge
      | [_, _], hge => simp at hge
      | [_, _, _], hge => simp at hge
    have hpos : 0 < bs.length := List.length_pos_of_ne_nil hlen.2
    have hpad : 4 - bs.length = Codec.padding bs.length := by
      simp only [Codec.padding]
      omega
    rw [putBlocks, put_blockWord bs (by omega), hpad]
    · exact hnil
    · exact hfour

/-- A word that is read, from its bytes. -/
lemma u32_get_eq_ok {input rest : Bytes} {word : UInt32} :
    u32.get input = .ok (word, rest) ↔ input = beBytes 4 word.toNat ++ rest := by
  constructor
  · intro h
    obtain ⟨bs, hput, rfl⟩ := exact_u32.get h
    cases hput
    rfl
  · rintro rfl
    exact u32.get_put (ν := .position) rest trivial trivial rfl

/-- A block that is read in part is its first bytes and padding. -/
lemma wordBytes_get {input rest : Bytes} {n : ℕ} {v : List.Vector UInt8 n} (hn : n ≤ 4) :
    ((wordBytes · n hn) <$> u32.get) input = .ok (v, rest) ↔
      ∃ pad, pad.length = 4 - n ∧ input = (v.1 ++ pad) ++ rest := by
  rw [Reader.map_eq_ok]
  constructor
  · rintro ⟨word, hword, rfl⟩
    rw [u32_get_eq_ok] at hword
    refine ⟨(beBytes 4 word.toNat).drop n, by simp, ?_⟩
    rw [hword]
    simp [wordBytes]
  · rintro ⟨pad, hpad, rfl⟩
    have hlen : (v.1 ++ pad).length = 4 := by
      rw [List.length_append, v.2, hpad]
      omega
    refine ⟨UInt32.ofNat (ofBytes (v.1 ++ pad)), ?_, ?_⟩
    · rw [u32_get_eq_ok, beBytes_ofNat hlen]
    · apply Subtype.ext
      change (beBytes 4 (UInt32.ofNat (ofBytes (v.1 ++ pad))).toNat).take n = v.1
      rw [beBytes_ofNat hlen, List.take_left' v.2]

/-- Reading the blocks reads the bytes and any padding. -/
lemma getBlocks_eq_ok {n : ℕ} {input rest : Bytes} {v : List.Vector UInt8 n} :
    getBlocks n input = .ok (v, rest) ↔
      ∃ pad, pad.length = Codec.padding n ∧ input = (v.1 ++ pad) ++ rest := by
  induction n using getBlocks.induct generalizing input rest with
  | case1 =>
    obtain ⟨bs, hbs⟩ := v
    obtain rfl := List.length_eq_zero_iff.1 hbs
    constructor
    · intro h
      cases h
      exact ⟨[], rfl, rfl⟩
    · rintro ⟨pad, hpad, rfl⟩
      obtain rfl := List.length_eq_zero_iff.1 hpad
      rfl
  | case2 => exact wordBytes_get (by decide)
  | case3 => exact wordBytes_get (by decide)
  | case4 => exact wordBytes_get (by decide)
  | case5 n ih =>
    have hpadding : Codec.padding (n + 4) = Codec.padding n := by
      simp only [Codec.padding]
      omega
    rw [getBlocks, Reader.bind_eq_ok, hpadding]
    constructor
    · rintro ⟨word, rest₁, hword, h⟩
      obtain ⟨tail, rest₂, htail, hpure⟩ := Reader.bind_eq_ok.1 h
      cases hpure
      obtain ⟨pad, hpad, rfl⟩ := ih.1 htail
      rw [u32_get_eq_ok] at hword
      refine ⟨pad, hpad, ?_⟩
      rw [hword]
      simp [wordBytes]
    · rintro ⟨pad, hpad, rfl⟩
      have hlen : (v.1.take 4).length = 4 := by
        rw [List.length_take, v.2]
        omega
      have hsplit : v.1 = v.1.take 4 ++ v.1.drop 4 := (List.take_append_drop 4 v.1).symm
      have htail : (v.1.drop 4).length = n := by
        rw [List.length_drop, v.2]
        omega
      refine ⟨UInt32.ofNat (ofBytes (v.1.take 4)), (v.1.drop 4 ++ pad) ++ rest, ?_, ?_⟩
      · rw [u32_get_eq_ok, beBytes_ofNat hlen, ← List.append_assoc, ← List.append_assoc, ← hsplit]
      · rw [Reader.bind_ok _ (ih (v := ⟨v.1.drop 4, htail⟩) |>.2 ⟨pad, hpad, rfl⟩)]
        change Except.ok (_, rest) = Except.ok (v, rest)
        congr 2
        apply Subtype.ext
        change (beBytes 4 (UInt32.ofNat (ofBytes (v.1.take 4))).toNat).take 4 ++ v.1.drop 4 = v.1
        rw [beBytes_ofNat hlen, List.take_of_length_le (le_of_eq hlen), ← hsplit]

lemma blocks_writes {n : ℕ} (v : List.Vector UInt8 n) :
    Writes (putBlocks v.1) (getBlocks n) v := by
  obtain ⟨bs, rfl⟩ := v
  refine ⟨_, putBlocks_eq bs, ?_, fun rest => ?_⟩
  · simpa using dvd_length_padded bs.length 0 (by decide) bs rfl
  · exact getBlocks_eq_ok.2 ⟨_, List.length_replicate, rfl⟩

lemma blocks_rewrites {n : ℕ} {v : List.Vector UInt8 n} {input rest : Bytes}
    (h : getBlocks n input = .ok (v, rest)) :
    Rewrites (putBlocks v.1) (padded n) input rest := by
  obtain ⟨pad, hpad, hinput⟩ := getBlocks_eq_ok.1 h
  obtain ⟨bs, rfl⟩ := v
  exact ⟨_, bs ++ pad, putBlocks_eq bs, hinput, eqOff_padded hpad⟩

/-! ### Scalars -/

lemma Scalar.writes : (k : Scalar) → (v : k.Val) → k.Fits v → Writes (k.serialize v) k.deserialize v
  | .bool, v, _ => exact_bool.writes v
  | .i8, v, _ => exact_i8.writes v
  | .i16, v, _ => exact_i16.writes v
  | .i32, v, _ => exact_i32.writes v
  | .i64, v, _ => exact_i64.writes v
  | .u8, v, _ => exact_u8.writes v
  | .u16, v, _ => exact_u16.writes v
  | .u32, v, _ => exact_u32.writes v
  | .u64, v, _ => exact_u64.writes v
  | .string, v, h => by
    obtain ⟨bs, hput, hlen, -⟩ := opaqueData_writes h
    exact ⟨bs, hput, hlen, fun rest => Xdr.string.get_put rest trivial trivial hput⟩
  | .bytes, _, h => opaqueData_writes h
  | .fixedLength _, v, _ => blocks_writes v

lemma Scalar.rewrites : (k : Scalar) → {v : k.Val} → {input rest : Bytes} →
    k.deserialize input = .ok (v, rest) → Rewrites (k.serialize v) (k.marks v) input rest
  | .bool, _, _, _, h => exact_bool.rewrites h
  | .i8, _, _, _, h => exact_i8.rewrites h
  | .i16, _, _, _, h => exact_i16.rewrites h
  | .i32, _, _, _, h => exact_i32.rewrites h
  | .i64, _, _, _, h => exact_i64.rewrites h
  | .u8, _, _, _, h => exact_u8.rewrites h
  | .u16, _, _, _, h => exact_u16.rewrites h
  | .u32, _, _, _, h => exact_u32.rewrites h
  | .u64, _, _, _, h => exact_u64.rewrites h
  | .string, _, _, _, h => opaqueData_rewrites (string_get h)
  | .bytes, _, _, _, h => opaqueData_rewrites h
  | .fixedLength _, _, _, _, h => blocks_rewrites h

/-! ### Combining -/

section Combining

variable {α β γ : Type} {put put' : Except Error Bytes} {v : α} {w : β}

/-- One value after another. -/
lemma Writes.bind {get : Reader Error α} {get' : α → Reader Error β} (h : Writes put get v)
    (h' : Writes put' (get' v) w) :
    Writes (put >>= fun bs => put' >>= fun cs => pure (bs ++ cs)) (get >>= get') w := by
  obtain ⟨bs, rfl, hbs, hget⟩ := h
  obtain ⟨cs, rfl, hcs, hget'⟩ := h'
  refine ⟨bs ++ cs, rfl, ?_, fun rest => ?_⟩
  · rw [List.length_append]
    exact Nat.dvd_add hbs hcs
  · rw [List.append_assoc, Reader.bind_ok _ (hget _)]
    exact hget' rest

lemma Writes.map {get : Reader Error α} (h : Writes put get v) (f : α → β) :
    Writes put (f <$> get) (f v) := by
  obtain ⟨bs, hput, hlen, hget⟩ := h
  exact ⟨bs, hput, hlen, fun rest => Reader.map_eq_ok.2 ⟨v, hget rest, rfl⟩⟩

lemma Writes.bind_pure {get : Reader Error α} (h : Writes put get v) (f : α → β) :
    Writes put (get >>= fun a => pure (f a)) (f v) := by
  obtain ⟨bs, hput, hlen, hget⟩ := h
  exact ⟨bs, hput, hlen, fun rest => by rw [Reader.bind_ok _ (hget rest)]; rfl⟩

lemma Writes.pure (v : α) : Writes (.ok []) (pure v) v :=
  ⟨[], rfl, by simp, fun _ => rfl⟩

lemma Rewrites.bind {marks marks' : List Bool} {input rest rest' : Bytes}
    (h : Rewrites put marks input rest) (h' : Rewrites put' marks' rest rest') :
    Rewrites (put >>= fun bs => put' >>= fun cs => pure (bs ++ cs)) (marks ++ marks') input
      rest' := by
  obtain ⟨bs, front, rfl, rfl, heq⟩ := h
  obtain ⟨cs, front', rfl, rfl, heq'⟩ := h'
  exact ⟨bs ++ cs, front ++ front', rfl, by simp, heq.append heq'⟩

lemma Rewrites.nil (input : Bytes) : Rewrites (.ok []) [] input input :=
  ⟨[], [], rfl, rfl, .nil⟩

/-- Elements one after the other. -/
lemma writes_putAll {put : α → Except Error Bytes} {get : Reader Error α} {vs : List α}
    (h : ∀ v ∈ vs, Writes (put v) get v) :
    Writes (putAll put vs) (Reader.replicate get vs.length) vs := by
  induction vs with
  | nil => exact .pure []
  | cons v vs ih =>
    have hv := h v List.mem_cons_self
    have hvs := ih fun w hw => h w (List.mem_cons_of_mem v hw)
    exact hv.bind (hvs.bind_pure _)

lemma rewrites_putAll {put : α → Except Error Bytes} {get : Reader Error α}
    {marks : α → List Bool}
    (h : ∀ {v input rest}, get input = .ok (v, rest) → Rewrites (put v) (marks v) input rest)
    {n : ℕ} {vs : List α} {input rest : Bytes}
    (hget : Reader.replicate get n input = .ok (vs, rest)) :
    vs.length = n ∧ Rewrites (putAll put vs) (vs.flatMap marks) input rest := by
  induction n generalizing vs input with
  | zero =>
    cases hget
    exact ⟨rfl, .nil _⟩
  | succ n ih =>
    obtain ⟨v, rest₁, hv, hget⟩ := Reader.bind_eq_ok.1 hget
    obtain ⟨vs', rest₂, hvs, hpure⟩ := Reader.bind_eq_ok.1 hget
    cases hpure
    obtain ⟨hlen, hrest⟩ := ih hvs
    refine ⟨by simp [hlen], ?_⟩
    rw [List.flatMap_cons]
    exact (h hv).bind hrest

end Combining

/-! ### The round trip -/

lemma u32_put_ofNat {i : ℕ} (h : i < 2 ^ 32) :
    u32.put .position (UInt32.ofNat i) = .ok (beBytes 4 i) := by
  change Except.ok (beBytes 4 (UInt32.ofNat i).toNat) = _
  rw [UInt32.toNat_ofNat', Nat.mod_eq_of_lt h]

/-- A variant is written with its index and what it carries, and read back from its index. -/
def Variants.Writes (vs : Variants) (i : ℕ) (v : vs.Val) : Prop :=
  ∃ j bs, i + j < 2 ^ 32 ∧ vs.serialize i v = .ok (beBytes 4 (i + j) ++ bs) ∧ 4 ∣ bs.length ∧
    ∀ unknown rest, vs.deserialize unknown j (bs ++ rest) = .ok (v, rest)

mutual

/-- Reading undoes writing, for every shape.

**Proof sketch.** By recursion on the shape, along with its fields and variants. A flag, a count
and an index are words; what follows them is read back by the recursive call, and
`Writes.bind` puts the parts together. -/
lemma Shape.writes : (s : Shape) → (v : s.Val) → s.Fits v → Writes (s.serialize v) s.deserialize v
  | .scalar k, v, h => k.writes v h
  | .option _, none, _ => by
    refine ⟨_, rfl, by simp, fun rest => ?_⟩
    rw [Shape.deserialize, Reader.bind_ok _ (u32_get_eq_ok.2 rfl)]
    rfl
  | .option s, some v, h => by
    have hflag : Writes (u32.put .position 1) u32.get 1 := exact_u32.writes 1
    exact hflag.bind ((s.writes v h).map some)
  | .seq s, vs, h => by
    obtain ⟨hlen, hvs⟩ := h
    have hcount : Writes ((Codec.natWord eof (tooLong "sequence") 4).put .position (List.length vs))
        (Codec.natWord eof (tooLong "sequence") 4).get (List.length vs) := by
      have hput : (Codec.natWord eof (tooLong "sequence") 4).put .position (List.length vs) =
          .ok (beBytes 4 (List.length vs)) := if_pos (by omega)
      exact ⟨_, hput, by simp, fun rest => Codec.get_put _ rest trivial trivial hput⟩
    exact hcount.bind (writes_putAll fun v hv => s.writes v (hvs v hv))
  | .unit, v, _ => .pure v
  | .newtypeStruct s, v, h => s.writes v h
  | .tuple fs, v, h => fs.writes v h
  | .struct fs, v, h => fs.writes v h
  | .enum _ vs, v, h => by
    obtain ⟨j, bs, hj, hput, hlen, hget⟩ := vs.writes 0 v h
    rw [Nat.zero_add] at hj hput
    refine ⟨_, hput, ?_, fun rest => ?_⟩
    · rw [List.length_append, length_beBytes]
      omega
    · have hnat : (UInt32.ofNat j).toNat = j := by
        rw [UInt32.toNat_ofNat', Nat.mod_eq_of_lt hj]
      have hword : u32.get (beBytes 4 j ++ (bs ++ rest)) = .ok (UInt32.ofNat j, bs ++ rest) := by
        rw [u32_get_eq_ok, hnat]
      rw [List.append_assoc, Shape.deserialize, Reader.bind_ok _ hword, hnat]
      exact hget _ rest

lemma Fields.writes : (fs : Fields) → (v : fs.Val) → fs.Fits v →
    Writes (fs.serialize v) fs.deserialize v
  | .nil, v, _ => .pure v
  | .cons s fs, v, h => (s.writes v.1 h.1).bind ((fs.writes v.2 h.2).bind_pure _)

lemma Variants.writes : (vs : Variants) → (i : ℕ) → (v : vs.Val) → vs.Fits i v → vs.Writes i v
  | .cons p _, i, .inl v, h => by
    obtain ⟨hi, hv⟩ := h
    obtain ⟨bs, hput, hlen, hget⟩ := p.writes v hv
    refine ⟨0, bs, hi, ?_, hlen, fun unknown rest => Reader.map_eq_ok.2 ⟨v, hget rest, rfl⟩⟩
    rw [Variants.serialize, u32_put_ofNat hi, hput]
    rfl
  | .cons _ vs, i, .inr v, h => by
    obtain ⟨j, bs, hj, hput, hlen, hget⟩ := vs.writes (i + 1) v h
    have hij : i + 1 + j = i + (j + 1) := by omega
    rw [hij] at hj hput
    exact ⟨j + 1, bs, hj, hput, hlen,
      fun unknown rest => Reader.map_eq_ok.2 ⟨v, hget unknown rest, rfl⟩⟩

lemma Payload.writes : (p : Payload) → (v : p.Val) → p.Fits v →
    Writes (p.serialize v) p.deserialize v
  | .unit, v, _ => .pure v
  | .newtype s, v, h => s.writes v h
  | .tuple fs, v, h => fs.writes v h
  | .struct fs, v, h => fs.writes v h

end

/-- What is read for a variant with an index is written after that index. -/
def Variants.Rewrites (vs : Variants) (j : ℕ) (v : vs.Val) (input rest : Bytes) : Prop :=
  ∃ bs front marks, (∀ i, i + j < 2 ^ 32 → vs.serialize i v = .ok (beBytes 4 (i + j) ++ bs)) ∧
    input = front ++ rest ∧ vs.marks v = data 4 ++ marks ∧ Codec.EqOff marks bs front

mutual

/-- Writing undoes reading up to padding, for every shape. -/
lemma Shape.rewrites : (s : Shape) → {v : s.Val} → {input rest : Bytes} →
    s.deserialize input = .ok (v, rest) → Rewrites (s.serialize v) (s.marks v) input rest
  | .scalar k, _, _, _, h => k.rewrites h
  | .option s, v, input, rest, h => by
    obtain ⟨flag, rest₁, hflag, h⟩ := Reader.bind_eq_ok.1 h
    have hword := exact_u32.rewrites hflag
    split_ifs at h with hzero hone
    · cases h
      rw [hzero] at hword
      exact hword
    · obtain ⟨w, hw, rfl⟩ := Reader.map_eq_ok.1 h
      rw [hone] at hword
      exact hword.bind (s.rewrites hw)
    · cases h
  | .seq s, vs, input, rest, h => by
    obtain ⟨n, rest₁, hn, h⟩ := Reader.bind_eq_ok.1 h
    obtain ⟨hlen, hvs⟩ := rewrites_putAll (fun h => s.rewrites h) h
    obtain ⟨hlt, rfl⟩ := natWord_get hn
    have hcount : NextNfs.Serde.Rewrites
        ((Codec.natWord eof (tooLong "sequence") 4).put .position (List.length vs)) (data 4)
        (beBytes 4 n ++ rest₁) rest₁ := by
      rw [hlen]
      exact ⟨_, _, if_pos (by omega), rfl, .refl (length_beBytes 4 n)⟩
    exact hcount.bind hvs
  | .unit, _, _, _, h => by
    cases h
    exact .nil _
  | .newtypeStruct s, _, _, _, h => s.rewrites h
  | .tuple fs, _, _, _, h => fs.rewrites h
  | .struct fs, _, _, _, h => fs.rewrites h
  | .enum _ vs, v, input, rest, h => by
    obtain ⟨index, rest₁, hindex, h⟩ := Reader.bind_eq_ok.1 h
    obtain ⟨bs, front, marks, hput, rfl, hmarks, heq⟩ := vs.rewrites h
    rw [u32_get_eq_ok] at hindex
    have hzero := hput 0 (by simpa using index.toNat_lt)
    rw [Nat.zero_add] at hzero
    refine ⟨_, beBytes 4 index.toNat ++ front, hzero, by simp [hindex], ?_⟩
    change Codec.EqOff (vs.marks v) _ _
    rw [hmarks]
    exact (Codec.EqOff.refl (length_beBytes 4 _)).append heq

lemma Fields.rewrites : (fs : Fields) → {v : fs.Val} → {input rest : Bytes} →
    fs.deserialize input = .ok (v, rest) → Rewrites (fs.serialize v) (fs.marks v) input rest
  | .nil, _, _, _, h => by
    cases h
    exact .nil _
  | .cons s fs, v, input, rest, h => by
    obtain ⟨a, rest₁, ha, h⟩ := Reader.bind_eq_ok.1 h
    obtain ⟨as, rest₂, has, h⟩ := Reader.bind_eq_ok.1 h
    cases h
    exact (s.rewrites ha).bind (fs.rewrites has)

lemma Variants.rewrites : (vs : Variants) → {unknown : Error} → {j : ℕ} → {v : vs.Val} →
    {input rest : Bytes} → vs.deserialize unknown j input = .ok (v, rest) →
    vs.Rewrites j v input rest
  | .nil, _, _, _, _, _, h => by cases h
  | .cons p _, _, 0, _, _, _, h => by
    obtain ⟨w, hw, rfl⟩ := Reader.map_eq_ok.1 h
    obtain ⟨bs, front, hput, hinput, heq⟩ := p.rewrites hw
    refine ⟨bs, front, p.marks w, fun i hi => ?_, hinput, rfl, heq⟩
    rw [Nat.add_zero] at hi
    rw [Variants.serialize, u32_put_ofNat hi, hput]
    rfl
  | .cons _ vs, _, j + 1, _, _, _, h => by
    obtain ⟨w, hw, rfl⟩ := Reader.map_eq_ok.1 h
    obtain ⟨bs, front, marks, hput, hinput, hmarks, heq⟩ := vs.rewrites hw
    refine ⟨bs, front, marks, fun i hi => ?_, hinput, hmarks, heq⟩
    have hij : i + 1 + j = i + (j + 1) := by omega
    rw [Variants.serialize, hput (i + 1) (by omega), hij]

lemma Payload.rewrites : (p : Payload) → {v : p.Val} → {input rest : Bytes} →
    p.deserialize input = .ok (v, rest) → Rewrites (p.serialize v) (p.marks v) input rest
  | .unit, _, _, _, h => by
    cases h
    exact .nil _
  | .newtype s, _, _, _, h => s.rewrites h
  | .tuple fs, _, _, _, h => fs.rewrites h
  | .struct fs, _, _, _, h => fs.rewrites h

end

/-- **The XDR round trip.** A value whose lengths fit a word is written in whole words and read back
from the front of any input that starts with them. A value that is read is written back as what
was consumed, up to the content of padding. -/
theorem xdr_round_trip (s : Shape) :
    (∀ v : s.Val, s.Fits v → ∃ bs, s.serialize v = .ok bs ∧ 4 ∣ bs.length ∧
      ∀ rest, s.deserialize (bs ++ rest) = .ok (v, rest)) ∧
    ∀ (input : Bytes) (v : s.Val) (rest : Bytes), s.deserialize input = .ok (v, rest) →
      ∃ bs consumed, s.serialize v = .ok bs ∧ input = consumed ++ rest ∧
        Codec.EqOff (s.marks v) bs consumed :=
  ⟨fun v h => s.writes v h, fun _ _ _ h => s.rewrites h⟩

/-- An enum with a unit variant, and a variant with two fields. -/
def sampleShape : Shape :=
  .enum "Shape" (.cons .unit
    (.cons (.tuple (.cons (.scalar .i16) (.cons (.scalar (.fixedLength 6)) .nil))) .nil))

/-- A value of the second variant. -/
def sampleValue : sampleShape.Val :=
  .inr (.inl ((-1 : Int16), ⟨[9, 10, 11, 12, 13, 14], rfl⟩, ()))

/-- The round trip of a value with a narrow integer and padding. -/
theorem xdr_round_trip_sample :
    sampleShape.Fits sampleValue ∧ ∃ bs, sampleShape.serialize sampleValue = .ok bs ∧
      4 ∣ bs.length ∧ ∀ rest, sampleShape.deserialize (bs ++ rest) = .ok (sampleValue, rest) := by
  have hfits : sampleShape.Fits sampleValue := ⟨by decide, trivial, trivial, trivial⟩
  exact ⟨hfits, (xdr_round_trip sampleShape).1 sampleValue hfits⟩

example : sampleShape.serialize sampleValue =
    .ok [0, 0, 0, 1, 0xff, 0xff, 0xff, 0xff, 9, 10, 11, 12, 13, 14, 0, 0] := by rfl

end NextNfs.Serde
