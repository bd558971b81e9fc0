import NextNfs.Lib.Wire

set_option relaxedAutoImplicit false
set_option autoImplicit false

/-!
# The XDR serializer and deserializer

This module models `proto/src/xdr.rs`: the serde serializer and deserializer that every
NFSv4 and RPC type goes through. One codec stands for each serde type the protocol uses;
compound types are built from them in `NextNfs.Proto.Types`.

## Main definitions

* `NextNfs.Xdr.Error` — `Error`, with the text `Display` gives it.
* `NextNfs.Xdr.fromUtf8`, `NextNfs.Xdr.fromUtf8Lossy` — `String::from_utf8` and
  `String::from_utf8_lossy`.
* `NextNfs.Xdr.u32`, `NextNfs.Xdr.opaqueData`, `NextNfs.Xdr.string`, `NextNfs.Xdr.vec`, … — the
  codecs of the serde types.
* `NextNfs.Xdr.unitEnum`, `NextNfs.Xdr.enum` — the derived codec of an enum.

## Main results

* `NextNfs.Xdr.fromUtf8_asBytes`, `NextNfs.Xdr.asBytes_of_fromUtf8` — UTF-8 round trips.

## Implementation notes

The derived code of an enum writes and reads the variant *index*. A declared discriminant
(`OpSeek(..) = 69`) is data of the variant that the derived code never looks at, so it is kept
as the `number` of the variant and used by `Numbering.declared` only.
-/

namespace NextNfs

open Wire

namespace Xdr

/-- `xdr::Error`: an I/O error or a message. -/
inductive Error
  | io (text : String)
  | message (text : String)
deriving DecidableEq, Repr

/-- `Display` of `xdr::Error`. -/
def Error.display : Error → String
  | .io e => "XDR I/O error: " ++ e
  | .message m => "XDR error: " ++ m

/-- The error of `read_exact` on input that is too short. -/
def eof : Error := .io "failed to fill whole buffer"

/-- `ErrorKind::UnexpectedEof.into()`, raised when opaque data is too short. -/
def unexpectedEof : Error := .io "unexpected end of file"

/-- The error of `length_u32`. -/
def tooLong (what : String) (len : ℕ) : Error := .message (what ++ " too long: " ++ toString len)

/-! ### UTF-8 -/

/-- `Utf8Error`: how much of the input is valid, and how long the invalid sequence after it
is (`none` when the input ends inside a character). -/
structure Utf8Error where
  validUpTo : ℕ
  errorLen : Option ℕ
deriving DecidableEq, Repr

/-- `Display` of `Utf8Error`. -/
def Utf8Error.display (e : Utf8Error) : String :=
  match e.errorLen with
  | some len => "invalid utf-8 sequence of " ++ toString len ++ " bytes from index " ++
      toString e.validUpTo
  | none => "incomplete utf-8 byte sequence from index " ++ toString e.validUpTo

/-- Whether a byte continues a multi-byte character. -/
def isContinuation (b : UInt8) : Bool := 0x80 ≤ b && b < 0xC0

/-- The bytes after the second one of a character have to continue it; `n` counts them and
`seen` the bytes accepted so far. -/
def utf8Tail : ℕ → ℕ → Bytes → Except (Option ℕ) ℕ
  | 0, seen, _ => .ok seen
  | _ + 1, _, [] => .error none
  | n + 1, seen, b :: bs =>
    if isContinuation b then utf8Tail n (seen + 1) bs else .error (some seen)

/-- The width of the character in front, or the length of the invalid sequence there, as
`run_utf8_validation` decides it. -/
def utf8Width : Bytes → Except (Option ℕ) ℕ
  | [] => .error none
  | b :: bs =>
    if b < 0x80 then .ok 1
    else if 0xC2 ≤ b && b < 0xE0 then utf8Tail 1 1 bs
    else if 0xE0 ≤ b && b < 0xF5 then
      match bs with
      | [] => .error none
      | c :: cs =>
        let lo : UInt8 := if b = 0xE0 then 0xA0 else if b = 0xF0 then 0x90 else 0x80
        let hi : UInt8 := if b = 0xED then 0xA0 else if b = 0xF4 then 0x90 else 0xC0
        if lo ≤ c && c < hi then utf8Tail (if b < 0xF0 then 1 else 2) 2 cs
        else .error (some 1)
    else .error (some 1)

/-- The bytes of a string. -/
def asBytes (s : String) : Bytes := s.toByteArray.data.toList

/-- The error `str::from_utf8` reports, scanning `fuel` characters from position `i`. -/
def utf8Error : ℕ → ℕ → Bytes → Utf8Error
  | 0, i, _ => ⟨i, none⟩
  | fuel + 1, i, bs =>
    match utf8Width bs with
    | .ok w => utf8Error fuel (i + w) (bs.drop w)
    | .error len => ⟨i, len⟩

/-- `String::from_utf8`. -/
def fromUtf8 (bs : Bytes) : Except Utf8Error String :=
  match String.fromUTF8? ⟨bs.toArray⟩ with
  | some s => .ok s
  | none => .error (utf8Error bs.length 0 bs)

/-- The scan behind `String::from_utf8_lossy`: every invalid sequence becomes U+FFFD. -/
def lossy : ℕ → Bytes → String
  | 0, _ => ""
  | _ + 1, [] => ""
  | fuel + 1, bs =>
    match utf8Width bs with
    | .ok w => (String.fromUTF8? ⟨(bs.take w).toArray⟩).getD "" ++ lossy fuel (bs.drop w)
    | .error (some len) => "\uFFFD" ++ lossy fuel (bs.drop len)
    | .error none => "\uFFFD"

/-- `String::from_utf8_lossy`. -/
def fromUtf8Lossy (bs : Bytes) : String :=
  match fromUtf8 bs with
  | .ok s => s
  | .error _ => lossy bs.length bs

/-- The bytes of a string are valid UTF-8 and denote it. -/
@[simp] lemma fromUtf8_asBytes (s : String) : fromUtf8 (asBytes s) = .ok s := by
  have h : (⟨(asBytes s).toArray⟩ : ByteArray) = s.toByteArray := by
    simp [asBytes]
  rw [fromUtf8, h, String.fromUTF8?, dif_pos s.isValidUTF8]
  rfl

/-- A byte string that is accepted is the bytes of the string it denotes. -/
lemma asBytes_of_fromUtf8 (bs : Bytes) (s : String) (h : fromUtf8 bs = .ok s) :
    asBytes s = bs := by
  rw [fromUtf8, String.fromUTF8?] at h
  split_ifs at h with hv
  cases h
  rfl

/-- The lossy reading of valid UTF-8 loses nothing. -/
@[simp] lemma fromUtf8Lossy_asBytes (s : String) : fromUtf8Lossy (asBytes s) = s := by
  rw [fromUtf8Lossy, fromUtf8_asBytes]

/-! ### The serde types -/

/-- `u32`: one word. -/
def u32 : Codec Error UInt32 :=
  Codec.word eof 4 UInt32.toNat UInt32.ofNat (fun a => a.toNat_lt) (fun a => by simp)

/-- `u64`: eight bytes. -/
def u64 : Codec Error UInt64 :=
  Codec.word eof 8 UInt64.toNat UInt64.ofNat (fun a => a.toNat_lt) (fun a => by simp)

/-- `i64`: eight bytes, two's complement. -/
def i64 : Codec Error Int64 :=
  u64.iso UInt64.toInt64 Int64.toUInt64 (fun b => by simp) (fun a => by simp)

/-- `i32`: one word, two's complement. -/
def i32 : Codec Error Int32 :=
  u32.iso UInt32.toInt32 Int32.toUInt32 (fun b => by simp) (fun a => by simp)

/-- The error of `ranged`. -/
def outOfRange (what : String) (n : ℤ) : Error := .message (what ++ " out of range: " ++ toString n)

/-- `u8`: a word that is below 256. -/
def u8 : Codec Error UInt8 :=
  u32.refine
    (fun n => if n.toNat < 2 ^ 8 then .ok n.toUInt8 else .error (outOfRange "u8" n.toNat))
    UInt8.toUInt32
    (fun b => by rw [if_pos (by simpa using b.toNat_lt)]; simp)
    (fun n b h => by
      split_ifs at h with hn
      cases h
      apply UInt32.toNat_inj.1
      simp
      omega)

/-- `u16`: a word that is below 65536. -/
def u16 : Codec Error UInt16 :=
  u32.refine
    (fun n => if n.toNat < 2 ^ 16 then .ok n.toUInt16 else .error (outOfRange "u16" n.toNat))
    UInt16.toUInt32
    (fun b => by rw [if_pos (by simpa using b.toNat_lt)]; simp)
    (fun n b h => by
      split_ifs at h with hn
      cases h
      apply UInt32.toNat_inj.1
      simp
      omega)

/-- `i8`: a word that denotes a number from -128 to 127. -/
def i8 : Codec Error Int8 :=
  i32.refine
    (fun n => if -2 ^ 7 ≤ n.toInt ∧ n.toInt < 2 ^ 7 then .ok n.toInt8
      else .error (outOfRange "i8" n.toInt))
    Int8.toInt32
    (fun b => by
      rw [Int8.toInt_toInt32, if_pos ⟨b.le_toInt, b.toInt_lt⟩]
      simp)
    (fun n b h => by
      split_ifs at h with hn
      cases h
      apply Int32.toInt_inj.1
      rw [Int8.toInt_toInt32, Int32.toInt_toInt8]
      rw [Int.bmod_eq_of_le] <;> omega)

/-- `i16`: a word that denotes a number from -32768 to 32767. -/
def i16 : Codec Error Int16 :=
  i32.refine
    (fun n => if -2 ^ 15 ≤ n.toInt ∧ n.toInt < 2 ^ 15 then .ok n.toInt16
      else .error (outOfRange "i16" n.toInt))
    Int16.toInt32
    (fun b => by
      rw [Int16.toInt_toInt32, if_pos ⟨b.le_toInt, b.toInt_lt⟩]
      simp)
    (fun n b h => by
      split_ifs at h with hn
      cases h
      apply Int32.toInt_inj.1
      rw [Int16.toInt_toInt32, Int32.toInt_toInt16]
      rw [Int.bmod_eq_of_le] <;> omega)

/-- `bool`: a word that is 0 or 1. -/
def bool : Codec Error Bool :=
  u32.refine
    (fun n => if n = 0 then .ok false else if n = 1 then .ok true
      else .error (.message ("invalid bool: " ++ toString n.toNat)))
    (fun b => if b then 1 else 0)
    (fun b => by cases b <;> rfl)
    (fun n b h => by
      split_ifs at h with h0 h1 <;> cases h
      · exact h0.symm
      · exact h1.symm)

/-- `opaque<>` data, through `serde_bytes` into a `Vec<u8>`. -/
def opaqueData : Codec Error Bytes := Codec.bytes eof unexpectedEof (tooLong "opaque data")

/-- `opaque_data::fixed_length`: the bytes of an array, filled up to a multiple of four. -/
def fixedLength (n : ℕ) : Codec Error (List.Vector UInt8 n) := Codec.fixed eof n

/-- `opaque<>` data, through `serde_bytes` into an array: the length has to be the array's. -/
def byteArray (n : ℕ) : Codec Error (List.Vector UInt8 n) :=
  opaqueData.refine
    (fun bs => if h : bs.length = n then .ok ⟨bs, h⟩
      else .error (.message ("invalid length " ++ toString bs.length ++
        ", expected a byte array of length " ++ toString n)))
    (fun v => v.1)
    (fun v => dif_pos v.2)
    (fun bs v h => by
      split_ifs at h with hl
      cases h
      rfl)

/-- Opaque data that has to be UTF-8; `describe` is the error when it is not. -/
def utf8 (describe : Utf8Error → Error) : Codec Error String :=
  opaqueData.refine (fun bs => (fromUtf8 bs).mapError describe) asBytes
    (fun s => by rw [fromUtf8_asBytes]; rfl)
    (fun bs s h => by
      cases hs : fromUtf8 bs with
      | error e => rw [hs] at h; cases h
      | ok t =>
        rw [hs] at h
        cases h
        exact asBytes_of_fromUtf8 bs s hs)

/-- A `String` read by the deserializer itself. -/
def string : Codec Error String :=
  utf8 (fun e => .message ("invalid UTF-8 string: " ++ e.display))

/-- A `String` under `utf8_opaque`: the conversion error is passed on as it is. -/
def utf8Opaque : Codec Error String := utf8 (fun e => .message e.display)

/-- `Vec<T>`: a count and the elements. -/
def vec {α : Type} (c : Codec Error α) : Codec Error (List α) :=
  Codec.seq eof (tooLong "sequence") c

/-- `Option<T>`: optional-data. -/
def option {α : Type} (c : Codec Error α) : Codec Error (Option α) :=
  Codec.option eof
    (fun n => .message ("invalid optional-data flag: " ++ toString n)) c

/-- The derived codec of the enum `name`. -/
def enum {E : Type} (name : String) (t : TaggedUnion Error E) : Codec Error E :=
  t.codec eof (fun n => .message ("invalid " ++ name ++ " variant: " ++ toString n))

section Scalars

variable (ν : Numbering)

@[simp] lemma unit_wf (a : Unit) : (Codec.unit : Codec Error Unit).Wf a ↔ True := Iff.rfl
@[simp] lemma unit_reads (a : Unit) : (Codec.unit : Codec Error Unit).Reads ν a ↔ True := Iff.rfl
@[simp] lemma u32_wf (a : UInt32) : u32.Wf a ↔ True := Iff.rfl
@[simp] lemma u32_reads (a : UInt32) : u32.Reads ν a ↔ True := Iff.rfl
@[simp] lemma u64_wf (a : UInt64) : u64.Wf a ↔ True := Iff.rfl
@[simp] lemma u64_reads (a : UInt64) : u64.Reads ν a ↔ True := Iff.rfl
@[simp] lemma i64_wf (a : Int64) : i64.Wf a ↔ True := Iff.rfl
@[simp] lemma i64_reads (a : Int64) : i64.Reads ν a ↔ True := Iff.rfl
@[simp] lemma bool_wf (a : Bool) : bool.Wf a ↔ True := Iff.rfl
@[simp] lemma bool_reads (a : Bool) : bool.Reads ν a ↔ True := Iff.rfl
@[simp] lemma opaqueData_wf (a : Bytes) : opaqueData.Wf a ↔ True := Iff.rfl
@[simp] lemma opaqueData_reads (a : Bytes) : opaqueData.Reads ν a ↔ True := Iff.rfl
@[simp] lemma fixedLength_wf {n : ℕ} (a : List.Vector UInt8 n) :
    (fixedLength n).Wf a ↔ True := Iff.rfl
@[simp] lemma fixedLength_reads {n : ℕ} (a : List.Vector UInt8 n) :
    (fixedLength n).Reads ν a ↔ True := Iff.rfl
@[simp] lemma byteArray_wf {n : ℕ} (a : List.Vector UInt8 n) :
    (byteArray n).Wf a ↔ True := Iff.rfl
@[simp] lemma byteArray_reads {n : ℕ} (a : List.Vector UInt8 n) :
    (byteArray n).Reads ν a ↔ True := Iff.rfl
@[simp] lemma string_wf (a : String) : string.Wf a ↔ True := Iff.rfl
@[simp] lemma string_reads (a : String) : string.Reads ν a ↔ True := Iff.rfl
@[simp] lemma utf8Opaque_wf (a : String) : utf8Opaque.Wf a ↔ True := Iff.rfl
@[simp] lemma utf8Opaque_reads (a : String) : utf8Opaque.Reads ν a ↔ True := Iff.rfl
@[simp] lemma vec_wf {α : Type} (c : Codec Error α) (l : List α) :
    (vec c).Wf l ↔ ∀ a ∈ l, c.Wf a := Iff.rfl
@[simp] lemma vec_reads {α : Type} (c : Codec Error α) (l : List α) :
    (vec c).Reads ν l ↔ ∀ a ∈ l, c.Reads ν a := Iff.rfl

end Scalars

/-- `xdr::to_bytes`: the bytes of a value as the repository's serializer writes it. -/
def toBytes {α : Type} (c : Codec Error α) (a : α) : Except Error Bytes := c.put .position a

/-- `xdr::from_bytes`: the value at the front of the input. What follows it is not looked at. -/
def fromBytes {α : Type} (c : Codec Error α) (bs : Bytes) : Except Error α :=
  (c.get bs).map Prod.fst

end Xdr

end NextNfs
