import NextNfs.Lib.Framing
import NextNfs.Proto.Rpc

set_option relaxedAutoImplicit false
set_option autoImplicit false

/-!
# The record decoder

RPC over TCP marks records: a record comes in fragments, each with a four-byte header that
gives its length and whether it is the last. This module models `XDRProtoCodec::decode` of
`proto/src/lib.rs`, which takes records off the receive buffer, and the loop around it that
calls it until it asks for more after every chunk that arrives.

`decode` collects the fragments of a record in a local variable and takes each off the buffer
as soon as it is complete. When the buffer runs out between two fragments, what was collected
is gone.

## Main definitions

* `NextNfs.nextFragment` — one round of the loop of `decode`.
* `NextNfs.assembleRecord`, `NextNfs.decode` — the loop, and the whole function.
* `NextNfs.feed` — the messages and errors that come out when chunks go in.
* `NextNfs.fragments` — the fragments as a `Wire.Framer`.

## Main results

* `NextNfs.feed_eq` — what comes out, in terms of the fragments of each chunk.
* `NextNfs.feed_chunking_invariant_iff` — when the cuts make no difference.
-/

namespace NextNfs

open Wire

/-! ### The decoder -/

/-- `MAX`: the largest fragment that is accepted. -/
def maxFragment : Nat := 8 * 1024 * 1024

/-- One round of the loop of `decode`: the fragment at the front of the buffer. -/
def nextFragment (src : Bytes) : Found String Part :=
  if src.length < 4 then .more
  else
    let fragmentHeader := ofBytes (src.take 4)
    let isLast := fragmentHeader.testBit 31
    let length := fragmentHeader % 2 ^ 31
    if length > maxFragment then
      .bad ("Frame of length " ++ toString length ++ " is too large.")
    else if src.length < 4 + length then .more
    else .frame ⟨isLast, (src.drop 4).take length⟩ (src.drop (4 + length))

/-- The loop of `decode`: the next complete record, if there is one, and what is left in the
buffer. The fragments read so far are in `messageData` only. The fuel bounds the rounds; a
round takes at least a header off the buffer. -/
def assembleRecord : Nat → Bytes → Bytes → Except String (Option Bytes) × Bytes
  | 0, src, _ => (.ok none, src)
  | fuel + 1, src, messageData =>
    match nextFragment src with
    | .more => (.ok none, src)
    | .bad e => (.error e, src)
    | .frame fragment rest =>
      if fragment.last then (.ok (some (messageData ++ fragment.data)), rest)
      else assembleRecord fuel rest (messageData ++ fragment.data)

/-- `XDRProtoCodec::decode`: the next message, if there is one, and what is left in the
buffer. -/
def decode (src : Bytes) : Except String (Option RpcCallMsg) × Bytes :=
  match assembleRecord (src.length + 1) src [] with
  | (.ok messageData, rest) => (.ok (messageData.map yieldMessage), rest)
  | (.error e, rest) => (.error e, rest)

/-- `decode` called until it returns `None`. After an error the transport does not read on, so
there is no buffer any more. -/
def drain : Nat → Bytes → List (Except String RpcCallMsg) × Option Bytes
  | 0, src => ([], some src)
  | fuel + 1, src =>
    match decode src with
    | (.ok (some msg), rest) => (.ok msg :: (drain fuel rest).1, (drain fuel rest).2)
    | (.ok none, rest) => ([], some rest)
    | (.error e, _) => ([.error e], none)

/-- Feeding chunks one after another: each is added to the buffer, which is then drained. -/
def feed : Option Bytes → List Bytes → List (Except String RpcCallMsg)
  | none, _ => []
  | some _, [] => []
  | some src, chunk :: chunks =>
    let (out, src) := drain ((src ++ chunk).length + 1) (src ++ chunk)
    out ++ feed src chunks

/-! ### Fragments -/

/-- A fragment is found exactly when its header is acceptable and all of it has arrived. -/
lemma nextFragment_eq_frame {src rest : Bytes} {fragment : Part} :
    nextFragment src = .frame fragment rest ↔
      ofBytes (src.take 4) % 2 ^ 31 ≤ maxFragment ∧
        4 + ofBytes (src.take 4) % 2 ^ 31 ≤ src.length ∧
        fragment = ⟨(ofBytes (src.take 4)).testBit 31,
          (src.drop 4).take (ofBytes (src.take 4) % 2 ^ 31)⟩ ∧
        rest = src.drop (4 + ofBytes (src.take 4) % 2 ^ 31) := by
  unfold nextFragment
  dsimp only
  split_ifs with hshort hlarge hpart
  · simp only [false_iff]
    omega
  · simp only [false_iff]
    omega
  · simp only [false_iff]
    omega
  · simp only [Found.frame.injEq]
    constructor
    · rintro ⟨rfl, rfl⟩
      exact ⟨by omega, by omega, rfl, rfl⟩
    · rintro ⟨-, -, rfl, rfl⟩
      exact ⟨rfl, rfl⟩

/-- Input is bad exactly when it starts with a header that gives too large a length. -/
lemma nextFragment_eq_bad {src : Bytes} {e : String} :
    nextFragment src = .bad e ↔ 4 ≤ src.length ∧ maxFragment < ofBytes (src.take 4) % 2 ^ 31 ∧
      e = "Frame of length " ++ toString (ofBytes (src.take 4) % 2 ^ 31) ++ " is too large." := by
  unfold nextFragment
  dsimp only
  split_ifs with hshort hlarge hpart
  · simp only [false_iff]
    omega
  · simp only [Found.bad.injEq]
    constructor
    · rintro rfl
      exact ⟨by omega, hlarge, rfl⟩
    · rintro ⟨-, -, rfl⟩
      rfl
  · simp only [false_iff]
    omega
  · simp only [false_iff]
    omega

/-- The fragments of a stream. More input changes neither a header nor a complete fragment. -/
def fragments : Framer String Part where
  next := nextFragment
  frame_append := by
    intro src fragment rest c h
    obtain ⟨hmax, hlen, rfl, rfl⟩ := nextFragment_eq_frame.1 h
    have htake : (src ++ c).take 4 = src.take 4 := List.take_append_of_le_length (by omega)
    rw [nextFragment_eq_frame, htake]
    refine ⟨hmax, by rw [List.length_append]; omega, ?_, ?_⟩
    · rw [List.drop_append_of_le_length (by omega),
        List.take_append_of_le_length (by rw [List.length_drop]; omega)]
    · rw [List.drop_append_of_le_length hlen]
  bad_append := by
    intro src e c h
    obtain ⟨hlen, hmax, rfl⟩ := nextFragment_eq_bad.1 h
    have htake : (src ++ c).take 4 = src.take 4 := List.take_append_of_le_length hlen
    rw [nextFragment_eq_bad, htake]
    exact ⟨by rw [List.length_append]; omega, hmax, rfl⟩
  rest_lt := by
    intro src fragment rest h
    obtain ⟨-, hlen, -, rfl⟩ := nextFragment_eq_frame.1 h
    rw [List.length_drop]
    omega

/-! ### What comes out -/

/-- The loop of `decode`, in terms of the fragments of the buffer. With enough fuel it stops at
the first last fragment; the record then consists of what was collected and the fragments up
to it. If there is none, all complete fragments are gone. -/
lemma assembleRecord_spec {fuel : Nat} {src : Bytes} (d : Bytes) (hfuel : src.length < fuel) :
    match assembleRecord fuel src d with
    | (.ok none, rest) =>
      endsRecord (fragments.parse src).1 = false ∧ (fragments.parse src).2 = .ok rest
    | (.error e, _) =>
      endsRecord (fragments.parse src).1 = false ∧ (fragments.parse src).2 = .error e
    | (.ok (some r), rest) =>
      rest.length < src.length ∧
        (assemble d (fragments.parse src).1).1 = r :: (assemble [] (fragments.parse rest).1).1 ∧
        (fragments.parse src).2 = (fragments.parse rest).2 := by
  induction fuel generalizing src d with
  | zero => omega
  | succ fuel ih =>
    rw [assembleRecord]
    cases hnext : nextFragment src with
    | more =>
      rw [fragments.parse_more hnext]
      exact ⟨rfl, rfl⟩
    | bad e =>
      rw [fragments.parse_bad hnext]
      exact ⟨rfl, rfl⟩
    | frame fragment rest =>
      have hlt : rest.length < src.length := fragments.rest_lt hnext
      rw [fragments.parse_frame hnext]
      dsimp only
      by_cases hlast : fragment.last = true
      · rw [if_pos hlast]
        refine ⟨hlt, ?_, rfl⟩
        rw [assemble, if_pos hlast]
      · rw [if_neg hlast]
        have hrec := ih (d ++ fragment.data) (show rest.length < fuel by omega)
        have hends : endsRecord (fragment :: (fragments.parse rest).1) =
            endsRecord (fragments.parse rest).1 := by
          simp [endsRecord, hlast]
        have hassemble : assemble d (fragment :: (fragments.parse rest).1) =
            assemble (d ++ fragment.data) (fragments.parse rest).1 := by
          rw [assemble, if_neg hlast]
        rw [hends, hassemble]
        split at hrec
        · exact hrec
        · exact hrec
        · exact ⟨hrec.1.trans hlt, hrec.2⟩

/-- The error that a parse of the buffer ends with, if it does. -/
def endError : Except String Bytes → List (Except String RpcCallMsg)
  | .ok _ => []
  | .error e => [.error e]

/-- Draining a buffer gives the messages of its records and the error it ends with, and leaves
the rest without a complete fragment. -/
lemma drain_eq {fuel : Nat} {src : Bytes} (hfuel : src.length < fuel) :
    drain fuel src =
      ((assemble [] (fragments.parse src).1).1.map (fun r => .ok (yieldMessage r)) ++
        endError (fragments.parse src).2, (fragments.parse src).2.toOption) := by
  induction fuel generalizing src with
  | zero => omega
  | succ fuel ih =>
    have hspec := assembleRecord_spec [] (Nat.lt_succ_self src.length)
    rw [drain, decode]
    split at hspec
    · rename_i rest hrec
      rw [hrec, assemble_of_not_endsRecord [] hspec.1, hspec.2]
      rfl
    · rename_i e rest hrec
      rw [hrec, assemble_of_not_endsRecord [] hspec.1, hspec.2]
      rfl
    · rename_i r rest hrec
      obtain ⟨hlt, hrecords, htail⟩ := hspec
      have hdrain := ih (show rest.length < fuel by omega)
      rw [hrec]
      dsimp only [Option.map_some]
      rw [hdrain, hrecords, htail]
      rfl

/-- Feeding chunks gives the messages of the records that each chunk completes, and the error,
if there is one. Fragments that a chunk completes count for the records of this chunk only. -/
lemma feed_eq (src : Bytes) (chunks : List Bytes) :
    feed (some src) chunks =
      (recordsEach (fragments.arrivals src chunks).1).map (fun r => .ok (yieldMessage r)) ++
        (fragments.arrivals src chunks).2.toList.map .error := by
  induction chunks generalizing src with
  | nil => rfl
  | cons chunk chunks ih =>
    rw [feed, drain_eq (Nat.lt_succ_self _), Framer.arrivals]
    cases htail : (fragments.parse (src ++ chunk)).2 with
    | error e => simp [endError, Except.toOption, feed, recordsEach]
    | ok rest => simp [endError, Except.toOption, ih, recordsEach]

/-! ### Chunking -/

/-- The fragments each chunk of a stream completes. -/
def fragmentsOf (chunks : List Bytes) : List (List Part) := (fragments.arrivals [] chunks).1

/-- Feeding chunks gives the same messages and errors as feeding the whole stream at once
exactly when every cut is harmless: no fragment of a record that carries data is completed by
an earlier chunk than the record is, or the message is the same without it.
**Proof sketch.** Both sides see the same fragments and end in the same error. Fed at once, the
records are those of all fragments; chunk by chunk they are those of each chunk's fragments. -/
theorem feed_chunking_invariant_iff (chunks : List Bytes) :
    feed (some []) chunks = feed (some []) [chunks.flatten] ↔
      BoundariesHarmless yieldMessage [] (fragmentsOf chunks) := by
  have hnil : fragments.parse [] = ([], .ok []) := fragments.parse_more rfl
  obtain ⟨hframes, herror⟩ := fragments.parse_flatten [] hnil chunks
  have hwhole : feed (some []) [chunks.flatten] =
      (assemble [] (fragmentsOf chunks).flatten).1.map (fun r => .ok (yieldMessage r)) ++
        (fragments.arrivals [] chunks).2.toList.map .error := by
    rw [List.nil_append] at hframes herror
    rw [feed, List.nil_append, drain_eq (Nat.lt_succ_self _), hframes]
    cases htail : (fragments.parse chunks.flatten).2 with
    | error e => simp [endError, (herror e).1 htail, Except.toOption, feed, fragmentsOf]
    | ok rest =>
      have hnone : (fragments.arrivals [] chunks).2 = none := by
        rw [Option.eq_none_iff_forall_ne_some]
        intro e he
        rw [(herror e).2 he] at htail
        cases htail
      simp [endError, hnone, Except.toOption, feed, fragmentsOf]
  have hmap : ∀ l : List Bytes, l.map (fun r => (.ok (yieldMessage r) : Except String RpcCallMsg)) =
      (l.map yieldMessage).map .ok := by
    intro l
    rw [List.map_map]
    rfl
  have hinj : Function.Injective (Except.ok : RpcCallMsg → Except String RpcCallMsg) := by
    intro a b h
    cases h
    rfl
  rw [feed_eq, hwhole, List.append_cancel_right_eq, hmap, hmap,
    (List.map_injective_iff.2 hinj).eq_iff]
  exact map_recordsEach_eq_iff yieldMessage [] (fragmentsOf chunks)

/-- A NULL call with xid 7 in two fragments, cut between them. -/
def splitNullCall : List Bytes :=
  [[0, 0, 0, 20] ++ nullCallRecord.take 20, [128, 0, 0, 20] ++ nullCallRecord.drop 20]

set_option maxRecDepth 2000 in
/-- Fed at once, the two fragments are a NULL call with xid 7. Fed one after the other, the
first is lost, and the second alone is taken for a record. -/
theorem cut_between_fragments_loses_first :
    feed (some []) [splitNullCall.flatten] = [.ok ⟨7, .call ⟨2, 100003, 4, 0, .authNull [],
        .authNull [], none, none⟩⟩] ∧
      feed (some []) splitNullCall = [.ok ⟨0, .parseError shortRead⟩] ∧
      feed (some []) splitNullCall ≠ feed (some []) [splitNullCall.flatten] := by
  have hwhole : feed (some []) [splitNullCall.flatten] = [.ok ⟨7, .call ⟨2, 100003, 4, 0,
      .authNull [], .authNull [], none, none⟩⟩] := rfl
  have hcut : feed (some []) splitNullCall = [.ok ⟨0, .parseError shortRead⟩] := rfl
  refine ⟨hwhole, hcut, ?_⟩
  rw [hwhole, hcut]
  simp

end NextNfs
