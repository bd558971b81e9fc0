import NextNfs.Krb5.Acceptor
import NextNfs.Lib.Slices

set_option relaxedAutoImplicit false
set_option autoImplicit false

/-!
# Framed tokens

`krb5/src/token.rs` frames the tokens that establish a context: a tag, a DER length, the OID of the
mechanism, a token id and a message. `NextNfs.Krb5.parse` reads them as lists; this module reads
them as the source does, by positions in a buffer.

## Main definitions

* `NextNfs.Krb5.Token.readLen`, `NextNfs.Krb5.Token.parse` — the readers with their slices.
* `NextNfs.Krb5.Token.Encodes` — the bytes are read as a length, whatever follows them.

## Main results

* `NextNfs.Krb5.Token.token_framing` — framing round trips, with the shortest length there is, and
  the reader stays within its input.

## Implementation notes

Positions are natural numbers: they stay below the length of the buffer plus 2^32, which a 64-bit
`usize` holds.
-/

namespace NextNfs.Krb5.Token

open Wire Slices

/-- `read_len`: a DER length at a position, and the position behind it. -/
def readLen (buf : Bytes) (pos : ℕ) : Except (Halt Error) (ℕ × ℕ) := do
  let first ← getOne buf pos (.token "truncated")
  let pos := pos + 1
  if first &&& 0x80 = 0 then pure (first.toNat, pos)
  else
    let n := (first &&& 0x7f).toNat
    if n = 0 ∨ n > 4 then .error (.fail (.token "bad length"))
    else
      let bytes ← getRange buf pos (pos + n) (.token "truncated")
      pure (bytes.foldl (fun acc b => (acc <<< 8) ||| b.toNat) 0, pos + n)

/-- `parse`: the token id and the message of a framed token. -/
def parse (buf : Bytes) : Except (Halt Error) (Bytes × Bytes) :=
  if buf.head? ≠ some 0x60 then .error (.fail (.token "not a GSS initial context token"))
  else do
    let (len, pos) ← readLen buf 1
    let body ← getRange buf pos (pos + len) (.token "truncated")
    if KRB5_MECH_OID.isPrefixOf body = false then
      .error (.fail (.token "not the Kerberos V5 mechanism"))
    else
      let inner := body.drop KRB5_MECH_OID.length
      let tokId ← getRange inner 0 2 (.token "truncated")
      let message ← slice inner 2 inner.length
      pure (tokId, message)

/-! ### Lengths -/

/-- Shifts put the bytes of a word together. -/
lemma foldl_shiftLeft (bs : Bytes) :
    bs.foldl (fun acc b => (acc <<< 8) ||| b.toNat) 0 = ofBytes bs := by
  have hstep : (fun (acc : ℕ) (b : UInt8) => (acc <<< 8) ||| b.toNat) =
      fun acc b => acc * 256 + b.toNat := by
    funext acc b
    rw [← Nat.shiftLeft_add_eq_or_of_lt b.toNat_lt, Nat.shiftLeft_eq]
  rw [hstep]
  rfl

/-- The zero bytes in front of a word do not count. -/
lemma ofBytes_dropWhile (bs : Bytes) : ofBytes (bs.dropWhile (· = 0)) = ofBytes bs := by
  induction bs with
  | nil => rfl
  | cons b bs ih =>
    by_cases hb : b = 0
    · subst hb
      rw [List.dropWhile_cons_of_pos (by simp), ih, ofBytes_cons]
      simp
    · rw [List.dropWhile_cons_of_neg (by simpa using hb)]

/-- A word without zero bytes in front is not shorter than another of its value. -/
lemma length_le_of_ofBytes_eq {b : UInt8} {bs cs : Bytes} (hb : b ≠ 0)
    (h : ofBytes cs = ofBytes (b :: bs)) : bs.length + 1 ≤ cs.length := by
  have hpos : 0 < b.toNat := Nat.pos_of_ne_zero fun h0 => hb (UInt8.toNat_inj.1 h0)
  have hle : 256 ^ bs.length ≤ ofBytes cs := by
    rw [h, ofBytes_cons]
    exact le_add_right (Nat.le_mul_of_pos_left _ hpos)
  exact (Nat.pow_lt_pow_iff_right (by norm_num)).1 (hle.trans_lt (ofBytes_lt cs))

/-- What `write_len` writes for a length in the long form. -/
lemma exists_writeLen {n : ℕ} (hn : 128 ≤ n) (hlt : n < 2 ^ 32) : ∃ b bs,
    writeLen n = (0x80 ||| UInt8.ofNat (bs.length + 1)) :: b :: bs ∧ b ≠ 0 ∧ bs.length < 4 ∧
      ofBytes (b :: bs) = n := by
  have hvalue : ofBytes ((beBytes 4 n).dropWhile (· = 0)) = n := by
    rw [ofBytes_dropWhile, ofBytes_beBytes (by omega)]
  have hlen : ((beBytes 4 n).dropWhile (· = 0)).length ≤ 4 :=
    (List.dropWhile_suffix _).length_le.trans_eq (length_beBytes 4 n)
  have hhead := List.head?_dropWhile_not (· = (0 : UInt8)) (beBytes 4 n)
  unfold writeLen
  rw [if_neg (by omega)]
  cases hbytes : (beBytes 4 n).dropWhile (· = 0) with
  | nil =>
    rw [hbytes] at hvalue
    exact absurd hvalue (by simp only [ofBytes, List.foldl_nil]; omega)
  | cons b bs =>
    rw [hbytes] at hvalue hlen hhead
    refine ⟨b, bs, rfl, ?_, Nat.lt_of_succ_le hlen, hvalue⟩
    simpa using hhead

/-- The first byte of a length in the long form. -/
lemma longForm : ∀ k ≤ 4, (0x80 ||| UInt8.ofNat k) &&& 0x80 ≠ 0 ∧
    ((0x80 ||| UInt8.ofNat k) &&& 0x7f).toNat = k := by
  decide

lemma eq_longForm (first : UInt8) (h : first &&& 0x80 ≠ 0) :
    first = 0x80 ||| UInt8.ofNat (first &&& 0x7f).toNat := by
  obtain ⟨⟨first⟩⟩ := first
  revert h
  revert first
  decide +kernel

/-- The short form: the length itself. -/
lemma shortForm : ∀ n < 128, UInt8.ofNat n &&& 0x80 = 0 ∧ (UInt8.ofNat n).toNat = n := by
  decide +kernel

/-- A byte without the top bit is below 128. -/
lemma lt_of_and_eq_zero (first : UInt8) (h : first &&& 0x80 = 0) : first.toNat < 128 := by
  obtain ⟨⟨first⟩⟩ := first
  revert h
  revert first
  decide +kernel

lemma readLen_short (pre rest : Bytes) {b : UInt8} (hb : b &&& 0x80 = 0) :
    readLen (pre ++ b :: rest) pre.length = .ok (b.toNat, pre.length + 1) := by
  unfold readLen
  rw [getOne_append]
  exact if_pos hb

lemma readLen_long (pre cs rest : Bytes) {first : UInt8} (hfirst : first &&& 0x80 ≠ 0)
    (hlen : (first &&& 0x7f).toNat = cs.length) (hne : cs ≠ []) (hle : cs.length ≤ 4) :
    readLen (pre ++ first :: (cs ++ rest)) pre.length =
      .ok (ofBytes cs, pre.length + 1 + cs.length) := by
  have hpos : cs.length ≠ 0 := fun h => hne (List.length_eq_zero_iff.1 h)
  have hsplit : pre ++ first :: (cs ++ rest) = (pre ++ [first]) ++ (cs ++ rest) := by simp
  have hbytes : getRange (pre ++ first :: (cs ++ rest)) (pre.length + 1)
      (pre.length + 1 + cs.length) (.token "truncated" : Error) = .ok cs := by
    have hpre : pre.length + 1 = (pre ++ [first]).length := by simp
    rw [hsplit, hpre]
    exact getRange_append (pre ++ [first]) cs rest _
  unfold readLen
  rw [getOne_append]
  show (if first &&& 0x80 = 0 then _ else _) = _
  rw [if_neg hfirst, hlen, if_neg (by omega), hbytes, ← foldl_shiftLeft]
  rfl

/-- The forms of a length: short or long. -/
lemma cases_of_readLen {bs : Bytes} {n : ℕ} (h : readLen bs 0 = .ok (n, bs.length)) :
    (∃ b, bs = [b] ∧ b &&& 0x80 = 0 ∧ b.toNat = n) ∨
      ∃ first cs, bs = first :: cs ∧ cs ≠ [] ∧ first &&& 0x80 ≠ 0 ∧
        (first &&& 0x7f).toNat = cs.length ∧ ofBytes cs = n := by
  cases bs with
  | nil => cases h
  | cons first cs =>
    have hread : readLen (first :: cs) 0 = (if first &&& 0x80 = 0 then .ok (first.toNat, 1)
        else if (first &&& 0x7f).toNat = 0 ∨ (first &&& 0x7f).toNat > 4 then
          .error (.fail (.token "bad length"))
        else do
          let bytes ← getRange (first :: cs) 1 (1 + (first &&& 0x7f).toNat) (.token "truncated")
          pure (bytes.foldl (fun acc b => (acc <<< 8) ||| b.toNat) 0,
            1 + (first &&& 0x7f).toNat)) := rfl
    rw [hread] at h
    split_ifs at h with hshort hbad
    · obtain ⟨hn, hlen⟩ := Prod.mk.inj (Except.ok.inj h)
      have hcs : cs = [] := List.length_eq_zero_iff.1 (by simpa using hlen.symm)
      exact .inl ⟨first, by rw [hcs], hshort, hn⟩
    · cases hbytes : getRange (first :: cs) 1 (1 + (first &&& 0x7f).toNat)
          (.token "truncated" : Error) with
      | error e =>
        rw [hbytes] at h
        cases h
      | ok bytes =>
        rw [hbytes] at h
        obtain ⟨hn, hlen⟩ := Prod.mk.inj (Except.ok.inj h)
        have hk : (first &&& 0x7f).toNat = cs.length := by
          simp only [List.length_cons] at hlen
          omega
        obtain ⟨-, -, rfl⟩ := getRange_eq_ok hbytes
        have hne : cs ≠ [] := by
          rintro rfl
          exact hbad (.inl hk)
        refine .inr ⟨first, cs, rfl, hne, hshort, hk, ?_⟩
        rw [← hn, foldl_shiftLeft, hk]
        simp

/-- The bytes are read as a length, wherever they are and whatever follows them. -/
def Encodes (bs : Bytes) (n : ℕ) : Prop := Reads (ε := Error) readLen n bs

/-- What `write_len` writes is read as the length. -/
lemma encodes_writeLen {n : ℕ} (hn : n < 2 ^ 32) : Encodes (writeLen n) n := by
  intro pre rest
  by_cases hshort : n < 128
  · obtain ⟨hbit, hnat⟩ := shortForm n hshort
    have hwrite : writeLen n = [UInt8.ofNat n] := if_pos hshort
    rw [hwrite]
    have hread := readLen_short pre rest hbit
    rwa [hnat] at hread
  · obtain ⟨b, bs, hwrite, -, hlen, hvalue⟩ := exists_writeLen (not_lt.1 hshort) hn
    obtain ⟨hbit, hcount⟩ := longForm (bs.length + 1) (by omega)
    rw [hwrite]
    have hread := readLen_long pre (b :: bs) rest hbit hcount (List.cons_ne_nil _ _)
      (Nat.succ_le_of_lt hlen)
    rw [hvalue, Nat.add_assoc, Nat.add_comm 1] at hread
    exact hread

/-- What `write_len` writes is the shortest encoding of the length, and the only one of its size. -/
lemma writeLen_minimal {n : ℕ} (hn : n < 2 ^ 32) {bs : Bytes} (h : Encodes bs n) :
    (writeLen n).length ≤ bs.length ∧ (bs.length = (writeLen n).length → bs = writeLen n) := by
  have hread : readLen bs 0 = .ok (n, bs.length) := by simpa using h [] []
  by_cases hshort : n < 128
  · have hwrite : writeLen n = [UInt8.ofNat n] := if_pos hshort
    rw [hwrite]
    obtain ⟨b, rfl, -, rfl⟩ | ⟨first, cs, rfl, hne, -⟩ := cases_of_readLen hread
    · exact ⟨le_rfl, fun _ => by rw [UInt8.ofNat_toNat]⟩
    · refine ⟨by simp, fun hlen => absurd ?_ hne⟩
      exact List.length_eq_zero_iff.1 (Nat.succ_injective hlen)
  · obtain ⟨b, bs', hwrite, hb, -, hvalue⟩ := exists_writeLen (not_lt.1 hshort) hn
    rw [hwrite]
    obtain ⟨b', rfl, hbit, rfl⟩ | ⟨first, cs, rfl, -, hlong, hcount, hvalue'⟩ :=
      cases_of_readLen hread
    · exact absurd (lt_of_and_eq_zero b' hbit) hshort
    · have heq : ofBytes cs = ofBytes (b :: bs') := hvalue'.trans hvalue.symm
      refine ⟨Nat.succ_le_succ (length_le_of_ofBytes_eq hb heq), fun hlen => ?_⟩
      have hlen' : cs.length = (b :: bs').length := Nat.succ_injective hlen
      have hcs : cs = b :: bs' := by
        rw [← beBytes_ofBytes cs, ← beBytes_ofBytes (b :: bs'), heq, hlen']
      rw [eq_longForm first hlong, hcount, hlen', hcs]
      rfl

/-! ### Tokens -/

lemma inBounds_readLen (buf : Bytes) (pos : ℕ) : InBounds (readLen buf pos) := by
  refine (inBounds_getOne buf pos _).bind fun first _ => ?_
  dsimp only
  split_ifs
  · exact inBounds_ok _
  · exact inBounds_fail _
  · exact (inBounds_getRange buf _ _ _).bind fun _ _ => inBounds_ok _

/-- The reader of tokens takes no slice out of range. -/
lemma inBounds_parse (buf : Bytes) : InBounds (parse buf) := by
  unfold parse
  split_ifs
  · exact inBounds_fail _
  refine (inBounds_readLen buf 1).bind fun ⟨len, pos⟩ _ => ?_
  refine (inBounds_getRange buf _ _ _).bind fun body _ => ?_
  dsimp only
  split_ifs
  · exact inBounds_fail _
  refine (inBounds_getRange _ 0 2 _).bind fun tokId htok => ?_
  refine (inBounds_slice (getRange_eq_ok htok).2.1 le_rfl).bind fun _ _ => inBounds_ok _

lemma take_append_take_drop {α : Type} (l : List α) (n : ℕ) :
    l.take n ++ (l.drop n).take (l.length - n) = l := by
  rw [List.take_of_length_le (l := l.drop n) (by simp), List.take_append_drop]

/-- What is read of a token is a part of the buffer. -/
lemma exists_of_parse {buf tokId message : Bytes} (h : parse buf = .ok (tokId, message)) :
    ∃ pre post, buf = pre ++ (tokId ++ message) ++ post ∧ tokId.length = 2 := by
  unfold parse at h
  split_ifs at h
  obtain ⟨⟨len, pos⟩, -, h⟩ := except_bind_eq_ok.1 h
  obtain ⟨body, hbody, h⟩ := except_bind_eq_ok.1 h
  dsimp only at h
  split_ifs at h
  obtain ⟨tok, htok, h⟩ := except_bind_eq_ok.1 h
  obtain ⟨hle, hlen, rfl⟩ := getRange_eq_ok hbody
  obtain ⟨-, htwo, rfl⟩ := getRange_eq_ok htok
  rw [slice_of_le htwo le_rfl] at h
  cases h
  refine ⟨buf.take pos ++ ((buf.drop pos).take len).take KRB5_MECH_OID.length,
    buf.drop (pos + len), ?_, ?_⟩
  · rw [List.drop_zero, take_append_take_drop, Nat.add_sub_cancel_left, List.append_assoc,
      List.append_assoc, ← List.append_assoc (List.take _ (List.take _ _)), List.take_append_drop,
      ← List.drop_drop, List.take_append_drop, List.take_append_drop]
  · rw [List.length_take, List.drop_zero]
    exact min_eq_left htwo

/-- A framed token is read back, whatever follows it. -/
lemma parse_build (tokId : List.Vector UInt8 2) {message : Bytes} (h : message.length < 2 ^ 32 - 13)
    (t : Bytes) : parse (build tokId.toList message ++ t) = .ok (tokId.toList, message) := by
  obtain ⟨tokId, htok⟩ := tokId
  show parse (build tokId message ++ t) = .ok (tokId, message)
  have hbody : (KRB5_MECH_OID ++ (tokId ++ message)).length =
      KRB5_MECH_OID.length + 2 + message.length := by
    rw [List.length_append, List.length_append, htok, Nat.add_assoc]
  have hn : KRB5_MECH_OID.length + 2 + message.length < 2 ^ 32 := by
    have hoid : KRB5_MECH_OID.length = 11 := rfl
    omega
  have hbuf : build tokId message ++ t =
      [0x60] ++ (writeLen (KRB5_MECH_OID.length + 2 + message.length) ++
        ((KRB5_MECH_OID ++ (tokId ++ message)) ++ t)) := by
    simp [build]
  have hlen := encodes_writeLen hn [0x60] ((KRB5_MECH_OID ++ (tokId ++ message)) ++ t)
  have hrange := getRange_append
    ([0x60] ++ writeLen (KRB5_MECH_OID.length + 2 + message.length))
    (KRB5_MECH_OID ++ (tokId ++ message)) t (.token "truncated" : Error)
  rw [hbody, List.length_append, List.append_assoc] at hrange
  have hmessage : slice (tokId ++ message) 2 (tokId ++ message).length =
      (.ok message : Except (Halt Error) Bytes) := by
    have happend := slice_append (ε := Error) tokId message []
    rw [List.append_nil, htok] at happend
    rwa [List.length_append, htok]
  have htokId : getRange (tokId ++ message) 0 2 (.token "truncated" : Error) = .ok tokId := by
    have happend := getRange_append [] tokId message (.token "truncated" : Error)
    rwa [List.length_nil, htok, Nat.zero_add] at happend
  have hmech : KRB5_MECH_OID.isPrefixOf (KRB5_MECH_OID ++ (tokId ++ message)) = true :=
    List.isPrefixOf_iff_prefix.2 (List.prefix_append _ _)
  unfold parse
  rw [if_neg (by rw [hbuf]; simp), hbuf]
  refine except_bind_eq_ok.2 ⟨_, hlen, except_bind_eq_ok.2 ⟨_, hrange, ?_⟩⟩
  dsimp only
  rw [hmech, if_neg Bool.false_ne_true.symm, List.drop_left]
  exact except_bind_eq_ok.2 ⟨_, htokId, except_bind_eq_ok.2 ⟨_, hmessage, rfl⟩⟩

/-! ### The reader of the acceptor -/

/-- A failure of a reader on lists. -/
def lift {α : Type} : Except Error α → Except (Halt Error) α
  | .ok a => .ok a
  | .error e => .error (.fail e)

lemma readLen_eq (buf : Bytes) (pos : ℕ) :
    (∀ e, Krb5.readLen (buf.drop pos) = .error e → readLen buf pos = .error (.fail e)) ∧
      ∀ n rest, Krb5.readLen (buf.drop pos) = .ok (n, rest) →
        ∃ pos' ≤ buf.length, readLen buf pos = .ok (n, pos') ∧ rest = buf.drop pos' := by
  cases hrest : buf.drop pos with
  | nil =>
    have hone : getOne buf pos (.token "truncated" : Error) =
        .error (.fail (.token "truncated")) := by
      rw [getOne, List.getElem?_eq_none (List.drop_eq_nil_iff.1 hrest)]
    have hread : readLen buf pos = .error (.fail (.token "truncated")) := by
      unfold readLen
      rw [hone]
      rfl
    refine ⟨fun e h => ?_, fun n rest h => by cases h⟩
    cases h
    exact hread
  | cons first cs =>
    have hlt : pos < buf.length := by
      by_contra hge
      rw [List.drop_of_length_le (not_lt.1 hge)] at hrest
      cases hrest
    have hcs : cs = buf.drop (pos + 1) := by
      rw [← List.drop_drop, hrest]
      rfl
    have hone : getOne buf pos (.token "truncated" : Error) = .ok first := by
      have hget : buf[pos]? = some first := by
        rw [← Nat.add_zero pos, ← List.getElem?_drop, hrest]
        rfl
      rw [getOne, hget]
    have hlen : cs.length = buf.length - (pos + 1) := by rw [hcs, List.length_drop]
    have hread : readLen buf pos = (if first &&& 0x80 = 0 then .ok (first.toNat, pos + 1)
        else if (first &&& 0x7f).toNat = 0 ∨ (first &&& 0x7f).toNat > 4 then
          .error (.fail (.token "bad length"))
        else
          getRange buf (pos + 1) (pos + 1 + (first &&& 0x7f).toNat) (.token "truncated") >>=
            fun bytes => pure (bytes.foldl (fun acc b => (acc <<< 8) ||| b.toNat) 0,
              pos + 1 + (first &&& 0x7f).toNat)) := by
      unfold readLen
      rw [hone]
      rfl
    rw [hread, Krb5.readLen]
    generalize (first &&& 0x7f).toNat = n
    dsimp only
    split_ifs with hshort hbad htrunc
    · refine ⟨by simp, fun n rest h => ?_⟩
      cases h
      exact ⟨pos + 1, hlt, rfl, hcs⟩
    · refine ⟨fun e h => ?_, by simp⟩
      cases h
      rfl
    · refine ⟨fun e h => ?_, by simp⟩
      cases h
      rw [getRange, if_neg (by omega)]
      rfl
    · refine ⟨by simp, fun n' rest h => ?_⟩
      cases h
      refine ⟨pos + 1 + n, by omega, ?_, by rw [hcs, List.drop_drop]⟩
      rw [getRange, if_pos ⟨Nat.le_add_right _ _, by omega⟩, Nat.add_sub_cancel_left, ← hcs,
        ← foldl_shiftLeft]
      rfl

/-- The acceptor reads tokens so. -/
lemma parse_eq (buf : Bytes) : parse buf = lift (Krb5.parse buf) := by
  unfold parse Krb5.parse
  split_ifs with htag
  · rfl
  obtain ⟨herror, hok⟩ := readLen_eq buf 1
  cases hread : Krb5.readLen (buf.drop 1) with
  | error e =>
    rw [herror e hread]
    rfl
  | ok r =>
    obtain ⟨len, rest⟩ := r
    obtain ⟨pos, hpos, hread', rfl⟩ := hok len rest hread
    rw [hread']
    show (getRange buf pos (pos + len) _ >>= _) =
      lift (if (buf.drop pos).length < len then _ else _)
    rw [List.length_drop]
    by_cases htrunc : buf.length - pos < len
    · rw [if_pos htrunc, getRange, if_neg (by omega)]
      rfl
    rw [if_neg htrunc, getRange, if_pos ⟨Nat.le_add_right _ _, by omega⟩, Nat.add_sub_cancel_left]
    show (if _ then _ else _) = lift (if _ then _ else _)
    split_ifs with hoid
    · rfl
    generalize ((buf.drop pos).take len).drop KRB5_MECH_OID.length = inner
    show (getRange inner 0 2 _ >>= _) = lift (if inner.length < 2 then _ else _)
    by_cases hshort : inner.length < 2
    · rw [if_pos hshort, getRange, if_neg (by omega)]
      rfl
    · rw [if_neg hshort, getRange, if_pos ⟨Nat.zero_le _, not_lt.1 hshort⟩]
      show (slice inner 2 _ >>= _) = _
      rw [slice_of_le (not_lt.1 hshort) le_rfl,
        List.take_of_length_le (l := inner.drop 2) (by simp)]
      rfl

/-- **GSS token framing.** What `build` makes of a token id and a message is read back by `parse`,
whatever follows it; its length is the shortest encoding there is, which `read_len` inverts; and on
every input `parse` fails or gives a part of it, and takes no slice out of range.

**Proof sketch.** `write_len` drops the zero bytes in front of a word, so that what is left is read
as the same number, and a shorter word is below it. -/
theorem token_framing :
    (∀ (tokId : List.Vector UInt8 2) (message t : Bytes), message.length < 2 ^ 32 - 13 →
      parse (build tokId.toList message ++ t) = .ok (tokId.toList, message) ∧
      build tokId.toList message =
        0x60 :: (writeLen (13 + message.length) ++ KRB5_MECH_OID ++ tokId.toList ++ message) ∧
      Encodes (writeLen (13 + message.length)) (13 + message.length) ∧
      ∀ bs, Encodes bs (13 + message.length) →
        (writeLen (13 + message.length)).length ≤ bs.length ∧
          (bs.length = (writeLen (13 + message.length)).length →
            bs = writeLen (13 + message.length))) ∧
    ∀ buf, InBounds (parse buf) ∧ ∀ tokId message, parse buf = .ok (tokId, message) →
      ∃ pre post, buf = pre ++ (tokId ++ message) ++ post ∧ tokId.length = 2 := by
  refine ⟨fun tokId message t h => ?_, fun buf => ⟨inBounds_parse buf, fun _ _ => exists_of_parse⟩⟩
  have hlt : 13 + message.length < 2 ^ 32 := by omega
  exact ⟨parse_build tokId h t, rfl, encodes_writeLen hlt, fun bs => writeLen_minimal hlt⟩

/-- **GSS token framing**, of a message of 200 bytes. -/
theorem token_framing_long :
    parse (build TOK_ID_AP_REP (List.replicate 200 0)) = .ok (TOK_ID_AP_REP, List.replicate 200 0) ∧
      writeLen 213 = [0x81, 0xd5] := by
  have h := (token_framing.1 ⟨TOK_ID_AP_REP, rfl⟩ (List.replicate 200 0) []
    (by rw [List.length_replicate]; norm_num)).1
  rw [List.append_nil] at h
  exact ⟨h, by decide⟩

end NextNfs.Krb5.Token
