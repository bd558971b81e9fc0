import NextNfs.Proto.Xdr

set_option relaxedAutoImplicit false
set_option autoImplicit false

/-!
# What the lossy reading of UTF-8 loses

`String::from_utf8_lossy` replaces what is not UTF-8 by U+FFFD. This module is about which strings
come from more than one byte string.

## Main results

* `NextNfs.Xdr.utf8Width_encode`, `NextNfs.Xdr.exists_of_utf8Width` — the scan accepts the encodings
  of characters, and nothing else.
* `NextNfs.Xdr.asBytes_fromUtf8Lossy` — without U+FFFD nothing was lost.
* `NextNfs.Xdr.exists_fromUtf8Lossy_eq` — a string with U+FFFD also comes from other bytes.
-/

namespace NextNfs.Xdr

open Wire

/-! ### The width of a character -/

lemma isContinuation_iff {b : UInt8} :
    isContinuation b = true ↔ 0x80 ≤ b.toNat ∧ b.toNat < 0xC0 := by
  simp [isContinuation, UInt8.le_iff_toNat_le, UInt8.lt_iff_toNat_lt]

/-- The least and the first too large byte that may follow the first of three or four. -/
def secondLo (b : ℕ) : ℕ := if b = 0xE0 then 0xA0 else if b = 0xF0 then 0x90 else 0x80

@[inherit_doc secondLo]
def secondHi (b : ℕ) : ℕ := if b = 0xED then 0xA0 else if b = 0xF4 then 0x90 else 0xC0

/-- The scan in terms of numbers. -/
lemma utf8Width_cons (b : UInt8) (bs : Bytes) : utf8Width (b :: bs) =
    if b.toNat < 0x80 then .ok 1
    else if 0xC2 ≤ b.toNat ∧ b.toNat < 0xE0 then utf8Tail 1 1 bs
    else if 0xE0 ≤ b.toNat ∧ b.toNat < 0xF5 then
      match bs with
      | [] => .error none
      | c :: cs =>
        if secondLo b.toNat ≤ c.toNat ∧ c.toNat < secondHi b.toNat then
          utf8Tail (if b.toNat < 0xF0 then 1 else 2) 2 cs
        else .error (some 1)
    else .error (some 1) := by
  unfold utf8Width secondLo secondHi
  simp only [UInt8.le_iff_toNat_le, UInt8.lt_iff_toNat_lt, Bool.and_eq_true, decide_eq_true_eq,
    ← UInt8.toNat_inj, apply_ite UInt8.toNat]
  rfl

lemma utf8Tail_one {b : UInt8} (h : 0x80 ≤ b.toNat ∧ b.toNat < 0xC0) (seen : ℕ) (bs : Bytes) :
    utf8Tail 1 seen (b :: bs) = .ok (seen + 1) := by
  rw [utf8Tail, if_pos (isContinuation_iff.2 h)]
  rfl

lemma utf8Tail_two {b c : UInt8} (hb : 0x80 ≤ b.toNat ∧ b.toNat < 0xC0)
    (hc : 0x80 ≤ c.toNat ∧ c.toNat < 0xC0) (seen : ℕ) (bs : Bytes) :
    utf8Tail 2 seen (b :: c :: bs) = .ok (seen + 2) := by
  rw [utf8Tail, if_pos (isContinuation_iff.2 hb), utf8Tail_one hc]

lemma exists_of_utf8Tail {n seen w : ℕ} {bs : Bytes} (h : utf8Tail (n + 1) seen bs = .ok w) :
    ∃ b rest, bs = b :: rest ∧ (0x80 ≤ b.toNat ∧ b.toNat < 0xC0) ∧
      utf8Tail n (seen + 1) rest = .ok w := by
  cases bs with
  | nil => cases h
  | cons b rest =>
    rw [utf8Tail] at h
    split_ifs at h with hb
    exact ⟨b, rest, rfl, isContinuation_iff.1 hb, h⟩

/-- The encoding of a character is accepted, whatever follows it. -/
lemma utf8Width_encode (c : Char) (rest : Bytes) :
    utf8Width (String.utf8EncodeChar c ++ rest) = .ok (String.utf8EncodeChar c).length := by
  have hvalid : c.val.toNat < 0xd800 ∨ 0xdfff < c.val.toNat ∧ c.val.toNat < 0x110000 := c.valid
  unfold String.utf8EncodeChar
  generalize c.val.toNat = v at hvalid
  dsimp only
  split_ifs with h1 h2 h3
  · rw [List.cons_append, utf8Width_cons, if_pos (by simp; omega)]
    rfl
  · rw [List.cons_append, utf8Width_cons, if_neg (by simp; omega), if_pos (by simp; omega),
      List.cons_append, utf8Tail_one (by simp; omega)]
    rfl
  · rw [List.cons_append, utf8Width_cons, if_neg (by simp; omega), if_neg (by simp; omega),
      if_pos (by simp; omega)]
    simp only [List.cons_append, UInt8.toNat_ofNat', secondLo, secondHi]
    rw [if_pos (by split_ifs <;> omega), if_pos (by omega), utf8Tail_one (by simp; omega)]
    rfl
  · rw [List.cons_append, utf8Width_cons, if_neg (by simp; omega), if_neg (by simp; omega),
      if_pos (by simp; omega)]
    simp only [List.cons_append, UInt8.toNat_ofNat', secondLo, secondHi]
    rw [if_pos (by split_ifs <;> omega), if_neg (by omega),
      utf8Tail_two (by simp; omega) (by simp; omega)]
    rfl

lemma exists_char {v : ℕ} (h : v < 0xd800 ∨ 0xdfff < v ∧ v < 0x110000) :
    ∃ c : Char, c.val.toNat = v := by
  have hlt : v < 2 ^ 32 := by omega
  refine ⟨⟨UInt32.ofNat v, ?_⟩, UInt32.toNat_ofNat_of_lt' hlt⟩
  show (UInt32.ofNat v).toNat.isValidChar
  rwa [UInt32.toNat_ofNat_of_lt' hlt]

/-- A byte is what its value makes. -/
lemma ofNat_eq {n : ℕ} {b : UInt8} (h : n = b.toNat) : UInt8.ofNat n = b := by
  rw [h, UInt8.ofNat_toNat]

lemma exists_encode_one {b : UInt8} (hb : b.toNat < 0x80) :
    ∃ c, String.utf8EncodeChar c = [b] := by
  obtain ⟨c, hc⟩ := exists_char (v := b.toNat) (by omega)
  refine ⟨c, ?_⟩
  simp only [String.utf8EncodeChar, hc]
  rw [if_pos (by omega), UInt8.ofNat_toNat]

lemma exists_encode_two {b c : UInt8} (hb : 0xC2 ≤ b.toNat ∧ b.toNat < 0xE0)
    (hc : 0x80 ≤ c.toNat ∧ c.toNat < 0xC0) : ∃ ch, String.utf8EncodeChar ch = [b, c] := by
  obtain ⟨ch, hch⟩ := exists_char (v := (b.toNat - 0xC0) * 64 + (c.toNat - 0x80)) (by omega)
  refine ⟨ch, ?_⟩
  simp only [String.utf8EncodeChar, hch]
  rw [if_neg (by omega), if_pos (by omega), ofNat_eq (b := b) (by omega),
    ofNat_eq (b := c) (by omega)]

lemma exists_encode_three {b c d : UInt8} (hb : 0xE0 ≤ b.toNat ∧ b.toNat < 0xF0)
    (hc : secondLo b.toNat ≤ c.toNat ∧ c.toNat < secondHi b.toNat)
    (hd : 0x80 ≤ d.toNat ∧ d.toNat < 0xC0) : ∃ ch, String.utf8EncodeChar ch = [b, c, d] := by
  have hrange : 0x80 ≤ c.toNat ∧ c.toNat < 0xC0 ∧ (b.toNat = 0xE0 → 0xA0 ≤ c.toNat) ∧
      (b.toNat = 0xED → c.toNat < 0xA0) := by
    unfold secondLo secondHi at hc
    split_ifs at hc <;> omega
  obtain ⟨ch, hch⟩ := exists_char
    (v := (b.toNat - 0xE0) * 4096 + (c.toNat - 0x80) * 64 + (d.toNat - 0x80)) (by omega)
  refine ⟨ch, ?_⟩
  simp only [String.utf8EncodeChar, hch]
  rw [if_neg (by omega), if_neg (by omega), if_pos (by omega), ofNat_eq (b := b) (by omega),
    ofNat_eq (b := c) (by omega), ofNat_eq (b := d) (by omega)]

lemma exists_encode_four {b c d e : UInt8} (hb : 0xF0 ≤ b.toNat ∧ b.toNat < 0xF5)
    (hc : secondLo b.toNat ≤ c.toNat ∧ c.toNat < secondHi b.toNat)
    (hd : 0x80 ≤ d.toNat ∧ d.toNat < 0xC0) (he : 0x80 ≤ e.toNat ∧ e.toNat < 0xC0) :
    ∃ ch, String.utf8EncodeChar ch = [b, c, d, e] := by
  have hrange : 0x80 ≤ c.toNat ∧ c.toNat < 0xC0 ∧ (b.toNat = 0xF0 → 0x90 ≤ c.toNat) ∧
      (b.toNat = 0xF4 → c.toNat < 0x90) := by
    unfold secondLo secondHi at hc
    split_ifs at hc <;> omega
  obtain ⟨ch, hch⟩ := exists_char (v := (b.toNat - 0xF0) * 262144 + (c.toNat - 0x80) * 4096 +
    (d.toNat - 0x80) * 64 + (e.toNat - 0x80)) (by omega)
  refine ⟨ch, ?_⟩
  simp only [String.utf8EncodeChar, hch]
  rw [if_neg (by omega), if_neg (by omega), if_neg (by omega), ofNat_eq (b := b) (by omega),
    ofNat_eq (b := c) (by omega), ofNat_eq (b := d) (by omega), ofNat_eq (b := e) (by omega)]

/-- What the scan accepts is the encoding of a character. -/
lemma exists_of_utf8Width {bs : Bytes} {w : ℕ} (h : utf8Width bs = .ok w) :
    ∃ c rest, bs = String.utf8EncodeChar c ++ rest := by
  cases bs with
  | nil => cases h
  | cons b bs =>
    rw [utf8Width_cons] at h
    by_cases h1 : b.toNat < 0x80
    · obtain ⟨ch, hch⟩ := exists_encode_one h1
      exact ⟨ch, bs, by rw [hch]; rfl⟩
    rw [if_neg h1] at h
    by_cases h2 : 0xC2 ≤ b.toNat ∧ b.toNat < 0xE0
    · rw [if_pos h2] at h
      obtain ⟨c, rest, rfl, hc, -⟩ := exists_of_utf8Tail h
      obtain ⟨ch, hch⟩ := exists_encode_two h2 hc
      exact ⟨ch, rest, by rw [hch]; rfl⟩
    rw [if_neg h2] at h
    by_cases h3 : 0xE0 ≤ b.toNat ∧ b.toNat < 0xF5
    · rw [if_pos h3] at h
      cases bs with
      | nil => cases h
      | cons c bs =>
        dsimp only at h
        split_ifs at h with hc h4
        · obtain ⟨d, rest, rfl, hd, -⟩ := exists_of_utf8Tail h
          obtain ⟨ch, hch⟩ := exists_encode_three ⟨h3.1, h4⟩ hc hd
          exact ⟨ch, rest, by rw [hch]; rfl⟩
        · obtain ⟨d, rest, rfl, hd, h⟩ := exists_of_utf8Tail h
          obtain ⟨e, rest, rfl, he, -⟩ := exists_of_utf8Tail h
          obtain ⟨ch, hch⟩ := exists_encode_four ⟨not_lt.1 h4, h3.2⟩ hc hd he
          exact ⟨ch, rest, by rw [hch]; rfl⟩
    · rw [if_neg h3] at h
      cases h

/-! ### The lossy reading -/

/-- The encodings of characters, one after the other. -/
abbrev encodings (l : List Char) : Bytes := l.flatMap String.utf8EncodeChar

lemma asBytes_eq (s : String) : asBytes s = encodings s.toList := by
  have hbytes := String.toByteArray_ofList (l := s.toList)
  rw [String.ofList_toList] at hbytes
  rw [asBytes, hbytes, List.utf8Encode]
  simp

lemma encode_ne_nil (c : Char) : String.utf8EncodeChar c ≠ [] := by
  rw [← List.length_pos_iff_ne_nil, String.length_utf8EncodeChar]
  exact c.utf8Size_pos

lemma length_le_encodings (l : List Char) : l.length ≤ (encodings l).length := by
  induction l with
  | nil => simp
  | cons c l ih =>
    have hpos := List.length_pos_of_ne_nil (encode_ne_nil c)
    simp only [encodings, List.flatMap_cons, List.length_append, List.length_cons] at ih ⊢
    omega

/-- The reading of one character. -/
lemma fromUTF8?_encode (c : Char) :
    String.fromUTF8? ⟨(String.utf8EncodeChar c).toArray⟩ = some (String.singleton c) := by
  have hread := fromUtf8_asBytes (String.singleton c)
  have hbytes : asBytes (String.singleton c) = String.utf8EncodeChar c := by
    rw [asBytes_eq]
    simp [encodings]
  rw [hbytes, fromUtf8] at hread
  cases hs : String.fromUTF8? ⟨(String.utf8EncodeChar c).toArray⟩ with
  | none => rw [hs] at hread; cases hread
  | some s => rw [hs] at hread; rw [Except.ok.inj hread]

lemma lossy_encode (fuel : ℕ) (c : Char) (rest : Bytes) :
    (lossy (fuel + 1) (String.utf8EncodeChar c ++ rest)).toList =
      c :: (lossy fuel rest).toList := by
  have hwidth := utf8Width_encode c rest
  obtain ⟨b, bs, hbs⟩ := List.exists_cons_of_ne_nil (encode_ne_nil c)
  have hread := fromUTF8?_encode c
  rw [hbs] at hwidth hread ⊢
  rw [List.cons_append] at hwidth ⊢
  rw [lossy, hwidth]
  dsimp only
  · rw [← List.cons_append, List.take_left, List.drop_left, hread]
    simp
  · nofun

lemma lossy_encodings (l : List Char) (fuel : ℕ) (rest : Bytes) :
    (lossy (l.length + fuel) (encodings l ++ rest)).toList = l ++ (lossy fuel rest).toList := by
  induction l with
  | nil => simp [encodings]
  | cons c l ih =>
    rw [encodings, List.flatMap_cons, List.append_assoc, List.length_cons, Nat.add_right_comm,
      lossy_encode, ih]
    rfl

lemma lossy_nil (fuel : ℕ) : lossy fuel [] = "" := by
  cases fuel with
  | zero => rfl
  | succ fuel => rfl

/-- Without U+FFFD all the bytes were characters. -/
lemma eq_encodings_lossy {fuel : ℕ} {bs : Bytes} (hfuel : bs.length ≤ fuel)
    (h : '\uFFFD' ∉ (lossy fuel bs).toList) : bs = encodings (lossy fuel bs).toList := by
  induction fuel generalizing bs with
  | zero =>
    rw [List.length_eq_zero_iff.1 (Nat.le_zero.1 hfuel)]
    simp [lossy_nil]
  | succ fuel ih =>
    cases bs with
    | nil => simp [lossy_nil]
    | cons b bs =>
      cases hwidth : utf8Width (b :: bs) with
      | ok w =>
        obtain ⟨c, rest, heq⟩ := exists_of_utf8Width hwidth
        have hpos := List.length_pos_of_ne_nil (encode_ne_nil c)
        have hlen := congrArg List.length heq
        rw [List.length_append] at hlen
        rw [heq] at h ⊢
        rw [lossy_encode] at h ⊢
        rw [List.mem_cons, not_or] at h
        rw [encodings, List.flatMap_cons, ← encodings, ← ih (by omega) h.2]
      | error len =>
        cases len with
        | none => simp [lossy, hwidth] at h
        | some len => simp [lossy, hwidth] at h

/-- Without U+FFFD nothing was lost. -/
lemma asBytes_fromUtf8Lossy {bs : Bytes} (h : '\uFFFD' ∉ (fromUtf8Lossy bs).toList) :
    asBytes (fromUtf8Lossy bs) = bs := by
  unfold fromUtf8Lossy at h ⊢
  cases hs : fromUtf8 bs with
  | ok s => exact asBytes_of_fromUtf8 bs s hs
  | error e =>
    rw [hs] at h
    rw [asBytes_eq]
    exact (eq_encodings_lossy le_rfl h).symm

lemma notMem_encode (c : Char) : 0xFF ∉ String.utf8EncodeChar c := by
  have hvalid : c.val.toNat < 0xd800 ∨ 0xdfff < c.val.toNat ∧ c.val.toNat < 0x110000 := c.valid
  unfold String.utf8EncodeChar
  generalize c.val.toNat = v at hvalid
  dsimp only
  split_ifs <;> simp [← UInt8.toNat_inj] <;> omega

/-- A string with U+FFFD also comes from bytes that are not its own. -/
lemma exists_fromUtf8Lossy_eq {s : String} (h : '\uFFFD' ∈ s.toList) :
    ∃ bs, bs ≠ asBytes s ∧ fromUtf8Lossy bs = s := by
  obtain ⟨l, r, hs⟩ := List.append_of_mem h
  set bs := encodings l ++ 0xFF :: encodings r with hbs
  have hmem : (0xFF : UInt8) ∈ bs := by simp [hbs]
  have hnot : ∀ t, asBytes t ≠ bs := by
    rintro t ht
    rw [← ht, asBytes_eq, List.mem_flatMap] at hmem
    obtain ⟨c, -, hc⟩ := hmem
    exact notMem_encode c hc
  refine ⟨bs, (hnot s).symm, ?_⟩
  have hwidth : utf8Width (0xFF :: encodings r) = .error (some 1) := by
    rw [utf8Width_cons]
    simp
  have hl := length_le_encodings l
  have hr := length_le_encodings r
  obtain ⟨n, hn⟩ : ∃ n, bs.length = l.length + ((r.length + n) + 1) := by
    refine ⟨bs.length - (l.length + r.length + 1), ?_⟩
    rw [hbs, List.length_append, List.length_cons]
    omega
  unfold fromUtf8Lossy
  cases hread : fromUtf8 bs with
  | ok t => exact absurd (asBytes_of_fromUtf8 bs t hread) (hnot t)
  | error e =>
    apply String.toList_injective
    dsimp only
    rw [hn, hbs, lossy_encodings, hs, lossy, hwidth]
    have hrest := lossy_encodings r n []
    rw [List.append_nil, lossy_nil] at hrest
    · simp [hrest]
    · nofun

end NextNfs.Xdr
