import NextNfs.Krb5.Acceptor
import NextNfs.Lib.Slices

set_option relaxedAutoImplicit false
set_option autoImplicit false

/-!
# Keytab files

`krb5/src/keytab.rs` reads the file that holds the server's keys: slots with a signed size each, a
negative size for a slot that was deleted.

## Main definitions

* `NextNfs.Krb5.Keytab.parse`, `NextNfs.Krb5.Keytab.toBytes` — the reader and the writer.
* `NextNfs.Krb5.Keytab.Slot` — what a keytab is made of, with the bytes of each slot.

## Main results

* `NextNfs.Krb5.Keytab.keytab_parsing` — the live entries are read in order, what is written is read
  back, and the reader stays within its input.

## Implementation notes

An error is the text of `Error::Keytab`. Positions are natural numbers: they stay below the length
of the file plus 2^31.
-/

namespace NextNfs.Krb5.Keytab

open Wire Slices

/-- `KeytabEntry`: what the acceptor uses of an entry, and the rest. -/
structure Entry extends KeytabEntry where
  nameType : UInt32
  timestamp : UInt32

/-! ### The reader of an entry -/

/-- `Reader::take`. -/
def take (n : ℕ) : Reader String UInt8 Bytes := fun buf pos =>
  if pos + n ≤ buf.length then do
    let s ← slice buf pos (pos + n)
    pure (s, pos + n)
  else .error (.fail "truncated entry")

/-- The next `n` bytes as a word, of which `try_into` expects the size. -/
def word (n : ℕ) : Reader String UInt8 ℕ := do
  let s ← take n
  if s.length = n then pure (ofBytes s) else fun _ _ => .error .panic

/-- `Reader::u8`. -/
def u8 : Reader String UInt8 UInt8 := do
  match ← take 1 with
  | b :: _ => pure b
  | [] => fun _ _ => .error .panic

/-- `Reader::u16`. -/
def u16 : Reader String UInt8 ℕ := word 2

/-- `Reader::u32`. -/
def u32 : Reader String UInt8 UInt32 := UInt32.ofNat <$> word 4

/-- `Reader::data`. -/
def data : Reader String UInt8 Bytes := do
  let n ← u16
  take n

/-- `Reader::string`. -/
def string : Reader String UInt8 String := Xdr.fromUtf8Lossy <$> data

/-- `(0..n).map(|_| r.string())`. -/
def strings : ℕ → Reader String UInt8 (List String)
  | 0 => pure []
  | n + 1 => do
    let s ← string
    let rest ← strings n
    pure (s :: rest)

/-- The 32-bit kvno if there is one that is not zero, the 8-bit one otherwise. -/
def kvno (kvno8 : UInt8) : Reader String UInt8 UInt32 := fun buf pos =>
  match u32 buf pos with
  | .ok (v, pos) => .ok (if v ≠ 0 then v else kvno8.toUInt32, pos)
  | .error (.fail _) => .ok (kvno8.toUInt32, pos)
  | .error .panic => .error .panic

/-- The body of a slot. -/
def entry : Reader String UInt8 Entry := do
  let n ← u16
  let realm ← string
  let components ← strings n
  let nameType ← u32
  let timestamp ← u32
  let kvno8 ← u8
  let enctype ← u16
  let key ← data
  let kvno ← kvno kvno8
  pure { realm, components, kvno, enctype, key, nameType, timestamp }

/-- `i32::from_be_bytes`. -/
def i32 (bs : Bytes) : ℤ :=
  let n := ofBytes bs
  if n < 2 ^ 31 then n else n - 2 ^ 32

/-- The loop of `Keytab::parse`, at a position and with the entries before it. -/
def parseFrom (bytes : Bytes) (pos : ℕ) (entries : List Entry) :
    Except (Halt String) (List Entry) :=
  if _h : pos + 4 ≤ bytes.length then do
    let word ← slice bytes pos (pos + 4)
    let size := i32 word
    let len := size.natAbs
    if len = 0 then pure entries
    else
      let body ← getRange bytes (pos + 4) (pos + 4 + len) "truncated entry"
      if size < 0 then parseFrom bytes (pos + 4 + len) entries
      else
        let e ← entry body 0
        parseFrom bytes (pos + 4 + len) (entries ++ [e.1])
  else pure entries
termination_by bytes.length - pos

/-- `Keytab::parse`. -/
def parse (bytes : Bytes) : Except (Halt String) (List Entry) :=
  match bytes.take 2 with
  | [5, 2] => parseFrom bytes 2 []
  | [5, 1] => .error (.fail "keytab version 0x0501 is not supported")
  | _ => .error (.fail "not a keytab (bad magic)")

/-! ### The writer -/

/-- A string with its length, of 16 bits. -/
def counted (bs : Bytes) : Bytes := beBytes 2 bs.length ++ bs

/-- The body of a slot, up to the 32-bit kvno. -/
def Entry.fields (e : Entry) (kvno8 : UInt8) : Bytes :=
  beBytes 2 e.components.length ++
    ((e.realm :: e.components).map fun s => counted (Xdr.asBytes s)).flatten ++
    beBytes 4 e.nameType.toNat ++ beBytes 4 e.timestamp.toNat ++ [kvno8] ++
    beBytes 2 (e.enctype % 2 ^ 16).toNat ++ counted e.key

/-- A slot with its size. -/
def slot (size : ℤ) (body : Bytes) : Bytes := beBytes 4 (size % 2 ^ 32).toNat ++ body

/-- The body that `to_bytes` writes. -/
def Entry.body (e : Entry) : Bytes := e.fields e.kvno.toUInt8 ++ beBytes 4 e.kvno.toNat

/-- `Keytab::to_bytes`. -/
def toBytes (entries : List Entry) : Bytes :=
  [5, 2] ++ (entries.map fun e => slot e.body.length e.body).flatten

/-! ### What a keytab is made of -/

/-- A slot of a keytab: an entry, with or without the 32-bit kvno, or a deleted one. -/
inductive Slot
  | live (e : Entry) (kvno8 : UInt8) (kvno32 : Option UInt32)
  | deleted (data : Bytes)

/-- The bytes of the 32-bit kvno, if it is there. -/
def trailer : Option UInt32 → Bytes
  | some v => beBytes 4 v.toNat
  | none => []

/-- The kvno of an entry. -/
def kvnoOf (kvno8 : UInt8) : Option UInt32 → UInt32
  | some v => if v ≠ 0 then v else kvno8.toUInt32
  | none => kvno8.toUInt32

namespace Slot

/-- The bytes of a slot. -/
def bytes : Slot → Bytes
  | .live e kvno8 kvno32 =>
    let body := e.fields kvno8 ++ trailer kvno32
    slot body.length body
  | .deleted data => slot (-data.length) data

/-- The entry in a slot. -/
def entry? : Slot → Option Entry
  | .live e kvno8 kvno32 => some { e with kvno := kvnoOf kvno8 kvno32 }
  | .deleted _ => none

/-- The sizes that the format has room for. -/
def Fits : Slot → Prop
  | .live e kvno8 kvno32 =>
    e.components.length < 2 ^ 16 ∧
      (∀ s ∈ e.realm :: e.components, (Xdr.asBytes s).length < 2 ^ 16) ∧
      e.key.length < 2 ^ 16 ∧ 0 ≤ e.enctype ∧ e.enctype < 2 ^ 16 ∧
      (e.fields kvno8 ++ trailer kvno32).length < 2 ^ 31
  | .deleted data => 0 < data.length ∧ data.length ≤ 2 ^ 31

end Slot

/-! ### Reading an entry -/

lemma take_append (pre bs rest : Bytes) :
    take bs.length (pre ++ (bs ++ rest)) pre.length = .ok (bs, pre.length + bs.length) := by
  unfold take
  rw [if_pos (by simp), slice_append]
  rfl

lemma reads_take {n : ℕ} {bs : Bytes} (h : bs.length = n) : Reads (take n) bs bs := by
  subst h
  exact fun pre rest => take_append pre bs rest

lemma reads_word {n : ℕ} {bs : Bytes} (h : bs.length = n) : Reads (word n) (ofBytes bs) bs := by
  intro pre rest
  unfold word
  rw [(reads_take h).step, if_pos h, List.length_append]
  rfl

lemma reads_u8 (b : UInt8) : Reads u8 b [b] := by
  intro pre rest
  have htake : Reads (take 1) [b] [b] := reads_take rfl
  unfold u8
  rw [htake.step, List.length_append]
  rfl

lemma reads_u16 {n : ℕ} (h : n < 2 ^ 16) : Reads u16 n (beBytes 2 n) := by
  have hword := reads_word (length_beBytes 2 n)
  rwa [ofBytes_beBytes (by omega)] at hword

lemma reads_u32 (v : UInt32) : Reads u32 v (beBytes 4 v.toNat) := by
  have hword := (reads_word (length_beBytes 4 v.toNat)).map UInt32.ofNat
  rwa [ofBytes_beBytes (by have := v.toNat_lt; omega), UInt32.ofNat_toNat] at hword

lemma reads_data {bs : Bytes} (h : bs.length < 2 ^ 16) : Reads data bs (counted bs) :=
  (reads_u16 h).bind (reads_take rfl)

lemma reads_string {s : String} (h : (Xdr.asBytes s).length < 2 ^ 16) :
    Reads string s (counted (Xdr.asBytes s)) := by
  have hdata := (reads_data h).map Xdr.fromUtf8Lossy
  rwa [Xdr.fromUtf8Lossy_asBytes] at hdata

lemma reads_strings {ss : List String} (h : ∀ s ∈ ss, (Xdr.asBytes s).length < 2 ^ 16) :
    Reads (strings ss.length) ss (ss.map fun s => counted (Xdr.asBytes s)).flatten := by
  induction ss with
  | nil => exact reads_pure []
  | cons s ss ih =>
    have hrest := ih fun s hs => h s (List.mem_cons_of_mem _ hs)
    exact (reads_string (h s List.mem_cons_self)).bind (hrest.map (s :: ·))

/-- What is left of the body decides on the kvno. -/
lemma kvno_eq (pre : Bytes) (kvno8 : UInt8) (kvno32 : Option UInt32) :
    ∃ pos, kvno kvno8 (pre ++ trailer kvno32) pre.length = .ok (kvnoOf kvno8 kvno32, pos) := by
  cases kvno32 with
  | some v =>
    have hread := reads_u32 v pre []
    rw [List.append_nil] at hread
    refine ⟨pre.length + (beBytes 4 v.toNat).length, ?_⟩
    unfold kvno
    rw [trailer, hread]
    rfl
  | none =>
    have hread : u32 (pre ++ trailer none) pre.length = .error (.fail "truncated entry") := by
      have htake : take 4 (pre ++ trailer none) pre.length = .error (.fail "truncated entry") :=
        if_neg (by simp [trailer])
      show (take 4 (pre ++ trailer none) pre.length >>= _ >>= _) = _
      rw [htake]
      rfl
    refine ⟨pre.length, ?_⟩
    unfold kvno
    rw [hread]
    rfl

/-- The body of a live slot. -/
lemma entry_eq {e : Entry} {kvno8 : UInt8} {kvno32 : Option UInt32}
    (h : (Slot.live e kvno8 kvno32).Fits) : ∃ pos,
      entry (e.fields kvno8 ++ trailer kvno32) 0 =
        .ok ({ e with kvno := kvnoOf kvno8 kvno32 }, pos) := by
  obtain ⟨hcount, hstrings, hkey, hpos, hlt, -⟩ := h
  have hrealm := reads_string (hstrings e.realm List.mem_cons_self)
  have hcomponents := reads_strings fun s hs => hstrings s (List.mem_cons_of_mem _ hs)
  have hmod : e.enctype % 2 ^ 16 = e.enctype := Int.emod_eq_of_lt hpos hlt
  have henctype : (e.enctype % 2 ^ 16).toNat < 2 ^ 16 := by omega
  have hparts : e.fields kvno8 ++ trailer kvno32 =
      [] ++ (beBytes 2 e.components.length ++ (counted (Xdr.asBytes e.realm) ++
        ((e.components.map fun s => counted (Xdr.asBytes s)).flatten ++
        (beBytes 4 e.nameType.toNat ++ (beBytes 4 e.timestamp.toNat ++ ([kvno8] ++
        (beBytes 2 (e.enctype % 2 ^ 16).toNat ++ (counted e.key ++ trailer kvno32)))))))) := by
    simp only [Entry.fields, List.map_cons, List.flatten_cons, List.append_assoc, List.nil_append]
  rw [hparts]
  show ∃ pos, entry _ ([] : Bytes).length = _
  unfold entry
  rw [(reads_u16 hcount).step, hrealm.step, hcomponents.step, (reads_u32 e.nameType).step,
    (reads_u32 e.timestamp).step, (reads_u8 kvno8).step, (reads_u16 henctype).step,
    (reads_data hkey).step]
  generalize [] ++ beBytes 2 e.components.length ++ _ ++ _ ++ _ ++ _ ++ _ ++ _ ++ _ = pre
  obtain ⟨pos, hkvno⟩ := kvno_eq pre kvno8 kvno32
  refine ⟨pos, ?_⟩
  show (kvno kvno8 (pre ++ trailer kvno32) pre.length >>= _) = _
  rw [hkvno, Int.toNat_of_nonneg (by omega), hmod]
  rfl

/-! ### The slots of a keytab -/

/-- The size of a slot is read as it is written. -/
lemma i32_beBytes {size : ℤ} (hlo : -2 ^ 31 ≤ size) (hhi : size < 2 ^ 31) :
    i32 (beBytes 4 (size % 2 ^ 32).toNat) = size := by
  have hlt : (size % 2 ^ 32).toNat < 256 ^ 4 := by
    have hmod : size % 2 ^ 32 < 2 ^ 32 := Int.emod_lt_of_pos _ (by norm_num)
    norm_num at hmod ⊢
    omega
  unfold i32
  rw [ofBytes_beBytes hlt]
  dsimp only
  split_ifs <;> omega

/-- What `parseFrom` does with a slot. -/
lemma parseFrom_slot (pre body rest : Bytes) (entries : List Entry) {size : ℤ}
    (hsize : size.natAbs = body.length) (hpos : body ≠ []) (hlo : -2 ^ 31 ≤ size)
    (hhi : size < 2 ^ 31) :
    parseFrom (pre ++ (slot size body ++ rest)) pre.length entries =
      if size < 0 then
        parseFrom ((pre ++ slot size body) ++ rest) (pre ++ slot size body).length entries
      else entry body 0 >>= fun e =>
        parseFrom ((pre ++ slot size body) ++ rest) (pre ++ slot size body).length
          (entries ++ [e.1]) := by
  have hne : body.length ≠ 0 := fun h => hpos (List.length_eq_zero_iff.1 h)
  have hbuf : pre ++ (slot size body ++ rest) =
      pre ++ (beBytes 4 (size % 2 ^ 32).toNat ++ (body ++ rest)) := by simp [slot]
  have hlen : (pre ++ slot size body).length = pre.length + 4 + body.length := by
    simp [slot, Nat.add_assoc]
  have hword := slice_append (ε := String) pre (beBytes 4 (size % 2 ^ 32).toNat) (body ++ rest)
  rw [length_beBytes, ← hbuf] at hword
  have hbody := getRange_append (pre ++ beBytes 4 (size % 2 ^ 32).toNat) body rest "truncated entry"
  rw [List.append_assoc, ← hbuf, List.length_append, length_beBytes] at hbody
  have hin : pre.length + 4 ≤ (pre ++ (slot size body ++ rest)).length := by
    simp [slot]
  rw [parseFrom, dif_pos hin, hword, except_ok_bind]
  dsimp only
  rw [i32_beBytes hlo hhi, hsize, if_neg hne, hbody, except_ok_bind, ← hlen, List.append_assoc]

lemma parseFrom_bytes {slot : Slot} (h : slot.Fits) (pre rest : Bytes) (entries : List Entry) :
    parseFrom (pre ++ (slot.bytes ++ rest)) pre.length entries =
      parseFrom ((pre ++ slot.bytes) ++ rest) (pre ++ slot.bytes).length
        (entries ++ slot.entry?.toList) := by
  cases slot with
  | live e kvno8 kvno32 =>
    obtain ⟨pos, hentry⟩ := entry_eq h
    obtain ⟨-, -, -, -, -, hlen⟩ := h
    have hne : e.fields kvno8 ++ trailer kvno32 ≠ [] := by
      simp [Entry.fields]
    unfold Slot.bytes
    rw [parseFrom_slot pre _ rest entries (Int.natAbs_natCast _) hne (by omega) (by omega),
      if_neg (by omega), hentry]
    rfl
  | deleted data =>
    obtain ⟨hpos, hle⟩ := h
    have hne : data ≠ [] := List.ne_nil_of_length_pos hpos
    unfold Slot.bytes
    rw [parseFrom_slot pre data rest entries (by omega) hne (by omega) (by omega),
      if_pos (by omega)]
    simp [Slot.entry?]

/-- The loop over a row of slots. -/
lemma parseFrom_slots {slots : List Slot} (h : ∀ s ∈ slots, s.Fits) (pre : Bytes)
    (entries : List Entry) :
    parseFrom (pre ++ (slots.map Slot.bytes).flatten) pre.length entries =
      .ok (entries ++ slots.filterMap Slot.entry?) := by
  induction slots generalizing pre entries with
  | nil =>
    rw [parseFrom, dif_neg (by simp)]
    simp
    rfl
  | cons s slots ih =>
    rw [List.map_cons, List.flatten_cons, parseFrom_bytes (h s List.mem_cons_self),
      ih fun t ht => h t (List.mem_cons_of_mem _ ht)]
    cases hs : s.entry? with
    | none => simp [hs]
    | some e => simp [hs]

lemma parse_slots {slots : List Slot} (h : ∀ s ∈ slots, s.Fits) :
    parse ([5, 2] ++ (slots.map Slot.bytes).flatten) = .ok (slots.filterMap Slot.entry?) :=
  parseFrom_slots h [5, 2] []

/-- An entry as `to_bytes` writes it. -/
def Entry.written (e : Entry) : Slot := .live e e.kvno.toUInt8 (some e.kvno)

lemma entry?_written (e : Entry) : e.written.entry? = some e := by
  have hkvno : kvnoOf e.kvno.toUInt8 (some e.kvno) = e.kvno := by
    show (if e.kvno ≠ 0 then e.kvno else e.kvno.toUInt8.toUInt32) = e.kvno
    split_ifs with h
    · rfl
    · rw [not_not.1 h]
      rfl
  show some { e with kvno := _ } = _
  rw [hkvno]

lemma parse_toBytes {entries : List Entry} (h : ∀ e ∈ entries, e.written.Fits) :
    parse (toBytes entries) = .ok entries := by
  have hfits : ∀ s ∈ entries.map Entry.written, s.Fits := by simpa using h
  have hslots := parse_slots hfits
  rw [List.map_map, List.filterMap_map] at hslots
  have hentries : entries.filterMap (Slot.entry? ∘ Entry.written) = entries := by
    rw [show Slot.entry? ∘ Entry.written = some from funext entry?_written, List.filterMap_some]
  rw [hentries] at hslots
  exact hslots

/-! ### The reader stays within its input -/

lemma safe_take (n : ℕ) : (take n).Safe := by
  intro buf pos
  unfold take
  split_ifs with h
  · exact (inBounds_slice (Nat.le_add_right _ _) h).bind fun _ _ => inBounds_ok _
  · exact inBounds_fail _

/-- What is taken has the length that was asked for. -/
lemma length_of_take {n : ℕ} {buf s : Bytes} {pos pos' : ℕ} (h : take n buf pos = .ok (s, pos')) :
    s.length = n := by
  unfold take at h
  split_ifs at h with hle
  rw [slice_of_le (Nat.le_add_right _ _) hle] at h
  cases h
  rw [List.length_take, List.length_drop]
  omega

lemma safe_word (n : ℕ) : (word n).Safe := by
  intro buf pos
  refine (safe_take n buf pos).bind fun ⟨s, pos'⟩ htake => ?_
  dsimp only
  rw [if_pos (length_of_take htake)]
  exact inBounds_ok _

lemma safe_u8 : u8.Safe := by
  intro buf pos
  refine (safe_take 1 buf pos).bind fun ⟨s, pos'⟩ htake => ?_
  cases s with
  | nil => exact absurd (length_of_take htake) nofun
  | cons b s => exact inBounds_ok _

lemma safe_u32 : u32.Safe := (safe_word 4).map _

lemma safe_data : data.Safe := (safe_word 2).bind safe_take

lemma safe_string : string.Safe := safe_data.map _

lemma safe_strings (n : ℕ) : (strings n).Safe := by
  induction n with
  | zero => exact Reader.safe_pure []
  | succ n ih => exact safe_string.bind fun s => ih.bind fun rest => Reader.safe_pure (s :: rest)

lemma safe_kvno (kvno8 : UInt8) : (kvno kvno8).Safe := by
  intro buf pos
  have hread := safe_u32 buf pos
  unfold kvno
  cases h : u32 buf pos with
  | ok r => exact inBounds_ok _
  | error halt =>
    cases halt with
    | fail e => exact inBounds_ok _
    | panic => exact absurd h hread

lemma safe_entry : entry.Safe := by
  refine (safe_word 2).bind fun n => safe_string.bind fun realm => ?_
  refine (safe_strings n).bind fun components => safe_u32.bind fun nameType => ?_
  refine safe_u32.bind fun timestamp => safe_u8.bind fun kvno8 => ?_
  refine (safe_word 2).bind fun enctype => safe_data.bind fun key => ?_
  exact (safe_kvno kvno8).bind fun kvno => Reader.safe_pure _

lemma inBounds_parseFrom (bytes : Bytes) (pos : ℕ) (entries : List Entry) :
    InBounds (parseFrom bytes pos entries) := by
  induction hleft : bytes.length - pos using Nat.strong_induction_on generalizing pos entries with
  | h left ih =>
    rw [parseFrom]
    split_ifs with hin
    · refine (inBounds_slice (Nat.le_add_right _ _) hin).bind fun word _ => ?_
      dsimp only
      have hnext : ∀ entries,
          InBounds (parseFrom bytes (pos + 4 + (i32 word).natAbs) entries) := fun entries =>
        ih _ (by omega) _ _ rfl
      split_ifs with hzero
      · exact inBounds_ok entries
      · exact (inBounds_getRange bytes _ _ _).bind fun body _ => hnext entries
      · refine (inBounds_getRange bytes _ _ _).bind fun body _ => ?_
        exact (safe_entry body 0).bind fun e _ => hnext _
    · exact inBounds_ok entries

/-- The reader of keytabs takes no slice out of range. -/
lemma inBounds_parse (bytes : Bytes) : InBounds (parse bytes) := by
  unfold parse
  split
  · exact inBounds_parseFrom bytes 2 []
  · exact inBounds_fail _
  · exact inBounds_fail _

/-- **Keytab parsing.** The live entries are read in order, between deleted slots of any size, with
the 32-bit kvno if it is there and not zero; what is written is read back; and no input makes the
reader take a slice out of range.

**Proof sketch.** Every field is read back at any position with anything behind it, up to the kvno,
for which the rest of the body decides. The loop goes past each slot, and its position grows by at
least four. -/
theorem keytab_parsing :
    (∀ slots : List Slot, (∀ s ∈ slots, s.Fits) →
      parse ([5, 2] ++ (slots.map Slot.bytes).flatten) = .ok (slots.filterMap Slot.entry?)) ∧
    (∀ entries : List Entry, (∀ e ∈ entries, e.written.Fits) →
      parse (toBytes entries) = .ok entries) ∧
    ∀ bytes, InBounds (parse bytes) :=
  ⟨fun _ => parse_slots, fun _ => parse_toBytes, inBounds_parse⟩

/-- A service key. -/
def serviceKey : Entry where
  realm := "EXAMPLE.LO"
  components := ["nfs", "server"]
  kvno := 300
  enctype := 18
  key := List.replicate 32 0x11
  nameType := 2
  timestamp := 1700000000

/-- **Keytab parsing**, of an entry with its 32-bit kvno, a deleted slot and the entry without it.
-/
theorem keytab_parsing_slots :
    parse ([5, 2] ++ ([Slot.live serviceKey 44 (some 300), .deleted [0, 0],
      .live serviceKey 7 none].map Slot.bytes).flatten) = .ok [serviceKey, { serviceKey with kvno := 7 }] ∧
    parse (toBytes [serviceKey]) = .ok [serviceKey] := by
  have hlive : ∀ kvno8 kvno32, (serviceKey.fields kvno8 ++ trailer kvno32).length < 2 ^ 31 →
      (Slot.live serviceKey kvno8 kvno32).Fits := fun kvno8 kvno32 hlen =>
    ⟨by decide, by decide, by decide, by decide, by decide, hlen⟩
  refine ⟨keytab_parsing.1 _ fun s hs => ?_, keytab_parsing.2.1 _ fun e he => ?_⟩
  · simp only [List.mem_cons, List.not_mem_nil, or_false] at hs
    obtain rfl | rfl | rfl := hs
    · exact hlive 44 (some 300) (by decide)
    · exact ⟨by decide, by decide⟩
    · exact hlive 7 none (by decide)
  · rw [List.mem_singleton.1 he]
    exact hlive _ _ (by decide)

end NextNfs.Krb5.Keytab
