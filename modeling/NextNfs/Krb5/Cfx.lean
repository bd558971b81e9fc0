import NextNfs.Krb5.Crypto

set_option relaxedAutoImplicit false
set_option autoImplicit false

/-!
# Per-message tokens

This module models `krb5/src/cfx.rs`: the MIC and Wrap tokens that the two sides of a context send.

## Main definitions

* `NextNfs.Krb5.Sender` — the side that sends a token.
* `NextNfs.Krb5.ContextKey.getMic`, `NextNfs.Krb5.ContextKey.verifyMic`.
* `NextNfs.Krb5.ContextKey.wrap`, `NextNfs.Krb5.ContextKey.unwrap`.
* `NextNfs.Krb5.rotated` — a token with its body rotated right.
* `NextNfs.Krb5.ContextKey.peerSealed` — a sealed token with filler.

## Main results

* `NextNfs.Krb5.tokens_round_trip` — tokens are taken by the other side, and by it only.
-/

namespace NextNfs.Krb5

open Wire Blocks

/-- `KG_USAGE_ACCEPTOR_SEAL`. -/
def KG_USAGE_ACCEPTOR_SEAL : UInt32 := 22

/-- `KG_USAGE_ACCEPTOR_SIGN`. -/
def KG_USAGE_ACCEPTOR_SIGN : UInt32 := 23

/-- `KG_USAGE_INITIATOR_SEAL`. -/
def KG_USAGE_INITIATOR_SEAL : UInt32 := 24

/-- `KG_USAGE_INITIATOR_SIGN`. -/
def KG_USAGE_INITIATOR_SIGN : UInt32 := 25

/-- `FLAG_SENT_BY_ACCEPTOR`. -/
def FLAG_SENT_BY_ACCEPTOR : UInt8 := 0x01

/-- `FLAG_SEALED`. -/
def FLAG_SEALED : UInt8 := 0x02

/-- `FLAG_ACCEPTOR_SUBKEY`. -/
def FLAG_ACCEPTOR_SUBKEY : UInt8 := 0x04

/-- `TOK_MIC`. -/
def TOK_MIC : Bytes := [0x04, 0x04]

/-- `TOK_WRAP`. -/
def TOK_WRAP : Bytes := [0x05, 0x04]

/-- `Sender`. -/
inductive Sender
  | initiator | acceptor
deriving DecidableEq

namespace Sender

/-- `flag`. -/
def flag : Sender → UInt8
  | acceptor => FLAG_SENT_BY_ACCEPTOR
  | initiator => 0

/-- `sign_usage`. -/
def signUsage : Sender → UInt32
  | acceptor => KG_USAGE_ACCEPTOR_SIGN
  | initiator => KG_USAGE_INITIATOR_SIGN

/-- `seal_usage`. -/
def sealUsage : Sender → UInt32
  | acceptor => KG_USAGE_ACCEPTOR_SEAL
  | initiator => KG_USAGE_INITIATOR_SEAL

end Sender

/-- The header of a MIC token. -/
def micHeader (flags : UInt8) (seq : UInt64) : Bytes :=
  TOK_MIC ++ [flags, 0xff, 0xff, 0xff, 0xff, 0xff] ++ beBytes 8 seq.toNat

/-- The header of a Wrap token. -/
def wrapHeader (flags : UInt8) (ec rrc : UInt16) (seq : UInt64) : Bytes :=
  TOK_WRAP ++ [flags, 0xff] ++ beBytes 2 ec.toNat ++ beBytes 2 rrc.toNat ++ beBytes 8 seq.toNat

namespace ContextKey

variable (P : Primitives) (k : ContextKey)

/-- `flags`. -/
def flags (sender : Sender) : UInt8 :=
  sender.flag ||| if k.acceptorSubkey then FLAG_ACCEPTOR_SUBKEY else 0

/-- `check_flags`. -/
def checkFlags (flags : UInt8) (sender : Sender) : Except Error Unit :=
  if flags &&& FLAG_SENT_BY_ACCEPTOR ≠ sender.flag then
    .error (.token "token sent in the wrong direction")
  else if (flags &&& FLAG_ACCEPTOR_SUBKEY != 0) ≠ k.acceptorSubkey then
    .error (.token "AcceptorSubkey flag does not match the context")
  else .ok ()

/-- `get_mic`. -/
def getMic (sender : Sender) (seq : UInt64) (message : Bytes) : Except Error Bytes := do
  let header := micHeader (k.flags sender) seq
  let cksum ← checksum P k.enctype k.key sender.signUsage [message, header]
  pure (header ++ cksum)

/-- `verify_mic`. -/
def verifyMic (sender : Sender) (message token : Bytes) : Except Error UInt64 :=
  if token.length < 16 ∨ token.take 2 ≠ TOK_MIC ∨
      (token.drop 3).take 5 ≠ [0xff, 0xff, 0xff, 0xff, 0xff] then
    .error (.token "not a MIC token")
  else do
    k.checkFlags (token.getD 2 0) sender
    let header := token.take 16
    let cksum := token.drop 16
    let want ← checksum P k.enctype k.key sender.signUsage [message, header]
    if !ctEq want cksum then .error .integrity
    else pure (UInt64.ofNat (ofBytes (header.drop 8)))

/-- `wrap`, with what `random_bytes(16)` gives. -/
def wrap (random : Except Error Block) (sender : Sender) (seq : UInt64) (isSealed : Bool)
    (message : Bytes) : Except Error Bytes :=
  let header := wrapHeader (k.flags sender ||| if isSealed then FLAG_SEALED else 0) 0 0 seq
  if isSealed then do
    let body ← encrypt P random k.enctype k.key sender.sealUsage (message ++ header)
    pure (header ++ body)
  else do
    let cksum ← checksum P k.enctype k.key sender.sealUsage [message, header]
    let header := header.take 4 ++ beBytes 2 cksum.length ++ header.drop 6
    pure (header ++ message ++ cksum)

/-- `unwrap`. -/
def unwrap (sender : Sender) (token : Bytes) : Except Error (Bytes × Bool × UInt64) :=
  if token.length < 16 ∨ token.take 2 ≠ TOK_WRAP ∨ token.getD 3 0 ≠ 0xff then
    .error (.token "not a Wrap token")
  else do
    let flags := token.getD 2 0
    k.checkFlags flags sender
    let isSealed := flags &&& FLAG_SEALED != 0
    let ec := ofBytes ((token.drop 4).take 2)
    let rrc := ofBytes ((token.drop 6).take 2)
    let seq := UInt64.ofNat (ofBytes ((token.drop 8).take 8))
    let rest := token.drop 16
    let data := if rest = [] then [] else rest.drop (rrc % rest.length) ++ rest.take (rrc % rest.length)
    let header := token.take 6 ++ [0, 0] ++ (token.take 16).drop 8
    if isSealed then
      let plain ← decrypt P k.enctype k.key sender.sealUsage data
      if plain.length < 16 + ec then .error (.token "sealed Wrap token too short")
      else
        let inner := plain.drop (plain.length - 16)
        let plain := plain.take (plain.length - 16)
        if !ctEq inner header then .error .integrity
        else pure (plain.take (plain.length - ec), true, seq)
    else
      let h := k.enctype.hmacLen
      if ec ≠ h ∨ data.length < h then .error (.token "bad Wrap checksum length")
      else
        let message := data.take (data.length - h)
        let cksum := data.drop (data.length - h)
        let header := header.take 4 ++ [0, 0] ++ header.drop 6
        let want ← checksum P k.enctype k.key sender.sealUsage [message, header]
        if !ctEq want cksum then .error .integrity
        else pure (message, false, seq)

/-- A sealed token of a peer that puts filler behind the message, and says how much in EC. -/
def peerSealed (sender : Sender) (seq : UInt64) (message : Bytes) (ec : UInt16)
    (filler : List.Vector UInt8 ec.toNat) (confounder : Block) : Except Error Bytes := do
  let header := wrapHeader (k.flags sender ||| FLAG_SEALED) ec 0 seq
  let body ← encryptWithConfounder P k.enctype k.key sender.sealUsage
    (message ++ filler.toList ++ header) confounder
  pure (header ++ body)

end ContextKey

/-- A token with RRC in its header and its body rotated right by as much. -/
def rotated (rrc : UInt16) (token : Bytes) : Bytes :=
  token.take 6 ++ beBytes 2 rrc.toNat ++ (token.drop 8).take 8 ++
    (token.drop 16).rotateRight rrc.toNat

/-! ### Headers -/

@[simp] lemma length_wrapHeader (flags : UInt8) (ec rrc : UInt16) (seq : UInt64) :
    (wrapHeader flags ec rrc seq).length = 16 := rfl

@[simp] lemma length_micHeader (flags : UInt8) (seq : UInt64) : (micHeader flags seq).length = 16 :=
  rfl

lemma rotated_wrapHeader (flags : UInt8) (ec rrc rrc' : UInt16) (seq : UInt64) (body : Bytes) :
    rotated rrc (wrapHeader flags ec rrc' seq ++ body) =
      wrapHeader flags ec rrc seq ++ body.rotateRight rrc.toNat := rfl

/-- A rotation to the right is undone. -/
lemma unrotate (body : Bytes) (n : ℕ) :
    (if body.rotateRight n = [] then [] else
      (body.rotateRight n).drop (n % (body.rotateRight n).length) ++
        (body.rotateRight n).take (n % (body.rotateRight n).length)) = body := by
  by_cases hle : body.length ≤ 1
  · have hself : body.rotateRight n = body := by rw [List.rotateRight]; simp [hle]
    rw [hself]
    split_ifs with hnil
    · exact hnil.symm
    · have hone : body.length = 1 := le_antisymm hle (List.length_pos_of_ne_nil hnil)
      rw [hone, Nat.mod_one, List.drop_zero, List.take_zero, List.append_nil]
  · have hlt : n % body.length < body.length := Nat.mod_lt _ (by omega)
    set i := body.length - n % body.length with hi
    have hrot : body.rotateRight n = body.drop i ++ body.take i := by
      rw [List.rotateRight]
      simp [hle, hi]
    have hlen : (body.rotateRight n).length = body.length := by
      rw [hrot, List.length_append, List.length_drop, List.length_take]
      omega
    have hdrop : (body.drop i).length = n % body.length := by
      rw [List.length_drop]
      omega
    rw [hlen, if_neg (fun hnil => by rw [hnil, List.length_nil] at hlen; omega), hrot, ← hdrop,
      List.drop_left, List.take_left, List.take_append_drop]

/-! ### Flags -/

section Flags

variable (k k' : ContextKey) (s s' : Sender) (subkey isSealed : Bool)

lemma sender_bit : (s.flag ||| (if subkey then FLAG_ACCEPTOR_SUBKEY else 0) |||
    if isSealed then FLAG_SEALED else 0) &&& FLAG_SENT_BY_ACCEPTOR = s.flag := by
  cases s <;> cases subkey <;> cases isSealed <;> decide

lemma subkey_bit : ((s.flag ||| (if subkey then FLAG_ACCEPTOR_SUBKEY else 0) |||
    if isSealed then FLAG_SEALED else 0) &&& FLAG_ACCEPTOR_SUBKEY != 0) = subkey := by
  cases s <;> cases subkey <;> cases isSealed <;> decide

lemma sealed_bit : ((s.flag ||| (if subkey then FLAG_ACCEPTOR_SUBKEY else 0) |||
    if isSealed then FLAG_SEALED else 0) &&& FLAG_SEALED != 0) = isSealed := by
  cases s <;> cases subkey <;> cases isSealed <;> decide

/-- The flags of a token say which side made it and with which kind of key. -/
lemma checkFlags_flags : k.checkFlags (k'.flags s' ||| if isSealed then FLAG_SEALED else 0) s =
    if s'.flag ≠ s.flag then .error (.token "token sent in the wrong direction")
    else if k'.acceptorSubkey ≠ k.acceptorSubkey then
      .error (.token "AcceptorSubkey flag does not match the context")
    else .ok () := by
  rw [ContextKey.checkFlags, ContextKey.flags, sender_bit, subkey_bit]

/-- A context takes the flags of its own tokens. -/
lemma checkFlags_self : k.checkFlags (k.flags s ||| if isSealed then FLAG_SEALED else 0) s = .ok () := by
  rw [checkFlags_flags, if_neg (by simp), if_neg (by simp)]

variable {k k' s s'}

/-- The flags of a token for the other direction, or made with another kind of key, are refused. -/
lemma checkFlags_of_ne (h : s' ≠ s ∨ k'.acceptorSubkey ≠ k.acceptorSubkey) :
    ∃ e, k.checkFlags (k'.flags s' ||| if isSealed then FLAG_SEALED else 0) s = .error e := by
  rw [checkFlags_flags]
  split_ifs with hdir hsubkey
  · exact ⟨_, rfl⟩
  · exact ⟨_, rfl⟩
  · have hsame : s' = s := by
      cases s <;> cases s' <;> first | rfl | exact absurd (by decide) hdir
    exact absurd h (not_or.2 ⟨not_not.2 hsame, hsubkey⟩)

end Flags

/-! ### Round trips -/

section RoundTrip

variable (P : Primitives) (k : ContextKey) (s : Sender) (seq : UInt64) (message : Bytes)

lemma ofBytes_seq : UInt64.ofNat (ofBytes (beBytes 8 seq.toNat)) = seq := by
  rw [ofBytes_beBytes seq.toNat_lt, UInt64.ofNat_toNat]

/-- A MIC is made with a key of the enctype's length, and verified. -/
lemma verifyMic_getMic (hk : k.key.length = k.enctype.keyLen) :
    ∃ token, k.getMic P s seq message = .ok token ∧ k.verifyMic P s message token = .ok seq := by
  obtain ⟨cksum, hcksum, -⟩ := exists_checksum P k.enctype k.key s.signUsage hk
    [message, micHeader (k.flags s) seq]
  refine ⟨micHeader (k.flags s) seq ++ cksum, by rw [ContextKey.getMic, hcksum]; rfl, ?_⟩
  have htake : (micHeader (k.flags s) seq ++ cksum).take 16 = micHeader (k.flags s) seq := rfl
  have hdrop : (micHeader (k.flags s) seq ++ cksum).drop 16 = cksum := rfl
  have hflags : (micHeader (k.flags s) seq ++ cksum).getD 2 0 = k.flags s := rfl
  have hseq : (micHeader (k.flags s) seq).drop 8 = beBytes 8 seq.toNat := rfl
  have hguard : ¬ ((micHeader (k.flags s) seq ++ cksum).length < 16 ∨
      (micHeader (k.flags s) seq ++ cksum).take 2 ≠ TOK_MIC ∨
        ((micHeader (k.flags s) seq ++ cksum).drop 3).take 5 ≠ [0xff, 0xff, 0xff, 0xff, 0xff]) := by
    rintro (hlen | hid | hfill)
    · rw [List.length_append, length_micHeader] at hlen
      omega
    · exact hid rfl
    · exact hfill rfl
  have hcheck : k.checkFlags (k.flags s) s = .ok () := by simpa using checkFlags_self k s false
  rw [ContextKey.verifyMic, if_neg hguard, hflags, hcheck, except_ok_bind, htake, hdrop]
  simp only
  rw [hcksum, except_ok_bind, ctEq_self, hseq, ofBytes_seq]
  rfl

variable {P k s seq message}

/-- The guards and the fields of a Wrap token. -/
lemma unwrap_wrapHeader (flags : UInt8) (ec rrc : UInt16) (body data : Bytes)
    (hdata : (if body = [] then [] else
      body.drop (rrc.toNat % body.length) ++ body.take (rrc.toNat % body.length)) = data) :
    k.unwrap P s (wrapHeader flags ec rrc seq ++ body) = (do
      k.checkFlags flags s
      if flags &&& FLAG_SEALED != 0 then
        let plain ← decrypt P k.enctype k.key s.sealUsage data
        if plain.length < 16 + ec.toNat then .error (.token "sealed Wrap token too short")
        else
          let inner := plain.drop (plain.length - 16)
          let plain := plain.take (plain.length - 16)
          if !ctEq inner (wrapHeader flags ec 0 seq) then .error .integrity
          else pure (plain.take (plain.length - ec.toNat), true, seq)
      else
        let h := k.enctype.hmacLen
        if ec.toNat ≠ h ∨ data.length < h then .error (.token "bad Wrap checksum length")
        else
          let message := data.take (data.length - h)
          let cksum := data.drop (data.length - h)
          let want ← checksum P k.enctype k.key s.sealUsage [message, wrapHeader flags 0 0 seq]
          if !ctEq want cksum then .error .integrity
          else pure (message, false, seq)) := by
  have hguard : ¬ ((wrapHeader flags ec rrc seq ++ body).length < 16 ∨
      (wrapHeader flags ec rrc seq ++ body).take 2 ≠ TOK_WRAP ∨
        (wrapHeader flags ec rrc seq ++ body).getD 3 0 ≠ 0xff) := by
    rintro (hlen | hid | hfill)
    · rw [List.length_append, length_wrapHeader] at hlen
      omega
    · exact hid rfl
    · exact hfill rfl
  have hec : ofBytes (((wrapHeader flags ec rrc seq ++ body).drop 4).take 2) = ec.toNat :=
    ofBytes_beBytes (k := 2) (n := ec.toNat) ec.toNat_lt
  have hrrc : ofBytes (((wrapHeader flags ec rrc seq ++ body).drop 6).take 2) = rrc.toNat :=
    ofBytes_beBytes (k := 2) (n := rrc.toNat) rrc.toNat_lt
  have hseq : UInt64.ofNat (ofBytes (((wrapHeader flags ec rrc seq ++ body).drop 8).take 8)) = seq :=
    ofBytes_seq seq
  have hbody : (wrapHeader flags ec rrc seq ++ body).drop 16 = body := rfl
  rw [ContextKey.unwrap, if_neg hguard]
  simp only [hec, hrrc, hseq, hbody, hdata]
  rfl

variable (P s seq message) in
/-- A sealed token with any filler is opened, whatever its rotation. -/
lemma unwrap_sealed (hk : k.key.length = k.enctype.keyLen) (ec rrc : UInt16)
    {filler : Bytes} (hfiller : filler.length = ec.toNat) (confounder : Block) :
    ∃ body, encryptWithConfounder P k.enctype k.key s.sealUsage (message ++ filler ++
        wrapHeader (k.flags s ||| FLAG_SEALED) ec 0 seq) confounder = .ok body ∧
      k.unwrap P s (wrapHeader (k.flags s ||| FLAG_SEALED) ec rrc seq ++
        body.rotateRight rrc.toNat) = .ok (message, true, seq) := by
  set header := wrapHeader (k.flags s ||| FLAG_SEALED) ec 0 seq with hheader
  obtain ⟨body, hbody, -, hback⟩ := decrypt_encryptWithConfounder P k.enctype k.key s.sealUsage hk
    (message ++ filler ++ header) confounder
  refine ⟨body, hbody, ?_⟩
  have hcheck := checkFlags_self k s true
  have hsealed := sealed_bit s k.acceptorSubkey true
  rw [if_pos rfl] at hcheck hsealed
  rw [← ContextKey.flags] at hsealed
  have hlen : (message ++ filler ++ header).length =
      (message ++ filler).length + 16 := by
    rw [List.length_append, hheader, length_wrapHeader]
  have hfront : (message ++ filler).length - ec.toNat = message.length := by
    rw [List.length_append, hfiller, Nat.add_sub_cancel]
  rw [unwrap_wrapHeader _ ec rrc _ body (unrotate body rrc.toNat), hcheck, except_ok_bind, hsealed,
    if_pos rfl, hback, except_ok_bind, if_neg (by rw [hlen, List.length_append, hfiller]; omega)]
  simp only
  rw [hlen, Nat.add_sub_cancel, List.drop_left, List.take_left, ctEq_self, hfront, List.take_left]
  rfl

variable (P s seq message) in
/-- A token that is not sealed is opened, whatever its rotation. -/
lemma unwrap_signed (hk : k.key.length = k.enctype.keyLen) (rrc : UInt16) :
    ∃ cksum : Bytes, checksum P k.enctype k.key s.sealUsage
        [message, wrapHeader (k.flags s ||| 0) 0 0 seq] = .ok cksum ∧
      cksum.length = k.enctype.hmacLen ∧
      k.unwrap P s (wrapHeader (k.flags s ||| 0) (UInt16.ofNat cksum.length) rrc seq ++
        (message ++ cksum).rotateRight rrc.toNat) = .ok (message, false, seq) := by
  obtain ⟨cksum, hcksum, hlen⟩ := exists_checksum P k.enctype k.key s.sealUsage hk
    [message, wrapHeader (k.flags s ||| 0) 0 0 seq]
  refine ⟨cksum, hcksum, hlen, ?_⟩
  have hcheck := checkFlags_self k s false
  have hsealed := sealed_bit s k.acceptorSubkey false
  rw [← ContextKey.flags] at hsealed
  rw [if_neg Bool.false_ne_true] at hcheck hsealed
  have hec : (UInt16.ofNat cksum.length).toNat = k.enctype.hmacLen := by
    rw [hlen]
    cases k.enctype <;> rfl
  have hdata : (message ++ cksum).length - k.enctype.hmacLen = message.length := by
    rw [List.length_append, hlen, Nat.add_sub_cancel]
  rw [unwrap_wrapHeader _ _ rrc _ (message ++ cksum) (unrotate _ _), hcheck, except_ok_bind, hsealed]
  simp only [Bool.false_eq_true, if_false]
  rw [if_neg (by rw [hec, List.length_append, hlen]; omega), hdata, List.take_left, List.drop_left,
    hcksum, except_ok_bind, ctEq_self]
  rfl

variable (P k s)

/-- A token is opened, whatever its rotation. -/
def Opens (token : Bytes) (r : Bytes × Bool × UInt64) : Prop :=
  k.unwrap P s token = .ok r ∧ ∀ rrc, k.unwrap P s (rotated rrc token) = .ok r

/-- A token is refused, whatever its rotation. -/
def Refuses (token : Bytes) : Prop :=
  (∃ e, k.unwrap P s token = .error e) ∧ ∀ rrc, ∃ e, k.unwrap P s (rotated rrc token) = .error e

variable {P k s}

/-- Without rotation RRC is zero. -/
lemma opens_of_rotated {flags : UInt8} {ec : UInt16} {body : Bytes} {r : Bytes × Bool × UInt64}
    (h : ∀ rrc, k.unwrap P s (wrapHeader flags ec rrc seq ++ body.rotateRight rrc.toNat) = .ok r) :
    Opens P k s (wrapHeader flags ec 0 seq ++ body) r := by
  refine ⟨?_, h⟩
  have h0 := h 0
  rwa [show (0 : UInt16).toNat = 0 from rfl, List.rotateRight_zero] at h0

variable (P s seq message) in
/-- A sealed token is opened, with any filler. -/
lemma opens_sealed (hk : k.key.length = k.enctype.keyLen) {ec : UInt16} {filler : Bytes}
    (hfiller : filler.length = ec.toNat) (confounder : Block) :
    ∃ body, encryptWithConfounder P k.enctype k.key s.sealUsage (message ++ filler ++
        wrapHeader (k.flags s ||| FLAG_SEALED) ec 0 seq) confounder = .ok body ∧
      Opens P k s (wrapHeader (k.flags s ||| FLAG_SEALED) ec 0 seq ++ body)
        (message, true, seq) := by
  obtain ⟨body, hbody, -⟩ := unwrap_sealed P s seq message hk ec 0 hfiller confounder
  refine ⟨body, hbody, opens_of_rotated fun rrc => ?_⟩
  obtain ⟨body', hbody', h⟩ := unwrap_sealed P s seq message hk ec rrc hfiller confounder
  rw [hbody] at hbody'
  cases hbody'
  exact h

variable (P s seq message) in
/-- A sealed token of `wrap` is opened. -/
lemma opens_wrap_sealed (hk : k.key.length = k.enctype.keyLen) (confounder : Block) :
    ∃ token, k.wrap P (.ok confounder) s seq true message = .ok token ∧
      Opens P k s token (message, true, seq) := by
  have hnil : ([] : Bytes).length = (0 : UInt16).toNat := rfl
  obtain ⟨body, hbody, h⟩ := opens_sealed P s seq message hk hnil confounder
  rw [List.append_nil] at hbody
  refine ⟨_, ?_, h⟩
  rw [ContextKey.wrap, if_pos rfl, if_pos rfl, encrypt, except_ok_bind, hbody]
  rfl

variable (P s seq message) in
/-- A token of `wrap` that is not sealed is opened. -/
lemma opens_wrap_signed (hk : k.key.length = k.enctype.keyLen) (random : Except Error Block) :
    ∃ token, k.wrap P random s seq false message = .ok token ∧
      Opens P k s token (message, false, seq) := by
  obtain ⟨cksum, hcksum, hlen, -⟩ := unwrap_signed P s seq message hk 0
  have hec : beBytes 2 cksum.length = beBytes 2 (UInt16.ofNat cksum.length).toNat := by
    rw [hlen]
    cases k.enctype <;> rfl
  refine ⟨wrapHeader (k.flags s ||| 0) (UInt16.ofNat cksum.length) 0 seq ++ (message ++ cksum),
    ?_, opens_of_rotated fun rrc => ?_⟩
  · rw [ContextKey.wrap, if_neg Bool.false_ne_true, if_neg Bool.false_ne_true, hcksum,
      except_ok_bind, hec, ← List.append_assoc]
    rfl
  · obtain ⟨cksum', hcksum', -, h⟩ := unwrap_signed P s seq message hk rrc
    rw [hcksum] at hcksum'
    cases hcksum'
    exact h

/-- The header of a token of `wrap`. -/
lemma header_of_wrap {random : Except Error Block} {isSealed : Bool} {token : Bytes}
    (h : k.wrap P random s seq isSealed message = .ok token) : ∃ ec body,
      token = wrapHeader (k.flags s ||| if isSealed then FLAG_SEALED else 0) ec 0 seq ++ body := by
  cases isSealed with
  | true =>
    rw [ContextKey.wrap, if_pos rfl] at h
    obtain ⟨body, -, h⟩ := except_bind_eq_ok.1 h
    cases h
    exact ⟨0, body, rfl⟩
  | false =>
    rw [ContextKey.wrap, if_neg Bool.false_ne_true] at h
    obtain ⟨cksum, hcksum, h⟩ := except_bind_eq_ok.1 h
    obtain ⟨kc, -, hc⟩ := except_bind_eq_ok.1 hcksum
    have hlen : cksum.length = k.enctype.hmacLen := by
      cases hc
      exact length_take_hmac P k.enctype kc _
    have hec : beBytes 2 cksum.length = beBytes 2 (UInt16.ofNat cksum.length).toNat := by
      rw [hlen]
      cases k.enctype <;> rfl
    cases h
    refine ⟨UInt16.ofNat cksum.length, message ++ cksum, ?_⟩
    rw [hec, List.append_assoc]
    rfl

/-- A token with the flags of the other direction or of another kind of key is refused. -/
lemma refuses_of_ne {k' : ContextKey} {s' : Sender}
    (h : s' ≠ s ∨ k'.acceptorSubkey ≠ k.acceptorSubkey) (isSealed : Bool) (ec : UInt16)
    (seq : UInt64) (body : Bytes) : Refuses P k s
      (wrapHeader (k'.flags s' ||| if isSealed then FLAG_SEALED else 0) ec 0 seq ++ body) := by
  obtain ⟨e, he⟩ := checkFlags_of_ne isSealed h
  refine ⟨⟨e, ?_⟩, fun rrc => ⟨e, ?_⟩⟩
  · rw [unwrap_wrapHeader _ ec 0 body _ rfl, he]
    rfl
  · rw [rotated_wrapHeader, unwrap_wrapHeader _ ec rrc _ _ rfl, he]
    rfl

/-- A MIC of the other direction or of another kind of key is refused. -/
lemma verifyMic_of_ne {k' : ContextKey} {s' : Sender}
    (h : s' ≠ s ∨ k'.acceptorSubkey ≠ k.acceptorSubkey) {token : Bytes}
    (htoken : k'.getMic P s' seq message = .ok token) (message' : Bytes) :
    ∃ e, k.verifyMic P s message' token = .error e := by
  obtain ⟨cksum, -, heq⟩ := except_bind_eq_ok.1 htoken
  cases heq
  obtain ⟨e, he⟩ := checkFlags_of_ne false h
  rw [if_neg Bool.false_ne_true, UInt8.or_zero] at he
  have hflags : (micHeader (k'.flags s') seq ++ cksum).getD 2 0 = k'.flags s' := rfl
  rw [ContextKey.verifyMic]
  split_ifs with hguard
  · exact ⟨_, rfl⟩
  · refine ⟨e, ?_⟩
    rw [hflags, he]
    rfl

/-- A key of another length makes no checksum. -/
lemma checksum_of_ne (h : k.key.length ≠ k.enctype.keyLen) (usage : UInt32) (parts : List Bytes)
    (c : Bytes) : checksum P k.enctype k.key usage parts ≠ .ok c := by
  obtain ⟨e, he⟩ := derive_of_ne P k.enctype k.key usage h 0x99
  rw [checksum, he]
  rintro ⟨⟩

/-- A key of another length encrypts nothing. -/
lemma encryptWithConfounder_of_ne (h : k.key.length ≠ k.enctype.keyLen) (usage : UInt32)
    (plaintext : Bytes) (confounder : Block) (c : Bytes) :
    encryptWithConfounder P k.enctype k.key usage plaintext confounder ≠ .ok c := by
  obtain ⟨e, he⟩ := derive_of_ne P k.enctype k.key usage h 0xAA
  rw [encryptWithConfounder, he]
  rintro ⟨⟩

/-- Only a key of the enctype's length makes a MIC. -/
lemma length_of_getMic {token : Bytes} (h : k.getMic P s seq message = .ok token) :
    k.key.length = k.enctype.keyLen := by
  by_contra hne
  obtain ⟨cksum, hcksum, -⟩ := except_bind_eq_ok.1 h
  exact checksum_of_ne hne _ _ _ hcksum

/-- Only a key of the enctype's length wraps. -/
lemma length_of_wrap {random : Except Error Block} {isSealed : Bool} {token : Bytes}
    (h : k.wrap P random s seq isSealed message = .ok token) :
    k.key.length = k.enctype.keyLen := by
  by_contra hne
  cases isSealed with
  | true =>
    rw [ContextKey.wrap, if_pos rfl] at h
    obtain ⟨body, hbody, -⟩ := except_bind_eq_ok.1 h
    obtain ⟨confounder, -, hbody⟩ := except_bind_eq_ok.1 hbody
    exact encryptWithConfounder_of_ne hne _ _ _ _ hbody
  | false =>
    rw [ContextKey.wrap, if_neg Bool.false_ne_true] at h
    obtain ⟨cksum, hcksum, -⟩ := except_bind_eq_ok.1 h
    exact checksum_of_ne hne _ _ _ hcksum

/-- A token of `wrap` is opened. -/
lemma opens_of_wrap {random : Except Error Block} {isSealed : Bool} {token : Bytes}
    (h : k.wrap P random s seq isSealed message = .ok token) :
    Opens P k s token (message, isSealed, seq) := by
  have hk := length_of_wrap h
  cases isSealed with
  | true =>
    cases random with
    | error e => exact absurd h (by rw [ContextKey.wrap, if_pos rfl]; nofun)
    | ok confounder =>
      obtain ⟨token', htoken', hopens⟩ :=
        opens_wrap_sealed P s seq message hk confounder
      rw [h] at htoken'
      cases htoken'
      exact hopens
  | false =>
    obtain ⟨token', htoken', hopens⟩ :=
      opens_wrap_signed P s seq message hk random
    rw [h] at htoken'
    cases htoken'
    exact hopens

/-- A token of a peer is opened. -/
lemma opens_of_peerSealed {ec : UInt16} {filler : List.Vector UInt8 ec.toNat} {confounder : Block}
    {token : Bytes} (h : k.peerSealed P s seq message ec filler confounder = .ok token) :
    Opens P k s token (message, true, seq) := by
  obtain ⟨body, hbody, heq⟩ := except_bind_eq_ok.1 h
  cases heq
  have hk : k.key.length = k.enctype.keyLen := by
    by_contra hne
    exact encryptWithConfounder_of_ne hne _ _ _ _ hbody
  obtain ⟨body', hbody', hopens⟩ := opens_sealed P s seq message hk filler.toList_length confounder
  rw [hbody] at hbody'
  cases hbody'
  exact hopens

variable (P k s seq message)

/-- **The per-message token round trip.** What one side makes the other side takes: a MIC is
verified with its sequence number, and a Wrap token, sealed or not, gives back the message, whatever
RRC its body is rotated by and whatever filler a peer puts in. Tokens for the other direction, or
made with another kind of key, are refused. A key of the enctype's length makes every token for
which there are random bytes.

**Proof sketch.** The header that is sealed in, or that is under the checksum, has RRC zero (and EC
zero if it is not sealed in), and the receiver puts these in before it compares. Its body is the one
that was sent once the rotation is undone, and of a sealed body decryption gives the plaintext. -/
theorem tokens_round_trip :
    (∀ token, k.getMic P s seq message = .ok token →
      k.verifyMic P s message token = .ok seq) ∧
    (∀ random isSealed token, k.wrap P random s seq isSealed message = .ok token →
      Opens P k s token (message, isSealed, seq)) ∧
    (∀ ec filler confounder token, k.peerSealed P s seq message ec filler confounder = .ok token →
      Opens P k s token (message, true, seq)) ∧
    (∀ (k' : ContextKey) (s' : Sender), s' ≠ s ∨ k'.acceptorSubkey ≠ k.acceptorSubkey →
      (∀ token message', k'.getMic P s' seq message = .ok token →
        ∃ e, k.verifyMic P s message' token = .error e) ∧
      (∀ random isSealed token, k'.wrap P random s' seq isSealed message = .ok token →
        Refuses P k s token) ∧
      ∀ ec filler confounder token,
        k'.peerSealed P s' seq message ec filler confounder = .ok token → Refuses P k s token) ∧
    (k.key.length = k.enctype.keyLen →
      (∃ token, k.getMic P s seq message = .ok token) ∧
      ∀ isSealed confounder, ∃ token,
        k.wrap P (.ok confounder) s seq isSealed message = .ok token) := by
  refine ⟨fun token h => ?_, fun random isSealed token => opens_of_wrap,
    fun ec filler confounder token => opens_of_peerSealed, fun k' s' hne => ⟨?_, ?_, ?_⟩,
    fun hk => ⟨?_, ?_⟩⟩
  · obtain ⟨token', htoken', hverify⟩ := verifyMic_getMic P k s seq message (length_of_getMic h)
    rw [h] at htoken'
    cases htoken'
    exact hverify
  · exact fun token message' h => verifyMic_of_ne hne h message'
  · intro random isSealed token h
    obtain ⟨ec, body, rfl⟩ := header_of_wrap h
    exact refuses_of_ne hne isSealed ec seq body
  · intro ec filler confounder token h
    obtain ⟨body, -, heq⟩ := except_bind_eq_ok.1 h
    cases heq
    exact refuses_of_ne hne true ec seq body
  · obtain ⟨token, h, -⟩ := verifyMic_getMic P k s seq message hk
    exact ⟨token, h⟩
  · intro isSealed confounder
    cases isSealed with
    | true =>
      obtain ⟨token, h, -⟩ :=
        opens_wrap_sealed P s seq message hk confounder
      exact ⟨token, h⟩
    | false =>
      obtain ⟨token, h, -⟩ :=
        opens_wrap_signed P s seq message hk (.ok confounder)
      exact ⟨token, h⟩

end RoundTrip

/-! ### A key to try things on -/

/-- A key of zeros. -/
def sampleKey : ContextKey := ⟨.aes256CtsHmacSha1_96, List.replicate 32 0, false⟩

/-- A MIC, and a sealed token rotated by 28. -/
theorem tokens_round_trip_sample :
    (∃ token, sampleKey.getMic samplePrimitives .acceptor 7 [1, 2, 3] = .ok token ∧
      sampleKey.verifyMic samplePrimitives .acceptor [1, 2, 3] token = .ok 7) ∧
    ∃ token, sampleKey.wrap samplePrimitives (.ok ⟨zeroBlock, rfl⟩) .acceptor 7 true [1, 2, 3] =
        .ok token ∧
      sampleKey.unwrap samplePrimitives .acceptor (rotated 28 token) = .ok ([1, 2, 3], true, 7) := by
  obtain ⟨hmic, hwrap, -, -, hmakes⟩ :=
    tokens_round_trip samplePrimitives sampleKey .acceptor 7 [1, 2, 3]
  obtain ⟨⟨token, htoken⟩, hwraps⟩ := hmakes rfl
  obtain ⟨token', htoken'⟩ := hwraps true ⟨zeroBlock, rfl⟩
  exact ⟨⟨token, htoken, hmic token htoken⟩, token', htoken', (hwrap _ _ _ htoken').2 28⟩

end NextNfs.Krb5
