import NextNfs.Krb5.Crypto
import NextNfs.Krb5.Keytab
import NextNfs.Krb5.Token

set_option relaxedAutoImplicit false
set_option autoImplicit false

/-!
# The Kerberos initiator

This module models `krb5/src/initiator.rs`, which issues a ticket with a key of the service, makes
the AP-REQ of a client and checks the AP-REP.

## Main definitions

* `NextNfs.Krb5.Der`, `NextNfs.Krb5.Der.RoundTrips` — the DER encodings, and what is assumed of them.
* `NextNfs.Krb5.issueTicket`, `NextNfs.Krb5.Initiator.start`, `NextNfs.Krb5.Initiator.finish` — the
  issuer and the initiator.

## Main results

* `NextNfs.Krb5.decrypt_of_encrypt` — what is encrypted is decrypted.
* `NextNfs.Krb5.principalString_principal` — the string of a name that was split at its slashes.

## Implementation notes

A general string is its bytes, and a time is its seconds. The encoders take the whole of a message
and the decoders give what is looked at. The encodings are assumed to round trip where the strings
are general strings and the years have four digits. Random bytes are arguments.
-/

namespace NextNfs.Krb5

open Wire Slices

/-! ### Messages in full -/

/-- `EncTicketPart`, as it is issued: without `renew_till`, `caddr` and `authorization_data`. -/
structure IssuedTicketPart extends EncTicketPart where
  flags : List Bool
  transitedType : ℤ
  transited : Bytes

/-- `Ticket`, as it is issued. -/
structure IssuedTicket extends Ticket where
  tktVno : ℤ

/-- `Authenticator`, as it is sent: without `authorization_data`. -/
structure SentAuthenticator extends Authenticator where
  authenticatorVno : ℤ

/-- `ApReq`, as it is sent. -/
structure SentApReq where
  pvno : ℤ
  msgType : ℤ
  apOptions : List Bool
  ticket : IssuedTicket
  authenticator : EncryptedData

/-- `EncApRepPart`, as it is received. -/
structure ReceivedApRepPart where
  ctime : ℤ
  cusec : ℤ
  subkey : Option EncryptionKey
  seqNumber : Option UInt32

/-- What the acceptor looks at in a message that is sent. -/
def SentApReq.toApReq (m : SentApReq) : ApReq := ⟨m.ticket.toTicket, m.authenticator⟩

/-- The part of an AP-REP, as the acceptor makes it, at the other end. -/
def EncApRepPart.received (p : EncApRepPart) : ReceivedApRepPart :=
  ⟨p.ctime, p.cusec, none, some p.seqNumber⟩

/-- The encodings of the `rasn` crate, and the times that the `chrono` crate takes. -/
structure Der where
  isGeneralString : Bytes → Bool
  isTimestamp : ℤ → Bool
  encodeEncTicketPart : IssuedTicketPart → Except String Bytes
  decodeEncTicketPart : Bytes → Except String EncTicketPart
  encodeAuthenticator : SentAuthenticator → Except String Bytes
  decodeAuthenticator : Bytes → Except String Authenticator
  encodeApReq : SentApReq → Except String Bytes
  decodeApReq : Bytes → Except String ApReq
  encodeEncApRepPart : EncApRepPart → Except String Bytes
  decodeEncApRepPart : Bytes → Except String ReceivedApRepPart
  encodeApRep : EncryptedData → Except String Bytes
  decodeApRep : Bytes → Except String EncryptedData

/-- The year of a time has four digits. -/
def FourDigitYear (secs : ℤ) : Prop := -62167219200 ≤ secs ∧ secs ≤ 253402300799

/-- A value is encoded, and decoded to what is looked at. -/
def EncodesTo {α β : Type} (encode : α → Except String Bytes) (decode : Bytes → Except String β)
    (a : α) (b : β) : Prop :=
  ∃ bytes, encode a = .ok bytes ∧ decode bytes = .ok b

lemma EncodesTo.decode_eq {α β : Type} {encode : α → Except String Bytes}
    {decode : Bytes → Except String β} {a : α} {b : β} {bytes : Bytes} (h : encode a = .ok bytes)
    (hround : EncodesTo encode decode a b) : decode bytes = .ok b := by
  obtain ⟨bytes', hencode, hdecode⟩ := hround
  rw [hencode] at h
  rwa [← Except.ok.inj h]

namespace Der

variable (D : Der)

/-- A name and a realm are general strings. -/
def Admits (name : PrincipalName) (realm : Bytes) : Prop :=
  D.isGeneralString realm = true ∧ ∀ s ∈ name.string, D.isGeneralString s = true

/-- Messages with general strings and years of four digits are encoded, and decoded again. -/
structure RoundTrips : Prop where
  encTicketPart : ∀ m : IssuedTicketPart, D.Admits m.cname m.crealm → FourDigitYear m.authTime →
    (∀ t ∈ m.startTime, FourDigitYear t) → FourDigitYear m.endTime →
    EncodesTo D.encodeEncTicketPart D.decodeEncTicketPart m m.toEncTicketPart
  authenticator : ∀ m : SentAuthenticator, D.Admits m.cname m.crealm → FourDigitYear m.ctime →
    (0 ≤ m.cusec ∧ m.cusec < 1000000) →
    EncodesTo D.encodeAuthenticator D.decodeAuthenticator m m.toAuthenticator
  apReq : ∀ m : SentApReq, D.Admits m.ticket.sname m.ticket.realm →
    EncodesTo D.encodeApReq D.decodeApReq m m.toApReq
  encApRepPart : ∀ m : EncApRepPart, FourDigitYear m.ctime → (0 ≤ m.cusec ∧ m.cusec < 1000000) →
    EncodesTo D.encodeEncApRepPart D.decodeEncApRepPart m m.received
  apRep : ∀ m : EncryptedData, EncodesTo D.encodeApRep D.decodeApRep m m

end Der

/-- The mechanism of the acceptor, with the cryptography of the crate. The source draws the
confounder itself, of 16 bytes. -/
def mechanism (P : Primitives) (D : Der) : Mechanism where
  decodeApReq := D.decodeApReq
  decodeEncTicketPart := D.decodeEncTicketPart
  decodeAuthenticator := D.decodeAuthenticator
  encodeEncApRepPart := D.encodeEncApRepPart
  encodeApRep := D.encodeApRep
  decrypt := decrypt P
  encrypt etype key usage plaintext confounder :=
    if h : confounder.length = 16 then
      encryptWithConfounder P etype key usage plaintext ⟨confounder, h⟩
    else .error (.crypto "")

/-! ### The initiator -/

/-- What `random_bytes` gives for a length. -/
abbrev Draw (n : ℕ) := Except Error { b : Bytes // b.length = n }

/-- What a call of a function with `?` gives. -/
def fails {α : Type} : Except Error α → Except (Halt Error) α
  | .ok a => .ok a
  | .error e => .error (.fail e)

/-- What `expect` gives. -/
def expect {ε α : Type} : Except ε α → Except (Halt Error) α
  | .ok a => .ok a
  | .error _ => .error .panic

section Initiator

variable (P : Primitives) (D : Der)

/-- `gs`. -/
def gs (s : String) : Except (Halt Error) Bytes :=
  if D.isGeneralString (Xdr.asBytes s) then .ok (Xdr.asBytes s) else .error .panic

/-- `gs` of one string after another. -/
def gsAll : List String → Except (Halt Error) (List Bytes)
  | [] => .ok []
  | s :: ss => do
    let b ← gs D s
    let bs ← gsAll ss
    pure (b :: bs)

/-- `kerberos_time`. -/
def kerberosTime (secs : ℤ) : Except (Halt Error) ℤ :=
  if D.isTimestamp secs then .ok secs else .error .panic

/-- `principal`. -/
def principal (name : String) : Except (Halt Error) PrincipalName := do
  let parts ← gsAll D ((name.toList.splitOn '/').map String.ofList)
  pure ⟨if parts.length > 1 then 2 else 1, parts⟩

/-- `Credential`. -/
structure Credential where
  client : String
  clientRealm : String
  ticket : IssuedTicket
  sessionEnctype : Enctype
  sessionKey : Bytes

/-- `BitString::repeat(false, 32)`. -/
def noFlags : List Bool := List.replicate 32 false

/-- A `u32` as an `i32`. -/
def asI32 (v : UInt32) : ℤ := if v.toNat < 2 ^ 31 then v.toNat else v.toNat - 2 ^ 32

/-- `issue_ticket`, with the bytes drawn for the session key and the confounder. -/
def issueTicket (serviceKey : Keytab.Entry) (client : String) (sessionEnctype : Enctype)
    (start stop : ℤ) (keyBytes : Draw sessionEnctype.keyLen) (confounder : Draw 16) :
    Except (Halt Error) Credential := do
  let some etype := Enctype.fromI32 serviceKey.enctype
    | .error (.fail (.unsupportedEnctype serviceKey.enctype))
  let sessionKey ← fails keyBytes
  let crealm ← gs D serviceKey.realm
  let cname ← principal D client
  let authTime ← kerberosTime D start
  let startTime ← kerberosTime D start
  let endTime ← kerberosTime D stop
  let part : IssuedTicketPart := {
    flags := noFlags
    key := ⟨sessionEnctype.number, sessionKey.1⟩
    crealm, cname
    transitedType := 1
    transited := []
    authTime
    startTime := some startTime
    endTime }
  let bytes ← expect (D.encodeEncTicketPart part)
  let cipher ← fails (encrypt P confounder etype serviceKey.key KU_TICKET bytes)
  let realm ← gs D serviceKey.realm
  let components ← gsAll D serviceKey.components
  pure {
    client
    clientRealm := serviceKey.realm
    ticket := {
      tktVno := 5
      realm
      sname := ⟨asI32 serviceKey.nameType, components⟩
      encPart := ⟨etype.number, some serviceKey.kvno, cipher⟩ }
    sessionEnctype
    sessionKey := sessionKey.1 }

/-- `Initiator`. -/
structure Initiator where
  key : ContextKey
  seq : UInt64
  ctime : ℤ
  sessionEnctype : Enctype
  sessionKey : Bytes

/-- The checksum of an authenticator: the length of the channel bindings, none of them, and the
flags. -/
def gssChecksum (flags : UInt32) : Bytes :=
  (beBytes 4 16).reverse ++ List.replicate 16 0 ++ (beBytes 4 flags.toNat).reverse

/-- What `start` draws: a subkey, a sequence number and a confounder. -/
structure Draws where
  subkey : (etype : Enctype) → Draw etype.keyLen
  seq : Draw 4
  confounder : Draw 16

/-- The key of the context on the side of the initiator. -/
def Initiator.contextKey (cred : Credential) (draws : Draws) :
    Option Enctype → Except Error ContextKey
  | some etype => do
    let key ← draws.subkey etype
    pure ⟨etype, key.1, false⟩
  | none => pure ⟨cred.sessionEnctype, cred.sessionKey, false⟩

/-- `Initiator::start`. -/
def Initiator.start (cred : Credential) (flags : UInt32) (subkey : Option Enctype) (ctime : ℤ)
    (draws : Draws) : Except (Halt Error) (Initiator × Bytes) := do
  let key ← fails (Initiator.contextKey cred draws subkey)
  let bytes ← fails draws.seq
  let seq := UInt32.ofNat (ofBytes bytes.1) &&& 0x3fffffff
  let crealm ← gs D cred.clientRealm
  let cname ← principal D cred.client
  let time ← kerberosTime D ctime
  let auth : SentAuthenticator := {
    authenticatorVno := 5
    crealm, cname
    cksum := some ⟨0x8003, gssChecksum flags⟩
    cusec := 123456
    ctime := time
    subkey := subkey.map fun _ => ⟨key.enctype.number, key.key⟩
    seqNumber := some seq }
  let bytes ← expect (D.encodeAuthenticator auth)
  let cipher ← fails (encrypt P draws.confounder cred.sessionEnctype cred.sessionKey
    KU_AP_REQ_AUTH bytes)
  let options := if flags &&& GSS_C_MUTUAL_FLAG ≠ 0 then noFlags.set 2 true else noFlags
  let req : SentApReq := {
    pvno := 5
    msgType := 14
    apOptions := options
    ticket := cred.ticket
    authenticator := ⟨cred.sessionEnctype.number, none, cipher⟩ }
  let message ← expect (D.encodeApReq req)
  pure (⟨key, seq.toUInt64, ctime, cred.sessionEnctype, cred.sessionKey⟩,
    build TOK_ID_AP_REQ message)

/-- `Initiator::finish`: the initiator afterwards, and the acceptor's first sequence number. -/
def Initiator.finish (ini : Initiator) (apRepToken : Bytes) : Except Error (Initiator × UInt64) := do
  let (id, msg) ← parse apRepToken
  if id ≠ TOK_ID_AP_REP then .error (.token "expected an AP-REP")
  else
    let rep ← (D.decodeApRep msg).mapError .asn1
    let plain ← decrypt P ini.sessionEnctype ini.sessionKey KU_AP_REP_ENCPART rep.cipher
    let part ← (D.decodeEncApRepPart plain).mapError .asn1
    if part.ctime ≠ ini.ctime then
      .error (.rejected "AP-REP ctime does not echo the authenticator")
    else
      let seq := (part.seqNumber.getD 0).toUInt64
      match part.subkey with
      | none => pure (ini, seq)
      | some sk =>
        let some etype := Enctype.fromI32 sk.type | .error (.unsupportedEnctype sk.type)
        pure ({ ini with key := ⟨etype, sk.value, true⟩ }, seq)

end Initiator

/-! ### What the initiator makes -/

@[simp] lemma fails_eq_ok {α : Type} {x : Except Error α} {a : α} :
    fails x = .ok a ↔ x = .ok a := by
  cases x <;> simp [fails]

@[simp] lemma expect_eq_ok {ε α : Type} {x : Except ε α} {a : α} :
    expect x = .ok a ↔ x = .ok a := by
  cases x <;> simp [expect]

namespace Enctype

@[simp] lemma fromI32_number (e : Enctype) : fromI32 e.number = some e := by
  cases e <;> rfl

lemma number_of_fromI32 {v : ℤ} {e : Enctype} (h : fromI32 v = some e) : v = e.number := by
  exact (eq_of_beq (List.find?_some (p := fun e : Enctype => e.number == v) h)).symm

end Enctype

/-- What is encrypted is decrypted: a key of another length encrypts nothing. -/
lemma decrypt_of_encrypt {P : Primitives} {draw : Draw 16} {etype : Enctype} {key : Bytes}
    {usage : UInt32} {plaintext cipher : Bytes}
    (h : encrypt P draw etype key usage plaintext = .ok cipher) :
    decrypt P etype key usage cipher = .ok plaintext := by
  obtain ⟨confounder, -, h⟩ := except_bind_eq_ok.1 h
  by_cases hlen : key.length = etype.keyLen
  · obtain ⟨c, hc, -, hback⟩ :=
      decrypt_encryptWithConfounder P etype key usage hlen plaintext confounder
    rw [hc] at h
    rwa [← Except.ok.inj h]
  · obtain ⟨e, he⟩ := derive_of_ne P etype key usage hlen 0xAA
    rw [encryptWithConfounder, he] at h
    cases h

section Strings

variable {D : Der}

lemma gs_eq_ok {s : String} {b : Bytes} (h : gs D s = .ok b) :
    b = Xdr.asBytes s ∧ D.isGeneralString b = true := by
  unfold gs at h
  split_ifs at h with hs
  obtain rfl := Except.ok.inj h
  exact ⟨rfl, hs⟩

lemma gsAll_eq_ok {ss : List String} {bs : List Bytes} (h : gsAll D ss = .ok bs) :
    bs = ss.map Xdr.asBytes ∧ ∀ b ∈ bs, D.isGeneralString b = true := by
  induction ss generalizing bs with
  | nil =>
    cases h
    exact ⟨rfl, fun b hb => absurd hb List.not_mem_nil⟩
  | cons s ss ih =>
    obtain ⟨b, hb, h⟩ := except_bind_eq_ok.1 h
    obtain ⟨bs', hbs, h⟩ := except_bind_eq_ok.1 h
    cases h
    obtain ⟨rfl, hs⟩ := gs_eq_ok hb
    obtain ⟨rfl, hss⟩ := ih hbs
    exact ⟨rfl, List.forall_mem_cons.2 ⟨hs, hss⟩⟩

lemma kerberosTime_eq_ok {secs t : ℤ} (h : kerberosTime D secs = .ok t) : t = secs := by
  unfold kerberosTime at h
  split_ifs at h
  exact (Except.ok.inj h).symm

/-- The string of a name that was split at its slashes is the name. -/
lemma principalString_principal {name : String} {p : PrincipalName}
    (h : principal D name = .ok p) (realm : String) :
    principalString p (Xdr.asBytes realm) = name ++ "@" ++ realm ∧
      ∀ s ∈ p.string, D.isGeneralString s = true := by
  obtain ⟨parts, hparts, h⟩ := except_bind_eq_ok.1 h
  cases h
  obtain ⟨rfl, hall⟩ := gsAll_eq_ok hparts
  refine ⟨?_, hall⟩
  apply String.toList_injective
  have hsplit : ['/'].intercalate (name.toList.splitOn '/') = name.toList :=
    List.intercalate_splitOn '/'
  simp [principalString, Function.comp_def, hsplit]

end Strings

/-- A framed message is read back. -/
lemma parse_build {tokId message : Bytes} (hid : tokId.length = 2)
    (hlen : (build tokId message).length < 2 ^ 32) : parse (build tokId message) = .ok (tokId, message) := by
  have hmessage : message.length < 2 ^ 32 - 13 := by
    have hoid : KRB5_MECH_OID.length = 11 := rfl
    simp only [build, List.length_cons, List.length_append, hid, hoid] at hlen
    omega
  have h := Token.parse_build ⟨tokId, hid⟩ hmessage []
  rw [List.append_nil, Token.parse_eq] at h
  cases hparse : parse (build tokId message) with
  | error e =>
    rw [show (List.Vector.toList ⟨tokId, hid⟩) = tokId from rfl, hparse] at h
    cases h
  | ok r =>
    rw [show (List.Vector.toList ⟨tokId, hid⟩) = tokId from rfl, hparse] at h
    simpa [Token.lift] using h

end NextNfs.Krb5
