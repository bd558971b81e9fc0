import Mathlib.Data.List.Sort
import NextNfs.Lib.Recent
import NextNfs.Proto.Xdr

set_option relaxedAutoImplicit false
set_option autoImplicit false

/-!
# The Kerberos acceptor

This module models `krb5/src/acceptor.rs`: an acceptor takes framed AP-REQ messages, opens the
ticket with a key of the keytab, opens and checks the authenticator, and keeps the authenticators it
has seen in a replay cache.

## Main definitions

* `NextNfs.Krb5.Mechanism` — the DER encodings and the cryptography.
* `NextNfs.Krb5.authenticate` — the part of `accept_at` before the replay cache.
* `NextNfs.Krb5.ReplayCache.checkAndInsert`, `NextNfs.Krb5.Acceptor.acceptAt` — the acceptor.
* `NextNfs.Krb5.Acceptor.accepted` — the calls that are accepted along a run.
* `NextNfs.Krb5.Straddles` — two calls with one authenticator, at both ends of the time in which it
  is good.

## Main results

* `NextNfs.Krb5.nodup_accepted_of_not_straddles` — in a run without two such calls no authenticator
  is accepted twice.
* `NextNfs.Krb5.not_nodup_accepted` — at both ends it is.

## Implementation notes

The DER encodings come from the `rasn` crate, and the encryption rests on other crates: both are
parameters, of which nothing is assumed. Each call of `accept_at` brings the wall clock in seconds,
the monotonic clock in nanoseconds, and the random bytes it will be given. The two clocks are read
at one moment.
-/

namespace NextNfs.Krb5

open Wire

/-! ### Errors and framing -/

/-- `Error`. -/
inductive Error
  | token (text : String)
  | asn1 (text : String)
  | integrity
  | unsupportedEnctype (etype : ℤ)
  | noKey (text : String)
  | rejected (text : String)
  | crypto (text : String)
deriving DecidableEq

/-- `KRB5_MECH_OID`, with its DER header. -/
def KRB5_MECH_OID : Bytes := [0x06, 0x09, 0x2a, 0x86, 0x48, 0x86, 0xf7, 0x12, 0x01, 0x02, 0x02]

/-- `TOK_ID_AP_REQ`. -/
def TOK_ID_AP_REQ : Bytes := [0x01, 0x00]

/-- `TOK_ID_AP_REP`. -/
def TOK_ID_AP_REP : Bytes := [0x02, 0x00]

/-- `read_len`: a DER length, and what follows it. -/
def readLen : Bytes → Except Error (ℕ × Bytes)
  | [] => .error (.token "truncated")
  | first :: rest =>
    if first &&& 0x80 = 0 then .ok (first.toNat, rest)
    else
      let n := (first &&& 0x7f).toNat
      if n = 0 ∨ n > 4 then .error (.token "bad length")
      else if rest.length < n then .error (.token "truncated")
      else .ok (ofBytes (rest.take n), rest.drop n)

/-- `write_len`. -/
def writeLen (len : ℕ) : Bytes :=
  if len < 0x80 then [UInt8.ofNat len]
  else
    let bytes := (beBytes 4 len).dropWhile (· = 0)
    (0x80 ||| UInt8.ofNat bytes.length) :: bytes

/-- `token::parse`: the token id and the message of a framed token. -/
def parse (buf : Bytes) : Except Error (Bytes × Bytes) :=
  if buf.head? ≠ some 0x60 then .error (.token "not a GSS initial context token")
  else do
    let (len, rest) ← readLen (buf.drop 1)
    if rest.length < len then .error (.token "truncated")
    else
      let body := rest.take len
      if KRB5_MECH_OID.isPrefixOf body = false then
        .error (.token "not the Kerberos V5 mechanism")
      else
        let inner := body.drop KRB5_MECH_OID.length
        if inner.length < 2 then .error (.token "truncated")
        else pure (inner.take 2, inner.drop 2)

/-- `token::build`. -/
def build (tokId message : Bytes) : Bytes :=
  0x60 :: (writeLen (KRB5_MECH_OID.length + 2 + message.length) ++ KRB5_MECH_OID ++ tokId ++ message)

/-! ### Messages -/

/-- `Enctype`. -/
inductive Enctype
  | aes128CtsHmacSha1_96 | aes256CtsHmacSha1_96 | aes128CtsHmacSha256_128 | aes256CtsHmacSha384_192
deriving DecidableEq

namespace Enctype

/-- `number`. -/
def number : Enctype → ℤ
  | aes128CtsHmacSha1_96 => 17
  | aes256CtsHmacSha1_96 => 18
  | aes128CtsHmacSha256_128 => 19
  | aes256CtsHmacSha384_192 => 20

/-- `ALL`. -/
def all : List Enctype :=
  [aes128CtsHmacSha1_96, aes256CtsHmacSha1_96, aes128CtsHmacSha256_128, aes256CtsHmacSha384_192]

/-- `from_i32`. -/
def fromI32 (v : ℤ) : Option Enctype := all.find? fun e => e.number == v

/-- `key_len`. -/
def keyLen : Enctype → ℕ
  | aes128CtsHmacSha1_96 | aes128CtsHmacSha256_128 => 16
  | aes256CtsHmacSha1_96 | aes256CtsHmacSha384_192 => 32

/-- The name of an enctype in an error. -/
def debug : Enctype → String
  | aes128CtsHmacSha1_96 => "Aes128CtsHmacSha1_96"
  | aes256CtsHmacSha1_96 => "Aes256CtsHmacSha1_96"
  | aes128CtsHmacSha256_128 => "Aes128CtsHmacSha256_128"
  | aes256CtsHmacSha384_192 => "Aes256CtsHmacSha384_192"

end Enctype

/-- `PrincipalName`. -/
structure PrincipalName where
  nameType : ℤ
  string : List Bytes
deriving DecidableEq

/-- `EncryptedData`. -/
structure EncryptedData where
  etype : ℤ
  kvno : Option UInt32
  cipher : Bytes

/-- `Ticket`, as far as the acceptor looks. -/
structure Ticket where
  realm : Bytes
  sname : PrincipalName
  encPart : EncryptedData

/-- `ApReq`, as far as the acceptor looks. -/
structure ApReq where
  ticket : Ticket
  authenticator : EncryptedData

/-- `EncryptionKey`. -/
structure EncryptionKey where
  type : ℤ
  value : Bytes

/-- `EncTicketPart`, as far as the acceptor looks. Times are in seconds. -/
structure EncTicketPart where
  key : EncryptionKey
  crealm : Bytes
  cname : PrincipalName
  authTime : ℤ
  startTime : Option ℤ
  endTime : ℤ

/-- `Checksum`. -/
structure Checksum where
  type : ℤ
  checksum : Bytes

/-- `Authenticator`, as far as the acceptor looks. -/
structure Authenticator where
  crealm : Bytes
  cname : PrincipalName
  cksum : Option Checksum
  cusec : ℤ
  ctime : ℤ
  subkey : Option EncryptionKey
  seqNumber : Option UInt32

/-- `EncApRepPart`, as the acceptor makes it: without a subkey. -/
structure EncApRepPart where
  ctime : ℤ
  cusec : ℤ
  seqNumber : UInt32

/-- The DER encodings and the cryptography. The random bytes of an encryption are an argument. -/
structure Mechanism where
  decodeApReq : Bytes → Except String ApReq
  decodeEncTicketPart : Bytes → Except String EncTicketPart
  decodeAuthenticator : Bytes → Except String Authenticator
  encodeEncApRepPart : EncApRepPart → Except String Bytes
  encodeApRep : EncryptedData → Except String Bytes
  decrypt : Enctype → Bytes → UInt32 → Bytes → Except Error Bytes
  encrypt : Enctype → Bytes → UInt32 → Bytes → Bytes → Except Error Bytes

/-- `KeytabEntry`, as far as the acceptor looks. -/
structure KeytabEntry where
  realm : String
  components : List String
  kvno : UInt32
  enctype : ℤ
  key : Bytes

/-- `principal_string`. -/
def principalString (name : PrincipalName) (realm : Bytes) : String :=
  "/".intercalate (name.string.map Xdr.fromUtf8Lossy) ++ "@" ++ Xdr.fromUtf8Lossy realm

/-! ### Before the replay cache -/

/-- `CLOCK_SKEW_SECS`. -/
def CLOCK_SKEW_SECS : ℤ := 300

/-- `GSS_CHECKSUM_TYPE`. -/
def GSS_CHECKSUM_TYPE : ℤ := 0x8003

/-- `GSS_C_MUTUAL_FLAG`. -/
def GSS_C_MUTUAL_FLAG : UInt32 := 2

/-- `KU_TICKET`. -/
def KU_TICKET : UInt32 := 2

/-- `KU_AP_REQ_AUTH`. -/
def KU_AP_REQ_AUTH : UInt32 := 11

/-- `KU_AP_REP_ENCPART`. -/
def KU_AP_REP_ENCPART : UInt32 := 12

/-- The order in which keys are tried: that with the kvno of the ticket first, then higher kvnos
before lower ones. -/
def KeytabEntry.before (kvno : Option UInt32) (a b : KeytabEntry) : Prop :=
  (some a.kvno = kvno ∨ some b.kvno ≠ kvno) ∧
    ((some a.kvno = kvno ↔ some b.kvno = kvno) → b.kvno ≤ a.kvno)

instance (kvno : Option UInt32) (a b : KeytabEntry) : Decidable (a.before kvno b) :=
  inferInstanceAs (Decidable (_ ∧ _))

/-- The keys that `accept_at` tries on a ticket. -/
def candidates (keytab : List KeytabEntry) (ticket : Ticket) (etype : Enctype) : List KeytabEntry :=
  (keytab.filter fun e => e.realm = Xdr.fromUtf8Lossy ticket.realm ∧
    e.components = ticket.sname.string.map Xdr.fromUtf8Lossy ∧ e.enctype = etype.number).insertionSort
      fun a b => a.before ticket.encPart.kvno b

variable (M : Mechanism) (keytab : List KeytabEntry)

/-- The ticket of an AP-REQ, opened and checked at a time. -/
def openTicket (ticket : Ticket) (now : ℤ) : Except Error EncTicketPart := do
  let service := principalString ticket.sname ticket.realm
  let some etype := Enctype.fromI32 ticket.encPart.etype
    | .error (.unsupportedEnctype ticket.encPart.etype)
  let keys := candidates keytab ticket etype
  if keys.isEmpty then .error (.noKey (service ++ " (" ++ etype.debug ++ ")"))
  else
    let some encTicket := keys.findSome? fun e =>
        (M.decrypt etype e.key KU_TICKET ticket.encPart.cipher).toOption
      | .error .integrity
    let tkt ← (M.decodeEncTicketPart encTicket).mapError .asn1
    if tkt.startTime.getD tkt.authTime - CLOCK_SKEW_SECS > now then
      .error (.rejected "ticket not yet valid")
    else if tkt.endTime + CLOCK_SKEW_SECS < now then .error (.rejected "ticket expired")
    else pure tkt

/-- The authenticator of an AP-REQ with its bytes, opened and checked at a time. -/
def openAuthenticator (tkt : EncTicketPart) (sessEtype : Enctype) (cipher : Bytes) (now : ℤ) :
    Except Error (Bytes × Authenticator) := do
  let authBytes ← M.decrypt sessEtype tkt.key.value KU_AP_REQ_AUTH cipher
  let auth ← (M.decodeAuthenticator authBytes).mapError .asn1
  if auth.crealm ≠ tkt.crealm ∨ auth.cname ≠ tkt.cname then
    .error (.rejected "authenticator does not match the ticket")
  else if |auth.ctime - now| > CLOCK_SKEW_SECS then .error (.rejected "clock skew too great")
  else pure (authBytes, auth)

/-- The flags in the checksum of an authenticator. -/
def gssFlags (auth : Authenticator) : Except Error UInt32 :=
  match auth.cksum with
  | none => .error (.rejected "no GSS checksum in the authenticator")
  | some cksum =>
    if cksum.type ≠ GSS_CHECKSUM_TYPE ∨ cksum.checksum.length < 24 then
      .error (.rejected "malformed GSS checksum")
    else .ok (UInt32.ofNat (ofBytes ((cksum.checksum.drop 20).take 4).reverse))

/-- What `accept_at` knows of a message when it comes to the replay cache. -/
structure Checked where
  service : String
  client : String
  tkt : EncTicketPart
  sessEtype : Enctype
  authBytes : Bytes
  auth : Authenticator
  flags : UInt32

/-- The part of `accept_at` before the replay cache. -/
def authenticate (input : Bytes) (now : ℤ) : Except Error Checked := do
  let (tokId, msg) ← parse input
  if tokId ≠ TOK_ID_AP_REQ then .error (.token "expected an AP-REQ")
  else
    let apReq ← (M.decodeApReq msg).mapError .asn1
    let tkt ← openTicket M keytab apReq.ticket now
    let some sessEtype := Enctype.fromI32 tkt.key.type | .error (.unsupportedEnctype tkt.key.type)
    let (authBytes, auth) ← openAuthenticator M tkt sessEtype apReq.authenticator.cipher now
    let flags ← gssFlags auth
    pure ⟨principalString apReq.ticket.sname apReq.ticket.realm,
      principalString tkt.cname tkt.crealm, tkt, sessEtype, authBytes, auth, flags⟩

/-! ### The acceptor -/

/-- `ReplayCache`: the authenticators seen, each under the time it was seen, in nanoseconds. -/
abbrev ReplayCache := Recent Bytes

/-- The lifetime of an entry: `2 * CLOCK_SKEW_SECS`, in nanoseconds. -/
def ReplayCache.ttl : ℕ := 2 * CLOCK_SKEW_SECS.toNat * 1000000000

/-- `check_and_insert`. -/
def ReplayCache.checkAndInsert (cache : ReplayCache) (now : ℕ) (key : Bytes) : ReplayCache × Bool :=
  Recent.checkAndInsert 1024 ReplayCache.ttl cache now key

/-- The key of an authenticator in the cache: its client, a zero byte, and its bytes. -/
def replayKey (client : String) (authBytes : Bytes) : Bytes := Xdr.asBytes client ++ 0 :: authBytes

/-- `ContextKey`. -/
structure ContextKey where
  enctype : Enctype
  key : Bytes
  acceptorSubkey : Bool
deriving DecidableEq

/-- `Accepted`: an established context. -/
structure Accepted where
  client : String
  service : String
  key : ContextKey
  flags : UInt32
  initiatorSeq : UInt64
  acceptorSeq : UInt64
  expires : ℤ
  outputToken : Option Bytes

/-- The key of the context: the subkey of the initiator, or the session key. -/
def contextKey (c : Checked) : Except Error ContextKey :=
  match c.auth.subkey with
  | some sk =>
    match Enctype.fromI32 sk.type with
    | some etype => .ok ⟨etype, sk.value, false⟩
    | none => .error (.unsupportedEnctype sk.type)
  | none => .ok ⟨c.sessEtype, c.tkt.key.value, false⟩

/-- The part of `accept_at` after the replay cache, with the random bytes it is given. -/
def establish (random : ℕ → Except Error Bytes) (c : Checked) : Except Error Accepted := do
  let key ← contextKey c
  if key.key.length ≠ key.enctype.keyLen then
    .error (.rejected "subkey length does not match its enctype")
  else
    let initiatorSeq := (c.auth.seqNumber.getD 0).toUInt64
    let accepted := fun acceptorSeq outputToken =>
      (⟨c.client, c.service, key, c.flags, initiatorSeq, acceptorSeq, c.tkt.endTime, outputToken⟩ :
        Accepted)
    if c.flags &&& GSS_C_MUTUAL_FLAG ≠ 0 then
      let bytes ← random 4
      let seq := UInt32.ofNat (ofBytes bytes) &&& 0x3fffffff
      let part ← (M.encodeEncApRepPart ⟨c.auth.ctime, c.auth.cusec, seq⟩).mapError .asn1
      let confounder ← random 16
      let cipher ← M.encrypt c.sessEtype c.tkt.key.value KU_AP_REP_ENCPART part confounder
      let rep ← (M.encodeApRep ⟨c.sessEtype.number, none, cipher⟩).mapError .asn1
      pure (accepted seq.toUInt64 (some (build TOK_ID_AP_REP rep)))
    else pure (accepted initiatorSeq none)

/-- A call of `accept_at`: the message, the wall clock in seconds, the monotonic clock in
nanoseconds and what `random_bytes` gives for a length. -/
structure Call where
  input : Bytes
  now : ℤ
  instant : ℕ
  random : ℕ → Except Error Bytes

/-- `accept_at`, on the replay cache of the acceptor. -/
def acceptAt (cache : ReplayCache) (c : Call) : ReplayCache × Except Error Accepted :=
  match authenticate M keytab c.input c.now with
  | .error e => (cache, .error e)
  | .ok checked =>
    match cache.checkAndInsert c.instant (replayKey checked.client checked.authBytes) with
    | (cache, false) => (cache, .error (.rejected "authenticator replayed"))
    | (cache, true) => (cache, establish M c.random checked)

/-! ### Runs -/

/-- An authenticator as the acceptor tells them apart: the client and the decrypted bytes. -/
def Checked.authenticatorId (p : Checked) : String × Bytes := (p.client, p.authBytes)

/-- The key of an authenticator in the cache. -/
def Checked.key (p : Checked) : Bytes := replayKey p.client p.authBytes

/-- The calls that are accepted along a run, one after another, with what they present. -/
def accepted : ReplayCache → List Call → List (Call × Checked)
  | _, [] => []
  | cache, c :: calls =>
    match authenticate M keytab c.input c.now, acceptAt M keytab cache c with
    | .ok p, (cache, .ok _) => (c, p) :: accepted cache calls
    | _, (cache, _) => accepted cache calls

/-- The clocks of a run do not go back and advance together: the wall clock is the monotonic clock
plus an offset, in whole seconds. -/
structure ClocksAdvance (calls : List Call) : Prop where
  monotone : calls.Pairwise fun c c' => c.instant ≤ c'.instant
  together : ∃ offset : ℤ, ∀ c ∈ calls, c.now = (offset + c.instant) / 1000000000

/-- Two calls present one authenticator, the first in the second `CLOCK_SKEW_SECS` before the time
in it, the other in the second `CLOCK_SKEW_SECS` after it and a lifetime of the cache later. -/
def Straddles (c c' : Call) : Prop :=
  ∃ p p', authenticate M keytab c.input c.now = .ok p ∧
    authenticate M keytab c'.input c'.now = .ok p' ∧ p.authenticatorId = p'.authenticatorId ∧
    c.now = p.auth.ctime - CLOCK_SKEW_SECS ∧ c'.now = p.auth.ctime + CLOCK_SKEW_SECS ∧
    c.instant + ReplayCache.ttl ≤ c'.instant

section Facts

variable {M keytab} {cache cache' : ReplayCache} {c c' : Call} {calls : List Call} {p p' : Checked}

/-- An authenticator that is opened is the one its bytes encode, and its time is near. -/
lemma openAuthenticator_ok {tkt : EncTicketPart} {etype : Enctype} {cipher authBytes : Bytes} {now : ℤ}
    {auth : Authenticator} (h : openAuthenticator M tkt etype cipher now = .ok (authBytes, auth)) :
    M.decodeAuthenticator authBytes = .ok auth ∧ |auth.ctime - now| ≤ CLOCK_SKEW_SECS := by
  unfold openAuthenticator at h
  obtain ⟨bytes, -, h⟩ := except_bind_eq_ok.1 h
  obtain ⟨a, ha, h⟩ := except_bind_eq_ok.1 h
  split_ifs at h with _ hskew
  cases h
  refine ⟨?_, not_lt.1 hskew⟩
  cases hdecode : M.decodeAuthenticator authBytes with
  | error e => simp [hdecode, Except.mapError] at ha
  | ok a => simpa [hdecode, Except.mapError] using ha

/-- What comes to the replay cache. -/
lemma authenticate_ok {input : Bytes} {now : ℤ} (h : authenticate M keytab input now = .ok p) :
    M.decodeAuthenticator p.authBytes = .ok p.auth ∧ |p.auth.ctime - now| ≤ CLOCK_SKEW_SECS := by
  unfold authenticate at h
  obtain ⟨⟨tokId, msg⟩, -, h⟩ := except_bind_eq_ok.1 h
  dsimp only at h
  split_ifs at h
  obtain ⟨apReq, -, h⟩ := except_bind_eq_ok.1 h
  obtain ⟨tkt, -, h⟩ := except_bind_eq_ok.1 h
  split at h
  · obtain ⟨⟨authBytes, auth⟩, hopen, h⟩ := except_bind_eq_ok.1 h
    obtain ⟨flags, -, h⟩ := except_bind_eq_ok.1 h
    cases h
    exact openAuthenticator_ok hopen
  · cases h

/-- What a call does to the replay cache, and when it is accepted. -/
lemma acceptAt_cases {r : Except Error Accepted} (h : acceptAt M keytab cache c = (cache', r)) :
    (cache' = cache ∧ ∃ e, authenticate M keytab c.input c.now = .error e) ∨
    ∃ p b, authenticate M keytab c.input c.now = .ok p ∧
      cache.checkAndInsert c.instant p.key = (cache', b) ∧ (r.isOk → b = true) := by
  unfold acceptAt at h
  cases hauth : authenticate M keytab c.input c.now with
  | error e =>
    simp only [hauth] at h
    cases h
    exact .inl ⟨rfl, e, rfl⟩
  | ok p =>
    simp only [hauth] at h
    refine .inr ⟨p, ?_⟩
    split at h <;> rename_i hcheck <;> cases h
    · exact ⟨false, rfl, hcheck, nofun⟩
    · exact ⟨true, rfl, hcheck, fun _ => rfl⟩

/-- The calls accepted along a run are among its calls. -/
lemma map_accepted_sublist (cache : ReplayCache) (calls : List Call) :
    ((accepted M keytab cache calls).map Prod.fst).Sublist calls := by
  induction calls generalizing cache with
  | nil => exact .slnil
  | cons c calls ih =>
    unfold accepted
    split
    · exact (ih _).cons_cons c
    · exact (ih _).cons c

/-- A call that is accepted presents what it is accepted for. -/
lemma authenticate_of_mem_accepted (h : (c, p) ∈ accepted M keytab cache calls) :
    authenticate M keytab c.input c.now = .ok p := by
  induction calls generalizing cache with
  | nil => cases h
  | cons c' calls ih =>
    unfold accepted at h
    split at h
    · rename_i hauth _
      rcases List.mem_cons.1 h with heq | h
      · cases heq
        exact hauth
      · exact ih h
    · exact ih h

/-- **Remembering.** Along a run, two acceptances of one key are a lifetime of the cache apart, and
so is one of a key that passed before the run.

**Proof sketch.** Induction on the calls. What the cache needs of the passes before
(`Recent.Covers`) is kept by each call, whether it is accepted or not. -/
lemma pairwise_accepted {passed : List (Bytes × ℕ)} {now : ℕ}
    (hcovers : Recent.Covers ReplayCache.ttl cache passed now) (hnow : ∀ c ∈ calls, now ≤ c.instant)
    (hsorted : calls.Pairwise fun c c' => c.instant ≤ c'.instant) :
    (accepted M keytab cache calls).Pairwise
        (fun x y => x.2.key = y.2.key → x.1.instant + ReplayCache.ttl ≤ y.1.instant) ∧
      ∀ x ∈ accepted M keytab cache calls, ∀ t, (x.2.key, t) ∈ passed →
        t + ReplayCache.ttl ≤ x.1.instant := by
  induction calls generalizing cache passed now with
  | nil => exact ⟨List.Pairwise.nil, by simp [accepted]⟩
  | cons c calls ih =>
    obtain ⟨hfirst, hrest⟩ := List.pairwise_cons.1 hsorted
    have hc : Recent.Covers ReplayCache.ttl cache passed c.instant :=
      hcovers.mono (hnow c List.mem_cons_self)
    obtain ⟨cache', r, hstep⟩ : ∃ cache' r, acceptAt M keytab cache c = (cache', r) := ⟨_, _, rfl⟩
    rcases acceptAt_cases hstep with ⟨rfl, e, hauth⟩ | ⟨p, b, hauth, hcheck, hok⟩
    · simp only [accepted, hauth, hstep]
      exact ih hc hfirst hrest
    · obtain ⟨hpass, hcovers'⟩ := Recent.checkAndInsert_covers hc hcheck
      obtain ⟨hpair, hpast⟩ := ih hcovers' hfirst hrest
      have hlater : ∀ x ∈ accepted M keytab cache' calls, ∀ t, (x.2.key, t) ∈ passed →
          t + ReplayCache.ttl ≤ x.1.instant := by
        intro x hx t ht
        refine hpast x hx t ?_
        split_ifs
        · exact List.mem_cons_of_mem _ ht
        · exact ht
      cases r with
      | error e =>
        simp only [accepted, hauth, hstep]
        exact ⟨hpair, hlater⟩
      | ok a =>
        obtain rfl := hok rfl
        simp only [accepted, hauth, hstep]
        refine ⟨List.pairwise_cons.2 ⟨fun y hy hkey => ?_, hpair⟩, ?_⟩
        · refine hpast y hy c.instant ?_
          rw [if_pos rfl, ← hkey]
          exact List.mem_cons_self
        · intro x hx t ht
          rcases List.mem_cons.1 hx with rfl | hx
          · exact hpass rfl t ht
          · exact hlater x hx t ht

/-- Two calls with one authenticator that are a lifetime of the cache apart are at both ends of the
time in which it is good. -/
lemma straddles_of_apart {offset : ℤ} (hp : authenticate M keytab c.input c.now = .ok p)
    (hp' : authenticate M keytab c'.input c'.now = .ok p')
    (hid : p.authenticatorId = p'.authenticatorId)
    (hnow : c.now = (offset + c.instant) / 1000000000)
    (hnow' : c'.now = (offset + c'.instant) / 1000000000)
    (hapart : c.instant + ReplayCache.ttl ≤ c'.instant) : Straddles M keytab c c' := by
  obtain ⟨hdecode, hskew⟩ := authenticate_ok hp
  obtain ⟨hdecode', hskew'⟩ := authenticate_ok hp'
  have hauth : p.auth = p'.auth := by
    have hbytes : p.authBytes = p'.authBytes := congrArg Prod.snd hid
    rw [hbytes, hdecode'] at hdecode
    exact (Except.ok.inj hdecode).symm
  rw [← hauth] at hskew'
  have hseconds : c.now + 600 ≤ c'.now := by
    have httl : ReplayCache.ttl = 600000000000 := rfl
    omega
  simp only [CLOCK_SKEW_SECS, abs_le] at hskew hskew'
  refine ⟨p, p', hp, hp', hid, ?_, ?_, hapart⟩ <;> simp only [CLOCK_SKEW_SECS] <;> omega

end Facts

/-- **Replays.** In a run whose clocks advance together, no authenticator is accepted twice, however
many others come in between, unless it is presented at both ends of the time in which it is good. -/
theorem nodup_accepted_of_not_straddles (calls : List Call) (hclocks : ClocksAdvance calls)
    (hends : calls.Pairwise fun c c' => ¬ Straddles M keytab c c') :
    ((accepted M keytab Table.empty calls).map fun x => x.2.authenticatorId).Nodup := by
  obtain ⟨offset, hnow⟩ := hclocks.together
  have happart : (accepted M keytab Table.empty calls).Pairwise fun x y =>
      x.2.key = y.2.key → x.1.instant + ReplayCache.ttl ≤ y.1.instant :=
    (pairwise_accepted Recent.covers_nil (fun c _ => Nat.zero_le c.instant) hclocks.monotone).1
  have hnot : (accepted M keytab Table.empty calls).Pairwise
      fun x y => ¬ Straddles M keytab x.1 y.1 :=
    List.pairwise_map.1 (hends.sublist (map_accepted_sublist Table.empty calls))
  have hmem : ∀ x ∈ accepted M keytab Table.empty calls, x.1 ∈ calls := fun x hx =>
    (map_accepted_sublist Table.empty calls).subset (List.mem_map_of_mem hx)
  refine List.pairwise_map.2 (List.Pairwise.imp_of_mem ?_ (happart.and hnot))
  rintro x y hx hy ⟨hlate, hends⟩ hid
  refine hends (straddles_of_apart (authenticate_of_mem_accepted hx)
    (authenticate_of_mem_accepted hy) hid (hnow _ (hmem x hx)) (hnow _ (hmem y hy)) (hlate ?_))
  have hclient : x.2.client = y.2.client := congrArg Prod.fst hid
  have hbytes : x.2.authBytes = y.2.authBytes := congrArg Prod.snd hid
  rw [Checked.key, Checked.key, hclient, hbytes]

/-- A mechanism that opens every message as a ticket for a service and an authenticator of the
time 1000. -/
def fixedMechanism : Mechanism where
  decodeApReq _ := .ok ⟨⟨[], ⟨3, []⟩, ⟨18, none, []⟩⟩, ⟨18, none, []⟩⟩
  decodeEncTicketPart _ := .ok ⟨⟨18, List.replicate 32 0⟩, [], ⟨1, []⟩, 0, none, 36000⟩
  decodeAuthenticator _ :=
    .ok ⟨[], ⟨1, []⟩, some ⟨GSS_CHECKSUM_TYPE, List.replicate 24 0⟩, 0, 1000, none, none⟩
  encodeEncApRepPart _ := .ok []
  encodeApRep _ := .ok []
  decrypt _ _ _ cipher := .ok cipher
  encrypt _ _ _ plain _ := .ok plain

/-- The key of the service. -/
def fixedKeytab : List KeytabEntry := [⟨Xdr.fromUtf8Lossy [], [], 1, 18, List.replicate 32 0⟩]

/-- A call with the message at a number of seconds after the first second in which it is good. -/
def fixedCall (after : ℕ) : Call where
  input := build TOK_ID_AP_REQ []
  now := 700 + after
  instant := after * 1000000000
  random _ := .error (.crypto "")

lemma clocksAdvance_fixedCall {s t : ℕ} (h : s ≤ t) : ClocksAdvance [fixedCall s, fixedCall t] := by
  refine ⟨?_, 700000000000, ?_⟩
  · simp [fixedCall, h]
  · intro c hc
    have hcall : ∃ n, c = fixedCall n := by
      rcases List.mem_cons.1 hc with rfl | hc
      · exact ⟨s, rfl⟩
      · exact ⟨t, List.mem_singleton.1 hc⟩
    obtain ⟨n, rfl⟩ := hcall
    simp only [fixedCall]
    push_cast
    omega

/-- The message is accepted in the first second in which it is good, and not again in the one before
the last. -/
theorem nodup_accepted_within_lifetime :
    ClocksAdvance [fixedCall 0, fixedCall 599] ∧
      (accepted fixedMechanism fixedKeytab Table.empty [fixedCall 0, fixedCall 599]).length = 1 ∧
      ((accepted fixedMechanism fixedKeytab Table.empty [fixedCall 0, fixedCall 599]).map
        fun x => x.2.authenticatorId).Nodup := by
  have hclocks : ClocksAdvance [fixedCall 0, fixedCall 599] := clocksAdvance_fixedCall (by decide)
  refine ⟨hclocks, by decide +kernel, ?_⟩
  refine nodup_accepted_of_not_straddles fixedMechanism fixedKeytab _ hclocks ?_
  refine List.pairwise_pair.2 ?_
  rintro ⟨p, p', -, -, -, -, -, hapart⟩
  exact absurd hapart (by decide)

/-- The message is accepted in the first second in which it is good, and again in the last. -/
theorem not_nodup_accepted :
    ¬ ∀ (M : Mechanism) (keytab : List KeytabEntry) (calls : List Call), ClocksAdvance calls →
      ((accepted M keytab Table.empty calls).map fun x => x.2.authenticatorId).Nodup := by
  intro h
  have hnodup := h fixedMechanism fixedKeytab [fixedCall 0, fixedCall 600]
    (clocksAdvance_fixedCall (by decide))
  exact absurd hnodup (by decide +kernel)

end NextNfs.Krb5
