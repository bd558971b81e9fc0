import Mathlib.Data.Countable.Basic
import Mathlib.Logic.Equiv.List
import Mathlib.Tactic.DeriveCountable
import NextNfs.Krb5.Initiator

set_option relaxedAutoImplicit false
set_option autoImplicit false

/-!
# The Kerberos exchange

An initiator with a ticket sends its message to an acceptor that has been taking any messages from
anyone. This module is about when the acceptor takes it, and what the two sides then share.

## Main definitions

* `NextNfs.Krb5.Issued`, `NextNfs.Krb5.Started` — what a ticket that was issued has in it, and what
  a message that was sent does.
* `NextNfs.Krb5.Acceptor.passed` — the authenticators that the replay cache let pass along a run.
* `NextNfs.Krb5.Agree` — the two sides agree on the context.
* `NextNfs.Krb5.Attempt` — an initiator sends its first message.

## Main results

* `NextNfs.Krb5.exchange_iff` — when the acceptor takes the initiator's message, and that both then
  agree on the context.

## Implementation notes

That a ticket is opened by the key it was encrypted with is all that is used of the cryptography: a
keytab with two keys of one version for a service is left out.
-/

namespace NextNfs.Krb5

open Wire Slices

/-! ### Tickets -/

section Tickets

variable (P : Primitives) (D : Der)

/-- What a client holds after a ticket was issued to it: a ticket for a service, which a key opens,
and the session key in it. -/
structure Issued (svc : Keytab.Entry) (client : String) (start stop : ℤ) (cred : Credential)
    (etype : Enctype) (tkt : EncTicketPart) : Prop where
  enctype : svc.enctype = etype.number
  realm : cred.ticket.realm = Xdr.asBytes svc.realm
  sname : cred.ticket.sname.string = svc.components.map Xdr.asBytes
  admits : D.Admits cred.ticket.sname cred.ticket.realm
  ticketEtype : cred.ticket.encPart.etype = etype.number
  kvno : cred.ticket.encPart.kvno = some svc.kvno
  opens : ∃ bytes, decrypt P etype svc.key KU_TICKET cred.ticket.encPart.cipher = .ok bytes ∧
    D.decodeEncTicketPart bytes = .ok tkt
  key : tkt.key = ⟨cred.sessionEnctype.number, cred.sessionKey⟩
  length : cred.sessionKey.length = cred.sessionEnctype.keyLen
  crealm : tkt.crealm = Xdr.asBytes svc.realm
  cname : principal D client = .ok tkt.cname
  startTime : tkt.startTime = some start
  endTime : tkt.endTime = stop
  client : cred.client = client
  clientRealm : cred.clientRealm = svc.realm

variable {P D} {svc : Keytab.Entry} {client : String} {sessionEnctype : Enctype} {start stop : ℤ}
  {keyBytes : Draw sessionEnctype.keyLen} {confounder : Draw 16} {cred : Credential}

/-- A ticket that is issued is opened by the key it was issued with. -/
lemma issued_of_issueTicket (hD : D.RoundTrips) (hstart : FourDigitYear start)
    (hstop : FourDigitYear stop)
    (h : issueTicket P D svc client sessionEnctype start stop keyBytes confounder = .ok cred) :
    ∃ etype tkt, Issued P D svc client start stop cred etype tkt := by
  unfold issueTicket at h
  cases hetype : Enctype.fromI32 svc.enctype with
  | none =>
    rw [hetype] at h
    cases h
  | some etype =>
    rw [hetype] at h
    obtain ⟨sessionKey, hsession, h⟩ := except_bind_eq_ok.1 h
    obtain ⟨crealm, hcrealm, h⟩ := except_bind_eq_ok.1 h
    obtain ⟨cname, hcname, h⟩ := except_bind_eq_ok.1 h
    obtain ⟨authTime, hauthTime, h⟩ := except_bind_eq_ok.1 h
    obtain ⟨startTime, hstartTime, h⟩ := except_bind_eq_ok.1 h
    obtain ⟨endTime, hendTime, h⟩ := except_bind_eq_ok.1 h
    obtain ⟨bytes, hbytes, h⟩ := except_bind_eq_ok.1 h
    obtain ⟨cipher, hcipher, h⟩ := except_bind_eq_ok.1 h
    obtain ⟨realm, hrealm, h⟩ := except_bind_eq_ok.1 h
    obtain ⟨components, hcomponents, h⟩ := except_bind_eq_ok.1 h
    cases h
    obtain ⟨rfl, hadmits⟩ := gs_eq_ok hcrealm
    obtain ⟨rfl, -⟩ := gs_eq_ok hrealm
    obtain ⟨rfl, hall⟩ := gsAll_eq_ok hcomponents
    obtain rfl := kerberosTime_eq_ok hauthTime
    obtain rfl := kerberosTime_eq_ok hstartTime
    obtain rfl := kerberosTime_eq_ok hendTime
    have hdec := EncodesTo.decode_eq (expect_eq_ok.1 hbytes) (hD.encTicketPart _
      ⟨hadmits, (principalString_principal hcname svc.realm).2⟩ hstart
      (fun t ht => by rwa [← Option.mem_some_iff.1 ht]) hstop)
    exact ⟨etype, _, {
      enctype := Enctype.number_of_fromI32 hetype
      realm := rfl
      sname := rfl
      admits := ⟨hadmits, hall⟩
      ticketEtype := rfl
      kvno := rfl
      opens := ⟨bytes, decrypt_of_encrypt (fails_eq_ok.1 hcipher), hdec⟩
      key := rfl
      length := sessionKey.2
      crealm := rfl
      cname := hcname
      startTime := rfl
      endTime := rfl
      client := rfl
      clientRealm := rfl }⟩

/-! ### Keys of a service -/

lemma KeytabEntry.before_total (kvno : Option UInt32) (a b : KeytabEntry) :
    a.before kvno b ∨ b.before kvno a := by
  unfold KeytabEntry.before
  have hle := UInt32.le_total a.kvno b.kvno
  by_cases ha : some a.kvno = kvno <;> by_cases hb : some b.kvno = kvno <;> simp [ha, hb] <;> tauto

lemma KeytabEntry.before_trans (kvno : Option UInt32) {a b c : KeytabEntry}
    (hab : a.before kvno b) (hbc : b.before kvno c) : a.before kvno c := by
  obtain ⟨hfirst, hle⟩ := hab
  obtain ⟨hfirst', hle'⟩ := hbc
  refine ⟨by tauto, fun hiff => ?_⟩
  exact UInt32.le_trans (hle' (by tauto)) (hle (by tauto))

/-- The first key that is tried has the version of the ticket, if any has. -/
lemma candidates_eq_cons {keytab : List KeytabEntry} {ticket : Ticket} {etype : Enctype}
    {e : KeytabEntry} (hmem : e ∈ keytab) (hrealm : Xdr.fromUtf8Lossy ticket.realm = e.realm)
    (hname : ticket.sname.string.map Xdr.fromUtf8Lossy = e.components)
    (hetype : e.enctype = etype.number) (hkvno : ticket.encPart.kvno = some e.kvno) :
    ∃ first rest, candidates keytab ticket etype = first :: rest ∧ first ∈ keytab ∧
      first.realm = e.realm ∧ first.components = e.components ∧ first.enctype = e.enctype ∧
      first.kvno = e.kvno := by
  set r := fun a b : KeytabEntry => a.before ticket.encPart.kvno b with hr
  have : Std.Total r := ⟨KeytabEntry.before_total ticket.encPart.kvno⟩
  have : IsTrans KeytabEntry r := ⟨fun _ _ _ => KeytabEntry.before_trans ticket.encPart.kvno⟩
  have hsorted : (candidates keytab ticket etype).Pairwise r := List.pairwise_insertionSort r _
  have hiff : ∀ x, x ∈ candidates keytab ticket etype ↔ x ∈ keytab ∧ x.realm = e.realm ∧
      x.components = e.components ∧ x.enctype = e.enctype := by
    intro x
    unfold candidates
    rw [List.mem_insertionSort, List.mem_filter, hrealm, hname, hetype]
    simp
  have he : e ∈ candidates keytab ticket etype := (hiff e).2 ⟨hmem, rfl, rfl, rfl⟩
  cases hcand : candidates keytab ticket etype with
  | nil =>
    rw [hcand] at he
    cases he
  | cons first rest =>
    obtain ⟨hfirst, h₁, h₂, h₃⟩ := (hiff first).1 (by rw [hcand]; exact List.mem_cons_self)
    refine ⟨first, rest, rfl, hfirst, h₁, h₂, h₃, ?_⟩
    rw [hcand] at he hsorted
    rcases List.mem_cons.1 he with rfl | he
    · rfl
    · have hbefore : first.before ticket.encPart.kvno e := (List.pairwise_cons.1 hsorted).1 e he
      rcases hbefore.1 with h | h
      · rw [hkvno] at h
        exact Option.some.inj h
      · exact absurd hkvno.symm h

/-! ### The exchange -/

/-- The keytab has one key for each version of the key of a service and its enctype. -/
def OneKeyEach (keytab : List KeytabEntry) (svc : Keytab.Entry) : Prop :=
  ∀ e ∈ keytab, e.realm = svc.realm → e.components = svc.components → e.enctype = svc.enctype →
    e.kvno = svc.kvno → e.key = svc.key

/-- A time of the acceptor at which a ticket is good. -/
def TicketGood (start stop now : ℤ) : Prop :=
  start - CLOCK_SKEW_SECS ≤ now ∧ now ≤ stop + CLOCK_SKEW_SECS

/-- A ticket that was issued is opened if and only if the time is good for it. -/
lemma openTicket_issued {keytab : List KeytabEntry} {etype : Enctype} {tkt : EncTicketPart}
    (h : Issued P D svc client start stop cred etype tkt) (hsvc : svc.toKeytabEntry ∈ keytab)
    (hkeys : OneKeyEach keytab svc) (now : ℤ) :
    (TicketGood start stop now →
      openTicket (mechanism P D) keytab cred.ticket.toTicket now = .ok tkt) ∧
    (¬ TicketGood start stop now →
      ∃ e, openTicket (mechanism P D) keytab cred.ticket.toTicket now = .error e) := by
  obtain ⟨bytes, hdecrypt, hdecode⟩ := h.opens
  have hname : cred.ticket.sname.string.map Xdr.fromUtf8Lossy = svc.components := by
    rw [h.sname, List.map_map]
    simp [Function.comp_def]
  obtain ⟨first, rest, hcand, hmem, hr, hc, he, hk⟩ :=
    @candidates_eq_cons _ cred.ticket.toTicket etype _ hsvc
      (by rw [h.realm, Xdr.fromUtf8Lossy_asBytes]) hname h.enctype h.kvno
  have hfirst : decrypt P etype first.key KU_TICKET cred.ticket.encPart.cipher = .ok bytes := by
    rw [hkeys first hmem hr hc he hk]
    exact hdecrypt
  have hopen : openTicket (mechanism P D) keytab cred.ticket.toTicket now =
      if tkt.startTime.getD tkt.authTime - CLOCK_SKEW_SECS > now then
        .error (.rejected "ticket not yet valid")
      else if tkt.endTime + CLOCK_SKEW_SECS < now then .error (.rejected "ticket expired")
      else pure tkt := by
    unfold openTicket
    dsimp only
    rw [h.ticketEtype, Enctype.fromI32_number]
    dsimp only
    rw [hcand, List.isEmpty_cons, if_neg Bool.false_ne_true, List.findSome?_cons]
    simp only [mechanism, hfirst, Except.toOption, hdecode, Except.mapError]
    rfl
  rw [hopen, h.startTime, h.endTime, Option.getD_some]
  constructor
  · rintro ⟨hlo, hhi⟩
    rw [if_neg (by omega), if_neg (by omega)]
    rfl
  · intro hbad
    by_cases hlo : start - CLOCK_SKEW_SECS > now
    · exact ⟨_, if_pos hlo⟩
    · rw [if_neg hlo]
      refine ⟨_, if_pos ?_⟩
      by_contra hhi
      exact hbad ⟨not_lt.1 hlo, not_lt.1 hhi⟩

/-- The flags are read back from the checksum. -/
lemma gssFlags_gssChecksum {auth : Authenticator} {flags : UInt32}
    (h : auth.cksum = some ⟨0x8003, gssChecksum flags⟩) : gssFlags auth = .ok flags := by
  have hdrop : (gssChecksum flags).drop 20 = (beBytes 4 flags.toNat).reverse := by
    unfold gssChecksum
    exact List.drop_left' (by simp)
  have htake : ((gssChecksum flags).drop 20).take 4 = (beBytes 4 flags.toNat).reverse := by
    rw [hdrop]
    exact List.take_of_length_le (by simp)
  have hlen : ¬ (gssChecksum flags).length < 24 := by simp [gssChecksum]
  have hnat := flags.toNat_lt
  unfold gssFlags
  rw [h]
  dsimp only
  rw [if_neg (by simpa [GSS_CHECKSUM_TYPE] using hlen), htake, List.reverse_reverse,
    ofBytes_beBytes (by omega), UInt32.ofNat_toNat]

variable (P D) in
/-- What an initiator sends: the ticket of its credential, and an authenticator that the session key
opens. -/
structure Started (cred : Credential) (flags : UInt32) (ctime : ℤ) (ini : Initiator) (tok : Bytes)
    (authBytes : Bytes) (auth : Authenticator) : Prop where
  parses : ∃ msg cipher etype, parse tok = .ok (TOK_ID_AP_REQ, msg) ∧
    D.decodeApReq msg = .ok ⟨cred.ticket.toTicket, ⟨etype, none, cipher⟩⟩ ∧
    decrypt P cred.sessionEnctype cred.sessionKey KU_AP_REQ_AUTH cipher = .ok authBytes
  decodes : D.decodeAuthenticator authBytes = .ok auth
  crealm : auth.crealm = Xdr.asBytes cred.clientRealm
  cname : principal D cred.client = .ok auth.cname
  cksum : auth.cksum = some ⟨0x8003, gssChecksum flags⟩
  cusec : auth.cusec = 123456
  time : auth.ctime = ctime
  seq : (auth.seqNumber.getD 0).toUInt64 = ini.seq
  subkey : (auth.subkey = none ∧ ini.key = ⟨cred.sessionEnctype, cred.sessionKey, false⟩) ∨
    ∃ etype key, auth.subkey = some ⟨Enctype.number etype, key⟩ ∧ ini.key = ⟨etype, key, false⟩ ∧
      key.length = etype.keyLen
  initiator : ini.ctime = ctime ∧ ini.sessionEnctype = cred.sessionEnctype ∧
    ini.sessionKey = cred.sessionKey

variable {flags : UInt32} {subkey : Option Enctype} {ctime : ℤ} {draws : Draws} {ini : Initiator}
  {tok : Bytes}

lemma started_of_start (hD : D.RoundTrips) (hadmits : D.Admits cred.ticket.sname cred.ticket.realm)
    (hyear : FourDigitYear ctime) (hlen : tok.length < 2 ^ 32)
    (h : Initiator.start P D cred flags subkey ctime draws = .ok (ini, tok)) :
    ∃ authBytes auth, Started P D cred flags ctime ini tok authBytes auth := by
  unfold Initiator.start at h
  obtain ⟨key, hkey, h⟩ := except_bind_eq_ok.1 h
  obtain ⟨seq, hseq, h⟩ := except_bind_eq_ok.1 h
  obtain ⟨crealm, hcrealm, h⟩ := except_bind_eq_ok.1 h
  obtain ⟨cname, hcname, h⟩ := except_bind_eq_ok.1 h
  obtain ⟨time, htime, h⟩ := except_bind_eq_ok.1 h
  obtain ⟨authBytes, hauth, h⟩ := except_bind_eq_ok.1 h
  obtain ⟨cipher, hcipher, h⟩ := except_bind_eq_ok.1 h
  obtain ⟨message, hmessage, h⟩ := except_bind_eq_ok.1 h
  cases h
  obtain ⟨rfl, hrealm⟩ := gs_eq_ok hcrealm
  obtain rfl := kerberosTime_eq_ok htime
  have hdec := EncodesTo.decode_eq (expect_eq_ok.1 hauth) (hD.authenticator _
    ⟨hrealm, (principalString_principal hcname cred.clientRealm).2⟩ hyear
    ⟨by norm_num, by norm_num⟩)
  have hreq := EncodesTo.decode_eq (expect_eq_ok.1 hmessage) (hD.apReq _ hadmits)
  refine ⟨authBytes, _, {
    parses := ⟨message, cipher, _, parse_build rfl hlen, hreq,
      decrypt_of_encrypt (fails_eq_ok.1 hcipher)⟩
    decodes := hdec
    crealm := rfl
    cname := hcname
    cksum := rfl
    cusec := rfl
    time := rfl
    seq := rfl
    subkey := ?_
    initiator := ⟨rfl, rfl, rfl⟩ }⟩
  have hkey := fails_eq_ok.1 hkey
  cases subkey with
  | none =>
    cases hkey
    exact .inl ⟨rfl, rfl⟩
  | some etype =>
    obtain ⟨bytes, -, hkey⟩ := except_bind_eq_ok.1 hkey
    cases hkey
    exact .inr ⟨etype, bytes.1, rfl, rfl, bytes.2⟩

/-! The steps of `authenticate`, one after the other. -/

section Steps

variable {M : Mechanism} {keytab : List KeytabEntry} {input msg cipher authBytes : Bytes} {now : ℤ}
  {ticket : Ticket} {kvno : Option UInt32} {aetype : ℤ} {tkt : EncTicketPart} {sessEtype : Enctype}
  {auth : Authenticator} {e : Error}

lemma authenticate_eq_ok (hparse : parse input = .ok (TOK_ID_AP_REQ, msg))
    (hreq : M.decodeApReq msg = .ok ⟨ticket, ⟨aetype, kvno, cipher⟩⟩)
    (hticket : openTicket M keytab ticket now = .ok tkt)
    (hsess : Enctype.fromI32 tkt.key.type = some sessEtype)
    (hauth : openAuthenticator M tkt sessEtype cipher now = .ok (authBytes, auth))
    (hflags : gssFlags auth = .ok flags) :
    authenticate M keytab input now = .ok ⟨principalString ticket.sname ticket.realm,
      principalString tkt.cname tkt.crealm, tkt, sessEtype, authBytes, auth, flags⟩ := by
  unfold authenticate
  rw [hparse, except_ok_bind]
  simp only [ne_eq, not_true_eq_false, if_false, hreq, Except.mapError, except_ok_bind, hticket, hsess,
    hauth, hflags]
  rfl

lemma authenticate_eq_error_of_openTicket (hparse : parse input = .ok (TOK_ID_AP_REQ, msg))
    (hreq : M.decodeApReq msg = .ok ⟨ticket, ⟨aetype, kvno, cipher⟩⟩)
    (hticket : openTicket M keytab ticket now = .error e) :
    ∃ e, authenticate M keytab input now = .error e := by
  unfold authenticate
  rw [hparse, except_ok_bind]
  simp only [ne_eq, not_true_eq_false, if_false, hreq, Except.mapError, except_ok_bind, hticket]
  exact ⟨e, rfl⟩

lemma authenticate_eq_error_of_openAuthenticator (hparse : parse input = .ok (TOK_ID_AP_REQ, msg))
    (hreq : M.decodeApReq msg = .ok ⟨ticket, ⟨aetype, kvno, cipher⟩⟩)
    (hticket : openTicket M keytab ticket now = .ok tkt)
    (hsess : Enctype.fromI32 tkt.key.type = some sessEtype)
    (hauth : openAuthenticator M tkt sessEtype cipher now = .error e) :
    ∃ e, authenticate M keytab input now = .error e := by
  unfold authenticate
  rw [hparse, except_ok_bind]
  simp only [ne_eq, not_true_eq_false, if_false, hreq, Except.mapError, except_ok_bind, hticket, hsess,
    hauth]
  exact ⟨e, rfl⟩

end Steps

/-- What the acceptor knows of an initiator's message when it comes to the replay cache. -/
def checkedOf (svc : Keytab.Entry) (client : String) (cred : Credential) (tkt : EncTicketPart)
    (authBytes : Bytes) (auth : Authenticator) (flags : UInt32) : Checked :=
  ⟨"/".intercalate svc.components ++ "@" ++ svc.realm, client ++ "@" ++ svc.realm, tkt,
    cred.sessionEnctype, authBytes, auth, flags⟩

/-- The times at which an initiator's message is good. -/
def InTime (start stop ctime now : ℤ) : Prop :=
  TicketGood start stop now ∧ |ctime - now| ≤ CLOCK_SKEW_SECS

/-- An initiator's message comes to the replay cache if and only if the time is good for it. -/
lemma authenticate_started {keytab : List KeytabEntry} {etype : Enctype} {tkt : EncTicketPart}
    {authBytes : Bytes} {auth : Authenticator}
    (h : Issued P D svc client start stop cred etype tkt)
    (h' : Started P D cred flags ctime ini tok authBytes auth)
    (hsvc : svc.toKeytabEntry ∈ keytab) (hkeys : OneKeyEach keytab svc) (now : ℤ) :
    (InTime start stop ctime now → authenticate (mechanism P D) keytab tok now =
      .ok (checkedOf svc client cred tkt authBytes auth flags)) ∧
    (¬ InTime start stop ctime now →
      ∃ e, authenticate (mechanism P D) keytab tok now = .error e) := by
  obtain ⟨msg, cipher, aetype, hparse, hreq, hdecrypt⟩ := h'.parses
  have hreq' : (mechanism P D).decodeApReq msg =
      .ok ⟨cred.ticket.toTicket, ⟨aetype, none, cipher⟩⟩ := hreq
  have hcname : auth.cname = tkt.cname := by
    have hcred := h'.cname
    rw [h.client, h.cname] at hcred
    exact (Except.ok.inj hcred).symm
  have hopen : openAuthenticator (mechanism P D) tkt cred.sessionEnctype cipher now =
      if |ctime - now| > CLOCK_SKEW_SECS then .error (.rejected "clock skew too great")
      else pure (authBytes, auth) := by
    unfold openAuthenticator
    have hcrealm : auth.crealm = tkt.crealm := by rw [h'.crealm, h.crealm, h.clientRealm]
    have hdecrypt' : (mechanism P D).decrypt cred.sessionEnctype tkt.key.value KU_AP_REQ_AUTH cipher =
        .ok authBytes := by
      rw [h.key]
      exact hdecrypt
    have hdecodes : (mechanism P D).decodeAuthenticator authBytes = .ok auth := h'.decodes
    rw [hdecrypt', except_ok_bind, hdecodes]
    simp only [Except.mapError, except_ok_bind]
    rw [if_neg (by simp [hcrealm, hcname]), h'.time]
  have hservice : principalString cred.ticket.sname cred.ticket.realm =
      "/".intercalate svc.components ++ "@" ++ svc.realm := by
    simp [principalString, h.sname, h.realm, Function.comp_def]
  have hclient : principalString tkt.cname tkt.crealm = client ++ "@" ++ svc.realm := by
    rw [h.crealm]
    exact (principalString_principal h.cname svc.realm).1
  obtain ⟨hgood, hbad⟩ := openTicket_issued h hsvc hkeys now
  have hsess : Enctype.fromI32 tkt.key.type = some cred.sessionEnctype := by
    rw [h.key, Enctype.fromI32_number]
  have hflags := gssFlags_gssChecksum h'.cksum
  constructor
  · rintro ⟨hticket, hskew⟩
    rw [if_neg (not_lt.2 hskew)] at hopen
    rw [authenticate_eq_ok hparse hreq' (hgood hticket) hsess hopen hflags]
    simp only [hservice, hclient, checkedOf]
  · intro hout
    by_cases hticket : TicketGood start stop now
    · have hskew : |ctime - now| > CLOCK_SKEW_SECS := by
        by_contra hskew
        exact hout ⟨hticket, not_lt.1 hskew⟩
      rw [if_pos hskew] at hopen
      exact authenticate_eq_error_of_openAuthenticator hparse hreq' (hgood hticket) hsess hopen
    · obtain ⟨e, he⟩ := hbad hticket
      exact authenticate_eq_error_of_openTicket hparse hreq' he

/-- The two sides of a context agree: the initiator on one, and what the acceptor accepted. With
mutual authentication the initiator takes the AP-REP, and learns the acceptor's first sequence
number from it. -/
structure Agree (P : Primitives) (D : Der) (svc : Keytab.Entry) (client : String) (stop : ℤ)
    (flags : UInt32) (ini : Initiator) (a : Accepted) : Prop where
  client : a.client = client ++ "@" ++ svc.realm
  service : a.service = "/".intercalate svc.components ++ "@" ++ svc.realm
  key : a.key = ini.key
  length : ini.key.key.length = ini.key.enctype.keyLen
  sameFlags : a.flags = flags
  initiatorSeq : a.initiatorSeq = ini.seq
  expires : a.expires = stop
  oneWay : flags &&& GSS_C_MUTUAL_FLAG = 0 → a.outputToken = none ∧ a.acceptorSeq = ini.seq
  bothWays : flags &&& GSS_C_MUTUAL_FLAG ≠ 0 → ∃ out, a.outputToken = some out ∧
    (out.length < 2 ^ 32 → ini.finish P D out = .ok (ini, a.acceptorSeq))

/-- The system gives random bytes. -/
def Call.Random (c : Call) : Prop := ∀ n, ∃ b, c.random n = .ok b ∧ b.length = n

/-- The AP-REP of the acceptor is taken by the initiator. -/
lemma finish_eq_ok {part bytes cipher rep : Bytes} {seq : UInt32} {cusec : ℤ} {kvno : Option UInt32}
    {etype : ℤ} (hbytes : D.decodeEncApRepPart part = .ok ⟨ini.ctime, cusec, none, some seq⟩)
    (hcipher : decrypt P ini.sessionEnctype ini.sessionKey KU_AP_REP_ENCPART cipher = .ok part)
    (hrep : D.decodeApRep rep = .ok ⟨etype, kvno, cipher⟩)
    (hparse : parse bytes = .ok (TOK_ID_AP_REP, rep)) :
    ini.finish P D bytes = .ok (ini, seq.toUInt64) := by
  unfold Initiator.finish
  rw [hparse, except_ok_bind]
  simp only [ne_eq, not_true_eq_false, if_false, hrep, Except.mapError, except_ok_bind, hcipher, hbytes]
  rfl

/-- An initiator's message that gets past the replay cache establishes a context, on which both
sides agree. -/
lemma establish_started (hD : D.RoundTrips) {etype : Enctype} {tkt : EncTicketPart}
    {authBytes : Bytes} {auth : Authenticator}
    (h : Issued P D svc client start stop cred etype tkt)
    (h' : Started P D cred flags ctime ini tok authBytes auth) (hyear : FourDigitYear ctime)
    {c : Call} (hrandom : c.Random) :
    ∃ a, establish (mechanism P D) c.random (checkedOf svc client cred tkt authBytes auth flags) =
      .ok a ∧ Agree P D svc client stop flags ini a := by
  have hkey : contextKey (checkedOf svc client cred tkt authBytes auth flags) = .ok ini.key ∧
      ini.key.key.length = ini.key.enctype.keyLen := by
    unfold contextKey checkedOf
    dsimp only
    rcases h'.subkey with ⟨hsub, hini⟩ | ⟨etype, key, hsub, hini, hlen⟩
    · rw [hsub, hini, h.key]
      exact ⟨rfl, h.length⟩
    · rw [hsub, hini]
      dsimp only
      rw [Enctype.fromI32_number]
      exact ⟨rfl, hlen⟩
  obtain ⟨hctime, hsess, hsessionKey⟩ := h'.initiator
  unfold establish
  rw [hkey.1, except_ok_bind]
  dsimp only
  rw [if_neg (not_not.2 hkey.2)]
  by_cases hmutual : flags &&& GSS_C_MUTUAL_FLAG = 0
  · -- one way: the sequence numbers start as the initiator's
    have hflags : ¬ (checkedOf svc client cred tkt authBytes auth flags).flags &&&
        GSS_C_MUTUAL_FLAG ≠ 0 := not_not.2 hmutual
    rw [if_neg hflags]
    refine ⟨_, rfl, ?_⟩
    exact {
      client := rfl
      service := rfl
      key := rfl
      length := hkey.2
      sameFlags := rfl
      initiatorSeq := h'.seq
      expires := h.endTime
      oneWay := fun _ => ⟨rfl, h'.seq⟩
      bothWays := fun hne => absurd hmutual hne }
  · -- mutual: an AP-REP in the session key
    obtain ⟨seqBytes, hseq, -⟩ := hrandom 4
    obtain ⟨confounder, hconfounder, hlen⟩ := hrandom 16
    set seq := UInt32.ofNat (ofBytes seqBytes) &&& 0x3fffffff with hseqdef
    obtain ⟨part, hencode, hdecode⟩ := hD.encApRepPart ⟨auth.ctime, auth.cusec, seq⟩
      (by rw [h'.time]; exact hyear) (by rw [h'.cusec]; exact ⟨by norm_num, by norm_num⟩)
    obtain ⟨cipher, hcipher, -, hdecrypt⟩ := decrypt_encryptWithConfounder P cred.sessionEnctype
      cred.sessionKey KU_AP_REP_ENCPART h.length part ⟨confounder, hlen⟩
    obtain ⟨rep, hrep, hback⟩ := hD.apRep ⟨cred.sessionEnctype.number, none, cipher⟩
    have hkeyValue : tkt.key.value = cred.sessionKey := by rw [h.key]
    have hflags : (checkedOf svc client cred tkt authBytes auth flags).flags &&&
        GSS_C_MUTUAL_FLAG ≠ 0 := hmutual
    rw [if_pos hflags, hseq, except_ok_bind]
    simp only [checkedOf, mechanism, ← hseqdef, hencode, Except.mapError, except_ok_bind, hconfounder,
      hkeyValue, dif_pos hlen, hcipher, hrep]
    refine ⟨_, rfl, ?_⟩
    exact {
      client := rfl
      service := rfl
      key := rfl
      length := hkey.2
      sameFlags := rfl
      initiatorSeq := h'.seq
      expires := h.endTime
      oneWay := fun hzero => absurd hzero hmutual
      bothWays := fun _ => ⟨_, rfl, fun hout => finish_eq_ok
        (by rw [hdecode, EncApRepPart.received, hctime, h'.time])
        (by rw [hsess, hsessionKey]; exact hdecrypt) hback (parse_build rfl hout)⟩ }

end Tickets

/-! ### The replay cache along a run -/

namespace Acceptor

section Runs

variable (M : Mechanism) (keytab : List KeytabEntry)

/-- The replay cache after the calls. -/
def cacheAfter (cache : ReplayCache) (calls : List Call) : ReplayCache :=
  calls.foldl (fun cache c => (acceptAt M keytab cache c).1) cache

/-- The key under which a call's authenticator passes the replay cache, with its time, if it comes
so far and does. -/
def pass (cache : ReplayCache) (c : Call) : Option (Bytes × ℕ) :=
  match authenticate M keytab c.input c.now with
  | .ok p => if (cache.checkAndInsert c.instant p.key).2 then some (p.key, c.instant) else none
  | .error _ => none

/-- The authenticators that pass the replay cache along a run. -/
def passed : ReplayCache → List Call → List (Bytes × ℕ)
  | _, [] => []
  | cache, c :: calls =>
    passed (acceptAt M keytab cache c).1 calls ++ (pass M keytab cache c).toList

variable {M keytab} {cache : ReplayCache} {c : Call} {calls : List Call} {old : List (Bytes × ℕ)}

/-- A call leaves the cache with what it needs, and nothing else. -/
lemma acceptAt_tracks (hcovers : Recent.Covers ReplayCache.ttl cache old c.instant)
    (hrecords : Recent.Records cache old) :
    Recent.Covers ReplayCache.ttl (acceptAt M keytab cache c).1
        ((pass M keytab cache c).toList ++ old) c.instant ∧
      Recent.Records (acceptAt M keytab cache c).1 ((pass M keytab cache c).toList ++ old) := by
  obtain ⟨cache', r, hstep⟩ : ∃ cache' r, acceptAt M keytab cache c = (cache', r) := ⟨_, _, rfl⟩
  rw [hstep]
  unfold pass
  rcases acceptAt_cases hstep with ⟨rfl, e, hauth⟩ | ⟨p, b, hauth, hcheck, -⟩
  · rw [hauth]
    exact ⟨hcovers, hrecords⟩
  · rw [hauth]
    dsimp only
    have hcheck' : Recent.checkAndInsert 1024 ReplayCache.ttl cache c.instant p.key = (cache', b) :=
      hcheck
    have hkept := (Recent.checkAndInsert_covers hcovers hcheck').2
    have hrecorded := Recent.checkAndInsert_records hrecords hcheck'
    rw [hcheck]
    cases b
    · exact ⟨hkept, hrecorded⟩
    · exact ⟨hkept, hrecorded⟩

lemma acceptAt_snd_of_ok {p : Checked} (hauth : authenticate M keytab c.input c.now = .ok p) :
    (acceptAt M keytab cache c).2 = if (cache.checkAndInsert c.instant p.key).2 then
      establish M c.random p else .error (.rejected "authenticator replayed") := by
  unfold acceptAt
  rw [hauth]
  dsimp only
  rw [← Checked.key]
  cases hcheck : cache.checkAndInsert c.instant p.key with
  | mk cache' b => cases b <;> rfl

lemma acceptAt_snd_of_error {e : Error} (hauth : authenticate M keytab c.input c.now = .error e) :
    (acceptAt M keytab cache c).2 = .error e := by
  unfold acceptAt
  rw [hauth]

/-- Along a run the cache has what it needs, and nothing else.

**Proof sketch.** Induction on the calls, with `acceptAt_tracks` for each of them; between two calls
time passes. -/
lemma cacheAfter_tracks {now later : ℕ} (hcovers : Recent.Covers ReplayCache.ttl cache old now)
    (hrecords : Recent.Records cache old) (hnow : ∀ c ∈ calls, now ≤ c.instant)
    (hsorted : calls.Pairwise fun c c' => c.instant ≤ c'.instant) (hle : now ≤ later)
    (hlater : ∀ c ∈ calls, c.instant ≤ later) :
    Recent.Covers ReplayCache.ttl (cacheAfter M keytab cache calls)
        (passed M keytab cache calls ++ old) later ∧
      Recent.Records (cacheAfter M keytab cache calls) (passed M keytab cache calls ++ old) := by
  induction calls generalizing cache old now with
  | nil => exact ⟨hcovers.mono hle, hrecords⟩
  | cons c calls ih =>
    obtain ⟨hfirst, hrest⟩ := List.pairwise_cons.1 hsorted
    obtain ⟨hcovers', hrecords'⟩ :=
      acceptAt_tracks (M := M) (hcovers.mono (hnow c List.mem_cons_self)) hrecords
    have h := ih hcovers' hrecords' hfirst hrest (hlater c List.mem_cons_self)
      fun c' hc' => hlater c' (List.mem_cons_of_mem _ hc')
    rw [passed, List.append_assoc]
    exact h

lemma passed_append (calls' : List Call) :
    passed M keytab cache (calls ++ calls') =
      passed M keytab (cacheAfter M keytab cache calls) calls' ++ passed M keytab cache calls := by
  induction calls generalizing cache with
  | nil => simp [passed, cacheAfter]
  | cons c calls ih =>
    rw [List.cons_append, passed, ih, passed, List.append_assoc]
    rfl

/-- What is accepted has passed. -/
lemma mem_passed_of_acceptAt {before mid : List Call} {p : Checked}
    (hauth : authenticate M keytab c.input c.now = .ok p)
    (hok : ∃ a, (acceptAt M keytab (cacheAfter M keytab cache before) c).2 = .ok a) :
    (p.key, c.instant) ∈ passed M keytab cache (before ++ c :: mid) := by
  obtain ⟨a, ha⟩ := hok
  rw [acceptAt_snd_of_ok hauth] at ha
  split_ifs at ha with hcheck
  rw [passed_append, passed, pass, hauth]
  simp [hcheck]

end Runs

end Acceptor

/-- An initiator with a ticket for a service, which was issued to it, sends its first message to an
acceptor with the key of the service. -/
structure Attempt (P : Primitives) (D : Der) (keytab : List KeytabEntry) (svc : Keytab.Entry)
    (client : String) (start stop : ℤ) (flags : UInt32) (ctime : ℤ) (ini : Initiator)
    (tok : Bytes) : Prop where
  known : svc.toKeytabEntry ∈ keytab
  oneKey : OneKeyEach keytab svc
  years : FourDigitYear start ∧ FourDigitYear stop ∧ FourDigitYear ctime
  short : tok.length < 2 ^ 32
  started : ∃ (sessionEnctype : Enctype) (keyBytes : Draw sessionEnctype.keyLen)
    (confounder : Draw 16) (cred : Credential) (subkey : Option Enctype) (draws : Draws),
    issueTicket P D svc client sessionEnctype start stop keyBytes confounder = .ok cred ∧
      Initiator.start P D cred flags subkey ctime draws = .ok (ini, tok)

section Attempts

variable {P : Primitives} {D : Der} {keytab : List KeytabEntry} {svc : Keytab.Entry} {client : String}
  {start stop : ℤ} {flags : UInt32} {ctime : ℤ} {ini : Initiator} {tok : Bytes} {calls : List Call}
  {c : Call}

/-- An acceptor that has taken any messages takes the first message of an initiator if and only if
its clock is in time, and it has not let the same authenticator pass within the lifetime of the
cache. If it takes it, both sides agree.

**Proof sketch.** The key that is tried first on the ticket is the one it was encrypted with
(`candidates_eq_cons`), so the ticket and then the authenticator are read back; the replay cache has
the passes of the run and nothing else (`cacheAfter_tracks`). -/
lemma acceptAt_attempt (hD : D.RoundTrips)
    (hattempt : Attempt P D keytab svc client start stop flags ctime ini tok)
    (hclock : (calls ++ [c]).Pairwise fun c c' => c.instant ≤ c'.instant) (hinput : c.input = tok)
    (hrandom : c.Random) :
    let M := mechanism P D
    let result := (acceptAt M keytab (Acceptor.cacheAfter M keytab Table.empty calls) c).2
    ((∃ a, result = .ok a) ↔ InTime start stop ctime c.now ∧
      ∀ p, authenticate M keytab tok c.now = .ok p →
        ∀ t, (p.key, t) ∈ Acceptor.passed M keytab Table.empty calls →
          t + ReplayCache.ttl ≤ c.instant) ∧
    ∀ a, result = .ok a → Agree P D svc client stop flags ini a := by
  intro M result
  obtain ⟨hsvc, hkeys, hyears, hlen, sessionEnctype, keyBytes, confounder, cred, subkey, draws, hissue,
    hstart⟩ := hattempt
  obtain ⟨etype, tkt, hissued⟩ := issued_of_issueTicket hD hyears.1 hyears.2.1 hissue
  obtain ⟨authBytes, auth, hstarted⟩ := started_of_start hD hissued.admits hyears.2.2 hlen hstart
  obtain ⟨hgood, hbad⟩ := authenticate_started hissued hstarted hsvc hkeys c.now
  obtain ⟨hsorted, -, hlast⟩ := List.pairwise_append.1 hclock
  obtain ⟨hcovers, hrecords⟩ := @Acceptor.cacheAfter_tracks M keytab _ _ _ _ _
    Recent.covers_nil Recent.records_empty (fun c _ => Nat.zero_le c.instant) hsorted
    (Nat.zero_le c.instant) fun c' hc' => hlast c' hc' c (List.mem_singleton_self c)
  rw [List.append_nil] at hcovers hrecords
  by_cases htime : InTime start stop ctime c.now
  · have hauth := hgood htime
    set checked := checkedOf svc client cred tkt authBytes auth flags
    have hpass : (ReplayCache.checkAndInsert (Acceptor.cacheAfter M keytab Table.empty calls)
          c.instant checked.key).2 = true ↔
        ∀ t, (checked.key, t) ∈ Acceptor.passed M keytab Table.empty calls →
          t + ReplayCache.ttl ≤ c.instant :=
      Recent.checkAndInsert_iff hcovers hrecords
    have hresult : result = _ := Acceptor.acceptAt_snd_of_ok (by rw [hinput]; exact hauth)
    obtain ⟨a, hestablish, hagree⟩ := establish_started hD hissued hstarted hyears.2.2 hrandom
    rw [hestablish] at hresult
    rw [hresult]
    refine ⟨⟨fun ⟨a', ha'⟩ => ⟨htime, fun p hp => ?_⟩, fun h => ⟨a, if_pos ?_⟩⟩, fun a' ha' => ?_⟩
    · obtain rfl := Except.ok.inj (hauth.symm.trans hp)
      split_ifs at ha' with hcheck
      exact hpass.1 hcheck
    · exact hpass.2 (h.2 checked hauth)
    · split_ifs at ha'
      obtain rfl := Except.ok.inj ha'
      exact hagree
  · obtain ⟨e, he⟩ := hbad htime
    have hresult : result = .error e := Acceptor.acceptAt_snd_of_error (by rw [hinput]; exact he)
    rw [hresult]
    refine ⟨⟨?_, fun h => absurd h.1 htime⟩, ?_⟩
    · rintro ⟨a, ⟨⟩⟩
    · rintro a ⟨⟩

/-- What authenticates is the same at any time. -/
lemma authenticate_attempt (hD : D.RoundTrips)
    (hattempt : Attempt P D keytab svc client start stop flags ctime ini tok) :
    ∃ p, ∀ now, InTime start stop ctime now →
      authenticate (mechanism P D) keytab tok now = .ok p := by
  obtain ⟨hsvc, hkeys, hyears, hlen, sessionEnctype, keyBytes, confounder, cred, subkey, draws, hissue,
    hstart⟩ := hattempt
  obtain ⟨etype, tkt, hissued⟩ := issued_of_issueTicket hD hyears.1 hyears.2.1 hissue
  obtain ⟨authBytes, auth, hstarted⟩ := started_of_start hD hissued.admits hyears.2.2 hlen hstart
  exact ⟨_, fun now => (authenticate_started hissued hstarted hsvc hkeys now).1⟩

/-- The same, for each of the calls of a run. -/
lemma acceptAt_of_run (hD : D.RoundTrips)
    (hattempt : Attempt P D keytab svc client start stop flags ctime ini tok)
    (hclock : calls.Pairwise fun c c' => c.instant ≤ c'.instant)
    (hrandom : ∀ c ∈ calls, c.input = tok → c.Random) {before after : List Call}
    (hcalls : calls = before ++ c :: after) (hinput : c.input = tok) :
    let M := mechanism P D
    let result := (acceptAt M keytab (Acceptor.cacheAfter M keytab Table.empty before) c).2
    ((∃ a, result = .ok a) ↔ InTime start stop ctime c.now ∧
      ∀ p, authenticate M keytab tok c.now = .ok p →
        ∀ t, (p.key, t) ∈ Acceptor.passed M keytab Table.empty before →
          t + ReplayCache.ttl ≤ c.instant) ∧
    ∀ a, result = .ok a → Agree P D svc client stop flags ini a := by
  have hmem : c ∈ calls := by simp [hcalls]
  refine acceptAt_attempt hD hattempt (hclock.sublist ?_) hinput (hrandom c hmem hinput)
  rw [hcalls]
  exact List.Sublist.append_left (List.singleton_sublist.2 List.mem_cons_self) before

end Attempts

/-- **The exchange.** An acceptor takes messages from anyone, and among them the first message of an
initiator with a ticket for a service whose key it has. Each time it accepts that message if and only
if its clock is within the skew of the ticket's times and of the authenticator's, and it has not let
the same authenticator pass within the lifetime of the cache. If it accepts, both sides agree on the
client, the key, the flags and the sequence numbers, and with mutual authentication the initiator
takes the answer. It does not accept the message again within the lifetime of the cache.

**Proof sketch.** `acceptAt_attempt` for each of the calls. What authenticates is the same each time
(`authenticate_attempt`), so the pass of the first is found by the second. -/
theorem exchange_iff (P : Primitives) {D : Der} (hD : D.RoundTrips) {keytab : List KeytabEntry}
    {svc : Keytab.Entry} {client : String} {start stop : ℤ} {flags : UInt32} {ctime : ℤ}
    {ini : Initiator} {tok : Bytes}
    (hattempt : Attempt P D keytab svc client start stop flags ctime ini tok) (calls : List Call)
    (hclock : calls.Pairwise fun c c' => c.instant ≤ c'.instant)
    (hrandom : ∀ c ∈ calls, c.input = tok → c.Random) :
    let M := mechanism P D
    let result := fun before c =>
      (acceptAt M keytab (Acceptor.cacheAfter M keytab Table.empty before) c).2
    (∀ before c after, calls = before ++ c :: after → c.input = tok →
      ((∃ a, result before c = .ok a) ↔ InTime start stop ctime c.now ∧
        ∀ p, authenticate M keytab tok c.now = .ok p →
          ∀ t, (p.key, t) ∈ Acceptor.passed M keytab Table.empty before →
            t + ReplayCache.ttl ≤ c.instant) ∧
      ∀ a, result before c = .ok a → Agree P D svc client stop flags ini a) ∧
    ∀ before c mid c' after, calls = before ++ c :: (mid ++ c' :: after) → c.input = tok →
      c'.input = tok → (∃ a, result before c = .ok a) → (∃ a, result (before ++ c :: mid) c' = .ok a) →
      c.instant + ReplayCache.ttl ≤ c'.instant := by
  intro M result
  refine ⟨fun before c after hcalls => acceptAt_of_run hD hattempt hclock hrandom hcalls,
    fun before c mid c' after hcalls hinput hinput' hfirst hagain => ?_⟩
  obtain ⟨p, hauth⟩ := authenticate_attempt hD hattempt
  have htime := ((acceptAt_of_run hD hattempt hclock hrandom hcalls hinput).1.1 hfirst).1
  have hcalls' : calls = (before ++ c :: mid) ++ c' :: after := by simp [hcalls]
  obtain ⟨htime', hpassed⟩ :=
    (acceptAt_of_run hD hattempt hclock hrandom hcalls' hinput').1.1 hagain
  refine hpassed p (hauth _ htime') c.instant (Acceptor.mem_passed_of_acceptAt ?_ hfirst)
  rw [hinput]
  exact hauth _ htime

/-! ### A ticket for one client

The encodings here are those of DER on the messages of one exchange, and some others elsewhere. -/

local instance countableUInt8 : Countable UInt8 :=
  Function.Injective.countable fun _ _ (h : UInt8.toNat _ = UInt8.toNat _) => UInt8.toNat_inj.1 h

local instance countableUInt32 : Countable UInt32 :=
  Function.Injective.countable fun _ _ (h : UInt32.toNat _ = UInt32.toNat _) => UInt32.toNat_inj.1 h

local instance countableBytes : Countable Bytes := inferInstanceAs (Countable (List UInt8))

deriving instance Countable for PrincipalName, EncryptionKey, EncryptedData, Checksum
deriving instance Countable for Ticket, EncTicketPart, Authenticator
deriving instance Countable for IssuedTicketPart, IssuedTicket, SentAuthenticator, EncApRepPart
deriving instance Countable for SentApReq

section Sample

variable {α β : Type} [Countable α]

open Classical in
/-- An encoding that is given on one message. -/
noncomputable def encodeSample (sample : α) (bytes : Bytes) (m : α) : Bytes :=
  if m = sample then bytes
  else 0 :: List.replicate (Classical.choose (exists_injective_nat α) m) 0

/-- The message that is encoded, and what is looked at of it. -/
noncomputable def decodeSample (sample : α) (bytes : Bytes) (see : α → β) (b : Bytes) :
    Except String β :=
  have : Nonempty α := ⟨sample⟩
  .ok (see (Function.invFun (encodeSample sample bytes) b))

lemma encodesTo_sample {sample : α} {bytes : Bytes} (hbytes : bytes.head? ≠ some 0) (see : α → β)
    (m : α) : EncodesTo (fun m => .ok (encodeSample sample bytes m))
      (decodeSample sample bytes see) m (see m) := by
  have hinj : Function.Injective (encodeSample sample bytes) := by
    intro a b hab
    unfold encodeSample at hab
    split_ifs at hab with ha hb hb
    · rw [ha, hb]
    · rw [hab] at hbytes
      exact absurd rfl hbytes
    · rw [← hab] at hbytes
      exact absurd rfl hbytes
    · have hlen := congrArg List.length (List.cons.inj hab).2
      rw [List.length_replicate, List.length_replicate] at hlen
      exact Classical.choose_spec (exists_injective_nat α) hlen
  have hnonempty : Nonempty α := ⟨sample⟩
  refine ⟨_, rfl, ?_⟩
  unfold decodeSample
  dsimp only
  rw [Function.leftInverse_invFun hinj m]

lemma encodeSample_self (sample : α) (bytes : Bytes) : encodeSample sample bytes sample = bytes :=
  if_pos rfl

end Sample

/-- A tag, a length and the parts. -/
def tlv (tag : UInt8) (parts : List Bytes) : Bytes :=
  tag :: writeLen parts.flatten.length ++ parts.flatten

/-- A service ticket for `alice`, with the key of `Keytab.serviceKey` and the session key of 32
bytes 0x22. -/
def samplePart : IssuedTicketPart where
  flags := noFlags
  key := ⟨18, List.replicate 32 0x22⟩
  crealm := Xdr.asBytes "EXAMPLE.LO"
  cname := ⟨1, [Xdr.asBytes "alice"]⟩
  transitedType := 1
  transited := []
  authTime := 1700000000
  startTime := some 1700000000
  endTime := 1700003600

/-- Its encoding. -/
def samplePartBytes : Bytes :=
  tlv 0x63 [tlv 0x30 [
    tlv 0xa0 [tlv 0x03 [[0, 0, 0, 0, 0]]],
    tlv 0xa1 [tlv 0x30 [tlv 0xa0 [tlv 0x02 [[18]]], tlv 0xa1 [tlv 0x04 [List.replicate 32 0x22]]]],
    tlv 0xa2 [tlv 0x1b [Xdr.asBytes "EXAMPLE.LO"]],
    tlv 0xa3 [tlv 0x30 [tlv 0xa0 [tlv 0x02 [[1]]],
      tlv 0xa1 [tlv 0x30 [tlv 0x1b [Xdr.asBytes "alice"]]]]],
    tlv 0xa4 [tlv 0x30 [tlv 0xa0 [tlv 0x02 [[1]]], tlv 0xa1 [tlv 0x04 []]]],
    tlv 0xa5 [tlv 0x18 [Xdr.asBytes "20231114221320Z"]],
    tlv 0xa6 [tlv 0x18 [Xdr.asBytes "20231114221320Z"]],
    tlv 0xa7 [tlv 0x18 [Xdr.asBytes "20231114231320Z"]]]]

/-- The confounder of the sample. -/
def sampleConfounder : Block := ⟨List.replicate 16 0x33, List.length_replicate⟩

/-- What a message is encrypted to. -/
def sampleCipher (key : Bytes) (usage : UInt32) (plaintext : Bytes) : Bytes :=
  (encryptWithConfounder samplePrimitives .aes256CtsHmacSha1_96 key usage plaintext
    sampleConfounder).toOption.getD []

lemma encryptWithConfounder_sample {key : Bytes} (hkey : key.length = 32) (usage : UInt32)
    (plaintext : Bytes) :
    encryptWithConfounder samplePrimitives .aes256CtsHmacSha1_96 key usage plaintext
      sampleConfounder = .ok (sampleCipher key usage plaintext) := by
  obtain ⟨c, hc, -, -⟩ := decrypt_encryptWithConfounder samplePrimitives .aes256CtsHmacSha1_96 key
    usage hkey plaintext sampleConfounder
  rw [sampleCipher, hc]
  rfl

lemma encrypt_sample {key : Bytes} (hkey : key.length = 32) (usage : UInt32) (plaintext : Bytes) :
    encrypt samplePrimitives (.ok sampleConfounder) .aes256CtsHmacSha1_96 key usage plaintext =
      .ok (sampleCipher key usage plaintext) := by
  rw [encrypt, except_ok_bind, encryptWithConfounder_sample hkey]

/-- The credential of the sample. -/
def sampleCredential : Credential where
  client := "alice"
  clientRealm := "EXAMPLE.LO"
  ticket := {
    tktVno := 5
    realm := Xdr.asBytes "EXAMPLE.LO"
    sname := ⟨2, [Xdr.asBytes "nfs", Xdr.asBytes "server"]⟩
    encPart := ⟨18, some 300, sampleCipher (List.replicate 32 0x11) KU_TICKET samplePartBytes⟩ }
  sessionEnctype := .aes256CtsHmacSha1_96
  sessionKey := List.replicate 32 0x22

/-- The authenticator of the sample. -/
def sampleAuth : SentAuthenticator where
  authenticatorVno := 5
  crealm := Xdr.asBytes "EXAMPLE.LO"
  cname := ⟨1, [Xdr.asBytes "alice"]⟩
  cksum := some ⟨0x8003, gssChecksum 2⟩
  cusec := 123456
  ctime := 1700000060
  subkey := none
  seqNumber := some 1

/-- Its encoding. -/
def sampleAuthBytes : Bytes :=
  tlv 0x62 [tlv 0x30 [
    tlv 0xa0 [tlv 0x02 [[5]]],
    tlv 0xa1 [tlv 0x1b [Xdr.asBytes "EXAMPLE.LO"]],
    tlv 0xa2 [tlv 0x30 [tlv 0xa0 [tlv 0x02 [[1]]],
      tlv 0xa1 [tlv 0x30 [tlv 0x1b [Xdr.asBytes "alice"]]]]],
    tlv 0xa3 [tlv 0x30 [tlv 0xa0 [tlv 0x02 [[0, 0x80, 0x03]]], tlv 0xa1 [tlv 0x04 [gssChecksum 2]]]],
    tlv 0xa4 [tlv 0x02 [[0x01, 0xe2, 0x40]]],
    tlv 0xa5 [tlv 0x18 [Xdr.asBytes "20231114221420Z"]],
    tlv 0xa7 [tlv 0x02 [[1]]]]]

/-- The AP-REQ of the sample. -/
def sampleReq : SentApReq where
  pvno := 5
  msgType := 14
  apOptions := noFlags.set 2 true
  ticket := sampleCredential.ticket
  authenticator :=
    ⟨18, none, sampleCipher (List.replicate 32 0x22) KU_AP_REQ_AUTH sampleAuthBytes⟩

/-- Its encoding. -/
def sampleReqBytes : Bytes :=
  tlv 0x6e [tlv 0x30 [
    tlv 0xa1 [tlv 0x02 [[5]]],
    tlv 0xa2 [tlv 0x02 [[14]]],
    tlv 0xa3 [tlv 0x03 [[0, 0x20, 0, 0, 0]]],
    tlv 0xa4 [tlv 0x61 [tlv 0x30 [
      tlv 0xa0 [tlv 0x02 [[5]]],
      tlv 0xa1 [tlv 0x1b [Xdr.asBytes "EXAMPLE.LO"]],
      tlv 0xa2 [tlv 0x30 [tlv 0xa0 [tlv 0x02 [[2]]],
        tlv 0xa1 [tlv 0x30 [tlv 0x1b [Xdr.asBytes "nfs"], tlv 0x1b [Xdr.asBytes "server"]]]]],
      tlv 0xa3 [tlv 0x30 [
        tlv 0xa0 [tlv 0x02 [[18]]],
        tlv 0xa1 [tlv 0x02 [[0x01, 0x2c]]],
        tlv 0xa2 [tlv 0x04 [sampleCredential.ticket.encPart.cipher]]]]]]],
    tlv 0xa5 [tlv 0x30 [
      tlv 0xa0 [tlv 0x02 [[18]]],
      tlv 0xa2 [tlv 0x04 [sampleReq.authenticator.cipher]]]]]]

/-- The answer to the sample. -/
def sampleRepPart : EncApRepPart := ⟨1700000060, 123456, 7⟩

/-- Its encoding. -/
def sampleRepPartBytes : Bytes :=
  tlv 0x7b [tlv 0x30 [
    tlv 0xa0 [tlv 0x18 [Xdr.asBytes "20231114221420Z"]],
    tlv 0xa1 [tlv 0x02 [[0x01, 0xe2, 0x40]]],
    tlv 0xa3 [tlv 0x02 [[7]]]]]

/-- The AP-REP of the sample. -/
def sampleRep : EncryptedData :=
  ⟨18, none, sampleCipher (List.replicate 32 0x22) KU_AP_REP_ENCPART sampleRepPartBytes⟩

/-- Its encoding. -/
def sampleRepBytes : Bytes :=
  tlv 0x6f [tlv 0x30 [
    tlv 0xa0 [tlv 0x02 [[5]]],
    tlv 0xa1 [tlv 0x02 [[15]]],
    tlv 0xa2 [tlv 0x30 [tlv 0xa0 [tlv 0x02 [[18]]], tlv 0xa2 [tlv 0x04 [sampleRep.cipher]]]]]]

/-- Encodings that are those of DER on the messages of the sample. -/
noncomputable def sampleDer : Der where
  isGeneralString b := b.all (· < 0x80)
  isTimestamp secs := decide (-8334601228800 ≤ secs ∧ secs ≤ 8210266876799)
  encodeEncTicketPart m := .ok (encodeSample samplePart samplePartBytes m)
  decodeEncTicketPart := decodeSample samplePart samplePartBytes IssuedTicketPart.toEncTicketPart
  encodeAuthenticator m := .ok (encodeSample sampleAuth sampleAuthBytes m)
  decodeAuthenticator := decodeSample sampleAuth sampleAuthBytes SentAuthenticator.toAuthenticator
  encodeApReq m := .ok (encodeSample sampleReq sampleReqBytes m)
  decodeApReq := decodeSample sampleReq sampleReqBytes SentApReq.toApReq
  encodeEncApRepPart m := .ok (encodeSample sampleRepPart sampleRepPartBytes m)
  decodeEncApRepPart := decodeSample sampleRepPart sampleRepPartBytes EncApRepPart.received
  encodeApRep m := .ok (encodeSample sampleRep sampleRepBytes m)
  decodeApRep := decodeSample sampleRep sampleRepBytes id

lemma roundTrips_sampleDer : sampleDer.RoundTrips where
  encTicketPart m _ _ _ _ := encodesTo_sample (by simp [samplePartBytes, tlv]) _ m
  authenticator m _ _ _ := encodesTo_sample (by simp [sampleAuthBytes, tlv]) _ m
  apReq m _ := encodesTo_sample (by simp [sampleReqBytes, tlv]) _ m
  encApRepPart m _ _ := encodesTo_sample (by simp [sampleRepPartBytes, tlv]) _ m
  apRep m := encodesTo_sample (by simp [sampleRepBytes, tlv]) _ m

/-- What is drawn for the sample. -/
def sampleDraws : Draws where
  subkey _ := .error (.crypto "")
  seq := .ok ⟨[0, 0, 0, 1], rfl⟩
  confounder := .ok sampleConfounder

/-- The initiator of the sample. -/
def sampleInitiator : Initiator where
  key := ⟨.aes256CtsHmacSha1_96, List.replicate 32 0x22, false⟩
  seq := 1
  ctime := 1700000060
  sessionEnctype := .aes256CtsHmacSha1_96
  sessionKey := List.replicate 32 0x22

lemma gs_sample {s : String} (h : (Xdr.asBytes s).all (· < 0x80) = true) :
    gs sampleDer s = .ok (Xdr.asBytes s) := if_pos h

lemma gs_realm : gs sampleDer "EXAMPLE.LO" = .ok (Xdr.asBytes "EXAMPLE.LO") :=
  gs_sample (by decide +kernel)

lemma principal_alice : principal sampleDer "alice" = .ok ⟨1, [Xdr.asBytes "alice"]⟩ := by
  have hparts : ("alice".toList.splitOn '/').map String.ofList = ["alice"] := by decide +kernel
  have hgs : gs sampleDer "alice" = .ok (Xdr.asBytes "alice") := gs_sample (by decide +kernel)
  unfold principal
  rw [hparts, gsAll, hgs]
  rfl

lemma kerberosTime_sample {secs : ℤ} (h : 0 ≤ secs ∧ secs ≤ 1700003600) :
    kerberosTime sampleDer secs = .ok secs := by
  refine if_pos (decide_eq_true ?_)
  omega

lemma issueTicket_sample : issueTicket samplePrimitives sampleDer Keytab.serviceKey "alice"
    .aes256CtsHmacSha1_96 1700000000 1700003600 (.ok ⟨List.replicate 32 0x22, rfl⟩)
    (.ok sampleConfounder) = .ok sampleCredential := by
  have hbytes : sampleDer.encodeEncTicketPart samplePart = .ok samplePartBytes :=
    congrArg Except.ok (encodeSample_self samplePart samplePartBytes)
  have hcipher : encrypt samplePrimitives (.ok sampleConfounder) .aes256CtsHmacSha1_96
      Keytab.serviceKey.key KU_TICKET samplePartBytes = _ := encrypt_sample rfl KU_TICKET samplePartBytes
  have hcomponents : gsAll sampleDer Keytab.serviceKey.components =
      .ok [Xdr.asBytes "nfs", Xdr.asBytes "server"] := by
    have hnfs : gs sampleDer "nfs" = .ok (Xdr.asBytes "nfs") := gs_sample (by decide +kernel)
    have hserver : gs sampleDer "server" = .ok (Xdr.asBytes "server") :=
      gs_sample (by decide +kernel)
    show gsAll sampleDer ["nfs", "server"] = _
    rw [gsAll, hnfs, gsAll, hserver]
    rfl
  have hrealm : gs sampleDer Keytab.serviceKey.realm = .ok (Xdr.asBytes "EXAMPLE.LO") := gs_realm
  have hetype : Enctype.fromI32 Keytab.serviceKey.enctype = some .aes256CtsHmacSha1_96 := rfl
  unfold issueTicket
  rw [hetype]
  simp only [fails, except_ok_bind, hrealm, principal_alice, @kerberosTime_sample 1700000000
    (by omega), @kerberosTime_sample 1700003600 (by omega)]
  show (expect (sampleDer.encodeEncTicketPart samplePart) >>= _) = _
  rw [hbytes]
  simp only [expect, except_ok_bind, hcipher, hcomponents]
  rfl

lemma start_sample : Initiator.start samplePrimitives sampleDer sampleCredential 2 none 1700000060
    sampleDraws = .ok (sampleInitiator, build TOK_ID_AP_REQ sampleReqBytes) := by
  have hbytes : sampleDer.encodeAuthenticator sampleAuth = .ok sampleAuthBytes :=
    congrArg Except.ok (encodeSample_self sampleAuth sampleAuthBytes)
  have hreq : sampleDer.encodeApReq sampleReq = .ok sampleReqBytes :=
    congrArg Except.ok (encodeSample_self sampleReq sampleReqBytes)
  have hcipher : encrypt samplePrimitives sampleDraws.confounder sampleCredential.sessionEnctype
      sampleCredential.sessionKey KU_AP_REQ_AUTH sampleAuthBytes = _ :=
    encrypt_sample rfl KU_AP_REQ_AUTH sampleAuthBytes
  have hrealm : gs sampleDer sampleCredential.clientRealm = .ok (Xdr.asBytes "EXAMPLE.LO") := gs_realm
  have hname : principal sampleDer sampleCredential.client = _ := principal_alice
  have hseq : sampleDraws.seq = .ok ⟨[0, 0, 0, 1], rfl⟩ := rfl
  have hkey : Initiator.contextKey sampleCredential sampleDraws none =
      .ok ⟨.aes256CtsHmacSha1_96, List.replicate 32 0x22, false⟩ := rfl
  unfold Initiator.start
  simp only [hkey, fails, except_ok_bind, hrealm, hname, hseq,
    @kerberosTime_sample 1700000060 (by omega)]
  show (expect (sampleDer.encodeAuthenticator sampleAuth) >>= _) = _
  rw [hbytes]
  simp only [expect, except_ok_bind, hcipher]
  show (expect (sampleDer.encodeApReq sampleReq) >>= _) = _
  rw [hreq]
  rfl

/-- The call with the sample, a minute after its authenticator. -/
def sampleCall : Call where
  input := build TOK_ID_AP_REQ sampleReqBytes
  now := 1700000120
  instant := 5
  random n := .ok (if n = 4 then [0, 0, 0, 7] else List.replicate n 0x33)

/-- `alice` starts with her ticket. -/
lemma attempt_sample : Attempt samplePrimitives sampleDer [Keytab.serviceKey.toKeytabEntry]
    Keytab.serviceKey "alice" 1700000000 1700003600 2 1700000060 sampleInitiator
    (build TOK_ID_AP_REQ sampleReqBytes) where
  known := List.mem_singleton_self _
  oneKey e he _ _ _ _ := by rw [List.mem_singleton.1 he]
  years := by
    unfold FourDigitYear
    omega
  short := by decide +kernel
  started := ⟨_, _, _, _, _, _, issueTicket_sample, start_sample⟩

/-- Her message is in time a minute later. -/
lemma inTime_sample : InTime 1700000000 1700003600 1700000060 sampleCall.now := by
  simp [InTime, TicketGood, CLOCK_SKEW_SECS, sampleCall]

lemma random_sample : sampleCall.Random := by
  intro n
  refine ⟨_, rfl, ?_⟩
  split_ifs with h
  · exact h.symm
  · exact List.length_replicate

/-- What she is answered. -/
lemma outputToken_sample {cache : ReplayCache} {a : Accepted}
    (ha : (acceptAt (mechanism samplePrimitives sampleDer) [Keytab.serviceKey.toKeytabEntry] cache
      sampleCall).2 = .ok a) : a.outputToken = some (build TOK_ID_AP_REP sampleRepBytes) := by
  obtain ⟨etype, tkt, hissued⟩ := issued_of_issueTicket roundTrips_sampleDer
    attempt_sample.years.1 attempt_sample.years.2.1 issueTicket_sample
  obtain ⟨authBytes, auth, hstarted⟩ := started_of_start roundTrips_sampleDer hissued.admits
    attempt_sample.years.2.2 attempt_sample.short start_sample
  have hauth : authenticate (mechanism samplePrimitives sampleDer)
      [Keytab.serviceKey.toKeytabEntry] sampleCall.input sampleCall.now = .ok _ :=
    (authenticate_started hissued hstarted attempt_sample.known attempt_sample.oneKey _).1 inTime_sample
  rw [Acceptor.acceptAt_snd_of_ok hauth] at ha
  split_ifs at ha
  obtain ⟨key, -, ha⟩ := except_bind_eq_ok.1 ha
  split_ifs at ha with hlen hmutual
  · have hpart : sampleDer.encodeEncApRepPart ⟨auth.ctime, auth.cusec, 7⟩ = .ok sampleRepPartBytes := by
      rw [hstarted.time, hstarted.cusec]
      exact congrArg Except.ok (encodeSample_self sampleRepPart sampleRepPartBytes)
    have hrep : sampleDer.encodeApRep sampleRep = .ok sampleRepBytes :=
      congrArg Except.ok (encodeSample_self sampleRep sampleRepBytes)
    have hcipher : encryptWithConfounder samplePrimitives .aes256CtsHmacSha1_96
        (List.replicate 32 0x22) KU_AP_REP_ENCPART sampleRepPartBytes sampleConfounder =
          .ok (sampleCipher (List.replicate 32 0x22) KU_AP_REP_ENCPART sampleRepPartBytes) :=
      encryptWithConfounder_sample List.length_replicate _ _
    have hseq : UInt32.ofNat (ofBytes [0, 0, 0, 7]) &&& 0x3fffffff = 7 := by decide
    have hkey : tkt.key.value = List.replicate 32 0x22 := by
      rw [hissued.key]
      rfl
    obtain ⟨bytes, hbytes, ha⟩ := except_bind_eq_ok.1 ha
    cases hbytes
    simp only [checkedOf, mechanism, if_true, hseq, hpart, Except.mapError, except_ok_bind] at ha
    obtain ⟨confounder, hconfounder, ha⟩ := except_bind_eq_ok.1 ha
    cases hconfounder
    obtain ⟨cipher, hcipher', ha⟩ := except_bind_eq_ok.1 ha
    rw [if_neg (by decide), dif_pos List.length_replicate, hkey] at hcipher'
    obtain rfl := Except.ok.inj (hcipher.symm.trans hcipher')
    obtain ⟨rep, hrep', ha⟩ := except_bind_eq_ok.1 ha
    have heq : Except.mapError Error.asn1 (sampleDer.encodeApRep sampleRep) = .ok rep := hrep'
    rw [hrep] at heq
    cases heq
    cases ha
    rfl
  · exact absurd (show (2 : UInt32) &&& GSS_C_MUTUAL_FLAG ≠ 0 by decide) hmutual

/-- A message that is no token. -/
def noToken : Call := ⟨[], 0, 0, fun n => .ok (List.replicate n 0)⟩

/-- **The exchange**, with mutual authentication: `alice` is accepted by an acceptor that has taken a
message that is no token. -/
theorem exchange_sample : ∃ a, (acceptAt (mechanism samplePrimitives sampleDer)
      [Keytab.serviceKey.toKeytabEntry]
      (Acceptor.cacheAfter (mechanism samplePrimitives sampleDer) [Keytab.serviceKey.toKeytabEntry]
        Table.empty [noToken]) sampleCall).2 = .ok a ∧
    Agree samplePrimitives sampleDer Keytab.serviceKey "alice" 1700003600 2 sampleInitiator a := by
  obtain ⟨hone, -⟩ := exchange_iff samplePrimitives roundTrips_sampleDer attempt_sample
    [noToken, sampleCall] (by simp [noToken, sampleCall]) fun c hc _ n => by
      rcases List.mem_pair.1 hc with rfl | rfl
      · exact ⟨_, rfl, List.length_replicate⟩
      · exact random_sample n
  have hpassed : Acceptor.passed (mechanism samplePrimitives sampleDer)
      [Keytab.serviceKey.toKeytabEntry] Table.empty [noToken] = [] := rfl
  obtain ⟨hiff, hagree⟩ := hone [noToken] sampleCall [] rfl rfl
  obtain ⟨a, ha⟩ := hiff.2 ⟨inTime_sample, fun p _ t ht => by simp [hpassed] at ht⟩
  exact ⟨a, ha, hagree a ha⟩

end NextNfs.Krb5
