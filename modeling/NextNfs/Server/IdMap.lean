import NextNfs.Lib.Text
import NextNfs.Proto.Utf8
import NextNfs.Krb5.Acceptor
import NextNfs.Server.GssServer

set_option relaxedAutoImplicit false
set_option autoImplicit false

/-!
# Kerberos principals and their identities

The acceptor makes a string of the client's name and realm (`principal_string` in `acceptor.rs`),
and `IdMap` in `gss.rs` finds the identity that calls run as by that string. This module is about
the principals that share a string.

## Main definitions

* `NextNfs.IdMap`, `NextNfs.IdMap.identity` — the map from principals to identities.
* `NextNfs.Principal`, `NextNfs.Principal.text` — what a ticket has, and its string.
* `NextNfs.Principal.Unambiguous`, `NextNfs.Principal.Plain` — principals that no other shares its
  string with, and those that no other plain one does.

## Main results

* `NextNfs.identity_by_text` — which principals are told apart by their strings.

## Implementation notes

The contents of `/etc/passwd` and `/etc/group` are those at the time of the call, or nothing if they
cannot be read.
-/

namespace NextNfs

open Wire Text Gss

/-! ### The map -/

/-- `PrincipalMapping`. -/
structure PrincipalMapping where
  principal : String
  uid : UInt32
  gid : UInt32
  gids : List UInt32

/-- `IdMap`, but for the directory of the files. -/
structure IdMap where
  explicit : String → Option (UInt32 × UInt32 × List UInt32)
  localRealms : List String

/-- The contents of `passwd` and `group`. -/
structure Etc where
  passwd : Option String
  group : Option String

namespace IdMap

/-- `new`. The last mapping of a principal counts. -/
def new (mappings : List PrincipalMapping) (localRealms : List String) : IdMap where
  explicit principal := (mappings.reverse.find? (·.principal = principal)).map fun m =>
    (m.uid, m.gid, m.gids)
  localRealms := localRealms

/-- `parse::<u32>`. -/
def parseU32 (l : List Char) : Option UInt32 := (parseUnsigned (2 ^ 32) l).map UInt32.ofNat

/-- The uid and gid of a line of `passwd`, if it is the user's. -/
def passwdLine (user line : List Char) : Option (UInt32 × UInt32) :=
  match line.splitOn ':' with
  | name :: _ :: uid :: gid :: _ =>
    if name = user then do
      let uid ← parseU32 uid
      let gid ← parseU32 gid
      pure (uid, gid)
    else none
  | _ => none

/-- The groups after a line of `group`. -/
def groupLine (user : List Char) (gid : UInt32) (gids : List UInt32) (line : List Char) :
    List UInt32 :=
  match line.splitOn ':' with
  | _ :: _ :: g :: members :: _ =>
    if user ∈ members.splitOn ',' then
      match parseU32 g with
      | some g => if g ≠ gid ∧ g ∉ gids then gids ++ [g] else gids
      | none => gids
    else gids
  | _ => gids

/-- `passwd`. -/
def passwd (etc : Etc) (user : List Char) : Identity := do
  let passwd ← etc.passwd
  let (uid, gid) ← (lines passwd.toList).findSome? (passwdLine user)
  let gids := match etc.group with
    | some group => (lines group.toList).foldl (groupLine user gid) []
    | none => []
  pure (uid, gid, gids)

/-- The services of machine credentials. -/
def machineServices : List String := ["nfs", "host", "root"]

/-- `identity`. -/
def identity (m : IdMap) (etc : Etc) (principal : String) : Identity :=
  match m.explicit principal with
  | some id => some id
  | none => do
    let (name, realm) ← rsplitOnce '@' principal.toList
    if String.ofList realm ∉ m.localRealms then none
    else
      match name.splitOn '/' with
      | [service, _host] =>
        if String.ofList service ∈ machineServices then some (0, 0, []) else none
      | [user] => passwd etc user
      | _ => none

/-- The principal is root by the rule for machine credentials: not by an entry for it, and whatever
the files say. -/
def Machine (m : IdMap) (principal : String) : Prop :=
  m.explicit principal = none ∧ ∀ etc, m.identity etc principal = some (0, 0, [])

/-- The strings that the rule for machine credentials applies to. -/
lemma machine_iff {m : IdMap} {principal : String} : m.Machine principal ↔
    m.explicit principal = none ∧ ∃ name realm service host : List Char,
      rsplitOnce '@' principal.toList = some (name, realm) ∧
      String.ofList realm ∈ m.localRealms ∧ name.splitOn '/' = [service, host] ∧
      String.ofList service ∈ machineServices := by
  refine and_congr_right fun hexplicit => ?_
  have hidentity : ∀ etc, m.identity etc principal = (rsplitOnce '@' principal.toList).bind
      fun p => if String.ofList p.2 ∉ m.localRealms then none
        else match p.1.splitOn '/' with
          | [service, _host] =>
            if String.ofList service ∈ machineServices then some (0, 0, []) else none
          | [user] => passwd etc user
          | _ => none := by
    intro etc
    rw [identity, hexplicit]
    rfl
  constructor
  · intro h
    have hempty := h ⟨none, none⟩
    rw [hidentity] at hempty
    cases hsplit : rsplitOnce '@' principal.toList with
    | none => rw [hsplit] at hempty; cases hempty
    | some p =>
      obtain ⟨name, realm⟩ := p
      rw [hsplit, Option.bind_some] at hempty
      dsimp only at hempty
      split_ifs at hempty with hrealm
      split at hempty
      · rename_i service host hparts
        split_ifs at hempty with hservice
        exact ⟨name, realm, service, host, rfl, hrealm, hparts, hservice⟩
      · cases hempty
      · cases hempty
  · rintro ⟨name, realm, service, host, hsplit, hrealm, hparts, hservice⟩ etc
    rw [hidentity, hsplit, Option.bind_some]
    dsimp only
    rw [if_neg (not_not.2 hrealm), hparts]
    exact if_pos hservice

end IdMap

/-! ### Principals -/

/-- A client principal as it stands in a ticket: the components of its name, and its realm. -/
structure Principal where
  components : List Bytes
  realm : Bytes
deriving DecidableEq

namespace Principal

/-- The principal of strings. -/
def ofStrings (components : List String) (realm : String) : Principal :=
  ⟨components.map Xdr.asBytes, Xdr.asBytes realm⟩

/-- `principal_string`, with a name of any type. -/
def text (p : Principal) : String := Krb5.principalString ⟨1, p.components⟩ p.realm

/-- The principal is a machine credential of a local realm: two components, of which the first is a
service. -/
def OfMachine (m : IdMap) (p : Principal) : Prop :=
  ∃ service host, p.components = [Xdr.asBytes service, host] ∧ service ∈ IdMap.machineServices ∧
    Xdr.fromUtf8Lossy p.realm ∈ m.localRealms

/-- A principal that shares its string with no other: one component that is not empty, neither it
nor the realm with an `@` or U+FFFD, and it without a slash. -/
def Unambiguous (p : Principal) : Prop :=
  ∃ user realm : String, p = ofStrings [user] realm ∧ user ≠ "" ∧ '/' ∉ user.toList ∧
    ('@' ∉ user.toList ∧ '@' ∉ realm.toList) ∧
    ('\uFFFD' ∉ user.toList ∧ '\uFFFD' ∉ realm.toList)

/-- A principal that is read back from its string: one component or more in UTF-8 without slashes,
and a realm in UTF-8 without `@`. -/
def Plain (p : Principal) : Prop :=
  ∃ (components : List String) (realm : String), p = ofStrings components realm ∧ components ≠ [] ∧
    (∀ c ∈ components, '/' ∉ c.toList) ∧ '@' ∉ realm.toList

/-! ### Strings of principals -/

lemma toList_text (p : Principal) : p.text.toList =
    ['/'].intercalate (p.components.map fun c => (Xdr.fromUtf8Lossy c).toList) ++
      '@' :: (Xdr.fromUtf8Lossy p.realm).toList := by
  simp [text, Krb5.principalString, Function.comp_def]

lemma toList_text_ofStrings (components : List String) (realm : String) :
    (ofStrings components realm).text.toList =
      ['/'].intercalate (components.map String.toList) ++ '@' :: realm.toList := by
  simp [toList_text, ofStrings, Function.comp_def]

lemma asBytes_injective : Function.Injective Xdr.asBytes := by
  intro s t h
  have hs := Xdr.fromUtf8Lossy_asBytes s
  rwa [h, Xdr.fromUtf8Lossy_asBytes, eq_comm] at hs

/-- Bytes that are read as a string without U+FFFD are its bytes. -/
lemma eq_asBytes {bs : Bytes} {s : String} (h : Xdr.fromUtf8Lossy bs = s)
    (hs : '\uFFFD' ∉ s.toList) : bs = Xdr.asBytes s := by
  rw [← h] at hs ⊢
  exact (Xdr.asBytes_fromUtf8Lossy hs).symm

/-- An unambiguous principal is the only one with its string. -/
lemma Unambiguous.eq_of_text_eq {p q : Principal} (hp : p.Unambiguous) (h : q.text = p.text) :
    q = p := by
  obtain ⟨user, realm, rfl, hne, hslash, ⟨huser, hrealm⟩, hlost, hlost'⟩ := hp
  have htext := congrArg String.toList h
  rw [toList_text, toList_text_ofStrings, List.map_singleton, List.intercalate_singleton] at htext
  obtain ⟨hname, hrealm⟩ := append_cons_inj huser hrealm htext
  have hnil : user.toList ≠ [] := by simpa using hne
  have hparts := intercalate_eq_of_notMem hnil hslash hname
  obtain ⟨components, qrealm⟩ := q
  match components with
  | [] => cases hparts
  | [c] =>
    have hc : Xdr.fromUtf8Lossy c = user := String.toList_injective (List.cons.inj hparts).1
    have hr : qrealm = Xdr.asBytes realm := eq_asBytes (String.toList_injective hrealm) hlost'
    rw [eq_asBytes hc hlost, hr]
    rfl
  | _ :: _ :: _ => simp at hparts

/-- Only an unambiguous principal is the only one with its string. -/
lemma unambiguous_of_unique {p : Principal} (h : ∀ q : Principal, q.text = p.text → q = p) :
    p.Unambiguous := by
  have hlist : ∀ q : Principal, q.text.toList = p.text.toList → q = p := fun q hq =>
    h q (String.toList_injective hq)
  -- the whole name as one component
  obtain ⟨user, realm, rfl⟩ : ∃ user realm, p = ofStrings [user] realm := by
    refine ⟨String.ofList (['/'].intercalate
      (p.components.map fun c => (Xdr.fromUtf8Lossy c).toList)), Xdr.fromUtf8Lossy p.realm, ?_⟩
    refine (hlist _ ?_).symm
    rw [toList_text_ofStrings, toList_text]
    simp
  have hone : (ofStrings [user] realm).text.toList = user.toList ++ '@' :: realm.toList := by
    simp [toList_text_ofStrings]
  rw [hone] at hlist
  refine ⟨user, realm, rfl, ?_, fun hslash => ?_, ⟨fun hat => ?_, fun hat => ?_⟩,
    fun hlost => ?_, fun hlost => ?_⟩
  · rintro rfl
    have heq := hlist ⟨[], Xdr.asBytes realm⟩ (by simp [toList_text])
    cases congrArg Principal.components heq
  · obtain ⟨a, b, hab⟩ := List.append_of_mem hslash
    have heq := hlist (ofStrings [String.ofList a, String.ofList b] realm) (by
      simp [toList_text_ofStrings, hab, List.intercalate_cons_cons])
    have hlen := congrArg (List.length ∘ Principal.components) heq
    simp [ofStrings] at hlen
  · obtain ⟨a, b, hab⟩ := List.append_of_mem hat
    have heq := hlist (ofStrings [String.ofList a] (String.ofList (b ++ '@' :: realm.toList))) (by
      simp [toList_text_ofStrings, hab])
    have hrealm := congrArg String.toList (asBytes_injective (congrArg Principal.realm heq))
    have hlen := congrArg List.length hrealm
    simp at hlen
    omega
  · obtain ⟨a, b, hab⟩ := List.append_of_mem hat
    have heq := hlist (ofStrings [String.ofList (user.toList ++ '@' :: a)] (String.ofList b)) (by
      simp [toList_text_ofStrings, hab])
    have hrealm := congrArg String.toList (asBytes_injective (congrArg Principal.realm heq))
    have hlen := congrArg List.length hrealm
    rw [hab] at hlen
    simp at hlen
    omega
  · obtain ⟨bs, hne, hbs⟩ := Xdr.exists_fromUtf8Lossy_eq hlost
    have heq := hlist ⟨[bs], Xdr.asBytes realm⟩ (by simp [toList_text, hbs])
    exact hne (List.cons.inj (congrArg Principal.components heq)).1
  · obtain ⟨bs, hne, hbs⟩ := Xdr.exists_fromUtf8Lossy_eq hlost
    have heq := hlist ⟨[Xdr.asBytes user], bs⟩ (by simp [toList_text, hbs])
    exact hne (congrArg Principal.realm heq)

/-- A plain principal is read back from its string. -/
lemma Plain.split {p : Principal} (hp : p.Plain) : ∃ components realm,
    p = ofStrings components realm ∧ ∃ name,
      rsplitOnce '@' p.text.toList = some (name, realm.toList) ∧
      name.splitOn '/' = components.map String.toList := by
  obtain ⟨components, realm, rfl, hne, hslash, hat⟩ := hp
  refine ⟨components, realm, rfl, ['/'].intercalate (components.map String.toList), ?_, ?_⟩
  · rw [toList_text_ofStrings, rsplitOnce_append _ hat]
  · refine List.splitOn_intercalate '/' ?_ (by simpa using hne)
    simpa using hslash

/-- Plain principals have different strings. -/
lemma Plain.text_inj {p q : Principal} (hp : p.Plain) (hq : q.Plain) (h : p.text = q.text) :
    p = q := by
  obtain ⟨components, realm, rfl, name, hsplit, hparts⟩ := hp.split
  obtain ⟨components', realm', rfl, name', hsplit', hparts'⟩ := hq.split
  rw [h, hsplit'] at hsplit
  obtain ⟨rfl, hrealm⟩ := Prod.mk.inj (Option.some.inj hsplit)
  rw [hparts'] at hparts
  have hcomponents : components' = components :=
    List.map_injective_iff.2 (fun _ _ => String.toList_injective) hparts
  rw [hcomponents, String.toList_injective hrealm]

/-- Every principal shares its string with a plain one. -/
lemma exists_plain (p : Principal) : ∃ q : Principal, q.Plain ∧ q.text = p.text := by
  have hmem : '@' ∈ p.text.toList := by simp [toList_text]
  obtain ⟨⟨name, realm⟩, hsplit⟩ : ∃ r, rsplitOnce '@' p.text.toList = some r := by
    rw [← Option.isSome_iff_exists, Option.isSome_iff_ne_none]
    exact fun hnone => rsplitOnce_eq_none.1 hnone hmem
  obtain ⟨htext, hat⟩ := eq_of_rsplitOnce hsplit
  refine ⟨ofStrings ((name.splitOn '/').map String.ofList) (String.ofList realm),
    ⟨_, _, rfl, ?_, ?_, ?_⟩, ?_⟩
  · simp
  · simpa using notMem_of_mem_splitOn '/' name
  · simpa using hat
  · apply String.toList_injective
    rw [toList_text_ofStrings, htext, List.map_map]
    simp [Function.comp_def]

/-- The rule for machine credentials applies to no plain principal but machine credentials. -/
lemma Plain.ofMachine {p : Principal} (hp : p.Plain) {m : IdMap} (h : m.Machine p.text) :
    p.OfMachine m := by
  obtain ⟨components, realm, rfl, name, hsplit, hparts⟩ := hp.split
  obtain ⟨-, name', realm', service, host, hsplit', hrealm, hparts', hservice⟩ :=
    IdMap.machine_iff.1 h
  rw [hsplit] at hsplit'
  obtain ⟨rfl, rfl⟩ := Prod.mk.inj (Option.some.inj hsplit')
  rw [hparts] at hparts'
  obtain ⟨service', rest, rfl, rfl, hrest⟩ := List.map_eq_cons_iff.1 hparts'
  obtain ⟨host', rfl, -⟩ := List.map_eq_singleton_iff.1 hrest
  have hservice' : service' ∈ IdMap.machineServices := by
    rwa [String.ofList_toList] at hservice
  have hrealm' : Xdr.fromUtf8Lossy (Xdr.asBytes realm) ∈ m.localRealms := by
    rwa [Xdr.fromUtf8Lossy_asBytes, ← String.ofList_toList (s := realm)]
  exact ⟨service', Xdr.asBytes host', rfl, hservice', hrealm'⟩

lemma Unambiguous.plain {p : Principal} (hp : p.Unambiguous) : p.Plain := by
  obtain ⟨user, realm, rfl, -, hslash, ⟨-, hat⟩, -⟩ := hp
  exact ⟨[user], realm, rfl, by simp, by simpa using hslash, hat⟩

end Principal

open Principal

/-- **Kerberos identity mapping.** A principal shares its string with no other, and is root by the
rule for machine credentials only if it is one, exactly if it is unambiguous. A plain principal
shares its string with no other plain one, and is root by that rule only if it is a machine
credential; and every principal shares its string with a plain one.

**Proof sketch.** The string of a plain principal is split at its last `@`, and the name at every
slash. A principal that is not unambiguous has another with the same string: a slash or an `@` in it
can also be a separator, and U+FFFD also stands for bytes that are not UTF-8. -/
theorem identity_by_text (p : Principal) :
    (((∀ q : Principal, q.text = p.text → q = p) ∧ ∀ m : IdMap, m.Machine p.text → p.OfMachine m) ↔
      p.Unambiguous) ∧
    (p.Plain → (∀ q : Principal, q.Plain → q.text = p.text → q = p) ∧
      ∀ m : IdMap, m.Machine p.text → p.OfMachine m) ∧
    ∃ q : Principal, q.Plain ∧ q.text = p.text := by
  refine ⟨⟨fun h => unambiguous_of_unique h.1, fun hp => ⟨fun q => hp.eq_of_text_eq, ?_⟩⟩,
    fun hp => ⟨fun q hq => hq.text_inj hp, fun m => hp.ofMachine⟩, exists_plain p⟩
  exact fun m => hp.plain.ofMachine

/-- **Kerberos identity mapping**, of a user and of a machine credential. -/
theorem identity_by_text_sample :
    (∀ q : Principal, q.text = (ofStrings ["alice"] "EXAMPLE.LO").text →
      q = ofStrings ["alice"] "EXAMPLE.LO") ∧
    (ofStrings ["nfs", "x"] "EXAMPLE.LO").OfMachine (.new [] ["EXAMPLE.LO"]) := by
  have halice : (ofStrings ["alice"] "EXAMPLE.LO").Unambiguous :=
    ⟨"alice", "EXAMPLE.LO", rfl, by decide, by decide, by decide, by decide⟩
  have hmachine : (ofStrings ["nfs", "x"] "EXAMPLE.LO").Plain :=
    ⟨["nfs", "x"], "EXAMPLE.LO", rfl, by decide, by decide, by decide⟩
  refine ⟨((identity_by_text _).1.2 halice).1, ((identity_by_text _).2.1 hmachine).2 _ ?_⟩
  rw [IdMap.machine_iff]
  exact ⟨rfl, "nfs/x".toList, "EXAMPLE.LO".toList, "nfs".toList, "x".toList, by decide, by decide,
    by decide, by decide⟩

/-- A user whose name has a slash in it is root, and shares the string of a machine credential. -/
theorem root_by_slash :
    ofStrings ["nfs/x"] "EXAMPLE.LO" ≠ ofStrings ["nfs", "x"] "EXAMPLE.LO" ∧
    (ofStrings ["nfs/x"] "EXAMPLE.LO").text = (ofStrings ["nfs", "x"] "EXAMPLE.LO").text ∧
    (IdMap.new [] ["EXAMPLE.LO"]).Machine (ofStrings ["nfs/x"] "EXAMPLE.LO").text ∧
    ¬(ofStrings ["nfs/x"] "EXAMPLE.LO").OfMachine (.new [] ["EXAMPLE.LO"]) := by
  refine ⟨by decide, by decide, ?_, ?_⟩
  · rw [IdMap.machine_iff]
    exact ⟨rfl, "nfs/x".toList, "EXAMPLE.LO".toList, "nfs".toList, "x".toList, by decide, by decide,
      by decide, by decide⟩
  · rintro ⟨service, host, hcomponents, -⟩
    cases congrArg List.length hcomponents

end NextNfs
