import NextNfs.Lib.NetAddr

set_option relaxedAutoImplicit false
set_option autoImplicit false

/-!
# The list of clients of an export

`AccessControl` in `export_manager.rs` keeps the addresses and networks that may use an export,
which the configuration gives as strings. This module is about which clients the list lets in.

## Main definitions

* `NextNfs.AccessList.IpNetwork` — an entry that was parsed, with `parse` and `contains`.
* `NextNfs.AccessList.AccessControl` — the list, with `new`, `updateConfig` and `checkClient`.
* `NextNfs.AccessList.Admits`, `NextNfs.AccessList.Allowed` — the clients an entry and a list stand
  for.
* `NextNfs.AccessList.NoneTooLong` — no prefix is too long for its family, until an entry admits the
  client.

## Main results

* `NextNfs.AccessList.check_client_iff` — when the list lets in the clients it stands for.

## Implementation notes

With `checks` the server is built with overflow checks, and the subtraction or the shift that
overflows panics; without them it wraps. Of the configuration only the clients are modelled, since
`check_client` uses nothing else of it.
-/

namespace NextNfs.AccessList

open Text NetAddr

/-! ### Networks -/

/-- `IpNetwork`. -/
structure IpNetwork where
  addr : IpAddr
  prefixLen : UInt8

namespace IpNetwork

/-- `parse`. -/
def parse (s : String) : Option IpNetwork :=
  match splitOnce '/' s.toList with
  | some (addr, len) => do
    let addr ← parseIp addr
    let len ← parseUnsigned (2 ^ 8) len
    some ⟨addr, UInt8.ofNat len⟩
  | none => do
    let addr ← parseIp s.toList
    some ⟨addr, match addr with
      | .v4 _ => 32
      | .v6 _ => 128⟩

/-- The mask of `contains`, for addresses of `w` bits: all ones, shifted. -/
def mask (checks : Bool) (w : ℕ) (prefixLen : UInt8) : Option (BitVec w) :=
  let shift := UInt8.ofNat w - prefixLen
  if checks ∧ (w < prefixLen.toNat ∨ w ≤ shift.toNat) then none
  else some (BitVec.allOnes w <<< (shift.toNat % w))

/-- An arm of `contains`. -/
def containsBits (checks : Bool) {w : ℕ} (prefixLen : UInt8) (net client : BitVec w) :
    Option Bool :=
  if prefixLen = 0 then some true
  else do
    let mask ← mask checks w prefixLen
    some (net &&& mask == client &&& mask)

/-- `contains`. -/
def contains (checks : Bool) (net : IpNetwork) (ip : IpAddr) : Option Bool :=
  match net.addr, ip with
  | .v4 bits, .v4 client => containsBits checks net.prefixLen bits client
  | .v6 bits, .v6 client => containsBits checks net.prefixLen bits client
  | _, _ => some false

/-- The address is in the network. -/
def Matches (net : IpNetwork) (ip : IpAddr) : Prop :=
  match net.addr, ip with
  | .v4 bits, .v4 client => net.prefixLen.toNat ≤ 32 ∧ SamePrefix net.prefixLen.toNat bits client
  | .v6 bits, .v6 client => net.prefixLen.toNat ≤ 128 ∧ SamePrefix net.prefixLen.toNat bits client
  | _, _ => False

/-- The address is of the family of the network, and the prefix is too long for it. -/
def TooLong (net : IpNetwork) (ip : IpAddr) : Prop :=
  match net.addr, ip with
  | .v4 _, .v4 _ => 32 < net.prefixLen.toNat
  | .v6 _, .v6 _ => 128 < net.prefixLen.toNat
  | _, _ => False

end IpNetwork

/-! ### The list -/

/-- `AccessConfig`, of which only the clients are looked at here. -/
structure AccessConfig where
  clients : List String

/-- `AccessControl`. -/
structure AccessControl where
  config : AccessConfig
  allowed : List IpNetwork

/-- `allowed.iter().any`, which stops at the first network with the address. -/
def anyContains (checks : Bool) (ip : IpAddr) : List IpNetwork → Option Bool
  | [] => some false
  | net :: nets => do
    if ← net.contains checks ip then some true else anyContains checks ip nets

/-- The address of a client, with its port or without. -/
def peer (clientAddr : String) : Option IpAddr :=
  parseSocket clientAddr.toList <|> parseIp clientAddr.toList

namespace AccessControl

/-- `new`. -/
def new (config : AccessConfig) : AccessControl :=
  ⟨config, config.clients.filterMap IpNetwork.parse⟩

/-- `update_config`. -/
def updateConfig (_ : AccessControl) (config : AccessConfig) : AccessControl :=
  ⟨config, config.clients.filterMap IpNetwork.parse⟩

/-- `check_client`, or nothing if it panics. -/
def checkClient (checks : Bool) (ac : AccessControl) (clientAddr : String) : Option Bool :=
  if ac.allowed.isEmpty then some true
  else
    match peer clientAddr with
    | some ip => anyContains checks ip ac.allowed
    | none => some false

end AccessControl

/-! ### What the list stands for -/

/-- The entry is the address, or a network that it is in. -/
def Admits (ip : IpAddr) (entry : String) : Prop :=
  ∃ net, IpNetwork.parse entry = some net ∧ net.Matches ip

/-- The entry is a network of the family of the address with a prefix that is too long. -/
def TooLong (ip : IpAddr) (entry : String) : Prop :=
  ∃ net, IpNetwork.parse entry = some net ∧ net.TooLong ip

/-- The list is open to the client: it is empty, or one of its entries admits it. -/
def Allowed (clients : List String) (clientAddr : String) : Prop :=
  clients = [] ∨ ∃ ip, peer clientAddr = some ip ∧ ∃ entry ∈ clients, Admits ip entry

/-- No entry has a prefix that is too long, up to the first one that admits the address. -/
def NoneTooLong (ip : IpAddr) : List String → Prop
  | [] => True
  | entry :: clients => ¬TooLong ip entry ∧ (Admits ip entry ∨ NoneTooLong ip clients)

/-! ### Networks and the list -/

namespace IpNetwork

variable {net : IpNetwork} {ip : IpAddr}

lemma containsBits_of_le {w : ℕ} (hw : w < 256) {prefixLen : UInt8} (h : prefixLen.toNat ≤ w)
    (checks : Bool) (bits client : BitVec w) :
    ∃ b, containsBits checks prefixLen bits client = some b ∧
      (b = true ↔ SamePrefix prefixLen.toNat bits client) := by
  by_cases hzero : prefixLen = 0
  · refine ⟨true, if_pos hzero, iff_of_true rfl ?_⟩
    rw [hzero]
    exact fun i hi => absurd hi (Nat.not_lt_zero i)
  have hpos : 0 < prefixLen.toNat :=
    Nat.pos_of_ne_zero fun h0 => hzero (UInt8.toNat_inj.1 h0)
  have hshift : (UInt8.ofNat w - prefixLen).toNat = w - prefixLen.toNat := by
    rw [UInt8.toNat_sub_of_le, UInt8.toNat_ofNat_of_lt' hw]
    rw [UInt8.le_iff_toNat_le, UInt8.toNat_ofNat_of_lt' hw]
    exact h
  have hmask : mask checks w prefixLen =
      some (BitVec.allOnes w <<< (w - prefixLen.toNat)) := by
    unfold mask
    dsimp only
    rw [hshift, Nat.mod_eq_of_lt (by omega)]
    exact if_neg (by omega)
  refine ⟨_, ?_, beq_iff_eq.trans (and_mask_eq_iff h bits client)⟩
  rw [containsBits, if_neg hzero, hmask]
  rfl

/-- A prefix that is too long overflows. -/
lemma containsBits_of_lt {w : ℕ} {prefixLen : UInt8} (h : w < prefixLen.toNat)
    (bits client : BitVec w) : containsBits true prefixLen bits client = none := by
  have hzero : prefixLen ≠ 0 := by
    rintro rfl
    exact Nat.not_lt_zero w h
  rw [containsBits, if_neg hzero, mask, if_pos ⟨rfl, .inl h⟩]
  rfl

/-- `contains` decides whether the address is in the network, in every build, if the prefix is not
too long. -/
lemma contains_of_not_tooLong (h : ¬net.TooLong ip) (checks : Bool) :
    ∃ b, net.contains checks ip = some b ∧ (b = true ↔ net.Matches ip) := by
  obtain ⟨addr, prefixLen⟩ := net
  cases addr with
  | v4 bits =>
    cases ip with
    | v4 client =>
      have hle : prefixLen.toNat ≤ 32 := Nat.not_lt.1 h
      obtain ⟨b, hb, hiff⟩ := containsBits_of_le (by decide) hle checks bits client
      exact ⟨b, hb, hiff.trans (and_iff_right hle).symm⟩
    | v6 client => exact ⟨false, rfl, iff_of_false Bool.false_ne_true id⟩
  | v6 bits =>
    cases ip with
    | v4 client => exact ⟨false, rfl, iff_of_false Bool.false_ne_true id⟩
    | v6 client =>
      have hle : prefixLen.toNat ≤ 128 := Nat.not_lt.1 h
      obtain ⟨b, hb, hiff⟩ := containsBits_of_le (by decide) hle checks bits client
      exact ⟨b, hb, hiff.trans (and_iff_right hle).symm⟩

lemma contains_of_tooLong (h : net.TooLong ip) : net.contains true ip = none := by
  obtain ⟨addr, prefixLen⟩ := net
  cases addr with
  | v4 bits =>
    cases ip with
    | v4 client => exact containsBits_of_lt h bits client
    | v6 client => cases h
  | v6 bits =>
    cases ip with
    | v4 client => cases h
    | v6 client => exact containsBits_of_lt h bits client

end IpNetwork

section List

variable {ip : IpAddr} {entry : String} {clients : List String}

/-- Entries that do not parse admit nobody. -/
lemma not_admits_of_parse (h : IpNetwork.parse entry = none) : ¬Admits ip entry := by
  rintro ⟨net, hnet, -⟩
  rw [h] at hnet
  cases hnet

lemma not_tooLong_of_parse (h : IpNetwork.parse entry = none) : ¬TooLong ip entry := by
  rintro ⟨net, hnet, -⟩
  rw [h] at hnet
  cases hnet

/-- The search answers as the entries say, in every build, exactly if it does not come to a prefix
that is too long. -/
lemma anyContains_iff (ip : IpAddr) (clients : List String) :
    (∃ b, (∀ checks, anyContains checks ip (clients.filterMap IpNetwork.parse) = some b) ∧
      (b = true ↔ ∃ entry ∈ clients, Admits ip entry)) ↔ NoneTooLong ip clients := by
  induction clients with
  | nil => exact iff_of_true ⟨false, fun _ => rfl, by simp⟩ trivial
  | cons entry clients ih =>
    cases hparse : IpNetwork.parse entry with
    | none =>
      have hnot : ¬ Admits ip entry := not_admits_of_parse hparse
      rw [List.filterMap_cons_none hparse, NoneTooLong, ← ih]
      simp [hnot, not_tooLong_of_parse hparse]
    | some net =>
      have hadmits : Admits ip entry ↔ net.Matches ip := by simp [Admits, hparse]
      have htooLong : TooLong ip entry ↔ net.TooLong ip := by simp [TooLong, hparse]
      rw [List.filterMap_cons_some hparse, NoneTooLong, htooLong, hadmits]
      by_cases hlong : net.TooLong ip
      · -- the search panics
        refine iff_of_false ?_ fun h => h.1 hlong
        rintro ⟨b, hb, -⟩
        have hnone := hb true
        rw [anyContains, IpNetwork.contains_of_tooLong hlong] at hnone
        cases hnone
      · refine Iff.trans ?_ (and_iff_right hlong).symm
        have hcontains := fun checks => IpNetwork.contains_of_not_tooLong hlong checks
        by_cases hmatches : net.Matches ip
        · -- the search stops here
          refine iff_of_true ⟨true, fun checks => ?_, iff_of_true rfl ?_⟩ (.inl hmatches)
          · obtain ⟨b, hb, hiff⟩ := hcontains checks
            rw [anyContains, hb, hiff.2 hmatches]
            rfl
          · exact ⟨entry, List.mem_cons_self, hadmits.2 hmatches⟩
        · have hrest : ∀ checks, anyContains checks ip (net :: clients.filterMap IpNetwork.parse) =
              anyContains checks ip (clients.filterMap IpNetwork.parse) := by
            intro checks
            obtain ⟨b, hb, hiff⟩ := hcontains checks
            have hfalse : b = false := Bool.eq_false_iff.2 fun h => hmatches (hiff.1 h)
            rw [anyContains, hb, hfalse]
            rfl
          simp only [hrest, List.mem_cons, exists_eq_or_imp, hadmits, hmatches, false_or]
          exact ih

/-- If no entry parses, none admits anybody. -/
lemma filterMap_parse_eq_nil (clients : List String) :
    clients.filterMap IpNetwork.parse = [] ↔
      ¬∃ entry ∈ clients, (IpNetwork.parse entry).isSome := by
  simp [List.filterMap_eq_nil_iff]

lemma checkClient_iff (clients : List String) (clientAddr : String) :
    (∃ b, (∀ checks, (AccessControl.new ⟨clients⟩).checkClient checks clientAddr = some b) ∧
      (b = true ↔ Allowed clients clientAddr)) ↔
    (clients = [] ∨ ∃ entry ∈ clients, (IpNetwork.parse entry).isSome) ∧
      ∀ ip, peer clientAddr = some ip → NoneTooLong ip clients := by
  unfold AccessControl.checkClient AccessControl.new
  dsimp only
  by_cases hparses : ∃ entry ∈ clients, (IpNetwork.parse entry).isSome
  · have hne : clients.filterMap IpNetwork.parse ≠ [] := fun h =>
      (filterMap_parse_eq_nil clients).1 h hparses
    have hclients : clients ≠ [] := by
      rintro rfl
      exact hne rfl
    have hempty := List.isEmpty_eq_false_iff.2 hne
    simp only [hempty, Bool.false_eq_true, if_false]
    rw [and_iff_right (.inr hparses)]
    cases hpeer : peer clientAddr with
    | none =>
      refine iff_of_true ⟨false, fun _ => rfl, iff_of_false Bool.false_ne_true ?_⟩ nofun
      rintro (h | ⟨ip, hip, -⟩)
      · exact hclients h
      · rw [hpeer] at hip
        cases hip
    | some ip =>
      have hallowed : Allowed clients clientAddr ↔ ∃ entry ∈ clients, Admits ip entry := by
        simp [Allowed, hclients, hpeer]
      rw [hallowed]
      dsimp only
      rw [anyContains_iff]
      simp
  · -- the list of networks is empty, and the server takes it for no list
    have hnil := (filterMap_parse_eq_nil clients).2 hparses
    rw [hnil]
    simp only [List.isEmpty_nil, if_true, hparses, or_false]
    constructor
    · rintro ⟨b, hb, hiff⟩
      cases Option.some.inj (hb true)
      rcases hiff.1 rfl with h | ⟨ip, -, entry, hentry, net, hnet, -⟩
      · rw [h]
        exact ⟨rfl, fun _ _ => trivial⟩
      · exact absurd ⟨entry, hentry, by rw [hnet]; rfl⟩ hparses
    · rintro ⟨h, -⟩
      exact ⟨true, fun _ => rfl, iff_of_true rfl (.inl h)⟩

end List

/-- The list is that of the last configuration. -/
lemma foldl_updateConfig (config : AccessConfig) (configs : List AccessConfig) :
    configs.foldl AccessControl.updateConfig (.new config) = .new (configs.getLastD config) := by
  induction configs generalizing config with
  | nil => rfl
  | cons c configs ih =>
    rw [List.foldl_cons, List.getLastD_cons]
    exact ih c

/-- **clients list matching.** After any configurations, and in every build, the list lets in
exactly the clients that the last configuration stands for, if and only if the configuration has no
entries or one of them parses, and the search comes to no prefix that is too long for the family of
the client before an entry that admits it.

**Proof sketch.** The search goes through the entries that parse. A network with a prefix that fits
compares the first bits, and one that is too long overflows. If no entry parses the list of networks
is as empty as for a configuration without entries. -/
theorem check_client_iff (config : AccessConfig) (configs : List AccessConfig)
    (clientAddr : String) :
    let ac := configs.foldl AccessControl.updateConfig (.new config)
    let clients := (configs.getLastD config).clients
    (∃ b, (∀ checks, ac.checkClient checks clientAddr = some b) ∧
      (b = true ↔ Allowed clients clientAddr)) ↔
    (clients = [] ∨ ∃ entry ∈ clients, (IpNetwork.parse entry).isSome) ∧
      ∀ ip, peer clientAddr = some ip → NoneTooLong ip clients := by
  intro ac clients
  have hac : ac = .new ⟨clients⟩ := foldl_updateConfig config configs
  rw [hac]
  exact checkClient_iff clients clientAddr

/-- A list of one entry that does not parse is open to everyone, and a prefix of 33 bits overflows:
the server panics, or admits half of all addresses. -/
theorem open_to_everyone :
    ((AccessControl.new ⟨["10.0.0.0/8,10.1.0.0/16"]⟩).checkClient false "192.168.1.1:700" =
        some true ∧
      ¬Allowed ["10.0.0.0/8,10.1.0.0/16"] "192.168.1.1:700") ∧
    (AccessControl.new ⟨["10.0.0.0/33"]⟩).checkClient true "11.0.0.1:700" = none ∧
    (AccessControl.new ⟨["10.0.0.0/33"]⟩).checkClient false "11.0.0.1:700" = some true := by
  refine ⟨⟨by decide, ?_⟩, by decide, by decide⟩
  rintro (h | ⟨ip, -, entry, hentry, net, hnet, -⟩)
  · cases h
  · have hnone : IpNetwork.parse "10.0.0.0/8,10.1.0.0/16" = none := by decide
    rw [List.mem_singleton.1 hentry, hnone] at hnet
    cases hnet

end NextNfs.AccessList
