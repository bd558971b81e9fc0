import Mathlib.Algebra.Group.Nat.Defs
import NextNfs.Lib.Text

set_option relaxedAutoImplicit false
set_option autoImplicit false

/-!
# Network addresses

The addresses of `std::net` and `from_str` of them: the parser takes what it can from the front of
the text, and the whole text has to be taken.

## Main definitions

* `NetAddr.IpAddr` — an address of either family.
* `NetAddr.parseIp`, `NetAddr.parseSocket` — `from_str` of `IpAddr` and of `SocketAddr`.
* `NetAddr.SamePrefix` — two addresses agree in their first bits.

## Main results

* `NetAddr.and_mask_eq_iff` — what is left of two addresses under a mask.
-/

namespace NetAddr

/-- `IpAddr`, as the number that its octets or groups are. -/
inductive IpAddr
  | v4 (bits : BitVec 32)
  | v6 (bits : BitVec 128)
deriving DecidableEq

/-! ### The parser -/

/-- A parser of the front of a text. A part that is not taken is left as it was. -/
abbrev Parser (α : Type) := List Char → Option (α × List Char)

/-- `read_given_char`. -/
def readChar (c : Char) : Parser Unit
  | x :: l => if x = c then some ((), l) else none
  | [] => none

/-- `char::to_digit`. -/
def toDigit (radix : ℕ) (c : Char) : Option ℕ :=
  let digit :=
    if '0' ≤ c ∧ c ≤ '9' then some (c.toNat - '0'.toNat)
    else if 'a' ≤ c ∧ c ≤ 'z' then some (c.toNat - 'a'.toNat + 10)
    else if 'A' ≤ c ∧ c ≤ 'Z' then some (c.toNat - 'A'.toNat + 10)
    else none
  digit.filter (· < radix)

/-- The digits in front. -/
def readDigits (radix : ℕ) : List Char → List ℕ × List Char
  | [] => ([], [])
  | x :: l =>
    match toDigit radix x with
    | some d => (d :: (readDigits radix l).1, (readDigits radix l).2)
    | none => ([], x :: l)

/-- The number that digits to a base make. -/
def ofDigits (base : ℕ) (digits : List ℕ) : ℕ := digits.foldl (fun acc d => acc * base + d) 0

/-- `read_number`, of a type with numbers below the bound. -/
def readNumber (radix : ℕ) (maxDigits : Option ℕ) (allowZeroPrefix : Bool) (bound : ℕ) :
    Parser ℕ := fun l =>
  let (digits, rest) := readDigits radix l
  let n := ofDigits radix digits
  if digits = [] ∨ (∃ k ∈ maxDigits, k < digits.length) ∨
      (!allowZeroPrefix ∧ l.head? = some '0' ∧ 1 < digits.length) ∨ bound ≤ n then none
  else some (n, rest)

/-- `read_separator`. -/
def readSeparator {α : Type} (sep : Char) (i : ℕ) (inner : Parser α) : Parser α := fun l =>
  if i > 0 then (readChar sep l).bind fun r => inner r.2 else inner l

/-- The octets of an IPv4 address that are left. -/
def readOctets : ℕ → ℕ → Parser (List ℕ)
  | 0, _, l => some ([], l)
  | n + 1, i, l =>
    (readSeparator '.' i (readNumber 10 (some 3) false 256) l).bind fun r =>
      (readOctets n (i + 1) r.2).map fun s => (r.1 :: s.1, s.2)

/-- `read_ipv4_addr`. -/
def readIpv4 : Parser (BitVec 32) := fun l =>
  (readOctets 4 0 l).map fun r => (BitVec.ofNat 32 (ofDigits 256 r.1), r.2)

/-- `read_groups`, with the groups left to read and those before, and whether an IPv4 address ends
them. -/
def readGroups : ℕ → ℕ → List Char → List ℕ × Bool × List Char
  | 0, _, l => ([], false, l)
  | n + 1, i, l =>
    match if n > 0 then readSeparator ':' i readIpv4 l else none with
    | some (v4, rest) => ([v4.toNat / 2 ^ 16, v4.toNat % 2 ^ 16], true, rest)
    | none =>
      match readSeparator ':' i (readNumber 16 (some 4) true (2 ^ 16)) l with
      | some (g, rest) => (g :: (readGroups n (i + 1) rest).1, (readGroups n (i + 1) rest).2)
      | none => ([], false, l)

/-- `read_ipv6_addr`. -/
def readIpv6 : Parser (BitVec 128) := fun l => do
  let (head, headIpv4, rest) := readGroups 8 0 l
  if head.length = 8 then some (BitVec.ofNat 128 (ofDigits (2 ^ 16) head), rest)
  else if headIpv4 then none
  else
    let (_, rest) ← readChar ':' rest
    let (_, rest) ← readChar ':' rest
    let (tail, _, rest) := readGroups (8 - (head.length + 1)) 0 rest
    let zeros := List.replicate (8 - head.length - tail.length) 0
    some (BitVec.ofNat 128 (ofDigits (2 ^ 16) (head ++ zeros ++ tail)), rest)

/-- `read_ip_addr`. -/
def readIp : Parser IpAddr := fun l =>
  ((readIpv4 l).map fun r => (.v4 r.1, r.2)) <|> (readIpv6 l).map fun r => (.v6 r.1, r.2)

/-- `read_port`. -/
def readPort : Parser ℕ := fun l => do
  let (_, rest) ← readChar ':' l
  readNumber 10 none true (2 ^ 16) rest

/-- `read_scope_id`. -/
def readScopeId : Parser ℕ := fun l => do
  let (_, rest) ← readChar '%' l
  readNumber 10 none true (2 ^ 32) rest

/-- `read_socket_addr_v4`, of which only the address is kept. -/
def readSocketV4 : Parser IpAddr := fun l => do
  let (ip, rest) ← readIpv4 l
  let (_, rest) ← readPort rest
  some (.v4 ip, rest)

/-- `read_socket_addr_v6`, of which only the address is kept. -/
def readSocketV6 : Parser IpAddr := fun l => do
  let (_, rest) ← readChar '[' l
  let (ip, rest) ← readIpv6 rest
  let rest := match readScopeId rest with
    | some (_, rest) => rest
    | none => rest
  let (_, rest) ← readChar ']' rest
  let (_, rest) ← readPort rest
  some (.v6 ip, rest)

/-- `parse_with`: the whole text is taken. -/
def parseWith {α : Type} (p : Parser α) (l : List Char) : Option α :=
  match p l with
  | some (a, []) => some a
  | _ => none

/-- `from_str` of `IpAddr`. -/
def parseIp (s : List Char) : Option IpAddr := parseWith readIp s

/-- `from_str` of `SocketAddr`, of which only the address is kept. -/
def parseSocket (s : List Char) : Option IpAddr :=
  parseWith (fun l => readSocketV4 l <|> readSocketV6 l) s

example : parseIp "::ffff:10.0.0.1".toList = some (.v6 0xffff0a000001#128) := by decide
example : parseIp "10.0.0.01".toList = none := by decide

/-! ### Masks -/

/-- The first bits are the same. -/
def SamePrefix {w : ℕ} (n : ℕ) (a b : BitVec w) : Prop := ∀ i < n, a.getMsbD i = b.getMsbD i

/-- A mask of as many bits leaves the same of both if their first bits are the same. -/
lemma and_mask_eq_iff {w n : ℕ} (hn : n ≤ w) (a b : BitVec w) :
    a &&& BitVec.allOnes w <<< (w - n) = b &&& BitVec.allOnes w <<< (w - n) ↔
      SamePrefix n a b := by
  have hbit : ∀ c : BitVec w, ∀ i < w, (c &&& BitVec.allOnes w <<< (w - n)).getMsbD i =
      (c.getMsbD i && decide (i < n)) := by
    intro c i hi
    simp only [BitVec.getMsbD_and, BitVec.getMsbD_shiftLeft, BitVec.getMsbD_allOnes]
    congr 1
    simp
    omega
  constructor
  · intro h i hi
    have heq := congrArg (BitVec.getMsbD · i) h
    simpa [hbit _ i (by omega), hi] using heq
  · intro h
    apply BitVec.eq_of_getMsbD_eq
    intro i hi
    rw [hbit a i hi, hbit b i hi]
    by_cases hlt : i < n
    · rw [h i hlt]
    · simp [hlt]

end NetAddr
