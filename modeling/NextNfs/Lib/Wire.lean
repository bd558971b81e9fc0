import Mathlib.Data.List.Basic
import Mathlib.Data.Vector.Basic
import Mathlib.Tactic.Ring
import Mathlib.Tactic.Linarith
import Mathlib.Tactic.NormNum

set_option relaxedAutoImplicit false
set_option autoImplicit false

/-!
# Big-endian words, readers and codecs

This module is a small library for binary wire formats; it names nothing of any one
protocol. A *reader* consumes a byte string from the front and may fail. A *codec* is a
writer together with a reader, carrying the proof that they fit.

The writer of a codec is parametrised by a *numbering*: tagged unions may be written with
the position of the alternative in its declaration or with the number the declaration
attaches to it. The reader knows positions only. `Codec.Agrees` singles out the values on
which the two numberings make no difference to the reader, and the two laws of a codec say
that it is exactly on those values that reading undoes writing.

## Main definitions

* `Wire.beBytes`, `Wire.ofBytes` — big-endian words of any width.
* `Wire.Reader` — a reader, the state monad over the remaining input with errors.
* `Wire.Codec` — a writer and a reader with their two laws.
* `Wire.Codec.prod`, `Wire.Codec.iso`, `Wire.Codec.seq`, `Wire.Codec.option` — combinators.
* `Wire.TaggedUnion` — a tagged union given by its table of variants, and its codec.

## Main results

* `Wire.ofBytes_beBytes`, `Wire.beBytes_ofBytes` — words round trip.
-/

namespace Wire

/-- A byte string. -/
abbrev Bytes := List UInt8

/-! ### Big-endian words -/

/-- The low `k` bytes of `n`, most significant first. -/
def beBytes : ℕ → ℕ → Bytes
  | 0, _ => []
  | k + 1, n => UInt8.ofNat (n / 256 ^ k) :: beBytes k n

/-- The number a byte string denotes, most significant byte first. -/
def ofBytes (bs : Bytes) : ℕ := bs.foldl (fun acc b => acc * 256 + b.toNat) 0

/-- A word of width `k` has `k` bytes. -/
@[simp] lemma length_beBytes (k n : ℕ) : (beBytes k n).length = k := by
  induction k with
  | zero => rfl
  | succ k ih => simp [beBytes, ih]

/-- The accumulator of `ofBytes` moves to the front with the weight of what follows. -/
lemma foldl_ofBytes (bs : Bytes) (acc : ℕ) :
    bs.foldl (fun acc b => acc * 256 + b.toNat) acc = acc * 256 ^ bs.length + ofBytes bs := by
  induction bs generalizing acc with
  | nil => simp [ofBytes]
  | cons b bs ih =>
    have h0 : ofBytes (b :: bs) = b.toNat * 256 ^ bs.length + ofBytes bs := by
      simp only [ofBytes, List.foldl_cons, Nat.zero_mul, Nat.zero_add]
      exact ih b.toNat
    rw [List.foldl_cons, ih, h0, List.length_cons, pow_succ]
    ring

/-- Reading a word byte by byte. -/
lemma ofBytes_cons (b : UInt8) (bs : Bytes) :
    ofBytes (b :: bs) = b.toNat * 256 ^ bs.length + ofBytes bs := by
  have h := foldl_ofBytes bs b.toNat
  simpa [ofBytes] using h

/-- A byte string of length `k` denotes a number below `256 ^ k`. -/
lemma ofBytes_lt (bs : Bytes) : ofBytes bs < 256 ^ bs.length := by
  induction bs with
  | nil => simp [ofBytes]
  | cons b bs ih =>
    rw [ofBytes_cons, List.length_cons, pow_succ]
    have hb : b.toNat < 256 := b.toNat_lt
    nlinarith

/-- Reading back a word of width `k` gives the number modulo `256 ^ k`. -/
lemma ofBytes_beBytes_mod (k n : ℕ) : ofBytes (beBytes k n) = n % 256 ^ k := by
  induction k with
  | zero => simp [beBytes, ofBytes, Nat.mod_one]
  | succ k ih =>
    rw [beBytes, ofBytes_cons, ih, length_beBytes, pow_succ, Nat.mod_mul]
    have hb : (UInt8.ofNat (n / 256 ^ k)).toNat = n / 256 ^ k % 256 := by simp
    rw [hb]
    ring

/-- Words round trip. -/
lemma ofBytes_beBytes {k n : ℕ} (h : n < 256 ^ k) : ofBytes (beBytes k n) = n := by
  rw [ofBytes_beBytes_mod, Nat.mod_eq_of_lt h]

/-- The bytes of a word depend on its low part only. -/
lemma beBytes_add_mul (k a c : ℕ) : beBytes k (a * 256 ^ k + c) = beBytes k c := by
  induction k generalizing a with
  | zero => rfl
  | succ k ih =>
    have h1 : a * 256 ^ (k + 1) + c = (a * 256) * 256 ^ k + c := by ring
    have h2 : ((a * 256) * 256 ^ k + c) / 256 ^ k = a * 256 + c / 256 ^ k := by
      rw [Nat.add_comm, Nat.add_mul_div_right _ _ (by positivity), Nat.add_comm]
    rw [beBytes, beBytes, h1, ih, h2]
    congr 1
    apply UInt8.toNat.inj
    simp

/-- Writing back the number a byte string denotes gives the byte string. -/
lemma beBytes_ofBytes (bs : Bytes) : beBytes bs.length (ofBytes bs) = bs := by
  induction bs with
  | nil => rfl
  | cons b bs ih =>
    rw [ofBytes_cons, List.length_cons, beBytes, beBytes_add_mul, ih]
    have hlt := ofBytes_lt bs
    have hq : (b.toNat * 256 ^ bs.length + ofBytes bs) / 256 ^ bs.length = b.toNat := by
      rw [Nat.add_comm, Nat.add_mul_div_right _ _ (by positivity), Nat.div_eq_of_lt hlt,
        Nat.zero_add]
    rw [hq]
    simp

/-! ### Readers -/

section Readers

variable {ε α β : Type}

/-- A reader of an `α`: it consumes bytes from the front of the input, or fails. -/
abbrev Reader (ε α : Type) := StateT Bytes (Except ε) α

/-- Read the next `n` bytes, or fail with `e`. -/
def Reader.take (e : ε) (n : ℕ) : Reader ε Bytes := fun bs =>
  if n ≤ bs.length then .ok (bs.take n, bs.drop n) else .error e

/-- Read one value after another, `n` of them. -/
def Reader.replicate (rd : Reader ε α) : ℕ → Reader ε (List α)
  | 0 => pure []
  | n + 1 => do
    let a ← rd
    let as ← Reader.replicate rd n
    pure (a :: as)

lemma except_ok_bind {ε α β : Type} (a : α) (f : α → Except ε β) :
    ((.ok a : Except ε α) >>= f) = f a := rfl

/-- Sequencing two computations that may fail succeeds when both do. -/
lemma except_bind_eq_ok {x : Except ε α} {f : α → Except ε β} {b : β} :
    (x >>= f) = .ok b ↔ ∃ a, x = .ok a ∧ f a = .ok b := by
  cases x with
  | error e => simp [bind, Except.bind]
  | ok a => simp [bind, Except.bind]

/-- Running two readers in sequence succeeds when both do. -/
lemma Reader.bind_eq_ok {rd : Reader ε α} {f : α → Reader ε β} {bs : Bytes} {b : β} {r : Bytes} :
    (rd >>= f) bs = .ok (b, r) ↔ ∃ a r', rd bs = .ok (a, r') ∧ f a r' = .ok (b, r) := by
  change (rd bs >>= fun p => f p.1 p.2) = .ok (b, r) ↔ _
  rw [except_bind_eq_ok]
  constructor
  · rintro ⟨⟨a, r'⟩, h1, h2⟩
    exact ⟨a, r', h1, h2⟩
  · rintro ⟨a, r', h1, h2⟩
    exact ⟨(a, r'), h1, h2⟩

/-- A reader continues with what its first part left over. -/
lemma Reader.bind_ok {rd : Reader ε α} (f : α → Reader ε β) {bs r : Bytes} {a : α}
    (h : rd bs = .ok (a, r)) : (rd >>= f) bs = f a r := by
  change (rd bs >>= fun p => f p.1 p.2) = f a r
  rw [h]
  rfl

/-- Returning a value consumes nothing. -/
@[simp] lemma Reader.pure_apply (a : α) (bs : Bytes) :
    (pure a : Reader ε α) bs = .ok (a, bs) := rfl

/-- Failing leaves no result. -/
@[simp] lemma Reader.throw_apply (e : ε) (bs : Bytes) :
    (throw e : Reader ε α) bs = .error e := rfl

/-- Mapping over the result of a reader. -/
lemma Reader.map_eq_ok {rd : Reader ε α} {f : α → β} {bs : Bytes} {b : β} {r : Bytes} :
    (f <$> rd) bs = .ok (b, r) ↔ ∃ a, rd bs = .ok (a, r) ∧ f a = b := by
  rw [map_eq_pure_bind, Reader.bind_eq_ok]
  constructor
  · rintro ⟨a, r', h1, h2⟩
    simp only [Reader.pure_apply, Except.ok.injEq, Prod.mk.injEq] at h2
    exact ⟨a, h2.2 ▸ h1, h2.1⟩
  · rintro ⟨a, h1, rfl⟩
    exact ⟨a, r, h1, rfl⟩

/-- The bytes in front are taken and the rest is left. -/
@[simp] lemma Reader.take_append (e : ε) {n : ℕ} {front : Bytes} (rest : Bytes)
    (h : front.length = n) : Reader.take e n (front ++ rest) = .ok (front, rest) := by
  subst h
  simp [Reader.take]

/-- What a successful `take` says about the input. -/
lemma Reader.take_eq_ok {e : ε} {n : ℕ} {bs front rest : Bytes} :
    Reader.take e n bs = .ok (front, rest) ↔ bs = front ++ rest ∧ front.length = n := by
  constructor
  · intro h
    rw [Reader.take] at h
    split_ifs at h with hn
    simp only [Except.ok.injEq, Prod.mk.injEq] at h
    obtain ⟨rfl, rfl⟩ := h
    exact ⟨(List.take_append_drop n bs).symm, List.length_take_of_le hn⟩
  · rintro ⟨rfl, h⟩
    exact Reader.take_append e rest h

end Readers

/-! ### Codecs -/

/-- Which number stands for an alternative of a tagged union: its position in the
declaration, or the number the declaration gives it. -/
inductive Numbering
  | position
  | declared
deriving DecidableEq, Repr

/-- A writer and a reader of an `α` that fit. `Wf` is what a value has to satisfy to be
written at all; `Reads ν a` says that the reader understands `a` as numbering `ν` writes it.
The laws make `Reads` exact: on well-formed values it is equivalent to reading back. -/
structure Codec (ε α : Type) where
  /-- The bytes of a value under a numbering. -/
  put : Numbering → α → Except ε Bytes
  /-- The reader. -/
  get : Reader ε α
  /-- The values the format has a form for. -/
  Wf : α → Prop
  /-- The values the reader understands. -/
  Reads : Numbering → α → Prop
  /-- Reading undoes writing on the values the reader understands. -/
  get_put : ∀ {ν : Numbering} {a : α} {bs : Bytes} (r : Bytes), Wf a → Reads ν a →
    put ν a = .ok bs → get (bs ++ r) = .ok (a, r)
  /-- The reader understands every value it gives back. -/
  reads_of_get : ∀ {ν : Numbering} {a : α} {bs r r' : Bytes}, Wf a →
    put ν a = .ok bs → get (bs ++ r) = .ok (a, r') → Reads ν a

namespace Codec

variable {ε α β : Type}

/-- The value without content. -/
def unit : Codec ε Unit where
  put _ _ := .ok []
  get := pure ()
  Wf _ := True
  Reads _ _ := True
  get_put r _ _ h := by
    cases h
    rfl
  reads_of_get _ _ _ := trivial

/-- A `k`-byte big-endian word carrying an `α` through its number. -/
def word (eof : ε) (k : ℕ) (toNat : α → ℕ) (ofNat : ℕ → α)
    (lt : ∀ a, toNat a < 256 ^ k) (inv : ∀ a, ofNat (toNat a) = a) : Codec ε α where
  put _ a := .ok (beBytes k (toNat a))
  get := do
    let bs ← Reader.take eof k
    pure (ofNat (ofBytes bs))
  Wf _ := True
  Reads _ _ := True
  get_put := by
    intro ν a bs r _ _ h
    cases h
    rw [Reader.bind_ok _ (Reader.take_append eof r (length_beBytes k _))]
    rw [ofBytes_beBytes (lt a), inv a]
    rfl
  reads_of_get _ _ _ := trivial

/-- Two values, one after the other. -/
def prod (c : Codec ε α) (d : Codec ε β) : Codec ε (α × β) where
  put ν p := do
    let bs ← c.put ν p.1
    let cs ← d.put ν p.2
    pure (bs ++ cs)
  get := do
    let a ← c.get
    let b ← d.get
    pure (a, b)
  Wf p := c.Wf p.1 ∧ d.Wf p.2
  Reads ν p := c.Reads ν p.1 ∧ d.Reads ν p.2
  get_put := by
    intro ν p out r hwf hrd h
    obtain ⟨bs, hbs, h⟩ := except_bind_eq_ok.1 h
    obtain ⟨cs, hcs, h⟩ := except_bind_eq_ok.1 h
    cases h
    rw [List.append_assoc, Reader.bind_ok _ (c.get_put (cs ++ r) hwf.1 hrd.1 hbs),
      Reader.bind_ok _ (d.get_put r hwf.2 hrd.2 hcs)]
    rfl
  reads_of_get := by
    intro ν p out r r' hwf h hget
    obtain ⟨bs, hbs, h⟩ := except_bind_eq_ok.1 h
    obtain ⟨cs, hcs, h⟩ := except_bind_eq_ok.1 h
    cases h
    rw [List.append_assoc] at hget
    obtain ⟨a, r₁, ha, hget⟩ := Reader.bind_eq_ok.1 hget
    obtain ⟨b, r₂, hb, hget⟩ := Reader.bind_eq_ok.1 hget
    cases hget
    have hc : c.Reads ν a := c.reads_of_get hwf.1 hbs ha
    -- The first reader stops where the first writer did, so the second starts in step.
    have hr : r₁ = cs ++ r := by
      have := c.get_put (cs ++ r) hwf.1 hc hbs
      rw [ha] at this
      cases this
      rfl
    subst hr
    exact ⟨hc, d.reads_of_get hwf.2 hcs hb⟩

/-- A codec moved along a bijection onto the values `f` accepts. -/
def refine (c : Codec ε α) (f : α → Except ε β) (g : β → α) (f_g : ∀ b, f (g b) = .ok b)
    (g_f : ∀ a b, f a = .ok b → g b = a) : Codec ε β where
  put ν b := c.put ν (g b)
  get := do
    let a ← c.get
    StateT.lift (f a)
  Wf b := c.Wf (g b)
  Reads ν b := c.Reads ν (g b)
  get_put := by
    intro ν b bs r hwf hrd h
    rw [Reader.bind_ok _ (c.get_put r hwf hrd h)]
    change (f (g b) >>= fun x => pure (x, r)) = _
    rw [f_g]
    rfl
  reads_of_get := by
    intro ν b bs r r' hwf h hget
    obtain ⟨a, r₁, ha, hget⟩ := Reader.bind_eq_ok.1 hget
    obtain ⟨b', hb', hget⟩ := except_bind_eq_ok.1 hget
    cases hget
    have hga := g_f a b hb'
    rw [← hga] at ha
    exact c.reads_of_get hwf h ha

/-- A codec moved along a bijection. -/
def iso (c : Codec ε α) (f : α → β) (g : β → α) (f_g : ∀ b, f (g b) = b)
    (g_f : ∀ a, g (f a) = a) : Codec ε β :=
  c.refine (fun a => .ok (f a)) g (fun b => by rw [f_g]) (fun a b h => by cases h; exact g_f a)

/-- A pair is well formed when both parts are. -/
@[simp] lemma prod_wf (c : Codec ε α) (d : Codec ε β) (p : α × β) :
    (c.prod d).Wf p ↔ c.Wf p.1 ∧ d.Wf p.2 := Iff.rfl

/-- A pair is understood when both parts are. -/
@[simp] lemma prod_reads (c : Codec ε α) (d : Codec ε β) (ν : Numbering) (p : α × β) :
    (c.prod d).Reads ν p ↔ c.Reads ν p.1 ∧ d.Reads ν p.2 := Iff.rfl

/-- Well-formedness moves along a bijection. -/
@[simp] lemma iso_wf (c : Codec ε α) (f : α → β) (g : β → α) (f_g : ∀ b, f (g b) = b)
    (g_f : ∀ a, g (f a) = a) (b : β) : (c.iso f g f_g g_f).Wf b ↔ c.Wf (g b) := Iff.rfl

/-- Being understood moves along a bijection. -/
@[simp] lemma iso_reads (c : Codec ε α) (f : α → β) (g : β → α) (f_g : ∀ b, f (g b) = b)
    (g_f : ∀ a, g (f a) = a) (ν : Numbering) (b : β) :
    (c.iso f g f_g g_f).Reads ν b ↔ c.Reads ν (g b) := Iff.rfl

/-- If the first of two values is understood, reading the pair comes down to reading the
second. -/
lemma prod_get_eq_ok {c : Codec ε α} {d : Codec ε β} {ν : Numbering} {a : α} {bs : Bytes}
    (hwf : c.Wf a) (hrd : c.Reads ν a) (hput : c.put ν a = .ok bs) {rest r : Bytes}
    {p : α × β} :
    (c.prod d).get (bs ++ rest) = .ok (p, r) ↔ p.1 = a ∧ d.get rest = .ok (p.2, r) := by
  have hget : (c.prod d).get (bs ++ rest) = ((fun b => (a, b)) <$> d.get) rest := by
    change (c.get >>= _) _ = _
    rw [Reader.bind_ok _ (c.get_put rest hwf hrd hput), map_eq_pure_bind]
  rw [hget, Reader.map_eq_ok]
  constructor
  · rintro ⟨b, hb, rfl⟩
    exact ⟨rfl, hb⟩
  · rintro ⟨rfl, hb⟩
    exact ⟨p.2, hb, rfl⟩

/-- Reading along a bijection. -/
lemma iso_get_eq_ok {c : Codec ε α} {f : α → β} {g : β → α} {f_g : ∀ b, f (g b) = b}
    {g_f : ∀ a, g (f a) = a} {bs r : Bytes} {b : β} :
    (c.iso f g f_g g_f).get bs = .ok (b, r) ↔ c.get bs = .ok (g b, r) := by
  have hget : (c.iso f g f_g g_f).get bs = (f <$> c.get) bs := by
    rw [map_eq_pure_bind]
    rfl
  rw [hget, Reader.map_eq_ok]
  constructor
  · rintro ⟨a, ha, rfl⟩
    rw [g_f]
    exact ha
  · intro h
    exact ⟨g b, h, f_g b⟩

/-! ### Sequences -/

/-- The bytes of a list of values, one after the other and without a count. -/
def putAll (c : Codec ε α) (ν : Numbering) : List α → Except ε Bytes
  | [] => .ok []
  | a :: as => do
    let bs ← c.put ν a
    let cs ← putAll c ν as
    pure (bs ++ cs)

/-- The bytes of a list of values are those of its elements, one after the other. -/
lemma putAll_eq_ok {c : Codec ε α} {ν : Numbering} {as : List α} {bs : Bytes} :
    c.putAll ν as = .ok bs ↔ ∃ parts, as.mapM (c.put ν) = .ok parts ∧ bs = parts.flatten := by
  induction as generalizing bs with
  | nil =>
    constructor
    · intro h
      cases h
      exact ⟨[], rfl, rfl⟩
    · rintro ⟨parts, h, rfl⟩
      cases h
      rfl
  | cons a as ih =>
    rw [putAll, List.mapM_cons]
    simp only [except_bind_eq_ok, ih]
    constructor
    · rintro ⟨b, hb, cs, ⟨parts, hparts, rfl⟩, h⟩
      cases h
      exact ⟨b :: parts, ⟨b, hb, parts, hparts, rfl⟩, by simp⟩
    · rintro ⟨_, ⟨b, hb, parts, hparts, h⟩, rfl⟩
      cases h
      exact ⟨b, hb, parts.flatten, ⟨parts, hparts, rfl⟩, by simp [pure, Except.pure]⟩

/-- Reading as many values as were written undoes writing them. -/
lemma replicate_putAll (c : Codec ε α) {ν : Numbering} {as : List α} {bs : Bytes} (r : Bytes)
    (hwf : ∀ a ∈ as, c.Wf a) (hrd : ∀ a ∈ as, c.Reads ν a) (h : c.putAll ν as = .ok bs) :
    Reader.replicate c.get as.length (bs ++ r) = .ok (as, r) := by
  induction as generalizing bs with
  | nil =>
    cases h
    rfl
  | cons a as ih =>
    obtain ⟨b₁, hb₁, h⟩ := except_bind_eq_ok.1 h
    obtain ⟨b₂, hb₂, h⟩ := except_bind_eq_ok.1 h
    cases h
    simp only [List.mem_cons, forall_eq_or_imp] at hwf hrd
    rw [List.length_cons, Reader.replicate, List.append_assoc,
      Reader.bind_ok _ (c.get_put (b₂ ++ r) hwf.1 hrd.1 hb₁),
      Reader.bind_ok _ (ih hwf.2 hrd.2 hb₂)]
    rfl

/-- If reading as many values as were written gives them back, the reader understood each. -/
lemma reads_of_replicate (c : Codec ε α) {ν : Numbering} {as : List α} {bs r r' : Bytes}
    (hwf : ∀ a ∈ as, c.Wf a) (h : c.putAll ν as = .ok bs)
    (hget : Reader.replicate c.get as.length (bs ++ r) = .ok (as, r')) :
    ∀ a ∈ as, c.Reads ν a := by
  induction as generalizing bs r' with
  | nil => simp
  | cons a as ih =>
    obtain ⟨b₁, hb₁, h⟩ := except_bind_eq_ok.1 h
    obtain ⟨b₂, hb₂, h⟩ := except_bind_eq_ok.1 h
    cases h
    simp only [List.mem_cons, forall_eq_or_imp] at hwf ⊢
    rw [List.length_cons, Reader.replicate, List.append_assoc] at hget
    obtain ⟨x, r₁, hx, hget⟩ := Reader.bind_eq_ok.1 hget
    obtain ⟨xs, r₂, hxs, hget⟩ := Reader.bind_eq_ok.1 hget
    cases hget
    have hc : c.Reads ν a := c.reads_of_get hwf.1 hb₁ hx
    have hr : r₁ = b₂ ++ r := by
      have := c.get_put (b₂ ++ r) hwf.1 hc hb₁
      rw [hx] at this
      cases this
      rfl
    subst hr
    exact ⟨hc, ih hwf.2 hb₂ hxs⟩

/-- A natural number as a `k`-byte word, if it fits. -/
def natWord (eof : ε) (tooLong : ℕ → ε) (k : ℕ) : Codec ε ℕ where
  put _ n := if n < 256 ^ k then .ok (beBytes k n) else .error (tooLong n)
  get := do
    let bs ← Reader.take eof k
    pure (ofBytes bs)
  Wf _ := True
  Reads _ _ := True
  get_put := by
    intro ν n bs r _ _ h
    split_ifs at h with hn
    cases h
    rw [Reader.bind_ok _ (Reader.take_append eof r (length_beBytes k _)), ofBytes_beBytes hn]
    rfl
  reads_of_get _ _ _ := trivial

/-- A count and then that many values. -/
def seq (eof : ε) (tooLong : ℕ → ε) (c : Codec ε α) : Codec ε (List α) where
  put ν as := do
    let n ← (natWord eof tooLong 4).put ν as.length
    let bs ← c.putAll ν as
    pure (n ++ bs)
  get := do
    let n ← (natWord eof tooLong 4).get
    Reader.replicate c.get n
  Wf as := ∀ a ∈ as, c.Wf a
  Reads ν as := ∀ a ∈ as, c.Reads ν a
  get_put := by
    intro ν as out r hwf hrd h
    obtain ⟨n, hn, h⟩ := except_bind_eq_ok.1 h
    obtain ⟨bs, hbs, h⟩ := except_bind_eq_ok.1 h
    cases h
    rw [List.append_assoc,
      Reader.bind_ok _ ((natWord eof tooLong 4).get_put (bs ++ r) trivial trivial hn)]
    exact c.replicate_putAll r hwf hrd hbs
  reads_of_get := by
    intro ν as out r r' hwf h hget
    obtain ⟨n, hn, h⟩ := except_bind_eq_ok.1 h
    obtain ⟨bs, hbs, h⟩ := except_bind_eq_ok.1 h
    cases h
    rw [List.append_assoc,
      Reader.bind_ok _ ((natWord eof tooLong 4).get_put (bs ++ r) trivial trivial hn)] at hget
    exact c.reads_of_replicate hwf hbs hget

/-! ### Byte strings -/

/-- The number of bytes that fill `n` bytes up to a multiple of four. -/
def padding (n : ℕ) : ℕ := (4 - n % 4) % 4

/-- Two byte strings are equal off the positions that are marked. -/
inductive EqOff : List Bool → Bytes → Bytes → Prop
  | nil : EqOff [] [] []
  | data {marks : List Bool} {as bs : Bytes} (b : UInt8) (h : EqOff marks as bs) :
      EqOff (false :: marks) (b :: as) (b :: bs)
  | pad {marks : List Bool} {as bs : Bytes} (a b : UInt8) (h : EqOff marks as bs) :
      EqOff (true :: marks) (a :: as) (b :: bs)

/-- Where nothing is marked, a byte string is equal to itself only. -/
lemma EqOff.refl {n : ℕ} {bs : Bytes} (h : bs.length = n) :
    EqOff (List.replicate n false) bs bs := by
  induction bs generalizing n with
  | nil =>
    subst h
    exact .nil
  | cons b bs ih =>
    subst h
    exact .data b (ih rfl)

/-- Where everything is marked, only the length counts. -/
lemma EqOff.of_length {n : ℕ} {as bs : Bytes} (ha : as.length = n) (hb : bs.length = n) :
    EqOff (List.replicate n true) as bs := by
  induction as generalizing n bs with
  | nil =>
    subst ha
    rw [List.length_eq_zero_iff.1 hb]
    exact .nil
  | cons a as ih =>
    subst ha
    cases bs with
    | nil => simp at hb
    | cons b bs => exact .pad a b (ih rfl (by simpa using hb))

lemma EqOff.append {marks marks' : List Bool} {as as' bs bs' : Bytes} (h : EqOff marks as bs)
    (h' : EqOff marks' as' bs') : EqOff (marks ++ marks') (as ++ as') (bs ++ bs') := by
  induction h with
  | nil => exact h'
  | data b _ ih => exact .data b ih
  | pad a b _ ih => exact .pad a b ih

/-- Filling up to a multiple of four gives a multiple of four. -/
lemma four_dvd_add_padding (n : ℕ) : 4 ∣ n + padding n := by
  unfold padding
  omega

/-- `n` bytes, filled up to a multiple of four. -/
def fixed (eof : ε) (n : ℕ) : Codec ε (List.Vector UInt8 n) where
  put _ v := .ok (v.1 ++ List.replicate (padding n) 0)
  get := fun bs => do
    let (bs, r) ← Reader.take eof (n + padding n) bs
    pure (⟨(bs ++ List.replicate n 0).take n, by simp⟩, r)
  Wf _ := True
  Reads _ _ := True
  get_put := by
    intro ν v bs r _ _ h
    cases h
    have hlen : (v.1 ++ List.replicate (padding n) (0 : UInt8)).length = n + padding n := by
      simp [v.2]
    change (Reader.take eof (n + padding n) _ >>= _) = _
    rw [Reader.take_append eof r hlen]
    change Except.ok _ = Except.ok _
    congr 2
    apply Subtype.ext
    have hv := v.2
    simp only [List.append_assoc]
    rw [List.take_append_of_le_length (le_of_eq hv.symm), List.take_of_length_le (le_of_eq hv)]
  reads_of_get _ _ _ := trivial

/-- A count and then that many bytes, filled up to a multiple of four. A missing byte of the
data and a missing byte of the filling are told apart. -/
def bytes (eof short : ε) (tooLong : ℕ → ε) : Codec ε Bytes where
  put ν bs := do
    let n ← (natWord eof tooLong 4).put ν bs.length
    pure (n ++ (bs ++ List.replicate (padding bs.length) 0))
  get := do
    let n ← (natWord eof tooLong 4).get
    let bs ← Reader.take short n
    let _ ← Reader.take eof (padding bs.length)
    pure bs
  Wf _ := True
  Reads _ _ := True
  get_put := by
    intro ν bs out r _ _ h
    obtain ⟨n, hn, h⟩ := except_bind_eq_ok.1 h
    cases h
    rw [List.append_assoc, List.append_assoc,
      Reader.bind_ok _ ((natWord eof tooLong 4).get_put _ trivial trivial hn),
      Reader.bind_ok _ (Reader.take_append short _ rfl),
      Reader.bind_ok _ (Reader.take_append eof _ List.length_replicate)]
    rfl
  reads_of_get _ _ _ := trivial

/-- Only byte strings whose length fits a word are written. -/
lemma length_lt_of_bytes_put {eof short : ε} {tooLong : ℕ → ε} {ν : Numbering} {bs out : Bytes}
    (h : (bytes eof short tooLong).put ν bs = .ok out) : bs.length < 256 ^ 4 := by
  obtain ⟨n, hn, -⟩ := except_bind_eq_ok.1 h
  by_contra hge
  change (if bs.length < 256 ^ 4 then _ else _) = _ at hn
  rw [if_neg hge] at hn
  cases hn

/-! ### Optional values -/

/-- A flag and, if it is set, a value. -/
def option (eof : ε) (bad : ℕ → ε) (c : Codec ε α) : Codec ε (Option α) where
  put ν
    | none => .ok (beBytes 4 0)
    | some a => do
      let bs ← c.put ν a
      pure (beBytes 4 1 ++ bs)
  get := do
    let w ← Reader.take eof 4
    match ofBytes w with
    | 0 => pure none
    | 1 => some <$> c.get
    | n => throw (bad n)
  Wf o := ∀ a ∈ o, c.Wf a
  Reads ν o := ∀ a ∈ o, c.Reads ν a
  get_put := by
    intro ν o out r hwf hrd h
    cases o with
    | none =>
      cases h
      rw [Reader.bind_ok _ (Reader.take_append eof r (length_beBytes 4 _)),
        ofBytes_beBytes (by norm_num)]
      rfl
    | some a =>
      obtain ⟨bs, hbs, h⟩ := except_bind_eq_ok.1 h
      cases h
      rw [List.append_assoc, Reader.bind_ok _ (Reader.take_append eof _ (length_beBytes 4 _)),
        ofBytes_beBytes (by norm_num)]
      exact Reader.map_eq_ok.2 ⟨a, c.get_put r (hwf a rfl) (hrd a rfl) hbs, rfl⟩
  reads_of_get := by
    intro ν o out r r' hwf h hget
    cases o with
    | none => simp
    | some a =>
      obtain ⟨bs, hbs, h⟩ := except_bind_eq_ok.1 h
      cases h
      rw [List.append_assoc,
        Reader.bind_ok _ (Reader.take_append eof _ (length_beBytes 4 _)),
        ofBytes_beBytes (by norm_num)] at hget
      obtain ⟨a', ha', h'⟩ := Reader.map_eq_ok.1 hget
      cases h'
      intro b hb
      cases hb
      exact c.reads_of_get (hwf a rfl) hbs ha'

end Codec

/-! ### Tagged unions -/

/-- One alternative of a tagged union: the number its declaration gives it, what it carries,
and how the value is made from it. -/
structure Variant (ε E : Type) where
  /-- The declared number. -/
  number : ℕ
  /-- What the alternative carries. -/
  Body : Type
  /-- How that is written and read. -/
  codec : Codec ε Body
  /-- The value made from it. -/
  make : Body → E
  /-- Different contents make different values. -/
  make_inj : Function.Injective make := by
    intro a b h
    first | rfl | (cases h; rfl)

/-- An alternative that carries nothing. -/
def Variant.unit {ε E : Type} (number : ℕ) (e : E) : Variant ε E where
  number := number
  Body := Unit
  codec := Codec.unit
  make := fun _ => e

/-- Every value a variant of the list makes has the position of that variant, counted
from `n`. -/
def Indexed {ε E : Type} (index : E → ℕ) : ℕ → List (Variant ε E) → Prop
  | _, [] => True
  | n, v :: vs => (∀ b, index (v.make b) = n) ∧ Indexed index (n + 1) vs

/-- Reading a position off an indexed table. -/
lemma Indexed.index_make {ε E : Type} {index : E → ℕ} {n : ℕ} {vs : List (Variant ε E)}
    (h : Indexed index n vs) (i : Fin vs.length) (b : (vs.get i).Body) :
    index ((vs.get i).make b) = n + i := by
  induction vs generalizing n with
  | nil => exact i.elim0
  | cons v vs ih =>
    obtain ⟨i, hi⟩ := i
    cases i with
    | zero => exact h.1 b
    | succ i =>
      have hrec := ih h.2 ⟨i, by simpa using hi⟩ b
      have hpos : n + 1 + i = n + (i + 1) := by omega
      exact hrec.trans hpos

/-- A tagged union given by the table of its variants in declaration order. -/
structure TaggedUnion (ε E : Type) where
  /-- The variants in declaration order. -/
  variants : List (Variant ε E)
  /-- The position of the variant of a value. -/
  index : E → Fin variants.length
  /-- What a value carries. -/
  body : (e : E) → (variants.get (index e)).Body
  /-- A value is made from what it carries. -/
  make_body : ∀ e, (variants.get (index e)).make (body e) = e := by
    intro e
    cases e <;> rfl
  /-- The table is in declaration order. -/
  indexed : Indexed (fun e => (index e).1) 0 variants := by
    repeat' first | exact trivial | refine ⟨fun _ => rfl, ?_⟩
  /-- Positions fit a word. -/
  length_le : variants.length ≤ 256 ^ 4 := by decide
  /-- Declared numbers fit a word. -/
  number_lt : ∀ v ∈ variants, v.number < 256 ^ 4 := by
    repeat' first
      | exact fun _ h => absurd h List.not_mem_nil
      | refine List.forall_mem_cons.2 ⟨by decide, ?_⟩

namespace TaggedUnion

variable {ε E : Type} (t : TaggedUnion ε E)

/-- The variant of a value. -/
def variant (e : E) : Variant ε E := t.variants.get (t.index e)

/-- The word that stands for the variant of a value. -/
def tag (ν : Numbering) (e : E) : ℕ :=
  match ν with
  | .position => t.index e
  | .declared => (t.variant e).number

/-- Every tag fits a word. -/
lemma tag_lt (ν : Numbering) (e : E) : t.tag ν e < 256 ^ 4 := by
  cases ν with
  | position => exact lt_of_lt_of_le (t.index e).2 t.length_le
  | declared => exact t.number_lt _ (List.get_mem _ _)

/-- Read a tag as a position and then what that variant carries. -/
def read (eof : ε) (unknown : ℕ → ε) : Reader ε E := do
  let w ← Reader.take eof 4
  if h : ofBytes w < t.variants.length then
    let v := t.variants.get ⟨ofBytes w, h⟩
    v.make <$> v.codec.get
  else throw (unknown (ofBytes w))

/-- On a tag that is a position, the reader continues with that variant. -/
lemma read_of_tag (eof : ε) (unknown : ℕ → ε) (i : Fin t.variants.length) (bs : Bytes) :
    t.read eof unknown (beBytes 4 i.1 ++ bs) =
      ((t.variants.get i).make <$> (t.variants.get i).codec.get) bs := by
  have hi : ofBytes (beBytes 4 i.1) = i.1 :=
    ofBytes_beBytes (lt_of_lt_of_le i.2 t.length_le)
  rw [read, Reader.bind_ok _ (Reader.take_append eof bs (length_beBytes 4 _))]
  have hlt : ofBytes (beBytes 4 i.1) < t.variants.length := by rw [hi]; exact i.2
  rw [dif_pos hlt]
  have he : (⟨ofBytes (beBytes 4 i.1), hlt⟩ : Fin t.variants.length) = i := Fin.ext hi
  rw [he]

/-- The codec of a tagged union. The tag is written in the numbering asked for and read as a
position. -/
def codec (eof : ε) (unknown : ℕ → ε) : Codec ε E where
  put ν e := do
    let bs ← (t.variant e).codec.put ν (t.body e)
    pure (beBytes 4 (t.tag ν e) ++ bs)
  get := t.read eof unknown
  Wf e := (t.variant e).codec.Wf (t.body e)
  Reads ν e := t.tag ν e = t.index e ∧ (t.variant e).codec.Reads ν (t.body e)
  get_put := by
    intro ν e out r hwf hrd h
    obtain ⟨bs, hbs, h⟩ := except_bind_eq_ok.1 h
    cases h
    rw [hrd.1, List.append_assoc, t.read_of_tag]
    exact Reader.map_eq_ok.2
      ⟨t.body e, (t.variant e).codec.get_put r hwf hrd.2 hbs, t.make_body e⟩
  reads_of_get := by
    intro ν e out r r' hwf h hget
    obtain ⟨bs, hbs, h⟩ := except_bind_eq_ok.1 h
    cases h
    rw [List.append_assoc] at hget
    -- The tag was accepted, so it is the position of some variant, and of the variant of `e`.
    have hlt : t.tag ν e < t.variants.length := by
      by_contra hge
      have hw : ofBytes (beBytes 4 (t.tag ν e)) = t.tag ν e := ofBytes_beBytes (t.tag_lt ν e)
      rw [read, Reader.bind_ok _ (Reader.take_append eof _ (length_beBytes 4 _)), hw,
        dif_neg hge] at hget
      cases hget
    have hread := t.read_of_tag eof unknown ⟨t.tag ν e, hlt⟩ (bs ++ r)
    rw [hread] at hget
    obtain ⟨b, hb, hmk⟩ := Reader.map_eq_ok.1 hget
    have hidx : (t.index e).1 = t.tag ν e := by
      have := t.indexed.index_make ⟨t.tag ν e, hlt⟩ b
      rw [hmk] at this
      simpa using this
    have hfin : (⟨t.tag ν e, hlt⟩ : Fin t.variants.length) = t.index e := Fin.ext hidx.symm
    revert b
    rw [hfin]
    intro b hb hmk
    have hbody : b = t.body e := (t.variants.get (t.index e)).make_inj (hmk.trans
      (t.make_body e).symm)
    subst hbody
    exact ⟨hidx.symm, (t.variant e).codec.reads_of_get hwf hbs hb⟩

end TaggedUnion

end Wire
