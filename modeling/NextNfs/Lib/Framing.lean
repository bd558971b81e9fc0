import NextNfs.Lib.Wire

set_option relaxedAutoImplicit false
set_option autoImplicit false

/-!
# Framing a byte stream

A *framer* looks at the front of a buffer and finds a complete frame there, finds out that the
input is bad, or asks for more. More input never changes what it has found. Frames in turn may
be parts of larger records; `assemble` puts them together.

The module is about one question: a stream arrives in pieces, and everything complete is
processed after each piece. When does that give the same records as processing the stream at
once? For frames it always does. For records it depends on what becomes of the parts of an
unfinished record between two pieces; `recordsEach` is the case in which they are lost.

## Main definitions

* `Wire.Framer` — a framer, with the laws that more input changes nothing.
* `Wire.Framer.parse` — all complete frames of a buffer and how it ends.
* `Wire.Part`, `Wire.assemble` — parts of records, and the records they make.
* `Wire.recordsEach` — the records made when unfinished ones are lost at every boundary.
* `Wire.BoundariesHarmless` — nothing that is lost at a boundary is missed later.

## Main results

* `Wire.Framer.parse_append` — parsing can be interrupted anywhere.
* `Wire.map_recordsEach_eq_iff` — the records are the same, as far as an observer `f` can
  tell, exactly when the boundaries are harmless.
-/

namespace Wire

/-! ### Framers -/

/-- What a framer finds at the front of a buffer. -/
inductive Found (ε φ : Type)
  | more
  | bad (e : ε)
  | frame (f : φ) (rest : Bytes)

/-- A framer. More input never changes what has been found, and a frame takes up space. -/
structure Framer (ε φ : Type) where
  /-- Look at the front of the buffer. -/
  next : Bytes → Found ε φ
  /-- A complete frame stays one. -/
  frame_append : ∀ {bs : Bytes} {f : φ} {rest : Bytes} (c : Bytes),
    next bs = .frame f rest → next (bs ++ c) = .frame f (rest ++ c)
  /-- Bad input stays bad. -/
  bad_append : ∀ {bs : Bytes} {e : ε} (c : Bytes), next bs = .bad e → next (bs ++ c) = .bad e
  /-- A frame is not empty. -/
  rest_lt : ∀ {bs : Bytes} {f : φ} {rest : Bytes},
    next bs = .frame f rest → rest.length < bs.length

namespace Framer

variable {ε φ : Type} (F : Framer ε φ)

/-- All complete frames of a buffer, and how it ends: with bad input, or with a rest that is
not a frame yet. -/
def parse (bs : Bytes) : List φ × Except ε Bytes :=
  match _h : F.next bs with
  | .more => ([], .ok bs)
  | .bad e => ([], .error e)
  | .frame f rest =>
    let (fs, tail) := parse rest
    (f :: fs, tail)
termination_by bs.length
decreasing_by exact F.rest_lt _h

/-- A buffer without a complete frame is left as it is. -/
lemma parse_more {bs : Bytes} (h : F.next bs = .more) : F.parse bs = ([], .ok bs) := by
  rw [parse]
  split <;> simp_all

/-- Bad input ends the parse. -/
lemma parse_bad {bs : Bytes} {e : ε} (h : F.next bs = .bad e) :
    F.parse bs = ([], .error e) := by
  rw [parse]
  split <;> simp_all

/-- A frame in front is the first of the parse. -/
lemma parse_frame {bs : Bytes} {f : φ} {rest : Bytes} (h : F.next bs = .frame f rest) :
    F.parse bs = (f :: (F.parse rest).1, (F.parse rest).2) := by
  rw [parse]
  split <;> simp_all

/-- The rest of a parse has no complete frame. -/
lemma parse_rest {bs rest : Bytes} (h : (F.parse bs).2 = .ok rest) :
    F.parse rest = ([], .ok rest) := by
  induction hn : bs.length using Nat.strong_induction_on generalizing bs with
  | _ n ih =>
    cases hnext : F.next bs with
    | more =>
      rw [F.parse_more hnext] at h
      cases h
      exact F.parse_more hnext
    | bad e =>
      rw [F.parse_bad hnext] at h
      cases h
    | frame f rest' =>
      rw [F.parse_frame hnext] at h
      exact ih rest'.length (hn ▸ F.rest_lt hnext) h rfl

/-- Parsing can be interrupted anywhere: what is left over is parsed together with what comes
next. -/
lemma parse_append (bs c : Bytes) :
    F.parse (bs ++ c) =
      match (F.parse bs).2 with
      | .error e => ((F.parse bs).1, .error e)
      | .ok rest => ((F.parse bs).1 ++ (F.parse (rest ++ c)).1, (F.parse (rest ++ c)).2) := by
  induction hn : bs.length using Nat.strong_induction_on generalizing bs with
  | _ n ih =>
    cases hnext : F.next bs with
    | more =>
      rw [F.parse_more hnext]
      simp
    | bad e =>
      rw [F.parse_bad hnext, F.parse_bad (F.bad_append c hnext)]
    | frame f rest =>
      have hrec := ih rest.length (hn ▸ F.rest_lt hnext) rest rfl
      rw [F.parse_frame hnext, F.parse_frame (F.frame_append c hnext), hrec]
      cases (F.parse rest).2 with
      | error e => rfl
      | ok rest' => simp

/-- The frames each piece of a stream completes, starting with the rest `rest` of earlier
pieces, and the error that ends them, if there is one. -/
def arrivals : Bytes → List Bytes → List (List φ) × Option ε
  | _, [] => ([], none)
  | rest, c :: cs =>
    match (F.parse (rest ++ c)).2 with
    | .error e => ([(F.parse (rest ++ c)).1], some e)
    | .ok rest' => ((F.parse (rest ++ c)).1 :: (arrivals rest' cs).1, (arrivals rest' cs).2)

/-- The pieces together complete the frames of the whole stream, and end as it does. -/
lemma parse_flatten (rest : Bytes) (h : F.parse rest = ([], .ok rest)) (cs : List Bytes) :
    (F.parse (rest ++ cs.flatten)).1 = (F.arrivals rest cs).1.flatten ∧
      ∀ e, (F.parse (rest ++ cs.flatten)).2 = .error e ↔ (F.arrivals rest cs).2 = some e := by
  induction cs generalizing rest with
  | nil => simp [arrivals, h]
  | cons c cs ih =>
    rw [List.flatten_cons, ← List.append_assoc, F.parse_append (rest ++ c), arrivals]
    cases hc : (F.parse (rest ++ c)).2 with
    | error e => simp
    | ok rest' =>
      have hrest : F.parse rest' = ([], .ok rest') := F.parse_rest hc
      obtain ⟨hframes, herror⟩ := ih rest' hrest
      refine ⟨?_, herror⟩
      simp [hframes]

end Framer

/-! ### Records in parts -/

/-- A part of a record, and whether it is the last one. -/
structure Part where
  last : Bool
  data : Bytes

/-- The records that parts make, starting with the data `d` of an unfinished record, and the
data of the record that is unfinished in the end. -/
def assemble : Bytes → List Part → List Bytes × Bytes
  | d, [] => ([], d)
  | d, p :: ps =>
    if p.last then
      let (rs, d') := assemble [] ps
      ((d ++ p.data) :: rs, d')
    else assemble (d ++ p.data) ps

/-- Whether some part ends a record. -/
def endsRecord (ps : List Part) : Bool := ps.any Part.last

/-- Assembling can be interrupted anywhere if the unfinished data is kept. -/
lemma assemble_append (d : Bytes) (ps qs : List Part) :
    assemble d (ps ++ qs) =
      ((assemble d ps).1 ++ (assemble (assemble d ps).2 qs).1,
        (assemble (assemble d ps).2 qs).2) := by
  induction ps generalizing d with
  | nil => simp [assemble]
  | cons p ps ih =>
    simp only [List.cons_append, assemble]
    split
    · simp [ih]
    · exact ih _

/-- Without a last part, all data stays unfinished. -/
lemma assemble_of_not_endsRecord (d : Bytes) {ps : List Part} (h : endsRecord ps = false) :
    assemble d ps = ([], d ++ (ps.map Part.data).flatten) := by
  induction ps generalizing d with
  | nil => simp [assemble]
  | cons p ps ih =>
    simp only [endsRecord, List.any_cons, Bool.or_eq_false_iff] at h
    rw [assemble, if_neg (by simp [h.1]), ih (d ++ p.data) h.2]
    simp

/-- With a last part, data before the data to start with goes into the first record. -/
lemma assemble_append_of_endsRecord (d a : Bytes) {ps : List Part} (h : endsRecord ps = true) :
    ∃ r rs d', assemble a ps = ((a ++ r) :: rs, d') ∧
      assemble (d ++ a) ps = ((d ++ (a ++ r)) :: rs, d') := by
  induction ps generalizing a with
  | nil => simp [endsRecord] at h
  | cons p ps ih =>
    by_cases hp : p.last = true
    · refine ⟨p.data, (assemble [] ps).1, (assemble [] ps).2, ?_, ?_⟩
      · rw [assemble, if_pos hp]
      · rw [assemble, if_pos hp, List.append_assoc]
    · have hps : endsRecord ps = true := by
        simpa [endsRecord, hp] using h
      obtain ⟨r, rs, d', h₁, h₂⟩ := ih (a ++ p.data) hps
      refine ⟨p.data ++ r, rs, d', ?_, ?_⟩
      · rw [assemble, if_neg hp, h₁, List.append_assoc]
      · rw [assemble, if_neg hp, List.append_assoc, h₂, List.append_assoc]

/-- With a last part, the data to start with goes into the first record and nowhere else. -/
lemma assemble_of_endsRecord (d : Bytes) {ps : List Part} (h : endsRecord ps = true) :
    ∃ r rs d', assemble [] ps = (r :: rs, d') ∧ assemble d ps = ((d ++ r) :: rs, d') := by
  obtain ⟨r, rs, d', h₁, h₂⟩ := assemble_append_of_endsRecord d [] h
  exact ⟨r, rs, d', by simpa using h₁, by simpa using h₂⟩

/-- The records made when the parts come in groups and the unfinished record is lost at the
end of each group. -/
def recordsEach (groups : List (List Part)) : List Bytes :=
  groups.flatMap fun ps => (assemble [] ps).1

/-- If every part ends a record, no boundary loses anything. -/
lemma recordsEach_of_last {groups : List (List Part)} (h : ∀ p ∈ groups.flatten, p.last = true) :
    recordsEach groups = groups.flatten.map Part.data := by
  have hassemble : ∀ ps : List Part, (∀ p ∈ ps, p.last = true) →
      assemble [] ps = (ps.map Part.data, []) := by
    intro ps hps
    induction ps with
    | nil => rfl
    | cons p ps ih =>
      rw [assemble, if_pos (hps p List.mem_cons_self), ih fun q hq => hps q (List.mem_cons_of_mem p hq)]
      rfl
  rw [recordsEach, List.map_flatten, List.flatMap_def]
  congr 1
  refine List.map_congr_left fun ps hps => ?_
  rw [hassemble ps fun p hp => h p (List.mem_flatten_of_mem hps hp)]

/-- The first record `r` that a group completes has lost the data `d` of earlier groups: there
is none, or `f` does not tell the difference. -/
def BoundariesHarmless {μ : Type} (f : Bytes → μ) : Bytes → List (List Part) → Prop
  | _, [] => True
  | d, ps :: groups =>
    (∀ r ∈ (assemble [] ps).1.head?, d = [] ∨ f (d ++ r) = f r) ∧
      BoundariesHarmless f (assemble d ps).2 groups

/-- An observer `f` sees no difference between losing the unfinished record at the end of each
group and keeping it exactly when the boundaries are harmless.
**Proof sketch.** Induction on the groups, with the data `d` a complete assembly would have kept
so far. If the group ends a record, the first record of the complete assembly is longer by `d`,
and both continue in step after it. If it does not, `d` only grows. -/
lemma map_recordsEach_eq_iff {μ : Type} (f : Bytes → μ) (d : Bytes)
    (groups : List (List Part)) :
    (recordsEach groups).map f = (assemble d groups.flatten).1.map f ↔
      BoundariesHarmless f d groups := by
  induction groups generalizing d with
  | nil => simp [recordsEach, BoundariesHarmless, assemble]
  | cons ps groups ih =>
    have hcons : recordsEach (ps :: groups) = (assemble [] ps).1 ++ recordsEach groups := by
      simp [recordsEach]
    rw [hcons, List.flatten_cons, assemble_append, BoundariesHarmless]
    cases hps : endsRecord ps with
    | true =>
      obtain ⟨r, rs, d', hfresh, hkept⟩ := assemble_of_endsRecord d hps
      rw [hfresh, hkept, ← ih d']
      simp only [List.cons_append, List.map_cons, List.map_append, List.cons.injEq,
        List.append_cancel_left_eq, List.head?_cons, Option.mem_some_iff, forall_eq']
      refine and_congr_left' ?_
      constructor
      · exact fun h => Or.inr h.symm
      · rintro (rfl | h)
        · rfl
        · exact h.symm
    | false =>
      rw [assemble_of_not_endsRecord [] hps, assemble_of_not_endsRecord d hps, ← ih]
      simp

end Wire
