import Mathlib.Data.List.Basic

set_option relaxedAutoImplicit false
set_option autoImplicit false

/-!
# Text

The operations on strings of Rust's standard library, on the characters of a string.

## Main definitions

* `Text.splitOnce`, `Text.rsplitOnce` — `str::split_once` and `str::rsplit_once`.
* `Text.lines` — `str::lines`.
* `Text.parseUnsigned` — `from_str` of the unsigned integers.

## Main results

* `Text.rsplitOnce_append`, `Text.eq_of_rsplitOnce` — what `rsplitOnce` gives, and only that.
* `Text.append_cons_inj` — where a character can stand in only one place.
-/

namespace Text

/-- `str::split_once`: what is before the first `c`, and what is behind it. -/
def splitOnce (c : Char) : List Char → Option (List Char × List Char)
  | [] => none
  | x :: l => if x = c then some ([], l) else (splitOnce c l).map fun p => (x :: p.1, p.2)

/-- `str::rsplit_once`: what is before the last `c`, and what is behind it. -/
def rsplitOnce (c : Char) : List Char → Option (List Char × List Char)
  | [] => none
  | x :: l =>
    match rsplitOnce c l with
    | some p => some (x :: p.1, p.2)
    | none => if x = c then some ([], l) else none

/-- A line without the carriage return at its end. -/
def trimCr (line : List Char) : List Char :=
  if line.getLast? = some '\r' then line.dropLast else line

/-- `str::lines`. -/
def lines (l : List Char) : List (List Char) :=
  let parts := l.splitOn '\n'
  let last := parts.getLastD []
  parts.dropLast.map trimCr ++ if last = [] then [] else [last]

/-- `from_str` of an unsigned integer below the bound. -/
def parseUnsigned (bound : ℕ) (l : List Char) : Option ℕ :=
  let digits := if l.head? = some '+' then l.tail else l
  let n := digits.foldl (fun acc c => acc * 10 + (c.toNat - '0'.toNat)) 0
  if digits ≠ [] ∧ digits.all Char.isDigit ∧ n < bound then some n else none

/-! ### Splitting at the last -/

variable {c : Char} {l a b a' b' : List Char}

lemma rsplitOnce_eq_none : rsplitOnce c l = none ↔ c ∉ l := by
  induction l with
  | nil => simp [rsplitOnce]
  | cons x l ih =>
    rw [rsplitOnce, List.mem_cons, not_or, ← ih]
    cases hl : rsplitOnce c l with
    | none => simp [eq_comm]
    | some p => simp

lemma rsplitOnce_append (a : List Char) (hb : c ∉ b) :
    rsplitOnce c (a ++ c :: b) = some (a, b) := by
  induction a with
  | nil => rw [List.nil_append, rsplitOnce, rsplitOnce_eq_none.2 hb, if_pos rfl]
  | cons x a ih => rw [List.cons_append, rsplitOnce, ih]

lemma eq_of_rsplitOnce (h : rsplitOnce c l = some (a, b)) : l = a ++ c :: b ∧ c ∉ b := by
  induction l generalizing a with
  | nil => cases h
  | cons x l ih =>
    rw [rsplitOnce] at h
    cases hl : rsplitOnce c l with
    | some p =>
      rw [hl] at h
      obtain ⟨p1, p2⟩ := p
      cases h
      obtain ⟨rfl, hb⟩ := ih hl
      exact ⟨rfl, hb⟩
    | none =>
      rw [hl] at h
      dsimp only at h
      split_ifs at h with hx
      cases h
      exact ⟨by rw [hx]; rfl, rsplitOnce_eq_none.1 hl⟩

/-- A character that stands in one place only parts a string in one way. -/
lemma append_cons_inj (ha : c ∉ a) (hb : c ∉ b) (h : a' ++ c :: b' = a ++ c :: b) :
    a' = a ∧ b' = b := by
  rcases List.append_eq_append_iff.1 h with ⟨as, rfl, hrest⟩ | ⟨bs, rfl, hrest⟩
  · cases as with
    | nil => simpa using hrest
    | cons x as =>
      obtain ⟨rfl, -⟩ := List.cons.inj hrest
      simp at ha
  · cases bs with
    | nil => simpa [eq_comm] using hrest
    | cons x bs =>
      obtain ⟨rfl, rfl⟩ := List.cons.inj hrest
      simp at hb

/-- The parts of a string are without the separator. -/
lemma notMem_of_mem_splitOn (c : Char) (l : List Char) : ∀ part ∈ l.splitOn c, c ∉ part := by
  induction l with
  | nil => simp
  | cons x l ih =>
    rw [List.splitOn_cons_eq_if_modifyHead]
    obtain ⟨first, rest, hparts⟩ := List.exists_cons_of_ne_nil (List.splitOn_ne_nil c l)
    rw [hparts] at ih ⊢
    split_ifs with hx
    · simpa using ih
    · have hne : c ≠ x := fun h => hx (by simp [h])
      simpa [hne] using ih

/-- Parts that are joined have no separator between them only if there is one of them. -/
lemma intercalate_eq_of_notMem {parts : List (List Char)} (hl : l ≠ []) (hc : c ∉ l)
    (h : [c].intercalate parts = l) : parts = [l] := by
  match parts with
  | [] => exact absurd h.symm hl
  | [x] => simpa using h
  | x :: y :: parts =>
    refine absurd ?_ hc
    rw [← h, List.intercalate_cons_cons]
    simp

end Text
