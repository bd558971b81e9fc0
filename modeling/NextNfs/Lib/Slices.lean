import Mathlib.Data.List.Basic
import Mathlib.Tactic.Common

set_option relaxedAutoImplicit false
set_option autoImplicit false

/-!
# Readers of a buffer

A reader works on a buffer with positions and takes slices of it. Some slices are checked, and the
reader fails if they are out of range; the others panic then.

## Main definitions

* `Slices.Halt` — how a reader ends early.
* `Slices.slice`, `Slices.getRange`, `Slices.getOne` — a slice that panics, and what is checked.
* `Slices.InBounds` — the reader does not panic.
* `Slices.Reader`, `Slices.Reads` — readers that keep their position, and the bytes that are read as
  a value wherever they are.

## Main results

* `Slices.InBounds.bind`, `Slices.Reads.bind` — readers one after another.
-/

namespace Slices

variable {ε α β γ : Type}

/-- How a reader ends early: it fails, or it panics. -/
inductive Halt (ε : Type)
  | fail (e : ε)
  | panic
deriving DecidableEq

/-- `buf[lo..hi]`. -/
def slice (buf : List α) (lo hi : ℕ) : Except (Halt ε) (List α) :=
  if lo ≤ hi ∧ hi ≤ buf.length then .ok ((buf.drop lo).take (hi - lo)) else .error .panic

/-- `buf.get(lo..hi)`, which fails out of range. -/
def getRange (buf : List α) (lo hi : ℕ) (e : ε) : Except (Halt ε) (List α) :=
  if lo ≤ hi ∧ hi ≤ buf.length then .ok ((buf.drop lo).take (hi - lo)) else .error (.fail e)

/-- `buf.get(i)`, which fails out of range. -/
def getOne (buf : List α) (i : ℕ) (e : ε) : Except (Halt ε) α :=
  match buf[i]? with
  | some a => .ok a
  | none => .error (.fail e)

lemma slice_of_le {buf : List α} {lo hi : ℕ} (hlo : lo ≤ hi) (hhi : hi ≤ buf.length) :
    slice (ε := ε) buf lo hi = .ok ((buf.drop lo).take (hi - lo)) := if_pos ⟨hlo, hhi⟩

/-- A part of a buffer, from what is before and behind it. -/
lemma slice_append (a b c : List α) :
    slice (ε := ε) (a ++ (b ++ c)) a.length (a.length + b.length) = .ok b := by
  rw [slice_of_le (Nat.le_add_right _ _) (by simp), List.drop_left, Nat.add_sub_cancel_left,
    List.take_left]

lemma getRange_append (a b c : List α) (e : ε) :
    getRange (a ++ (b ++ c)) a.length (a.length + b.length) e = .ok b := by
  unfold getRange
  rw [if_pos ⟨Nat.le_add_right _ _, by simp⟩, List.drop_left, Nat.add_sub_cancel_left,
    List.take_left]

lemma getOne_append (a : List α) (x : α) (c : List α) (e : ε) :
    getOne (a ++ x :: c) a.length e = .ok x := by
  simp [getOne]

/-- What a checked slice gives is in the buffer. -/
lemma getRange_eq_ok {buf out : List α} {lo hi : ℕ} {e : ε}
    (h : getRange buf lo hi e = .ok out) :
    lo ≤ hi ∧ hi ≤ buf.length ∧ out = (buf.drop lo).take (hi - lo) := by
  unfold getRange at h
  split_ifs at h with hin
  exact ⟨hin.1, hin.2, (Except.ok.inj h).symm⟩

/-! ### Panics -/

/-- The reader does not panic. -/
def InBounds (x : Except (Halt ε) β) : Prop := x ≠ .error .panic

lemma inBounds_ok (b : β) : InBounds (.ok b : Except (Halt ε) β) := nofun

lemma inBounds_fail (e : ε) : InBounds (.error (.fail e) : Except (Halt ε) β) := nofun

lemma inBounds_getRange (buf : List α) (lo hi : ℕ) (e : ε) : InBounds (getRange buf lo hi e) := by
  unfold getRange
  split_ifs
  · exact inBounds_ok _
  · exact inBounds_fail e

lemma inBounds_getOne (buf : List α) (i : ℕ) (e : ε) : InBounds (getOne buf i e) := by
  unfold getOne
  cases buf[i]? with
  | none => exact inBounds_fail e
  | some a => exact inBounds_ok a

lemma inBounds_slice {buf : List α} {lo hi : ℕ} (hlo : lo ≤ hi) (hhi : hi ≤ buf.length) :
    InBounds (slice (ε := ε) buf lo hi) := by
  rw [slice_of_le hlo hhi]
  exact inBounds_ok _

/-- One reader after another. -/
lemma InBounds.bind {x : Except (Halt ε) β} {f : β → Except (Halt ε) γ} (hx : InBounds x)
    (hf : ∀ b, x = .ok b → InBounds (f b)) : InBounds (x >>= f) := by
  cases x with
  | error halt =>
    cases halt with
    | fail e => exact inBounds_fail e
    | panic => exact absurd rfl hx
  | ok b => exact hf b rfl

/-! ### Readers -/

/-- A reader of a buffer, with its position. -/
abbrev Reader (ε α β : Type) := ReaderT (List α) (StateT ℕ (Except (Halt ε))) β

/-- The list is read as the value, wherever it is and whatever follows it. -/
def Reads (r : Reader ε α β) (b : β) (bs : List α) : Prop :=
  ∀ pre rest, r (pre ++ (bs ++ rest)) pre.length = .ok (b, pre.length + bs.length)

lemma reads_pure (b : β) : Reads (pure b : Reader ε α β) b [] := fun _ _ => rfl

/-- One reader, and then what is read behind it. -/
lemma Reads.step {r : Reader ε α β} {b : β} {bs : List α} (h : Reads r b bs)
    (f : β → Reader ε α γ) (pre rest : List α) :
    (r >>= f) (pre ++ (bs ++ rest)) pre.length =
      f b ((pre ++ bs) ++ rest) (pre ++ bs).length := by
  show (r (pre ++ (bs ++ rest)) pre.length >>= fun p => f p.1 (pre ++ (bs ++ rest)) p.2) = _
  rw [h pre rest, List.append_assoc, List.length_append]
  rfl

lemma Reads.bind {r : Reader ε α β} {b : β} {bs cs : List α} {f : β → Reader ε α γ} {c : γ}
    (hr : Reads r b bs) (hf : Reads (f b) c cs) : Reads (r >>= f) c (bs ++ cs) := by
  intro pre rest
  rw [List.append_assoc bs, hr.step f pre (cs ++ rest), hf (pre ++ bs) rest, List.length_append,
    List.length_append, Nat.add_assoc]

lemma Reads.map {r : Reader ε α β} {b : β} {bs : List α} (h : Reads r b bs) (g : β → γ) :
    Reads (g <$> r) (g b) bs := by
  intro pre rest
  show (r (pre ++ (bs ++ rest)) pre.length >>= fun p => pure (g p.1, p.2)) = _
  rw [h pre rest]
  rfl

/-- A reader does not panic anywhere. -/
def Reader.Safe (r : Reader ε α β) : Prop := ∀ buf pos, InBounds (r buf pos)

lemma Reader.safe_pure (b : β) : (pure b : Reader ε α β).Safe := fun _ pos => inBounds_ok (b, pos)

lemma Reader.Safe.bind {r : Reader ε α β} {f : β → Reader ε α γ} (hr : r.Safe)
    (hf : ∀ b, (f b).Safe) : (r >>= f).Safe :=
  fun buf pos => (hr buf pos).bind fun p _ => hf p.1 buf p.2

lemma Reader.Safe.map {r : Reader ε α β} (hr : r.Safe) (g : β → γ) : (g <$> r).Safe :=
  fun buf pos => (hr buf pos).bind fun p _ => inBounds_ok (g p.1, p.2)

end Slices
