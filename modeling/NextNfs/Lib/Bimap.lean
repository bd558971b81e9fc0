import Mathlib.Data.List.Pairwise
import Mathlib.Tactic.Linarith.Oracle.FourierMotzkin

set_option relaxedAutoImplicit false
set_option autoImplicit false

/-!
# A hash map and its reverse index

A hash map whose values carry a second key, beside a hash map from the second key to the first.

## Main definitions

* `Bimap.Inverse` — the second map is the reverse index of the first.

## Main results

* `Bimap.Inverse.insert`, `Bimap.Inverse.erase` — what is inserted and erased in both maps.
* `Bimap.Inverse.injective` — no two entries have the same second key.
-/

namespace Bimap

variable {α β ν : Type} [BEq α] [Hashable α] [BEq β] [Hashable β]

/-- The map `rev` leads from the second key of every entry of `m` to its first, and has nothing
else. -/
def Inverse (key : ν → β) (m : Std.HashMap α ν) (rev : Std.HashMap β α) : Prop :=
  ∀ (i : β) (a : α), rev[i]? = some a ↔ ∃ v, m[a]? = some v ∧ key v = i

namespace Inverse

variable {key : ν → β} {m : Std.HashMap α ν} {rev : Std.HashMap β α}

lemma empty (key : ν → β) : Inverse key (∅ : Std.HashMap α ν) (∅ : Std.HashMap β α) := by
  intro i a
  simp

/-- No two entries have the same second key. -/
lemma injective (h : Inverse key m rev) {a b : α} {v w : ν} (ha : m[a]? = some v)
    (hb : m[b]? = some w) (heq : key v = key w) : a = b := by
  have ha' : rev[key w]? = some a := (h _ _).2 ⟨v, ha, heq⟩
  have hb' : rev[key w]? = some b := (h _ _).2 ⟨w, hb, rfl⟩
  exact Option.some.inj (ha'.symm.trans hb')

variable [LawfulBEq α] [LawfulHashable α] [LawfulBEq β] [LawfulHashable β]

/-- An entry with new keys is inserted in both maps. -/
lemma insert (h : Inverse key m rev) {a : α} {v : ν} (hnew : m[a]? = none)
    (hfree : ∀ (b : α) w, m[b]? = some w → key w ≠ key v) :
    Inverse key (m.insert a v) (rev.insert (key v) a) := by
  intro i b
  simp only [Std.HashMap.getElem?_insert]
  by_cases hi : key v = i
  · subst hi
    by_cases hab : a = b
    · subst hab
      simp
    · have hfree' : ¬ ∃ w, m[b]? = some w ∧ key w = key v :=
        fun ⟨w, hw, hkey⟩ => hfree b w hw hkey
      simpa [hab] using hfree'
  · by_cases hab : a = b
    · subst hab
      have hnone : rev[i]? ≠ some a := fun hr => by
        obtain ⟨w, hw, -⟩ := (h i a).1 hr
        rw [hnew] at hw
        cases hw
      simpa [hi] using hnone
    · simpa [hi, hab] using h i b

/-- An entry is erased in both maps. -/
lemma erase (h : Inverse key m rev) {a : α} {v : ν} (hv : m[a]? = some v) :
    Inverse key (m.erase a) (rev.erase (key v)) := by
  intro i b
  simp only [Std.HashMap.getElem?_erase]
  by_cases hi : key v = i
  · subst hi
    by_cases hab : a = b
    · subst hab
      simp
    · have hother : ¬ ∃ w, m[b]? = some w ∧ key w = key v :=
        fun ⟨w, hw, hkey⟩ => hab (h.injective hv hw hkey.symm)
      simpa [hab] using hother
  · by_cases hab : a = b
    · subst hab
      have hnone : rev[i]? ≠ some a := fun hr => by
        obtain ⟨w, hw, hkey⟩ := (h i a).1 hr
        rw [hv] at hw
        cases hw
        exact hi hkey
      simpa [hi] using hnone
    · simpa [hi, hab] using h i b

end Inverse

end Bimap
