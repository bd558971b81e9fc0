import Mathlib.Order.Nat
import Mathlib.Tactic.Tauto
import NextNfs.Lib.Table

set_option relaxedAutoImplicit false
set_option autoImplicit false

/-!
# Memories that forget

A memory keeps, for each key it was asked about, the time at which it let the key pass. A key that
it let pass less than a lifetime ago does not pass. Once the memory has more entries than its limit,
it drops those that are older than the lifetime. Times are natural numbers, in any unit.

## Main definitions

* `Recent` — the memory, with `Recent.checkAndInsert`.
* `Recent.Covers` — the memory has what it needs of the passes so far.
* `Recent.Records` — the memory has nothing but passes.

## Main results

* `Recent.checkAndInsert_covers` — a check keeps the memory covering, and a key passes only a
  lifetime after it passed before.
-/

/-- A memory: keys with the time at which each passed last. -/
abbrev Recent (κ : Type) [DecidableEq κ] := Table (κ × ℕ) fun a b => a.1 == b.1

namespace Recent

variable {κ : Type} [DecidableEq κ]

/-- The time under a key. -/
def time? (m : Recent κ) (k : κ) : Option ℕ := (m.find? fun e => e.1 == k).map Prod.snd

/-- Put a time under a key, in place of the one that was there. -/
def put (m : Recent κ) (k : κ) (t : ℕ) : Recent κ :=
  ⟨(m.erase fun e => e.1 == k).entries ++ [(k, t)], by
    refine List.pairwise_append.2 ⟨(m.erase _).distinct, List.pairwise_singleton _ _, ?_⟩
    intro a ha b hb
    rw [List.mem_singleton.1 hb]
    exact (Table.mem_erase.1 ha).2⟩

/-- Drop the entries that are as old as the lifetime, if there are more than the limit. -/
def prune (limit ttl : ℕ) (m : Recent κ) (now : ℕ) : Recent κ :=
  if m.entries.length > limit then m.erase fun e => !decide (now - e.2 < ttl) else m

/-- Let a key pass, unless it passed less than a lifetime ago. -/
def checkAndInsert (limit ttl : ℕ) (m : Recent κ) (now : ℕ) (k : κ) : Recent κ × Bool :=
  let m := m.prune limit ttl now
  match m.time? k with
  | some t => if now - t < ttl then (m, false) else (m.put k now, true)
  | none => (m.put k now, true)

variable {limit ttl now : ℕ} {m m' : Recent κ} {k k' : κ} {t t' : ℕ}

@[simp] lemma mem_put : (k', t') ∈ m.put k t ↔ (k', t') = (k, t) ∨ k' ≠ k ∧ (k', t') ∈ m := by
  simp only [put, Table.mem_def, Table.erase, List.mem_append, List.mem_filter, List.mem_singleton,
    Bool.not_eq_true', beq_eq_false_iff_ne]
  tauto

/-- The time under a key is that of its entry. -/
lemma time?_eq_some : m.time? k = some t ↔ (k, t) ∈ m := by
  constructor
  · intro h
    obtain ⟨⟨k', t'⟩, hfind, rfl⟩ := Option.map_eq_some_iff.1 h
    obtain ⟨hmem, hkey⟩ := Table.of_find?_eq_some hfind
    rwa [show k' = k by simpa using hkey] at hmem
  · intro h
    cases hfind : m.find? fun e => e.1 == k with
    | none => simpa using Table.find?_eq_none.1 hfind (k, t) h
    | some e =>
      obtain ⟨hmem, hkey⟩ := Table.of_find?_eq_some hfind
      have heq : e = (k, t) :=
        Table.eq_of_clash (fun a b => Bool.beq_comm) hmem h (by simpa using hkey)
      simp [time?, hfind, heq]

/-- An entry that is dropped is as old as the lifetime. -/
lemma mem_prune_or (h : (k, t) ∈ m) : (k, t) ∈ m.prune limit ttl now ∨ ttl ≤ now - t := by
  unfold prune
  split_ifs
  · by_cases hage : now - t < ttl
    · exact .inl (by simp [h, hage])
    · exact .inr (not_lt.1 hage)
  · exact .inl h

/-- What a check can do. -/
lemma checkAndInsert_cases {b : Bool} (h : checkAndInsert limit ttl m now k = (m', b)) :
    (b = false ∧ m' = m.prune limit ttl now ∧ ∃ t, (k, t) ∈ m' ∧ now - t < ttl) ∨
    (b = true ∧ m' = (m.prune limit ttl now).put k now ∧
      ∀ t, (k, t) ∈ m.prune limit ttl now → ttl ≤ now - t) := by
  unfold checkAndInsert at h
  cases htime : (m.prune limit ttl now).time? k with
  | none =>
    simp only [htime] at h
    cases h
    refine .inr ⟨rfl, rfl, fun t ht => ?_⟩
    rw [time?_eq_some.2 ht] at htime
    cases htime
  | some t =>
    simp only [htime] at h
    have hmem := time?_eq_some.1 htime
    split_ifs at h with hage <;> cases h
    · exact .inl ⟨rfl, rfl, t, hmem, hage⟩
    · refine .inr ⟨rfl, rfl, fun t' ht' => ?_⟩
      rw [time?_eq_some.2 ht'] at htime
      cases htime
      exact not_lt.1 hage

/-- The memory has what it needs at a time of the passes before: the time under the key of each is
that of the pass or a later one, unless the pass is a lifetime ago. -/
def Covers (ttl : ℕ) (m : Recent κ) (passed : List (κ × ℕ)) (now : ℕ) : Prop :=
  ∀ k t, (k, t) ∈ passed → t + ttl ≤ now ∨ ∃ t', (k, t') ∈ m ∧ t ≤ t' ∧ t' ≤ now

lemma covers_nil : Covers ttl m [] now := nofun

/-- Time passes. -/
lemma Covers.mono {passed : List (κ × ℕ)} {now' : ℕ} (h : Covers ttl m passed now)
    (hle : now ≤ now') : Covers ttl m passed now' := by
  intro k t hmem
  rcases h k t hmem with hold | ⟨t', hm, ht, ht'⟩
  · exact .inl (hold.trans hle)
  · exact .inr ⟨t', hm, ht, ht'.trans hle⟩

lemma Covers.prune {passed : List (κ × ℕ)} (h : Covers ttl m passed now) :
    Covers ttl (m.prune limit ttl now) passed now := by
  intro k t hmem
  rcases h k t hmem with hold | ⟨t', hm, ht, ht'⟩
  · exact .inl hold
  · rcases @mem_prune_or κ _ limit ttl now m k t' hm with hkept | hage
    · exact .inr ⟨t', hkept, ht, ht'⟩
    · exact .inl (by omega)

/-- A check keeps the memory covering, and a key passes only a lifetime after it passed before. -/
lemma checkAndInsert_covers {passed : List (κ × ℕ)} {b : Bool} (hcovers : Covers ttl m passed now)
    (h : checkAndInsert limit ttl m now k = (m', b)) :
    (b = true → ∀ t, (k, t) ∈ passed → t + ttl ≤ now) ∧
      Covers ttl m' (if b then (k, now) :: passed else passed) now := by
  have hpruned : Covers ttl (m.prune limit ttl now) passed now := hcovers.prune
  rcases checkAndInsert_cases h with ⟨rfl, rfl, -⟩ | ⟨rfl, rfl, hexpired⟩
  · exact ⟨nofun, hpruned⟩
  · refine ⟨fun _ t ht => ?_, ?_⟩
    · rcases hpruned k t ht with hold | ⟨t', hm, hle, hle'⟩
      · exact hold
      · have hage := hexpired t' hm
        omega
    · intro k' t ht
      rcases List.mem_cons.1 ht with heq | ht
      · cases heq
        exact .inr ⟨now, by simp, le_rfl, le_rfl⟩
      · rcases hpruned k' t ht with hold | ⟨t', hm, hle, hle'⟩
        · exact .inl hold
        · by_cases hk : k' = k
          · subst hk
            exact .inr ⟨now, by simp, hle.trans hle', le_rfl⟩
          · exact .inr ⟨t', by simp [hk, hm], hle, hle'⟩

/-- Each entry of the memory is of a pass. -/
def Records (m : Recent κ) (passed : List (κ × ℕ)) : Prop := ∀ k t, (k, t) ∈ m → (k, t) ∈ passed

lemma records_empty {passed : List (κ × ℕ)} : Records Table.empty passed := by
  intro k t h
  simp at h

lemma mem_of_mem_prune (h : (k, t) ∈ m.prune limit ttl now) : (k, t) ∈ m := by
  unfold prune at h
  split_ifs at h
  · exact (Table.mem_erase.1 h).1
  · exact h

/-- A check records the pass, if there is one. -/
lemma checkAndInsert_records {passed : List (κ × ℕ)} {b : Bool} (hrecords : Records m passed)
    (h : checkAndInsert limit ttl m now k = (m', b)) :
    Records m' (if b then (k, now) :: passed else passed) := by
  rcases checkAndInsert_cases h with ⟨rfl, rfl, -⟩ | ⟨rfl, rfl, -⟩
  · exact fun k' t ht => hrecords k' t (mem_of_mem_prune ht)
  · intro k' t ht
    rcases mem_put.1 ht with heq | ⟨-, ht⟩
    · rw [heq]
      exact List.mem_cons_self
    · exact List.mem_cons_of_mem _ (hrecords k' t (mem_of_mem_prune ht))

/-- A key passes if and only if it has not passed for a lifetime. -/
lemma checkAndInsert_iff {passed : List (κ × ℕ)} (hcovers : Covers ttl m passed now)
    (hrecords : Records m passed) :
    (checkAndInsert limit ttl m now k).2 = true ↔ ∀ t, (k, t) ∈ passed → t + ttl ≤ now := by
  obtain ⟨m', b, hcheck⟩ : ∃ m' b, checkAndInsert limit ttl m now k = (m', b) := ⟨_, _, rfl⟩
  rw [hcheck]
  refine ⟨(checkAndInsert_covers hcovers hcheck).1, fun hold => ?_⟩
  rcases checkAndInsert_cases hcheck with ⟨-, rfl, t, hmem, hage⟩ | ⟨hb, -, -⟩
  · have hlate := hold t (hrecords k t (mem_of_mem_prune hmem))
    omega
  · exact hb

end Recent
