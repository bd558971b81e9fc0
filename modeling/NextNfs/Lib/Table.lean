import Mathlib.Data.List.Pairwise
import Mathlib.Tactic.SplitIfs

set_option relaxedAutoImplicit false
set_option autoImplicit false

/-!
# Tables with unique keys

A table is a finite collection of entries of which no two *clash*, that is, agree on a unique
key. It is kept as a list. Inserting an entry that clashes with another fails.

## Main definitions

* `Table` — tables of entries under a clash test.
* `Table.insert`, `Table.erase`, `Table.modify` — insertion, removal and change of entries.
* `Table.find?`, `Table.select` — lookup.

## Main results

* `Table.mem_insert`, `Table.mem_erase` — the entries after an operation.
* `Table.eq_of_clash` — two entries that clash are the same.
-/

/-- A table: no two of its entries clash. -/
structure Table (α : Type) (clash : α → α → Bool) where
  entries : List α
  distinct : entries.Pairwise fun a b => clash a b = false

namespace Table

variable {α : Type} {clash : α → α → Bool}

instance : Membership α (Table α clash) := ⟨fun t a => a ∈ t.entries⟩

instance [DecidableEq α] (a : α) (t : Table α clash) : Decidable (a ∈ t) :=
  inferInstanceAs (Decidable (a ∈ t.entries))

/-- The table without entries. -/
def empty : Table α clash := ⟨[], List.Pairwise.nil⟩

/-- Add an entry, unless it clashes with one. -/
def insert (t : Table α clash) (a : α) : Option (Table α clash) :=
  if h : ∀ b ∈ t.entries, clash b a = false then
    some ⟨t.entries ++ [a], List.pairwise_append.2
      ⟨t.distinct, List.pairwise_singleton _ _, fun b hb c hc => by
        rw [List.mem_singleton.1 hc]
        exact h b hb⟩⟩
  else none

/-- Remove the entries that satisfy `p`. -/
def erase (t : Table α clash) (p : α → Bool) : Table α clash :=
  ⟨t.entries.filter fun a => !p a, t.distinct.filter _⟩

/-- Change the entries by a function that keeps their keys. -/
def modify (t : Table α clash) (f : α → α) (hf : ∀ a b, clash (f a) (f b) = clash a b) :
    Table α clash :=
  ⟨t.entries.map f, List.pairwise_map.2 (t.distinct.imp fun {a b} h => by rw [hf, h])⟩

/-- The entry that satisfies `p`, if there is one. -/
def find? (t : Table α clash) (p : α → Bool) : Option α := t.entries.find? p

/-- The entries that satisfy `p`. -/
def select (t : Table α clash) (p : α → Bool) : List α := t.entries.filter p

variable {t : Table α clash} {a b : α} {p : α → Bool}

lemma mem_def : a ∈ t ↔ a ∈ t.entries := Iff.rfl

@[simp] lemma not_mem_empty : ¬ a ∈ (empty : Table α clash) := List.not_mem_nil

@[simp] lemma mem_erase : a ∈ t.erase p ↔ a ∈ t ∧ p a = false := by
  simp [mem_def, erase]

@[simp] lemma mem_modify {f : α → α} {hf : ∀ a b, clash (f a) (f b) = clash a b} :
    b ∈ t.modify f hf ↔ ∃ a ∈ t, f a = b := by
  simp [mem_def, modify]

@[simp] lemma mem_select : a ∈ t.select p ↔ a ∈ t ∧ p a = true := by
  simp [mem_def, select]

/-- An entry that was inserted comes last. -/
lemma entries_of_insert {t' : Table α clash} (h : t.insert a = some t') :
    t'.entries = t.entries ++ [a] := by
  unfold insert at h
  split_ifs at h
  cases h
  rfl

/-- The entries after an insertion. -/
lemma mem_insert {t' : Table α clash} (h : t.insert a = some t') :
    b ∈ t' ↔ b ∈ t ∨ b = a := by
  rw [mem_def, entries_of_insert h]
  simp [mem_def]

/-- An entry that was inserted was not there before. -/
lemma not_mem_of_insert {t' : Table α clash} (hrefl : ∀ a, clash a a = true)
    (h : t.insert a = some t') : a ∉ t := by
  intro hmem
  unfold insert at h
  split_ifs at h with hfree
  have hclash := hfree a hmem
  rw [hrefl] at hclash
  cases hclash

/-- An entry that is found is there and satisfies the test. -/
lemma of_find?_eq_some (h : t.find? p = some a) : a ∈ t ∧ p a = true :=
  ⟨List.mem_of_find?_eq_some h, List.find?_some h⟩

/-- No entry is found exactly when none satisfies the test. -/
lemma find?_eq_none : t.find? p = none ↔ ∀ a ∈ t, p a = false := by
  simp [find?, mem_def]

/-- Two entries that clash are the same. -/
lemma eq_of_clash (hsymm : ∀ a b, clash a b = clash b a) (ha : a ∈ t) (hb : b ∈ t)
    (h : clash a b = true) : a = b := by
  by_contra hne
  have : Std.Symm fun a b => clash a b = false := ⟨fun x y hxy => by rw [hsymm, hxy]⟩
  have hfalse : clash a b = false := t.distinct.forall ha hb hne
  rw [hfalse] at h
  cases h

end Table
