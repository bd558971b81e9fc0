import Mathlib.Data.List.Basic
import Mathlib.Tactic.Common

set_option relaxedAutoImplicit false
set_option autoImplicit false

/-!
# Files that are replaced at once

A file is replaced by writing a temporary file beside it and renaming that. The temporary file is
written in pieces, and whoever writes it may stop anywhere; the next one starts it anew.

## Main definitions

* `AtomicFile.Disk`, `AtomicFile.Op` — the two files, and what is done to them at once.
* `AtomicFile.replace` — how the file is replaced.
* `AtomicFile.Pending` — what is left to do when some of that was done.

## Main results

* `AtomicFile.Pending.step` — each step but the last leaves the file as it is, and the last one
  makes it what it should be.
-/

namespace AtomicFile

variable {β : Type}

/-- A file and the temporary file beside it. -/
structure Disk (β : Type) where
  file : Option (List β)
  temp : Option (List β)

/-- What is done at once: the temporary file is created or truncated, gets some more bytes, or is
renamed to the file; and the file is removed. -/
inductive Op (β : Type)
  | create
  | append (bytes : List β)
  | rename
  | remove

/-- What becomes of the files. -/
def Disk.apply (d : Disk β) : Op β → Disk β
  | .create => { d with temp := some [] }
  | .append bytes => { d with temp := d.temp.map (· ++ bytes) }
  | .rename => d.temp.elim d fun bytes => ⟨some bytes, none⟩
  | .remove => { d with file := none }

/-- What is left of replacing the file once the temporary file is there. -/
def finish (chunks : List (List β)) : List (Op β) := chunks.map .append ++ [.rename]

/-- How the file is replaced by some pieces. -/
def replace (chunks : List (List β)) : List (Op β) := .create :: finish chunks

/-- If this is done then the file has the content. -/
def Pending (d : Disk β) (content : List β) (todo : List (Op β)) : Prop :=
  ∃ chunks : List (List β), (todo = replace chunks ∧ chunks.flatten = content) ∨
    (todo = finish chunks ∧ ∃ start, d.temp = some start ∧ start ++ chunks.flatten = content)

variable {d : Disk β} {content : List β} {op : Op β} {todo : List (Op β)}

lemma Pending.replace (d : Disk β) (chunks : List (List β)) :
    Pending d chunks.flatten (replace chunks) :=
  ⟨chunks, Or.inl ⟨rfl, rfl⟩⟩

/-- There is something left to do. -/
lemma Pending.ne_nil (h : Pending d content todo) : todo ≠ [] := by
  obtain ⟨chunks, ⟨rfl, -⟩ | ⟨rfl, -⟩⟩ := h
  · exact List.cons_ne_nil _ _
  · exact List.append_ne_nil_of_right_ne_nil _ (List.cons_ne_nil _ _)

/-- **Replacing a file.** While there is more to do the file stays as it is; with the last step it
has its new content. -/
lemma Pending.step (h : Pending d content (op :: todo)) :
    (todo ≠ [] ∧ (d.apply op).file = d.file ∧ Pending (d.apply op) content todo) ∨
      (todo = [] ∧ (d.apply op).file = some content) := by
  obtain ⟨chunks, ⟨htodo, hcontent⟩ | ⟨htodo, start, htemp, hcontent⟩⟩ := h
  · cases htodo
    have hpending : Pending (d.apply .create) content (finish chunks) :=
      ⟨chunks, Or.inr ⟨rfl, [], rfl, hcontent⟩⟩
    exact Or.inl ⟨hpending.ne_nil, rfl, hpending⟩
  · cases chunks with
    | nil =>
      cases htodo
      refine Or.inr ⟨rfl, ?_⟩
      rw [List.flatten_nil, List.append_nil] at hcontent
      simp [Disk.apply, htemp, hcontent]
    | cons bytes chunks =>
      cases htodo
      have hpending : Pending (d.apply (.append bytes)) content (finish chunks) := by
        refine ⟨chunks, Or.inr ⟨rfl, start ++ bytes, ?_, ?_⟩⟩
        · simp [Disk.apply, htemp]
        · rw [List.append_assoc, ← List.flatten_cons, hcontent]
      exact Or.inl ⟨hpending.ne_nil, rfl, hpending⟩

end AtomicFile
