import Mathlib.Data.List.Infix
import Mathlib.Tactic.SplitIfs

set_option relaxedAutoImplicit false
set_option autoImplicit false

/-!
# Absolute paths

A path below some root, as the list of its components, none of which is empty, `.`, `..` or
contains a slash. Strings are resolved against a path one segment at a time; `..` takes a
component away, and fails above the root.

## Main definitions

* `PlainName` — a string that is a path component.
* `AbsPath` — paths, with `AbsPath.child`, `AbsPath.parent` and `AbsPath.toStr`.
* `AbsPath.join` — resolving a string against a path.

## Main results

* `AbsPath.join_of_plainName` — joining a component gives a child.
* `AbsPath.join_root_toStr` — a path is what its string resolves to.
* `AbsPath.toStr_injective` — a path can be read off its string.
-/

/-- A string that is a path component. -/
def PlainName (s : String) : Prop := s ≠ "" ∧ s ≠ "." ∧ s ≠ ".." ∧ '/' ∉ s.toList

instance (s : String) : Decidable (PlainName s) := inferInstanceAs (Decidable (_ ∧ _ ∧ _ ∧ _))

/-- An absolute path. -/
structure AbsPath where
  components : List String
  plain : ∀ c ∈ components, PlainName c
deriving DecidableEq

namespace AbsPath

/-- The root. -/
def root : AbsPath := ⟨[], by simp⟩

/-- The path above a path; the root is above itself. -/
def parent (p : AbsPath) : AbsPath :=
  ⟨p.components.dropLast, fun c hc => p.plain c (List.dropLast_subset _ hc)⟩

/-- The path of an entry of a directory. -/
def child (p : AbsPath) (name : String) (h : PlainName name) : AbsPath :=
  ⟨p.components ++ [name], by
    intro c hc
    rcases List.mem_append.1 hc with hc | hc
    · exact p.plain c hc
    · rw [List.mem_singleton.1 hc]
      exact h⟩

/-- A path below another. -/
def append (p q : AbsPath) : AbsPath :=
  ⟨p.components ++ q.components, fun c hc => (List.mem_append.1 hc).elim (p.plain c) (q.plain c)⟩

/-- The path as a string, a slash before each component; empty for the root. -/
def toStr (p : AbsPath) : String := String.ofList (p.components.flatMap fun c => '/' :: c.toList)

/-- The parts of a string between slashes. -/
def segments (s : String) : List String := (s.toList.splitOn '/').map String.ofList

/-- Resolve segments one after another. Empty segments and `.` are skipped; `..` takes away the
last component, if there is one. -/
def resolve : AbsPath → List String → Option AbsPath
  | base, [] => some base
  | base, s :: rest =>
    if s = "" ∨ s = "." then resolve base rest
    else if s = ".." then if base = root then none else resolve base.parent rest
    else if h : PlainName s then resolve (base.child s h) rest
    else none

/-- Resolve a string against a path. A string with a slash in front starts at the root. -/
def join (p : AbsPath) (s : String) : Option AbsPath :=
  resolve (if s.toList.head? = some '/' then root else p) (segments s)

/-! ### Strings of paths -/

variable {p q : AbsPath} {s : String}

@[ext] lemma ext (h : p.components = q.components) : p = q := by
  cases p
  cases q
  cases h
  rfl

@[simp] lemma parent_child (h : PlainName s) : (p.child s h).parent = p := by
  ext1
  simp [parent, child]

lemma child_ne_root (h : PlainName s) : p.child s h ≠ root := by
  intro heq
  have := congrArg components heq
  simp [child, root] at this

/-- Every path but the root is a child of its parent. -/
lemma eq_child_of_ne_root (h : p ≠ root) : ∃ name, ∃ hn : PlainName name,
    p = p.parent.child name hn := by
  have hne : p.components ≠ [] := fun hnil => h (ext hnil)
  refine ⟨p.components.getLast hne, p.plain _ (List.getLast_mem hne), ?_⟩
  ext1
  exact (List.dropLast_append_getLast hne).symm

@[simp] lemma append_root : p.append root = p := by
  ext1
  simp [append, root]

lemma child_injective {t : String} {hs : PlainName s} {ht : PlainName t}
    (h : p.child s hs = q.child t ht) : p = q ∧ s = t := by
  have hcomp := congrArg components h
  simp only [child] at hcomp
  obtain ⟨hp, hst⟩ := List.append_inj' hcomp rfl
  exact ⟨ext hp, List.head_eq_of_cons_eq hst⟩

@[simp] lemma root_append : root.append p = p := rfl

lemma append_child (h : PlainName s) : p.append (q.child s h) = (p.append q).child s h := by
  ext1
  simp [append, child]

@[simp] lemma toList_toStr : p.toStr.toList = p.components.flatMap fun c => '/' :: c.toList := by
  simp [toStr]

/-- The string of the root is empty. -/
@[simp] lemma toStr_root : root.toStr = "" := rfl

/-- The string of a child. -/
lemma toStr_child (h : PlainName s) : (p.child s h).toStr = p.toStr ++ "/" ++ s := by
  apply String.toList_injective
  simp [child]

@[simp] lemma toList_toStr_append :
    (p.append q).toStr.toList = p.toStr.toList ++ q.toStr.toList := by
  simp [append]

/-- Splitting a string of slash-separated parts gives the parts back. -/
lemma splitOn_append_flatMap (cs : List String) (hcs : ∀ c ∈ cs, '/' ∉ c.toList)
    (xs : List Char) (hxs : '/' ∉ xs) :
    (xs ++ cs.flatMap fun c => '/' :: c.toList).splitOn '/' = xs :: cs.map String.toList := by
  induction cs generalizing xs with
  | nil => simpa using List.splitOn_eq_singleton hxs
  | cons c cs ih =>
    rw [List.flatMap_cons, List.cons_append,
      List.splitOn_append_cons_self_of_not_mem hxs, List.map_cons]
    congr 1
    exact ih (fun d hd => hcs d (List.mem_cons_of_mem c hd)) c.toList
      (hcs c List.mem_cons_self)

/-- The segments of the string of a path are its components, after the slash in front. -/
lemma segments_toStr : segments p.toStr = "" :: p.components := by
  have h := splitOn_append_flatMap p.components (fun c hc => (p.plain c hc).2.2.2) []
    List.not_mem_nil
  rw [segments, toList_toStr, ← List.nil_append (List.flatMap _ _), h]
  simp [Function.comp_def]

/-- A string without slashes is one segment. -/
lemma segments_of_not_mem (h : '/' ∉ s.toList) : segments s = [s] := by
  rw [segments, List.splitOn_eq_singleton h]
  simp

/-! ### Resolution -/

/-- A component resolves to a child. -/
lemma resolve_cons_plain (h : PlainName s) (rest : List String) :
    resolve p (s :: rest) = resolve (p.child s h) rest := by
  have hskip : ¬ (s = "" ∨ s = ".") := by
    rintro (hs | hs)
    · exact h.1 hs
    · exact h.2.1 hs
  rw [resolve, if_neg hskip, if_neg h.2.2.1, dif_pos h]

/-- Components are appended. -/
lemma resolve_components (cs : List String) (hcs : ∀ c ∈ cs, PlainName c) (base : AbsPath) :
    ∃ r, resolve base cs = some r ∧ r.components = base.components ++ cs := by
  induction cs generalizing base with
  | nil => exact ⟨base, rfl, by simp⟩
  | cons c cs ih =>
    have hc : PlainName c := hcs c List.mem_cons_self
    obtain ⟨r, hr, hcomp⟩ := ih (fun d hd => hcs d (List.mem_cons_of_mem c hd)) (base.child c hc)
    refine ⟨r, ?_, ?_⟩
    · rw [resolve_cons_plain hc, hr]
    · rw [hcomp]
      simp [child]

/-- Joining a component gives a child. -/
lemma join_of_plainName (h : PlainName s) : p.join s = some (p.child s h) := by
  have hhead : s.toList.head? ≠ some '/' := fun hs => h.2.2.2 (List.mem_of_head? hs)
  rw [join, if_neg hhead, segments_of_not_mem h.2.2.2, resolve_cons_plain h, resolve]

/-- A path is what its string resolves to, from the root. -/
lemma join_root_toStr : root.join p.toStr = some p := by
  obtain ⟨r, hr, hcomp⟩ := resolve_components p.components p.plain root
  have hrp : r = p := by
    ext1
    rw [hcomp]
    rfl
  rw [join, ite_self, segments_toStr, resolve, if_pos (Or.inl rfl), hr, hrp]

/-- A path can be read off its string. -/
lemma toStr_injective : Function.Injective toStr := by
  intro p q h
  have hp : root.join p.toStr = some p := join_root_toStr
  rw [h, join_root_toStr] at hp
  exact (Option.some.inj hp).symm

example : root.join "/a/./b//../c" = some ⟨["a", "c"], by decide⟩ := by decide

end AbsPath
