import Mathlib.Data.List.Basic
import Mathlib.Logic.Equiv.Defs

set_option relaxedAutoImplicit false
set_option autoImplicit false

/-!
# Dialogues

A program that asks questions of its environment and goes on with the answers. What the
environment answers is not fixed: a run of a program is the list of its questions with the
answers it got, and its outcome. Between two questions the environment may change, so a run of
one party in a concurrent system is a run of this kind.

## Main definitions

* `Dialogue.Prog` — programs, with `Dialogue.Prog.bind`.
* `Dialogue.Runs` — a program has a run.
* `Dialogue.Prog.Does` — what a program does in an environment that has no state.
* `Dialogue.Prog.AsksOnly` — what a program asks, whatever it is answered.
* `Dialogue.Allows` — the environment allows a run, from a state of its own to another.
* `Dialogue.Prog.Sat` — whatever the environment does, a program asks only what it may and ends in
  an outcome with the given property.
* `Dialogue.Prog.Ends` — the same, with a property that also says how a program may crash.
* `Dialogue.Leaves` — a partial run of a program, and what is left of it.
* `Dialogue.Prog.embed` — a program in a larger vocabulary.
* `Dialogue.Interleaves` — several programs take turns, with `Dialogue.turns` of one of them.

## Main results

* `Dialogue.Prog.does_bind`, `Dialogue.Prog.sat_bind`, `Dialogue.Prog.ends_bind` — the rules for
  sequences.
* `Dialogue.Prog.Does.sat` — from environments without a state to environments with one.
* `Dialogue.Prog.Sat.holds_of_runs` — what `Sat` says of the runs of a program.
* `Dialogue.Interleaves.does` — what programs do that take turns.
* `Dialogue.Interleaves.runs` — the turns of one of them are a run of it.
* `Dialogue.Interleaves.leaves`, `Dialogue.interleaves_of_leaves` — programs take turns exactly when
  each has a partial run of its own.
-/

namespace Dialogue

/-- A program: it ends with a value, asks a question and goes on, or crashes. -/
inductive Prog (Q : Type) (A : Q → Type) (α : Type) : Type
  | pure (a : α)
  | ask (q : Q) (k : A q → Prog Q A α)
  | panic

variable {Q : Type} {A : Q → Type} {α β : Type}

namespace Prog

/-- A program and what to do with its value. -/
def bind : Prog Q A α → (α → Prog Q A β) → Prog Q A β
  | pure a, f => f a
  | ask q k, f => ask q fun a => (k a).bind f
  | panic, _ => panic

instance : Monad (Prog Q A) where
  pure := pure
  bind := bind

/-- Ask one question. -/
def query (q : Q) : Prog Q A (A q) := ask q pure

@[simp] lemma pure_bind (a : α) (f : α → Prog Q A β) : (pure a).bind f = f a := rfl

@[simp] lemma ask_bind (q : Q) (k : A q → Prog Q A α) (f : α → Prog Q A β) :
    (ask q k).bind f = ask q fun a => (k a).bind f := rfl

@[simp] lemma panic_bind (f : α → Prog Q A β) : (panic : Prog Q A α).bind f = panic := rfl

@[simp] lemma bind_eq (p : Prog Q A α) (f : α → Prog Q A β) : (p >>= f) = p.bind f := rfl

@[simp] lemma pure_eq (a : α) : (Pure.pure a : Prog Q A α) = pure a := rfl

lemma bind_bind {γ : Type} (p : Prog Q A α) (f : α → Prog Q A β) (g : β → Prog Q A γ) :
    (p.bind f).bind g = p.bind fun a => (f a).bind g := by
  induction p with
  | pure a => rfl
  | panic => rfl
  | ask q k ih => simp only [ask_bind, ih]

/-- The run against an environment that answers the `n`-th question by `f n`. -/
def run (f : ℕ → (q : Q) → A q) : ℕ → Prog Q A α → List (Σ q, A q) × Option α
  | _, pure a => ([], some a)
  | n, ask q k =>
    (⟨q, f n q⟩ :: ((k (f n q)).run f (n + 1)).1, ((k (f n q)).run f (n + 1)).2)
  | _, panic => ([], none)

end Prog

/-! ### Runs -/

/-- The program asks these questions, gets these answers and ends with this value, or crashes. -/
inductive Runs : Prog Q A α → List (Σ q, A q) → Option α → Prop
  | pure (a : α) : Runs (.pure a) [] (some a)
  | panic : Runs .panic [] none
  | ask {q : Q} {k : A q → Prog Q A α} {a : A q} {h : List (Σ q, A q)} {out : Option α} :
    Runs (k a) h out → Runs (.ask q k) (⟨q, a⟩ :: h) out

/-- The run against an environment that is given is a run. -/
lemma runs_run (f : ℕ → (q : Q) → A q) (n : ℕ) (p : Prog Q A α) :
    Runs p (p.run f n).1 (p.run f n).2 := by
  induction p generalizing n with
  | pure a => exact .pure a
  | ask q k ih => exact .ask (ih (f n q) (n + 1))
  | panic => exact .panic

/-- Each question of that run is answered as given. -/
lemma Prog.answer_of_run {f : ℕ → (q : Q) → A q} {n : ℕ} {p : Prog Q A α} {i : ℕ} {x : Σ q, A q}
    (h : (p.run f n).1[i]? = some x) : x.2 = f (n + i) x.1 := by
  induction p generalizing n i with
  | pure a => simp [Prog.run] at h
  | panic => simp [Prog.run] at h
  | ask q k ih =>
    cases i with
    | zero =>
      cases h
      rfl
    | succ i =>
      rw [Nat.add_comm i 1, ← Nat.add_assoc]
      exact ih _ h

/-- A run of a sequence is a run of its first part and, if that does not crash, a run of the
second. -/
lemma Runs.of_bind {p : Prog Q A α} {f : α → Prog Q A β} {h : List (Σ q, A q)} {out : Option β}
    (hrun : Runs (p.bind f) h out) :
    (∃ a h₁ h₂, h = h₁ ++ h₂ ∧ Runs p h₁ (some a) ∧ Runs (f a) h₂ out) ∨
      (out = none ∧ Runs p h none) := by
  induction p generalizing h with
  | pure a => exact .inl ⟨a, [], h, rfl, .pure a, hrun⟩
  | panic =>
    cases hrun
    exact .inr ⟨rfl, .panic⟩
  | ask q k ih =>
    cases hrun with
    | ask hrest =>
      obtain ⟨a, h₁, h₂, rfl, hp, hf⟩ | ⟨rfl, hp⟩ := ih _ hrest
      · exact .inl ⟨a, _ :: h₁, h₂, rfl, .ask hp, hf⟩
      · exact .inr ⟨rfl, .ask hp⟩

/-- A run of a program and one of what follows it make a run of the sequence. -/
lemma Runs.bind {p : Prog Q A α} {f : α → Prog Q A β} {h₁ h₂ : List (Σ q, A q)} {a : α}
    {out : Option β} (hp : Runs p h₁ (some a)) (hf : Runs (f a) h₂ out) :
    Runs (p.bind f) (h₁ ++ h₂) out := by
  generalize ho : some a = o at hp
  induction hp with
  | pure b =>
    cases ho
    exact hf
  | panic => cases ho
  | ask _ ih => exact .ask (ih ho)

/-! ### Environments without a state -/

/-- If it is answered by the `law`, the program asks only what is `ok`, does not crash unless
`crash`, and ends with a value that has the property. -/
def Prog.Does (law : (q : Q) → A q → Prop) (ok : Q → Prop) (crash : Prop) :
    Prog Q A α → (α → Prop) → Prop
  | .pure a, post => post a
  | .ask q k, post => ok q ∧ ∀ a, law q a → (k a).Does law ok crash post
  | .panic, _ => crash

section Does

variable {law : (q : Q) → A q → Prop} {ok : Q → Prop} {crash : Prop} {post : α → Prop}

@[simp] lemma Prog.does_pure (a : α) :
    (Prog.pure a : Prog Q A α).Does law ok crash post ↔ post a := Iff.rfl

@[simp] lemma Prog.does_ask (q : Q) (k : A q → Prog Q A α) :
    (Prog.ask q k).Does law ok crash post ↔ ok q ∧ ∀ a, law q a → (k a).Does law ok crash post :=
  Iff.rfl

@[simp] lemma Prog.does_panic : (Prog.panic : Prog Q A α).Does law ok crash post ↔ crash := Iff.rfl

@[simp] lemma Prog.does_query (q : Q) (post : A q → Prop) :
    (Prog.query q).Does law ok crash post ↔ ok q ∧ ∀ a, law q a → post a := Iff.rfl

/-- A sequence does what its second part does after its first. -/
@[simp] lemma Prog.does_bind (p : Prog Q A α) (f : α → Prog Q A β) (post : β → Prop) :
    (p.bind f).Does law ok crash post ↔
      p.Does law ok crash fun a => (f a).Does law ok crash post := by
  induction p with
  | pure a => rfl
  | panic => rfl
  | ask q k ih => simp only [ask_bind, does_ask, ih]

/-- The rule for sequences. -/
lemma Prog.Does.bind {p : Prog Q A α} {f : α → Prog Q A β} {post : β → Prop}
    (h : p.Does law ok crash fun a => (f a).Does law ok crash post) :
    (p >>= f).Does law ok crash post := (does_bind p f post).2 h

/-- The properties may be weakened. -/
lemma Prog.Does.mono {p : Prog Q A α} {ok' : Q → Prop} {crash' : Prop} {post' : α → Prop}
    (h : p.Does law ok crash post) (hok : ∀ q, ok q → ok' q) (hcrash : crash → crash')
    (hpost : ∀ a, post a → post' a) : p.Does law ok' crash' post' := by
  induction p with
  | pure a => exact hpost a h
  | panic => exact hcrash h
  | ask q k ih => exact ⟨hok q h.1, fun a ha => ih a (h.2 a ha)⟩

/-- The property of the outcome may be weakened. -/
lemma Prog.Does.imp {p : Prog Q A α} {post' : α → Prop} (h : p.Does law ok crash post)
    (hpost : ∀ a, post a → post' a) : p.Does law ok crash post' :=
  h.mono (fun _ hq => hq) (fun hc => hc) hpost

/-- What a program does under two descriptions. -/
lemma Prog.Does.and {p : Prog Q A α} {ok' : Q → Prop} {crash' : Prop} {post' : α → Prop}
    (h : p.Does law ok crash post) (h' : p.Does law ok' crash' post') :
    p.Does law (fun q => ok q ∧ ok' q) (crash ∧ crash') fun a => post a ∧ post' a := by
  induction p with
  | pure a => exact ⟨h, h'⟩
  | ask q k ih => exact ⟨⟨h.1, h'.1⟩, fun a ha => ih a (h.2 a ha) (h'.2 a ha)⟩
  | panic => exact ⟨h, h'⟩

/-- A program of which nothing is asked does it. -/
lemma Prog.does_of_forall (hpost : ∀ a, post a) (p : Prog Q A α) :
    p.Does law (fun _ => True) True post := by
  induction p with
  | pure a => exact hpost a
  | ask q k ih => exact ⟨trivial, fun a _ => ih a⟩
  | panic => trivial

/-- In a run that keeps the law, a program asks only what it may, crashes only if it may and ends as
it should. -/
lemma Prog.Does.of_runs {p : Prog Q A α} {h : List (Σ q, A q)} {out : Option α}
    (hdoes : p.Does law ok crash post) (hrun : Runs p h out) (hlaw : ∀ e ∈ h, law e.1 e.2) :
    (∀ e ∈ h, ok e.1) ∧ (∀ a, out = some a → post a) ∧ (out = none → crash) := by
  induction hrun with
  | pure a =>
    refine ⟨by simp, fun b hb => ?_, nofun⟩
    cases hb
    exact hdoes
  | panic => exact ⟨by simp, nofun, fun _ => hdoes⟩
  | ask hrest ih =>
    obtain ⟨hasks, hout⟩ := ih (hdoes.2 _ (hlaw _ List.mem_cons_self))
      fun e he => hlaw e (List.mem_cons_of_mem _ he)
    refine ⟨fun e he => ?_, hout⟩
    rcases List.mem_cons.1 he with rfl | he
    · exact hdoes.1
    · exact hasks e he

/-- Whatever it is answered, the program asks only what is `ok`. -/
def Prog.AsksOnly (ok : Q → Prop) (p : Prog Q A α) : Prop :=
  p.Does (fun _ _ => True) ok True fun _ => True

lemma Prog.asksOnly_pure (a : α) : (Prog.pure a : Prog Q A α).AsksOnly ok := trivial

lemma Prog.asksOnly_panic : (Prog.panic : Prog Q A α).AsksOnly ok := trivial

lemma Prog.asksOnly_query {q : Q} (h : ok q) :
    (Prog.query q : Prog Q A (A q)).AsksOnly ok := ⟨h, fun _ _ => trivial⟩

/-- The rule for sequences. -/
lemma Prog.AsksOnly.bind {p : Prog Q A α} {f : α → Prog Q A β} (hp : p.AsksOnly ok)
    (hf : ∀ a, (f a).AsksOnly ok) : (p >>= f).AsksOnly ok :=
  Prog.Does.bind (hp.imp fun a _ => hf a)

/-- What may be asked may be widened. -/
lemma Prog.AsksOnly.widen {ok' : Q → Prop} {p : Prog Q A α} (hp : p.AsksOnly ok)
    (hok : ∀ q, ok q → ok' q) : p.AsksOnly ok' :=
  hp.mono hok (fun _ => trivial) fun _ _ => trivial

/-- What a program asks in a run. -/
lemma Prog.AsksOnly.of_runs {p : Prog Q A α} {h : List (Σ q, A q)} {out : Option α}
    (hasks : p.AsksOnly ok) (hrun : Runs p h out) : ∀ e ∈ h, ok e.1 :=
  (Prog.Does.of_runs hasks hrun fun _ _ => trivial).1

end Does

/-! ### Environments -/

section Environment

variable {σ : Type} (step : σ → (q : Q) → A q → σ → Prop)

/-- The environment, which moves by `step`, allows a run. -/
inductive Allows : σ → List (Σ q, A q) → σ → Prop
  | nil (s : σ) : Allows s [] s
  | cons {s s' t : σ} {q : Q} {a : A q} {h : List (Σ q, A q)} :
    step s q a s' → Allows s' h t → Allows s (⟨q, a⟩ :: h) t

variable {step}

/-- An environment allows a run in parts. -/
lemma Allows.of_append {h₁ h₂ : List (Σ q, A q)} {s t : σ} (h : Allows step s (h₁ ++ h₂) t) :
    ∃ u, Allows step s h₁ u ∧ Allows step u h₂ t := by
  induction h₁ generalizing s with
  | nil => exact ⟨s, .nil s, h⟩
  | cons e h₁ ih =>
    cases h with
    | cons hstep hrest =>
      obtain ⟨u, hu, ht⟩ := ih hrest
      exact ⟨u, .cons hstep hu, ht⟩

variable (step) (ok : σ → Q → Prop) (crash : Prop)

/-- Whatever the environment answers, the program asks only what is `ok`, does not crash unless
`crash`, and ends with a value and a state that are related by `post`. -/
def Prog.Sat : Prog Q A α → σ → (α → σ → Prop) → Prop
  | .pure a, s, post => post a s
  | .ask q k, s, post => ok s q ∧ ∀ a s', step s q a s' → (k a).Sat s' post
  | .panic, _, _ => crash

/-- Whatever the environment answers, the program asks only what is `ok`, and ends or crashes with
an outcome and a state that are related by `post`. -/
def Prog.Ends : Prog Q A α → σ → (Option α → σ → Prop) → Prop
  | .pure a, s, post => post (some a) s
  | .ask q k, s, post => ok s q ∧ ∀ a s', step s q a s' → (k a).Ends s' post
  | .panic, s, post => post none s

variable {step ok crash}

@[simp] lemma Prog.sat_pure (a : α) (s : σ) (post : α → σ → Prop) :
    (Prog.pure a : Prog Q A α).Sat step ok crash s post ↔ post a s := Iff.rfl

@[simp] lemma Prog.sat_ask (q : Q) (k : A q → Prog Q A α) (s : σ) (post : α → σ → Prop) :
    (Prog.ask q k).Sat step ok crash s post ↔
      ok s q ∧ ∀ a s', step s q a s' → (k a).Sat step ok crash s' post := Iff.rfl

@[simp] lemma Prog.sat_panic (s : σ) (post : α → σ → Prop) :
    (Prog.panic : Prog Q A α).Sat step ok crash s post ↔ crash := Iff.rfl

@[simp] lemma Prog.sat_query (q : Q) (s : σ) (post : A q → σ → Prop) :
    (Prog.query q).Sat step ok crash s post ↔ ok s q ∧ ∀ a s', step s q a s' → post a s' := Iff.rfl

/-- A sequence does what its second part does after its first. -/
@[simp] lemma Prog.sat_bind (p : Prog Q A α) (f : α → Prog Q A β) (s : σ)
    (post : β → σ → Prop) :
    (p.bind f).Sat step ok crash s post ↔
      p.Sat step ok crash s fun a s' => (f a).Sat step ok crash s' post := by
  induction p generalizing s with
  | pure a => rfl
  | panic => rfl
  | ask q k ih => simp only [ask_bind, sat_ask, ih]

/-- The rule for sequences. -/
lemma Prog.Sat.bind {p : Prog Q A α} {f : α → Prog Q A β} {s : σ} {post : β → σ → Prop}
    (h : p.Sat step ok crash s fun a s' => (f a).Sat step ok crash s' post) :
    (p >>= f).Sat step ok crash s post := (sat_bind p f s post).2 h

/-- The property of the outcome may be weakened. -/
lemma Prog.Sat.mono {p : Prog Q A α} {s : σ} {post post' : α → σ → Prop}
    (h : p.Sat step ok crash s post) (hpost : ∀ a s', post a s' → post' a s') :
    p.Sat step ok crash s post' := by
  induction p generalizing s with
  | pure a => exact hpost a s h
  | panic => exact h
  | ask q k ih => exact ⟨h.1, fun a s' hstep => ih a (h.2 a s' hstep)⟩

/-- A program that does not depend on the state keeps what each of its questions keeps. -/
lemma Prog.Does.sat {law : (q : Q) → A q → Prop} {ok' : Q → Prop} {crash' : Prop} {P : α → Prop}
    {I : σ → Prop} {p : Prog Q A α} (h : p.Does law ok' crash' P) {s : σ} (hs : I s)
    (hstep : ∀ s q a s', I s → ok' q → step s q a s' → law q a ∧ I s')
    (hok : ∀ s q, I s → ok' q → ok s q) (hcrash : crash' → crash) :
    p.Sat step ok crash s fun a s' => P a ∧ I s' := by
  induction p generalizing s with
  | pure a => exact ⟨h, hs⟩
  | panic => exact hcrash h
  | ask q k ih =>
    refine ⟨hok s q hs h.1, fun a s' ha => ?_⟩
    obtain ⟨hlaw, hs'⟩ := hstep s q a s' hs h.1 ha
    exact ih a (h.2 a hlaw) hs'

/-- In an environment without a state it does not matter that there is one. -/
lemma Prog.Sat.does {law : (q : Q) → A q → Prop} {ok : Q → Prop} {p : Prog Q A α}
    {post : α → Unit → Prop}
    (h : p.Sat (fun _ q a _ => law q a) (fun _ => ok) crash () post) :
    p.Does law ok crash fun a => post a () := by
  induction p with
  | pure a => exact h
  | panic => exact h
  | ask q k ih => exact ⟨h.1, fun a ha => ih a (h.2 a () ha)⟩

/-- A sequence ends as its second part does after its first, or crashes as one of them does. -/
@[simp] lemma Prog.ends_bind (p : Prog Q A α) (f : α → Prog Q A β) (s : σ)
    (post : Option β → σ → Prop) :
    (p.bind f).Ends step ok s post ↔
      p.Ends step ok s fun o s' => o.elim (post none s') fun a => (f a).Ends step ok s' post := by
  induction p generalizing s with
  | pure a => rfl
  | panic => rfl
  | ask q k ih => simp only [ask_bind, Prog.Ends, ih]

/-- The rule for sequences. -/
lemma Prog.Ends.bind {p : Prog Q A α} {f : α → Prog Q A β} {s : σ} {post : Option β → σ → Prop}
    (h : p.Ends step ok s fun o s' => o.elim (post none s') fun a => (f a).Ends step ok s' post) :
    (p >>= f).Ends step ok s post := (ends_bind p f s post).2 h

/-- In a run that the environment allows, a program asks only what is `ok`, does not crash unless
`crash`, and ends as it should. -/
lemma Prog.Sat.holds_of_runs {p : Prog Q A α} {s t : σ} {post : α → σ → Prop}
    {h : List (Σ q, A q)} {out : Option α} (hsat : p.Sat step ok crash s post)
    (hrun : Runs p h out) (hallow : Allows step s h t) :
    (∀ h₁ e h₂, h = h₁ ++ e :: h₂ →
      ∃ u, Allows step s h₁ u ∧ Allows step u (e :: h₂) t ∧ ok u e.1) ∧
      (∀ a, out = some a → post a t) ∧ (out = none → crash) := by
  induction hrun generalizing s with
  | pure a =>
    cases hallow
    refine ⟨fun h₁ e h₂ he => by simp at he, fun b hb => ?_, nofun⟩
    cases hb
    exact hsat
  | panic =>
    cases hallow
    exact ⟨fun h₁ e h₂ he => by simp at he, nofun, fun _ => hsat⟩
  | ask hrest ih =>
    cases hallow with
    | cons hstep hallow =>
      obtain ⟨hasks, hout⟩ := ih (hsat.2 _ _ hstep) hallow
      refine ⟨fun h₁ e h₂ he => ?_, hout⟩
      cases h₁ with
      | nil =>
        cases he
        exact ⟨s, .nil s, .cons hstep hallow, hsat.1⟩
      | cons e' h₁ =>
        cases he
        obtain ⟨u, hu, ht, hok⟩ := hasks h₁ e h₂ rfl
        exact ⟨u, .cons hstep hu, ht, hok⟩

end Environment

/-! ### Partial runs -/

/-- The program asks these questions, gets these answers, and this is left of it. -/
inductive Leaves : Prog Q A α → List (Σ q, A q) → Prog Q A α → Prop
  | nil (p : Prog Q A α) : Leaves p [] p
  | cons {q : Q} {k : A q → Prog Q A α} {a : A q} {h : List (Σ q, A q)} {p : Prog Q A α} :
    Leaves (k a) h p → Leaves (.ask q k) (⟨q, a⟩ :: h) p

namespace Leaves

variable {p r : Prog Q A α} {h h₁ h₂ : List (Σ q, A q)}

/-- As long as nothing was asked, all of the program is left. -/
lemma of_nil (hleaves : Leaves p [] r) : r = p := by
  cases hleaves
  rfl

/-- Of a program that has ended, nothing else is left. -/
lemma of_pure {a : α} (hleaves : Leaves (.pure a) h r) : h = [] ∧ r = .pure a := by
  cases hleaves
  exact ⟨rfl, rfl⟩

lemma append {q : Prog Q A α} (hp : Leaves p h₁ q) (hq : Leaves q h₂ r) :
    Leaves p (h₁ ++ h₂) r := by
  induction hp with
  | nil p => exact hq
  | cons _ ih => exact .cons (ih hq)

/-- The first part of a sequence may leave something. -/
lemma bind_left (hp : Leaves p h r) (f : α → Prog Q A β) : Leaves (p.bind f) h (r.bind f) := by
  induction hp with
  | nil p => exact .nil _
  | cons _ ih => exact .cons ih

/-- The first part of a sequence may end, and the second leave something. -/
lemma bind {a : α} {f : α → Prog Q A β} {s : Prog Q A β} (hp : Leaves p h₁ (.pure a))
    (hf : Leaves (f a) h₂ s) : Leaves (p.bind f) (h₁ ++ h₂) s :=
  (hp.bind_left f).append hf

/-- What is left of a sequence is left of its first part, or that has ended. -/
lemma of_bind {f : α → Prog Q A β} {s : Prog Q A β} (hleaves : Leaves (p.bind f) h s) :
    (∃ a h₁ h₂, h = h₁ ++ h₂ ∧ Leaves p h₁ (.pure a) ∧ Leaves (f a) h₂ s) ∨
      ∃ r, (∀ a, r ≠ .pure a) ∧ Leaves p h r ∧ s = r.bind f := by
  induction p generalizing h with
  | pure a => exact .inl ⟨a, [], h, rfl, .nil _, hleaves⟩
  | panic =>
    cases hleaves
    exact .inr ⟨.panic, by simp, .nil _, rfl⟩
  | ask q k ih =>
    cases hleaves with
    | nil => exact .inr ⟨.ask q k, by simp, .nil _, rfl⟩
    | cons hrest =>
      obtain ⟨a, h₁, h₂, rfl, hp, hf⟩ | ⟨r, hr, hp, rfl⟩ := ih _ hrest
      · exact .inl ⟨a, _ :: h₁, h₂, rfl, .cons hp, hf⟩
      · exact .inr ⟨r, hr, .cons hp, rfl⟩

/-- A program that has ended has had a run. -/
lemma runs {a : α} (hleaves : Leaves p h (.pure a)) : Runs p h (some a) := by
  generalize hr : Prog.pure a = r at hleaves
  induction hleaves with
  | nil p =>
    subst hr
    exact .pure a
  | cons _ ih => exact .ask (ih hr)

/-- In a partial run that keeps the law, a program asks only what it may, and what is left of it
does what the program does. -/
lemma does {law : (q : Q) → A q → Prop} {ok : Q → Prop} {crash : Prop} {post : α → Prop}
    (hleaves : Leaves p h r) (hdoes : p.Does law ok crash post) (hlaw : ∀ e ∈ h, law e.1 e.2) :
    (∀ e ∈ h, ok e.1) ∧ r.Does law ok crash post := by
  induction hleaves with
  | nil p => exact ⟨by simp, hdoes⟩
  | cons _ ih =>
    obtain ⟨hasks, hleft⟩ := ih (hdoes.2 _ (hlaw _ List.mem_cons_self))
      fun e he => hlaw e (List.mem_cons_of_mem _ he)
    exact ⟨List.forall_mem_cons.2 ⟨hdoes.1, hasks⟩, hleft⟩

end Leaves

/-- A sequence of which the first part has not ended crashes as that does. -/
lemma Prog.bind_eq_panic {p : Prog Q A α} {f : α → Prog Q A β} (hp : ∀ a, p ≠ .pure a) :
    p.bind f = .panic ↔ p = .panic := by
  cases p with
  | pure a => exact absurd rfl (hp a)
  | ask q k => simp
  | panic => simp

/-- A sequence of which the first part has not ended has not ended. -/
lemma Prog.bind_ne_pure {p : Prog Q A α} {f : α → Prog Q A β} (hp : ∀ a, p ≠ .pure a) (b : β) :
    p.bind f ≠ .pure b := by
  cases p with
  | pure a => exact absurd rfl (hp a)
  | ask q k => simp
  | panic => simp

/-! ### Larger vocabularies -/

variable {Q' : Type} {A' : Q' → Type}

/-- A vocabulary in a larger one. -/
structure Within (A : Q → Type) (A' : Q' → Type) where
  ask : Q → Q'
  answer : (q : Q) → A' (ask q) ≃ A q

/-- An event, in the larger vocabulary. -/
def Within.event (w : Within A A') (e : Σ q, A q) : Σ q, A' q :=
  ⟨w.ask e.1, (w.answer e.1).symm e.2⟩

/-- The program, in the larger vocabulary. -/
def Prog.embed (w : Within A A') : Prog Q A α → Prog Q' A' α
  | .pure a => .pure a
  | .ask q k => .ask (w.ask q) fun a => (k (w.answer q a)).embed w
  | .panic => .panic

/-- What is left of a program in the larger vocabulary is left of it in its own. -/
lemma Leaves.of_embed {w : Within A A'} {p : Prog Q A α} {h : List (Σ q, A' q)} {s : Prog Q' A' α}
    (hleaves : Leaves (p.embed w) h s) :
    ∃ h' r, h = h'.map w.event ∧ Leaves p h' r ∧ s = r.embed w := by
  induction p generalizing h with
  | pure a =>
    obtain ⟨rfl, rfl⟩ := Leaves.of_pure hleaves
    exact ⟨[], .pure a, rfl, .nil _, rfl⟩
  | panic =>
    cases hleaves
    exact ⟨[], .panic, rfl, .nil _, rfl⟩
  | ask q k ih =>
    cases hleaves with
    | nil => exact ⟨[], .ask q k, rfl, .nil _, rfl⟩
    | @cons _ _ a h _ hrest =>
      obtain ⟨h', r, rfl, hp, rfl⟩ := ih _ hrest
      refine ⟨⟨q, w.answer q a⟩ :: h', r, ?_, .cons hp, rfl⟩
      simp [Within.event]

lemma Prog.embed_bind {w : Within A A'} (p : Prog Q A α) (f : α → Prog Q A β) :
    (p.bind f).embed w = (p.embed w).bind fun a => (f a).embed w := by
  induction p with
  | pure a => rfl
  | panic => rfl
  | ask q k ih => simp only [ask_bind, Prog.embed, ih]

/-- What a program does in the larger vocabulary. -/
@[simp] lemma Prog.does_embed {w : Within A A'} {law : (q : Q') → A' q → Prop} {ok : Q' → Prop}
    {crash : Prop} {post : α → Prop} (p : Prog Q A α) :
    (p.embed w).Does law ok crash post ↔
      p.Does (fun q a => law (w.ask q) ((w.answer q).symm a)) (fun q => ok (w.ask q)) crash
        post := by
  induction p with
  | pure a => rfl
  | panic => rfl
  | ask q k ih =>
    simp only [Prog.embed, Prog.does_ask, ih]
    refine and_congr_right' ⟨fun h a ha => ?_, fun h a ha => h _ (by simpa using ha)⟩
    simpa using h _ ha

lemma Prog.embed_eq_pure {w : Within A A'} {p : Prog Q A α} {a : α} :
    p.embed w = .pure a ↔ p = .pure a := by
  cases p <;> simp [Prog.embed]

lemma Prog.embed_eq_panic {w : Within A A'} {p : Prog Q A α} :
    p.embed w = .panic ↔ p = .panic := by
  cases p <;> simp [Prog.embed]

/-! ### Several programs -/

section Interleaves

variable {ι : Type} [DecidableEq ι]

/-- Programs that take turns: the questions and answers, each with the party that asked, and what is
left of the programs after them. -/
inductive Interleaves : (ι → Prog Q A α) → List (ι × Σ q, A q) → (ι → Prog Q A α) → Prop
  | nil (ps : ι → Prog Q A α) : Interleaves ps [] ps
  | cons {ps ps' : ι → Prog Q A α} {i : ι} {q : Q} {k : A q → Prog Q A α} {a : A q}
      {h : List (ι × Σ q, A q)} :
    ps i = .ask q k → Interleaves (Function.update ps i (k a)) h ps' →
    Interleaves ps ((i, ⟨q, a⟩) :: h) ps'

/-- Programs that each do as they should if they are answered by the law do so together, if the
answers keep the law as long as nothing was asked that is not `ok`. -/
lemma Interleaves.does {law : (q : Q) → A q → Prop} {ok : Q → Prop} {crash : Prop}
    {post : ι → α → Prop} {ps ps' : ι → Prog Q A α} {h : List (ι × Σ q, A q)}
    (hps : Interleaves ps h ps') (hdoes : ∀ i, (ps i).Does law ok crash (post i))
    (hlaw : ∀ h₁ x h₂, h = h₁ ++ x :: h₂ → (∀ y ∈ h₁, ok y.2.1) → ok x.2.1 → law x.2.1 x.2.2) :
    (∀ x ∈ h, ok x.2.1) ∧ ∀ i, (ps' i).Does law ok crash (post i) := by
  induction hps with
  | nil ps => exact ⟨by simp, hdoes⟩
  | @cons ps ps' i q k a h hi hrest ih =>
    have hask := hdoes i
    rw [hi] at hask
    have hnext : ∀ j, (Function.update ps i (k a) j).Does law ok crash (post j) := by
      intro j
      by_cases hj : j = i
      · subst hj
        rw [Function.update_self]
        exact hask.2 a (hlaw [] _ h rfl (by simp) hask.1)
      · rw [Function.update_of_ne hj]
        exact hdoes j
    obtain ⟨hoks, hleft⟩ := ih hnext fun h₁ x h₂ heq hbefore hx => by
      refine hlaw ((i, ⟨q, a⟩) :: h₁) x h₂ (by rw [heq]; rfl) (fun y hy => ?_) hx
      rcases List.mem_cons.1 hy with rfl | hy
      · exact hask.1
      · exact hbefore y hy
    exact ⟨List.forall_mem_cons.2 ⟨hask.1, hoks⟩, hleft⟩

/-- A run of one program, with others that wait. -/
lemma Runs.interleaves {ps : ι → Prog Q A α} {i : ι} {h : List (Σ q, A q)} {out : Option α}
    (hrun : Runs (ps i) h out) :
    Interleaves ps (h.map fun x => (i, x))
      (Function.update ps i (out.elim .panic .pure)) := by
  generalize hp : ps i = p at hrun
  induction hrun generalizing ps with
  | pure a =>
    have hsame : Function.update ps i ((some a).elim Prog.panic Prog.pure) = ps := by
      simp [← hp]
    rw [hsame]
    exact .nil ps
  | panic =>
    have hsame : Function.update ps i ((none : Option α).elim Prog.panic Prog.pure) = ps := by
      simp [← hp]
    rw [hsame]
    exact .nil ps
  | @ask q k a h out hrest ih =>
    have hnext := @ih (Function.update ps i (k a)) (by simp)
    rw [Function.update_idem] at hnext
    exact .cons hp hnext

/-- Programs that have taken turns may take more. -/
lemma Interleaves.append {ps ps' ps'' : ι → Prog Q A α} {h₁ h₂ : List (ι × Σ q, A q)}
    (hfirst : Interleaves ps h₁ ps') (hsecond : Interleaves ps' h₂ ps'') :
    Interleaves ps (h₁ ++ h₂) ps'' := by
  induction hfirst with
  | nil ps => exact hsecond
  | cons hi _ ih => exact .cons hi (ih hsecond)

/-- The questions of one party, with the answers. -/
def turns (i : ι) (h : List (ι × Σ q, A q)) : List (Σ q, A q) :=
  (h.filter fun x => x.1 = i).map Prod.snd

lemma turns_cons (i j : ι) (x : Σ q, A q) (h : List (ι × Σ q, A q)) :
    turns i ((j, x) :: h) = if j = i then x :: turns i h else turns i h := by
  by_cases hj : j = i <;> simp [turns, hj]

/-- A party that has come to its end among others has had a run of its own. -/
lemma Interleaves.runs {ps ps' : ι → Prog Q A α} {h : List (ι × Σ q, A q)}
    (hps : Interleaves ps h ps') {i : ι} {a : α} (hdone : ps' i = .pure a) :
    Runs (ps i) (turns i h) (some a) := by
  induction hps with
  | nil ps =>
    rw [hdone]
    exact .pure a
  | @cons ps ps' j q k b h hj hrest ih =>
    have hrun := ih hdone
    by_cases hij : j = i
    · subst hij
      rw [Function.update_self] at hrun
      rw [hj]
      simpa [turns] using Runs.ask hrun
    · rw [Function.update_of_ne (Ne.symm hij)] at hrun
      simpa [turns, hij] using hrun

/-- Each of the programs that take turns has a partial run of its own. -/
lemma Interleaves.leaves {ps ps' : ι → Prog Q A α} {h : List (ι × Σ q, A q)}
    (hps : Interleaves ps h ps') (i : ι) : Leaves (ps i) (turns i h) (ps' i) := by
  induction hps with
  | nil ps => exact .nil _
  | @cons ps ps' j q k b h hj hrest ih =>
    by_cases hij : j = i
    · subst hij
      rw [Function.update_self] at ih
      rw [hj]
      simpa [turns] using Leaves.cons ih
    · rw [Function.update_of_ne (Ne.symm hij)] at ih
      simpa [turns, hij] using ih

/-- Programs that have partial runs of their own take turns. -/
lemma interleaves_of_leaves {ps ps' : ι → Prog Q A α} {h : List (ι × Σ q, A q)}
    (hps : ∀ i, Leaves (ps i) (turns i h) (ps' i)) : Interleaves ps h ps' := by
  induction h generalizing ps with
  | nil =>
    have hsame : ps' = ps := funext fun i => (hps i).of_nil
    rw [hsame]
    exact .nil ps
  | cons x h ih =>
    obtain ⟨j, q, a⟩ := x
    have hj := hps j
    have hturns : turns j ((j, ⟨q, a⟩) :: h) = ⟨q, a⟩ :: turns j h := by simp [turns]
    rw [hturns] at hj
    generalize hp : ps j = p at hj
    cases hj with
    | cons hrest =>
      refine .cons hp (ih fun i => ?_)
      by_cases hij : j = i
      · subst hij
        rw [Function.update_self]
        exact hrest
      · rw [Function.update_of_ne (Ne.symm hij)]
        simpa [turns, hij] using hps i

/-- The first turn of a party, among those of all. -/
lemma exists_of_turns_eq_cons {i : ι} {h : List (ι × Σ q, A q)} {x : Σ q, A q} {rest : List (Σ q, A q)}
    (hturns : turns i h = x :: rest) : ∃ h₁ h₂, h = h₁ ++ (i, x) :: h₂ ∧ turns i h₂ = rest := by
  induction h with
  | nil => cases hturns
  | cons y h ih =>
    obtain ⟨j, y⟩ := y
    by_cases hj : j = i
    · subst hj
      simp only [turns, List.filter_cons, decide_true, if_true, List.map_cons, List.cons.injEq]
        at hturns
      obtain ⟨rfl, hrest⟩ := hturns
      exact ⟨[], h, rfl, hrest⟩
    · simp only [turns, List.filter_cons, hj, decide_false, Bool.false_eq_true, if_false] at hturns
      obtain ⟨h₁, h₂, rfl, hrest⟩ := ih hturns
      exact ⟨(j, y) :: h₁, h₂, rfl, hrest⟩

/-- A turn of a party is one of all. -/
lemma mem_of_mem_turns {i : ι} {h : List (ι × Σ q, A q)} {x : Σ q, A q} (hx : x ∈ turns i h) :
    (i, x) ∈ h := by
  obtain ⟨⟨j, y⟩, hy, rfl⟩ := List.mem_map.1 hx
  obtain ⟨hmem, hj⟩ := List.mem_filter.1 hy
  obtain rfl : j = i := of_decide_eq_true hj
  exact hmem

end Interleaves

end Dialogue
