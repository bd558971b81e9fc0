import NextNfs.Server.ExportManager

set_option relaxedAutoImplicit false
set_option autoImplicit false

/-!
# Several connections

The connections of a server take turns: each runs its compounds, and between two of its questions
the others go on. This module says what the rest of the server answers along such a run.

## Main definitions

* `NextNfs.Dispatcher.Serves` — a run of some connections.
* `NextNfs.Dispatcher.Connects` — the export manager and the file managers answer as they do.
-/

namespace NextNfs.Dispatcher

open Wire Dialogue

variable {ι : Type} [DecidableEq ι]

/-- Connections with their calls take turns, and ask these questions and get these answers; what is
left of their programs. -/
def Serves (S : Server) (conn : ι → Connection) (calls : ι → List (CallBody × SecFlavor))
    (h : List (ι × Event)) (left : ι → Op (List Outcome)) : Prop :=
  Interleaves (fun i => serve S (conn i) (calls i) []) h left

/-- What was asked and answered along a run, whoever asked. -/
def events (h : List (ι × Event)) : List Event := h.map Prod.snd

omit [DecidableEq ι] in
@[simp] lemma events_append (h₁ h₂ : List (ι × Event)) :
    events (h₁ ++ h₂) = events h₁ ++ events h₂ := List.map_append

/-- The rest of the server along a run of several connections: what the export manager answers it
answers in some state it can be in, the file manager that requests start with is that of an export,
and the file manager of an export gives out filehandles of the export. -/
structure Connects (conn : ι → Connection) (h : List (ι × Event)) : Prop where
  default : ∀ i e, (conn i).defaultFmanager = some e → ∃ em : ExportManager, em.Reachable ∧
    e ∈ em.listExports
  answers : ∀ x ∈ h, ∃ em : ExportManager, em.Reachable ∧ em.Answers x.2.1 x.2.2
  stamps : Stamps (events h)

namespace Connects

omit [DecidableEq ι]

variable {conn : ι → Connection} {h : List (ι × Event)}

lemma default_ne (hc : Connects conn h) (i : ι) :
    (conn i).defaultFmanager ≠ some pseudoRootExportId := by
  intro heq
  obtain ⟨em, hem, he⟩ := hc.default i _ heq
  exact hem.ne_pseudoRoot he rfl

lemma listed_ne (hc : Connects conn h) {l : List UInt8}
    (hl : (⟨.listExports, l⟩ : Event) ∈ events h) {e : UInt8} (he : e ∈ l) :
    e ≠ pseudoRootExportId := by
  obtain ⟨x, hx, heq⟩ := List.mem_map.1 hl
  obtain ⟨em, hem, hanswers⟩ := hc.answers x hx
  rw [heq] at hanswers
  have hperm : l.Perm em.listExports := hanswers
  exact hem.ne_pseudoRoot (hperm.mem_iff.1 he)

lemma named_ne (hc : Connects conn h) {name : String} {e : UInt8}
    (hl : (⟨.getExportByName name, some e⟩ : Event) ∈ events h) : e ≠ pseudoRootExportId := by
  obtain ⟨x, hx, heq⟩ := List.mem_map.1 hl
  obtain ⟨em, hem, hanswers⟩ := hc.answers x hx
  rw [heq] at hanswers
  have hname : some e = em.getExportByName name := hanswers
  exact hem.ne_pseudoRoot (ExportManager.mem_listExports_of_name hname.symm)

end Connects

/-! ### One connection -/

/-- The run of one connection against answers that are given. -/
def aloneRun (S : Server) (c : Connection) (msgs : List (CallBody × SecFlavor))
    (f : ℕ → (q : Question) → q.Answer) : List (Unit × Event) :=
  ((serve S c msgs []).run f 0).1.map fun x => ((), x)

lemma events_aloneRun (S : Server) (c : Connection) (msgs : List (CallBody × SecFlavor))
    (f : ℕ → (q : Question) → q.Answer) :
    events (aloneRun S c msgs f) = ((serve S c msgs []).run f 0).1 := by
  simp [events, aloneRun, Function.comp_def]

lemma serves_aloneRun (S : Server) (c : Connection) (msgs : List (CallBody × SecFlavor))
    (f : ℕ → (q : Question) → q.Answer) :
    ∃ left, Serves S (fun _ : Unit => c) (fun _ => msgs) (aloneRun S c msgs f) left ∧
      left () = (((serve S c msgs []).run f 0).2).elim .panic .pure :=
  ⟨_, @Runs.interleaves _ _ _ _ _ (fun _ => serve S c msgs []) () _ _ (runs_run f 0 _), by simp⟩

lemma connects_aloneRun {S : Server} {c : Connection} {msgs : List (CallBody × SecFlavor)}
    {em : ℕ → ExportManager}
    (hb : Beside c ((serve S c msgs []).run (sampleAnswers em) 0).1 em) :
    Connects (fun _ : Unit => c) (aloneRun S c msgs (sampleAnswers em)) := by
  refine ⟨fun _ => hb.default, fun x hx => ?_, ?_⟩
  · obtain ⟨y, hy, rfl⟩ := List.mem_map.1 hx
    obtain ⟨i, hi⟩ := List.mem_iff_getElem?.1 hy
    exact ⟨em i, hb.reachable i, hb.answers i y hi⟩
  · rw [events_aloneRun]
    exact stamps_sample em _

end NextNfs.Dispatcher
