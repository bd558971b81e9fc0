import NextNfs.Server.SessionManager

set_option relaxedAutoImplicit false
set_option autoImplicit false

/-!
# Panics

The operations panic where a request has no file manager that they need, where a session has no
slot, and where the end of an allocation does not fit. This module says when no connection gets
there.

## Main definitions

* `NextNfs.Dispatcher.Careful` — along a run, clients stay clear of what makes the operations panic.

## Main results

* `NextNfs.Dispatcher.ne_panic_of_careful` — no connection panics along such runs.
* `NextNfs.Dispatcher.panics` — three that do.
-/

namespace NextNfs.Dispatcher

open Wire Dialogue

variable {ι : Type}

/-- A file that is created is open. -/
def CreatesOpen (h : List Event) : Prop :=
  ∀ e path clientId owner access deny verifier fh,
    (⟨.on e (.createFile path clientId owner access deny verifier), .ok fh⟩ : Event) ∈ h →
      fh.locks ≠ []

/-- A run in which the clients stay clear of what makes the operations panic: operations that need a
file manager have one, and so have those that look up exports that are not there; allocations end
below 2^64; and sessions are made for at least one request at a time. -/
structure Careful (S : Server) (h : List Event) : Prop where
  manager : ∀ arg (req : Request), (⟨.execute arg req, ()⟩ : Event) ∈ h →
    req.cachedFmanager = none → needsManager S arg req = false
  looksUp : ∀ id (ctx : Context), (⟨.getExportById id ctx, false⟩ : Event) ∈ h →
    ctx.cachedFmanager ≠ none
  allocates : ∀ args (req : Request), (⟨.execute (.opallocate args) req, ()⟩ : Event) ∈ h →
    args.aaOffset.toNat + args.aaLength.toNat < 2 ^ 64
  sessions : ∀ args (req : Request), (⟨.execute (.opcreateSession args) req, ()⟩ : Event) ∈ h →
    args.csaForeChanAttrs.caMaxrequests ≠ 0

section Careful

variable {S : Server} {c : Connection} {h : List Event}

/-- The session that is found has a slot. -/
def FindsSlots (x : Event) : Prop :=
  ∀ id session, x = (⟨.getSession id, some session⟩ : Event) → session.slots ≠ 0

/-- The rest of the server along a run. -/
def carefulEnvironment (S : Server) (c : Connection) (h : List Event) : Environment S c Unit where
  step := fun _ q a _ => (⟨q, a⟩ : Event) ∈ h ∧ FindsSlots ⟨q, a⟩
  Ok := fun _ => SessionManager.MakesSlots
  Crash := False
  May := fun arg req => (⟨.execute arg req, ()⟩ : Event) ∈ h
  Selects := fun _ _ => True
  Allowed := fun _ => True
  Sound := fun _ => True
  Lost := fun o _ => o.manager c.defaultFmanager ≠ none
  Root := fun _ _ => True
  Astray := True

lemma min_ne_zero {n : UInt32} (hn : n ≠ 0) : min n 64 ≠ 0 := by
  show (if n ≤ 64 then n else 64) ≠ 0
  split_ifs
  · exact hn
  · nofun

lemma carefulEnvironment_lawful {conn : ι → Connection} {run : List (ι × Event)}
    (hc : Connects conn run) (i : ι) (hopen : CreatesOpen (events run))
    (hs : Careful S (events run)) : (carefulEnvironment S (conn i) (events run)).Lawful where
  default := hc.default_ne i
  listed := fun hstep _ he => hc.listed_ne hstep.1 he
  named := fun hstep => hc.named_ne hstep.1
  keeps := fun _ _ _ => trivial
  selects := fun _ => trivial
  loses := by
    rintro s id ctx s' o ⟨hmem, -⟩ hsets
    exact ⟨fun hnone => hs.looksUp id ctx hmem (hsets.cachedFmanager.trans hnone),
      fun _ _ => trivial⟩
  start := fun _ _ => trivial
  admits := fun _ => trivial
  gives := fun hstep hgives =>
    ⟨(hc.stamps _ _ _ _ hstep.1 hgives).1, (hc.stamps _ _ _ _ hstep.1 hgives).2, fun _ => trivial⟩
  soundRoot := trivial
  root := fun _ => trivial
  found := fun _ _ => trivial
  may := fun hstep => hstep.1
  plain := by
    rintro s q hq clientId maxSlots rfl
    cases hq
  executes := fun _ _ _ _ heq => by cases heq
  reads := fun _ _ _ _ heq => by cases heq
  asks := by
    rintro s arg req q - - hmay hasks clientId maxSlots rfl
    obtain ⟨args, rfl, -, rfl⟩ := hasks
    exact min_ne_zero (hs.sessions args req hmay)
  lostManager := fun hlost hnone => hlost hnone
  manager := by
    rintro arg req hmay hnone hneeds
    cases hneeds.symm.trans (hs.manager arg req hmay hnone)
  overflow := fun {args req} hmay hle => absurd (hs.allocates args req hmay) (Nat.not_lt.2 hle)
  slots := fun hstep hzero => hstep.2 _ _ rfl hzero
  locks := fun hstep hnil => hopen _ _ _ _ _ _ _ _ hstep.1 hnil

end Careful

/-- No panic: along every run of any connections beside the session manager, if the clients stay
clear of what makes the operations panic, no connection panics. -/
theorem ne_panic_of_careful [DecidableEq ι] (S : Server) (conn : ι → Connection)
    (calls : ι → List (CallBody × SecFlavor)) {h : List (ι × Event)} {left : ι → Op (List Outcome)}
    (hrun : Serves S conn calls h left) (hc : Connects conn h) {sm : SessionManager}
    (hsm : Allows SessionManager.step .new (events h) sm) (hopen : CreatesOpen (events h))
    (hs : Careful S (events h)) (i : ι) : left i ≠ .panic := by
  have hdoes : ∀ i, (serve S (conn i) (calls i) []).Does
      (fun q a => (⟨q, a⟩ : Event) ∈ events h ∧ FindsSlots ⟨q, a⟩) SessionManager.MakesSlots False
      fun _ => True := by
    intro i
    have hcache : (carefulEnvironment S (conn i) (events h)).Caches [] := by
      simp [Environment.Caches]
    have hsat := Environment.serve_sat (s := ()) (carefulEnvironment_lawful hc i hopen hs) (calls i)
      hcache
    exact hsat.does.imp fun _ _ => trivial
  have hleft := (Interleaves.does hrun hdoes ?_).2 i
  · intro hpanic
    rw [hpanic] at hleft
    exact hleft
  -- Every session was made with a slot, so the one that is found has one.
  rintro h₁ y h₂ rfl hbefore -
  refine ⟨List.mem_map_of_mem (by simp), fun id session hy => ?_⟩
  have hevent : y.2 = ⟨.getSession id, some session⟩ := hy
  rw [events_append, events, events, List.map_cons, hevent] at hsm
  refine SessionManager.slots_ne_zero hsm fun x hx => ?_
  obtain ⟨z, hz, rfl⟩ := List.mem_map.1 hx
  exact hbefore z hz

/-! ### Servers to try things on -/

/-- The events that are no business of the session manager. -/
def apart (x : Event) : Bool :=
  match x.1 with
  | .allocateClientId | .createSession .. | .getSession _ | .destroySession _ | .destroyClient _ =>
    false
  | _ => true

/-- The session manager stays as it is along such events. -/
lemma allows_of_apart (sm : SessionManager) {l : List Event} (hl : ∀ x ∈ l, apart x = true) :
    Allows SessionManager.step sm l sm := by
  induction l with
  | nil => exact .nil sm
  | cons x l ih =>
    obtain ⟨q, a⟩ := x
    have hstep : sm.step q a sm := by
      have hq := hl _ List.mem_cons_self
      cases q with
      | allocateClientId | createSession | getSession | destroySession | destroyClient => cases hq
      | _ => exact rfl
    exact .cons hstep (ih fun x hx => hl x (List.mem_cons_of_mem _ hx))

/-- An event that a careful client causes. -/
def heeds (S : Server) : Event → Bool
  | ⟨.execute arg req, _⟩ =>
    (req.cachedFmanager.isSome || !needsManager S arg req) && (match arg with
      | .opallocate args => args.aaOffset.toNat + args.aaLength.toNat < 2 ^ 64
      | .opcreateSession args => args.csaForeChanAttrs.caMaxrequests != 0
      | _ => true)
  | ⟨.getExportById _ ctx, known⟩ => known || ctx.cachedFmanager.isSome
  | _ => true

lemma careful_of_heeds {S : Server} {l : List Event} (hl : ∀ x ∈ l, heeds S x = true) :
    Careful S l := by
  refine ⟨fun arg req hmem hnone => ?_, fun id ctx hmem hnone => ?_, fun args req hmem => ?_,
    fun args req hmem => ?_⟩
  · have hheeds := hl _ hmem
    simp only [heeds, hnone, Bool.and_eq_true] at hheeds
    simpa using hheeds.1
  · have hheeds : (false || ctx.cachedFmanager.isSome) = true := hl _ hmem
    simp [hnone] at hheeds
  · have hheeds := hl _ hmem
    simp only [heeds, Bool.and_eq_true] at hheeds
    exact of_decide_eq_true hheeds.2
  · have hheeds := hl _ hmem
    simp only [heeds, Bool.and_eq_true] at hheeds
    exact bne_iff_ne.1 hheeds.2

/-- LOCKU after PUTFH. -/
def putfhLocku : List (CallBody × SecFlavor) :=
  [(callOf [.opputfh ⟨fileId 1⟩, .oplocku ⟨.readLt, 0, ⟨0, List.Vector.replicate 12 0⟩, 0, 1⟩], .sys)]

/-- A connection that selects an export before LOCKU does not panic. -/
theorem ne_panic_putfhLocku :
    ∃ (h : List (Unit × Event)) (left : Unit → Op (List Outcome)),
      Serves openServer (fun _ => earlyConnection) (fun _ => putfhLocku) h left ∧
      Careful openServer (events h) ∧ left () ≠ .panic := by
  obtain ⟨left, hrun, -⟩ := serves_aloneRun openServer earlyConnection putfhLocku
    (sampleAnswers steadyExport)
  have hb : Beside earlyConnection ((serve openServer earlyConnection putfhLocku []).run
      (sampleAnswers steadyExport) 0).1 steadyExport :=
    beside_sample _ nofun ⟨[.addExport "share" true], rfl⟩ fun _ => ⟨[], rfl⟩
  have hsm : Allows SessionManager.step .new
      (events (aloneRun openServer earlyConnection putfhLocku (sampleAnswers steadyExport))) .new := by
    rw [events_aloneRun]
    exact allows_of_apart _ (List.all_eq_true.1 rfl)
  have hopen : CreatesOpen
      (events (aloneRun openServer earlyConnection putfhLocku (sampleAnswers steadyExport))) := by
    rw [events_aloneRun]
    intro e path clientId owner access deny verifier fh hmem
    obtain ⟨i, hi⟩ := List.mem_iff_getElem?.1 hmem
    cases e with
    | none => cases Prog.answer_of_run hi
    | some e => cases Prog.answer_of_run hi
  have hs : Careful openServer
      (events (aloneRun openServer earlyConnection putfhLocku (sampleAnswers steadyExport))) := by
    rw [events_aloneRun]
    exact careful_of_heeds (List.all_eq_true.1 rfl)
  exact ⟨_, left, hrun, hs, ne_panic_of_careful openServer _ _ hrun (connects_aloneRun hb) hsm hopen
    hs ()⟩

/-! ### Connections that panic -/

/-- LOCKU on a connection that has no export. -/
def lockuAlone : List (CallBody × SecFlavor) :=
  [(callOf [.oplocku ⟨.readLt, 0, ⟨0, List.Vector.replicate 12 0⟩, 0, 1⟩], .sys)]

/-- CREATE_SESSION for no request at a time, and SEQUENCE in that session. -/
def createSequence : List (CallBody × SecFlavor) :=
  [(callOf [.opcreateSession ⟨0, 0, 0, ⟨0, 0, 0, 0, 0, 0, []⟩, ⟨0, 0, 0, 0, 0, 0, []⟩, 0, []⟩,
    .opsequence ⟨List.Vector.replicate 16 0, 0, 0, 0, false⟩], .sys)]

/-- The answers of a session manager without sessions. -/
def sessionAnswers (_ : ℕ) : (q : Question) → q.Answer
  | .createSession clientId maxSlots => ⟨SessionManager.sessionId clientId 0, maxSlots.toNat⟩
  | .getSession id => some ⟨id, 0⟩
  | q => q.idle

/-- ALLOCATE of one byte at the last offset. -/
def putfhAllocate : List (CallBody × SecFlavor) :=
  [(callOf [.opputfh ⟨fileId 1⟩,
    .opallocate ⟨⟨0, List.Vector.replicate 12 0⟩, 0xffffffffffffffff, 1⟩], .sys)]

/-- The answers of an export with an empty file. -/
def emptyFileAnswers (n : ℕ) : (q : Question) → q.Answer
  | .on _ (.appendFile _) => some ()
  | .on _ (.seekEnd _) => some 0
  | q => sampleAnswers steadyExport n q

/-- Clients that make the server panic: LOCKU without an export, SEQUENCE in a session without
slots, and ALLOCATE up to 2^64. -/
theorem panics :
    (∃ (h : List (Unit × Event)) (left : Unit → Op (List Outcome)),
      Serves openServer (fun _ => earlyConnection) (fun _ => lockuAlone) h left ∧
      left () = .panic) ∧
    (∃ (h : List (Unit × Event)) (left : Unit → Op (List Outcome)) (sm : SessionManager),
      Serves openServer (fun _ => earlyConnection) (fun _ => createSequence) h left ∧
      Allows SessionManager.step .new (events h) sm ∧ left () = .panic) ∧
    ∃ (h : List (Unit × Event)) (left : Unit → Op (List Outcome)),
      Serves openServer (fun _ => earlyConnection) (fun _ => putfhAllocate) h left ∧
      left () = .panic := by
  obtain ⟨left₁, hrun₁, hleft₁⟩ := serves_aloneRun openServer earlyConnection lockuAlone
    (sampleAnswers steadyExport)
  obtain ⟨left₂, hrun₂, hleft₂⟩ := serves_aloneRun openServer earlyConnection createSequence
    sessionAnswers
  obtain ⟨left₃, hrun₃, hleft₃⟩ := serves_aloneRun openServer earlyConnection putfhAllocate
    emptyFileAnswers
  -- One session is made, and found.
  have hsm : Allows SessionManager.step .new
      (events (aloneRun openServer earlyConnection createSequence sessionAnswers))
      (SessionManager.new.insert 0 ⟨SessionManager.sessionId 0 0, 0⟩) := by
    rw [events_aloneRun]
    exact .cons rfl (.cons rfl (.cons rfl (.cons ⟨0, rfl, rfl⟩ (.cons rfl (.cons rfl
      (.cons ⟨rfl, rfl⟩ (.nil _)))))))
  exact ⟨⟨_, left₁, hrun₁, hleft₁⟩, ⟨_, left₂, _, hrun₂, hsm, hleft₂⟩, _, left₃, hrun₃, hleft₃⟩

end NextNfs.Dispatcher
