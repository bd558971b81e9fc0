import NextNfs.Server.Connections

set_option relaxedAutoImplicit false
set_option autoImplicit false

/-!
# The session manager

This module models `SessionManager` of `nfs41.rs` as it answers the questions of the connections.
The connections that are bound to a session and the attributes of its channel are left out: nothing
reads them.

## Main definitions

* `NextNfs.Dispatcher.SessionManager` — the sessions and the next client id.
* `NextNfs.Dispatcher.SessionManager.step` — how it answers.

## Main results

* `NextNfs.Dispatcher.SessionManager.slots_ne_zero` — if every session is made with a slot, every
  session that is found has one.
-/

namespace NextNfs.Dispatcher

open Wire Dialogue

/-- `SessionManager`: the sessions with their clients, and the next client id. -/
structure SessionManager where
  sessions : List (UInt64 × Session)
  nextClientId : UInt64

namespace SessionManager

/-- `SessionManager::new`. -/
def new : SessionManager := ⟨[], 1⟩

/-- The id of a session: the client id and a counter. -/
def sessionId (clientId counter : UInt64) : List.Vector UInt8 16 :=
  ⟨beBytes 8 clientId.toNat ++ beBytes 8 counter.toNat, by simp⟩

/-- `sessions.remove`. -/
def remove (id : List.Vector UInt8 16) (sm : SessionManager) : SessionManager :=
  { sm with sessions := sm.sessions.filter fun x => x.2.id ≠ id }

/-- `sessions.insert`: a session with the same id is replaced. -/
def insert (clientId : UInt64) (session : Session) (sm : SessionManager) : SessionManager :=
  { sm with sessions := (clientId, session) :: (sm.remove session.id).sessions }

/-- `get_session`. -/
def getSession (id : List.Vector UInt8 16) (sm : SessionManager) : Option Session :=
  (sm.sessions.find? fun x => x.2.id == id).map Prod.snd

/-- How the session manager answers. The counter in the id of a new session is the number of the
sessions at some time before the session is made. -/
def step (sm : SessionManager) : (q : Question) → q.Answer → SessionManager → Prop
  | .allocateClientId, id, sm' => id = sm.nextClientId ∧
      sm' = { sm with nextClientId := sm.nextClientId + 1 }
  | .createSession clientId maxSlots, session, sm' => ∃ counter,
      session = ⟨sessionId clientId counter, maxSlots.toNat⟩ ∧ sm' = sm.insert clientId session
  | .getSession id, found, sm' => found = sm.getSession id ∧ sm' = sm
  | .destroySession id, destroyed, sm' =>
      destroyed = (sm.getSession id).isSome ∧ sm' = sm.remove id
  | .destroyClient clientId, _, sm' =>
      sm' = { sm with sessions := sm.sessions.filter fun x => x.1 ≠ clientId }
  | _, _, sm' => sm' = sm

/-- Every session has a slot. -/
def Slotted (sm : SessionManager) : Prop := ∀ x ∈ sm.sessions, x.2.slots ≠ 0

/-- The question does not make a session without a slot. -/
def MakesSlots (q : Question) : Prop :=
  ∀ clientId maxSlots, q = .createSession clientId maxSlots → maxSlots ≠ 0

variable {sm sm' : SessionManager}

lemma Slotted.remove (h : sm.Slotted) (id : List.Vector UInt8 16) : (sm.remove id).Slotted :=
  fun x hx => h x (List.mem_filter.1 hx).1

/-- Every session keeps its slots, and a new one has one if it is made with one. -/
lemma Slotted.of_step (h : sm.Slotted) {q : Question} {a : q.Answer} (hstep : sm.step q a sm')
    (hq : MakesSlots q) : sm'.Slotted := by
  cases q with
  | createSession clientId maxSlots =>
    obtain ⟨counter, rfl, rfl⟩ := hstep
    intro x hx
    rcases List.mem_cons.1 hx with rfl | hx
    · have hne := hq clientId maxSlots rfl
      exact fun hzero => hne (UInt32.toNat_inj.1 hzero)
    · exact h.remove _ x hx
  | allocateClientId =>
    obtain ⟨-, rfl⟩ := hstep
    exact h
  | getSession id =>
    obtain ⟨-, rfl⟩ := hstep
    exact h
  | destroySession id =>
    obtain ⟨-, rfl⟩ := hstep
    exact h.remove id
  | destroyClient clientId =>
    cases hstep
    exact fun x hx => h x (List.mem_filter.1 hx).1
  | _ =>
    cases hstep
    exact h

lemma Slotted.of_allows (h : sm.Slotted) {l : List Event} (hallow : Allows step sm l sm')
    (hl : ∀ x ∈ l, MakesSlots x.1) : sm'.Slotted := by
  induction hallow with
  | nil => exact h
  | cons hstep _ ih =>
    exact ih (h.of_step hstep (hl _ List.mem_cons_self)) fun x hx =>
      hl x (List.mem_cons_of_mem _ hx)

/-- A session that is found has a slot, if every session so far was made with one. -/
lemma slots_ne_zero {l₁ l₂ : List Event} {id : List.Vector UInt8 16} {session : Session}
    (hallow : Allows step new (l₁ ++ (⟨.getSession id, some session⟩ : Event) :: l₂) sm)
    (hl : ∀ x ∈ l₁, MakesSlots x.1) : session.slots ≠ 0 := by
  obtain ⟨sm₁, hbefore, hafter⟩ := hallow.of_append
  have hslotted : sm₁.Slotted := by
    have hnew : new.Slotted := by simp [Slotted, new]
    exact hnew.of_allows hbefore hl
  cases hafter with
  | cons hstep _ =>
    obtain ⟨hfound, -⟩ := hstep
    obtain ⟨x, hx, rfl⟩ := Option.map_eq_some_iff.1 hfound.symm
    exact hslotted x (List.mem_of_find?_eq_some hx)

end SessionManager

end NextNfs.Dispatcher
