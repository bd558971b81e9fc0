import NextNfs.Lib.Run
import NextNfs.Server.SessionManager

set_option relaxedAutoImplicit false
set_option autoImplicit false

/-!
# Sessions

This module is about the sessions of `nfs41.rs`: the ids that `create_session` gives them, and what
SEQUENCE (`op_sequence.rs`) makes of the sequence ids of a slot.

## Main definitions

* `NextNfs.Sessions.Creating`, `NextNfs.Sessions.Creating.step` — the session manager while sessions
  are made and destroyed. A creation counts the sessions first and inserts the new one later.
* `NextNfs.Sessions.Slots`, `NextNfs.Sessions.Slots.step` — the compounds that start with SEQUENCE.
* `NextNfs.Sessions.Slots.ExactlyOnce` — what the sequence ids of a slot are for.

## Main results

* `NextNfs.Sessions.newId_of_apart` — an id is new if the creations of a client do not overlap and
  no destruction leaves a session whose counter is not below the number of sessions.
* `NextNfs.Sessions.exactlyOnce_iff_inOrder` — compounds are executed exactly once exactly when
  every one comes with the next sequence id of its slot.
-/

namespace NextNfs.Sessions

open Wire Dispatcher

/-! ### Ids -/

/-- A creation that has counted the sessions. -/
structure Creation where
  clientId : UInt64
  maxSlots : UInt32
  counter : UInt64

/-- The session that a creation inserts. -/
def Creation.session (c : Creation) : Session :=
  ⟨SessionManager.sessionId c.clientId c.counter, c.maxSlots.toNat⟩

/-- The session manager, with the creations under way. -/
structure Creating where
  sm : SessionManager
  pending : ℕ → Option Creation

/-- `destroy_client`. -/
def destroyClient (clientId : UInt64) (sm : SessionManager) : SessionManager :=
  { sm with sessions := sm.sessions.filter fun x => x.1 ≠ clientId }

/-- What happens to the sessions. -/
inductive Action
  /-- `create_session`, up to the count, under a number of its own. -/
  | count (i : ℕ) (clientId : UInt64) (maxSlots : UInt32)
  /-- The rest of it. -/
  | insert (i : ℕ)
  | destroySession (id : List.Vector UInt8 16)
  | destroyClient (clientId : UInt64)

namespace Creating

/-- A session manager that starts. -/
def new : Creating := ⟨.new, fun _ => none⟩

/-- A step. -/
def step (s : Creating) : Action → Option Creating
  | .count i clientId maxSlots =>
    match s.pending i with
    | some _ => none
    | none =>
      let c : Creation := ⟨clientId, maxSlots, UInt64.ofNat s.sm.sessions.length⟩
      some { s with pending := Function.update s.pending i (some c) }
  | .insert i =>
    (s.pending i).map fun c =>
      ⟨s.sm.insert c.clientId c.session, Function.update s.pending i none⟩
  | .destroySession id => some { s with sm := s.sm.remove id }
  | .destroyClient clientId => some { s with sm := Sessions.destroyClient clientId s.sm }

/-- No live session has the id of a session that is inserted. -/
def NewId (s : Creating) (action : Action) : Prop :=
  ∀ i c, action = .insert i → s.pending i = some c → ∀ x ∈ s.sm.sessions, x.2.id ≠ c.session.id

/-- The counter in the id of a session. -/
def counterOf (id : List.Vector UInt8 16) : ℕ := ofBytes (id.toList.drop 8)

/-- The counters of the sessions are below their number, and those of the creations under way not
above. -/
structure Below (s : Creating) : Prop where
  live : ∀ x ∈ s.sm.sessions, counterOf x.2.id < s.sm.sessions.length
  pending : ∀ i c, s.pending i = some c → c.counter.toNat ≤ s.sm.sessions.length

/-- The creations of a client do not overlap, and a destruction leaves the counters below the number
of sessions. The number of sessions fits in a counter. -/
def Apart (s : Creating) : Action → Prop
  | .count _ clientId _ =>
    s.sm.sessions.length < 2 ^ 64 ∧ ∀ j c, s.pending j = some c → c.clientId ≠ clientId
  | .insert _ => True
  | .destroySession id => Below { s with sm := s.sm.remove id }
  | .destroyClient clientId => Below { s with sm := Sessions.destroyClient clientId s.sm }

end Creating

section NewId

variable {s s' : Creating} {clientId clientId' counter counter' : UInt64}

lemma counterOf_sessionId (clientId counter : UInt64) :
    Creating.counterOf (SessionManager.sessionId clientId counter) = counter.toNat := by
  have hdrop : (SessionManager.sessionId clientId counter).toList.drop 8 = beBytes 8 counter.toNat := by
    change (beBytes 8 clientId.toNat ++ beBytes 8 counter.toNat).drop 8 = _
    rw [List.drop_left' (length_beBytes 8 _)]
  rw [Creating.counterOf, hdrop]
  exact ofBytes_beBytes counter.toNat_lt

/-- The client of a session is in its id. -/
lemma clientId_of_sessionId (h : SessionManager.sessionId clientId counter =
    SessionManager.sessionId clientId' counter') : clientId = clientId' := by
  have hlist : beBytes 8 clientId.toNat ++ beBytes 8 counter.toNat =
      beBytes 8 clientId'.toNat ++ beBytes 8 counter'.toNat := congrArg List.Vector.toList h
  have hbytes : beBytes 8 clientId.toNat = beBytes 8 clientId'.toNat :=
    (List.append_inj hlist (by simp [length_beBytes])).1
  have hn : ofBytes (beBytes 8 clientId.toNat) = clientId.toNat :=
    ofBytes_beBytes clientId.toNat_lt
  have hn' : ofBytes (beBytes 8 clientId'.toNat) = clientId'.toNat :=
    ofBytes_beBytes clientId'.toNat_lt
  apply UInt64.toNat_inj.1
  rw [← hn, hbytes, hn']

/-- The invariant: the ids are made of the clients and the counters, a creation counted more
sessions than the counters of its client's, and the creations under way are of different clients. -/
structure Creating.Ordered (s : Creating) : Prop where
  below : s.Below
  made : ∀ x ∈ s.sm.sessions, ∃ counter, x.2.id = SessionManager.sessionId x.1 counter
  counted : ∀ i c, s.pending i = some c → ∀ x ∈ s.sm.sessions, x.1 = c.clientId →
    Creating.counterOf x.2.id < c.counter.toNat
  single : ∀ i j c d, s.pending i = some c → s.pending j = some d → c.clientId = d.clientId → i = j

lemma Creating.ordered_new : Creating.new.Ordered where
  below := ⟨by simp [new, SessionManager.new], by simp [new]⟩
  made := by simp [new, SessionManager.new]
  counted := by simp [new]
  single := by simp [new]

/-- A session under the id of a creation is of the same client, with the same counter. -/
lemma Creating.Ordered.newId (h : s.Ordered) {i : ℕ} {c : Creation} (hc : s.pending i = some c) :
    ∀ x ∈ s.sm.sessions, x.2.id ≠ c.session.id := by
  intro x hx heq
  obtain ⟨counter, hid⟩ := h.made x hx
  have hclient : x.1 = c.clientId := clientId_of_sessionId (hid.symm.trans heq)
  have hlt := h.counted i c hc x hx hclient
  rw [heq, Creation.session, counterOf_sessionId] at hlt
  omega

/-- An insertion under a new id adds a session. -/
lemma Creating.sessions_insert {sm : SessionManager} {session : Session}
    (h : ∀ x ∈ sm.sessions, x.2.id ≠ session.id) (clientId : UInt64) :
    (sm.insert clientId session).sessions = (clientId, session) :: sm.sessions := by
  unfold SessionManager.insert SessionManager.remove
  have hfilter : sm.sessions.filter (fun x => x.2.id ≠ session.id) = sm.sessions := by
    rw [List.filter_eq_self]
    intro x hx
    simpa using h x hx
  dsimp only
  rw [hfilter]

/-- What is left of the sessions is as it was. -/
lemma Creating.Ordered.of_subset (h : s.Ordered) {sm : SessionManager}
    (hsub : ∀ x ∈ sm.sessions, x ∈ s.sm.sessions) (hbelow : Below { s with sm := sm }) :
    Ordered { s with sm := sm } where
  below := hbelow
  made := fun x hx => h.made x (hsub x hx)
  counted := fun i c hc x hx => h.counted i c hc x (hsub x hx)
  single := h.single

lemma Creating.Ordered.insert (h : s.Ordered) {i : ℕ} {c : Creation} (hc : s.pending i = some c) :
    Ordered ⟨s.sm.insert c.clientId c.session, Function.update s.pending i none⟩ := by
  have hsessions := Creating.sessions_insert (h.newId hc) c.clientId
  have hpending : ∀ j d, Function.update s.pending i none j = some d → j ≠ i ∧ s.pending j = some d := by
    intro j d hd
    by_cases hj : j = i
    · subst hj
      simp at hd
    · rw [Function.update_of_ne hj] at hd
      exact ⟨hj, hd⟩
  have hcounter : counterOf c.session.id = c.counter.toNat := counterOf_sessionId _ _
  have hle := h.below.pending i c hc
  constructor
  · constructor
    · intro x hx
      dsimp only at hx ⊢
      rw [hsessions] at hx ⊢
      rcases List.mem_cons.1 hx with rfl | hx
      · rw [hcounter, List.length_cons]
        omega
      · have := h.below.live x hx
        rw [List.length_cons]
        omega
    · intro j d hd
      have := h.below.pending j d (hpending j d hd).2
      dsimp only
      rw [hsessions, List.length_cons]
      omega
  · intro x hx
    dsimp only at hx
    rw [hsessions] at hx
    rcases List.mem_cons.1 hx with rfl | hx
    · exact ⟨c.counter, rfl⟩
    · exact h.made x hx
  · intro j d hd x hx hclient
    obtain ⟨hj, hd⟩ := hpending j d hd
    dsimp only at hx
    rw [hsessions] at hx
    rcases List.mem_cons.1 hx with rfl | hx
    · exact absurd (h.single j i d c hd hc hclient.symm) hj
    · exact h.counted j d hd x hx hclient
  · intro j k d e hd he
    exact h.single j k d e (hpending j d hd).2 (hpending k e he).2

lemma Creating.Ordered.count (h : s.Ordered) {i : ℕ} {clientId : UInt64} (maxSlots : UInt32)
    (hfits : s.sm.sessions.length < 2 ^ 64)
    (hother : ∀ j c, s.pending j = some c → c.clientId ≠ clientId) :
    Ordered ⟨s.sm, Function.update s.pending i
      (some ⟨clientId, maxSlots, UInt64.ofNat s.sm.sessions.length⟩)⟩ := by
  have hcounter : (UInt64.ofNat s.sm.sessions.length).toNat = s.sm.sessions.length := by
    rw [UInt64.toNat_ofNat']
    exact Nat.mod_eq_of_lt hfits
  have hpending : ∀ j d, Function.update s.pending i
      (some ⟨clientId, maxSlots, UInt64.ofNat s.sm.sessions.length⟩) j = some d →
      (j = i ∧ d = ⟨clientId, maxSlots, UInt64.ofNat s.sm.sessions.length⟩) ∨ s.pending j = some d := by
    intro j d hd
    by_cases hj : j = i
    · subst hj
      rw [Function.update_self] at hd
      exact Or.inl ⟨rfl, (Option.some.inj hd).symm⟩
    · rw [Function.update_of_ne hj] at hd
      exact Or.inr hd
  refine ⟨⟨h.below.live, fun j d hd => ?_⟩, h.made, fun j d hd x hx hclient => ?_,
    fun j k d e hd he heq => ?_⟩
  · rcases hpending j d hd with ⟨rfl, rfl⟩ | hd
    · exact hcounter.le
    · exact h.below.pending j d hd
  · rcases hpending j d hd with ⟨rfl, rfl⟩ | hd
    · dsimp only
      rw [hcounter]
      exact h.below.live x hx
    · exact h.counted j d hd x hx hclient
  · rcases hpending j d hd with ⟨rfl, rfl⟩ | hd'
    · rcases hpending k e he with ⟨rfl, -⟩ | he'
      · rfl
      · exact absurd heq.symm (hother k e he')
    · rcases hpending k e he with ⟨-, rfl⟩ | he'
      · exact absurd heq (hother j d hd')
      · exact h.single j k d e hd' he' heq

/-- A step that keeps creations apart keeps the invariant, and an id that it gives is new. -/
lemma Creating.Ordered.of_step (h : s.Ordered) {action : Action} (hapart : s.Apart action)
    (hstep : s.step action = some s') : s.NewId action ∧ s'.Ordered := by
  refine ⟨fun i c _ hc => h.newId hc, ?_⟩
  cases action with
  | count i clientId maxSlots =>
    simp only [step] at hstep
    split at hstep
    · cases hstep
    · cases hstep
      exact h.count maxSlots hapart.1 hapart.2
  | insert i =>
    obtain ⟨c, hc, rfl⟩ := Option.map_eq_some_iff.1 hstep
    exact h.insert hc
  | destroySession id =>
    cases hstep
    exact h.of_subset (fun x hx => (List.mem_filter.1 hx).1) hapart
  | destroyClient clientId =>
    cases hstep
    exact h.of_subset (fun x hx => (List.mem_filter.1 hx).1) hapart

end NewId

/-- In a run in which creations are kept apart, every session gets an id that no live session has.
-/
theorem newId_of_apart {actions : List Action}
    (h : Run.Meets Creating.step Creating.Apart .new actions) :
    Run.Meets Creating.step Creating.NewId .new actions :=
  Run.meets_of_meets (fun _ _ _ hs hapart hstep => hs.of_step hapart hstep) Creating.ordered_new h

/-- Two sessions of a client, made one after the other. -/
theorem newId_of_apart_twice :
    Run.Meets Creating.step Creating.Apart .new
        [.count 0 1 4, .insert 0, .count 0 1 4, .insert 0] ∧
      Run.Meets Creating.step Creating.NewId .new
        [.count 0 1 4, .insert 0, .count 0 1 4, .insert 0] := by
  have hapart : Run.Meets Creating.step Creating.Apart .new
      [.count 0 1 4, .insert 0, .count 0 1 4, .insert 0] := by
    intro s₁ h₁
    cases h₁
    refine ⟨⟨by decide, by simp [Creating.new]⟩, fun s₂ h₂ => ⟨trivial, fun s₃ h₃ => ?_⟩⟩
    cases h₂
    cases h₃
    refine ⟨⟨by decide, fun j c hc => ?_⟩, fun s₄ _ => ⟨trivial, trivial⟩⟩
    have hnone : ∀ j, Function.update (Function.update Creating.new.pending 0
        (some (⟨1, 4, 0⟩ : Creation))) 0 none j = none := by
      intro j
      by_cases hj : j = 0 <;> simp [hj, Creating.new]
    exact absurd (hc.symm.trans (hnone j)) (by simp)
  exact ⟨hapart, newId_of_apart hapart⟩

/-- Two sessions are made and the first is destroyed: the third gets the id of the second. -/
theorem not_newId_after_destroy :
    ¬ Run.Meets Creating.step Creating.NewId .new
      [.count 0 1 4, .insert 0, .count 0 1 4, .insert 0,
        .destroySession (SessionManager.sessionId 1 0), .count 0 1 4, .insert 0] := by
  intro h
  obtain ⟨-, h⟩ := h _ rfl
  obtain ⟨-, h⟩ := h _ rfl
  obtain ⟨-, h⟩ := h _ rfl
  obtain ⟨-, h⟩ := h _ rfl
  obtain ⟨-, h⟩ := h _ rfl
  obtain ⟨-, h⟩ := h _ rfl
  obtain ⟨hnew, -⟩ := h _ rfl
  refine hnew 0 ⟨1, 4, 1⟩ rfl rfl (1, ⟨SessionManager.sessionId 1 1, 4⟩) ?_ rfl
  exact List.mem_cons_self

/-! ### Sequence ids -/

/-- What SEQUENCE answers for a session that was looked up. The sequence id is not looked at. -/
def statusOf (found : Option Session) (slotid : UInt32) : NfsStat4 :=
  match found with
  | none => .nfs4errBadSession
  | some session => if slotid.toNat ≥ session.slots then .nfs4errBadSlot else .nfs4Ok

/-- SEQUENCE looks up the session, and that decides what it answers. -/
lemma sequence_status {args : Sequence4args} {req : Request} {h : List Event} {r : Response}
    (hmanager : req.sessionManager = true)
    (hrun : Dialogue.Runs (Dispatcher.sequence args req) h (some r)) :
    ∃ found, h = [⟨.getSession args.saSessionid, found⟩] ∧
      r.status = statusOf found args.saSlotid := by
  unfold Dispatcher.sequence at hrun
  rw [if_neg (by simp [hmanager])] at hrun
  cases hrun with
  | @ask _ _ found _ _ hrest =>
    refine ⟨found, ?_⟩
    cases found with
    | none =>
      cases hrest
      exact ⟨rfl, rfl⟩
    | some session =>
      dsimp only [Dialogue.Prog.pure_bind, Dialogue.Prog.bind] at hrest
      split_ifs at hrest with hzero hslot
      · cases hrest
      · cases hrest
        exact ⟨rfl, by simp [statusOf, hslot, Response.none]⟩
      · cases hrest
        exact ⟨rfl, by simp [statusOf, hslot, Response.some]⟩

/-- The session manager, with the sequence ids of the compounds that were executed on the slots of
the live sessions, the last one first. -/
structure Slots where
  sm : SessionManager
  executed : List.Vector UInt8 16 → UInt32 → List UInt32

/-- What happens to the slots. -/
inductive SlotAction
  /-- A compound that starts with SEQUENCE. -/
  | compound (args : Sequence4args)
  /-- A session is made, after the sessions were counted. -/
  | createSession (c : Creation)
  | destroySession (id : List.Vector UInt8 16)
  | destroyClient (clientId : UInt64)

namespace Slots

/-- A session manager that starts. -/
def new : Slots := ⟨.new, fun _ _ => []⟩

/-- What SEQUENCE answers. -/
def status (s : Slots) (args : Sequence4args) : NfsStat4 :=
  statusOf (s.sm.getSession args.saSessionid) args.saSlotid

/-- A compound goes on to the operations after SEQUENCE. -/
def Executes (s : Slots) (args : Sequence4args) : Prop := s.status args = .nfs4Ok

instance (s : Slots) (args : Sequence4args) : Decidable (s.Executes args) :=
  inferInstanceAs (Decidable (_ = _))

/-- The sequence ids of a compound's slot. -/
def usedBy (s : Slots) (args : Sequence4args) : List UInt32 :=
  s.executed args.saSessionid args.saSlotid

/-- The next sequence id of a slot. -/
def nextId (used : List UInt32) : UInt32 := (used.head?.getD 0) + 1

/-- A step. -/
def step (s : Slots) : SlotAction → Option Slots
  | .compound args =>
    if s.Executes args then
      let slots := Function.update (s.executed args.saSessionid) args.saSlotid
        (args.saSequenceid :: s.usedBy args)
      some { s with executed := Function.update s.executed args.saSessionid slots }
    else some s
  | .createSession c =>
    some ⟨s.sm.insert c.clientId c.session,
      Function.update s.executed c.session.id fun _ => []⟩
  | .destroySession id => some { s with sm := s.sm.remove id }
  | .destroyClient clientId => some { s with sm := destroyClient clientId s.sm }

/-- The compound is on a slot of a live session. -/
def OnSlot (s : Slots) (args : Sequence4args) : Prop :=
  ∃ session, s.sm.getSession args.saSessionid = some session ∧ args.saSlotid.toNat < session.slots

/-- What the sequence ids of a slot are for: no compound is executed under an id that was used, the
last one sent again is not executed again, the next one is, and any other is refused. -/
def ExactlyOnce (s : Slots) (action : SlotAction) : Prop :=
  ∀ args, action = .compound args → s.OnSlot args →
    (s.Executes args → args.saSequenceid ∉ s.usedBy args) ∧
    ((s.usedBy args).head? = some args.saSequenceid → ¬ s.Executes args) ∧
    (args.saSequenceid = nextId (s.usedBy args) → s.Executes args) ∧
    ((s.usedBy args).head? ≠ some args.saSequenceid → args.saSequenceid ≠ nextId (s.usedBy args) →
      s.status args = .nfs4errSeqMisordered)

/-- A compound comes with the next sequence id of its slot, which was not used. -/
def InOrder (s : Slots) (action : SlotAction) : Prop :=
  ∀ args, action = .compound args → s.OnSlot args →
    args.saSequenceid = nextId (s.usedBy args) ∧ args.saSequenceid ∉ s.usedBy args

/-- Every compound on a slot is executed. -/
lemma OnSlot.executes {s : Slots} {args : Sequence4args} (h : s.OnSlot args) : s.Executes args := by
  obtain ⟨session, hfound, hslot⟩ := h
  unfold Executes status
  rw [hfound]
  simpa [statusOf] using hslot

lemma exactlyOnce_iff (s : Slots) (action : SlotAction) :
    s.ExactlyOnce action ↔ s.InOrder action := by
  constructor
  · intro h args haction hslot
    obtain ⟨hunused, hagain, -, hother⟩ := h args haction hslot
    refine ⟨?_, hunused hslot.executes⟩
    by_contra hne
    by_cases hlast : (s.usedBy args).head? = some args.saSequenceid
    · exact hagain hlast hslot.executes
    · have hrefused := hother hlast hne
      rw [show s.status args = .nfs4Ok from hslot.executes] at hrefused
      cases hrefused
  · intro h args haction hslot
    obtain ⟨hnext, hunused⟩ := h args haction hslot
    refine ⟨fun _ => hunused, fun hlast => ?_, fun _ => hslot.executes, fun _ hne => ?_⟩
    · exact absurd (List.mem_of_mem_head? hlast) hunused
    · exact absurd hnext hne

end Slots

/-- In a run, compounds are executed exactly once exactly when every one comes with the next
sequence id of its slot. -/
theorem exactlyOnce_iff_inOrder (s : Slots) (actions : List SlotAction) :
    Run.Meets Slots.step Slots.ExactlyOnce s actions ↔
      Run.Meets Slots.step Slots.InOrder s actions :=
  Run.meets_congr (fun s action _ _ => s.exactlyOnce_iff action) s actions

/-- A compound that is sent twice is executed twice. -/
theorem not_exactlyOnce_again :
    ¬ Run.Meets Slots.step Slots.ExactlyOnce .new
      [.createSession ⟨1, 4, 0⟩, .compound ⟨SessionManager.sessionId 1 0, 1, 0, 0, true⟩,
        .compound ⟨SessionManager.sessionId 1 0, 1, 0, 0, true⟩] := by
  intro h
  obtain ⟨-, h⟩ := h _ rfl
  obtain ⟨-, h⟩ := h _ rfl
  obtain ⟨hagain, -⟩ := h _ rfl
  have hcompound := hagain _ rfl ⟨⟨SessionManager.sessionId 1 0, 4⟩, rfl, by decide⟩
  exact hcompound.2.1 rfl rfl

end NextNfs.Sessions
