import NextNfs.Server.DataPath

set_option relaxedAutoImplicit false
set_option autoImplicit false

/-!
# COMMIT

When a COMMIT is answered, the UNSTABLE WRITEs that were acknowledged before it was issued should be
on the disk. The write cache reports errors to the log only, and a write cache that still has writes
can be dropped or written to after it was dropped. This module shows that COMMIT keeps its promise
as long as none of this happens.

## Main definitions

* `NextNfs.DataPath.State.Durable` — the promise of COMMIT.
* `NextNfs.DataPath.State.Careful` — the condition on the steps.
* `NextNfs.DataPath.State.Kept` — the invariant.

## Main results

* `NextNfs.DataPath.holds_durable` — COMMIT keeps its promise in every run with careful steps.
-/

namespace NextNfs.DataPath

open Wire ByteFile

namespace State

/-- When a COMMIT was answered, the UNSTABLE WRITEs that were acknowledged before it was issued were
written at their offsets and synchronised. -/
def Durable (s : State) : Prop :=
  ∀ i r, s.calls i = some r → r.op = .commit → r.progress = .answered .ok →
    ∀ w ∈ r.owed, w ∈ s.synced

/-- A WRITE waits in a write cache. -/
def Queued (l : List CacheMessage) (w : ℕ) : Prop := ∃ offset data, CacheMessage.write w offset data ∈ l

/-- No call of the operating system fails; an UNSTABLE WRITE goes to the write cache that the file
manager has; and the file manager only drops a cache that has nothing to write or synchronise. -/
def Careful (s : State) : Action → Prop
  | .manage opens => opens = true ∧ ∀ rest, s.inbox = .dropWriteCacheHandle :: rest →
      ∀ c, s.cached = some c → (s.caches c).dirty = false ∧ ∀ w, ¬ Queued (s.caches c).inbox w
  | .send i => ∀ r offset data c, s.calls i = some r → r.op = .writeUnstable offset data →
      r.progress.Has c → s.cached = some c
  | .write _ outcome => outcome = .done
  | .sync _ ok => ok = true
  | _ => True

/-! ### The invariant -/

/-- A write cache answers for a WRITE: it waits there, or it was written and the cache knows that
there is something to synchronise. -/
def Holds (s : State) (c : CacheId) (w : ℕ) : Prop :=
  Queued (s.caches c).inbox w ∨ w ∈ s.written ∧ (s.caches c).dirty = true

/-- The invariant. -/
structure Kept (s : State) : Prop where
  known : s.Known
  acked : ∀ w ∈ s.acked, w ∈ s.synced ∨ ∃ c, s.cached = some c ∧ s.Holds c w
  owed : ∀ i r, s.calls i = some r → ∀ w ∈ r.owed, w ∈ s.acked
  got : ∀ i r c, s.calls i = some r → r.op = .commit → r.progress = .got c →
    ∀ w ∈ r.owed, w ∈ s.synced ∨ s.Holds c w
  queued : ∀ c l i rest, (s.caches c).inbox = l ++ .commit i :: rest → ∃ r, s.calls i = some r ∧
    r.op = .commit ∧
    ∀ w ∈ r.owed, w ∈ s.synced ∨ Queued l w ∨ w ∈ s.written ∧ (s.caches c).dirty = true
  finishing : ∀ c i, (s.caches c).finishing = some i → ∃ r, s.calls i = some r ∧ r.op = .commit ∧
    ∀ w ∈ r.owed, w ∈ s.synced
  durable : s.Durable

variable {s s' : State} {i : ℕ} {r : Request} {c : CacheId}

lemma kept_start (content : Bytes) : (start content).Kept := by
  constructor
  · exact known_start content
  · intro w hw
    cases hw
  · intro i r hr
    cases hr
  · intro i r c hr
    cases hr
  · intro c l i rest hinbox
    exact absurd hinbox.symm (by simp [start, Cache.new])
  · intro c i hfinishing
    cases hfinishing
  · intro i r hr
    cases hr

/-- An operation that is there is still there after one of them has got on, and is owed the same. -/
lemma exists_setProgress {p : Progress} {j : ℕ} {r' : Request} (hr : s.calls i = some r)
    (h : s.calls j = some r') : ∃ r'', (s.setProgress i r p).calls j = some r'' ∧
      r''.op = r'.op ∧ r''.owed = r'.owed := by
  unfold setProgress
  dsimp only
  by_cases hij : j = i
  · subst hij
    rw [hr] at h
    cases h
    rw [Function.update_self]
    exact ⟨_, rfl, rfl, rfl⟩
  · rw [Function.update_of_ne hij]
    exact ⟨r', h, rfl, rfl⟩

/-- An operation gets on, and nothing else happens that the invariant is about. -/
lemma Kept.of_progress (h : s.Kept) (hr : s.calls i = some r) {p : Progress}
    (hhas : ∀ c, p.Has c → c < s.nextCache)
    (hgot : ∀ c, r.op = .commit → p = .got c → ∀ w ∈ r.owed, w ∈ s.synced ∨ s.Holds c w)
    (hok : r.op = .commit → p = .answered .ok → ∀ w ∈ r.owed, w ∈ s.synced)
    (content reference : Bytes) (inbox : List ManagerMessage) :
    Kept { s.setProgress i r p with
      content := content, reference := reference, inbox := inbox } := by
  have hknown := h.known.of_progress hr hhas
  constructor
  · exact ⟨hknown.opened, hknown.registered, hknown.handles, hknown.idle, hknown.fresh⟩
  · exact h.acked
  · intro j r' hr'
    rcases calls_setProgress hr' with ⟨rfl, rfl⟩ | ⟨-, hr'⟩
    · exact h.owed j r hr
    · exact h.owed j r' hr'
  · intro j r' c hr' hop hprogress
    rcases calls_setProgress hr' with ⟨rfl, rfl⟩ | ⟨-, hr'⟩
    · exact hgot c hop hprogress
    · exact h.got j r' c hr' hop hprogress
  · intro c l j rest hinbox
    obtain ⟨r', hr', hop, hsafe⟩ := h.queued c l j rest hinbox
    obtain ⟨r'', hr'', hop', howed⟩ := exists_setProgress (p := p) hr hr'
    refine ⟨r'', hr'', hop'.trans hop, ?_⟩
    rw [howed]
    exact hsafe
  · intro c j hfinishing
    obtain ⟨r', hr', hop, hsafe⟩ := h.finishing c j hfinishing
    obtain ⟨r'', hr'', hop', howed⟩ := exists_setProgress (p := p) hr hr'
    refine ⟨r'', hr'', hop'.trans hop, ?_⟩
    rw [howed]
    exact hsafe
  · intro j r' hr' hop hprogress
    rcases calls_setProgress hr' with ⟨rfl, rfl⟩ | ⟨-, hr'⟩
    · exact hok hop hprogress
    · exact h.durable j r' hr' hop hprogress

/-- An operation is issued. -/
lemma Kept.of_issue (h : s.Kept) (op : Operation) {held : Option CacheId}
    (hheld : ∀ c ∈ held, c < s.nextCache) :
    Kept { s with
      calls := Function.update s.calls s.nextCall (some ⟨op, .called held, s.acked, s.reference⟩)
      nextCall := s.nextCall + 1 } := by
  have hold : ∀ {j : ℕ} {r' : Request}, s.calls j = some r' →
      Function.update s.calls s.nextCall (some ⟨op, .called held, s.acked, s.reference⟩) j =
        some r' := by
    intro j r' hr'
    have hne : j ≠ s.nextCall := by
      rintro rfl
      rw [h.known.fresh _ le_rfl] at hr'
      cases hr'
    rw [Function.update_of_ne hne]
    exact hr'
  constructor
  · exact h.known.of_issue op hheld
  · exact h.acked
  · intro j r' hr'
    rcases calls_issue hr' with rfl | hr'
    · exact fun w hw => hw
    · exact h.owed j r' hr'
  · intro j r' c hr' hop hprogress
    rcases calls_issue hr' with rfl | hr'
    · cases hprogress
    · exact h.got j r' c hr' hop hprogress
  · intro c l j rest hinbox
    obtain ⟨r', hr', hsafe⟩ := h.queued c l j rest hinbox
    exact ⟨r', hold hr', hsafe⟩
  · intro c j hfinishing
    obtain ⟨r', hr', hsafe⟩ := h.finishing c j hfinishing
    exact ⟨r', hold hr', hsafe⟩
  · intro j r' hr' hop hprogress
    rcases calls_issue hr' with rfl | hr'
    · cases hprogress
    · exact h.durable j r' hr' hop hprogress

/-- More messages behind do no harm. -/
lemma Queued.append {l : List CacheMessage} {w : ℕ} (h : Queued l w) (l' : List CacheMessage) :
    Queued (l ++ l') w := by
  obtain ⟨offset, data, hmem⟩ := h
  exact ⟨offset, data, List.mem_append_left _ hmem⟩

lemma holds_post {w : ℕ} {d : CacheId} {msg : CacheMessage} (h : s.Holds d w) :
    (s.post c msg).Holds d w := by
  unfold Holds
  rw [caches_post]
  exact h.imp (fun hqueued => hqueued.append _) id

/-- An earlier part of what waits in a write cache after a message. -/
lemma inbox_post {d : CacheId} {msg : CacheMessage} {l rest : List CacheMessage} {m : CacheMessage}
    (h : ((s.post c msg).caches d).inbox = l ++ m :: rest) :
    (d = c ∧ m = msg ∧ l = (s.caches d).inbox) ∨ ∃ rest', (s.caches d).inbox = l ++ m :: rest' := by
  rw [caches_post] at h
  dsimp only at h
  split_ifs at h with hdc
  · rcases List.eq_nil_or_concat rest with rfl | ⟨rest', last, rfl⟩
    · obtain ⟨hl, hm⟩ := List.append_inj' h rfl
      cases hm
      exact Or.inl ⟨hdc, rfl, hl.symm⟩
    · right
      refine ⟨rest', ?_⟩
      have hassoc : l ++ m :: (rest' ++ [last]) = (l ++ m :: rest') ++ [last] := by simp
      rw [List.concat_eq_append, hassoc] at h
      exact (List.append_inj' h rfl).1
  · right
    rw [List.append_nil] at h
    exact ⟨rest, h⟩

/-- A message to a write cache that an operation has. A COMMIT that is sent finds the WRITEs that it
is owed before it. -/
lemma Kept.of_post (h : s.Kept) {c : CacheId} {msg : CacheMessage} (hc : c < s.nextCache)
    (hcommit : ∀ i, msg = .commit i → ∃ r, s.calls i = some r ∧ r.op = .commit ∧
      ∀ w ∈ r.owed, w ∈ s.synced ∨ s.Holds c w) : (s.post c msg).Kept := by
  constructor
  · exact h.known.of_cache hc (h.known.opened c hc)
  · intro w hw
    refine (h.acked w hw).imp id ?_
    rintro ⟨d, hd, hholds⟩
    exact ⟨d, hd, holds_post hholds⟩
  · exact h.owed
  · intro j r' d hr' hop hprogress w hw
    exact (h.got j r' d hr' hop hprogress w hw).imp id holds_post
  · intro d l j rest hinbox
    rw [caches_post]
    rcases inbox_post hinbox with ⟨rfl, hmsg, rfl⟩ | ⟨rest', hold⟩
    · exact hcommit j hmsg.symm
    · exact h.queued d l j rest' hold
  · intro d j hfinishing
    rw [caches_post] at hfinishing
    exact h.finishing d j hfinishing
  · exact h.durable

/-- A WRITE is acknowledged that waits in the write cache of the file manager. -/
lemma Kept.of_ack (h : s.Kept) {w : ℕ} (hcached : s.cached = some c) (hholds : s.Holds c w) :
    Kept { s with acked := w :: s.acked } := by
  constructor
  · exact ⟨h.known.opened, h.known.registered, h.known.handles, h.known.idle, h.known.fresh⟩
  · intro v hv
    rcases List.mem_cons.1 hv with rfl | hold
    · exact Or.inr ⟨c, hcached, hholds⟩
    · exact h.acked v hold
  · intro j r' hr' v hv
    exact List.mem_cons_of_mem _ (h.owed j r' hr' v hv)
  · exact h.got
  · exact h.queued
  · exact h.finishing
  · exact h.durable

/-- A handler sends its message. -/
lemma Kept.of_send (h : s.Kept) (hcareful : s.Careful (.send i)) (hstep : s.send i = some s') :
    s'.Kept := by
  obtain ⟨r, hr, ⟨offset, data, c, hop, hhas, rfl⟩ | ⟨c, hop, hgot, rfl⟩⟩ := send_cases hstep
  · have hposted : (s.post c (.write i offset data)).Kept :=
      h.of_post (h.known.handles i r c hr hhas) fun j hj => by cases hj
    have hanswered := hposted.of_progress (p := .answered .ok) hr
      (by rintro d (hd | hd) <;> cases hd) (by rintro d - hd; cases hd)
      (by intro hcommit; rw [hop] at hcommit; cases hcommit) s.content
      (splice 0 s.reference offset.toNat data) s.inbox
    refine hanswered.of_ack (c := c) (hcareful r offset data c hr hop hhas) (Or.inl ?_)
    refine ⟨offset, data, ?_⟩
    show CacheMessage.write i offset data ∈ ((s.post c (.write i offset data)).caches c).inbox
    rw [caches_post, if_pos rfl]
    exact List.mem_append_right _ (List.mem_singleton_self _)
  · have hposted : (s.post c (.commit i)).Kept := by
      refine h.of_post (h.known.handles i r c hr (Or.inr hgot)) fun j hj => ?_
      cases hj
      exact ⟨r, hr, hop, h.got i r c hr hop hgot⟩
    exact hposted.of_progress hr (by rintro d (hd | hd) <;> cases hd) (by rintro d - hd; cases hd)
      (by intro _ hd; cases hd) s.content s.reference s.inbox

/-- The file manager drops a write cache that has nothing to write or synchronise. -/
lemma Kept.of_drop (h : s.Kept) (hclean : ∀ c, s.cached = some c →
      (s.caches c).dirty = false ∧ ∀ w, ¬ Queued (s.caches c).inbox w)
    (inbox : List ManagerMessage) : Kept { s with inbox := inbox, cached := none } := by
  constructor
  · refine ⟨h.known.opened, fun c hc => ?_, h.known.handles, h.known.idle, h.known.fresh⟩
    cases hc
  · intro w hw
    left
    rcases h.acked w hw with hsynced | ⟨c, hc, hqueued | ⟨-, hdirty⟩⟩
    · exact hsynced
    · exact absurd hqueued ((hclean c hc).2 w)
    · rw [(hclean c hc).1] at hdirty
      cases hdirty
  · exact h.owed
  · exact h.got
  · exact h.queued
  · exact h.finishing
  · exact h.durable

/-- The file manager makes a write cache. -/
lemma Kept.of_newCache (h : s.Kept) (hcached : s.cached = none) :
    Kept { s with
      caches := Function.update s.caches s.nextCache (.new true)
      nextCache := s.nextCache + 1
      cached := some s.nextCache } := by
  have hsynced : ∀ w ∈ s.acked, w ∈ s.synced := by
    intro w hw
    rcases h.acked w hw with hsynced | ⟨c, hc, -⟩
    · exact hsynced
    · rw [hcached] at hc
      cases hc
  have hother : ∀ {c : CacheId}, c ≠ s.nextCache →
      Function.update s.caches s.nextCache (.new true) c = s.caches c := by
    intro c hc
    exact Function.update_of_ne hc _ _
  constructor
  · exact h.known.of_newCache
  · intro w hw
    exact Or.inl (hsynced w hw)
  · exact h.owed
  · intro j r' c hr' hop hgot w hw
    exact Or.inl (hsynced w (h.owed j r' hr' w hw))
  · intro c l j rest hinbox
    dsimp only at hinbox ⊢
    by_cases hnew : c = s.nextCache
    · rw [hnew, Function.update_self] at hinbox
      exact absurd hinbox.symm (by simp [Cache.new])
    · rw [hother hnew] at hinbox ⊢
      exact h.queued c l j rest hinbox
  · intro c j hfinishing
    dsimp only at hfinishing
    by_cases hnew : c = s.nextCache
    · rw [hnew, Function.update_self] at hfinishing
      cases hfinishing
    · rw [hother hnew] at hfinishing
      exact h.finishing c j hfinishing
  · exact h.durable

/-- The answer of the file manager: a COMMIT gets the cache that answers for what it is owed. -/
lemma Kept.of_given (h : s.Kept) (hr : s.calls i = some r) (hc : s.cached = some c)
    (inbox : List ManagerMessage) :
    Kept { s.setProgress i r (r.progress.given c) with inbox := inbox } := by
  rcases given_cases r.progress c with ⟨-, hgiven⟩ | hsame
  · rw [hgiven]
    refine h.of_progress hr ?_ ?_ (by rintro - hd; cases hd) s.content s.reference inbox
    · rintro d (hd | hd)
      · cases hd
      · cases hd
        exact h.known.registered c hc
    · rintro d - hd w hw
      cases hd
      rcases h.acked w (h.owed i r hr w hw) with hsynced | ⟨d, hd, hholds⟩
      · exact Or.inl hsynced
      · rw [hc] at hd
        cases hd
        exact Or.inr hholds
  · rw [hsame]
    exact h.of_progress hr (fun d => h.known.handles i r d hr) (fun d => h.got i r d hr)
      (h.durable i r hr) s.content s.reference inbox

/-- The file manager handles a message. -/
lemma Kept.of_manage (h : s.Kept) {opens : Bool} (hcareful : s.Careful (.manage opens))
    (hstep : s.manage opens = some s') : s'.Kept := by
  obtain ⟨rfl, hdrop⟩ := hcareful
  obtain ⟨rest, hinbox, rfl⟩ | ⟨i, rest, r, -, hr, ⟨c, hc, rfl⟩ | ⟨hnone, rfl⟩⟩ := manage_cases hstep
  · exact h.of_drop (hdrop rest hinbox) rest
  · exact h.of_given hr hc rest
  · exact (h.of_newCache hnone).of_given hr rfl rest

/-! ### Write caches -/

/-- A write cache writes what comes first. -/
lemma Kept.of_write (h : s.Kept) (hstep : s.write c .done = some s') : s'.Kept := by
  obtain ⟨i, offset, data, rest, hinbox, hs'⟩ := write_cases hstep
  have hc := h.known.lt_of_inbox hinbox
  obtain rfl := hs' (h.known.opened c hc)
  have hcaches : ∀ d, d ≠ c → Function.update s.caches c ⟨true, true, rest, (s.caches c).finishing⟩ d
      = s.caches d := fun d hd => Function.update_of_ne hd _ _
  have hrest : ∀ {l : List CacheMessage} {w : ℕ}, Queued (.write i offset data :: l) w →
      Queued l w ∨ w = i := by
    rintro l w ⟨o, d, hmem⟩
    rcases List.mem_cons.1 hmem with heq | hmem
    · cases heq
      exact Or.inr rfl
    · exact Or.inl ⟨o, d, hmem⟩
  have hholds : ∀ d w, s.Holds d w → Holds { s with
      content := splice 0 s.content offset.toNat data
      caches := Function.update s.caches c ⟨true, true, rest, (s.caches c).finishing⟩
      written := i :: s.written } d w := by
    intro d w hholds
    unfold Holds at hholds ⊢
    dsimp only
    by_cases hdc : d = c
    · subst hdc
      rw [Function.update_self]
      rcases hholds with hqueued | ⟨hwritten, -⟩
      · rw [hinbox] at hqueued
        rcases hrest hqueued with hlater | rfl
        · exact Or.inl hlater
        · exact Or.inr ⟨List.mem_cons_self, rfl⟩
      · exact Or.inr ⟨List.mem_cons_of_mem _ hwritten, rfl⟩
    · rw [hcaches d hdc]
      exact hholds.imp id fun hwritten => ⟨List.mem_cons_of_mem _ hwritten.1, hwritten.2⟩
  have hknown := h.known.of_cache hc (k := ⟨true, true, rest, (s.caches c).finishing⟩) rfl
  constructor
  · exact ⟨hknown.opened, hknown.registered, hknown.handles, hknown.idle, hknown.fresh⟩
  · intro w hw
    refine (h.acked w hw).imp id ?_
    rintro ⟨d, hd, hd'⟩
    exact ⟨d, hd, hholds d w hd'⟩
  · exact h.owed
  · intro j r' d hr' hop hgot w hw
    exact (h.got j r' d hr' hop hgot w hw).imp id (hholds d w)
  · intro d l j rest' hd
    dsimp only at hd ⊢
    by_cases hdc : d = c
    · subst hdc
      rw [Function.update_self] at hd ⊢
      have hfull : (s.caches d).inbox = (.write i offset data :: l) ++ .commit j :: rest' :=
        hinbox.trans (congrArg (List.cons _) hd)
      obtain ⟨r', hr', hop, hsafe⟩ := h.queued d _ j rest' hfull
      refine ⟨r', hr', hop, fun w hw => ?_⟩
      rcases hsafe w hw with hsynced | hqueued | ⟨hwritten, -⟩
      · exact Or.inl hsynced
      · rcases hrest hqueued with hlater | rfl
        · exact Or.inr (Or.inl hlater)
        · exact Or.inr (Or.inr ⟨List.mem_cons_self, rfl⟩)
      · exact Or.inr (Or.inr ⟨List.mem_cons_of_mem _ hwritten, rfl⟩)
    · rw [hcaches d hdc] at hd ⊢
      obtain ⟨r', hr', hop, hsafe⟩ := h.queued d l j rest' hd
      refine ⟨r', hr', hop, fun w hw => ?_⟩
      exact (hsafe w hw).imp id fun hsafe =>
        hsafe.imp id fun hwritten => ⟨List.mem_cons_of_mem _ hwritten.1, hwritten.2⟩
  · intro d j hfinishing
    dsimp only at hfinishing
    by_cases hdc : d = c
    · rw [hdc, Function.update_self] at hfinishing
      exact h.finishing c j hfinishing
    · rw [hcaches d hdc] at hfinishing
      exact h.finishing d j hfinishing
  · exact h.durable

/-- A write cache comes to a COMMIT: what it is owed was written, and is synchronised. -/
lemma Kept.of_sync (h : s.Kept) (hstep : s.sync c true = some s') : s'.Kept := by
  obtain ⟨i, rest, hinbox, hfinishing, rfl⟩ := sync_cases hstep
  have hc := h.known.lt_of_inbox hinbox
  rw [h.known.opened c hc, Bool.and_true, Bool.and_true]
  obtain ⟨r, hr, hop, hsafe⟩ := h.queued c [] i rest hinbox
  have hcaches : ∀ d, d ≠ c → Function.update s.caches c ⟨true, false, rest, some i⟩ d = s.caches d :=
    fun d hd => Function.update_of_ne hd _ _
  have hsynced : ∀ w, w ∈ s.synced ∨ w ∈ s.written ∧ (s.caches c).dirty = true →
      w ∈ if (s.caches c).dirty then s.written ++ s.synced else s.synced := by
    rintro w (hw | ⟨hw, hdirty⟩)
    · split_ifs
      · exact List.mem_append_right _ hw
      · exact hw
    · rw [if_pos hdirty]
      exact List.mem_append_left _ hw
  have hrest : ∀ {l : List CacheMessage} {j w : ℕ}, Queued (.commit j :: l) w → Queued l w := by
    rintro l j w ⟨o, d, hmem⟩
    rcases List.mem_cons.1 hmem with heq | hmem
    · cases heq
    · exact ⟨o, d, hmem⟩
  have hholds : ∀ d w, w ∈ s.synced ∨ s.Holds d w →
      (w ∈ if (s.caches c).dirty then s.written ++ s.synced else s.synced) ∨ Holds { s with
        caches := Function.update s.caches c ⟨true, false, rest, some i⟩
        synced := if (s.caches c).dirty then s.written ++ s.synced else s.synced } d w := by
    intro d w hw
    by_cases hdc : d = c
    · subst hdc
      rcases hw with hw | hqueued | hwritten
      · exact Or.inl (hsynced w (Or.inl hw))
      · right
        left
        dsimp only
        rw [Function.update_self]
        rw [hinbox] at hqueued
        exact hrest hqueued
      · exact Or.inl (hsynced w (Or.inr hwritten))
    · refine hw.imp (fun hw => hsynced w (Or.inl hw)) fun hw => ?_
      unfold Holds at hw ⊢
      dsimp only
      rw [hcaches d hdc]
      exact hw
  have hknown := h.known.of_cache hc (k := ⟨true, false, rest, some i⟩) rfl
  constructor
  · exact ⟨hknown.opened, hknown.registered, hknown.handles, hknown.idle, hknown.fresh⟩
  · intro w hw
    rcases h.acked w hw with hw | ⟨d, hd, hd'⟩
    · exact Or.inl (hsynced w (Or.inl hw))
    · exact (hholds d w (Or.inr hd')).imp id fun hd' => ⟨d, hd, hd'⟩
  · exact h.owed
  · intro j r' d hr' hop hgot w hw
    exact hholds d w (h.got j r' d hr' hop hgot w hw)
  · intro d l j rest' hd
    dsimp only at hd ⊢
    by_cases hdc : d = c
    · subst hdc
      rw [Function.update_self] at hd ⊢
      have hfull : (s.caches d).inbox = (.commit i :: l) ++ .commit j :: rest' :=
        hinbox.trans (congrArg (List.cons _) hd)
      obtain ⟨r', hr', hop, hsafe⟩ := h.queued d _ j rest' hfull
      refine ⟨r', hr', hop, fun w hw => ?_⟩
      rcases hsafe w hw with hw | hqueued | hwritten
      · exact Or.inl (hsynced w (Or.inl hw))
      · exact Or.inr (Or.inl (hrest hqueued))
      · exact Or.inl (hsynced w (Or.inr hwritten))
    · rw [hcaches d hdc] at hd ⊢
      obtain ⟨r', hr', hop, hsafe⟩ := h.queued d l j rest' hd
      refine ⟨r', hr', hop, fun w hw => ?_⟩
      exact (hsafe w hw).imp (fun hw => hsynced w (Or.inl hw)) id
  · intro d j hd
    dsimp only at hd ⊢
    by_cases hdc : d = c
    · rw [hdc, Function.update_self] at hd
      cases hd
      refine ⟨r, hr, hop, fun w hw => ?_⟩
      rcases hsafe w hw with hw | ⟨_, _, hmem⟩ | hwritten
      · exact hsynced w (Or.inl hw)
      · cases hmem
      · exact hsynced w (Or.inr hwritten)
    · rw [hcaches d hdc] at hd
      obtain ⟨r', hr', hop, hsafe⟩ := h.finishing d j hd
      exact ⟨r', hr', hop, fun w hw => hsynced w (Or.inl (hsafe w hw))⟩
  · intro j r' hr' hop hprogress w hw
    exact hsynced w (Or.inl (h.durable j r' hr' hop hprogress w hw))

/-- A write cache answers a COMMIT. -/
lemma Kept.of_finish (h : s.Kept) (hstep : s.finish c = some s') : s'.Kept := by
  obtain ⟨i, r, hfinishing, hr, rfl⟩ := finish_cases hstep
  obtain ⟨r', hr', -, hsafe⟩ := h.finishing c i hfinishing
  rw [hr] at hr'
  cases hr'
  have hholds : ∀ d w, s.Holds d w → Holds { s with
      caches := Function.update s.caches c { s.caches c with finishing := none } } d w := by
    intro d w hd
    unfold Holds
    dsimp only
    rw [caches_finish]
    exact hd
  have hidle : Kept { s with
      caches := Function.update s.caches c { s.caches c with finishing := none } } := by
    constructor
    · exact h.known.of_finish c
    · intro w hw
      refine (h.acked w hw).imp id ?_
      rintro ⟨d, hd, hd'⟩
      exact ⟨d, hd, hholds d w hd'⟩
    · exact h.owed
    · intro j r' d hr' hop hgot w hw
      exact (h.got j r' d hr' hop hgot w hw).imp id (hholds d w)
    · intro d l j rest hd
      dsimp only at hd ⊢
      rw [caches_finish] at hd ⊢
      exact h.queued d l j rest hd
    · intro d j hd
      dsimp only at hd
      rw [caches_finish] at hd
      dsimp only at hd
      split_ifs at hd
      exact h.finishing d j hd
    · exact h.durable
  rcases committed_cases r.progress with ⟨-, hcommitted⟩ | hsame
  · rw [hcommitted]
    exact hidle.of_progress hr (by rintro d (hd | hd) <;> cases hd) (by rintro d - hd; cases hd)
      (fun _ _ => hsafe) s.content s.reference _
  · rw [hsame]
    exact hidle.of_progress hr (fun d => hidle.known.handles i r d hr)
      (fun d => hidle.got i r d hr) (fun _ _ => hsafe) s.content s.reference _

/-- A careful step keeps the invariant. -/
lemma Kept.of_step (h : s.Kept) {a : Action} (hcareful : s.Careful a) (hstep : s.step a = some s') :
    s'.Kept := by
  -- An operation that is not a COMMIT, or does not get a cache or an answer, just gets on.
  have hno : ∀ {len : ℕ} {d : CacheId}, ¬ (Progress.looked len).Has d := by
    rintro len d (hd | hd) <;> cases hd
  have hanswered : ∀ {reply : Reply} {d : CacheId}, ¬ (Progress.answered reply).Has d := by
    rintro reply d (hd | hd) <;> cases hd
  cases a with
  | issue op held =>
    simp only [step] at hstep
    split_ifs at hstep with hheld
    cases hstep
    exact h.of_issue op hheld
  | refuse i =>
    obtain ⟨r, hr, -, rfl⟩ := refuse_cases hstep
    exact h.of_progress hr (fun d hd => absurd hd hanswered) (by rintro d - hd; cases hd)
      (by rintro - hd; cases hd) s.content s.reference s.inbox
  | ask i =>
    obtain ⟨r, held, hr, -, rfl⟩ := ask_cases hstep
    exact h.of_progress hr (by rintro d (hd | hd) <;> cases hd) (by rintro d - hd; cases hd)
      (by rintro - hd; cases hd) s.content s.reference _
  | manage opens => exact h.of_manage hcareful hstep
  | send i => exact h.of_send hcareful hstep
  | write c outcome =>
    simp only [step] at hstep
    split_ifs at hstep
    cases hcareful
    exact h.of_write hstep
  | sync c ok =>
    cases hcareful
    exact h.of_sync hstep
  | finish c => exact h.of_finish hstep
  | look i ok =>
    obtain ⟨r, len, held, hr, -, rfl, -⟩ := look_cases hstep
    exact h.of_progress hr (fun d hd => absurd hd hno) (by rintro d - hd; cases hd)
      (by rintro - hd; cases hd) s.content s.reference s.inbox
  | put i ok =>
    obtain ⟨r, offset, data, len, hr, hop, -, rfl⟩ := put_cases hstep
    refine h.of_progress hr (fun d hd => absurd hd hanswered) (by rintro d - hd; cases hd) ?_ _ _
      s.inbox
    intro hcommit
    rw [hop] at hcommit
    cases hcommit
  | fetch i =>
    obtain ⟨r, offset, count, size, hr, hop, -, rfl⟩ := fetch_cases hstep
    exact h.of_progress hr (fun d hd => absurd hd hanswered) (by rintro d - hd; cases hd)
      (by rintro - hd; cases hd) s.content s.reference s.inbox

end State

open State

/-- **COMMIT.** In every run whose steps are careful, whenever a COMMIT was answered, the UNSTABLE
WRITEs that were acknowledged before it was issued were written at their offsets and synchronised.
-/
theorem holds_durable (content : Bytes) (actions : List Action)
    (hcareful : Run.Meets step Careful (start content) actions) :
    Run.Holds step Durable (start content) actions := by
  have hkept : Run.Holds step Kept (start content) actions :=
    Run.holds_of_meets (fun s a s' h hcareful hstep => h.of_step hcareful hstep) (kept_start content)
      hcareful
  exact hkept.mono fun s h => h.durable

section Examples

/-- An UNSTABLE WRITE to an empty file and a COMMIT; the write of the cache ends as given. -/
def writeThenCommit (outcome : Outcome) : List Action :=
  [.issue (.writeUnstable 0 [1]) none, .ask 0, .manage true, .send 0, .issue .commit none,
    .write 0 outcome, .ask 1, .manage true, .send 1, .sync 0 true, .finish 0]

/-- The WRITE is on the disk when the COMMIT is answered. -/
theorem holds_durable_writeThenCommit :
    Run.Meets step Careful (start []) (writeThenCommit .done) ∧
      Run.Holds step Durable (start []) (writeThenCommit .done) := by
  have hcareful : Run.Meets step Careful (start []) (writeThenCommit .done) := by
    refine Run.meets_cons rfl trivial (Run.meets_cons rfl trivial (Run.meets_cons rfl ?_
      (Run.meets_cons rfl ?_ (Run.meets_cons rfl trivial (Run.meets_cons rfl rfl
      (Run.meets_cons rfl trivial (Run.meets_cons rfl ?_ (Run.meets_cons rfl ?_
      (Run.meets_cons rfl rfl (Run.meets_cons rfl trivial trivial))))))))))
    · exact ⟨rfl, fun rest hinbox => by cases hinbox⟩
    · intro r offset data c hr hop hhas
      cases hr
      rcases hhas with hcalled | hgot
      · cases hcalled
      · cases hgot
        rfl
    · exact ⟨rfl, fun rest hinbox => by cases hinbox⟩
    · intro r offset data c hr hop hhas
      cases hr
      cases hop
  exact ⟨hcareful, holds_durable [] _ hcareful⟩

/-- The write fails, which only the log tells, and the COMMIT is answered. -/
theorem not_durable_writeThenCommit :
    ∃ s, (writeThenCommit (.partly 0)).foldlM step (start []) = some s ∧ ¬ s.Durable := by
  refine ⟨_, rfl, fun hdurable => ?_⟩
  have hsynced := hdurable 1 _ rfl rfl rfl 0 List.mem_cons_self
  cases hsynced

end Examples

end NextNfs.DataPath
