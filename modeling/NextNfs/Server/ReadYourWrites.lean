import NextNfs.Server.DataPath

set_option relaxedAutoImplicit false
set_option autoImplicit false

/-!
# Reading what was written

A client that issues its operations one after the other should read what it has written. UNSTABLE
WRITEs are acknowledged when they wait in a write cache, but READ and stable WRITEs go to the file
at once. This module shows that the client reads what it has written as long as nothing waits then,
and no two write caches have something to write at the same time.

## Main definitions

* `NextNfs.DataPath.State.Faithful` — every READ was answered with what was written before.
* `NextNfs.DataPath.State.Sequential`, `NextNfs.DataPath.Action.Works` — a client that waits for
  each answer, and an operating system without errors.
* `NextNfs.DataPath.State.Drained` — the condition on the steps.
* `NextNfs.DataPath.State.Refines` — the invariant.

## Main results

* `NextNfs.DataPath.holds_faithful` — a client reads what it has written in every run with drained
  steps.
-/

namespace NextNfs.DataPath

open Wire ByteFile

/-- The writes among the messages of a write cache. -/
def pending (l : List CacheMessage) : List (Store UInt8) :=
  l.filterMap fun
    | .write _ offset data => some ⟨offset.toNat, data⟩
    | .commit _ => none

/-- READs and stable WRITEs go to the file at once. -/
def Operation.Direct : Operation → Prop
  | .read .. | .writeStable .. => True
  | _ => False

/-- The operation was answered. -/
def Request.Answered (r : Request) : Prop := ∃ reply, r.progress = .answered reply

/-- Every call of the operating system succeeds, and transfers all that it should. -/
def Action.Works : Action → Prop
  | .manage opens => opens = true
  | .write _ outcome => outcome = .done
  | .look _ ok | .put _ ok => ok = true
  | _ => True

namespace State

/-- Every READ was answered with the bytes of the contents by the WRITEs that were acknowledged
before, and with the end of the file if its range reaches that. -/
def Faithful (s : State) : Prop :=
  ∀ i r offset count bytes eof, s.calls i = some r → r.op = .read offset count →
    r.progress = .answered (.data bytes eof) →
    bytes = (r.expected.drop offset.toNat).take count.toNat ∧
      (eof = true ↔ r.expected.length ≤ offset.toNat + count.toNat)

/-- The client issues an operation when all others were answered. -/
def Sequential (s : State) : Action → Prop
  | .issue .. => ∀ i r, s.calls i = some r → r.Answered
  | _ => True

/-- When a READ or a stable WRITE is issued, no write cache has something to write; when an UNSTABLE
WRITE goes to a write cache, no other has. -/
def Drained (s : State) : Action → Prop
  | .issue op _ => op.Direct → ∀ c, pending (s.caches c).inbox = []
  | .send i => ∀ r offset data c, s.calls i = some r → r.op = .writeUnstable offset data →
      r.progress.Has c → ∀ d, d ≠ c → pending (s.caches d).inbox = []
  | _ => True

/-! ### The invariant -/

/-- The invariant: one write cache has what is missing in the file, only the last operation is not
answered, and if that goes to the file at once, nothing is missing. -/
structure Refines (s : State) : Prop where
  known : s.Known
  single : ∃ c, (∀ d, d ≠ c → pending (s.caches d).inbox = []) ∧
    s.reference = replay 0 s.content (pending (s.caches c).inbox)
  earlier : ∀ i r, s.calls i = some r → i + 1 < s.nextCall → r.Answered
  direct : ∀ i r, s.calls i = some r → r.op.Direct → ¬ r.Answered →
    (∀ c, pending (s.caches c).inbox = []) ∧ r.expected = s.reference ∧
      ∀ len, r.progress = .looked len → len = s.content.length
  faithful : s.Faithful

variable {s s' : State} {i j : ℕ} {r r' : Request} {c : CacheId}

lemma refines_start (content : Bytes) : (start content).Refines := by
  constructor
  · exact known_start content
  · exact ⟨0, fun d _ => rfl, rfl⟩
  · intro i r hr
    cases hr
  · intro i r hr
    cases hr
  · intro i r offset count bytes eof hr
    cases hr

/-- Operations that were not answered are the same. -/
lemma Refines.eq_of_not_answered (h : s.Refines) (hr : s.calls i = some r) (hnot : ¬ r.Answered)
    (hr' : s.calls j = some r') (hnot' : ¬ r'.Answered) : i = j := by
  have hlt : ∀ {k : ℕ} {q : Request}, s.calls k = some q → ¬ q.Answered → k + 1 = s.nextCall := by
    intro k q hq hnot
    have hge : ¬ s.nextCall ≤ k := by
      intro hge
      rw [h.known.fresh k hge] at hq
      cases hq
    have hlast : ¬ k + 1 < s.nextCall := fun hlt => hnot (h.earlier k q hq hlt)
    omega
  have hi := hlt hr hnot
  have hj := hlt hr' hnot'
  omega

/-- If nothing waits, nothing is missing. -/
lemma Refines.reference_eq (h : s.Refines) (hempty : ∀ c, pending (s.caches c).inbox = []) :
    s.reference = s.content := by
  obtain ⟨c, -, href⟩ := h.single
  rw [href, hempty c]
  rfl

/-- The last operation gets on. -/
lemma Refines.of_progress (h : s.Refines) (hr : s.calls i = some r) (hnot : ¬ r.Answered)
    {p : Progress} (hhas : ∀ c, p.Has c → c < s.nextCache)
    (hlooked : ∀ len, p = .looked len → len = s.content.length)
    (hdata : ∀ offset count bytes eof, r.op = .read offset count → p = .answered (.data bytes eof) →
      bytes = (r.expected.drop offset.toNat).take count.toNat ∧
        (eof = true ↔ r.expected.length ≤ offset.toNat + count.toNat)) :
    (s.setProgress i r p).Refines := by
  constructor
  · exact h.known.of_progress hr hhas
  · exact h.single
  · intro j r' hr' hj
    rcases calls_setProgress hr' with ⟨rfl, rfl⟩ | ⟨-, hr'⟩
    · exact absurd (h.earlier j r hr hj) hnot
    · exact h.earlier j r' hr' hj
  · intro j r' hr' hdirect hnot'
    rcases calls_setProgress hr' with ⟨rfl, rfl⟩ | ⟨-, hr'⟩
    · obtain ⟨hempty, hexpected, -⟩ := h.direct j r hr hdirect hnot
      exact ⟨hempty, hexpected, hlooked⟩
    · exact h.direct j r' hr' hdirect hnot'
  · intro j r' offset count bytes eof hr' hop hprogress
    rcases calls_setProgress hr' with ⟨rfl, rfl⟩ | ⟨-, hr'⟩
    · exact hdata offset count bytes eof hop hprogress
    · exact h.faithful j r' offset count bytes eof hr' hop hprogress

/-- What the file manager has to do does not matter. -/
lemma Refines.of_inbox (h : s.Refines) (inbox : List ManagerMessage) :
    Refines { s with inbox := inbox } :=
  ⟨⟨h.known.opened, h.known.registered, h.known.handles, h.known.idle, h.known.fresh⟩, h.single,
    h.earlier, h.direct, h.faithful⟩

/-- Write caches change, but not what they have to write. -/
lemma Refines.of_caches (h : s.Refines) {caches : CacheId → Cache} {nextCache : CacheId}
    {cached : Option CacheId} {synced : List ℕ}
    (hknown : Known { s with caches := caches, nextCache := nextCache, cached := cached })
    (hsame : ∀ d, pending (caches d).inbox = pending (s.caches d).inbox) :
    Refines { s with
      caches := caches, nextCache := nextCache, cached := cached, synced := synced } := by
  obtain ⟨c, hother, href⟩ := h.single
  constructor
  · exact ⟨hknown.opened, hknown.registered, hknown.handles, hknown.idle, hknown.fresh⟩
  · refine ⟨c, fun d hd => (hsame d).trans (hother d hd), ?_⟩
    dsimp only
    rw [hsame c]
    exact href
  · exact h.earlier
  · intro j r' hr' hdirect hnot
    obtain ⟨hempty, hrest⟩ := h.direct j r' hr' hdirect hnot
    exact ⟨fun d => (hsame d).trans (hempty d), hrest⟩
  · exact h.faithful

/-- The client issues an operation. -/
lemma Refines.of_issue (h : s.Refines) {op : Operation} {held : Option CacheId}
    (hheld : ∀ c ∈ held, c < s.nextCache) (hidle : ∀ i r, s.calls i = some r → r.Answered)
    (hempty : op.Direct → ∀ c, pending (s.caches c).inbox = []) :
    Refines { s with
      calls := Function.update s.calls s.nextCall (some ⟨op, .called held, s.acked, s.reference⟩)
      nextCall := s.nextCall + 1 } := by
  constructor
  · exact h.known.of_issue op hheld
  · exact h.single
  · intro j r' hr' hj
    have hne : j ≠ s.nextCall := by
      rintro rfl
      exact absurd hj (lt_irrefl _)
    have hold : s.calls j = some r' := (Function.update_of_ne hne _ _).symm.trans hr'
    exact hidle j r' hold
  · intro j r' hr' hdirect hnot
    rcases calls_issue hr' with rfl | hold
    · refine ⟨hempty hdirect, rfl, fun len hlen => ?_⟩
      cases hlen
    · exact absurd (hidle j r' hold) hnot
  · intro j r' offset count bytes eof hr' hop hprogress
    rcases calls_issue hr' with rfl | hold
    · cases hprogress
    · exact h.faithful j r' offset count bytes eof hold hop hprogress

/-- The last operation is answered, and has changed the file or a write cache. -/
lemma Refines.of_effect (h : s.Refines) (hr : s.calls i = some r) (hnot : ¬ r.Answered)
    {content reference : Bytes} {caches : CacheId → Cache} {acked : List ℕ}
    (hwrite : ∀ offset count, r.op ≠ .read offset count)
    (hknown : Known { s with caches := caches })
    (hsingle : ∃ c, (∀ d, d ≠ c → pending (caches d).inbox = []) ∧
      reference = replay 0 content (pending (caches c).inbox)) :
    Refines { s.setProgress i r (.answered .ok) with
      content := content, caches := caches, acked := acked, reference := reference } := by
  have hanswered := hknown.of_progress (p := .answered .ok) hr (by rintro c (hc | hc) <;> cases hc)
  constructor
  · exact ⟨hanswered.opened, hanswered.registered, hanswered.handles, hanswered.idle,
      hanswered.fresh⟩
  · exact hsingle
  · intro j r' hr' hj
    rcases calls_setProgress hr' with ⟨rfl, rfl⟩ | ⟨-, hr'⟩
    · exact ⟨_, rfl⟩
    · exact h.earlier j r' hr' hj
  · intro j r' hr' hdirect hnot'
    rcases calls_setProgress hr' with ⟨rfl, rfl⟩ | ⟨hne, hr'⟩
    · exact absurd ⟨_, rfl⟩ hnot'
    · exact absurd (h.eq_of_not_answered hr' hnot' hr hnot) hne
  · intro j r' offset count bytes eof hr' hop hprogress
    rcases calls_setProgress hr' with ⟨rfl, rfl⟩ | ⟨-, hr'⟩
    · exact absurd hop (hwrite offset count)
    · exact h.faithful j r' offset count bytes eof hr' hop hprogress

lemma pending_append (l l' : List CacheMessage) : pending (l ++ l') = pending l ++ pending l' :=
  List.filterMap_append

/-- An operation that has a write cache was not answered. -/
lemma not_answered_of_has (h : r.progress.Has c) : ¬ r.Answered := by
  rintro ⟨reply, hreply⟩
  rcases h with h | h <;> rw [hreply] at h <;> cases h

/-- A handler sends its message. -/
lemma Refines.of_send (h : s.Refines) (hdrained : s.Drained (.send i)) (hstep : s.send i = some s') :
    s'.Refines := by
  obtain ⟨r, hr, ⟨offset, data, c, hop, hhas, rfl⟩ | ⟨c, hop, hgot, rfl⟩⟩ := send_cases hstep
  · have hc := h.known.handles i r c hr hhas
    have hother := hdrained r offset data c hr hop hhas
    have href : s.reference = replay 0 s.content (pending (s.caches c).inbox) := by
      obtain ⟨c', hother', href'⟩ := h.single
      by_cases hcc : c = c'
      · rw [hcc]
        exact href'
      · rw [hother' c hcc, href', hother c' (Ne.symm hcc)]
    refine h.of_effect hr (not_answered_of_has hhas) ?_ (h.known.of_cache hc (h.known.opened c hc)) ?_
    · intro o n hread
      rw [hop] at hread
      cases hread
    · refine ⟨c, fun d hd => ?_, ?_⟩
      · show pending ((s.post c (.write i offset data)).caches d).inbox = []
        rw [caches_post, if_neg hd, pending_append, hother d hd]
        rfl
      · show _ = replay 0 s.content (pending ((s.post c (.write i offset data)).caches c).inbox)
        rw [caches_post, if_pos rfl, pending_append, href]
        exact (replay_append_singleton _ _ ⟨offset.toNat, data⟩).symm
  · have hc := h.known.handles i r c hr (Or.inr hgot)
    have hposted : (s.post c (.commit i)).Refines := by
      refine h.of_caches (h.known.of_cache hc (h.known.opened c hc)) fun d => ?_
      by_cases hdc : d = c
      · rw [hdc, Function.update_self, pending_append]
        exact List.append_nil _
      · rw [Function.update_of_ne hdc]
    refine hposted.of_progress hr (not_answered_of_has (Or.inr hgot)) ?_ ?_ ?_
    · rintro d (hd | hd) <;> cases hd
    · intro len hlen
      cases hlen
    · intro o n bytes eof hread
      rw [hop] at hread
      cases hread

/-- A write cache writes what comes first. -/
lemma Refines.of_write (h : s.Refines) (hstep : s.write c .done = some s') : s'.Refines := by
  obtain ⟨i, offset, data, rest, hinbox, hs'⟩ := write_cases hstep
  have hc := h.known.lt_of_inbox hinbox
  obtain rfl := hs' (h.known.opened c hc)
  have hpending : pending (s.caches c).inbox = ⟨offset.toNat, data⟩ :: pending rest := by
    rw [hinbox]
    rfl
  have hknown := h.known.of_cache hc (k := ⟨true, true, rest, (s.caches c).finishing⟩) rfl
  obtain ⟨c', hother, href⟩ := h.single
  have hcc : c = c' := by
    by_contra hne
    rw [hother c hne] at hpending
    cases hpending
  subst hcc
  constructor
  · exact ⟨hknown.opened, hknown.registered, hknown.handles, hknown.idle, hknown.fresh⟩
  · refine ⟨c, fun d hd => ?_, ?_⟩
    · dsimp only
      rw [Function.update_of_ne hd]
      exact hother d hd
    · dsimp only
      rw [Function.update_self, href, hpending]
      rfl
  · exact h.earlier
  · intro j r' hr' hdirect hnot
    obtain ⟨hempty, -⟩ := h.direct j r' hr' hdirect hnot
    rw [hempty c] at hpending
    cases hpending
  · exact h.faithful

/-- A stable WRITE writes. -/
lemma Refines.of_put (h : s.Refines) (hstep : s.put i true = some s') : s'.Refines := by
  obtain ⟨r, offset, data, len, hr, hop, hprogress, rfl⟩ := put_cases hstep
  have hnot : ¬ r.Answered := by
    rintro ⟨reply, hreply⟩
    rw [hprogress] at hreply
    cases hreply
  have hdirect : r.op.Direct := by
    rw [hop]
    trivial
  obtain ⟨hempty, -, hlen⟩ := h.direct i r hr hdirect hnot
  have hposition : (if offset.toNat = len then s.content.length else offset.toNat) = offset.toNat := by
    split_ifs with hend
    · rw [← hlen len hprogress]
      exact hend.symm
    · rfl
  rw [hposition, h.reference_eq hempty]
  refine h.of_effect hr hnot ?_ h.known ⟨0, fun d _ => hempty d, ?_⟩
  · intro o n hread
    rw [hop] at hread
    cases hread
  · show _ = replay 0 _ (pending (s.caches 0).inbox)
    rw [hempty 0]
    rfl

/-- A READ reads. -/
lemma Refines.of_fetch (h : s.Refines) (hstep : s.fetch i = some s') : s'.Refines := by
  obtain ⟨r, offset, count, size, hr, hop, hprogress, rfl⟩ := fetch_cases hstep
  have hnot : ¬ r.Answered := by
    rintro ⟨reply, hreply⟩
    rw [hprogress] at hreply
    cases hreply
  have hdirect : r.op.Direct := by
    rw [hop]
    trivial
  obtain ⟨hempty, hexpected, hlen⟩ := h.direct i r hr hdirect hnot
  have hsize := hlen size hprogress
  have hcontent : r.expected = s.content := hexpected.trans (h.reference_eq hempty)
  refine h.of_progress hr hnot ?_ ?_ ?_
  · rintro d (hd | hd) <;> cases hd
  · intro len hd
    cases hd
  · intro o n bytes eof hread hd
    rw [hop] at hread
    cases hread
    cases hd
    have hbytes : (s.content.drop offset.toNat).take (min count.toNat (size - offset.toNat)) =
        (s.content.drop offset.toNat).take count.toNat := by
      rw [hsize, ← List.length_drop, ← List.take_take, List.take_length]
    rw [hbytes, hcontent, hsize]
    refine ⟨rfl, ?_⟩
    rw [decide_eq_true_iff, List.length_take, List.length_drop]
    omega

/-- A write cache comes to a COMMIT. -/
lemma Refines.of_sync (h : s.Refines) {ok : Bool} (hstep : s.sync c ok = some s') : s'.Refines := by
  obtain ⟨i, rest, hinbox, hfinishing, rfl⟩ := sync_cases hstep
  have hc := h.known.lt_of_inbox hinbox
  refine h.of_caches (h.known.of_cache hc (h.known.opened c hc)) fun d => ?_
  by_cases hdc : d = c
  · rw [hdc, Function.update_self, hinbox]
    rfl
  · rw [Function.update_of_ne hdc]

/-- A write cache answers a COMMIT. -/
lemma Refines.of_finish (h : s.Refines) (hstep : s.finish c = some s') : s'.Refines := by
  obtain ⟨i, r, hfinishing, hr, rfl⟩ := finish_cases hstep
  have hidle : Refines { s with
      caches := Function.update s.caches c { s.caches c with finishing := none } } := by
    refine h.of_caches (h.known.of_finish c) fun d => ?_
    rw [caches_finish]
  rcases committed_cases r.progress with ⟨hsent, hcommitted⟩ | hsame
  · rw [hcommitted]
    refine Refines.of_inbox (hidle.of_progress hr ?_ ?_ ?_ ?_) _
    · rintro ⟨reply, hreply⟩
      rw [hsent] at hreply
      cases hreply
    · rintro d (hd | hd) <;> cases hd
    · intro len hd
      cases hd
    · intro o n bytes eof _ hd
      cases hd
  · rw [hsame, setProgress_self hr]
    exact hidle.of_inbox _

/-- The answer of the file manager. -/
lemma Refines.of_given (h : s.Refines) (hr : s.calls i = some r) (hc : s.cached = some c) :
    (s.setProgress i r (r.progress.given c)).Refines := by
  rcases given_cases r.progress c with ⟨hasked, hgiven⟩ | hsame
  · rw [hgiven]
    refine h.of_progress hr ?_ ?_ ?_ ?_
    · rintro ⟨reply, hreply⟩
      rw [hasked] at hreply
      cases hreply
    · rintro d (hd | hd)
      · cases hd
      · cases hd
        exact h.known.registered c hc
    · intro len hd
      cases hd
    · intro o n bytes eof _ hd
      cases hd
  · rw [hsame, setProgress_self hr]
    exact h

/-- The file manager handles a message. -/
lemma Refines.of_manage (h : s.Refines) (hstep : s.manage true = some s') : s'.Refines := by
  obtain ⟨rest, -, rfl⟩ | ⟨i, rest, r, -, hr, ⟨c, hc, rfl⟩ | ⟨hnone, rfl⟩⟩ := manage_cases hstep
  · have hdropped : Refines { s with cached := none } := by
      refine h.of_caches ?_ fun d => rfl
      refine ⟨h.known.opened, fun c hc => ?_, h.known.handles, h.known.idle, h.known.fresh⟩
      cases hc
    exact hdropped.of_inbox rest
  · exact (h.of_inbox rest).of_given hr hc
  · have hnew : Refines { s with
        caches := Function.update s.caches s.nextCache (.new true)
        nextCache := s.nextCache + 1
        cached := some s.nextCache } := by
      refine h.of_caches h.known.of_newCache fun d => ?_
      by_cases hnew : d = s.nextCache
      · rw [hnew, Function.update_self, h.known.idle _ le_rfl]
        rfl
      · rw [Function.update_of_ne hnew]
    exact (hnew.of_inbox rest).of_given hr rfl

/-- A step of a client that waits for its answers keeps the invariant, if it is drained. -/
lemma Refines.of_step (h : s.Refines) {a : Action} (hsequential : s.Sequential a) (hworks : a.Works)
    (hdrained : s.Drained a) (hstep : s.step a = some s') : s'.Refines := by
  cases a with
  | issue op held =>
    simp only [step] at hstep
    split_ifs at hstep with hheld
    cases hstep
    exact h.of_issue hheld hsequential hdrained
  | refuse i =>
    obtain ⟨r, hr, hprogress, rfl⟩ := refuse_cases hstep
    refine h.of_progress hr ?_ ?_ ?_ ?_
    · rintro ⟨reply, hreply⟩
      exact hprogress reply hreply
    · rintro d (hd | hd) <;> cases hd
    · intro len hd
      cases hd
    · intro o n bytes eof _ hd
      cases hd
  | ask i =>
    obtain ⟨r, held, hr, hprogress, rfl⟩ := ask_cases hstep
    refine Refines.of_inbox (h.of_progress hr ?_ ?_ ?_ ?_) _
    · rintro ⟨reply, hreply⟩
      rw [hprogress] at hreply
      cases hreply
    · rintro d (hd | hd) <;> cases hd
    · intro len hd
      cases hd
    · intro o n bytes eof _ hd
      cases hd
  | manage opens =>
    cases hworks
    exact h.of_manage hstep
  | send i => exact h.of_send hdrained hstep
  | write c outcome =>
    simp only [step] at hstep
    split_ifs at hstep
    cases hworks
    exact h.of_write hstep
  | sync c ok => exact h.of_sync hstep
  | finish c => exact h.of_finish hstep
  | look i ok =>
    cases hworks
    obtain ⟨r, len, held, hr, hprogress, rfl, hlen⟩ := look_cases hstep
    refine h.of_progress hr ?_ ?_ ?_ ?_
    · rintro ⟨reply, hreply⟩
      rw [hprogress] at hreply
      cases hreply
    · rintro d (hd | hd) <;> cases hd
    · intro len' hd
      cases hd
      exact hlen rfl
    · intro o n bytes eof _ hd
      cases hd
  | put i ok =>
    cases hworks
    exact h.of_put hstep
  | fetch i => exact h.of_fetch hstep

end State

open State

/-- **Reading what was written.** A client that waits for each answer reads what it has written, if
the operating system works and the steps are drained. -/
theorem holds_faithful (content : Bytes) (actions : List Action)
    (h : Run.Meets step (fun s a => s.Sequential a ∧ a.Works ∧ s.Drained a) (start content) actions) :
    Run.Holds step Faithful (start content) actions := by
  have hrefines : Run.Holds step Refines (start content) actions :=
    Run.holds_of_meets (fun s a s' hs hC hstep => hs.of_step hC.1 hC.2.1 hC.2.2 hstep)
      (refines_start content) h
  exact hrefines.mono fun s hs => hs.faithful

section Examples

/-- An UNSTABLE WRITE and, after the answer, a READ; the write cache writes in between. -/
def writeThenRead : List Action :=
  [.issue (.writeUnstable 0 [1]) none, .ask 0, .manage true, .send 0, .write 0 .done,
    .issue (.read 0 1) none, .look 1 true, .fetch 1]

/-- The same, but the write cache is late. -/
def writeThenReadEarly : List Action :=
  [.issue (.writeUnstable 0 [1]) none, .ask 0, .manage true, .send 0, .issue (.read 0 1) none,
    .look 1 true, .fetch 1]

/-- The only operation was answered. -/
lemma answered_of_first {calls : ℕ → Option Request} (hfirst : ∀ r, calls 0 = some r → r.Answered)
    (hother : ∀ i, i ≠ 0 → calls i = none) (i : ℕ) (r : Request) (hr : calls i = some r) :
    r.Answered := by
  by_cases hi : i = 0
  · rw [hi] at hr
    exact hfirst r hr
  · rw [hother i hi] at hr
    cases hr

/-- The client reads what it has written. -/
theorem holds_faithful_writeThenRead :
    Run.Meets step (fun s a => s.Sequential a ∧ a.Works ∧ s.Drained a) (start []) writeThenRead ∧
      Run.Holds step Faithful (start []) writeThenRead := by
  have hmeets : Run.Meets step (fun s a => s.Sequential a ∧ a.Works ∧ s.Drained a) (start [])
      writeThenRead := by
    refine Run.meets_cons rfl ⟨?_, trivial, ?_⟩ (Run.meets_cons rfl ⟨trivial, trivial, trivial⟩
      (Run.meets_cons rfl ⟨trivial, rfl, trivial⟩ (Run.meets_cons rfl ⟨trivial, trivial, ?_⟩
      (Run.meets_cons rfl ⟨trivial, rfl, trivial⟩ (Run.meets_cons rfl ⟨?_, trivial, ?_⟩
      (Run.meets_cons rfl ⟨trivial, rfl, trivial⟩
      (Run.meets_cons rfl ⟨trivial, trivial, trivial⟩ trivial)))))))
    · intro i r hr
      cases hr
    · intro hdirect
      cases hdirect
    · intro r offset data c hr hop hhas d hd
      cases hr
      rcases hhas with hcalled | hgot
      · cases hcalled
      · cases hgot
        have hd' : d ≠ 0 := hd
        show pending (Function.update (start []).caches 0 (.new true) d).inbox = []
        rw [Function.update_of_ne hd']
        rfl
    · refine answered_of_first (fun r hr => ?_) fun i hi => ?_
      · cases hr
        exact ⟨_, rfl⟩
      · exact (Function.update_of_ne hi _ _).trans ((Function.update_of_ne hi _ _).trans
          ((Function.update_of_ne hi _ _).trans (Function.update_of_ne hi _ _)))
    · intro _ c
      by_cases hc : c = 0
      · rw [hc]
        rfl
      · show pending (Function.update (Function.update (Function.update (start []).caches 0
          (.new true)) 0 ⟨true, false, [.write 0 0 [1]], none⟩) 0 ⟨true, true, [], none⟩ c).inbox = []
        rw [Function.update_of_ne hc, Function.update_of_ne hc, Function.update_of_ne hc]
        rfl
  exact ⟨hmeets, holds_faithful [] _ hmeets⟩

/-- The client does not read what it has written. -/
theorem not_faithful_writeThenReadEarly :
    Run.Meets step (fun s a => s.Sequential a ∧ a.Works) (start []) writeThenReadEarly ∧
      ∃ s, writeThenReadEarly.foldlM step (start []) = some s ∧ ¬ s.Faithful := by
  constructor
  · refine Run.meets_cons rfl ⟨?_, trivial⟩ (Run.meets_cons rfl ⟨trivial, trivial⟩
      (Run.meets_cons rfl ⟨trivial, rfl⟩ (Run.meets_cons rfl ⟨trivial, trivial⟩
      (Run.meets_cons rfl ⟨?_, trivial⟩ (Run.meets_cons rfl ⟨trivial, rfl⟩
      (Run.meets_cons rfl ⟨trivial, trivial⟩ trivial))))))
    · intro i r hr
      cases hr
    · refine answered_of_first (fun r hr => ?_) fun i hi => ?_
      · cases hr
        exact ⟨_, rfl⟩
      · exact (Function.update_of_ne hi _ _).trans ((Function.update_of_ne hi _ _).trans
          ((Function.update_of_ne hi _ _).trans (Function.update_of_ne hi _ _)))
  · refine ⟨_, rfl, fun hfaithful => ?_⟩
    have hread := (hfaithful 1 _ 0 1 [] true rfl rfl rfl).1
    cases hread

end Examples

end NextNfs.DataPath
