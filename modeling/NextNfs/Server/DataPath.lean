import NextNfs.Lib.ByteFile
import NextNfs.Lib.Run
import NextNfs.Server.FileManagerActor

set_option relaxedAutoImplicit false
set_option autoImplicit false

/-!
# The way of the data

This module models what the server does with the data of one file: the handlers of READ, WRITE and
COMMIT, the file manager as far as it keeps the write cache of the file, and the actors of
`filemanager/caching.rs`, the write caches. They run side by side and send messages to one another.

## Main definitions

* `NextNfs.DataPath.Cache` — a write cache.
* `NextNfs.DataPath.Request` — an operation that a client has issued.
* `NextNfs.DataPath.State`, `NextNfs.DataPath.State.step` — the whole, and its steps.

## Main results

* `NextNfs.DataPath.State.send_cases` and its siblings — what the steps do.
* `NextNfs.DataPath.State.getCacheHandle_refines` — the file manager of this module answers as
  `FileManagerActor` does.

## Implementation notes

A handler may hold the handle of any cache that was made before: the filehandle it works with may be
an old one. The state keeps account of what the clients were told: the UNSTABLE WRITEs that were
acknowledged, those that were written and those that were synchronised after that, and the contents
that the file has by the WRITEs that were acknowledged. Messages to touch the file are left out.
-/

namespace NextNfs.DataPath

open Wire ByteFile

/-! ### The parties -/

/-- `WriteCacheMessage`, with the number of the operation it is for. -/
inductive CacheMessage
  | write (call : ℕ) (offset : UInt64) (data : Bytes)
  | commit (call : ℕ)

/-- `WriteCache`: whether the file could be opened, whether there is something to synchronise, the
messages that wait, and the COMMIT that is about to be answered. -/
structure Cache where
  opened : Bool
  dirty : Bool
  inbox : List CacheMessage
  finishing : Option ℕ

/-- A write cache that was just made. -/
def Cache.new (opened : Bool) : Cache := ⟨opened, false, [], none⟩

/-- The messages of the file manager that are about the write cache. -/
inductive ManagerMessage
  | getWriteCacheHandle (call : ℕ)
  | dropWriteCacheHandle

/-- What a client can ask for. -/
inductive Operation
  | writeUnstable (offset : UInt64) (data : Bytes)
  | writeStable (offset : UInt64) (data : Bytes)
  | commit
  | read (offset : UInt64) (count : UInt32)

/-- What it is told. -/
inductive Reply
  | ok
  | data (bytes : Bytes) (eof : Bool)
  | error

/-- How far an operation is: it has the write cache of its filehandle, or none; it waits for the
file manager; it has got a cache; its COMMIT waits; it knows the length of the file; it was
answered. -/
inductive Progress
  | called (held : Option CacheId)
  | asked
  | got (cache : CacheId)
  | sent
  | looked (len : ℕ)
  | answered (reply : Reply)

/-- The operation has the handle of a cache. -/
def Progress.Has (p : Progress) (c : CacheId) : Prop := p = .called (some c) ∨ p = .got c

/-- An operation, with the UNSTABLE WRITEs that were acknowledged and the contents that the clients
could expect when it was issued. -/
structure Request where
  op : Operation
  progress : Progress
  owed : List ℕ
  expected : Bytes

/-- The answer of the file manager, which reaches a handler that waits for it. -/
def Progress.given (p : Progress) (c : CacheId) : Progress :=
  match p with
  | .asked => .got c
  | _ => p

/-- The answer of a write cache to a COMMIT, likewise. -/
def Progress.committed (p : Progress) : Progress :=
  match p with
  | .sent => .answered .ok
  | _ => p

/-- The file, the write caches, the file manager and the handlers. -/
structure State where
  content : Bytes
  caches : CacheId → Cache
  nextCache : CacheId
  cached : Option CacheId
  inbox : List ManagerMessage
  calls : ℕ → Option Request
  nextCall : ℕ
  /-- The UNSTABLE WRITEs that were acknowledged. -/
  acked : List ℕ
  /-- Those that were written at their offset. -/
  written : List ℕ
  /-- Those that were synchronised after that. -/
  synced : List ℕ
  /-- The contents by the WRITEs that were acknowledged. -/
  reference : Bytes

/-- How the write of a write cache ends: the file of the fallback cannot be opened, or the write
fails after some bytes. -/
inductive Outcome
  | done
  | partly (n : ℕ)
  | unopened

/-- The steps. The operations and caches are given by their numbers. -/
inductive Action
  | issue (op : Operation) (held : Option CacheId)
  | refuse (i : ℕ)
  | ask (i : ℕ)
  | manage (opens : Bool)
  | send (i : ℕ)
  | write (c : CacheId) (outcome : Outcome)
  | sync (c : CacheId) (ok : Bool)
  | finish (c : CacheId)
  | look (i : ℕ) (ok : Bool)
  | put (i : ℕ) (ok : Bool)
  | fetch (i : ℕ)

namespace State

/-- A server with a file. -/
def start (content : Bytes) : State where
  content := content
  caches _ := .new false
  nextCache := 0
  cached := none
  inbox := []
  calls _ := none
  nextCall := 0
  acked := []
  written := []
  synced := []
  reference := content

/-- An operation gets on. -/
def setProgress (s : State) (i : ℕ) (r : Request) (progress : Progress) : State :=
  { s with calls := Function.update s.calls i (some { r with progress := progress }) }

/-- A message to a write cache. -/
def post (s : State) (c : CacheId) (msg : CacheMessage) : State :=
  let cache := s.caches c
  { s with caches := Function.update s.caches c { cache with inbox := cache.inbox ++ [msg] } }

/-! ### Handlers -/

/-- The handler asks the file manager for the write cache: a WRITE whose filehandle has none, and
every COMMIT. -/
def ask (s : State) (i : ℕ) : Option State := do
  let r ← s.calls i
  match r.op, r.progress with
  | .writeUnstable .., .called none | .commit, .called _ =>
    some { s.setProgress i r .asked with inbox := s.inbox ++ [.getWriteCacheHandle i] }
  | _, _ => none

/-- The handler sends its message to the write cache. A WRITE is acknowledged, a COMMIT waits. -/
def send (s : State) (i : ℕ) : Option State := do
  let r ← s.calls i
  match r.op, r.progress with
  | .writeUnstable offset data, .called (some c) | .writeUnstable offset data, .got c =>
    let s' := (s.post c (.write i offset data)).setProgress i r (.answered .ok)
    some { s' with
      acked := i :: s.acked
      reference := splice 0 s.reference offset.toNat data }
  | .commit, .got c => some ((s.post c (.commit i)).setProgress i r .sent)
  | _, _ => none

/-- A stable WRITE or a READ looks up the length of the file. That of a WRITE counts as zero if the
look-up fails. -/
def look (s : State) (i : ℕ) (ok : Bool) : Option State := do
  let r ← s.calls i
  match r.op, r.progress with
  | .writeStable .., .called _ =>
    some (s.setProgress i r (.looked (if ok then s.content.length else 0)))
  | .read .., .called _ => some (s.setProgress i r (.looked s.content.length))
  | _, _ => none

/-- A stable WRITE writes its data and synchronises the file, which may fail. -/
def put (s : State) (i : ℕ) (ok : Bool) : Option State := do
  let r ← s.calls i
  match r.op, r.progress with
  | .writeStable offset data, .looked len =>
    let position := if offset.toNat = len then s.content.length else offset.toNat
    let s' := { s with content := splice 0 s.content position data }
    if ok then
      some { s'.setProgress i r (.answered .ok) with
        reference := splice 0 s.reference offset.toNat data }
    else some (s'.setProgress i r (.answered .error))
  | _, _ => none

/-- A READ reads. -/
def fetch (s : State) (i : ℕ) : Option State := do
  let r ← s.calls i
  match r.op, r.progress with
  | .read offset count, .looked size =>
    let bytes := (s.content.drop offset.toNat).take (min count.toNat (size - offset.toNat))
    let eof := decide (offset.toNat + bytes.length ≥ size)
    some (s.setProgress i r (.answered (.data bytes eof)))
  | _, _ => none

/-- An operation fails before it has done anything. -/
def refuse (s : State) (i : ℕ) : Option State := do
  let r ← s.calls i
  match r.progress with
  | .called _ | .looked _ => some (s.setProgress i r (.answered .error))
  | _ => none

/-! ### The file manager -/

/-- `get_cache_handle`: the write cache of the file. One that is made now opens the file, if it
can. -/
def getCacheHandle (s : State) (opens : Bool) : State × CacheId :=
  match s.cached with
  | some c => (s, c)
  | none =>
    ({ s with
      caches := Function.update s.caches s.nextCache (.new opens)
      nextCache := s.nextCache + 1
      cached := some s.nextCache }, s.nextCache)

/-- The file manager handles a message. -/
def manage (s : State) (opens : Bool) : Option State :=
  match s.inbox with
  | [] => none
  | .dropWriteCacheHandle :: rest => some { s with inbox := rest, cached := none }
  | .getWriteCacheHandle i :: rest => do
    let r ← s.calls i
    let (s', c) := { s with inbox := rest }.getCacheHandle opens
    pure (s'.setProgress i r (r.progress.given c))

/-! ### Write caches -/

/-- A write cache handles a message `Write`. Without a file it appends, whatever the offset. -/
def write (s : State) (c : CacheId) (outcome : Outcome) : Option State :=
  let cache := s.caches c
  match cache.inbox with
  | .write i offset data :: rest =>
    let after := fun (content : Bytes) (dirty : Bool) => { s with
      content := content
      caches := Function.update s.caches c { cache with dirty := dirty, inbox := rest } }
    match cache.opened, outcome with
    | true, .done =>
      let s' := after (splice 0 s.content offset.toNat data) true
      some { s' with written := i :: s.written }
    | true, .partly n => some (after (splice 0 s.content offset.toNat (data.take n)) cache.dirty)
    | true, .unopened => none
    | false, .done => some (after (s.content ++ data) true)
    | false, .partly n => some (after (s.content ++ data.take n) true)
    | false, .unopened => some (after s.content cache.dirty)
  | _ => none

/-- A write cache handles a message `Commit`: it synchronises the file if there is something to
synchronise. That this fails is only logged. -/
def sync (s : State) (c : CacheId) (ok : Bool) : Option State :=
  let cache := s.caches c
  match cache.inbox, cache.finishing with
  | .commit i :: rest, none =>
    some { s with
      caches := Function.update s.caches c ⟨cache.opened, false, rest, some i⟩
      synced := if cache.dirty && cache.opened && ok then s.written ++ s.synced else s.synced }
  | _, _ => none

/-- It has itself dropped by the file manager, and the COMMIT is answered. -/
def finish (s : State) (c : CacheId) : Option State := do
  let i ← (s.caches c).finishing
  let r ← s.calls i
  let cache := s.caches c
  let s' := { s with
    caches := Function.update s.caches c { cache with finishing := none }
    inbox := s.inbox ++ [ManagerMessage.dropWriteCacheHandle] }
  pure (s'.setProgress i r r.progress.committed)

/-- A step. -/
def step (s : State) : Action → Option State
  | .issue op held =>
    if ∀ c ∈ held, c < s.nextCache then
      some { s with
        calls := Function.update s.calls s.nextCall (some ⟨op, .called held, s.acked, s.reference⟩)
        nextCall := s.nextCall + 1 }
    else none
  | .refuse i => s.refuse i
  | .ask i => s.ask i
  | .manage opens => s.manage opens
  | .send i => s.send i
  | .write c outcome => if (s.caches c).finishing = none then s.write c outcome else none
  | .sync c ok => s.sync c ok
  | .finish c => s.finish c
  | .look i ok => s.look i ok
  | .put i ok => s.put i ok
  | .fetch i => s.fetch i

/-! ### What the steps do -/

section Cases

variable {s s' : State} {i : ℕ} {c : CacheId}

lemma ask_cases (h : s.ask i = some s') :
    ∃ r held, s.calls i = some r ∧ r.progress = .called held ∧
      s' = { s.setProgress i r .asked with inbox := s.inbox ++ [.getWriteCacheHandle i] } := by
  obtain ⟨r, hr, hrest⟩ := Option.bind_eq_some_iff.1 h
  split at hrest
  · rename_i hprogress
    exact ⟨r, _, hr, hprogress, (Option.some.inj hrest).symm⟩
  · rename_i hprogress
    exact ⟨r, _, hr, hprogress, (Option.some.inj hrest).symm⟩
  · cases hrest

lemma send_cases (h : s.send i = some s') :
    ∃ r, s.calls i = some r ∧
      ((∃ offset data c, r.op = .writeUnstable offset data ∧ r.progress.Has c ∧
        s' = { (s.post c (.write i offset data)).setProgress i r (.answered .ok) with
          acked := i :: s.acked
          reference := splice 0 s.reference offset.toNat data }) ∨
      ∃ c, r.op = .commit ∧ r.progress = .got c ∧
        s' = (s.post c (.commit i)).setProgress i r .sent) := by
  obtain ⟨r, hr, hrest⟩ := Option.bind_eq_some_iff.1 h
  refine ⟨r, hr, ?_⟩
  split at hrest
  · rename_i offset data c hop hprogress
    exact Or.inl ⟨offset, data, c, hop, Or.inl hprogress, (Option.some.inj hrest).symm⟩
  · rename_i offset data c hop hprogress
    exact Or.inl ⟨offset, data, c, hop, Or.inr hprogress, (Option.some.inj hrest).symm⟩
  · rename_i c hop hprogress
    exact Or.inr ⟨c, hop, hprogress, (Option.some.inj hrest).symm⟩
  · cases hrest

lemma look_cases {ok : Bool} (h : s.look i ok = some s') :
    ∃ r len held, s.calls i = some r ∧ r.progress = .called held ∧
      s' = s.setProgress i r (.looked len) ∧ (ok = true → len = s.content.length) := by
  obtain ⟨r, hr, hrest⟩ := Option.bind_eq_some_iff.1 h
  split at hrest
  · rename_i offset data held hop hprogress
    exact ⟨r, _, held, hr, hprogress, (Option.some.inj hrest).symm, fun hok => if_pos hok⟩
  · rename_i offset count held hop hprogress
    exact ⟨r, _, held, hr, hprogress, (Option.some.inj hrest).symm, fun _ => rfl⟩
  · cases hrest

lemma put_cases {ok : Bool} (h : s.put i ok = some s') :
    ∃ r offset data len, s.calls i = some r ∧ r.op = .writeStable offset data ∧
      r.progress = .looked len ∧
      s' = { s.setProgress i r (.answered (if ok then .ok else .error)) with
        content := splice 0 s.content (if offset.toNat = len then s.content.length
          else offset.toNat) data
        reference := if ok then splice 0 s.reference offset.toNat data else s.reference } := by
  obtain ⟨r, hr, hrest⟩ := Option.bind_eq_some_iff.1 h
  split at hrest
  · rename_i offset data len hop hprogress
    refine ⟨r, offset, data, len, hr, hop, hprogress, ?_⟩
    cases ok with
    | true => exact (Option.some.inj hrest).symm
    | false => exact (Option.some.inj hrest).symm
  · cases hrest

lemma fetch_cases (h : s.fetch i = some s') :
    ∃ r offset count size, s.calls i = some r ∧ r.op = .read offset count ∧
      r.progress = .looked size ∧
      s' = s.setProgress i r (.answered (.data
        ((s.content.drop offset.toNat).take (min count.toNat (size - offset.toNat)))
        (decide (offset.toNat + ((s.content.drop offset.toNat).take
          (min count.toNat (size - offset.toNat))).length ≥ size)))) := by
  obtain ⟨r, hr, hrest⟩ := Option.bind_eq_some_iff.1 h
  split at hrest
  · rename_i offset count size hop hprogress
    exact ⟨r, offset, count, size, hr, hop, hprogress, (Option.some.inj hrest).symm⟩
  · cases hrest

lemma refuse_cases (h : s.refuse i = some s') :
    ∃ r, s.calls i = some r ∧ (∀ reply, r.progress ≠ .answered reply) ∧
      s' = s.setProgress i r (.answered .error) := by
  obtain ⟨r, hr, hrest⟩ := Option.bind_eq_some_iff.1 h
  split at hrest
  · rename_i held hprogress
    refine ⟨r, hr, fun reply hreply => ?_, (Option.some.inj hrest).symm⟩
    rw [hprogress] at hreply
    cases hreply
  · rename_i len hprogress
    refine ⟨r, hr, fun reply hreply => ?_, (Option.some.inj hrest).symm⟩
    rw [hprogress] at hreply
    cases hreply
  · cases hrest

lemma manage_cases {opens : Bool} (h : s.manage opens = some s') :
    (∃ rest, s.inbox = .dropWriteCacheHandle :: rest ∧
      s' = { s with inbox := rest, cached := none }) ∨
    ∃ i rest r, s.inbox = .getWriteCacheHandle i :: rest ∧ s.calls i = some r ∧
      ((∃ c, s.cached = some c ∧
          s' = { s with inbox := rest }.setProgress i r (r.progress.given c)) ∨
        s.cached = none ∧ s' = { s.setProgress i r (r.progress.given s.nextCache) with
          inbox := rest
          caches := Function.update s.caches s.nextCache (.new opens)
          nextCache := s.nextCache + 1
          cached := some s.nextCache }) := by
  unfold manage at h
  split at h
  · cases h
  · rename_i rest hinbox
    exact Or.inl ⟨rest, hinbox, (Option.some.inj h).symm⟩
  · rename_i i rest hinbox
    obtain ⟨r, hr, hrest⟩ := Option.bind_eq_some_iff.1 h
    refine Or.inr ⟨i, rest, r, hinbox, hr, ?_⟩
    unfold getCacheHandle at hrest
    cases hcached : s.cached with
    | some c =>
      simp only [hcached] at hrest
      exact Or.inl ⟨c, rfl, (Option.some.inj hrest).symm⟩
    | none =>
      simp only [hcached] at hrest
      exact Or.inr ⟨rfl, (Option.some.inj hrest).symm⟩

/-- A write that succeeds. -/
lemma write_cases (h : s.write c .done = some s') :
    ∃ i offset data rest, (s.caches c).inbox = .write i offset data :: rest ∧
      ((s.caches c).opened = true → s' = { s with
        content := splice 0 s.content offset.toNat data
        caches := Function.update s.caches c ⟨true, true, rest, (s.caches c).finishing⟩
        written := i :: s.written }) := by
  unfold write at h
  dsimp only at h
  split at h
  · rename_i i offset data rest hinbox
    refine ⟨i, offset, data, rest, hinbox, fun hopened => ?_⟩
    rw [hopened] at h
    exact (Option.some.inj h).symm
  · cases h

lemma sync_cases {ok : Bool} (h : s.sync c ok = some s') :
    ∃ i rest, (s.caches c).inbox = .commit i :: rest ∧ (s.caches c).finishing = none ∧
      s' = { s with
        caches := Function.update s.caches c ⟨(s.caches c).opened, false, rest, some i⟩
        synced := if (s.caches c).dirty && (s.caches c).opened && ok then s.written ++ s.synced
          else s.synced } := by
  unfold sync at h
  dsimp only at h
  split at h
  · rename_i i rest hinbox hfinishing
    exact ⟨i, rest, hinbox, hfinishing, (Option.some.inj h).symm⟩
  · cases h

lemma finish_cases (h : s.finish c = some s') :
    ∃ i r, (s.caches c).finishing = some i ∧ s.calls i = some r ∧
      s' = { s.setProgress i r r.progress.committed with
        caches := Function.update s.caches c { s.caches c with finishing := none }
        inbox := s.inbox ++ [.dropWriteCacheHandle] } := by
  obtain ⟨i, hi, hrest⟩ := Option.bind_eq_some_iff.1 h
  obtain ⟨r, hr, heq⟩ := Option.bind_eq_some_iff.1 hrest
  exact ⟨i, r, hi, hr, (Option.some.inj heq).symm⟩

end Cases

/-- What an answer of the file manager does. -/
lemma given_cases (p : Progress) (c : CacheId) :
    p = .asked ∧ p.given c = .got c ∨ p.given c = p := by
  cases p with
  | asked => exact Or.inl ⟨rfl, rfl⟩
  | _ => exact Or.inr rfl

/-- What an answer of a write cache does. -/
lemma committed_cases (p : Progress) :
    p = .sent ∧ p.committed = .answered .ok ∨ p.committed = p := by
  cases p with
  | sent => exact Or.inl ⟨rfl, rfl⟩
  | _ => exact Or.inr rfl

/-! ### Numbers -/

/-- What is known of the numbers of caches and operations, if every cache could open the file. -/
structure Known (s : State) : Prop where
  opened : ∀ c < s.nextCache, (s.caches c).opened = true
  registered : ∀ c, s.cached = some c → c < s.nextCache
  handles : ∀ i r c, s.calls i = some r → r.progress.Has c → c < s.nextCache
  idle : ∀ c, s.nextCache ≤ c → (s.caches c).inbox = []
  fresh : ∀ i, s.nextCall ≤ i → s.calls i = none

section Known

variable {s s' : State} {i : ℕ} {r : Request} {c : CacheId}

lemma known_start (content : Bytes) : (start content).Known := by
  constructor
  · intro c hc
    cases hc
  · intro c hc
    cases hc
  · intro i r c hr
    cases hr
  · intro c _
    rfl
  · intro i _
    rfl

/-- The operations after one of them has got on. -/
lemma calls_setProgress {p : Progress} {j : ℕ} {r' : Request}
    (h : (s.setProgress i r p).calls j = some r') :
    (j = i ∧ r' = { r with progress := p }) ∨ j ≠ i ∧ s.calls j = some r' := by
  unfold setProgress at h
  dsimp only at h
  by_cases hij : j = i
  · subst hij
    rw [Function.update_self] at h
    cases h
    exact Or.inl ⟨rfl, rfl⟩
  · rw [Function.update_of_ne hij] at h
    exact Or.inr ⟨hij, h⟩

/-- An operation that does not get on. -/
lemma setProgress_self (hr : s.calls i = some r) : s.setProgress i r r.progress = s := by
  unfold setProgress
  have hsame : Function.update s.calls i (some r) = s.calls := by
    rw [← hr, Function.update_eq_self]
  exact congrArg (fun calls => { s with calls := calls }) hsame

/-- The operations after one was issued. -/
lemma calls_issue {r' : Request} {j : ℕ}
    (h : Function.update s.calls s.nextCall (some r) j = some r') :
    r' = r ∨ s.calls j = some r' := by
  by_cases hij : j = s.nextCall
  · rw [hij, Function.update_self] at h
    cases h
    exact Or.inl rfl
  · rw [Function.update_of_ne hij] at h
    exact Or.inr h

lemma Known.of_progress (h : s.Known) (hr : s.calls i = some r) {p : Progress}
    (hhas : ∀ c, p.Has c → c < s.nextCache) : (s.setProgress i r p).Known := by
  refine ⟨h.opened, h.registered, ?_, h.idle, ?_⟩
  · intro j r' c hr' hprogress
    rcases calls_setProgress hr' with ⟨rfl, rfl⟩ | ⟨-, hr'⟩
    · exact hhas c hprogress
    · exact h.handles j r' c hr' hprogress
  · intro j hj
    have hne : j ≠ i := by
      rintro rfl
      have := h.fresh j hj
      rw [hr] at this
      cases this
    exact (Function.update_of_ne hne _ _).trans (h.fresh j hj)

lemma Known.of_issue (h : s.Known) (op : Operation) {held : Option CacheId}
    (hheld : ∀ c ∈ held, c < s.nextCache) :
    Known { s with
      calls := Function.update s.calls s.nextCall (some ⟨op, .called held, s.acked, s.reference⟩)
      nextCall := s.nextCall + 1 } := by
  refine ⟨h.opened, h.registered, ?_, h.idle, ?_⟩
  · intro j r' c hr' hprogress
    rcases calls_issue hr' with rfl | hr'
    · rcases hprogress with hcalled | hgot
      · cases hcalled
        exact hheld c rfl
      · cases hgot
    · exact h.handles j r' c hr' hprogress
  · intro j hj
    have hne : j ≠ s.nextCall := by
      rintro rfl
      exact absurd hj (Nat.not_succ_le_self _)
    exact (Function.update_of_ne hne _ _).trans (h.fresh j (Nat.le_of_succ_le hj))

/-- A write cache changes. -/
lemma Known.of_cache (h : s.Known) (hc : c < s.nextCache) {k : Cache} (hopened : k.opened = true) :
    Known { s with caches := Function.update s.caches c k } := by
  refine ⟨fun d hd => ?_, h.registered, h.handles, fun d hd => ?_, h.fresh⟩
  · dsimp only
    by_cases hdc : d = c
    · rw [hdc, Function.update_self]
      exact hopened
    · rw [Function.update_of_ne hdc]
      exact h.opened d hd
  · have hdc : d ≠ c := by
      rintro rfl
      exact absurd hc (Nat.not_lt.2 hd)
    exact (congrArg Cache.inbox (Function.update_of_ne hdc _ _)).trans (h.idle d hd)

/-- A write cache after a message. -/
lemma caches_post (s : State) (c d : CacheId) (msg : CacheMessage) :
    (s.post c msg).caches d =
      ⟨(s.caches d).opened, (s.caches d).dirty,
        (s.caches d).inbox ++ (if d = c then [msg] else []), (s.caches d).finishing⟩ := by
  unfold post
  dsimp only
  by_cases hdc : d = c
  · subst hdc
    rw [Function.update_self, if_pos rfl]
  · rw [Function.update_of_ne hdc, if_neg hdc, List.append_nil]

/-- A write cache that is done with a COMMIT has the same messages. -/
lemma caches_finish (s : State) (c d : CacheId) :
    Function.update s.caches c { s.caches c with finishing := none } d =
      { s.caches d with finishing := if d = c then none else (s.caches d).finishing } := by
  by_cases hdc : d = c
  · rw [hdc, Function.update_self, if_pos rfl]
  · rw [Function.update_of_ne hdc, if_neg hdc]

lemma Known.of_finish (h : s.Known) (c : CacheId) :
    Known { s with caches := Function.update s.caches c { s.caches c with finishing := none } } := by
  refine ⟨fun d hd => ?_, h.registered, h.handles, fun d hd => ?_, h.fresh⟩
  · dsimp only
    rw [caches_finish]
    exact h.opened d hd
  · dsimp only
    rw [caches_finish]
    exact h.idle d hd

/-- The file manager makes a write cache. -/
lemma Known.of_newCache (h : s.Known) :
    Known { s with
      caches := Function.update s.caches s.nextCache (.new true)
      nextCache := s.nextCache + 1
      cached := some s.nextCache } := by
  refine ⟨fun c hc => ?_, fun c hc => ?_, fun j r' c hr' hhas => ?_, fun c hc => ?_, h.fresh⟩
  · dsimp only
    by_cases hnew : c = s.nextCache
    · rw [hnew, Function.update_self]
      rfl
    · rw [Function.update_of_ne hnew]
      exact h.opened c (lt_of_le_of_ne (Nat.lt_succ_iff.1 hc) hnew)
  · cases hc
    exact Nat.lt_succ_self _
  · exact Nat.lt_succ_of_lt (h.handles j r' c hr' hhas)
  · exact (congrArg Cache.inbox (Function.update_of_ne (Nat.ne_of_gt hc) _ _)).trans
      (h.idle c (Nat.le_of_succ_le hc))

/-- A write cache that has messages. -/
lemma Known.lt_of_inbox (h : s.Known) {msg : CacheMessage} {rest : List CacheMessage}
    (hinbox : (s.caches c).inbox = msg :: rest) : c < s.nextCache := by
  by_contra hge
  rw [h.idle c (Nat.le_of_not_lt hge)] at hinbox
  cases hinbox

end Known

/-! ### The file manager of the whole server -/

section Refines

variable {F : Type} [FileSystem F] {s : State} {a : FileManagerActor F} {fh : Filehandle}

/-- The state knows the write cache that the file manager has for a file. -/
def Shows (s : State) (a : FileManagerActor F) (id : NfsFh4) : Prop :=
  s.cached = a.cachedb id ∧ s.nextCache = a.nextCache

omit [FileSystem F] in
/-- `get_cache_handle` answers with the same cache. -/
lemma getCacheHandle_refines (h : s.Shows a fh.id) (opens : Bool) :
    (s.getCacheHandle opens).2 = (a.getCacheHandle fh).2 ∧
      (s.getCacheHandle opens).1.Shows (a.getCacheHandle fh).1 fh.id := by
  obtain ⟨hcached, hnext⟩ := h
  unfold getCacheHandle FileManagerActor.getCacheHandle Shows
  rw [← hcached]
  cases hregistered : s.cached with
  | some c => exact ⟨rfl, hregistered.trans (hregistered.symm.trans hcached), hnext⟩
  | none =>
    dsimp only
    rw [hnext, Function.update_self]
    exact ⟨rfl, rfl, rfl⟩

/-- `drop_cache_handle` forgets it. -/
lemma dropCacheHandle_refines (h : s.Shows a fh.id) (rest : List ManagerMessage) :
    { s with inbox := rest, cached := none }.Shows (a.dropCacheHandle fh.id) fh.id := by
  refine ⟨?_, h.2⟩
  unfold FileManagerActor.dropCacheHandle
  dsimp only
  rw [Function.update_self]

end Refines

end State

end NextNfs.DataPath
