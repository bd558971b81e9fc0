import NextNfs.Lib.ByteFile
import NextNfs.Lib.Run
import NextNfs.Server.FileOps

set_option relaxedAutoImplicit false
set_option autoImplicit false

/-!
# Stable WRITEs of several clients

A WRITE that is not UNSTABLE looks up the length of the file. If the offset is the length, it opens
the file for appending, else it writes at the offset. Other WRITEs may come in between, and the
operating system may transfer the data in several pieces. This module is about where the data goes.

## Main definitions

* `NextNfs.StableWrite.Writes`, `NextNfs.StableWrite.Writes.step` — a file, with the WRITEs to it
  and a record of every transfer.
* `NextNfs.StableWrite.Writes.Exact` — every WRITE that was acknowledged has put its data at its
  offset.
* `NextNfs.StableWrite.Writes.Placed` — what holds instead.

## Main results

* `NextNfs.StableWrite.runs_writeThrough` — what `Dispatcher.writeThrough` asks.
* `NextNfs.StableWrite.holds_placed` — every WRITE that was acknowledged has transferred its data,
  to its offset or, if that was the length of the file, to the end of the file.

## Implementation notes

The file is there all the time. A look-up of its length that fails counts as zero, as in the source.
-/

namespace NextNfs.StableWrite

open Wire Dialogue ByteFile

/-! ### The code -/

/-- A WRITE to a file that is there looks up its length and writes. -/
lemma runs_writeThrough (args : Write4args) (fh : Dispatcher.Handle) (req : Dispatcher.Request)
    {e : UInt8} (hmanager : req.cachedFmanager = some e) (len : Option UInt64) (done : Option Unit) :
    Runs (Dispatcher.writeThrough args fh req)
      [⟨.on (some e) (.osExists fh.file.toStr), true⟩, ⟨.on (some e) (.osLen fh.file.toStr), len⟩,
        if args.offset = len.getD 0 then ⟨.on (some e) (.osAppend fh.file.toStr args.data), done⟩
        else ⟨.on (some e) (.osWriteAt fh.file.toStr args.data args.offset), done⟩]
      (some (done.map fun _ => UInt32.ofNat args.data.length)) := by
  unfold Dispatcher.writeThrough Dispatcher.Request.askManager Dispatcher.Request.fileManager
  rw [hmanager]
  refine Runs.ask (Runs.ask ?_)
  by_cases hend : args.offset = len.getD 0
  · rw [if_pos hend]
    rw [Prog.pure_bind, if_pos hend]
    exact Runs.ask (Runs.pure _)
  · rw [if_neg hend]
    rw [Prog.pure_bind, if_neg hend]
    exact Runs.ask (Runs.pure _)

/-! ### The file and the WRITEs -/

/-- A WRITE. Its data came with a 32-bit length. -/
structure WriteCall where
  offset : UInt64
  data : Bytes
  short : data.length < 2 ^ 32
  /-- The length of the file that it was told. -/
  looked : Option ℕ
  /-- How much of the data was transferred. -/
  sent : ℕ
  /-- The answer: the count, or an error. -/
  reply : Option (Option UInt32)

/-- The offset is the length that it was told: it appends. -/
def WriteCall.Appends (c : WriteCall) : Prop := c.looked = some c.offset.toNat

instance (c : WriteCall) : Decidable c.Appends := inferInstanceAs (Decidable (c.looked = _))

/-- A transfer of data by the `call`-th WRITE, with what it had transferred before and the length of
the file before it. -/
structure Transfer where
  call : ℕ
  sent : ℕ
  eof : ℕ
  store : Store UInt8

/-- The transfers of a WRITE. -/
def storesOf (history : List Transfer) (i : ℕ) : List (Store UInt8) :=
  (history.filter fun t => t.call == i).map Transfer.store

/-- A file and the WRITEs to it, with every transfer. -/
structure Writes where
  content : Bytes
  calls : List WriteCall
  history : List Transfer

/-- What can happen. The WRITEs are given by their numbers. -/
inductive Action
  | call (offset : UInt64) (data : Bytes) (short : data.length < 2 ^ 32)
  | look (i : ℕ) (ok : Bool)
  | transfer (i k : ℕ)
  | sync (i : ℕ)
  | fail (i : ℕ)

namespace Writes

/-- Before the first WRITE. -/
def start (content : Bytes) : Writes := ⟨content, [], []⟩

/-- What a WRITE transferred. -/
def stores (s : Writes) (i : ℕ) : List (Store UInt8) := storesOf s.history i

/-- A step of the `i`-th WRITE that is not a transfer. -/
def update (s : Writes) (i : ℕ) (f : WriteCall → Option WriteCall) : Option Writes := do
  let c ← s.calls[i]?
  let c' ← f c
  pure { s with calls := s.calls.set i c' }

/-- Where the next transfer of a WRITE goes. -/
def position (s : Writes) (c : WriteCall) : ℕ :=
  if c.Appends then s.content.length else c.offset.toNat + c.sent

/-- A step. `write_all` makes transfers until all of the data is transferred, then follows
`sync_all`. What can fail is the opening, a transfer and the synchronisation. -/
def step (s : Writes) : Action → Option Writes
  | .call offset data short =>
    some { s with calls := s.calls ++ [⟨offset, data, short, none, 0, none⟩] }
  | .look i ok => s.update i fun c =>
    if c.looked.isNone then some { c with looked := some (if ok then s.content.length else 0) }
    else none
  | .transfer i k => do
    let c ← s.calls[i]?
    if c.looked.isSome ∧ c.reply.isNone ∧ 0 < k ∧ c.sent + k ≤ c.data.length then
      let store : Store UInt8 := ⟨s.position c, (c.data.drop c.sent).take k⟩
      some ⟨splice 0 s.content store.pos store.bytes, s.calls.set i { c with sent := c.sent + k },
        s.history ++ [⟨i, c.sent, s.content.length, store⟩]⟩
    else none
  | .sync i => s.update i fun c =>
    if c.looked.isSome ∧ c.reply.isNone ∧ c.sent = c.data.length then
      some { c with reply := some (some (UInt32.ofNat c.data.length)) }
    else none
  | .fail i => s.update i fun c =>
    if c.looked.isSome ∧ c.reply.isNone then some { c with reply := some none } else none

/-! ### Where the data goes -/

/-- The WRITE was acknowledged, with the given count. -/
def Acked (s : Writes) (i : ℕ) (c : WriteCall) (n : UInt32) : Prop :=
  s.calls[i]? = some c ∧ c.reply = some (some n)

/-- Every WRITE that was acknowledged has put its data at its offset and, if all were, nothing else
has changed. -/
structure Exact (initial : Bytes) (s : Writes) : Prop where
  placed : ∀ i c n, s.Acked i c n → Tiles c.offset.toNat (s.stores i) (c.data.take n.toNat)
  outside : (∀ c ∈ s.calls, c.reply.isSome) → ∀ p,
    (∀ i c n, s.Acked i c n → ¬ (c.offset.toNat ≤ p ∧ p < c.offset.toNat + n.toNat)) →
    s.content.getD p 0 = initial.getD p 0

/-- The end of the file was where the WRITE had left it, or where it found it, at each transfer. -/
def Unmoved (s : Writes) (i : ℕ) (c : WriteCall) : Prop :=
  ∀ t ∈ s.history, t.call = i → t.eof = c.offset.toNat + t.sent

/-- Every WRITE that was acknowledged has transferred its data: to its offset, unless that was the
length of the file and the end of the file was moved since; in that case to the end of the file.
What no WRITE has transferred anything to has not changed. -/
structure Placed (initial : Bytes) (s : Writes) : Prop where
  replayed : s.content = replay 0 initial (s.history.map Transfer.store)
  carried : ∀ i c n, s.Acked i c n →
    n.toNat = c.data.length ∧ (s.stores i).flatMap Store.bytes = c.data
  placed : ∀ i c n, s.Acked i c n → ¬ c.Appends ∨ s.Unmoved i c →
    Tiles c.offset.toNat (s.stores i) (c.data.take n.toNat)
  appended : ∀ i c n, s.Acked i c n → c.Appends → ∀ t ∈ s.history, t.call = i → t.store.pos = t.eof
  outside : ∀ p, (∀ t ∈ s.history, ¬ t.store.Covers p) → s.content.getD p 0 = initial.getD p 0

/-! ### The invariant -/

/-- What the transfers of a WRITE tell about it. -/
structure Tracks (history : List Transfer) (i : ℕ) (c : WriteCall) : Prop where
  bounded : c.sent ≤ c.data.length
  fresh : c.looked = none → c.sent = 0 ∧ c.reply = none ∧ ∀ t ∈ history, t.call ≠ i
  carried : (storesOf history i).flatMap Store.bytes = c.data.take c.sent
  positions : ∀ t ∈ history, t.call = i →
    t.store.pos = if c.Appends then t.eof else c.offset.toNat + t.sent
  tiles : (∀ t ∈ history, t.call = i → t.store.pos = c.offset.toNat + t.sent) →
    Tiles c.offset.toNat (storesOf history i) (c.data.take c.sent)
  acked : ∀ n, c.reply = some (some n) → c.sent = c.data.length ∧ n = UInt32.ofNat c.data.length

/-- The invariant: the file is what the transfers have made of it, and every transfer is one of a
WRITE. -/
structure Tracked (initial : Bytes) (s : Writes) : Prop where
  replayed : s.content = replay 0 initial (s.history.map Transfer.store)
  known : ∀ t ∈ s.history, t.call < s.calls.length
  calls : ∀ i c, s.calls[i]? = some c → Tracks s.history i c

variable {initial : Bytes} {s s' : Writes} {i j : ℕ} {c c' : WriteCall}

lemma tracked_start (initial : Bytes) : Tracked initial (start initial) := by
  refine ⟨rfl, fun t ht => ?_, fun i c hc => ?_⟩
  · cases ht
  · cases hc

/-- A WRITE has no transfers if it is not in the list. -/
lemma storesOf_eq_nil {history : List Transfer} (h : ∀ t ∈ history, t.call ≠ i) :
    storesOf history i = [] := by
  unfold storesOf
  rw [List.map_eq_nil_iff, List.filter_eq_nil_iff]
  intro t ht
  simpa using h t ht

/-- A WRITE is made. -/
lemma Tracked.of_call (h : Tracked initial s) (offset : UInt64) (data : Bytes)
    (short : data.length < 2 ^ 32) :
    Tracked initial { s with calls := s.calls ++ [⟨offset, data, short, none, 0, none⟩] } := by
  refine ⟨h.replayed, fun t ht => ?_, fun i c hc => ?_⟩
  · have := h.known t ht
    simp only [List.length_append, List.length_singleton]
    omega
  · rcases Nat.lt_or_ge i s.calls.length with hold | hnew
    · rw [List.getElem?_append_left hold] at hc
      exact h.calls i c hc
    · have hnone : ∀ t ∈ s.history, t.call ≠ i := fun t ht heq => by
        have := h.known t ht
        omega
      rw [List.getElem?_append_right hnew, List.getElem?_singleton] at hc
      split_ifs at hc
      cases hc
      have hstores : storesOf s.history i = [] := storesOf_eq_nil hnone
      refine ⟨Nat.zero_le _, fun _ => ⟨rfl, rfl, hnone⟩, ?_, ?_, ?_, ?_⟩
      · rw [hstores]
        rfl
      · intro t ht heq
        exact absurd heq (hnone t ht)
      · intro _
        rw [hstores]
        exact .nil
      · intro n hn
        cases hn

/-- A step of a WRITE that is not a transfer. -/
lemma Tracked.of_update (h : Tracked initial s) {f : WriteCall → Option WriteCall}
    (hf : ∀ c c', Tracks s.history i c → f c = some c' → Tracks s.history i c')
    (hstep : s.update i f = some s') :
    Tracked initial s' := by
  obtain ⟨c, hc, hrest⟩ := Option.bind_eq_some_iff.1 hstep
  obtain ⟨c', hc', heq⟩ := Option.bind_eq_some_iff.1 hrest
  cases heq
  refine ⟨h.replayed, fun t ht => ?_, fun j d hd => ?_⟩
  · rw [List.length_set]
    exact h.known t ht
  · rw [List.getElem?_set] at hd
    split_ifs at hd with hij hlt
    · cases hd
      cases hij
      exact hf c _ (h.calls i c hc) hc'
    · exact h.calls j d hd

/-- WRITE looks up the length. -/
lemma Tracks.of_look (h : Tracks s.history i c) (hnone : c.looked = none) (len : ℕ) :
    Tracks s.history i { c with looked := some len } := by
  obtain ⟨hsent, hreply, hstores⟩ := h.fresh hnone
  refine ⟨h.bounded, fun hlooked => ?_, h.carried, fun t ht heq => ?_, h.tiles, h.acked⟩
  · cases hlooked
  · exact absurd heq (hstores t ht)

/-- WRITE is answered. -/
lemma Tracks.of_reply (h : Tracks s.history i c) (hlooked : c.looked.isSome) {reply : Option UInt32}
    (hreply : ∀ n, reply = some n → c.sent = c.data.length ∧ n = UInt32.ofNat c.data.length) :
    Tracks s.history i { c with reply := some reply } := by
  refine ⟨h.bounded, fun hnone => ?_, h.carried, h.positions, h.tiles, fun n hn => ?_⟩
  · dsimp only at hnone
    rw [hnone] at hlooked
    cases hlooked
  · cases hn
    exact hreply n rfl

/-- WRITE transfers a part of its data. -/
lemma Tracked.of_transfer (h : Tracked initial s) {k : ℕ} (hc : s.calls[i]? = some c)
    (hlooked : c.looked.isSome) (hk : c.sent + k ≤ c.data.length) :
    Tracked initial ⟨splice 0 s.content (s.position c) ((c.data.drop c.sent).take k),
      s.calls.set i { c with sent := c.sent + k },
      s.history ++ [⟨i, c.sent, s.content.length,
        ⟨s.position c, (c.data.drop c.sent).take k⟩⟩]⟩ := by
  have hcall := h.calls i c hc
  have hi : i < s.calls.length := (List.getElem?_eq_some_iff.1 hc).1
  have htake : c.data.take (c.sent + k) = c.data.take c.sent ++ (c.data.drop c.sent).take k :=
    List.take_add
  have hsent : (c.data.take c.sent).length = c.sent := by
    rw [List.length_take]
    exact min_eq_left hcall.bounded
  refine ⟨?_, fun t ht => ?_, fun j d hd => ?_⟩
  · rw [List.map_append, List.map_singleton, replay_append_singleton, ← h.replayed]
  · rw [List.length_set]
    rcases List.mem_append.1 ht with hold | hlast
    · exact h.known t hold
    · rw [List.mem_singleton.1 hlast]
      exact hi
  · rw [List.getElem?_set] at hd
    split_ifs at hd with hij
    · cases hd
      cases hij
      have hstores : storesOf (s.history ++ [⟨i, c.sent, s.content.length,
          ⟨s.position c, (c.data.drop c.sent).take k⟩⟩]) i =
          storesOf s.history i ++ [⟨s.position c, (c.data.drop c.sent).take k⟩] := by
        simp [storesOf]
      refine ⟨hk, fun hnone => ?_, ?_, fun t ht heq => ?_, fun hstraight => ?_, fun n hn => ?_⟩
      · dsimp only at hnone
        rw [hnone] at hlooked
        cases hlooked
      · rw [hstores, List.flatMap_append, hcall.carried, htake]
        simp
      · rcases List.mem_append.1 ht with hold | hlast
        · exact hcall.positions t hold heq
        · rw [List.mem_singleton.1 hlast]
          rfl
      · rw [hstores, htake]
        refine Tiles.snoc (s := ⟨s.position c, (c.data.drop c.sent).take k⟩) (hcall.tiles ?_) ?_
        · intro t ht heq
          exact hstraight t (List.mem_append_left _ ht) heq
        · rw [hsent]
          exact hstraight _ (List.mem_append_right _ (List.mem_singleton_self _)) rfl
      · obtain ⟨hall, hn⟩ := hcall.acked n hn
        exact ⟨by dsimp only; omega, hn⟩
    · have hold := h.calls j d hd
      have hmem : ∀ {t : Transfer}, t ∈ s.history ++ [⟨i, c.sent, s.content.length,
          ⟨s.position c, (c.data.drop c.sent).take k⟩⟩] → t.call = j → t ∈ s.history := by
        intro t ht heq
        rcases List.mem_append.1 ht with hold | hlast
        · exact hold
        · rw [List.mem_singleton.1 hlast] at heq
          exact absurd heq hij
      have hstores : storesOf (s.history ++ [⟨i, c.sent, s.content.length,
          ⟨s.position c, (c.data.drop c.sent).take k⟩⟩]) j = storesOf s.history j := by
        simp [storesOf, hij]
      refine ⟨hold.bounded, fun hnone => ?_, ?_, fun t ht heq => ?_, fun hstraight => ?_, hold.acked⟩
      · obtain ⟨hzero, hreply, hnever⟩ := hold.fresh hnone
        exact ⟨hzero, hreply, fun t ht heq => hnever t (hmem ht heq) heq⟩
      · rw [hstores]
        exact hold.carried
      · exact hold.positions t (hmem ht heq) heq
      · rw [hstores]
        exact hold.tiles fun t ht => hstraight t (List.mem_append_left _ ht)

/-- A step keeps the invariant. -/
lemma Tracked.of_step (h : Tracked initial s) {a : Action} (hstep : s.step a = some s') :
    Tracked initial s' := by
  cases a with
  | call offset data short =>
    cases hstep
    exact h.of_call offset data short
  | look i ok =>
    refine h.of_update ?_ hstep
    intro c c' hc hlook
    split_ifs at hlook with hnone
    · cases hlook
      exact hc.of_look (Option.isNone_iff_eq_none.1 hnone) _
    · cases hlook
      exact hc.of_look (Option.isNone_iff_eq_none.1 hnone) _
  | transfer i k =>
    obtain ⟨c, hc, hrest⟩ := Option.bind_eq_some_iff.1 hstep
    split_ifs at hrest with hready
    cases hrest
    exact h.of_transfer hc hready.1 hready.2.2.2
  | sync i =>
    refine h.of_update ?_ hstep
    intro c c' hc hsync
    split_ifs at hsync with hready
    cases hsync
    refine hc.of_reply hready.1 fun n hn => ?_
    cases hn
    exact ⟨hready.2.2, rfl⟩
  | fail i =>
    refine h.of_update ?_ hstep
    intro c c' hc hfail
    split_ifs at hfail with hready
    cases hfail
    exact hc.of_reply hready.1 fun n hn => by cases hn

/-- What the invariant says of the WRITEs that were acknowledged. -/
lemma Tracked.placed (h : Tracked initial s) : Placed initial s := by
  have hacked : ∀ i c n, s.Acked i c n → Tracks s.history i c ∧ c.sent = c.data.length ∧
      n.toNat = c.data.length := by
    rintro i c n ⟨hc, hreply⟩
    have hcall := h.calls i c hc
    obtain ⟨hsent, rfl⟩ := hcall.acked n hreply
    refine ⟨hcall, hsent, ?_⟩
    rw [UInt32.toNat_ofNat']
    exact Nat.mod_eq_of_lt c.short
  constructor
  · exact h.replayed
  · intro i c n hn
    obtain ⟨hcall, hsent, hcount⟩ := hacked i c n hn
    refine ⟨hcount, ?_⟩
    rw [stores, hcall.carried, hsent, List.take_length]
  · intro i c n hn hstraight
    obtain ⟨hcall, hsent, hcount⟩ := hacked i c n hn
    rw [hcount, ← hsent]
    refine hcall.tiles fun t ht heq => ?_
    rw [hcall.positions t ht heq]
    split_ifs with happends
    · rcases hstraight with hnot | hunmoved
      · exact absurd happends hnot
      · exact hunmoved t ht heq
    · rfl
  · intro i c n hn happends t ht heq
    obtain ⟨hcall, -, -⟩ := hacked i c n hn
    rw [hcall.positions t ht heq, if_pos happends]
  · intro p hp
    rw [h.replayed]
    refine getD_replay_of_outside initial fun store hstore => ?_
    obtain ⟨t, ht, rfl⟩ := List.mem_map.1 hstore
    exact hp t ht

end Writes

open Writes

/-- **Stable WRITEs.** Whatever WRITEs there are and however they take turns, at any time every
WRITE that was acknowledged has transferred its data, to its offset or, if that was the length of
the file and the end of the file was moved, to the end of the file. -/
theorem holds_placed (initial : Bytes) (actions : List Action) :
    Run.Holds step (Placed initial) (start initial) actions := by
  have htracked : Run.Holds step (Tracked initial) (start initial) actions :=
    Run.holds_of_step (fun s a s' h hstep => h.of_step hstep) (tracked_start initial) actions
  exact htracked.mono fun s h => h.placed

/-- Two WRITEs at the end of an empty file both look up its length before one of them writes. -/
def race : List Action :=
  [.call 0 [1] (by decide), .call 0 [2] (by decide), .look 0 true, .look 1 true, .transfer 0 1,
    .transfer 1 1, .sync 0, .sync 1]

/-- The file after them. -/
def raced : Writes :=
  ⟨[1, 2], [⟨0, [1], by decide, some 0, 1, some (some 1)⟩, ⟨0, [2], by decide, some 0, 1, some (some 1)⟩],
    [⟨0, 0, 0, ⟨0, [1]⟩⟩, ⟨1, 0, 1, ⟨1, [2]⟩⟩]⟩

/-- The second is acknowledged, and its data is not at its offset. -/
theorem not_exact_race : race.foldlM step (start []) = some raced ∧ ¬ raced.Exact [] := by
  refine ⟨rfl, fun hexact => ?_⟩
  have htiles : Tiles 0 [⟨1, [2]⟩] ([2] : Bytes) := hexact.placed 1 _ 1 ⟨rfl, rfl⟩
  have hcovers := htiles.of_covers (p := 1) List.mem_cons_self ⟨le_rfl, Nat.lt_succ_self 1⟩
  exact absurd hcovers.2 (by decide)

end NextNfs.StableWrite
