import NextNfs.Server.FileManagerActor

set_option relaxedAutoImplicit false
set_option autoImplicit false

/-!
# Stateids

The file manager takes the stateids of opens and locks and those of delegations from one counter.
The former get a zero prefix and the counter before it is moved, the latter the boot time and the
counter after it was moved. The counter starts at the same value in every server. This module is
about which stateids are the same.

## Main definitions

* `NextNfs.Grant` — a stateid that was issued.
* `NextNfs.FileManagerActor.Serving` — the runs of a file manager, with the stateids it issued.
* `NextNfs.Grant.Clash` — two stateids that are the same.

## Main results

* `NextNfs.FileManagerActor.issues_cases` — what a message issues.
* `NextNfs.FileManagerActor.Serving.serial` — the stateids of a run, by their positions.
* `NextNfs.Stateids.nodup_iff_not_clash` — when the stateids of several runs are distinct.
-/

namespace NextNfs

open Wire

/-! ### Stateids by their position -/

/-- A stateid that was issued, with the boot time of the file manager, the number of stateids that
it had issued before, and whether it is that of a delegation. -/
structure Grant where
  boot : UInt32
  position : ℕ
  delegation : Bool
  other : StateidOther

namespace Stateids

/-- A prefix and a counter. -/
def label (boot : UInt32) (n : UInt64) : StateidOther :=
  ⟨beBytes 4 boot.toNat ++ beBytes 8 n.toNat, by simp [length_beBytes]⟩

/-- The stateid at a position of a run. -/
def stamp (boot : UInt32) (position : ℕ) (delegation : Bool) : StateidOther :=
  if delegation then label boot (UInt64.ofNat (101 + position))
  else label 0 (UInt64.ofNat (100 + position))

lemma lockingstateId_eq (n : UInt64) : LockTable.lockingstateId n = label 0 n := rfl

lemma label_inj {boot boot' : UInt32} {n n' : UInt64} :
    label boot n = label boot' n' ↔ boot = boot' ∧ n = n' := by
  constructor
  · intro h
    have hbytes := congrArg List.Vector.toList h
    obtain ⟨hboot, hn⟩ := List.append_inj hbytes (by simp [length_beBytes])
    have hboot' := congrArg ofBytes hboot
    have hn' := congrArg ofBytes hn
    rw [ofBytes_beBytes boot.toNat_lt, ofBytes_beBytes boot'.toNat_lt] at hboot'
    rw [ofBytes_beBytes n.toNat_lt, ofBytes_beBytes n'.toNat_lt] at hn'
    exact ⟨UInt32.toNat_inj.1 hboot', UInt64.toNat_inj.1 hn'⟩
  · rintro ⟨rfl, rfl⟩
    rfl

/-- Counters are the same when the numbers are, if these are not too far apart. -/
lemma ofNat_inj {m n : ℕ} (hm : m < 2 ^ 64) (hn : n < 2 ^ 64) :
    UInt64.ofNat (100 + m) = UInt64.ofNat (100 + n) ↔ m = n := by
  constructor
  · intro h
    have hmod : (100 + m) % 2 ^ 64 = (100 + n) % 2 ^ 64 := by
      simpa using congrArg UInt64.toNat h
    omega
  · rintro rfl
    rfl

end Stateids

open Stateids

/-- Two stateids that are the same: of two opens or locks at the same position; of two delegations
at the same position and with the same boot time; of an open or lock at the position after that of a
delegation with the boot time zero. -/
def Grant.Clash (g g' : Grant) : Prop :=
  (g.delegation = false ∧ g'.delegation = false ∧ g.position = g'.position) ∨
  (g.delegation = true ∧ g'.delegation = true ∧ g.position = g'.position ∧ g.boot = g'.boot) ∨
  (g.delegation = false ∧ g'.delegation = true ∧ g.position = g'.position + 1 ∧ g'.boot = 0) ∨
  (g.delegation = true ∧ g'.delegation = false ∧ g'.position = g.position + 1 ∧ g.boot = 0)

/-- Stateids are the same when they clash. -/
lemma Stateids.stamp_eq_iff_clash {g g' : Grant} (hg : g.position + 1 < 2 ^ 64)
    (hg' : g'.position + 1 < 2 ^ 64) :
    stamp g.boot g.position g.delegation = stamp g'.boot g'.position g'.delegation ↔ g.Clash g' := by
  have hsucc : ∀ n : ℕ, 101 + n = 100 + (n + 1) := by
    intro n
    omega
  unfold stamp Grant.Clash
  cases hd : g.delegation with
  | false =>
    cases hd' : g'.delegation with
    | false =>
      simp only [Bool.false_eq_true, if_false]
      rw [label_inj, ofNat_inj (by omega) (by omega)]
      simp
    | true =>
      simp only [Bool.false_eq_true, if_false, if_true, hsucc]
      rw [label_inj, ofNat_inj (by omega) hg']
      simp only [true_and, false_and, false_or, or_false, Bool.true_eq_false]
      rw [and_comm, eq_comm (a := (0 : UInt32))]
  | true =>
    cases hd' : g'.delegation with
    | false =>
      simp only [Bool.false_eq_true, if_false, if_true, hsucc]
      rw [label_inj, ofNat_inj hg (by omega)]
      simp only [true_and, false_and, false_or, Bool.true_eq_false]
      rw [and_comm, eq_comm (a := g'.position)]
    | true =>
      simp only [if_true, hsucc]
      rw [label_inj, ofNat_inj hg hg', Nat.add_right_cancel_iff]
      simp [and_comm]

/-! ### What a message issues -/

namespace FileManagerActor

variable {F : Type} [FileSystem F]

/-- The stateids that a message issues, and whether they are those of delegations: that of a
delegation that it makes, and those of the entries that it inserts into the lock table. -/
def issues (a : FileManagerActor F) :
    (msg : FileManagerMessage) → FileManagerActor F × msg.Reply → List (Bool × StateidOther)
  | .grantDelegation id _ _, (_, reply) =>
    if (a.delegations id).isNone then reply.toList.map fun stateid => (true, stateid.other) else []
  | _, (a', _) =>
    (a'.locks.lockdb.entries.filter fun e => decide (e ∉ a.locks.lockdb)).map fun e =>
      (false, e.stateid)

/-- The same, with the positions from `n` on. -/
def grants (a : FileManagerActor F) (n : ℕ) (l : List (Bool × StateidOther)) : List Grant :=
  (l.zipIdx n).map fun x => ⟨a.bootTime.toUInt32, x.2, x.1.1, x.1.2⟩

/-- The runs of a file manager, with the stateids that it issued, in order. -/
inductive Serving : List Grant → FileManagerActor F → Prop
  | new (fs : F) (now : ℕ) (fsid : Option UInt64) : Serving [] (.new fs now fsid)
  | message {l : List Grant} {a : FileManagerActor F} (order : List LockingState → List LockingState)
      {msg : FileManagerMessage} {res : FileManagerActor F × msg.Reply} (ha : Serving l a)
      (h : a.handleMessage order msg = some res) :
      Serving (l ++ a.grants l.length (a.issues msg res)) res.1
  | sweep {l : List Grant} {a : FileManagerActor F} {ids : List NfsFh4} (ha : Serving l a)
      (hids : ids.Perm a.toDelete) : Serving l (a.sweepPendingDeletes ids)
  | outside {l : List Grant} {a : FileManagerActor F} (fs : F) (now : ℕ) (ha : Serving l a) :
      Serving l { a with fs := fs, now := now }

section Issues

variable {order : List LockingState → List LockingState} {a : FileManagerActor F}
  {msg : FileManagerMessage} {res : FileManagerActor F × msg.Reply}

/-- A message issues nothing, or the next stateid of an open or lock, or that of a delegation. -/
structure Issues (a a' : FileManagerActor F) (l : List (Bool × StateidOther)) : Prop where
  cases : (l = [] ∧ a'.locks.nextStateidId = a.locks.nextStateidId) ∨
    ((l = [(false, label 0 a.locks.nextStateidId)] ∨
        l = [(true, label a.bootTime.toUInt32 (a.locks.nextStateidId + 1))]) ∧
      a'.locks.nextStateidId = a.locks.nextStateidId + 1)

omit [FileSystem F] in
lemma grantDelegation_issues (a : FileManagerActor F) (id : NfsFh4) (clientId : UInt64)
    (isWrite : Bool) :
    Issues a (a.grantDelegation id clientId isWrite).1 (if (a.delegations id).isNone then
      (a.grantDelegation id clientId isWrite).2.toList.map fun stateid => (true, stateid.other)
      else []) := by
  unfold grantDelegation
  cases a.delegations id with
  | some existing =>
    simp only [Option.isNone_some, Bool.false_eq_true, if_false]
    split_ifs <;> exact ⟨Or.inl ⟨rfl, rfl⟩⟩
  | none => exact ⟨Or.inr ⟨Or.inr rfl, rfl⟩⟩

/-- The entries that are new after an update of the lock table. -/
lemma Updates.newEntries {t t' : LockTable} (h : t.Updates t') :
    ((t'.lockdb.entries.filter fun e => decide (e ∉ t.lockdb)).map LockingState.stateid = [] ∧
      t'.nextStateidId = t.nextStateidId) ∨
    ((t'.lockdb.entries.filter fun e => decide (e ∉ t.lockdb)).map LockingState.stateid =
        [label 0 t.nextStateidId] ∧
      t'.nextStateidId = t.nextStateidId + 1) := by
  have hold : ∀ l : List LockingState, (∀ e ∈ l, e ∈ t.lockdb) →
      l.filter (fun e => decide (e ∉ t.lockdb)) = [] := by
    intro l hl
    rw [List.filter_eq_nil_iff]
    intro e he
    simpa using hl e he
  cases h with
  | refl =>
    left
    rw [hold _ fun e he => he]
    exact ⟨rfl, rfl⟩
  | erase p =>
    left
    dsimp only
    rw [hold (t.lockdb.erase p).entries fun e he => (Table.mem_erase.1 he).1]
    exact ⟨rfl, rfl⟩
  | @insert _ entry hentry hinsert =>
    right
    obtain ⟨db, hdb, heq⟩ := Option.bind_eq_some_iff.1 hinsert
    cases heq
    have hnew : entry (LockTable.lockingstateId t.nextStateidId) ∉ t.lockdb :=
      Table.not_mem_of_insert (fun e => by simp) hdb
    dsimp only
    rw [Table.entries_of_insert hdb, List.filter_append, hold _ fun e he => he, List.nil_append,
      List.filter_cons_of_pos (by simpa using hnew), List.filter_nil, List.map_singleton, hentry]
    exact ⟨rfl, rfl⟩

/-- What a message issues. -/
lemma issues_cases (h : a.handleMessage order msg = some res) :
    Issues a res.1 (a.issues msg res) := by
  have hupdates : msg.isGrant = false → Issues a res.1
      ((res.1.locks.lockdb.entries.filter fun e => decide (e ∉ a.locks.lockdb)).map fun e =>
        (false, e.stateid)) := by
    intro hgrant
    have hmap : ∀ l : List LockingState,
        l.map (fun e => (false, e.stateid)) = (l.map LockingState.stateid).map fun s => (false, s) := by
      intro l
      rw [List.map_map]
      rfl
    rw [hmap]
    rcases Updates.newEntries (handleMessage_updates h hgrant) with ⟨hnil, hnext⟩ | ⟨hone, hnext⟩
    · rw [hnil]
      exact ⟨Or.inl ⟨rfl, hnext⟩⟩
    · rw [hone]
      exact ⟨Or.inr ⟨Or.inl rfl, hnext⟩⟩
  cases msg with
  | grantDelegation id clientId isWrite =>
    obtain rfl := Option.some.inj h
    exact grantDelegation_issues a id clientId isWrite
  | _ => exact hupdates rfl

end Issues

/-! ### The stateids of a run -/

/-- The invariant: the counter tells how many stateids were issued, and each is that of its
position. -/
structure Serial (l : List Grant) (a : FileManagerActor F) : Prop where
  next : a.locks.nextStateidId = UInt64.ofNat (100 + l.length)
  stamped : ∀ g ∈ l, g.position < l.length ∧ g.other = stamp g.boot g.position g.delegation
  increasing : l.Pairwise fun g g' => g.position < g'.position

variable {l : List Grant} {a a' : FileManagerActor F}

omit [FileSystem F] in
/-- A step that issues what a message can issue. -/
lemma Serial.of_issues {issued : List (Bool × StateidOther)} (h : Serial l a)
    (hissues : Issues a a' issued) : Serial (l ++ a.grants l.length issued) a' := by
  have hweaken : ∀ g ∈ l, g.position < l.length + 1 ∧
      g.other = stamp g.boot g.position g.delegation := by
    intro g hg
    exact ⟨Nat.lt_succ_of_lt (h.stamped g hg).1, (h.stamped g hg).2⟩
  have hsucc : a.locks.nextStateidId + 1 = UInt64.ofNat (101 + l.length) := by
    rw [h.next]
    apply UInt64.toNat_inj.1
    simp [UInt64.toNat_add]
    omega
  -- One stateid was issued, at the next position.
  have hone : ∀ delegation, a'.locks.nextStateidId = a.locks.nextStateidId + 1 →
      Serial (l ++ [⟨a.bootTime.toUInt32, l.length, delegation,
        stamp a.bootTime.toUInt32 l.length delegation⟩]) a' := by
    intro delegation hnext
    constructor
    · rw [hnext, hsucc, List.length_append, List.length_singleton]
      congr 1
      omega
    · intro g hg
      rw [List.length_append, List.length_singleton]
      rcases List.mem_append.1 hg with hold | hlast
      · exact hweaken g hold
      · rw [List.mem_singleton.1 hlast]
        exact ⟨Nat.lt_succ_self _, rfl⟩
    · refine List.pairwise_append.2 ⟨h.increasing, List.pairwise_singleton _ _, ?_⟩
      intro g hg g' hg'
      rw [List.mem_singleton.1 hg']
      exact (h.stamped g hg).1
  rcases hissues.cases with ⟨rfl, hnext⟩ | ⟨rfl | rfl, hnext⟩
  · have hnone : l ++ a.grants l.length [] = l := List.append_nil l
    rw [hnone]
    exact ⟨hnext.trans h.next, h.stamped, h.increasing⟩
  · have hlabel : label 0 a.locks.nextStateidId = stamp a.bootTime.toUInt32 l.length false := by
      rw [h.next]
      rfl
    rw [hlabel]
    exact hone false hnext
  · have hlabel : label a.bootTime.toUInt32 (a.locks.nextStateidId + 1) =
        stamp a.bootTime.toUInt32 l.length true := by
      rw [hsucc]
      rfl
    rw [hlabel]
    exact hone true hnext

/-- Each stateid of a run is that of its position. -/
lemma Serving.serial (h : Serving l a) : Serial l a := by
  induction h with
  | new fs now fsid =>
    have hlocks : (FileManagerActor.new fs now fsid).locks = LockTable.new :=
      (FileManager.sameWorld_getFilehandle _ _).locks
    refine ⟨?_, fun g hg => ?_, List.Pairwise.nil⟩
    · rw [hlocks]
      rfl
    · cases hg
  | message order _ h ih => exact ih.of_issues (issues_cases h)
  | sweep _ hids ih =>
    refine ⟨?_, ih.stamped, ih.increasing⟩
    rw [sweepPendingDeletes_locks]
    exact ih.next
  | outside fs now _ ih => exact ⟨ih.next, ih.stamped, ih.increasing⟩

/-- Without a restart no two stateids clash, unless the boot time is zero. -/
lemma Serving.pairwise_not_clash (h : Serving l a) (hboot : ∀ g ∈ l, g.boot ≠ 0) :
    l.Pairwise fun g g' => ¬ g.Clash g' := by
  refine h.serial.increasing.imp_of_mem ?_
  intro g g' hg hg' hlt hclash
  rcases hclash with ⟨-, -, heq⟩ | ⟨-, -, heq, -⟩ | ⟨-, -, -, hzero⟩ | ⟨-, -, -, hzero⟩
  · omega
  · omega
  · exact hboot g' hg' hzero
  · exact hboot g hg hzero

end FileManagerActor

namespace Stateids

open FileManagerActor

variable {F : Type} [FileSystem F]

/-- **Stateids.** The stateids that a file manager issues, over any number of restarts of the
server, are distinct exactly when no two of them clash. -/
theorem nodup_iff_not_clash (runs : List (List Grant))
    (hruns : ∀ l ∈ runs, ∃ a : FileManagerActor F, Serving l a)
    (hfew : ∀ l ∈ runs, l.length < 2 ^ 64) :
    (runs.flatten.map Grant.other).Nodup ↔ runs.flatten.Pairwise fun g g' => ¬ g.Clash g' := by
  have hstamped : ∀ g ∈ runs.flatten, g.position + 1 < 2 ^ 64 ∧
      g.other = stamp g.boot g.position g.delegation := by
    intro g hg
    obtain ⟨l, hl, hgl⟩ := List.mem_flatten.1 hg
    obtain ⟨a, ha⟩ := hruns l hl
    obtain ⟨hposition, hother⟩ := ha.serial.stamped g hgl
    exact ⟨lt_of_le_of_lt hposition (hfew l hl), hother⟩
  have hclash : ∀ {g g' : Grant}, g ∈ runs.flatten → g' ∈ runs.flatten →
      (g.other ≠ g'.other ↔ ¬ g.Clash g') := by
    intro g g' hg hg'
    obtain ⟨hposition, hother⟩ := hstamped g hg
    obtain ⟨hposition', hother'⟩ := hstamped g' hg'
    rw [hother, hother', Ne, stamp_eq_iff_clash hposition hposition']
  rw [List.Nodup, List.pairwise_map]
  exact List.Pairwise.iff_of_mem hclash

section Examples

/-- An export that was just started. -/
def started : FileManagerActor FlatFs := .new ⟨[], 2⟩ 1000000000 none

/-- A lock on its root. -/
def locksRoot : FileManagerMessage := .lockFile started.getRootFilehandle.2.id 1 [] .writeLt 0 1

/-- A delegation for it. -/
def grantsRoot : FileManagerMessage := .grantDelegation started.getRootFilehandle.2.id 1 true

/-- The lock is granted, and then the delegation. -/
lemma serving_locksRoot :
    ∃ a a' : FileManagerActor FlatFs, Serving [⟨1, 0, false, label 0 100⟩] a ∧
      Serving [⟨1, 0, false, label 0 100⟩, ⟨1, 1, true, label 1 102⟩] a' := by
  have hnew : Serving [] started := .new _ _ _
  have hhandled : ∃ res res', started.handleMessage id locksRoot = some res ∧
      started.grants 0 (started.issues locksRoot res) = [⟨1, 0, false, label 0 100⟩] ∧
      res.1.handleMessage id grantsRoot = some res' ∧
      res.1.grants 1 (res.1.issues grantsRoot res') = [⟨1, 1, true, label 1 102⟩] :=
    ⟨_, _, rfl, rfl, rfl, rfl⟩
  obtain ⟨res, res', hres, hgrants, hres', hgrants'⟩ := hhandled
  have hlock := Serving.message id hnew hres
  rw [List.nil_append, List.length_nil, hgrants] at hlock
  have hdelegation := Serving.message id hlock hres'
  rw [List.length_singleton, hgrants'] at hdelegation
  exact ⟨res.1, res'.1, hlock, hdelegation⟩

/-- A lock and a delegation, on a server that was not restarted. -/
theorem nodup_iff_not_clash_one_server :
    ∃ (l : List Grant) (a : FileManagerActor FlatFs), Serving l a ∧ l.length = 2 ∧
      ([l].flatten.map Grant.other).Nodup := by
  obtain ⟨-, a, -, ha⟩ := serving_locksRoot
  refine ⟨_, a, ha, rfl, (nodup_iff_not_clash (F := FlatFs) [_] ?_ ?_).2 ?_⟩
  · intro l hl
    rw [List.mem_singleton.1 hl]
    exact ⟨a, ha⟩
  · intro l hl
    rw [List.mem_singleton.1 hl]
    decide
  · rw [List.flatten_singleton]
    refine ha.pairwise_not_clash ?_
    intro g hg
    rcases List.mem_pair.1 hg with rfl | rfl <;> decide

/-- The first lock after a restart gets the stateid of the first lock before. -/
theorem not_nodup_after_restart :
    ∃ runs : List (List Grant), (∀ l ∈ runs, ∃ a : FileManagerActor FlatFs, Serving l a) ∧
      ¬ (runs.flatten.map Grant.other).Nodup := by
  obtain ⟨a, -, ha, -⟩ := serving_locksRoot
  refine ⟨[[⟨1, 0, false, label 0 100⟩], [⟨1, 0, false, label 0 100⟩]], fun l hl => ?_, ?_⟩
  · rcases List.mem_pair.1 hl with rfl | rfl <;> exact ⟨a, ha⟩
  · decide

end Examples

end Stateids

end NextNfs
