import NextNfs.Lib.Run
import NextNfs.Server.Locking

set_option relaxedAutoImplicit false
set_option autoImplicit false

/-!
# Runs of the lock table

What the lock table holds after any sequence of LOCK, LOCKU and RELEASE_LOCKOWNER requests.
Two things are expected of it. Byte-range locks of different owners do not overlap if one of
them is a write lock. And the entries of an owner say which bytes of a file it has locked, as a
per-byte record of the requests would. Neither holds without a condition on the requests.

## Main definitions

* `NextNfs.LockTable.step` — one request.
* `NextNfs.Exclusive` — no two locks of different owners overlap, one being a write lock.
* `NextNfs.Ownership` — the per-byte record, and `NextNfs.stepWithReference`, which keeps it
  beside the table.
* `NextNfs.Agrees` — the entries cover the bytes of the record, with their types.

## Main results

* `NextNfs.byte_range_exclusion_iff` — a run keeps the locks exclusive exactly when no lock is
  granted that meets a rival at the last position only.
* `NextNfs.lock_table_refines_ownership_iff` — a run keeps table and record in agreement
  exactly when owners lock over their own locks with the same type only, and unlock what they
  locked.
-/

namespace NextNfs

open Wire

/-! ### Requests -/

/-- A request to the lock table. -/
inductive LockRequest
  | lock (fh : NfsFh4) (clientId : UInt64) (owner : Bytes) (type : NfsLockType4)
      (offset length : UInt64)
  | locku (stateid : StateidOther) (offset length : UInt64)
  | releaseLockowner (clientId : UInt64) (owner : Bytes)

/-- The table after a request. -/
def LockTable.step (order : List LockingState → List LockingState) (t : LockTable) :
    LockRequest → Option LockTable
  | .lock fh clientId owner type offset length =>
    (t.handleLock order fh clientId owner type offset length).map Prod.fst
  | .locku stateid offset length => some (t.handleUnlock stateid offset length).1
  | .releaseLockowner clientId owner => some (t.handleReleaseLockOwner clientId owner).1

/-- The table has a byte-range lock. -/
def LockTable.HasLock (t : LockTable) (b : ByteLock) : Prop :=
  ∃ e ∈ t.lockdb, e.byteLock = some b

/-- A table without entries has no locks. -/
lemma LockTable.not_hasLock_new (b : ByteLock) : ¬ LockTable.new.HasLock b := by
  rintro ⟨e, he, -⟩
  exact Table.not_mem_empty he

/-- No entry of the file stands in the way of a lock, so that it is granted. -/
def LockTable.Unopposed (t : LockTable) (b : ByteLock) : Prop :=
  ∀ e ∈ t.lockdb, e.filehandleId = b.file →
    e.conflictsWith b.offset b.length b.type b.owner b.clientId = false

/-- A new lock is added to those there are. -/
lemma LockTable.hasLock_insert {t t' : LockTable} {b b' : ByteLock} {stateid : StateidOther}
    (h : t.lockdb.insert (.newByteRangeLock b.file stateid b.clientId b.owner b.type b.offset
      b.length) = some t'.lockdb) :
    t'.HasLock b' ↔ t.HasLock b' ∨ b' = b := by
  unfold LockTable.HasLock
  constructor
  · rintro ⟨e, he, hb⟩
    rcases (Table.mem_insert h).1 he with he | rfl
    · exact Or.inl ⟨e, he, hb⟩
    · rw [byteLock_newByteRangeLock] at hb
      exact Or.inr (Option.some.inj hb).symm
  · rintro (⟨e, he, hb⟩ | rfl)
    · exact ⟨e, (Table.mem_insert h).2 (Or.inl he), hb⟩
    · exact ⟨_, (Table.mem_insert h).2 (Or.inr rfl), rfl⟩

/-! ### Mutual exclusion -/

/-- The locks are on the same file, of different owners, and one is a write lock. -/
def ByteLock.Rivals (b b' : ByteLock) : Prop :=
  b.file = b'.file ∧ ¬ (b.clientId = b'.clientId ∧ b.owner = b'.owner) ∧
    (b.type.isWrite = true ∨ b'.type.isWrite = true)

/-- The ranges share a position. -/
def ByteLock.Overlap (b b' : ByteLock) : Prop :=
  ∃ p, InRange b.offset b.length p ∧ InRange b'.offset b'.length p

/-- One of the ranges starts at the last position, and the other includes it. -/
def ByteLock.MeetAtLast (b b' : ByteLock) : Prop :=
  (b.offset = lastPosition ∧ InRange b'.offset b'.length lastPosition) ∨
    (b'.offset = lastPosition ∧ InRange b.offset b.length lastPosition)

instance (b b' : ByteLock) : Decidable (b.MeetAtLast b') := inferInstanceAs (Decidable (_ ∨ _))

/-- No two byte-range locks on a file that belong to different owners, one of them a write lock,
share a position. -/
def Exclusive (t : LockTable) : Prop :=
  ∀ b b', t.HasLock b → t.HasLock b' → b.Rivals b' → ¬ b.Overlap b'

lemma ByteLock.Rivals.symm {b b' : ByteLock} (h : b.Rivals b') : b'.Rivals b :=
  ⟨h.1.symm, fun hs => h.2.1 ⟨hs.1.symm, hs.2.symm⟩, h.2.2.symm⟩

lemma ByteLock.Overlap.symm {b b' : ByteLock} (h : b.Overlap b') : b'.Overlap b :=
  h.imp fun _ hp => hp.symm

/-- No lock is its own rival. -/
lemma ByteLock.not_rivals_self (b : ByteLock) : ¬ b.Rivals b := fun h => h.2.1 ⟨rfl, rfl⟩

/-- A range that starts before the last position and includes it includes the position before
it. -/
lemma InRange.pred_last {offset length : UInt64} (h : InRange offset length lastPosition)
    (hne : offset ≠ lastPosition) : InRange offset length (lastPosition - 1) := by
  have hlast : lastPosition.toNat = 2 ^ 64 - 1 := rfl
  have hpred : (lastPosition - 1).toNat = 2 ^ 64 - 2 := rfl
  obtain ⟨hle, hend⟩ := h
  rw [UInt64.le_iff_toNat_le, hlast] at hle
  have hne' : offset.toNat ≠ 2 ^ 64 - 1 := fun heq => hne (UInt64.toNat_inj.1 heq)
  refine ⟨?_, hend.imp_right (Or.imp_right fun hlt => ?_)⟩
  · rw [UInt64.le_iff_toNat_le, hpred]
    omega
  · omega

/-- Two ranges that share no position but the last meet there. -/
lemma ByteLock.overlap_iff_meetAtLast {b b' : ByteLock}
    (h : ¬ ∃ p, p ≠ lastPosition ∧ InRange b.offset b.length p ∧
      InRange b'.offset b'.length p) :
    b.Overlap b' ↔ b.MeetAtLast b' := by
  constructor
  · rintro ⟨p, hp, hp'⟩
    obtain rfl : p = lastPosition := by
      by_contra hne
      exact h ⟨p, hne, hp, hp'⟩
    by_cases hb : b.offset = lastPosition
    · exact Or.inl ⟨hb, hp'⟩
    by_cases hb' : b'.offset = lastPosition
    · exact Or.inr ⟨hb', hp⟩
    · exact absurd ⟨_, by decide, hp.pred_last hb, hp'.pred_last hb'⟩ h
  · rintro (⟨hb, hin⟩ | ⟨hb', hin⟩)
    · exact ⟨lastPosition, hb ▸ inRange_start b.offset b.length, hin⟩
    · exact ⟨lastPosition, hin, hb' ▸ inRange_start b'.offset b'.length⟩

/-- A rival of a lock that is granted shares no position with it but the last. -/
lemma LockTable.Unopposed.no_shared_position {t : LockTable} {b b' : ByteLock}
    (h : t.Unopposed b) (hb' : t.HasLock b') (hrivals : b'.Rivals b) :
    ¬ ∃ p, p ≠ lastPosition ∧ InRange b'.offset b'.length p ∧ InRange b.offset b.length p := by
  obtain ⟨e, he, hbyte⟩ := hb'
  have hfile : e.filehandleId = b.file :=
    (LockingState.byteLock_eq_some.1 hbyte).2.2.2.2.1.trans hrivals.1
  intro hp
  have hconflict := LockingState.conflictsWith_iff.2 ⟨b', hbyte, hrivals.2.1, hrivals.2.2, hp⟩
  rw [h e he hfile] at hconflict
  cases hconflict

/-- A LOCK that is granted meets no rival at the last position. -/
def LastPositionClear (t : LockTable) : LockRequest → Prop
  | .lock fh clientId owner type offset length =>
    let b : ByteLock := ⟨fh, clientId, owner, offset, length, type⟩
    t.Unopposed b → ∀ b', t.HasLock b' → b'.Rivals b → ¬ b'.MeetAtLast b
  | .locku .. | .releaseLockowner .. => True

/-- Fewer locks are exclusive too. -/
lemma Exclusive.of_subset {t t' : LockTable} (h : Exclusive t)
    (hsub : ∀ e ∈ t'.lockdb, e ∈ t.lockdb) : Exclusive t' := by
  rintro b b' ⟨e, he, hb⟩ ⟨e', he', hb'⟩
  exact h b b' ⟨e, hsub e he, hb⟩ ⟨e', hsub e' he', hb'⟩

/-- LOCKU only removes entries. -/
lemma LockTable.mem_of_mem_handleUnlock {t : LockTable} {stateid : StateidOther}
    {offset length : UInt64} {e : LockingState}
    (h : e ∈ (t.handleUnlock stateid offset length).1.lockdb) : e ∈ t.lockdb := by
  unfold LockTable.handleUnlock at h
  split at h
  · exact (Table.mem_erase.1 h).1
  · exact h

/-- Adding a lock keeps the locks exclusive exactly when it overlaps no rival. -/
lemma exclusive_insert_iff {t t' : LockTable} {b : ByteLock} (h : Exclusive t)
    (hlocks : ∀ b', t'.HasLock b' ↔ t.HasLock b' ∨ b' = b) :
    Exclusive t' ↔ ∀ b', t.HasLock b' → b'.Rivals b → ¬ b'.Overlap b := by
  constructor
  · intro h' b' hb'
    exact h' b' b ((hlocks b').2 (Or.inl hb')) ((hlocks b).2 (Or.inr rfl))
  · intro hnew b₁ b₂ h₁ h₂ hrivals hoverlap
    rcases (hlocks b₁).1 h₁ with h₁ | rfl <;> rcases (hlocks b₂).1 h₂ with h₂ | rfl
    · exact h b₁ b₂ h₁ h₂ hrivals hoverlap
    · exact hnew b₁ h₁ hrivals hoverlap
    · exact hnew b₂ h₂ hrivals.symm hoverlap.symm
    · exact b₂.not_rivals_self hrivals

section Runs

variable {order : List LockingState → List LockingState} (horder : ∀ l, (order l).Perm l)

include horder in
/-- A request keeps the locks exclusive exactly when it leaves the last position clear. -/
lemma exclusive_step_iff {t t' : LockTable} {req : LockRequest} (h : Exclusive t)
    (hstep : t.step order req = some t') : Exclusive t' ↔ LastPositionClear t req := by
  cases req with
  | lock fh clientId owner type offset length =>
    obtain ⟨⟨_, result⟩, hlock, rfl⟩ := Option.map_eq_some_iff.1 hstep
    rcases LockTable.handleLock_cases horder hlock with
      ⟨rfl, -, e, he, hfile, hconflict⟩ | ⟨-, hinsert, -, hnone⟩
    · refine iff_of_true h fun hunopposed => ?_
      rw [hunopposed e he hfile] at hconflict
      cases hconflict
    · set b : ByteLock := ⟨fh, clientId, owner, offset, length, type⟩
      have hunopposed : t.Unopposed b := hnone
      rw [exclusive_insert_iff h fun b' => LockTable.hasLock_insert (b := b) hinsert]
      change _ ↔ (t.Unopposed b → _)
      rw [forall_prop_of_true hunopposed]
      refine forall_congr' fun b' => forall_congr' fun hb' => forall_congr' fun hrivals => ?_
      rw [ByteLock.overlap_iff_meetAtLast (hunopposed.no_shared_position hb' hrivals)]
  | locku stateid offset length =>
    cases hstep
    exact iff_of_true (h.of_subset fun e => LockTable.mem_of_mem_handleUnlock) trivial
  | releaseLockowner clientId owner =>
    cases hstep
    exact iff_of_true (h.of_subset fun e he => (Table.mem_erase.1 he).1) trivial

/-- Mutual exclusion: starting without byte-range locks, a run of LOCK, LOCKU and
RELEASE_LOCKOWNER keeps the locks exclusive in every state it reaches exactly when each LOCK it
grants meets no rival at the last position.
**Proof sketch.** The conflict test compares half-open ranges that end at the last position at
the latest, so it misses exactly those overlaps that consist of this position. -/
theorem byte_range_exclusion_iff (order : List LockingState → List LockingState)
    (horder : ∀ l, (order l).Perm l) (t : LockTable) (hopens : ∀ b, ¬ t.HasLock b)
    (reqs : List LockRequest) :
    Run.Holds (LockTable.step order) Exclusive t reqs ↔
      Run.Meets (LockTable.step order) LastPositionClear t reqs :=
  Run.holds_iff_meets (fun _ _ _ h hstep => exclusive_step_iff horder h hstep)
    (fun b _ hb => absurd hb (hopens b)) reqs

end Runs

/-- Two owners that lock the first and the second half of a file for writing do not meet. -/
theorem byte_range_exclusion_two_halves :
    Run.Holds (LockTable.step id) Exclusive LockTable.new
      [.lock exampleFh 1 [1] .writeLt 0 100, .lock exampleFh 2 [2] .writeLt 100 0] := by
  refine (byte_range_exclusion_iff id (fun l => List.Perm.refl l) LockTable.new
    LockTable.not_hasLock_new _).2 ?_
  intro t ht
  refine ⟨fun _ b hb => absurd hb (LockTable.not_hasLock_new b), ?_⟩
  intro t' ht'
  refine ⟨fun _ b hb hrivals hmeet => ?_, trivial⟩
  obtain ⟨e, he, hbyte⟩ := hb
  cases ht
  obtain rfl := List.mem_singleton.1 he
  cases hbyte
  revert hmeet
  decide

/-- Write locks of two owners on the last byte of a file are both granted. -/
theorem last_position_locked_twice :
    ∃ t, (LockTable.new.step id (.lock exampleFh 1 [1] .writeLt lastPosition 1)).bind
        (fun t => t.step id (.lock exampleFh 2 [2] .writeLt lastPosition 1)) = some t ∧
      ¬ Exclusive t ∧
      ¬ Run.Holds (LockTable.step id) Exclusive LockTable.new
        [.lock exampleFh 1 [1] .writeLt lastPosition 1,
          .lock exampleFh 2 [2] .writeLt lastPosition 1] := by
  have hnot : ∀ t, (LockTable.new.step id (.lock exampleFh 1 [1] .writeLt lastPosition 1)).bind
      (fun t => t.step id (.lock exampleFh 2 [2] .writeLt lastPosition 1)) = some t →
      ¬ Exclusive t := by
    intro t ht h
    cases ht
    refine h ⟨exampleFh, 1, [1], lastPosition, 1, .writeLt⟩
      ⟨exampleFh, 2, [2], lastPosition, 1, .writeLt⟩
      ⟨_, List.mem_cons_self, rfl⟩ ⟨_, List.mem_cons_of_mem _ List.mem_cons_self, rfl⟩
      ⟨rfl, by decide, by decide⟩ ⟨lastPosition, inRange_start _ _, inRange_start _ _⟩
  refine ⟨_, rfl, hnot _ rfl, fun hrun => ?_⟩
  exact hnot _ rfl ((hrun.2 _ rfl).2 _ rfl)

/-! ### Per-byte ownership -/

/-- Read or write. -/
inductive Access
  | read | write
deriving DecidableEq

/-- The access a lock type stands for. -/
def NfsLockType4.access (type : NfsLockType4) : Access :=
  if type.isWrite then .write else .read

/-- The reference: for each file and owner, the access it has locked each position for. -/
def Ownership := NfsFh4 → UInt64 × Bytes → UInt64 → Option Access

/-- Set the positions of a range. -/
def Ownership.set (r : Ownership) (fh : NfsFh4) (owner : UInt64 × Bytes)
    (offset length : UInt64) (access : Option Access) : Ownership := fun fh' owner' p =>
  if (fh' = fh ∧ owner' = owner) ∧ InRange offset length p then access else r fh' owner' p

/-- Clear everything of an owner. -/
def Ownership.release (r : Ownership) (owner : UInt64 × Bytes) : Ownership :=
  fun fh owner' p => if owner' = owner then none else r fh owner' p

/-- A request, with what it does to the reference. A LOCK that is denied and a LOCKU of an
unknown stateid do nothing. LOCKU is about the owner its stateid names. -/
def stepWithReference (order : List LockingState → List LockingState) :
    LockTable × Ownership → LockRequest → Option (LockTable × Ownership)
  | (t, r), .lock fh clientId owner type offset length =>
    (t.handleLock order fh clientId owner type offset length).map fun
      | (t', .ok _) => (t', r.set fh (clientId, owner) offset length (some type.access))
      | (t', _) => (t', r)
  | (t, r), .locku stateid offset length =>
    match t.lockdb.find? fun e => e.stateid == stateid with
    | some e => some ((t.handleUnlock stateid offset length).1,
        r.set e.filehandleId (e.clientId, e.owner) offset length none)
    | none => some ((t.handleUnlock stateid offset length).1, r)
  | (t, r), .releaseLockowner clientId owner =>
    some ((t.handleReleaseLockOwner clientId owner).1, r.release (clientId, owner))

/-- The lock covers a position of a file for an owner. -/
def ByteLock.Covers (b : ByteLock) (fh : NfsFh4) (owner : UInt64 × Bytes) (p : UInt64) : Prop :=
  (fh = b.file ∧ owner = (b.clientId, b.owner)) ∧ InRange b.offset b.length p

/-- The entries cover exactly the positions of the reference, with their access. -/
def Agrees (t : LockTable) (r : Ownership) : Prop :=
  ∀ fh owner p access,
    (∃ b, t.HasLock b ∧ b.Covers fh owner p ∧ b.type.access = access) ↔
      r fh owner p = some access

/-- The share reservations of a table. -/
def LockTable.opens (t : LockTable) : List LockingState :=
  t.lockdb.select fun e => e.lockType == .openLock

/-- A granted LOCK overlaps no lock of its owner that is for the other access. A LOCKU names a
byte-range lock, and what this lock covers and the LOCKU clears differ only in positions that
matter to no one: the owner has another lock on each position of the lock outside the range,
and no other lock inside the range. -/
def RangesAligned (t : LockTable) : LockRequest → Prop
  | .lock fh clientId owner type offset length =>
    t.Unopposed ⟨fh, clientId, owner, offset, length, type⟩ →
      ∀ b p, t.HasLock b → b.Covers fh (clientId, owner) p → InRange offset length p →
        b.type.access = type.access
  | .locku stateid offset length =>
    ∀ e ∈ t.lockdb, e.stateid = stateid → ∃ b, e.byteLock = some b ∧ ∀ p,
      (InRange offset length p → ∀ e' ∈ t.lockdb, e'.stateid ≠ stateid →
        ∀ b', e'.byteLock = some b' → ¬ b'.Covers b.file (b.clientId, b.owner) p) ∧
      (InRange b.offset b.length p → ¬ InRange offset length p →
        ∃ e' ∈ t.lockdb, e'.stateid ≠ stateid ∧
          ∃ b', e'.byteLock = some b' ∧ b'.Covers b.file (b.clientId, b.owner) p)
  | .releaseLockowner .. => True

/-- Table and reference agree, and the share reservations are those of `opens`. -/
def InAgreement (opens : List LockingState) (s : LockTable × Ownership) : Prop :=
  Agrees s.1 s.2 ∧ s.1.opens = opens

/-- Two positions an owner has locked through different locks are locked for the same
access. -/
lemma Agrees.access_eq {t : LockTable} {r : Ownership} (h : Agrees t r) {b b' : ByteLock}
    {fh : NfsFh4} {owner : UInt64 × Bytes} {p : UInt64} (hb : t.HasLock b)
    (hb' : t.HasLock b') (hcovers : b.Covers fh owner p) (hcovers' : b'.Covers fh owner p) :
    b.type.access = b'.type.access := by
  have h₁ := (h fh owner p _).1 ⟨b, hb, hcovers, rfl⟩
  have h₂ := (h fh owner p _).1 ⟨b', hb', hcovers', rfl⟩
  rw [h₁] at h₂
  exact Option.some.inj h₂

/-- Adding a lock to table and reference keeps them in agreement exactly when the owner has no
lock for the other access there. -/
lemma agrees_lock_iff {t t' : LockTable} {r : Ownership} {b : ByteLock} (h : Agrees t r)
    (hlocks : ∀ b', t'.HasLock b' ↔ t.HasLock b' ∨ b' = b) :
    Agrees t' (r.set b.file (b.clientId, b.owner) b.offset b.length (some b.type.access)) ↔
      ∀ b' p, t.HasLock b' → b'.Covers b.file (b.clientId, b.owner) p →
        InRange b.offset b.length p → b'.type.access = b.type.access := by
  constructor
  · intro h' b' p hb' hcovers hin
    exact h'.access_eq ((hlocks b').2 (Or.inl hb')) ((hlocks b).2 (Or.inr rfl)) hcovers
      ⟨⟨rfl, rfl⟩, hin⟩
  · intro hsame fh owner p access
    unfold Ownership.set
    split_ifs with hset
    · obtain ⟨⟨rfl, rfl⟩, hin⟩ := hset
      constructor
      · rintro ⟨b', hb', hcovers, rfl⟩
        rcases (hlocks b').1 hb' with hb' | rfl
        · rw [hsame b' p hb' hcovers hin]
        · rfl
      · intro heq
        exact ⟨b, (hlocks b).2 (Or.inr rfl), ⟨⟨rfl, rfl⟩, hin⟩, Option.some.inj heq⟩
    · rw [← h]
      constructor
      · rintro ⟨b', hb', hcovers, rfl⟩
        rcases (hlocks b').1 hb' with hb' | rfl
        · exact ⟨b', hb', hcovers, rfl⟩
        · exact absurd hcovers hset
      · rintro ⟨b', hb', hcovers, rfl⟩
        exact ⟨b', (hlocks b').2 (Or.inl hb'), hcovers, rfl⟩

/-- The entry a stateid names is the only one under it. -/
lemma LockTable.eq_of_stateid_eq {t : LockTable} {e e' : LockingState} (he : e ∈ t.lockdb)
    (he' : e' ∈ t.lockdb) (h : e.stateid = e'.stateid) : e = e' :=
  Table.eq_of_clash (fun a b => Bool.beq_comm) he he' (by simpa using h)

/-- Removing the entry of a byte-range lock, and clearing a range in the reference, keeps them
in agreement exactly when lock and range are aligned. -/
lemma agrees_locku_iff {t t' : LockTable} {r : Ownership} {e : LockingState} {b : ByteLock}
    {offset length : UInt64} (h : Agrees t r) (he : e ∈ t.lockdb) (hbyte : e.byteLock = some b)
    (hmem : ∀ e', e' ∈ t'.lockdb ↔ e' ∈ t.lockdb ∧ e'.stateid ≠ e.stateid) :
    Agrees t' (r.set b.file (b.clientId, b.owner) offset length none) ↔
      RangesAligned t (.locku e.stateid offset length) := by
  have hb : t.HasLock b := ⟨e, he, hbyte⟩
  constructor
  · intro h' e₁ he₁ hid
    obtain rfl := LockTable.eq_of_stateid_eq he₁ he hid
    refine ⟨b, hbyte, fun p => ⟨fun hin e' he' hne b' hbyte' hcovers => ?_, fun hin hout => ?_⟩⟩
    · -- the reference has nothing on this position any more
      have hcov := (h' _ _ p _).1 ⟨b', ⟨e', (hmem e').2 ⟨he', hne⟩, hbyte'⟩, hcovers, rfl⟩
      rw [Ownership.set, if_pos ⟨⟨rfl, rfl⟩, hin⟩] at hcov
      cases hcov
    · -- the reference still has the position, so an entry that is left covers it
      have hr := (h b.file (b.clientId, b.owner) p _).1 ⟨b, hb, ⟨⟨rfl, rfl⟩, hin⟩, rfl⟩
      have hr' : r.set b.file (b.clientId, b.owner) offset length none b.file
          (b.clientId, b.owner) p = some b.type.access := by
        rw [Ownership.set, if_neg fun hset => hout hset.2, hr]
      obtain ⟨b', ⟨e', he', hbyte'⟩, hcovers, -⟩ := (h' _ _ p _).2 hr'
      exact ⟨e', ((hmem e').1 he').1, ((hmem e').1 he').2, b', hbyte', hcovers⟩
  · intro halign fh owner p access
    obtain ⟨b₁, hbyte₁, hpos⟩ := halign e he rfl
    obtain rfl : b = b₁ := Option.some.inj (hbyte.symm.trans hbyte₁)
    unfold Ownership.set
    split_ifs with hset
    · obtain ⟨⟨rfl, rfl⟩, hin⟩ := hset
      simp only [iff_false]
      rintro ⟨b', ⟨e', he', hbyte'⟩, hcovers, -⟩
      exact (hpos p).1 hin e' ((hmem e').1 he').1 ((hmem e').1 he').2 b' hbyte' hcovers
    · rw [← h]
      constructor
      · rintro ⟨b', ⟨e', he', hbyte'⟩, hcovers, rfl⟩
        exact ⟨b', ⟨e', ((hmem e').1 he').1, hbyte'⟩, hcovers, rfl⟩
      · rintro ⟨b', ⟨e', he', hbyte'⟩, hcovers, rfl⟩
        by_cases hid : e'.stateid = e.stateid
        · -- the entry is gone, but another one covers the position for the same access
          obtain rfl := LockTable.eq_of_stateid_eq he' he hid
          obtain rfl : b = b' := Option.some.inj (hbyte.symm.trans hbyte')
          obtain ⟨⟨rfl, rfl⟩, hin⟩ := hcovers
          have hout : ¬ InRange offset length p := fun hout => hset ⟨⟨rfl, rfl⟩, hout⟩
          obtain ⟨e₂, he₂, hne₂, b₂, hbyte₂, hcovers₂⟩ := (hpos p).2 hin hout
          exact ⟨b₂, ⟨e₂, (hmem e₂).2 ⟨he₂, hne₂⟩, hbyte₂⟩, hcovers₂,
            h.access_eq ⟨e₂, he₂, hbyte₂⟩ hb hcovers₂ ⟨⟨rfl, rfl⟩, hin⟩⟩
        · exact ⟨b', ⟨e', (hmem e').2 ⟨he', hid⟩, hbyte'⟩, hcovers, rfl⟩

/-- RELEASE_LOCKOWNER keeps table and reference in agreement. -/
lemma agrees_releaseLockowner {t : LockTable} {r : Ownership} (clientId : UInt64)
    (owner : Bytes) (h : Agrees t r) :
    Agrees (t.handleReleaseLockOwner clientId owner).1 (r.release (clientId, owner)) := by
  have hlocks : ∀ b, (t.handleReleaseLockOwner clientId owner).1.HasLock b ↔
      t.HasLock b ∧ ¬ (b.clientId = clientId ∧ b.owner = owner) := by
    intro b
    constructor
    · rintro ⟨e, he, hbyte⟩
      obtain ⟨he, hkept⟩ := Table.mem_erase.1 he
      obtain ⟨htype, -, -, -, -, hclient, howner⟩ := LockingState.byteLock_eq_some.1 hbyte
      refine ⟨⟨e, he, hbyte⟩, ?_⟩
      rintro ⟨rfl, rfl⟩
      simp [htype, hclient, howner] at hkept
    · rintro ⟨⟨e, he, hbyte⟩, hother⟩
      obtain ⟨-, -, -, -, -, hclient, howner⟩ := LockingState.byteLock_eq_some.1 hbyte
      refine ⟨e, Table.mem_erase.2 ⟨he, ?_⟩, hbyte⟩
      rw [hclient, howner]
      by_contra hcon
      simp only [Bool.and_eq_false_iff, not_or, Bool.not_eq_false, beq_iff_eq] at hcon
      exact hother ⟨hcon.1, hcon.2.2⟩
  intro fh owner' p access
  unfold Ownership.release
  split_ifs with howner
  · subst howner
    simp only [iff_false]
    rintro ⟨b, hb, ⟨⟨-, hown⟩, -⟩, -⟩
    exact ((hlocks b).1 hb).2 ⟨(congrArg Prod.fst hown).symm, (congrArg Prod.snd hown).symm⟩
  · rw [← h]
    constructor
    · rintro ⟨b, hb, hcovers, rfl⟩
      exact ⟨b, ((hlocks b).1 hb).1, hcovers, rfl⟩
    · rintro ⟨b, hb, hcovers, rfl⟩
      refine ⟨b, (hlocks b).2 ⟨hb, ?_⟩, hcovers, rfl⟩
      rintro ⟨rfl, rfl⟩
      exact howner hcovers.1.2

/-- Removing entries that are no share reservations leaves the share reservations. -/
lemma LockTable.opens_erase {t : LockTable} {p : LockingState → Bool}
    (h : ∀ e ∈ t.lockdb, p e = true → e.lockType = .byteRange) :
    LockTable.opens ⟨t.lockdb.erase p, t.nextStateidId⟩ = t.opens := by
  unfold LockTable.opens Table.select Table.erase
  rw [List.filter_filter]
  refine List.filter_congr fun e he => ?_
  cases hp : p e with
  | false => simp
  | true => simp [h e he hp]

/-- Removing a share reservation does not. -/
lemma LockTable.opens_erase_ne {t : LockTable} {p : LockingState → Bool} {e : LockingState}
    (he : e ∈ t.lockdb) (htype : e.lockType = .openLock) (hp : p e = true) :
    LockTable.opens ⟨t.lockdb.erase p, t.nextStateidId⟩ ≠ t.opens := by
  intro heq
  have hmem : e ∈ t.opens := Table.mem_select.2 ⟨he, by simp [htype]⟩
  rw [← heq] at hmem
  have hkept := (Table.mem_erase.1 (Table.mem_select.1 hmem).1).2
  rw [hp] at hkept
  cases hkept

/-- A new byte-range lock leaves the share reservations. -/
lemma LockTable.opens_insert {t t' : LockTable} {b : ByteLock} {stateid : StateidOther}
    (h : t.lockdb.insert (.newByteRangeLock b.file stateid b.clientId b.owner b.type b.offset
      b.length) = some t'.lockdb) : t'.opens = t.opens := by
  unfold LockTable.opens Table.select
  rw [Table.entries_of_insert h, List.filter_append]
  exact List.append_nil _

/-- LOCKU of an entry removes it. -/
lemma LockTable.handleUnlock_of_find {t : LockTable} {stateid : StateidOther}
    {offset length : UInt64} {e : LockingState}
    (h : t.lockdb.find? (fun e => e.stateid == stateid) = some e) :
    (t.handleUnlock stateid offset length).1 =
      ⟨t.lockdb.erase fun e => e.stateid == stateid, t.nextStateidId⟩ := by
  rw [LockTable.handleUnlock, h]

/-- A request keeps table and reference in agreement and the share reservations in place
exactly when its range is aligned. -/
lemma inAgreement_step_iff {order : List LockingState → List LockingState}
    (horder : ∀ l, (order l).Perm l) {opens : List LockingState}
    {s s' : LockTable × Ownership} {req : LockRequest} (h : InAgreement opens s)
    (hstep : stepWithReference order s req = some s') :
    InAgreement opens s' ↔ RangesAligned s.1 req := by
  obtain ⟨t, r⟩ := s
  obtain ⟨hagrees, rfl⟩ := h
  cases req with
  | lock fh clientId owner type offset length =>
    obtain ⟨⟨t', result⟩, hlock, hs'⟩ := Option.map_eq_some_iff.1 hstep
    rcases LockTable.handleLock_cases horder hlock with
      ⟨rfl, hdenied, e, he, hfile, hconflict⟩ | ⟨rfl, hinsert, -, hnone⟩
    · obtain rfl : s' = (t', r) := by
        cases result with
        | ok stateid => exact absurd rfl (hdenied stateid)
        | denied => exact hs'.symm
        | error => exact hs'.symm
      refine iff_of_true ⟨hagrees, rfl⟩ fun hunopposed => ?_
      rw [hunopposed e he hfile] at hconflict
      cases hconflict
    · set b : ByteLock := ⟨fh, clientId, owner, offset, length, type⟩
      have hunopposed : t.Unopposed b := hnone
      subst hs'
      change (Agrees t' _ ∧ t'.opens = t.opens) ↔ (t.Unopposed b → _)
      rw [and_iff_left (LockTable.opens_insert (b := b) hinsert),
        forall_prop_of_true hunopposed]
      exact agrees_lock_iff (b := b) hagrees fun b' => LockTable.hasLock_insert hinsert
  | locku stateid offset length =>
    rw [stepWithReference] at hstep
    cases hfind : t.lockdb.find? fun e => e.stateid == stateid with
    | none =>
      have hnone := Table.find?_eq_none.1 hfind
      rw [hfind] at hstep
      cases hstep
      have htable : (t.handleUnlock stateid offset length).1 = t := by
        rw [LockTable.handleUnlock, hfind]
      rw [htable]
      refine iff_of_true ⟨hagrees, rfl⟩ fun e he hid => ?_
      have := hnone e he
      simp [hid] at this
    | some e =>
      obtain ⟨he, hid⟩ := Table.of_find?_eq_some hfind
      obtain rfl : e.stateid = stateid := by simpa using hid
      rw [hfind] at hstep
      cases hstep
      rw [InAgreement, LockTable.handleUnlock_of_find hfind]
      cases htype : e.lockType with
      | openLock =>
        refine iff_of_false (fun h' => ?_) fun halign => ?_
        · exact LockTable.opens_erase_ne he htype (by simp) h'.2
        · obtain ⟨b, hbyte, -⟩ := halign e he rfl
          rw [(LockingState.byteLock_eq_some.1 hbyte).1] at htype
          cases htype
      | byteRange =>
        obtain ⟨b, hbyte⟩ := LockingState.byteLock_isSome htype
        obtain ⟨-, -, -, -, hfile, hclient, howner⟩ := LockingState.byteLock_eq_some.1 hbyte
        have hopens : LockTable.opens ⟨t.lockdb.erase fun e' => e'.stateid == e.stateid,
            t.nextStateidId⟩ = t.opens := by
          refine LockTable.opens_erase fun e' he' hid' => ?_
          rw [LockTable.eq_of_stateid_eq he' he (by simpa using hid'), htype]
        rw [and_iff_left hopens, hfile, hclient, howner]
        refine agrees_locku_iff hagrees he hbyte fun e' => ?_
        simp
  | releaseLockowner clientId owner =>
    cases hstep
    refine iff_of_true ⟨agrees_releaseLockowner clientId owner hagrees, ?_⟩ trivial
    refine LockTable.opens_erase fun e _ hp => ?_
    simp only [Bool.and_eq_true, beq_iff_eq] at hp
    exact hp.2.1

/-- The reference in which nothing is locked. -/
def Ownership.none : Ownership := fun _ _ _ => Option.none

/-- Refinement: starting without byte-range locks, a run of LOCK, LOCKU and RELEASE_LOCKOWNER
keeps the entries in agreement with the per-byte reference, and all share reservations, in every
state it reaches exactly when each of its requests is aligned with the entries of its owner.
**Proof sketch.** A LOCK adds one entry beside those there are, where the reference overwrites;
the two differ where there was a lock for the other access. A LOCKU removes one entry as a
whole, where the reference clears a range of all of the owner's locks. -/
theorem lock_table_refines_ownership_iff (order : List LockingState → List LockingState)
    (horder : ∀ l, (order l).Perm l) (t : LockTable) (hopens : ∀ b, ¬ t.HasLock b)
    (reqs : List LockRequest) :
    Run.Holds (stepWithReference order) (InAgreement t.opens) (t, Ownership.none) reqs ↔
      Run.Meets (stepWithReference order) (fun s => RangesAligned s.1) (t, Ownership.none)
        reqs := by
  refine Run.holds_iff_meets (fun _ _ _ h hstep => inAgreement_step_iff horder h hstep) ?_ reqs
  refine ⟨fun fh owner p access => ?_, rfl⟩
  simp only [Ownership.none, reduceCtorEq, iff_false]
  rintro ⟨b, hb, -⟩
  exact hopens b hb

/-- A lock that is unlocked as it was locked. -/
theorem lock_table_refines_ownership_lock_unlock :
    Run.Holds (stepWithReference id) (InAgreement LockTable.new.opens)
      (LockTable.new, Ownership.none)
      [.lock exampleFh 1 [1] .writeLt 0 100, .locku (LockTable.lockingstateId 100) 0 100] := by
  refine (lock_table_refines_ownership_iff id (fun l => List.Perm.refl l) LockTable.new
    LockTable.not_hasLock_new _).2 ?_
  intro s hs
  refine ⟨fun _ b p hb => absurd hb (LockTable.not_hasLock_new b), ?_⟩
  intro s' hs'
  refine ⟨fun e he _ => ?_, trivial⟩
  cases hs
  obtain rfl := List.mem_singleton.1 he
  refine ⟨_, rfl, fun p => ⟨fun _ e' he' hne => ?_, fun hin hout => absurd hin hout⟩⟩
  obtain rfl := List.mem_singleton.1 he'
  exact absurd rfl hne

/-- LOCKU of the first half of a lock removes all of it: byte 75 is locked for the reference and
for no entry. -/
theorem partial_unlock_removes_whole_lock :
    ∃ s, (stepWithReference id (LockTable.new, Ownership.none)
        (.lock exampleFh 1 [1] .writeLt 0 100)).bind
        (fun s => stepWithReference id s (.locku (LockTable.lockingstateId 100) 0 50)) = some s ∧
      s.1.lockdb.entries = [] ∧ s.2 exampleFh (1, [1]) 75 = some .write ∧
      ¬ Run.Holds (stepWithReference id) (InAgreement LockTable.new.opens)
        (LockTable.new, Ownership.none)
        [.lock exampleFh 1 [1] .writeLt 0 100,
          .locku (LockTable.lockingstateId 100) 0 50] := by
  refine ⟨_, rfl, by decide, by decide, fun hrun => ?_⟩
  have hend := (((hrun.2 _ rfl).2 _ rfl).1 exampleFh (1, [1]) 75 .write).2 (by decide)
  obtain ⟨b, ⟨e, he, -⟩, -⟩ := hend
  exact List.not_mem_nil (show e ∈ ([] : List LockingState) from he)

end NextNfs
