import NextNfs.Lib.Bimap
import NextNfs.Server.ExportManager

set_option relaxedAutoImplicit false
set_option autoImplicit false

/-!
# The tables of the export manager

This module models `add_export` and `remove_export` of `export_manager.rs` with the two hash maps
they keep, over the host's file system, and shows that the manager of `Server/ExportManager.lean` is
what a connection sees of them.

## Main definitions

* `NextNfs.ExportTable.ExportManager`, `NextNfs.ExportTable.addExport`,
  `NextNfs.ExportTable.removeExport` — the tables and the two calls.
* `NextNfs.ExportTable.Consistent` — the tables agree and the ids are in their range.
* `NextNfs.ExportTable.Abstracts` — what a connection sees of the tables.

## Main results

* `NextNfs.ExportTable.tables_agree_and_ids_never_reissued` — the export table invariant.
* `NextNfs.ExportTable.Abstracts.run` — the calls act on the tables as messages do on what
  connections see of them.

## Implementation notes

The host's file system may be another one at each call, so a call comes with what it finds there.
The counters, limits and access rules of an export are left out: no call here reads them.
-/

namespace NextNfs.ExportTable

open Wire

/-- What a call finds in the host's file system: `Path::canonicalize` and `Path::is_dir`. -/
structure HostFs where
  canonicalize : Bytes → Except String Bytes
  isDir : Bytes → Bool

/-- `ExportInfo`. -/
structure ExportInfo where
  exportId : UInt8
  name : String
  path : Bytes
  readOnly : Bool

/-- `FileManagerHandle::new`: the number that goes into filehandles and the directory served. -/
structure FileManagerHandle where
  fsid : Option UInt64
  exportRoot : Bytes

/-- `ExportState`. -/
structure ExportState where
  info : ExportInfo
  fileManager : FileManagerHandle

/-- `ExportManager`. -/
structure ExportManager where
  exports : Std.HashMap String ExportState
  exportById : Std.HashMap UInt8 String
  nextExportId : UInt8

/-- `ExportManager::new`. -/
def ExportManager.new : ExportManager := ⟨∅, ∅, 1⟩

/-- `add_export`. -/
def addExport (host : HostFs) (name : String) (path : Bytes) (readOnly : Bool)
    (em : ExportManager) : Except String ExportInfo × ExportManager :=
  if em.exports.contains name then
    (.error ("export '" ++ name ++ "' already exists"), em)
  else if em.nextExportId ≥ 0xFE then (.error "maximum number of exports reached", em)
  else
    match host.canonicalize path with
    | .error e =>
      (.error ("export path " ++ Xdr.fromUtf8Lossy path ++ " does not exist: " ++ e), em)
    | .ok canonical =>
      if !host.isDir canonical then
        (.error (Xdr.fromUtf8Lossy canonical ++ " is not a directory"), em)
      else
        let exportId := em.nextExportId
        let info : ExportInfo := ⟨exportId, name, canonical, readOnly⟩
        let state : ExportState := ⟨info, ⟨some exportId.toUInt64, canonical⟩⟩
        (.ok info,
          { exports := em.exports.insert name state
            exportById := em.exportById.insert exportId name
            nextExportId := em.nextExportId + 1 })

/-- `remove_export`. -/
def removeExport (name : String) (em : ExportManager) : Except String Unit × ExportManager :=
  match em.exports[name]? with
  | some state =>
    (.ok (), { em with
      exports := em.exports.erase name
      exportById := em.exportById.erase state.info.exportId })
  | none => (.error ("export '" ++ name ++ "' not found"), em)

/-- `GetExportById` in `handle_message`. -/
def getExportById (id : UInt8) (em : ExportManager) : Option (ExportInfo × FileManagerHandle) :=
  (em.exportById[id]?).bind fun name =>
    (em.exports[name]?).map fun s => (s.info, s.fileManager)

/-- `GetExportByName` in `handle_message`. -/
def getExportByName (name : String) (em : ExportManager) :
    Option (ExportInfo × FileManagerHandle) :=
  (em.exports[name]?).map fun s => (s.info, s.fileManager)

/-- The calls that change the tables. -/
inductive Call
  | addExport (host : HostFs) (name : String) (path : Bytes) (readOnly : Bool)
  | removeExport (name : String)

/-- What comes back from a call. -/
inductive Response
  | added (r : Except String ExportInfo)
  | removed (r : Except String Unit)

/-- The response is an error. -/
def Response.IsErr : Response → Prop
  | .added (.error _) | .removed (.error _) => True
  | _ => False

/-- The id that a response gives out. -/
def Response.issued : Response → Option UInt8
  | .added (.ok info) => some info.exportId
  | _ => none

/-- One call. -/
def handle (em : ExportManager) : Call → Response × ExportManager
  | .addExport host name path readOnly =>
    (addExport host name path readOnly em).map .added id
  | .removeExport name => (removeExport name em).map .removed id

/-- The responses to a sequence of calls, and the tables after it. -/
def run (em : ExportManager) : List Call → List Response × ExportManager
  | [] => ([], em)
  | call :: calls =>
    let (response, em') := handle em call
    (run em' calls).map (response :: ·) id

/-- The ids that a sequence of calls gives out. -/
def issued (em : ExportManager) (calls : List Call) : List UInt8 :=
  (run em calls).1.filterMap Response.issued

/-! ### What a call can do -/

/-- A call fails and changes nothing, adds an export under a new name and the next id, or removes
one. -/
lemma handle_cases (em : ExportManager) (call : Call) :
    ((handle em call).1.IsErr ∧ (handle em call).1.issued = none ∧ (handle em call).2 = em) ∨
    (∃ host name path readOnly canonical, call = .addExport host name path readOnly ∧
      em.exports[name]? = none ∧ em.nextExportId < 0xFE ∧
      host.canonicalize path = .ok canonical ∧ host.isDir canonical = true ∧
      handle em call = (.added (.ok ⟨em.nextExportId, name, canonical, readOnly⟩),
        ⟨em.exports.insert name ⟨⟨em.nextExportId, name, canonical, readOnly⟩,
            ⟨some em.nextExportId.toUInt64, canonical⟩⟩,
          em.exportById.insert em.nextExportId name, em.nextExportId + 1⟩)) ∨
    (∃ name state, call = .removeExport name ∧ em.exports[name]? = some state ∧
      handle em call = (.removed (.ok ()), { em with
        exports := em.exports.erase name
        exportById := em.exportById.erase state.info.exportId })) := by
  cases call with
  | addExport host name path readOnly =>
    simp only [handle, addExport]
    split_ifs with hname hnext
    · exact .inl ⟨trivial, rfl, rfl⟩
    · exact .inl ⟨trivial, rfl, rfl⟩
    · cases hcanon : host.canonicalize path with
      | error e => exact .inl ⟨trivial, rfl, rfl⟩
      | ok canonical =>
        dsimp only
        cases hdir : host.isDir canonical with
        | false => exact .inl ⟨trivial, rfl, rfl⟩
        | true =>
          have hnone : em.exports[name]? = none :=
            Std.HashMap.getElem?_eq_none_of_contains_eq_false (by simpa using hname)
          exact .inr (.inl ⟨host, name, path, readOnly, canonical, rfl, hnone,
            UInt8.not_le.1 hnext, hcanon, hdir, rfl⟩)
  | removeExport name =>
    simp only [handle, removeExport]
    cases hget : em.exports[name]? with
    | none => exact .inl ⟨trivial, rfl, rfl⟩
    | some state => exact .inr (.inr ⟨name, state, rfl, hget, rfl⟩)

/-! ### The invariant -/

/-- The maps are inverse to each other, entries are under their names with the file manager of their
ids, and the ids given out are below the next one. -/
structure Consistent (em : ExportManager) : Prop where
  inverse : Bimap.Inverse (fun s : ExportState => s.info.exportId) em.exports em.exportById
  name : ∀ (n : String) s, em.exports[n]? = some s → s.info.name = n
  fsid : ∀ (n : String) s, em.exports[n]? = some s →
    s.fileManager.fsid = some s.info.exportId.toUInt64
  lt : ∀ (n : String) s, em.exports[n]? = some s → s.info.exportId < em.nextExportId
  pos : 1 ≤ em.nextExportId
  next : em.nextExportId ≤ 0xFE

lemma consistent_new : Consistent ExportManager.new where
  inverse := .empty _
  name n s h := by simp [ExportManager.new] at h
  fsid n s h := by simp [ExportManager.new] at h
  lt n s h := by simp [ExportManager.new] at h
  pos := by decide
  next := by decide

/-- The next id goes up by one. -/
lemma toNat_next {i : UInt8} (h : i < 0xFE) : (i + 1).toNat = i.toNat + 1 := by
  have hlt : i.toNat < 254 := UInt8.lt_iff_toNat_lt.1 h
  rw [UInt8.toNat_add]
  exact Nat.mod_eq_of_lt (by simp; omega)

/-- A call keeps the tables consistent. -/
lemma Consistent.handle {em : ExportManager} (h : Consistent em) (call : Call) :
    Consistent (handle em call).2 := by
  obtain ⟨-, -, heq⟩ | ⟨host, name, path, ro, canonical, -, hnew, hlt, -, -, heq⟩ |
    ⟨name, state, -, hget, heq⟩ := handle_cases em call
  · rw [heq]
    exact h
  · rw [heq]
    have hup := toNat_next hlt
    refine ⟨h.inverse.insert hnew fun n s hs => ?_, fun n s hs => ?_, fun n s hs => ?_,
      fun n s hs => ?_, ?_, ?_⟩
    · exact UInt8.ne_of_lt (h.lt n s hs)
    · rw [Std.HashMap.getElem?_insert] at hs
      simp only [beq_iff_eq] at hs
      split_ifs at hs with hn
      · cases hs
        exact hn
      · exact h.name n s hs
    · rw [Std.HashMap.getElem?_insert] at hs
      simp only [beq_iff_eq] at hs
      split_ifs at hs with hn
      · cases hs
        rfl
      · exact h.fsid n s hs
    · rw [Std.HashMap.getElem?_insert] at hs
      simp only [beq_iff_eq] at hs
      rw [UInt8.lt_iff_toNat_lt, hup]
      split_ifs at hs with hn
      · cases hs
        exact Nat.lt_succ_self _
      · have := UInt8.lt_iff_toNat_lt.1 (h.lt n s hs)
        omega
    · rw [UInt8.le_iff_toNat_le, hup]
      simp
    · rw [UInt8.le_iff_toNat_le, hup]
      exact UInt8.lt_iff_toNat_lt.1 hlt
  · rw [heq]
    have hsub : ∀ (n : String) s, (em.exports.erase name)[n]? = some s →
        em.exports[n]? = some s := by
      intro n s hs
      simp only [Std.HashMap.getElem?_erase, beq_iff_eq] at hs
      split_ifs at hs
      exact hs
    exact ⟨h.inverse.erase hget, fun n s hs => h.name n s (hsub n s hs),
      fun n s hs => h.fsid n s (hsub n s hs), fun n s hs => h.lt n s (hsub n s hs), h.pos, h.next⟩

/-- Calls keep the tables consistent. -/
lemma Consistent.run {em : ExportManager} (h : Consistent em) (calls : List Call) :
    Consistent (run em calls).2 := by
  induction calls generalizing em with
  | nil => exact h
  | cons call calls ih => exact ih (h.handle call)

/-- A call never takes the next id back. -/
lemma next_le_handle (em : ExportManager) (call : Call) :
    em.nextExportId ≤ (handle em call).2.nextExportId := by
  obtain ⟨-, -, heq⟩ | ⟨host, name, path, ro, canonical, -, -, hlt, -, -, heq⟩ |
    ⟨name, state, -, -, heq⟩ := handle_cases em call
  · rw [heq]
    exact UInt8.le_refl _
  · rw [heq, UInt8.le_iff_toNat_le, toNat_next hlt]
    exact Nat.le_succ _
  · rw [heq]
    exact UInt8.le_refl _

/-- The id that a call gives out is the next one, which then goes up. -/
lemma of_issued {em : ExportManager} {call : Call} {i : UInt8}
    (h : (handle em call).1.issued = some i) :
    i = em.nextExportId ∧ i < 0xFE ∧ (handle em call).2.nextExportId = i + 1 := by
  obtain ⟨-, hnone, -⟩ | ⟨host, name, path, ro, canonical, -, -, hlt, -, -, heq⟩ |
    ⟨name, state, -, -, heq⟩ := handle_cases em call
  · rw [hnone] at h
    cases h
  · rw [heq] at h ⊢
    cases h
    exact ⟨rfl, hlt, rfl⟩
  · rw [heq] at h
    cases h

lemma issued_cons (em : ExportManager) (call : Call) (calls : List Call) :
    issued em (call :: calls) =
      (handle em call).1.issued.toList ++ issued (handle em call).2 calls := by
  simp only [issued, run, Prod.map_fst, List.filterMap_cons]
  cases (handle em call).1.issued <;> rfl

/-- The ids that calls give out go up from the next one. -/
lemma issued_increasing (em : ExportManager) (calls : List Call) :
    (issued em calls).Pairwise (· < ·) ∧
      ∀ i ∈ issued em calls, em.nextExportId ≤ i ∧ i < 0xFE := by
  induction calls generalizing em with
  | nil => exact ⟨.nil, fun i hi => absurd hi List.not_mem_nil⟩
  | cons call calls ih =>
    obtain ⟨hpair, hmem⟩ := ih (handle em call).2
    have hle := next_le_handle em call
    rw [issued_cons]
    cases hi : (handle em call).1.issued with
    | none => exact ⟨hpair, fun i h => ⟨UInt8.le_trans hle (hmem i h).1, (hmem i h).2⟩⟩
    | some i =>
      obtain ⟨rfl, hlt, hnext⟩ := of_issued hi
      have hup := toNat_next hlt
      refine ⟨List.pairwise_cons.2 ⟨fun j hj => ?_, hpair⟩, fun j hj => ?_⟩
      · have := UInt8.le_iff_toNat_le.1 (hmem j hj).1
        rw [hnext, hup] at this
        exact UInt8.lt_iff_toNat_lt.2 this
      · rcases List.mem_cons.1 hj with rfl | hj
        · exact ⟨UInt8.le_refl _, hlt⟩
        · exact ⟨UInt8.le_trans hle (hmem j hj).1, (hmem j hj).2⟩

/-- **The export table invariant.** After any calls the two maps are inverse to each other, the ids
given out are all different, none of them reserved, and a further call that fails changes nothing.

**Proof sketch.** The maps agree by the invariant `Consistent`: the id of a new entry is the next
one, which no entry has, and an entry is removed under its own id. The ids given out go up, since
the next id does and is never taken back. -/
theorem tables_agree_and_ids_never_reissued (calls : List Call) :
    let em := (run ExportManager.new calls).2
    (∀ (i : UInt8) (n : String), em.exportById[i]? = some n ↔
        ∃ s, em.exports[n]? = some s ∧ s.info.exportId = i) ∧
      (∀ i ∈ issued ExportManager.new calls, 1 ≤ i ∧ i ≤ 0xFD) ∧
      (issued ExportManager.new calls).Nodup ∧
      (∀ call, (handle em call).1.IsErr → (handle em call).2 = em) := by
  intro em
  obtain ⟨hpair, hmem⟩ := issued_increasing ExportManager.new calls
  refine ⟨(consistent_new.run calls).inverse, fun i hi => ⟨(hmem i hi).1, ?_⟩,
    hpair.imp fun h => UInt8.ne_of_lt h, fun call herr => ?_⟩
  · exact UInt8.le_iff_toNat_le.2
      (Nat.le_of_lt_succ (UInt8.lt_iff_toNat_lt.1 (hmem i hi).2))
  · obtain ⟨-, -, heq⟩ | ⟨host, name, path, ro, canonical, -, -, -, -, -, heq⟩ |
      ⟨name, state, -, -, heq⟩ := handle_cases em call
    · exact heq
    · rw [heq] at herr
      exact herr.elim
    · rw [heq] at herr
      exact herr.elim

/-- An export is found by its id exactly when it is found by its name. -/
lemma Consistent.getExportById_eq_some {em : ExportManager} (h : Consistent em) {i : UInt8}
    {info : ExportInfo} {fm : FileManagerHandle} :
    getExportById i em = some (info, fm) ↔
      getExportByName info.name em = some (info, fm) ∧ info.exportId = i := by
  simp only [getExportById, getExportByName, Option.bind_eq_some_iff, Option.map_eq_some_iff,
    Prod.mk.injEq]
  constructor
  · rintro ⟨n, hn, s, hs, rfl, rfl⟩
    obtain ⟨s', hs', hi⟩ := (h.inverse i n).1 hn
    rw [hs] at hs'
    cases hs'
    rw [h.name n s hs]
    exact ⟨⟨s, hs, rfl, rfl⟩, hi⟩
  · rintro ⟨⟨s, hs, rfl, rfl⟩, hi⟩
    exact ⟨s.info.name, (h.inverse i _).2 ⟨s, hs, hi⟩, s, hs, rfl, rfl⟩

/-! ### What connections see -/

/-- The message that a call is to a connection. -/
def Call.message : Call → Dispatcher.ExportManager.Message
  | .addExport host name path _ =>
    .addExport name (match host.canonicalize path with
      | .ok canonical => host.isDir canonical
      | .error _ => false)
  | .removeExport name => .removeExport name

/-- The exports that connections see are the entries of the table. -/
structure Abstracts (em : ExportManager) (seen : Dispatcher.ExportManager) : Prop where
  next : seen.nextExportId = em.nextExportId
  entries : ∀ n i, (n, i) ∈ seen.exports ↔ ∃ s, em.exports[n]? = some s ∧ s.info.exportId = i

lemma abstracts_new : Abstracts ExportManager.new Dispatcher.ExportManager.new where
  next := rfl
  entries n i := by simp [ExportManager.new, Dispatcher.ExportManager.new]

namespace Abstracts

variable {em : ExportManager} {seen : Dispatcher.ExportManager}

/-- A name is taken in the table exactly when connections see it. -/
lemma any_name (h : Abstracts em seen) (name : String) :
    seen.exports.any (·.1 == name) = em.exports.contains name := by
  rw [Bool.eq_iff_iff, List.any_eq_true, Std.HashMap.contains_eq_isSome_getElem?,
    Option.isSome_iff_exists]
  constructor
  · rintro ⟨⟨n, i⟩, hmem, hn⟩
    obtain ⟨s, hs, -⟩ := (h.entries n i).1 hmem
    rw [← eq_of_beq hn]
    exact ⟨s, hs⟩
  · rintro ⟨s, hs⟩
    exact ⟨(name, s.info.exportId), (h.entries _ _).2 ⟨s, hs, rfl⟩, beq_self_eq_true _⟩

/-- A call acts on the table as its message does on what connections see. -/
lemma handle (h : Abstracts em seen) (call : Call) :
    Abstracts (handle em call).2 (seen.handleMessage call.message) := by
  cases call with
  | addExport host name path readOnly =>
    simp only [ExportTable.handle, addExport, Call.message,
      Dispatcher.ExportManager.handleMessage, Dispatcher.ExportManager.addExport, h.any_name, h.next]
    split_ifs with hname hnext hdir
    · exact h
    · exact h
    · cases hcanon : host.canonicalize path with
      | error e => exact h
      | ok canonical =>
        simp only [hcanon] at hdir
        simp only [hdir, if_true]
        exact h
    · cases hcanon : host.canonicalize path with
      | error e => simp [hcanon] at hdir
      | ok canonical =>
        simp only [hcanon] at hdir
        simp only [hdir]
        refine ⟨rfl, fun n i => ?_⟩
        simp only [Option.getD_some, List.mem_append, List.mem_singleton, h.entries, Prod.map_snd,
          id_eq, Std.HashMap.getElem?_insert, beq_iff_eq, Bool.false_eq_true, if_false]
        by_cases hn : name = n
        · subst hn
          have hnone : em.exports[name]? = none :=
            Std.HashMap.getElem?_eq_none_of_contains_eq_false (by simpa using hname)
          simp [hnone, eq_comm]
        · simp [hn, Ne.symm hn]
  | removeExport name =>
    simp only [ExportTable.handle, removeExport, Call.message,
      Dispatcher.ExportManager.handleMessage, Dispatcher.ExportManager.removeExport, h.any_name,
      Std.HashMap.contains_eq_isSome_getElem?]
    cases hget : em.exports[name]? with
    | none => exact h
    | some state =>
      refine ⟨h.next, fun n i => ?_⟩
      simp only [Option.isSome_some, if_true, Option.getD_some, List.mem_filter, h.entries,
        Prod.map_snd, id_eq, Std.HashMap.getElem?_erase, beq_iff_eq]
      by_cases hn : name = n
      · simp [hn]
      · simp [hn, Ne.symm hn]

/-- Calls act on the table as their messages do on what connections see. -/
lemma run (h : Abstracts em seen) (calls : List Call) :
    Abstracts (run em calls).2 ((calls.map Call.message).foldl
      Dispatcher.ExportManager.handleMessage seen) := by
  induction calls generalizing em seen with
  | nil => exact h
  | cons call calls ih => exact ih (h.handle call)

/-- An export is found by its id in the table exactly when connections find it. -/
lemma getExportById (h : Abstracts em seen) (hem : Consistent em) (i : UInt8) :
    (getExportById i em).isSome = seen.getExportById i := by
  rw [Bool.eq_iff_iff, Option.isSome_iff_exists, Dispatcher.ExportManager.getExportById,
    List.contains_iff_mem, Dispatcher.ExportManager.listExports, List.mem_map]
  constructor
  · rintro ⟨⟨info, fm⟩, hfound⟩
    obtain ⟨hname, hid⟩ := hem.getExportById_eq_some.1 hfound
    obtain ⟨s, hs, heq⟩ := Option.map_eq_some_iff.1 hname
    cases heq
    exact ⟨(_, i), (h.entries _ _).2 ⟨s, hs, hid⟩, rfl⟩
  · rintro ⟨⟨n, j⟩, hmem, rfl⟩
    obtain ⟨s, hs, hid⟩ := (h.entries _ _).1 hmem
    refine ⟨(s.info, s.fileManager), hem.getExportById_eq_some.2 ⟨?_, hid⟩⟩
    rw [getExportByName, hem.name n s hs, hs]
    rfl

end Abstracts

/-- What connections see of the tables after any calls is a state of the export manager they ask. -/
lemma exists_reachable (calls : List Call) : ∃ seen : Dispatcher.ExportManager,
    seen.Reachable ∧ Abstracts (run ExportManager.new calls).2 seen :=
  ⟨_, ⟨calls.map Call.message, rfl⟩, abstracts_new.run calls⟩

end NextNfs.ExportTable
