import NextNfs.Server.Placement

set_option relaxedAutoImplicit false
set_option autoImplicit false

/-!
# The export manager

This module models `ExportManager` of `export_manager.rs` with the messages that add and remove
exports, and the runs of a connection beside an administration that sends such messages at any time.

## Main definitions

* `NextNfs.Dispatcher.ExportManager`, `NextNfs.Dispatcher.ExportManager.handleMessage`.
* `NextNfs.Dispatcher.Beside` — a run of a connection beside the export manager.
* `NextNfs.Dispatcher.Stamps` — the file managers give out filehandles of their exports.

## Main results

* `NextNfs.Dispatcher.ExportManager.Reachable.ne_pseudoRoot` — the number of an export is not that
  of the root that lists the exports.
-/

namespace NextNfs.Dispatcher

open Wire Dialogue

/-- A question and its answer. -/
abbrev Event := Σ q : Question, q.Answer

/-- `ExportManager`: the exports with their names and numbers, and the next number. -/
structure ExportManager where
  exports : List (String × UInt8)
  nextExportId : UInt8

namespace ExportManager

/-- `ExportManager::new`. -/
def new : ExportManager := ⟨[], 1⟩

/-- `add_export`, for a path that is a directory or not. -/
def addExport (name : String) (isDir : Bool) (em : ExportManager) : Option ExportManager :=
  if em.exports.any (·.1 == name) then none
  else if em.nextExportId ≥ 0xFE then none
  else if !isDir then none
  else some ⟨em.exports ++ [(name, em.nextExportId)], em.nextExportId + 1⟩

/-- `remove_export`. -/
def removeExport (name : String) (em : ExportManager) : Option ExportManager :=
  if em.exports.any (·.1 == name) then some { em with exports := em.exports.filter (·.1 != name) }
  else none

/-- The messages that add and remove exports. -/
inductive Message
  | addExport (name : String) (isDir : Bool)
  | removeExport (name : String)

/-- `handle_message`: a message that fails changes nothing. -/
def handleMessage (em : ExportManager) : Message → ExportManager
  | .addExport name isDir => (em.addExport name isDir).getD em
  | .removeExport name => (em.removeExport name).getD em

/-- `list_exports`, in some order. -/
def listExports (em : ExportManager) : List UInt8 := em.exports.map Prod.snd

/-- `get_export_by_id`: the export is there. -/
def getExportById (em : ExportManager) (id : UInt8) : Bool := em.listExports.contains id

/-- `get_export_by_name`. -/
def getExportByName (em : ExportManager) (name : String) : Option UInt8 :=
  (em.exports.find? (·.1 == name)).map Prod.snd

/-- Messages lead from one state to another. -/
def Evolves (em em' : ExportManager) : Prop :=
  ∃ msgs : List Message, em' = msgs.foldl handleMessage em

/-- The states of an export manager. -/
def Reachable (em : ExportManager) : Prop := new.Evolves em

/-- The numbers that are given out stay below the next one, which stays below 255. -/
structure Numbered (em : ExportManager) : Prop where
  lt : ∀ x ∈ em.exports, x.2 < em.nextExportId
  next : em.nextExportId ≤ 0xFE

/-- A message keeps the numbers in their range. -/
lemma Numbered.handleMessage {em : ExportManager} (h : em.Numbered) (msg : Message) :
    (em.handleMessage msg).Numbered := by
  cases msg with
  | addExport name isDir =>
    simp only [ExportManager.handleMessage, addExport]
    split_ifs with hname hnext hdir
    · exact h
    · exact h
    · exact h
    · have hlt : em.nextExportId.toNat < 254 := by
        simpa [UInt8.lt_iff_toNat_lt] using hnext
      have hadd : (em.nextExportId + 1).toNat = em.nextExportId.toNat + 1 := by
        rw [UInt8.toNat_add]
        exact Nat.mod_eq_of_lt (by simp; omega)
      refine ⟨fun x hx => ?_, ?_⟩
      · rw [UInt8.lt_iff_toNat_lt]
        simp only [Option.getD_some] at hx ⊢
        rw [hadd]
        rcases List.mem_append.1 hx with hx | hx
        · have := UInt8.lt_iff_toNat_lt.1 (h.lt x hx)
          omega
        · rw [List.mem_singleton.1 hx]
          exact Nat.lt_succ_self _
      · rw [UInt8.le_iff_toNat_le]
        simp only [Option.getD_some]
        rw [hadd]
        exact hlt
  | removeExport name =>
    simp only [ExportManager.handleMessage, removeExport]
    split_ifs
    · exact ⟨fun x hx => h.lt x (List.mem_filter.1 hx).1, h.next⟩
    · exact h

/-- Messages keep the numbers in their range. -/
lemma Numbered.evolves {em em' : ExportManager} (h : em.Numbered) (hev : em.Evolves em') :
    em'.Numbered := by
  obtain ⟨msgs, rfl⟩ := hev
  induction msgs generalizing em with
  | nil => exact h
  | cons msg rest ih => exact ih (h.handleMessage msg)

/-- The numbers of exports are in their range. -/
lemma Reachable.numbered {em : ExportManager} (h : em.Reachable) : em.Numbered :=
  Numbered.evolves ⟨by simp [new], by decide⟩ h

/-- The number of an export is not that of the root that lists the exports. -/
lemma Reachable.ne_pseudoRoot {em : ExportManager} (h : em.Reachable) {e : UInt8}
    (he : e ∈ em.listExports) : e ≠ pseudoRootExportId := by
  obtain ⟨x, hx, rfl⟩ := List.mem_map.1 he
  have hlt := UInt8.lt_iff_toNat_lt.1 (h.numbered.lt x hx)
  have hnext := UInt8.le_iff_toNat_le.1 h.numbered.next
  intro heq
  rw [heq] at hlt
  have : (255 : ℕ) < 254 := lt_of_lt_of_le hlt hnext
  omega

lemma Reachable.evolves {em em' : ExportManager} (h : em.Reachable) (hev : em.Evolves em') :
    em'.Reachable := by
  obtain ⟨msgs, rfl⟩ := h
  obtain ⟨msgs', rfl⟩ := hev
  exact ⟨msgs ++ msgs', by rw [List.foldl_append]⟩

/-- The export found by a name is listed. -/
lemma mem_listExports_of_name {em : ExportManager} {name : String} {e : UInt8}
    (h : em.getExportByName name = some e) : e ∈ em.listExports := by
  obtain ⟨x, hx, rfl⟩ := Option.map_eq_some_iff.1 h
  exact List.mem_map.2 ⟨x, List.mem_of_find?_eq_some hx, rfl⟩

/-- The answers of the export manager. -/
def Answers (em : ExportManager) : (q : Question) → q.Answer → Prop
  | .listExports, l => l.Perm em.listExports
  | .getExportById e _, known => known = em.getExportById e
  | .getExportByName name, found => found = em.getExportByName name
  | _, _ => True

end ExportManager

/-- A run of a connection beside the export manager, which is in some state when each question is
asked, and gets any messages between two questions. The file manager that requests start with is
that of an export. -/
structure Beside (c : Connection) (h : List Event) (em : ℕ → ExportManager) : Prop where
  default : ∀ e, c.defaultFmanager = some e → ∃ em₀ : ExportManager, em₀.Reachable ∧
    e ∈ em₀.listExports
  start : (em 0).Reachable
  evolves : ∀ i, (em i).Evolves (em (i + 1))
  answers : ∀ (i : ℕ) (x : Event), h[i]? = some x → (em i).Answers x.1 x.2

/-- The file manager of an export gives out filehandles of the export. -/
def Stamps (h : List Event) : Prop :=
  ∀ e (call : Call) a fh, (⟨.on (some e) call, a⟩ : Event) ∈ h → call.Gives a fh →
    exportIdFromFh fh.id = e ∧ fh.vfs = some e

namespace Beside

variable {c : Connection} {h : List Event} {em : ℕ → ExportManager}

lemma reachable (hb : Beside c h em) (i : ℕ) : (em i).Reachable := by
  induction i with
  | zero => exact hb.start
  | succ i ih => exact ih.evolves (hb.evolves i)

lemma default_ne (hb : Beside c h em) : c.defaultFmanager ≠ some pseudoRootExportId := by
  intro heq
  obtain ⟨em₀, hem₀, he⟩ := hb.default _ heq
  exact hem₀.ne_pseudoRoot he rfl

lemma listed_ne (hb : Beside c h em) {l : List UInt8} (hl : (⟨.listExports, l⟩ : Event) ∈ h)
    {e : UInt8} (he : e ∈ l) : e ≠ pseudoRootExportId := by
  obtain ⟨i, hi⟩ := List.mem_iff_getElem?.1 hl
  have hperm : l.Perm (em i).listExports := hb.answers i _ hi
  exact (hb.reachable i).ne_pseudoRoot (hperm.mem_iff.1 he)

lemma named_ne (hb : Beside c h em) {name : String} {e : UInt8}
    (hl : (⟨.getExportByName name, some e⟩ : Event) ∈ h) : e ≠ pseudoRootExportId := by
  obtain ⟨i, hi⟩ := List.mem_iff_getElem?.1 hl
  have hname : some e = (em i).getExportByName name := hb.answers i _ hi
  exact (hb.reachable i).ne_pseudoRoot (ExportManager.mem_listExports_of_name hname.symm)

end Beside

/-! ### A server to try things on -/

/-- A server whose exports are all writable and open to everyone. -/
def openServer : Server where
  exports := fun _ => ⟨"share", false, ⟨fun _ => true, .none, 0, 0, []⟩⟩
  join := fun _ _ => none
  pseudoRootGetattr := fun _ _ => ⟨[], []⟩
  exportEntryAttrs := fun _ _ => ⟨[], []⟩

/-- A connection that was accepted before there was an export. -/
def earlyConnection : Connection := ⟨"10.0.0.1", none, 0⟩

/-- The id of a file in an export. -/
def fileId (e : UInt8) : NfsFh4 := ⟨0x01 :: e :: List.replicate 24 0, rfl⟩

/-- The filehandle of a file in an export. -/
def fileHandle (e : UInt8) : Handle :=
  { Filehandle.pseudoRoot 0 (fileId e) with vfs := some e, writeCache := false }

/-- A call with some operations. -/
def callOf (args : List NfsArgOp) : CallBody :=
  ⟨2, 100003, 4, 1, .authNull [], .authNull [], some ⟨"", 0, args⟩, none⟩

/-- The answers of exports that have one file each. -/
def sampleAnswers (em : ℕ → ExportManager) (n : ℕ) : (q : Question) → q.Answer
  | .listExports => (em n).listExports
  | .getExportById e _ => (em n).getExportById e
  | .getExportByName name => (em n).getExportByName name
  | .on (some e) (.getFilehandleForId _) | .on (some e) .getRootFilehandle
  | .on (some e) (.getFilehandleForPath _) => .ok (fileHandle e)
  | .on _ (.permitted ..) => .ok ()
  | .on _ (.pathExists _) | .tryConsume .. | .checkWrite .. => true
  | q => q.idle

/-- An export that stays. -/
def steadyExport (_ : ℕ) : ExportManager := ⟨[("share", 1)], 2⟩

/-- A run beside the export manager, from what is answered. -/
lemma beside_run {em : ℕ → ExportManager} {c : Connection} {α : Type}
    {f : ℕ → (q : Question) → q.Answer} (p : Op α) (hanswers : ∀ i q, (em i).Answers q (f i q))
    (hdefault : ∀ e, c.defaultFmanager = some e → e ∈ (em 0).listExports) (hstart : (em 0).Reachable)
    (hevolves : ∀ i, (em i).Evolves (em (i + 1))) : Beside c (p.run f 0).1 em := by
  refine ⟨fun e he => ⟨em 0, hstart, hdefault e he⟩, hstart, hevolves, fun i x hx => ?_⟩
  obtain ⟨q, a⟩ := x
  have ha : a = f i q := by simpa using Prog.answer_of_run hx
  subst ha
  exact hanswers i q

/-- A run in which filehandles are stamped, from what is answered. -/
lemma stamps_run {α : Type} {f : ℕ → (q : Question) → q.Answer} (p : Op α)
    (hgives : ∀ i e (call : Call) fh, call.Gives (f i (.on (some e) call)) fh →
      exportIdFromFh fh.id = e ∧ fh.vfs = some e) : Stamps (p.run f 0).1 := by
  intro e call a fh hmem hgives'
  obtain ⟨i, hi⟩ := List.mem_iff_getElem?.1 hmem
  have ha : a = f i (.on (some e) call) := by simpa using Prog.answer_of_run hi
  subst ha
  exact hgives i e call fh hgives'

lemma sampleAnswers_answers (em : ℕ → ExportManager) (i : ℕ) (q : Question) :
    (em i).Answers q (sampleAnswers em i q) := by
  cases q with
  | listExports => exact .refl _
  | getExportById e ctx => rfl
  | getExportByName name => rfl
  | _ => trivial

lemma beside_sample {em : ℕ → ExportManager} {c : Connection} {α : Type} (p : Op α)
    (hdefault : ∀ e, c.defaultFmanager = some e → e ∈ (em 0).listExports) (hstart : (em 0).Reachable)
    (hevolves : ∀ i, (em i).Evolves (em (i + 1))) :
    Beside c (p.run (sampleAnswers em) 0).1 em :=
  beside_run p (sampleAnswers_answers em) hdefault hstart hevolves

lemma stamps_sample {α : Type} (em : ℕ → ExportManager) (p : Op α) :
    Stamps (p.run (sampleAnswers em) 0).1 := by
  refine stamps_run p fun i e call fh hgives => ?_
  cases call with
  | getRootFilehandle | getFilehandleForId | getFilehandleForPath =>
    cases hgives
    exact ⟨rfl, rfl⟩
  | createFile | openNamedAttrDir => cases hgives
  | _ => exact absurd hgives id

end NextNfs.Dispatcher
