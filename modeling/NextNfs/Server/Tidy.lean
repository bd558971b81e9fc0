import Mathlib.Logic.Relation
import NextNfs.Server.FileManager

set_option relaxedAutoImplicit false
set_option autoImplicit false

/-!
# What lookups do to the records

Every message to the file manager looks records up, and a lookup is not just a lookup: it evicts
a record whose path is gone, follows the inode to another path, or makes a record for a path
that has none. This module says once what these changes are, so that an invariant of the records
need only be checked against them.

## Main definitions

* `NextNfs.FileManager.Tidy` — one change that a lookup makes, and `NextNfs.FileManager.Tidies`.
* `NextNfs.FileManager.Kept` — a path has a record that lookups keep.
* `NextNfs.FileManager.idFor` — the id that a path without a record gets.

## Main results

* `NextNfs.FileManager.Tidies.keeps` — what every such change keeps, lookups keep.
* `NextNfs.FileManager.getFilehandle_spec` and its siblings — the lookups make no other changes,
  and what they answer.
-/

namespace NextNfs.FileManager

variable {F : Type} [FileSystem F]

/-! ### The changes -/

/-- A change that a lookup makes: a record whose path is gone is evicted, or recovered under
another path; a record is made anew; a path without a record gets one, under an id that `P`
allows. -/
inductive Tidy (P : VfsPath → NfsFh4 → Prop) (fm : FileManager F) : FileManager F → Prop
  | count (n : ℕ) : Tidy P fm { fm with nextFhId := n }
  | evict {e : Filehandle} (hmem : e ∈ fm.fhdb) (hgone : pathExists fm.fs e.file = false)
      (hheld : fm.isHeld e.id = false) : Tidy P fm (fm.removeById e.id)
  | refresh {e fh : Filehandle} (hmem : e ∈ fm.fhdb) (hid : fh.id = e.id)
      (hfile : fh.file = e.file) : Tidy P fm (fm.fhdbReplace fh)
  | recover {e fh : Filehandle} {m : RealMeta} (hmem : e ∈ fm.fhdb)
      (hgone : pathExists fm.fs e.file = false) (hheld : fm.isHeld e.id = false)
      (hinode : InodeBased e.id) (hid : fh.id = e.id) (hmeta : lstat fm.fs fh.file = some m)
      (hino : m.ino = (objectOf e.id).2) : Tidy P fm (fm.fhdbReplace fh)
  | register {fh : Filehandle} {m : RealMeta} (hP : P fh.file fh.id)
      (hnew : ∀ e ∈ fm.fhdb, e.file ≠ fh.file) (hmeta : lstat fm.fs fh.file = some m)
      (hid : fh.id = inodeId fm.exportId m.object) : Tidy P fm (fm.fhdbReplace fh)
  | registerVolatile {fh : Filehandle} {seq : ℕ} (hP : P fh.file fh.id)
      (hnew : ∀ e ∈ fm.fhdb, e.file ≠ fh.file)
      (hid : fh.id = volatileId fm.exportId fm.bootTime seq) : Tidy P fm (fm.fhdbReplace fh)

/-- Any number of such changes. -/
abbrev Tidies (P : VfsPath → NfsFh4 → Prop) : FileManager F → FileManager F → Prop :=
  Relation.ReflTransGen (Tidy P)

/-- Two states differ in the table of records only. -/
structure SameWorld (fm fm' : FileManager F) : Prop where
  fs : fm'.fs = fm.fs
  now : fm'.now = fm.now
  exportId : fm'.exportId = fm.exportId
  bootTime : fm'.bootTime = fm.bootTime
  locks : fm'.locks = fm.locks
  pendingDeletes : fm'.pendingDeletes = fm.pendingDeletes

/-- A record of the table has the id and the file of this one. -/
def Knows (fm : FileManager F) (fh : Filehandle) : Prop :=
  ∃ e ∈ fm.fhdb, e.id = fh.id ∧ e.file = fh.file

/-- A path has a record that lookups keep. -/
def Kept (fm : FileManager F) (file : VfsPath) : Prop :=
  ∃ e ∈ fm.fhdb, e.file = file ∧ (pathExists fm.fs file = true ∨ fm.isHeld e.id = true)

/-- The id that a path without a record gets. -/
def idFor (fm : FileManager F) (file : VfsPath) : NfsFh4 :=
  match lstat fm.fs file with
  | some m => inodeId fm.exportId m.object
  | none => volatileId fm.exportId fm.bootTime fm.nextFhId

section Tidies

variable {P Q : VfsPath → NfsFh4 → Prop} {fm fm' : FileManager F}

omit [FileSystem F] in
lemma SameWorld.refl (fm : FileManager F) : SameWorld fm fm := ⟨rfl, rfl, rfl, rfl, rfl, rfl⟩

omit [FileSystem F] in
lemma SameWorld.trans {fm₁ fm₂ : FileManager F} (h₁ : SameWorld fm fm₁) (h₂ : SameWorld fm₁ fm₂) :
    SameWorld fm fm₂ :=
  ⟨h₂.fs.trans h₁.fs, h₂.now.trans h₁.now, h₂.exportId.trans h₁.exportId,
    h₂.bootTime.trans h₁.bootTime, h₂.locks.trans h₁.locks, h₂.pendingDeletes.trans h₁.pendingDeletes⟩

lemma Tidy.sameWorld (h : Tidy P fm fm') : SameWorld fm fm' := by
  cases h <;> exact ⟨rfl, rfl, rfl, rfl, rfl, rfl⟩

/-- Lookups change nothing but the table. -/
lemma Tidies.sameWorld (h : Tidies P fm fm') : SameWorld fm fm' := by
  induction h with
  | refl => exact .refl _
  | tail _ hstep ih => exact ih.trans hstep.sameWorld

/-- What every such change keeps, lookups keep. -/
lemma Tidies.keeps {I : FileManager F → Prop} (hstep : ∀ a b, I a → Tidy P a b → I b)
    (h : Tidies P fm fm') (hI : I fm) : I fm' := by
  induction h with
  | refl => exact hI
  | tail _ hlast ih => exact hstep _ _ ih hlast

end Tidies

/-! ### Reading the table -/

section Reading

variable {fm : FileManager F} {fh : Filehandle} {id : NfsFh4} {path : String}

omit [FileSystem F] in
lemma of_getById (h : fm.getById id = some fh) : fh ∈ fm.fhdb ∧ fh.id = id := by
  obtain ⟨hmem, hid⟩ := Table.of_find?_eq_some h
  exact ⟨hmem, by simpa using hid⟩

omit [FileSystem F] in
lemma getById_of_mem (h : fh ∈ fm.fhdb) : fm.getById fh.id = some fh := by
  cases hget : fm.getById fh.id with
  | none =>
    have := Table.find?_eq_none.1 hget fh h
    simp at this
  | some e =>
    obtain ⟨hmem, hid⟩ := of_getById hget
    rw [eq_of_id_eq hmem h hid]

omit [FileSystem F] in
lemma of_getByPath (h : fm.getByPath path = some fh) : fh ∈ fm.fhdb ∧ fh.path = path := by
  obtain ⟨hmem, hpath⟩ := Table.of_find?_eq_some h
  exact ⟨hmem, by simpa using hpath⟩

omit [FileSystem F] in
/-- Two records for one file are the same. -/
lemma eq_of_file_eq {e : Filehandle} (he : e ∈ fm.fhdb) (hfh : fh ∈ fm.fhdb)
    (h : e.file = fh.file) : e = fh :=
  Table.eq_of_clash clash_symm he hfh (by simp [Filehandle.path, h])

omit [FileSystem F] in
lemma getByPath_of_mem (h : fh ∈ fm.fhdb) : fm.getByPath fh.path = some fh := by
  cases hget : fm.getByPath fh.path with
  | none =>
    have := Table.find?_eq_none.1 hget fh h
    simp at this
  | some e =>
    obtain ⟨hmem, hpath⟩ := of_getByPath hget
    rw [eq_of_file_eq hmem h (pathStr_injective hpath)]

omit [FileSystem F] in
/-- A record that is put in place of others takes the place of that of its id. -/
lemma removeById_fhdbReplace (fm : FileManager F) (hid : fh.id = id) :
    (fm.removeById id).fhdbReplace fh = fm.fhdbReplace fh := by
  subst hid
  have herase : ((fm.fhdb.erase fun e => e.id == fh.id).erase fun e => e.id == fh.id) =
      fm.fhdb.erase fun e => e.id == fh.id := by
    simp only [Table.erase, List.filter_filter, Bool.and_self]
  unfold fhdbReplace removeById
  rw [herase]

end Reading

/-! ### The lookups -/

section Lookups

variable {P : VfsPath → NfsFh4 → Prop} {fm fm' : FileManager F} {e fh : Filehandle} {id : NfsFh4}
  {file : VfsPath} {path : String} {o : Option Filehandle}

/-- `get_filehandle_by_path` tidies up, and answers with the record of the path. -/
lemma getFilehandleByPath_spec (h : fm.getFilehandleByPath path = (fm', o)) :
    Tidies P fm fm' ∧
      (∀ fh, o = some fh → fm' = fm ∧ fh ∈ fm.fhdb ∧ fh.path = path ∧
        (pathExists fm.fs fh.file = true ∨ fm.isHeld fh.id = true)) ∧
      (o = none → fm'.nextFhId = fm.nextFhId ∧ ∀ e ∈ fm'.fhdb, e ∈ fm.fhdb ∧ e.path ≠ path) := by
  unfold getFilehandleByPath at h
  cases hget : fm.getByPath path with
  | none =>
    rw [hget] at h
    cases h
    refine ⟨.refl, fun _ ho => (nomatch ho), fun _ => ⟨rfl, fun e he => ⟨he, fun hpath => ?_⟩⟩⟩
    have := Table.find?_eq_none.1 hget e he
    simp [hpath] at this
  | some old =>
    obtain ⟨hmem, hpath⟩ := of_getByPath hget
    simp only [hget] at h
    split_ifs at h with hexists hheld
    · cases h
      refine ⟨.refl, fun fh hfh => ?_, nofun⟩
      cases hfh
      exact ⟨rfl, hmem, hpath, Or.inl hexists⟩
    · cases h
      refine ⟨.refl, fun fh hfh => ?_, nofun⟩
      cases hfh
      exact ⟨rfl, hmem, hpath, Or.inr hheld⟩
    · cases h
      refine ⟨.single (.evict hmem (by simpa using hexists) (by simpa using hheld)),
        fun _ ho => (nomatch ho), fun _ => ⟨rfl, ?_⟩⟩
      intro e he
      obtain ⟨he, hne⟩ := mem_removeById.1 he
      refine ⟨he, fun heq => hne (congrArg Filehandle.id ?_)⟩
      exact eq_of_file_eq he hmem (pathStr_injective (heq.trans hpath.symm))

/-- A record that is put in the place of one with its id and file is that record made anew. -/
lemma tidy_of_knows (h : fm.Knows fh) : Tidy P fm (fm.fhdbReplace fh) := by
  obtain ⟨e, hmem, hid, hfile⟩ := h
  exact .refresh hmem hid.symm hfile.symm

/-- `touch_filehandle` makes a record anew. -/
lemma touchFilehandle_spec (h : fm.Knows fh) : Tidy P fm (fm.touchFilehandle fh) := by
  rw [touchFilehandle, removeById_fhdbReplace _ (by simp [makeFilehandle])]
  obtain ⟨e, hmem, hid, hfile⟩ := h
  exact tidy_of_knows ⟨e, hmem, by simp [makeFilehandle, hid], by simp [makeFilehandle, hfile]⟩

/-- `update_filehandle` makes a record anew. -/
lemma updateFilehandle_spec (h : fm.Knows fh) : Tidy P fm (fm.updateFilehandle fh) := by
  rw [updateFilehandle, removeById_fhdbReplace _ rfl]
  exact tidy_of_knows h

/-- Touching the record of a directory tidies up. -/
lemma touchPath_spec (fm : FileManager F) (dir : VfsPath) : Tidies P fm (fm.touchPath dir) := by
  unfold touchPath
  rcases hget : fm.getFilehandleByPath (pathStr dir) with ⟨fm', _ | fh⟩
  · exact (getFilehandleByPath_spec hget).1
  · obtain ⟨htidies, hsome, -⟩ := getFilehandleByPath_spec (P := P) hget
    obtain ⟨rfl, hmem, -⟩ := hsome fh rfl
    exact htidies.tail (touchFilehandle_spec ⟨fh, hmem, rfl, rfl⟩)

/-- A path whose record is kept is answered with that record. -/
lemma getFilehandle_of_mem (hmem : e ∈ fm.fhdb)
    (hkept : pathExists fm.fs e.file = true ∨ fm.isHeld e.id = true) :
    fm.getFilehandle e.file = (fm, e) := by
  have hpath : fm.getFilehandleByPath (pathStr e.file) = (fm, some e) := by
    unfold getFilehandleByPath
    rw [show pathStr e.file = e.path from rfl, getByPath_of_mem hmem]
    rcases hkept with hexists | hheld
    · simp [hexists]
    · simp [hheld]
  have hid : fm.getFilehandleById e.id = (fm, some e) := by
    unfold getFilehandleById
    rw [getById_of_mem hmem]
    refine if_pos ?_
    simp only [isHeld, Bool.or_eq_true] at hkept ⊢
    tauto
  unfold getFilehandle getFilehandleId
  simp only [hpath, hid, Filehandle.path, if_true]

variable [LawfulFileSystem F]

/-- The path found for an inode number names an object with it. -/
lemma lstat_of_findByInodeInParent {ino : UInt64} {newPath : VfsPath}
    (h : fm.findByInodeInParent fh ino = some newPath) :
    ∃ m, lstat fm.fs newPath = some m ∧ m.ino = ino := by
  unfold findByInodeInParent at h
  obtain ⟨entries, hentries, hfind⟩ := Option.bind_eq_some_iff.1 h
  obtain ⟨⟨name, m⟩, hfound, hjoin⟩ := Option.bind_eq_some_iff.1 hfind
  obtain ⟨hplain, hmeta⟩ :=
    LawfulFileSystem.lstat_of_readDir hentries (List.mem_of_find?_eq_some hfound)
  rw [fsJoin_of_plainName hplain] at hjoin
  cases hjoin
  exact ⟨m, hmeta, by simpa using List.find?_some hfound⟩

/-- `get_filehandle_by_id` tidies up, and answers with the record of the id. -/
lemma getFilehandleById_spec (h : fm.getFilehandleById id = (fm', o)) :
    Tidies P fm fm' ∧ (∀ e ∈ fm'.fhdb, e ∈ fm.fhdb ∨ o = some e) ∧
      ∀ fh, o = some fh → fh ∈ fm'.fhdb ∧ fh.id = id ∧
        (pathExists fm.fs fh.file = true ∨ fm.isHeld id = true) := by
  unfold getFilehandleById at h
  cases hget : fm.getById id with
  | none =>
    rw [hget] at h
    cases h
    exact ⟨.refl, fun e he => Or.inl he, fun _ ho => nomatch ho⟩
  | some old =>
    obtain ⟨hmem, hid⟩ := of_getById hget
    simp only [hget] at h
    by_cases hkeep : (fm.pendingDeletes.contains id || pathExists fm.fs old.file ||
        fm.locks.hasLocks id) = true
    · rw [if_pos hkeep] at h
      cases h
      refine ⟨.refl, fun e he => Or.inl he, fun fh hfh => ?_⟩
      cases hfh
      refine ⟨hmem, hid, ?_⟩
      simp only [isHeld, Bool.or_eq_true] at hkeep ⊢
      tauto
    · rw [if_neg hkeep] at h
      simp only [Bool.or_eq_true, not_or, Bool.not_eq_true] at hkeep
      obtain ⟨⟨hpending, hgone⟩, hlocks⟩ := hkeep
      have hheld : fm.isHeld old.id = false := by
        rw [hid, isHeld, hpending, hlocks]
        rfl
      split at h
      · -- the inode was found in the parent directory
        rename_i newPath hfound
        split_ifs at hfound with hinode
        obtain ⟨m, hmeta, hino⟩ := lstat_of_findByInodeInParent hfound
        rw [removeById_fhdbReplace _ (by simp [makeFilehandle])] at h
        cases h
        refine ⟨.single (.recover (m := m) hmem hgone hheld (hid ▸ hinode) ?_ ?_ ?_), ?_, ?_⟩
        · simp [makeFilehandle, hid]
        · simpa [makeFilehandle] using hmeta
        · rw [hino, hid]
        · intro e he
          rcases mem_fhdbReplace.1 he with rfl | ⟨he, -⟩
          · exact Or.inr rfl
          · exact Or.inl he
        · intro fh hfh
          cases hfh
          refine ⟨mem_fhdbReplace.2 (Or.inl rfl), by simp [makeFilehandle], Or.inl ?_⟩
          simp [pathExists, makeFilehandle, hmeta]
      · cases h
        refine ⟨.single ?_, fun e he => Or.inl (mem_removeById.1 he).1, fun _ ho => nomatch ho⟩
        have hevict := Tidy.evict (P := P) hmem hgone hheld
        rwa [hid] at hevict

/-- `get_filehandle` once the id of a path without a record is known: a record under the id is
taken over, or replaced. -/
lemma getFilehandle_register (hnew : ∀ e ∈ fm.fhdb, e.file ≠ file)
    (hreg : ∀ fm₁ : FileManager F, Tidies P fm fm₁ → (∀ e ∈ fm₁.fhdb, e.file ≠ file) →
      Tidy P fm₁ (fm₁.fhdbReplace (fm₁.makeFilehandle file id 0)))
    (h : (match fm.getFilehandleById id with
      | (fm, some fh) =>
        if fh.path = pathStr file then (fm, fh)
        else ((fm.removeById id).fhdbReplace ((fm.removeById id).makeFilehandle file id 0),
          (fm.removeById id).makeFilehandle file id 0)
      | (fm, none) => (fm.fhdbReplace (fm.makeFilehandle file id 0), fm.makeFilehandle file id 0)) =
        (fm', fh)) :
    Tidies P fm fm' ∧ fh ∈ fm'.fhdb ∧ fh.file = file ∧ fh.id = id := by
  rcases hget : fm.getFilehandleById id with ⟨fm₁, _ | found⟩
  · obtain ⟨htidies, hold, -⟩ := getFilehandleById_spec (P := P) hget
    have hnone : ∀ e ∈ fm₁.fhdb, e.file ≠ file := fun e he =>
      hnew e ((hold e he).resolve_right nofun)
    simp only [hget] at h
    cases h
    refine ⟨htidies.tail (hreg fm₁ htidies hnone), mem_fhdbReplace.2 (Or.inl rfl), ?_, ?_⟩
    · simp [makeFilehandle]
    · simp [makeFilehandle]
  · obtain ⟨htidies, hold, hfound⟩ := getFilehandleById_spec (P := P) hget
    obtain ⟨hmem, hid, -⟩ := hfound found rfl
    simp only [hget] at h
    split_ifs at h with hpath
    · cases h
      exact ⟨htidies, hmem, pathStr_injective hpath, hid⟩
    · have hnone : ∀ e ∈ fm₁.fhdb, e.file ≠ file := by
        intro e he hfile
        rcases hold e he with hmem' | heq
        · exact hnew e hmem' hfile
        · cases heq
          exact hpath (congrArg pathStr hfile)
      rw [removeById_fhdbReplace _ (by simp [makeFilehandle])] at h
      cases h
      refine ⟨htidies.tail (hreg fm₁ htidies hnone), mem_fhdbReplace.2 (Or.inl rfl), ?_, ?_⟩
      · simp [makeFilehandle]
      · simp [makeFilehandle]

/-- `get_filehandle` tidies up, and answers with the record of the file. It may register the
file only if no record of it is kept, and only under the id for it.

**Proof sketch.** A record that is kept is found by its path, and then by its id. Otherwise the
lookup by path leaves no record for the file; the id is that of the object, or a volatile one if
the file is gone, and what a lookup finds under it is replaced. -/
lemma getFilehandle_spec (hP : ¬ fm.Kept file → P file (fm.idFor file))
    (h : fm.getFilehandle file = (fm', fh)) :
    Tidies P fm fm' ∧ fh ∈ fm'.fhdb ∧ fh.file = file ∧
      (pathExists fm.fs file = true ∨ fm.isHeld fh.id = true ∨ ¬ InodeBased fh.id) := by
  by_cases hkept : fm.Kept file
  · obtain ⟨e, hmem, rfl, hkept⟩ := hkept
    rw [getFilehandle_of_mem hmem hkept] at h
    cases h
    exact ⟨.refl, hmem, rfl, hkept.imp_right Or.inl⟩
  · specialize hP hkept
    rcases hget : fm.getFilehandleByPath (pathStr file) with ⟨fm₀, _ | e⟩
    · obtain ⟨htidies, -, hnone⟩ := getFilehandleByPath_spec (P := P) hget
      obtain ⟨hseq, hnew⟩ := hnone rfl
      have hworld := htidies.sameWorld
      have hfree : ∀ e ∈ fm₀.fhdb, e.file ≠ file := fun e he hfile =>
        (hnew e he).2 (congrArg pathStr hfile)
      unfold getFilehandle getFilehandleId at h
      cases hmeta : lstat fm.fs file with
      | some m =>
        have hmeta₀ : lstat fm₀.fs file = some m := hworld.fs ▸ hmeta
        have hidFor : fm.idFor file = inodeId fm₀.exportId m.object := by
          simp [idFor, hmeta, hworld.exportId]
        simp only [hget, hmeta₀] at h
        have hspec := getFilehandle_register (P := P) hfree ?_ h
        · refine ⟨htidies.trans hspec.1, hspec.2.1, hspec.2.2.1, Or.inl ?_⟩
          simp [pathExists, hmeta]
        · intro fm₁ htidies₁ hnone₁
          have hworld₁ := htidies₁.sameWorld
          refine .register (m := m) ?_ ?_ ?_ ?_
          · simpa [makeFilehandle, ← hidFor] using hP
          · simpa [makeFilehandle] using hnone₁
          · simp [makeFilehandle, hworld₁.fs, hmeta₀]
          · simp [makeFilehandle, hworld₁.exportId]
      | none =>
        have hmeta₀ : lstat fm₀.fs file = none := hworld.fs ▸ hmeta
        have hidFor : fm.idFor file = volatileId fm₀.exportId fm₀.bootTime fm₀.nextFhId := by
          simp [idFor, hmeta, hseq, hworld.bootTime, hworld.exportId]
        simp only [hget, hmeta₀] at h
        have hfree' : ∀ e ∈ ({ fm₀ with nextFhId := fm₀.nextFhId + 1 } : FileManager F).fhdb,
            e.file ≠ file := hfree
        have hspec := getFilehandle_register (P := P) hfree' ?_ h
        · refine ⟨(htidies.tail (.count _)).trans hspec.1, hspec.2.1, hspec.2.2.1,
            Or.inr (Or.inr ?_)⟩
          rw [hspec.2.2.2]
          exact not_inodeBased_volatileId _ _ _
        · intro fm₁ htidies₁ hnone₁
          have hworld₁ := htidies₁.sameWorld
          have hid : (fm₁.makeFilehandle file (volatileId fm₀.exportId fm₀.bootTime fm₀.nextFhId)
              0).id = volatileId fm₁.exportId fm₁.bootTime fm₀.nextFhId := by
            simp [makeFilehandle, hworld₁.exportId, hworld₁.bootTime]
          refine .registerVolatile ?_ ?_ hid
          · simpa [makeFilehandle, ← hidFor] using hP
          · simpa [makeFilehandle] using hnone₁
    · obtain ⟨-, hsome, -⟩ := getFilehandleByPath_spec (P := P) hget
      obtain ⟨-, hmem, hpath, hkept'⟩ := hsome e rfl
      have hfile : e.file = file := pathStr_injective hpath
      exact absurd ⟨e, hmem, hfile, hfile ▸ hkept'⟩ hkept

/-- `drop_cache_handle` tidies up. -/
lemma dropCacheHandle_spec (fm : FileManager F) (id : NfsFh4) :
    Tidies P fm (fm.dropCacheHandle id) := by
  unfold dropCacheHandle
  rcases hget : fm.getFilehandleById id with ⟨fm', _ | fh⟩
  · exact (getFilehandleById_spec hget).1
  · obtain ⟨htidies, -, hfound⟩ := getFilehandleById_spec (P := P) hget
    exact htidies.tail (updateFilehandle_spec ⟨fh, (hfound fh rfl).1, rfl, rfl⟩)

/-- Touching a record tidies up. -/
lemma touchFile_spec (fm : FileManager F) (id : NfsFh4) : Tidies P fm (fm.touchFile id) := by
  unfold touchFile
  rcases hget : fm.getFilehandleById id with ⟨fm', _ | fh⟩
  · exact (getFilehandleById_spec hget).1
  · obtain ⟨htidies, -, hfound⟩ := getFilehandleById_spec (P := P) hget
    exact htidies.tail (touchFilehandle_spec ⟨fh, (hfound fh rfl).1, rfl, rfl⟩)

/-- The message `GetFilehandle` with an id tidies up, and answers with a record under the id. -/
lemma getFilehandleForId_spec (h : fm.getFilehandleForId id = (fm', o)) :
    Tidies P fm fm' ∧ ∀ fh, o = some fh → fm'.Knows fh ∧ fh.id = id ∧
      (pathExists fm.fs fh.file = true ∨ fm.isHeld id = true) := by
  unfold getFilehandleForId at h
  rcases hget : fm.getFilehandleById id with ⟨fm₁, _ | found⟩
  · simp only [hget] at h
    cases h
    exact ⟨(getFilehandleById_spec hget).1, fun _ ho => nomatch ho⟩
  · obtain ⟨htidies, -, hfound⟩ := getFilehandleById_spec (P := P) hget
    obtain ⟨hmem, hid, hkept⟩ := hfound found rfl
    simp only [hget] at h
    cases h
    refine ⟨htidies, fun fh hfh => ?_⟩
    cases hfh
    exact ⟨⟨found, hmem, rfl, rfl⟩, hid, hkept⟩

/-- The message `GetFilehandle` with a path tidies up, and answers with the record of a file that
exists. -/
lemma getFilehandleForPath_spec
    (hP : ∀ p, FileSystem.join F .root path = some p → pathExists fm.fs p = true →
      ¬ fm.Kept p → P p (fm.idFor p))
    (h : fm.getFilehandleForPath path = (fm', o)) :
    Tidies P fm fm' ∧ ∀ fh, o = some fh → fm'.Knows fh ∧ pathExists fm.fs fh.file = true ∧
      FileSystem.join F .root path = some fh.file := by
  unfold getFilehandleForPath at h
  cases hjoin : FileSystem.join F .root path with
  | none =>
    simp only [hjoin] at h
    cases h
    exact ⟨.refl, fun _ ho => nomatch ho⟩
  | some p =>
    simp only [hjoin] at h
    split_ifs at h with hexists
    · rcases hget : fm.getFilehandle p with ⟨fm₁, found⟩
      obtain ⟨htidies, hmem, rfl, -⟩ := getFilehandle_spec (hP p hjoin hexists) hget
      rw [hget] at h
      cases h
      refine ⟨htidies, fun fh hfh => ?_⟩
      cases hfh
      exact ⟨⟨found, hmem, rfl, rfl⟩, hexists, rfl⟩
    · cases h
      exact ⟨.refl, fun _ ho => nomatch ho⟩

/-- What exists is found under its path. -/
lemma getFilehandleForPath_toStr {p : VfsPath} (hne : p ≠ .root)
    (hexists : pathExists fm.fs p = true) :
    ∃ fh, (fm.getFilehandleForPath p.toStr).2 = some fh ∧ fh.file = p := by
  rcases hget : fm.getFilehandle p with ⟨fm₁, found⟩
  obtain ⟨-, -, hfile, -⟩ := getFilehandle_spec (P := fun _ _ => True) (fun _ => trivial) hget
  refine ⟨fm₁.attachLocks found, ?_, hfile⟩
  simp only [getFilehandleForPath, fsJoin_root_toStr hne, hexists, if_true, hget]

/-- The message `GetFilehandle` for the root tidies up, and answers with the record of the
root. -/
lemma getRootFilehandle_spec (hP : ¬ fm.Kept .root → P .root (fm.idFor .root))
    (h : fm.getRootFilehandle = (fm', fh)) :
    Tidies P fm fm' ∧ fm'.Knows fh ∧ fh.file = .root := by
  unfold getRootFilehandle rootFh at h
  rcases hget : fm.getFilehandle .root with ⟨fm₁, found⟩
  obtain ⟨htidies, hmem, hfile, -⟩ := getFilehandle_spec hP hget
  rw [hget] at h
  cases h
  exact ⟨htidies, ⟨found, hmem, rfl, rfl⟩, hfile⟩

end Lookups

end NextNfs.FileManager
