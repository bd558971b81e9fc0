import NextNfs.Server.Vfs

set_option relaxedAutoImplicit false
set_option autoImplicit false

/-!
# A file system with one directory

A file system that is simple enough to run: all names are in the root. It has regular files,
hard links, symbolic links and directories, but nothing can be put into a directory other than
the root. Within that it behaves as file systems do, and it obeys the laws.

## Main definitions

* `NextNfs.FlatFs` — the states, and the instance of `NextNfs.FileSystem`.

## Main results

* the instance of `NextNfs.LawfulFileSystem`.
-/

namespace NextNfs

/-- An object of the file system. -/
structure Inode where
  ino : UInt64
  mode : UInt32
  uid : UInt32
  gid : UInt32
deriving DecidableEq

/-- The metadata of an object. -/
def Inode.meta (i : Inode) : RealMeta where
  ino := i.ino
  dev := 64
  mode := i.mode
  nlink := 1
  uid := i.uid
  gid := i.gid
  size := 0
  blocks := 0
  atime := 0
  atimeNsec := 0
  mtime := 0
  mtimeNsec := 0
  ctime := 0
  ctimeNsec := 0

/-- The root of the file system. -/
def rootInode : Inode := ⟨1, 0o040755, 0, 0⟩

/-- A file system with one directory: the entries of the root, and the next inode number. -/
structure FlatFs where
  entries : List (String × Inode)
  nextIno : UInt64
deriving DecidableEq

/-- An object is a directory. -/
def Inode.isDir (i : Inode) : Bool := i.meta.fileType == S_IFDIR

namespace FlatFs

/-- The object under a name. -/
def find (fs : FlatFs) (name : String) : Option Inode :=
  (fs.entries.find? fun e => e.1 == name).map (·.2)

/-- The object at a path. -/
def lookup (fs : FlatFs) : List String → Option Inode
  | [] => some rootInode
  | [name] => fs.find name
  | _ => none

/-- Take a name away. -/
def erase (fs : FlatFs) (name : String) : FlatFs :=
  { fs with entries := fs.entries.filter fun e => e.1 ≠ name }

/-- Give an object a name. -/
def insert (fs : FlatFs) (name : String) (i : Inode) : FlatFs :=
  { fs with entries := (name, i) :: fs.entries }

/-- A new object under a name. -/
def create (fs : FlatFs) (name : String) (mode : UInt32) : FlatFs :=
  { fs.insert name ⟨fs.nextIno, mode, 0, 0⟩ with nextIno := fs.nextIno + 1 }

/-- The components, below the export, of a path of the operating system. -/
def components (s : String) : Option (List String) :=
  match AbsPath.root.join s with
  | some p =>
    match p.components with
    | "export" :: rest => some rest
    | _ => none
  | none => none

/-- The entry of the root at a path. -/
def entry (fs : FlatFs) : List String → Option (String × Inode)
  | [name] => (fs.find name).map fun i => (name, i)
  | _ => none

/-- A name of the root at a path, if it is free. -/
def newName (fs : FlatFs) : List String → Option String
  | [name] => if (fs.find name).isNone then some name else none
  | _ => none

/-- Create a regular file; one that exists is kept. -/
def createFileAt (fs : FlatFs) : List String → Option FlatFs
  | [name] =>
    match fs.find name with
    | none => some (fs.create name 0o100644)
    | some i => if i.isDir then none else some fs
  | _ => none

/-- Remove an object of the given kind. -/
def removeAt (fs : FlatFs) (dir : Bool) (cs : List String) : Option FlatFs :=
  (fs.entry cs).bind fun e => if e.2.isDir = dir then some (fs.erase e.1) else none

/-- Move a file to a free name. -/
def moveAt (fs : FlatFs) (a b : List String) : Option FlatFs :=
  (fs.entry a).bind fun e =>
    if e.2.isDir then none
    else (fs.newName b).map fun name => (fs.insert name e.2).erase e.1

/-- Give a file another name. -/
def linkAt (fs : FlatFs) (a b : List String) : Option FlatFs :=
  (fs.entry a).bind fun e =>
    if e.2.isDir then none else (fs.newName b).map fun name => fs.insert name e.2

/-- Rename an object. -/
def renameAt (fs : FlatFs) (a b : List String) : Option FlatFs :=
  (fs.entry a).bind fun e =>
    match b with
    | [name] =>
      if (fs.find name).map (·.ino) = some e.2.ino then some fs
      else if (fs.find name).any fun j => j.isDir != e.2.isDir then none
      else some ((fs.erase e.1).insert name e.2)
    | _ => none

/-- Change the owner of an object, under all its names. -/
def chown (fs : FlatFs) (ino : UInt64) (uid gid : UInt32) : FlatFs :=
  { fs with entries := fs.entries.map fun e =>
      (e.1, if e.2.ino = ino then { e.2 with uid := uid, gid := gid } else e.2) }

/-- The entries of the root. -/
def list (fs : FlatFs) : List (String × RealMeta) :=
  (fs.entries.map (·.1)).filterMap fun name =>
    if PlainName name then (fs.find name).map fun i => (name, i.meta) else none

instance : FileSystem FlatFs where
  exportRoot := ⟨["export"], by decide⟩
  join := AbsPath.join
  existsAt fs p := (fs.lookup p.components).isSome
  isDir fs p := (fs.lookup p.components).any Inode.isDir
  isFile fs p := (fs.lookup p.components).any fun i => !i.isDir
  len fs p := (fs.lookup p.components).map fun _ => 0
  createFile fs p := fs.createFileAt p.components
  createDir fs p := (fs.newName p.components).map fun name => fs.create name 0o040755
  removeFile fs p := fs.removeAt false p.components
  removeDir fs p := (fs.removeAt true p.components).elim (.error .other) .ok
  moveFile fs a b := (fs.moveAt a.components b.components).elim (fs, false) fun fs => (fs, true)
  moveDir fs _ _ := (fs, false)
  symlinkMetadata fs s := ((components s).bind fs.lookup).map Inode.meta
  osExists fs s := ((components s).bind fs.lookup).isSome
  readDir fs s := if components s = some [] then some fs.list else none
  symlink fs _ s :=
    (((components s).bind fs.newName).map fun name => fs.create name 0o120777).elim
      (.error .alreadyExists) .ok
  hardLink fs a b :=
    ((components a).bind fun a => (components b).bind fun b => fs.linkAt a b).elim
      (.error .alreadyExists) .ok
  rename fs a b := (components a).bind fun a => (components b).bind fun b => fs.renameAt a b
  lchown fs s uid gid := ((components s).bind fs.lookup).map fun i => fs.chown i.ino uid gid
  hashStr _ := 0
  through _ t q := t.components.isPrefixOf q.components
  fills fs t q := (fs.lookup t.components).isNone && t.components.isPrefixOf q.components

/-! ### Names after a change -/

variable {fs : FlatFs} {name name' : String} {i : Inode} {p q : VfsPath}

@[simp] lemma find_insert : (fs.insert name i).find name' =
    if name' = name then some i else fs.find name' := by
  by_cases h : name' = name
  · simp [find, insert, h]
  · simp [find, insert, h, beq_eq_false_iff_ne.2 (Ne.symm h)]

@[simp] lemma find_erase : (fs.erase name).find name' =
    if name' = name then none else fs.find name' := by
  unfold find erase
  rw [List.find?_filter]
  by_cases h : name' = name
  · subst h
    rw [if_pos rfl, List.find?_eq_none.2]
    · rfl
    · intro e _
      simp
  · rw [if_neg h]
    congr 1
    congr 1
    funext e
    by_cases he : e.1 = name'
    · simp [he, h]
    · simp [he]

@[simp] lemma find_create {mode : UInt32} : (fs.create name mode).find name' =
    if name' = name then some ⟨fs.nextIno, mode, 0, 0⟩ else fs.find name' :=
  find_insert

/-- A change of one name leaves the paths that do not start with it. -/
lemma lookup_congr {fs' : FlatFs} {cs : List String}
    (h : ∀ name', name' ≠ name → fs'.find name' = fs.find name') (hcs : ¬ [name] <+: cs) :
    fs'.lookup cs = fs.lookup cs := by
  match cs with
  | [] => rfl
  | [name'] => exact h name' fun heq => hcs (heq ▸ List.prefix_rfl)
  | _ :: _ :: _ => rfl

/-- Below a missing entry there is nothing. -/
lemma lookup_of_prefix {cs ds : List String} (h : fs.lookup cs = none) (hpre : cs <+: ds) :
    fs.lookup ds = none := by
  match cs, ds with
  | [], _ => cases h
  | [name], [name'] =>
    obtain rfl : name = name' := by simpa using hpre
    exact h
  | [_], [] => simp at hpre
  | _, _ :: _ :: _ => rfl
  | _ :: _ :: _, [] => simp at hpre
  | _ :: _ :: _, [_] => simpa using hpre.length_le

lemma newName_eq_some {cs : List String} (h : fs.newName cs = some name) :
    cs = [name] ∧ fs.find name = none := by
  match cs with
  | [] => cases h
  | [name'] =>
    simp only [newName] at h
    split_ifs at h with hfind
    cases h
    exact ⟨rfl, by simpa using hfind⟩
  | _ :: _ :: _ => cases h

lemma entry_eq_some {cs : List String} (h : fs.entry cs = some (name, i)) :
    cs = [name] ∧ fs.find name = some i := by
  match cs with
  | [] => cases h
  | [name'] =>
    simp only [entry, Option.map_eq_some_iff, Prod.mk.injEq] at h
    obtain ⟨j, hj, rfl, rfl⟩ := h
    exact ⟨rfl, hj⟩
  | _ :: _ :: _ => cases h

/-! ### The laws -/

@[simp] lemma components_real (p : VfsPath) :
    components (VfsPath.real FlatFs p) = some p.components := by
  have hne : (FileSystem.exportRoot FlatFs).append p ≠ .root := by
    intro h
    have := congrArg AbsPath.components h
    cases this
  rw [components, VfsPath.real, realPath_pathStr, pathStr_of_ne_root hne, AbsPath.join_root_toStr]
  rfl

lemma lstat_eq (fs : FlatFs) (p : VfsPath) :
    lstat fs p = (fs.lookup p.components).map Inode.meta := by
  change ((components (VfsPath.real FlatFs p)).bind fs.lookup).map Inode.meta = _
  rw [components_real]
  rfl

lemma objectAt_eq (fs : FlatFs) (p : VfsPath) :
    objectAt fs p = (fs.lookup p.components).map fun i => (64, i.ino) := by
  rw [objectAt, lstat_eq, Option.map_map]
  rfl

/-- A change of one name leaves what the paths name that do not start with it. -/
lemma objectAt_congr {fs' : FlatFs} {t : VfsPath} (ht : t.components = [name])
    (h : ∀ name', name' ≠ name → fs'.find name' = fs.find name')
    (hq : (t.components.isPrefixOf q.components) = false) : objectAt fs' q = objectAt fs q := by
  rw [objectAt_eq, objectAt_eq, lookup_congr h]
  intro hpre
  rw [ht, List.isPrefixOf_iff_prefix.2 hpre] at hq
  cases hq

/-- Taking a name away takes the paths away that start with it. -/
lemma objectAt_erase {t : VfsPath} (ht : t.components = [name]) (q : VfsPath) :
    objectAt (fs.erase name) q = if through fs t q then none else objectAt fs q := by
  by_cases hq : t.components.isPrefixOf q.components = true
  · have hthrough : through fs t q = true := hq
    have hgone : (fs.erase name).lookup [name] = none := by simp [lookup]
    have hpre : [name] <+: q.components := by
      rw [← ht]
      exact List.isPrefixOf_iff_prefix.1 hq
    rw [if_pos hthrough, objectAt_eq, lookup_of_prefix hgone hpre]
    rfl
  · have hthrough : through fs t q = false := Bool.eq_false_iff.2 hq
    rw [if_neg (by simp [hthrough])]
    exact objectAt_congr ht (fun name' hne => by simp [hne]) hthrough

/-- An object named after a change of one name is the one under that name, or was named before
by a path that does not start with it. -/
lemma named_of_objectAt {fs' : FlatFs} {t : VfsPath} {o : ObjectId} (ht : t.components = [name])
    (h : ∀ name', name' ≠ name → fs'.find name' = fs.find name') (hq : objectAt fs' q = some o) :
    objectAt fs' t = some o ∨
      t.components.isPrefixOf q.components = false ∧ objectAt fs q = some o := by
  by_cases hpre : t.components.isPrefixOf q.components = true
  · refine Or.inl ?_
    rw [objectAt_eq] at hq ⊢
    have hprefix := List.isPrefixOf_iff_prefix.1 hpre
    rw [ht] at hprefix ⊢
    match hcs : q.components with
    | [] => simp [hcs] at hprefix
    | [name'] =>
      obtain rfl : name = name' := by simpa [hcs] using hprefix
      rwa [hcs] at hq
    | _ :: _ :: _ => simp [hcs, lookup] at hq
  · have hfalse := Bool.eq_false_iff.2 hpre
    exact Or.inr ⟨hfalse, by rwa [← objectAt_congr ht h hfalse]⟩

/-- Creating an object under a free name. -/
lemma create_spec {t : VfsPath} {mode : UInt32} (ht : t.components = [name])
    (hnew : fs.find name = none) :
    lstat fs t = none ∧
      (∀ q, through fs t q = false → objectAt (fs.create name mode) q = objectAt fs q) ∧
      ∀ q o, objectAt (fs.create name mode) q = some o →
        Named fs o ∨ objectAt (fs.create name mode) t = some o := by
  have hother : ∀ name', name' ≠ name → (fs.create name mode).find name' = fs.find name' :=
    fun name' hne => by simp [hne]
  refine ⟨by simp [lstat_eq, ht, lookup, hnew], fun q hq => objectAt_congr ht hother hq, ?_⟩
  intro q o ho
  rcases named_of_objectAt ht hother ho with h | ⟨-, h⟩
  · exact Or.inr h
  · exact Or.inl ⟨q, h⟩

/-- For a free name, the paths that start with it are those that creating it fills. -/
lemma fills_eq {t : VfsPath} (ht : t.components = [name]) (hnew : fs.find name = none)
    (q : VfsPath) : fills fs t q = through fs t q := by
  have hlookup : fs.lookup t.components = none := by rw [ht]; exact hnew
  change ((fs.lookup t.components).isNone && t.components.isPrefixOf q.components) =
    t.components.isPrefixOf q.components
  rw [hlookup]
  rfl

lemma lstat_eq_none_of_fills {t : VfsPath} (h : fills fs t q = true) : lstat fs q = none := by
  have hboth := Bool.and_eq_true_iff.1 h
  rw [lstat_eq, Option.map_eq_none_iff]
  exact lookup_of_prefix (Option.isNone_iff_eq_none.1 hboth.1)
    (List.isPrefixOf_iff_prefix.1 hboth.2)

lemma createFileAt_spec {fs' : FlatFs} {t : VfsPath} (h : fs.createFileAt t.components = some fs') :
    existsAt fs' t = true ∧ ∀ q, fills fs t q = false → objectAt fs' q = objectAt fs q := by
  change (fs'.lookup t.components).isSome = true ∧ _
  unfold createFileAt at h
  split at h
  · rename_i name ht
    split at h
    · rename_i hnew
      cases h
      have hother : ∀ name', name' ≠ name →
          (fs.create name 0o100644).find name' = fs.find name' := fun name' hne => by simp [hne]
      exact ⟨by simp [ht, lookup],
        fun q hq => objectAt_congr ht hother (by rwa [fills_eq ht hnew] at hq)⟩
    · rename_i i hi
      split_ifs at h
      cases h
      exact ⟨by simp [ht, lookup, hi], fun q _ => rfl⟩
  · cases h

lemma removeAt_spec {fs' : FlatFs} {t : VfsPath} {dir : Bool}
    (h : fs.removeAt dir t.components = some fs') :
    (lstat fs t).isSome = true ∧
      ∀ q, objectAt fs' q = if through fs t q then none else objectAt fs q := by
  obtain ⟨⟨name, i⟩, hentry, hif⟩ := Option.bind_eq_some_iff.1 h
  split_ifs at hif
  cases hif
  obtain ⟨ht, hi⟩ := entry_eq_some hentry
  exact ⟨by simp [lstat_eq, ht, lookup, hi], fun q => objectAt_erase ht q⟩

lemma linkAt_spec {fs' : FlatFs} {a t : VfsPath}
    (h : fs.linkAt a.components t.components = some fs') :
    lstat fs t = none ∧ objectAt fs' t = objectAt fs a ∧
      (∀ q, through fs t q = false → objectAt fs' q = objectAt fs q) ∧
      ∀ q o, objectAt fs' q = some o → Named fs o := by
  obtain ⟨⟨aname, i⟩, hentry, hif⟩ := Option.bind_eq_some_iff.1 h
  split_ifs at hif
  obtain ⟨name, hname, rfl⟩ := Option.map_eq_some_iff.1 hif
  obtain ⟨ha, hi⟩ := entry_eq_some hentry
  obtain ⟨ht, hnew⟩ := newName_eq_some hname
  have hother : ∀ name', name' ≠ name → (fs.insert name i).find name' = fs.find name' :=
    fun name' hne => by simp [hne]
  have hobj : objectAt (fs.insert name i) t = objectAt fs a := by
    rw [objectAt_eq, objectAt_eq, ht, ha]
    simp [lookup, hi]
  refine ⟨by simp [lstat_eq, ht, lookup, hnew], hobj,
    fun q hq => objectAt_congr ht hother hq, fun q o ho => ?_⟩
  rcases named_of_objectAt ht hother ho with ho | ⟨-, ho⟩
  · exact ⟨a, by rw [← hobj, ho]⟩
  · exact ⟨q, ho⟩

lemma moveAt_spec {fs' : FlatFs} {a b : VfsPath}
    (h : fs.moveAt a.components b.components = some fs') (q : VfsPath)
    (hq : through fs b q = false) :
    objectAt fs' q = if through fs a q then none else objectAt fs q := by
  obtain ⟨⟨name, i⟩, hentry, hif⟩ := Option.bind_eq_some_iff.1 h
  split_ifs at hif
  obtain ⟨name', hname, rfl⟩ := Option.map_eq_some_iff.1 hif
  obtain ⟨ha, -⟩ := entry_eq_some hentry
  obtain ⟨hb, hnew⟩ := newName_eq_some hname
  have hother : ∀ n, n ≠ name' → (fs.insert name' i).find n = fs.find n :=
    fun n hn => by simp [hn]
  have hthrough : through (fs.insert name' i) a q = through fs a q := rfl
  rw [objectAt_erase ha, hthrough, objectAt_congr hb hother hq]

lemma renameAt_spec {fs' : FlatFs} {a b : VfsPath}
    (h : fs.renameAt a.components b.components = some fs') :
    (objectAt fs a).isSome = true ∧ objectAt fs' b = objectAt fs a ∧
      (objectAt fs a = objectAt fs b → ∀ q, objectAt fs' q = objectAt fs q) ∧
      (∀ q, through fs a q = false → through fs b q = false → objectAt fs' q = objectAt fs q) ∧
      (objectAt fs a ≠ objectAt fs b → ∀ q, through fs a q = true → through fs b q = false →
        objectAt fs' q = none) ∧
      (objectAt fs a ≠ objectAt fs b → ∀ q o, objectAt fs' q = some o →
        ∃ p, through fs b p = false ∧ objectAt fs p = some o) := by
  obtain ⟨⟨name, i⟩, hentry, hmatch⟩ := Option.bind_eq_some_iff.1 h
  obtain ⟨ha, hi⟩ := entry_eq_some hentry
  have hobja : objectAt fs a = some (64, i.ino) := by simp [objectAt_eq, ha, lookup, hi]
  split at hmatch
  · rename_i name' hb
    have hobjb : objectAt fs b = ((fs.find name').map (·.ino)).map fun n => (64, n) := by
      simp [objectAt_eq, hb, lookup, Function.comp_def]
    split_ifs at hmatch with hsame htype
    · -- two names of one object
      cases hmatch
      have heq : objectAt fs a = objectAt fs b := by rw [hobja, hobjb, hsame]; rfl
      exact ⟨by simp [hobja], heq.symm, fun _ _ => rfl, fun _ _ _ => rfl,
        fun hne => absurd heq hne, fun hne => absurd heq hne⟩
    · cases hmatch
      have hne : objectAt fs a ≠ objectAt fs b := by
        rw [hobja, hobjb]
        intro heq
        refine hsame ?_
        cases hfind : (fs.find name').map (·.ino) with
        | none => simp [hfind] at heq
        | some n => simpa [hfind] using heq.symm
      have hnames : name ≠ name' := by
        intro heq
        refine hsame ?_
        rw [← heq, hi]
        rfl
      have hnew : objectAt ((fs.erase name).insert name' i) b = objectAt fs a := by
        rw [hobja, objectAt_eq, hb]
        simp [lookup]
      have hinsert : ∀ n, n ≠ name' →
          ((fs.erase name).insert name' i).find n = (fs.erase name).find n :=
        fun n hn => by simp [hn]
      refine ⟨by simp [hobja], hnew, fun heq => absurd heq hne, ?_, ?_, ?_⟩
      · intro q hqa hqb
        rw [objectAt_congr hb hinsert hqb, objectAt_erase ha, if_neg (by simp [hqa])]
      · intro _ q hqa hqb
        rw [objectAt_congr hb hinsert hqb, objectAt_erase ha, if_pos hqa]
      · intro _ q o ho
        rcases named_of_objectAt hb hinsert ho with ho | ⟨hqb, ho⟩
        · refine ⟨a, ?_, by rw [← hnew, ho]⟩
          change b.components.isPrefixOf a.components = false
          rw [ha, hb]
          simp [List.isPrefixOf, Ne.symm hnames]
        · rw [objectAt_erase ha] at ho
          split_ifs at ho
          exact ⟨q, hqb, ho⟩
  · cases hmatch

lemma objectAt_chown (fs : FlatFs) (ino : UInt64) (uid gid : UInt32) (q : VfsPath) :
    objectAt (fs.chown ino uid gid) q = objectAt fs q := by
  have hfind : ∀ name, ((fs.chown ino uid gid).find name).map (·.ino) =
      (fs.find name).map (·.ino) := by
    intro name
    simp only [find, chown, List.find?_map, Option.map_map]
    congr 1
    funext e
    simp only [Function.comp_apply]
    split_ifs <;> rfl
  rw [objectAt_eq, objectAt_eq]
  match q.components with
  | [] => rfl
  | [name] =>
    have h := congrArg (Option.map fun n : UInt64 => ((64 : UInt64), n)) (hfind name)
    simpa [lookup, Function.comp_def] using h
  | _ :: _ :: _ => rfl

instance : LawfulFileSystem FlatFs where
  join_eq_some h := h
  join_of_join h _ := h
  lstat_of_existsAt {fs p} h := by
    rw [lstat_eq, Option.isSome_map]
    exact h
  osExists_real fs p := by
    change ((components (VfsPath.real FlatFs p)).bind fs.lookup).isSome = _
    rw [components_real]
    rfl
  fileType_root {fs m} h := by
    rw [lstat_eq] at h
    cases h
    decide
  isFile_of_fileType {fs p m} h hdir := by
    rw [lstat_eq, Option.map_eq_some_iff] at h
    obtain ⟨i, hi, rfl⟩ := h
    change (fs.lookup p.components).any (fun i => !i.isDir) = false
    simp [hi, Inode.isDir, hdir]
  lstat_of_readDir {fs p entries name m} h hmem := by
    change (if components (VfsPath.real FlatFs p) = some [] then some fs.list else none) =
      some entries at h
    rw [components_real] at h
    split_ifs at h with hroot
    cases h
    obtain ⟨name', -, hname⟩ := List.mem_filterMap.1 hmem
    split_ifs at hname with hplain
    obtain ⟨i, hi, heq⟩ := Option.map_eq_some_iff.1 hname
    cases heq
    refine ⟨hplain, ?_⟩
    simp only [lstat_eq, AbsPath.child, Option.some.inj hroot, List.nil_append, lookup, hi,
      Option.map_some]
  device_of_ino := by
    refine ⟨fun _ => 64, fun fs p m h => ?_⟩
    rw [lstat_eq, Option.map_eq_some_iff] at h
    obtain ⟨i, -, rfl⟩ := h
    rfl
  lstat_of_through {fs t q} h hthrough := by
    rw [lstat_eq, Option.map_eq_none_iff] at h ⊢
    exact lookup_of_prefix h (List.isPrefixOf_iff_prefix.1 hthrough)
  lstat_of_fills := lstat_eq_none_of_fills
  createFile_spec := createFileAt_spec
  createDir_spec {fs fs' t} h := by
    obtain ⟨name, hname, rfl⟩ := Option.map_eq_some_iff.1 h
    obtain ⟨ht, hnew⟩ := newName_eq_some hname
    exact create_spec ht hnew
  symlink_spec {fs fs' target t} h := by
    change (((components (VfsPath.real FlatFs t)).bind fs.newName).map _).elim _ _ = _ at h
    rw [components_real, Option.bind_some] at h
    cases hname : fs.newName t.components with
    | none =>
      rw [hname] at h
      cases h
    | some name =>
      rw [hname] at h
      cases h
      obtain ⟨ht, hnew⟩ := newName_eq_some hname
      exact create_spec ht hnew
  hardLink_spec {fs fs' a t} h := by
    change ((components (VfsPath.real FlatFs a)).bind fun a =>
      (components (VfsPath.real FlatFs t)).bind fun t => fs.linkAt a t).elim _ _ = _ at h
    rw [components_real, components_real, Option.bind_some, Option.bind_some] at h
    cases hlink : fs.linkAt a.components t.components with
    | none =>
      rw [hlink] at h
      cases h
    | some fs₁ =>
      rw [hlink] at h
      cases h
      exact linkAt_spec hlink
  removeFile_spec h := removeAt_spec h
  removeDir_spec {fs fs' t} h := by
    change (fs.removeAt true t.components).elim _ _ = _ at h
    cases hremove : fs.removeAt true t.components with
    | none =>
      rw [hremove] at h
      cases h
    | some fs₁ =>
      rw [hremove] at h
      cases h
      exact (removeAt_spec hremove).2
  rename_spec {fs fs' a b} h := by
    change ((components (VfsPath.real FlatFs a)).bind fun a =>
      (components (VfsPath.real FlatFs b)).bind fun b => fs.renameAt a b) = _ at h
    rw [components_real, components_real, Option.bind_some, Option.bind_some] at h
    exact renameAt_spec h
  moveFile_spec {fs fs' a b done} h q _ hq := by
    change (fs.moveAt a.components b.components).elim _ _ = _ at h
    cases hmove : fs.moveAt a.components b.components with
    | none =>
      rw [hmove] at h
      cases h
      simp
    | some fs₁ =>
      rw [hmove] at h
      cases h
      simpa using moveAt_spec hmove q hq
  lchown_spec {fs fs' s uid gid} h q := by
    obtain ⟨i, -, rfl⟩ := Option.map_eq_some_iff.1 h
    exact objectAt_chown fs i.ino uid gid q

end FlatFs

end NextNfs
