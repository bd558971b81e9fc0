import NextNfs.Lib.AbsPath
import NextNfs.Proto.Attr

set_option relaxedAutoImplicit false
set_option autoImplicit false

/-!
# The file system under an export

The server works on an export through two interfaces: the `vfs` crate, on paths below the root
of the export, and the standard library, on paths of the operating system. Neither is part of
the repository. This module says which of their calls the server makes, and what it relies on.

## Main definitions

* `NextNfs.RealMeta` — what `lstat` reports.
* `NextNfs.realPath` — the path of the operating system for a path of the export.
* `NextNfs.FileSystem` — the calls, on an arbitrary type of file system states.
* `NextNfs.LawfulFileSystem` — how a file system that nobody else changes behaves.

## Main results

* `NextNfs.realPath_pathStr` and `NextNfs.PathBuf.parent_pathStr` — paths of the operating system
  are computed on strings; on the paths of handles that agrees with computing on components.

## Implementation notes

Which paths a change of one directory entry affects depends on symbolic links, so it is not a
matter of the strings. `through fs t q` says that resolving `q` looks up the directory entry
that `t` names. Creating a regular file follows a symbolic link in its last component;
`fills fs t q` says that resolving `q` looks up the entry this would fill.
-/

namespace NextNfs

/-! ### Metadata -/

/-- `RealMeta`: metadata of an object, not following symbolic links. -/
structure RealMeta where
  ino : UInt64
  dev : UInt64
  mode : UInt32
  nlink : UInt64
  uid : UInt32
  gid : UInt32
  size : UInt64
  blocks : UInt64
  atime : Int64
  atimeNsec : Int64
  mtime : Int64
  mtimeNsec : Int64
  ctime : Int64
  ctimeNsec : Int64
deriving DecidableEq

/-- The file type bits of a mode, `mode & S_IFMT`. -/
def RealMeta.fileType (m : RealMeta) : UInt32 := m.mode &&& 0o170000

/-- `S_IFDIR`. -/
def S_IFDIR : UInt32 := 0o040000

/-- `S_IFREG`. -/
def S_IFREG : UInt32 := 0o100000

/-- Device and inode number: what identifies an object. -/
abbrev ObjectId := UInt64 × UInt64

/-- The object that metadata is about. -/
def RealMeta.object (m : RealMeta) : ObjectId := (m.dev, m.ino)

/-! ### Paths -/

/-- `VfsPath`: a path below the root of the export. -/
abbrev VfsPath := AbsPath

/-- The string of an absolute path; a slash for the root. -/
def pathStr (p : AbsPath) : String := if p = .root then "/" else p.toStr

namespace PathBuf

/-- `Path::join`: an absolute string replaces the path. -/
def join (base s : String) : String :=
  if s.toList.head? = some '/' then s
  else if base = "" ∨ base.toList.getLast? = some '/' then base ++ s
  else base ++ "/" ++ s

/-- `Path::parent`, of a path without repeated slashes. -/
def parent (s : String) : Option String :=
  if s = "/" ∨ s = "" then none
  else
    match (s.toList.reverse.dropWhile (· ≠ '/')).reverse with
    | [] => some ""
    | ['/'] => some "/"
    | cs => some (String.ofList cs.dropLast)

end PathBuf

/-- `real_path`: the path of the operating system for a path string of the export. -/
def realPath (exportRoot : AbsPath) (s : String) : String :=
  if s = "" ∨ s = "/" then pathStr exportRoot
  else PathBuf.join (pathStr exportRoot) (String.ofList (s.toList.dropWhile (· = '/')))

/-! ### The calls -/

/-- `std::io::ErrorKind`, as far as the server tells them apart. -/
inductive IoError
  | permissionDenied | alreadyExists | directoryNotEmpty | other
deriving DecidableEq

/-- The calls the server makes on an export whose states are of type `F`. Those of the `vfs`
crate take a `VfsPath`, those of the standard library a string. A call that fails changes
nothing, except that moving a file may stop half-way. -/
class FileSystem (F : Type) where
  /-- The canonical path of the export. -/
  exportRoot : AbsPath
  /-- `VfsPath::join`. -/
  join : VfsPath → String → Option VfsPath
  /-- `VfsPath::exists`, following symbolic links. -/
  existsAt : F → VfsPath → Bool
  /-- `VfsPath::is_dir`, following symbolic links. -/
  isDir : F → VfsPath → Bool
  /-- `VfsPath::is_file`, following symbolic links. -/
  isFile : F → VfsPath → Bool
  /-- The length in `VfsPath::metadata`. -/
  len : F → VfsPath → Option UInt64
  /-- `VfsPath::create_file`. -/
  createFile : F → VfsPath → Option F
  /-- `VfsPath::create_dir`. -/
  createDir : F → VfsPath → Option F
  /-- `VfsPath::remove_file`. -/
  removeFile : F → VfsPath → Option F
  /-- `VfsPath::remove_dir`. -/
  removeDir : F → VfsPath → Except IoError F
  /-- `VfsPath::move_file`: the state after it, and whether it succeeded. -/
  moveFile : F → VfsPath → VfsPath → F × Bool
  /-- `VfsPath::move_dir`, likewise. -/
  moveDir : F → VfsPath → VfsPath → F × Bool
  /-- `std::fs::symlink_metadata`. -/
  symlinkMetadata : F → String → Option RealMeta
  /-- `Path::exists`, following symbolic links. -/
  osExists : F → String → Bool
  /-- `std::fs::read_dir`, with the metadata of each entry. -/
  readDir : F → String → Option (List (String × RealMeta))
  /-- `std::os::unix::fs::symlink`. -/
  symlink : F → String → String → Except IoError F
  /-- `std::fs::hard_link`. -/
  hardLink : F → String → String → Except IoError F
  /-- `std::fs::rename`. -/
  rename : F → String → String → Option F
  /-- `lchown`. -/
  lchown : F → String → UInt32 → UInt32 → Option F
  /-- The default hash of a string. -/
  hashStr : String → UInt64
  /-- Resolving a path looks up the directory entry another names. -/
  through : F → VfsPath → VfsPath → Bool
  /-- Resolving a path looks up the directory entry that creating a file would fill. -/
  fills : F → VfsPath → VfsPath → Bool

export FileSystem (existsAt isDir isFile createFile createDir removeFile removeDir moveFile
  moveDir symlinkMetadata osExists readDir hardLink lchown through fills)

section Derived

variable {F : Type} [FileSystem F]

/-- The path of the operating system for a path of the export. -/
def VfsPath.real (F : Type) [FileSystem F] (p : VfsPath) : String :=
  realPath (FileSystem.exportRoot F) (pathStr p)

/-- `RealMeta::from_path`, for a path of the export. -/
def lstat (fs : F) (p : VfsPath) : Option RealMeta := symlinkMetadata fs (VfsPath.real F p)

/-- The object a path names, not following a symbolic link in the last component. -/
def objectAt (fs : F) (p : VfsPath) : Option ObjectId := (lstat fs p).map RealMeta.object

/-- `path_exists`: the path exists without following symbolic links. -/
def pathExists (fs : F) (p : VfsPath) : Bool := existsAt fs p || (lstat fs p).isSome

/-- Some path of the export names the object. -/
def Named (fs : F) (o : ObjectId) : Prop := ∃ p, objectAt fs p = some o

end Derived

/-- A file system that nobody else changes. -/
class LawfulFileSystem (F : Type) [FileSystem F] : Prop where
  /-- Joining resolves `.`, `..` and several components. -/
  join_eq_some : ∀ {p q : VfsPath} {s : String}, FileSystem.join F p s = some q → p.join s = some q
  /-- Joining fails above the root, and maybe on a string that ends in a slash. -/
  join_of_join : ∀ {p q : VfsPath} {s : String}, p.join s = some q →
    s.toList.getLast? ≠ some '/' → FileSystem.join F p s = some q
  /-- What exists following symbolic links exists. -/
  lstat_of_existsAt : ∀ {fs : F} {p : VfsPath}, existsAt fs p = true → (lstat fs p).isSome = true
  /-- Both interfaces agree on what exists. -/
  osExists_real : ∀ (fs : F) (p : VfsPath), osExists fs (VfsPath.real F p) = existsAt fs p
  /-- The root of the export is a directory, if it is there. -/
  fileType_root : ∀ {fs : F} {m : RealMeta}, lstat fs .root = some m → m.fileType = S_IFDIR
  /-- A directory is not a file. -/
  isFile_of_fileType : ∀ {fs : F} {p : VfsPath} {m : RealMeta}, lstat fs p = some m →
    m.fileType = S_IFDIR → isFile fs p = false
  /-- The entries of a directory are its children. -/
  lstat_of_readDir : ∀ {fs : F} {p : VfsPath} {entries : List (String × RealMeta)}
    {name : String} {m : RealMeta}, readDir fs (VfsPath.real F p) = some entries →
    (name, m) ∈ entries → ∃ h : PlainName name, lstat fs (p.child name h) = some m
  /-- An inode number belongs to one device. -/
  device_of_ino : ∃ device : UInt64 → UInt64, ∀ (fs : F) (p : VfsPath) (m : RealMeta),
    lstat fs p = some m → m.dev = device m.ino
  /-- A path through a missing entry names nothing. -/
  lstat_of_through : ∀ {fs : F} {t q : VfsPath}, lstat fs t = none → through fs t q = true →
    lstat fs q = none
  /-- A path through an entry that creating a file would fill names nothing. -/
  lstat_of_fills : ∀ {fs : F} {t q : VfsPath}, fills fs t q = true → lstat fs q = none
  /-- Creating a file affects the paths through the entry it fills. -/
  createFile_spec : ∀ {fs fs' : F} {t : VfsPath}, createFile fs t = some fs' →
    existsAt fs' t = true ∧ ∀ q, fills fs t q = false → objectAt fs' q = objectAt fs q
  /-- Creating a directory affects the paths through its entry. -/
  createDir_spec : ∀ {fs fs' : F} {t : VfsPath}, createDir fs t = some fs' →
    lstat fs t = none ∧
    (∀ q, through fs t q = false → objectAt fs' q = objectAt fs q) ∧
    ∀ q o, objectAt fs' q = some o → Named fs o ∨ objectAt fs' t = some o
  /-- Creating a symbolic link affects the paths through its entry. -/
  symlink_spec : ∀ {fs fs' : F} {target : String} {t : VfsPath},
    FileSystem.symlink fs target (VfsPath.real F t) = .ok fs' →
    lstat fs t = none ∧
    (∀ q, through fs t q = false → objectAt fs' q = objectAt fs q) ∧
    ∀ q o, objectAt fs' q = some o → Named fs o ∨ objectAt fs' t = some o
  /-- A hard link names the object linked. -/
  hardLink_spec : ∀ {fs fs' : F} {a t : VfsPath},
    hardLink fs (VfsPath.real F a) (VfsPath.real F t) = .ok fs' →
    lstat fs t = none ∧ objectAt fs' t = objectAt fs a ∧
    (∀ q, through fs t q = false → objectAt fs' q = objectAt fs q) ∧
    ∀ q o, objectAt fs' q = some o → Named fs o
  /-- Removing a file takes the paths through its entry away. -/
  removeFile_spec : ∀ {fs fs' : F} {t : VfsPath}, removeFile fs t = some fs' →
    (lstat fs t).isSome = true ∧
    ∀ q, objectAt fs' q = if through fs t q then none else objectAt fs q
  /-- Removing a directory takes the paths through its entry away. -/
  removeDir_spec : ∀ {fs fs' : F} {t : VfsPath}, removeDir fs t = .ok fs' →
    ∀ q, objectAt fs' q = if through fs t q then none else objectAt fs q
  /-- Renaming one name of an object to another does nothing. Any other rename takes the paths
  through the old name away, and puts the object in the place of what the new name named. -/
  rename_spec : ∀ {fs fs' : F} {a b : VfsPath},
    FileSystem.rename fs (VfsPath.real F a) (VfsPath.real F b) = some fs' →
    (objectAt fs a).isSome = true ∧ objectAt fs' b = objectAt fs a ∧
    (objectAt fs a = objectAt fs b → ∀ q, objectAt fs' q = objectAt fs q) ∧
    (∀ q, through fs a q = false → through fs b q = false → objectAt fs' q = objectAt fs q) ∧
    (objectAt fs a ≠ objectAt fs b → ∀ q, through fs a q = true → through fs b q = false →
      objectAt fs' q = none) ∧
    (objectAt fs a ≠ objectAt fs b → ∀ q o, objectAt fs' q = some o →
      ∃ p, through fs b p = false ∧ objectAt fs p = some o)
  /-- Moving a file takes its name away, and fills or replaces the new one. If it fails half-way
  the file still has its name. -/
  moveFile_spec : ∀ {fs fs' : F} {a b : VfsPath} {done : Bool}, moveFile fs a b = (fs', done) →
    ∀ q, fills fs b q = false → through fs b q = false →
      objectAt fs' q = if through fs a q && done then none else objectAt fs q
  /-- Changing the owner does not change what a path names. -/
  lchown_spec : ∀ {fs fs' : F} {p : String} {uid gid : UInt32}, lchown fs p uid gid = some fs' →
    ∀ q, objectAt fs' q = objectAt fs q

/-! ### Strings of paths -/

section Strings

variable {p q : AbsPath} {name : String}

@[simp] lemma pathStr_root : pathStr .root = "/" := rfl

lemma pathStr_of_ne_root (h : p ≠ .root) : pathStr p = p.toStr := if_neg h

/-- The string of a child is that of the directory, a slash and the name. -/
lemma pathStr_child (h : PlainName name) : pathStr (p.child name h) = p.toStr ++ "/" ++ name := by
  rw [pathStr_of_ne_root (AbsPath.child_ne_root h), AbsPath.toStr_child]

/-- The string of a path other than the root ends in a character of its last component. -/
lemma getLast?_toStr (h : p ≠ .root) :
    ∃ c, p.toStr.toList.getLast? = some c ∧ c ≠ '/' := by
  obtain ⟨name, hn, hp⟩ := AbsPath.eq_child_of_ne_root h
  have hne : name.toList ≠ [] := fun hnil => hn.1 (String.toList_injective hnil)
  refine ⟨name.toList.getLast hne, ?_, ?_⟩
  · rw [hp, AbsPath.toStr_child]
    simp only [String.toList_append]
    rw [List.getLast?_append_of_ne_nil _ hne, List.getLast?_eq_getLast_of_ne_nil hne]
  · intro hslash
    exact hn.2.2.2 (hslash ▸ List.getLast_mem hne)

/-- A path can be read off its string. -/
lemma pathStr_injective : Function.Injective pathStr := by
  have hroot : ∀ {r : AbsPath}, r ≠ .root → r.toStr ≠ "/" := by
    intro r hr hslash
    obtain ⟨c, hc, hne⟩ := getLast?_toStr hr
    rw [hslash] at hc
    exact hne (Option.some.inj hc).symm
  intro p q h
  by_cases hp : p = .root <;> by_cases hq : q = .root
  · rw [hp, hq]
  · rw [hp, pathStr_root, pathStr_of_ne_root hq] at h
    exact absurd h.symm (hroot hq)
  · rw [hq, pathStr_root, pathStr_of_ne_root hp] at h
    exact absurd h (hroot hp)
  · rw [pathStr_of_ne_root hp, pathStr_of_ne_root hq] at h
    exact AbsPath.toStr_injective h

/-- The path of the operating system is the path below that of the export. -/
lemma realPath_pathStr (exportRoot : AbsPath) :
    realPath exportRoot (pathStr p) = pathStr (exportRoot.append p) := by
  by_cases hp : p = .root
  · simp [realPath, hp]
  · obtain ⟨c, cs, hcomp⟩ : ∃ c cs, p.components = c :: cs :=
      List.exists_cons_of_ne_nil fun hnil => hp (AbsPath.ext hnil)
    have hc : PlainName c := p.plain c (hcomp ▸ List.mem_cons_self)
    obtain ⟨x, xs, hx⟩ : ∃ x xs, c.toList = x :: xs :=
      List.exists_cons_of_ne_nil fun hnil => hc.1 (String.toList_injective hnil)
    have hslash : x ≠ '/' := fun h => hc.2.2.2 (by rw [hx, h]; exact List.mem_cons_self)
    have hlist : p.toStr.toList = '/' :: x :: (xs ++ cs.flatMap fun c => '/' :: c.toList) := by
      simp [hcomp, hx]
    have hempty : p.toStr ≠ "" := fun h => by simp [h] at hlist
    have hroot : p.toStr ≠ "/" := fun h => by simp [h] at hlist
    have happ : exportRoot.append p ≠ .root := by
      intro h
      have := congrArg AbsPath.components h
      simp [AbsPath.append, AbsPath.root, hcomp] at this
    rw [realPath, pathStr_of_ne_root hp, if_neg (not_or.2 ⟨hempty, hroot⟩),
      pathStr_of_ne_root happ]
    apply String.toList_injective
    by_cases her : exportRoot = .root
    · simp [PathBuf.join, her, hlist, hslash]
    · obtain ⟨l, hl, hlne⟩ := getLast?_toStr her
      have hne : exportRoot.toStr ≠ "" := fun h => by simp [h] at hl
      have hbase : ¬ (exportRoot.toStr = "" ∨ exportRoot.toStr.toList.getLast? = some '/') := by
        rintro (h | h)
        · exact hne h
        · rw [hl] at h
          exact hlne (Option.some.inj h)
      rw [pathStr_of_ne_root her, PathBuf.join, if_neg (by simp [hlist, hslash]), if_neg hbase]
      simp only [String.toList_append, String.toList_ofList, AbsPath.toList_toStr_append, hlist]
      simp [hslash]

/-- Joining a component to the string of a path gives the string of the child. -/
lemma PathBuf.join_pathStr (h : PlainName name) :
    PathBuf.join (pathStr p) name = pathStr (p.child name h) := by
  have hhead : name.toList.head? ≠ some '/' := fun hs => h.2.2.2 (List.mem_of_head? hs)
  rw [PathBuf.join, if_neg hhead, pathStr_child h]
  by_cases hp : p = .root
  · simp [hp]
  · obtain ⟨l, hl, hlne⟩ := getLast?_toStr hp
    have hbase : ¬ (p.toStr = "" ∨ p.toStr.toList.getLast? = some '/') := by
      rintro (h | h)
      · simp [h] at hl
      · rw [hl] at h
        exact hlne (Option.some.inj h)
    rw [pathStr_of_ne_root hp, if_neg hbase]

/-- The parent of the string of a path is the string of its parent. -/
lemma PathBuf.parent_pathStr (h : p ≠ .root) :
    PathBuf.parent (pathStr p) = some (pathStr p.parent) := by
  obtain ⟨name, hn, hp⟩ := AbsPath.eq_child_of_ne_root h
  generalize p.parent = d at hp ⊢
  subst hp
  have hempty : (d.toStr ++ "/" ++ name) ≠ "" := by
    intro h
    have := congrArg String.toList h
    simp at this
  have hslash : (d.toStr ++ "/" ++ name) ≠ "/" := by
    intro h
    have := congrArg (List.getLast? ∘ String.toList) h
    obtain ⟨c, hc, hne⟩ := getLast?_toStr (AbsPath.child_ne_root (p := d) hn)
    rw [AbsPath.toStr_child] at hc
    simp only [Function.comp_apply, hc] at this
    exact hne (Option.some.inj this)
  have hdrop : ((d.toStr ++ "/" ++ name).toList.reverse.dropWhile (· ≠ '/')).reverse =
      d.toStr.toList ++ ['/'] := by
    have hall : ∀ c ∈ name.toList.reverse, decide (c ≠ '/') = true := by
      intro c hc
      simp only [ne_eq, decide_not, Bool.not_eq_true', decide_eq_false_iff_not]
      intro hcs
      exact hn.2.2.2 (hcs ▸ List.mem_reverse.1 hc)
    simp only [String.toList_append, List.reverse_append]
    rw [List.dropWhile_append_of_pos hall]
    simp
  rw [pathStr_child hn, PathBuf.parent, if_neg (not_or.2 ⟨hslash, hempty⟩), hdrop]
  by_cases hd : d = .root
  · simp [hd]
  · obtain ⟨c, hc, hne⟩ := getLast?_toStr hd
    obtain ⟨x, xs, hx⟩ : ∃ x xs, d.toStr.toList = x :: xs :=
      List.exists_cons_of_ne_nil fun hnil => by simp [hnil] at hc
    rw [pathStr_of_ne_root hd, hx]
    have hlist : x :: xs ++ ['/'] = x :: (xs ++ ['/']) := rfl
    rw [hlist]
    split
    · rename_i heq
      simp at heq
    · rename_i heq
      simp at heq
    · rw [← hlist, ← hx, List.dropLast_concat, String.ofList_toList]

variable {F : Type} [FileSystem F]

/-- The path of the operating system of a child. -/
lemma join_real (h : PlainName name) :
    PathBuf.join (VfsPath.real F p) name = VfsPath.real F (p.child name h) := by
  rw [VfsPath.real, VfsPath.real, realPath_pathStr, realPath_pathStr, AbsPath.append_child,
    PathBuf.join_pathStr h]

/-- Joining a component gives a child. -/
lemma fsJoin_of_plainName [LawfulFileSystem F] (h : PlainName name) :
    FileSystem.join F p name = some (p.child name h) := by
  refine LawfulFileSystem.join_of_join (AbsPath.join_of_plainName h) fun hlast => ?_
  exact h.2.2.2 (List.mem_of_getLast? hlast)

/-- The string of a path other than the root resolves to it. -/
lemma fsJoin_root_toStr [LawfulFileSystem F] (h : p ≠ .root) :
    FileSystem.join F .root p.toStr = some p := by
  obtain ⟨c, hc, hslash⟩ := getLast?_toStr h
  refine LawfulFileSystem.join_of_join AbsPath.join_root_toStr fun hlast => ?_
  rw [hc] at hlast
  exact hslash (Option.some.inj hlast)

end Strings

end NextNfs
