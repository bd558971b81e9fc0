import NextNfs.Server.FlatFs
import NextNfs.Server.Ownership

set_option relaxedAutoImplicit false
set_option autoImplicit false

/-!
# A file system with owners

The file system with one directory, and a table of the owners of its objects. The owner of an object
stays in the table when its last name is taken away, so that a number is not used twice.

## Main definitions

* `NextNfs.OwnedFs` — the states, and the instances of `NextNfs.FileSystem`, `NextNfs.HasOwners` and
  `NextNfs.AttributeCalls`.
-/

namespace NextNfs

/-- The entries of the root, and the owners of the objects by their numbers. -/
structure OwnedFs where
  flat : FlatFs
  owners : UInt64 → Option (UInt32 × UInt32)

namespace OwnedFs

/-- The metadata of an object, if it has an owner. -/
def describe (fs : OwnedFs) (i : Inode) : Option RealMeta :=
  (fs.owners i.ino).map fun x => { i.meta with uid := x.1, gid := x.2 }

/-- A state in which the next object is created, which belongs to root. -/
def create (fs : OwnedFs) (flat : FlatFs) : Option OwnedFs :=
  if fs.owners fs.flat.nextIno = none then
    some ⟨flat, Function.update fs.owners fs.flat.nextIno (some (0, 0))⟩
  else none

/-- `VfsPath::create_file`. -/
def createFileAt (fs : OwnedFs) (cs : List String) : Option OwnedFs :=
  match fs.flat.lookup cs with
  | some i => if i.isDir then none else some fs
  | none => (fs.flat.newName cs).bind fun name => fs.create (fs.flat.create name 0o100644)

/-- The state after a change of the names. -/
def withNames (fs : OwnedFs) (flat : FlatFs) : OwnedFs := { fs with flat := flat }

/-- The owner of the object at a path of the operating system. -/
def chownAt (fs : OwnedFs) (s : String) (uid gid : UInt32) : Option OwnedFs := do
  let cs ← FlatFs.components s
  let i ← fs.flat.lookup cs
  let x ← fs.owners i.ino
  pure { fs with owners := Function.update fs.owners i.ino (some (chowned x uid gid)) }

/-- The mode of the object at a path of the operating system. -/
def chmodAt (fs : OwnedFs) (s : String) (mode : UInt32) : Option OwnedFs := do
  let cs ← FlatFs.components s
  let i ← fs.flat.lookup cs
  let kind := i.meta.fileType
  pure (fs.withNames { fs.flat with entries := fs.flat.entries.map fun e =>
    (e.1, if e.2.ino = i.ino then { e.2 with mode := kind ||| mode &&& 0o7777 } else e.2) })

instance : FileSystem OwnedFs where
  exportRoot := FileSystem.exportRoot FlatFs
  join := FileSystem.join FlatFs
  existsAt fs := existsAt fs.flat
  isDir fs := isDir fs.flat
  isFile fs := isFile fs.flat
  len fs := FileSystem.len fs.flat
  createFile fs p := fs.createFileAt p.components
  createDir fs p := (fs.flat.newName p.components).bind fun name =>
    fs.create (fs.flat.create name 0o040755)
  removeFile fs p := (removeFile fs.flat p).map fs.withNames
  removeDir fs p := (removeDir fs.flat p).map fs.withNames
  moveFile fs a b := (fs.withNames (moveFile fs.flat a b).1, (moveFile fs.flat a b).2)
  moveDir fs a b := (fs.withNames (moveDir fs.flat a b).1, (moveDir fs.flat a b).2)
  symlinkMetadata fs s := ((FlatFs.components s).bind fs.flat.lookup).bind fs.describe
  osExists fs := osExists fs.flat
  readDir fs := readDir fs.flat
  symlink fs _ s :=
    (((FlatFs.components s).bind fs.flat.newName).bind fun name =>
      fs.create (fs.flat.create name 0o120777)).elim (.error .alreadyExists) .ok
  hardLink fs a b := (hardLink fs.flat a b).map fs.withNames
  rename fs a b := (FileSystem.rename fs.flat a b).map fs.withNames
  lchown := chownAt
  hashStr := FileSystem.hashStr FlatFs
  through fs := through fs.flat
  fills fs := fills fs.flat

/-! ### The laws -/

variable {fs fs' : OwnedFs} {flat : FlatFs} {p : VfsPath} {i : Inode} {m : RealMeta}

/-- The owner and the group of an object. All objects are on one device. -/
def ownerOf (fs : OwnedFs) (o : ObjectId) : Option (UInt32 × UInt32) :=
  if o.1 = 64 then fs.owners o.2 else none

lemma ownerOf_ino (fs : OwnedFs) (ino : UInt64) : fs.ownerOf (64, ino) = fs.owners ino := if_pos rfl

lemma lstat_eq (fs : OwnedFs) (p : VfsPath) :
    lstat fs p = (fs.flat.lookup p.components).bind fs.describe := by
  have hreal : VfsPath.real OwnedFs p = VfsPath.real FlatFs p := rfl
  change ((FlatFs.components (VfsPath.real OwnedFs p)).bind fs.flat.lookup).bind fs.describe = _
  rw [hreal, FlatFs.components_real]
  rfl

lemma describe_eq_some (h : fs.describe i = some m) :
    m.object = (64, i.ino) ∧ fs.owners i.ino = some (m.uid, m.gid) := by
  obtain ⟨x, hx, rfl⟩ := Option.map_eq_some_iff.1 h
  exact ⟨rfl, hx⟩

lemma create_eq_some (h : fs.create flat = some fs') :
    fs.owners fs.flat.nextIno = none ∧
      fs' = ⟨flat, Function.update fs.owners fs.flat.nextIno (some (0, 0))⟩ := by
  unfold create at h
  split_ifs at h with hnone
  exact ⟨hnone, (Option.some.inj h).symm⟩

/-- A new object takes nothing away. -/
lemma ownerOf_create (h : fs.create flat = some fs') (o : ObjectId) (x : UInt32 × UInt32)
    (hx : fs.ownerOf o = some x) : fs'.ownerOf o = some x := by
  obtain ⟨hnone, rfl⟩ := create_eq_some h
  unfold ownerOf at hx ⊢
  split_ifs at hx ⊢ with hdev
  have hne : o.2 ≠ fs.flat.nextIno := by
    intro heq
    rw [heq, hnone] at hx
    cases hx
  exact (Function.update_of_ne hne _ _).trans hx

/-- A new object under a free name has a number of its own. -/
lemma ownerOf_created {name : String} {mode : UInt32} {cs : List String}
    (hnew : fs.flat.newName cs = some name) (h : fs.create (fs.flat.create name mode) = some fs')
    (hm : (fs'.flat.lookup cs).bind fs'.describe = some m) : fs.ownerOf m.object = none := by
  obtain ⟨hnone, rfl⟩ := create_eq_some h
  obtain ⟨rfl, -⟩ := FlatFs.newName_eq_some hnew
  simp only [FlatFs.lookup, FlatFs.find_create, if_true, Option.bind_some] at hm
  rw [(describe_eq_some hm).1, ownerOf_ino]
  exact hnone

lemma lookup_of_newName {name : String} {cs : List String} (h : fs.flat.newName cs = some name) :
    fs.flat.lookup cs = none := by
  obtain ⟨rfl, hfind⟩ := FlatFs.newName_eq_some h
  exact hfind

/-- A change of the names does not change the owners. -/
lemma ownerOf_map {res : Option FlatFs} (h : res.map fs.withNames = some fs')
    (o : ObjectId) : fs'.ownerOf o = fs.ownerOf o := by
  obtain ⟨flat, -, rfl⟩ := Option.map_eq_some_iff.1 h
  rfl

lemma ownerOf_mapOk {res : Except IoError FlatFs} (h : res.map fs.withNames = .ok fs')
    (o : ObjectId) : fs'.ownerOf o = fs.ownerOf o := by
  cases res with
  | error e => cases h
  | ok flat =>
    cases h
    rfl

lemma createFileAt_spec (h : createFile fs p = some fs') :
    (∀ o x, fs.ownerOf o = some x → fs'.ownerOf o = some x) ∧
    (∀ m, lstat fs p = some m → objectAt fs' p = some m.object) ∧
    (lstat fs p = none → ∀ m, lstat fs' p = some m → fs.ownerOf m.object = none) := by
  change fs.createFileAt p.components = some fs' at h
  unfold createFileAt at h
  cases hlookup : fs.flat.lookup p.components with
  | some i =>
    rw [hlookup] at h
    dsimp only at h
    split_ifs at h
    cases h
    refine ⟨fun _ _ hx => hx, fun m hm => ?_, fun hnone m hm => ?_⟩
    · rw [objectAt, hm]
      rfl
    · rw [hnone] at hm
      cases hm
  | none =>
    rw [hlookup] at h
    obtain ⟨name, hnew, hcreate⟩ := Option.bind_eq_some_iff.1 h
    refine ⟨ownerOf_create hcreate, fun m hm => ?_, fun _ m hm => ?_⟩
    · rw [lstat_eq, hlookup] at hm
      cases hm
    · rw [lstat_eq] at hm
      exact ownerOf_created hnew hcreate hm

lemma symlink_eq_ok {target : String}
    (h : FileSystem.symlink fs target (VfsPath.real OwnedFs p) = .ok fs') :
    ∃ name, fs.flat.newName p.components = some name ∧
      fs.create (fs.flat.create name 0o120777) = some fs' := by
  have hcomponents : FlatFs.components (VfsPath.real OwnedFs p) = some p.components :=
    FlatFs.components_real p
  simp only [FileSystem.symlink, hcomponents, Option.bind_some] at h
  cases hnew : fs.flat.newName p.components with
  | none =>
    rw [hnew] at h
    cases h
  | some name =>
    rw [hnew, Option.bind_some] at h
    cases hcreate : fs.create (fs.flat.create name 0o120777) with
    | none =>
      rw [hcreate] at h
      cases h
    | some fs₁ =>
      rw [hcreate] at h
      cases h
      exact ⟨name, rfl, hcreate⟩

lemma chownAt_spec {s : String} {uid gid : UInt32} (hm : symlinkMetadata fs s = some m)
    (h : fs.chownAt s uid gid = some fs') :
    fs'.ownerOf m.object = some (chowned (m.uid, m.gid) uid gid) ∧
      ∀ o ≠ m.object, fs'.ownerOf o = fs.ownerOf o := by
  obtain ⟨i, hi, hdescribe⟩ := Option.bind_eq_some_iff.1 hm
  obtain ⟨cs, hcs, hlookup⟩ := Option.bind_eq_some_iff.1 hi
  obtain ⟨hobject, howner⟩ := describe_eq_some hdescribe
  unfold chownAt at h
  simp only [hcs, hlookup, howner, Option.bind_eq_bind, Option.bind_some] at h
  cases h
  rw [hobject]
  refine ⟨?_, fun o hne => ?_⟩
  · rw [ownerOf_ino]
    exact Function.update_self _ _ _
  · unfold ownerOf
    split_ifs with hdev
    · refine Function.update_of_ne (fun hino => hne ?_) _ _
      rw [← hdev, ← hino]
    · rfl

instance : HasOwners OwnedFs where
  owner := ownerOf
  owner_of_stat {fs s m} h := by
    obtain ⟨i, -, hdescribe⟩ := Option.bind_eq_some_iff.1 h
    obtain ⟨hobject, howner⟩ := describe_eq_some hdescribe
    rw [hobject, ownerOf_ino, howner]
  join_toStr _ := AbsPath.join_root_toStr
  createFile h := createFileAt_spec h
  createDir {fs fs' p} h := by
    obtain ⟨name, hnew, hcreate⟩ := Option.bind_eq_some_iff.1 h
    refine ⟨ownerOf_create hcreate, ?_, fun m hm => ?_⟩
    · rw [lstat_eq, lookup_of_newName hnew]
      rfl
    · rw [lstat_eq] at hm
      exact ownerOf_created hnew hcreate hm
  symlink {fs fs' target p} h := by
    obtain ⟨name, hnew, hcreate⟩ := symlink_eq_ok h
    refine ⟨ownerOf_create hcreate, fun m hm => ?_⟩
    rw [lstat_eq] at hm
    exact ownerOf_created hnew hcreate hm
  hardLink h o x hx := (ownerOf_mapOk h o).trans hx
  removeFile h o x hx := (ownerOf_map h o).symm.trans hx
  removeDir h o x hx := (ownerOf_mapOk h o).symm.trans hx
  rename h o x hx := (ownerOf_map h o).symm.trans hx
  moveFile hx := .inl hx
  moveDir hx := .inl hx
  lchown hm h := chownAt_spec hm h

instance : AttributeCalls OwnedFs where
  chown := chownAt
  chmod := chmodAt
  utimensNow fs s := if osExists fs s then some fs else none
  rewrite fs p _ := (fs, isFile fs p)
  chmod_owner {fs fs' s mode} h o x hx := by
    obtain ⟨cs, -, h⟩ := Option.bind_eq_some_iff.1 h
    obtain ⟨i, -, h⟩ := Option.bind_eq_some_iff.1 h
    cases h
    exact hx
  utimensNow_owner {fs fs' s} h o x hx := by
    split_ifs at h
    cases h
    exact hx
  rewrite_owner _ _ _ _ _ hx := hx

end OwnedFs

end NextNfs
