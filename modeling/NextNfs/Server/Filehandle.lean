import NextNfs.Server.Locking
import NextNfs.Server.Vfs

set_option relaxedAutoImplicit false
set_option autoImplicit false

/-!
# Filehandles

This module models `filemanager/filehandle.rs`: the record the server keeps for a file, made
from the metadata of the file or, if there is none, from defaults. It also has the ids that
clients see: an inode-based id packs device and inode number, a volatile id the boot time and a
counter.

## Main definitions

* `NextNfs.Filehandle` — the record, with `NextNfs.Filehandle.newReal` and
  `NextNfs.Filehandle.new`.
* `NextNfs.inodeId`, `NextNfs.volatileId` — the ids.
* `NextNfs.objectOf` — the device and inode number that an id packs.

## Main results

* `NextNfs.objectOf_inodeId` — an inode-based id packs the object it was made for.
-/

namespace NextNfs

open Wire

/-! ### Records -/

/-- `Filehandle`. Its path is not kept beside the file it is computed from. -/
structure Filehandle where
  id : NfsFh4
  file : VfsPath
  attrType : NfsFtype4
  attrChange : UInt64
  attrSize : UInt64
  attrFileid : UInt64
  attrFsid : Fsid4
  attrMode : UInt32
  attrNlink : UInt32
  attrOwner : String
  attrOwnerGroup : String
  attrSpaceUsed : UInt64
  attrTimeAccess : Nfstime4
  attrTimeMetadata : Nfstime4
  attrTimeModify : Nfstime4
  verifier : Option (List.Vector UInt8 8)
  locks : List LockingState
  version : UInt64
deriving DecidableEq

/-- The field `path`: the string of the file, a slash for the root. -/
def Filehandle.path (fh : Filehandle) : String := pathStr fh.file

/-- The type of an object, from its mode. -/
def RealMeta.ftype (m : RealMeta) : NfsFtype4 :=
  if m.fileType = S_IFDIR then .nf4dir
  else if m.fileType = S_IFREG then .nf4reg
  else if m.fileType = 0o120000 then .nf4lnk
  else if m.fileType = 0o060000 then .nf4blk
  else if m.fileType = 0o020000 then .nf4chr
  else if m.fileType = 0o010000 then .nf4fifo
  else if m.fileType = 0o140000 then .nf4sock
  else NfsFtype4.nf4Undef

/-- The change attribute: the modification time in nanoseconds, wrapping around. -/
def RealMeta.change (m : RealMeta) : UInt64 :=
  m.mtime.toUInt64 * 1000000000 + m.mtimeNsec.toUInt64

/-- `Filehandle::new_real`: a record with the metadata of the file. -/
def Filehandle.newReal (file : VfsPath) (id : NfsFh4) (major minor version : UInt64)
    (m : RealMeta) : Filehandle where
  id := id
  file := file
  attrType := m.ftype
  attrChange := m.change
  attrSize := m.size
  attrFileid := m.ino
  attrFsid := ⟨major, minor⟩
  attrMode := m.mode &&& 0o7777
  attrNlink := m.nlink.toUInt32
  attrOwner := toString m.uid
  attrOwnerGroup := toString m.gid
  attrSpaceUsed := m.blocks * 512
  attrTimeAccess := ⟨m.atime, m.atimeNsec.toUInt64.toUInt32⟩
  attrTimeMetadata := ⟨m.ctime, m.ctimeNsec.toUInt64.toUInt32⟩
  attrTimeModify := ⟨m.mtime, m.mtimeNsec.toUInt64.toUInt32⟩
  verifier := none
  locks := []
  version := version + 1

/-- `current_time`: a time in nanoseconds since the epoch, in seconds and nanoseconds. -/
def currentTime (now : ℕ) : Nfstime4 :=
  ⟨Int64.ofNat (now / 1000000000), UInt32.ofNat (now % 1000000000)⟩

section FileSystem

variable {F : Type} [FileSystem F]

/-- `Filehandle::new`: a record for a file whose metadata cannot be read. -/
def Filehandle.new (fs : F) (now : ℕ) (file : VfsPath) (id : NfsFh4)
    (major minor version : UInt64) : Filehandle where
  id := id
  file := file
  attrType := if isDir fs file then .nf4dir else .nf4reg
  attrChange := version + 1
  attrSize := (FileSystem.len fs file).getD 0
  attrFileid := FileSystem.hashStr F (pathStr file)
  attrFsid := ⟨major, minor⟩
  attrMode := if isDir fs file then 0o755 else 0o644
  attrNlink := 1
  attrOwner := "0"
  attrOwnerGroup := "0"
  attrSpaceUsed := (FileSystem.len fs file).getD 0
  attrTimeAccess := currentTime now
  attrTimeMetadata := currentTime now
  attrTimeModify := currentTime now
  verifier := none
  locks := []
  version := version + 1

/-- The record for a file: with its metadata if it can be read. -/
def Filehandle.ofFile (fs : F) (now : ℕ) (fsid : UInt64) (file : VfsPath) (id : NfsFh4)
    (version : UInt64) : Filehandle :=
  match lstat fs file with
  | some m => .newReal file id fsid fsid version m
  | none => .new fs now file id fsid fsid version

@[simp] lemma Filehandle.ofFile_id (fs : F) (now : ℕ) (fsid : UInt64) (file : VfsPath)
    (id : NfsFh4) (version : UInt64) : (Filehandle.ofFile fs now fsid file id version).id = id := by
  unfold Filehandle.ofFile
  cases lstat fs file <;> rfl

@[simp] lemma Filehandle.ofFile_file (fs : F) (now : ℕ) (fsid : UInt64) (file : VfsPath)
    (id : NfsFh4) (version : UInt64) :
    (Filehandle.ofFile fs now fsid file id version).file = file := by
  unfold Filehandle.ofFile
  cases lstat fs file <;> rfl

end FileSystem

/-- `Filehandle::pseudo_root`: the record of the root that lists the exports. -/
def Filehandle.pseudoRoot (now : ℕ) (id : NfsFh4) : Filehandle where
  id := id
  file := .root
  attrType := .nf4dir
  attrChange := 1
  attrSize := 4096
  attrFileid := 1
  attrFsid := ⟨0, 0⟩
  attrMode := 0o755
  attrNlink := 2
  attrOwner := "0"
  attrOwnerGroup := "0"
  attrSpaceUsed := 4096
  attrTimeAccess := currentTime now
  attrTimeMetadata := currentTime now
  attrTimeModify := currentTime now
  verifier := none
  locks := []
  version := 1

/-! ### Ids -/

/-- The id of an object: a version byte, the export, device and inode number, padding. -/
def inodeId (exportId : UInt8) (o : ObjectId) : NfsFh4 :=
  ⟨[0x01, exportId] ++ beBytes 8 o.1.toNat ++ beBytes 8 o.2.toNat ++ List.replicate 8 0, by
    simp [length_beBytes]⟩

/-- A volatile id: a version byte, the export, the boot time and a counter of 16 bytes. -/
def volatileId (exportId : UInt8) (bootTime : UInt64) (seq : ℕ) : NfsFh4 :=
  ⟨[0x80, exportId] ++ beBytes 8 bootTime.toNat ++ beBytes 16 seq, by simp [length_beBytes]⟩

/-- An id is inode-based. -/
def InodeBased (id : NfsFh4) : Prop := id.head = 0x01

instance (id : NfsFh4) : Decidable (InodeBased id) := inferInstanceAs (Decidable (_ = _))

/-- The device and inode number in the bytes 2 to 18 of an id. -/
def objectOf (id : NfsFh4) : ObjectId :=
  (UInt64.ofNat (ofBytes ((id.toList.drop 2).take 8)),
    UInt64.ofNat (ofBytes ((id.toList.drop 10).take 8)))

/-- The export in the second byte of an id. -/
def exportIdFromFh (id : NfsFh4) : UInt8 := id.tail.head

/-- The export id reserved for the root that lists the exports. -/
def pseudoRootExportId : UInt8 := 0xFF

/-- `is_pseudo_root`, of an id. -/
def isPseudoRootFh (id : NfsFh4) : Bool :=
  id.head == 0x02 && exportIdFromFh id == pseudoRootExportId

@[simp] lemma inodeBased_inodeId (exportId : UInt8) (o : ObjectId) :
    InodeBased (inodeId exportId o) := rfl

lemma not_inodeBased_volatileId (exportId : UInt8) (bootTime : UInt64) (seq : ℕ) :
    ¬ InodeBased (volatileId exportId bootTime seq) := by
  intro h
  have hbyte : (0x80 : UInt8) = 0x01 := h
  exact absurd hbyte (by decide)

/-- An inode-based id packs the object it was made for. -/
@[simp] lemma objectOf_inodeId (exportId : UInt8) (o : ObjectId) :
    objectOf (inodeId exportId o) = o := by
  obtain ⟨dev, ino⟩ := o
  have hdev : ofBytes (beBytes 8 dev.toNat) = dev.toNat := ofBytes_beBytes dev.toNat_lt
  have hino : ofBytes (beBytes 8 ino.toNat) = ino.toNat := ofBytes_beBytes ino.toNat_lt
  have hlist : (inodeId exportId (dev, ino)).toList =
      [0x01, exportId] ++ beBytes 8 dev.toNat ++ beBytes 8 ino.toNat ++ List.replicate 8 0 := rfl
  have htake : ((inodeId exportId (dev, ino)).toList.drop 2).take 8 = beBytes 8 dev.toNat := by
    rw [hlist]
    simp [length_beBytes]
  have htake' : ((inodeId exportId (dev, ino)).toList.drop 10).take 8 = beBytes 8 ino.toNat := by
    rw [hlist]
    simp [length_beBytes]
  rw [objectOf, htake, htake', hdev, hino, UInt64.ofNat_toNat, UInt64.ofNat_toNat]

end NextNfs
