import NextNfs.Lib.Run
import NextNfs.Server.Perm

set_option relaxedAutoImplicit false
set_option autoImplicit false

/-!
# The server as a system

This module puts the operations together: the dispatcher of `nfs40.rs` runs an operation of a
compound after the permission check, and gives a new object to the caller; any number of
connections send operations to one file manager, which also sweeps its pending deletes and may be
restarted.

## Main definitions

* `NextNfs.dispatch` — one operation of a compound.
* `NextNfs.System`, `NextNfs.System.step` — the system and its steps.

## Implementation notes

An operation is one step; the steps of all connections interleave in any order. An operation may
follow one that failed, where a compound would stop, so a run of the model may do more than the
server does, not less. An operation that panics, or that is not modelled, is not a step.

Two fields of a system are there for the statements only: the handles that GETFH has returned, and
the silly names, that is, the names that removals of open files have produced and that still name
what they named then.
-/

namespace NextNfs

open Wire

/-- The number of an export: `next_export_id` starts at one and stops at `0xFE`. -/
abbrev ExportNumber := { n : UInt8 // 0 < n ∧ n < 0xFE }

/-- What a server is started with. -/
structure ServerConfig where
  exportId : ExportNumber
  exportName : String
  names : NameService

section Dispatch

variable {F : Type} [FileSystem F]

/-- The operation of an argument, with the silly name that a removal produced. -/
def execute (cfg : ServerConfig) (arg : NfsArgOp) (req : NfsRequest F) :
    Option (NfsRequest F × OpResponse × Option VfsPath) :=
  let plain := fun (res : NfsRequest F × OpResponse) => (res.1, res.2, none)
  match arg with
  | .opgetfh => some (plain (getCurrentFilehandle req))
  | .opputfh args => (args.execute req).map plain
  | .opputrootfh | .opputpubfh => (putRootFilehandle req).map plain
  | .opsavefh => some (plain (saveFilehandle req))
  | .oprestorefh => some (plain (restoreFilehandle req))
  | .oplookup args => (args.execute cfg.exportName req).map plain
  | .oplookupp => (lookupParent req).map plain
  | .opopen args => (args.execute req).map plain
  | .opclose args => (args.execute req).map plain
  | .opcreate args => (args.execute req).map plain
  | .oplink args => (args.execute req).map plain
  | .opremove args => args.execute req
  | .oprename args => (args.execute req).map plain
  | _ => none

/-- One operation of a compound: the permission check, the operation, and the change of the owner
of a new object. -/
def dispatch (cfg : ServerConfig) (caller : Caller) (arg : NfsArgOp) (req : NfsRequest F) :
    Option (NfsRequest F × OpResponse × Option VfsPath) :=
  match checkOp cfg.names arg req caller with
  | .error status => some (req, ⟨some (.opError (UInt32.ofNat (opCode arg)) status), status⟩, none)
  | .ok _ =>
    let creates := createsObject arg req
    match execute cfg arg req with
    | none => none
    | some (req, response, silly) =>
      if creates && response.status == .nfs4Ok then
        some (chownNewObject req caller, response, silly)
      else some (req, response, silly)

end Dispatch

/-! ### The system -/

/-- A server with one export and any number of connections. -/
structure System (F : Type) where
  fm : FileManager F
  conns : ℕ → Connection
  /-- The handles that GETFH has returned. -/
  returned : List NfsFh4
  /-- The silly names that still name what they did. -/
  silly : List VfsPath

/-- What can happen. -/
inductive Event
  | connect (c : ℕ)
  /-- A compound begins. -/
  | compound (c : ℕ)
  /-- An operation of a compound. -/
  | op (c : ℕ) (caller : Caller) (arg : NfsArgOp)
  /-- Time passes, in nanoseconds. -/
  | tick (d : ℕ)
  /-- The pending deletes are swept, in some order. -/
  | sweep (ids : List NfsFh4)
  | restart

namespace System

variable {F : Type}

/-- The request of a connection. -/
def request (s : System F) (c : ℕ) : NfsRequest F := ⟨s.fm, s.conns c⟩

/-- Set the state of a connection. -/
def setConn (s : System F) (c : ℕ) (conn : Connection) : System F :=
  { s with conns := Function.update s.conns c conn }

/-- The handles that a response returns. -/
def returnedBy (response : OpResponse) : List NfsFh4 :=
  match response.result with
  | some (.opgetfh (.resok4 r)) => [r.object]
  | _ => []

variable [FileSystem F]

/-- The silly names that still name what they did. -/
def sillyAfter (s : System F) (fs : F) : List VfsPath :=
  s.silly.filter fun p => objectAt fs p = objectAt s.fm.fs p

/-- The file manager of a server that starts. -/
def startManager (cfg : ServerConfig) (fs : F) (now : ℕ) : FileManager F :=
  .new fs now (some cfg.exportId.1.toUInt64)

/-- A server that starts on an export. -/
def start (cfg : ServerConfig) (fs : F) (now : ℕ) : System F :=
  ⟨startManager cfg fs now, fun _ => .new, [], []⟩

/-- The state after an operation. -/
def afterOp (s : System F) (c : ℕ) (req : NfsRequest F) (response : OpResponse)
    (silly : Option VfsPath) : System F where
  fm := req.fm
  conns := Function.update s.conns c req.conn
  returned := returnedBy response ++ s.returned
  silly := silly.toList ++ s.sillyAfter req.fm.fs

/-- A step of the system. -/
def step (cfg : ServerConfig) (s : System F) : Event → Option (System F)
  | .connect c => some (s.setConn c .new)
  | .compound c => some (s.setConn c (s.conns c).begin)
  | .op c caller arg =>
    (dispatch cfg caller arg (s.request c)).map fun (req, response, silly) =>
      s.afterOp c req response silly
  | .tick d => some { s with fm := { s.fm with now := s.fm.now + d } }
  | .sweep ids =>
    if ids.Perm s.fm.toDelete then
      let fm := s.fm.sweepPendingDeletes ids
      some { s with fm := fm, silly := s.sillyAfter fm.fs }
    else none
  | .restart =>
    some { s with fm := startManager cfg s.fm.fs s.fm.now, conns := fun _ => .new }

end System

end NextNfs
