import NextNfs.Lib.AtomicFile
import NextNfs.Server.CrashRecovery
import Mathlib.Data.Option.Basic
import Mathlib.Data.Rel

set_option relaxedAutoImplicit false
set_option autoImplicit false

/-!
# The state file

The snapshots of the server are kept in a file as JSON (`state_recovery.rs`). A save writes a
temporary file and renames it, while the server goes on; a restart loads the file, restores the
clients and removes the file (`lib.rs`). This module shows that a server that crashes anywhere does
as one whose saves and restarts are done at once.

## Main definitions

* `NextNfs.Json` — how a snapshot is written as JSON and read back.
* `NextNfs.StateRecovery.loadFile` — `StateRecovery::load` of the bytes of the file.
* `NextNfs.StateFile.Node`, `NextNfs.StateFile.Node.step` — a server and its disk, and what happens
  to them, one system call at a time.

## Main results

* `NextNfs.StateFile.node_refines` — each run of the node is a run of the server that saves and
  restarts at once.

## Implementation notes

JSON is written and read by a library. A crash is one of the process: what the operating system was
told stays. The calls that write the temporary file may fail, also in the middle of a write, and so
may the call that renames it. The save takes the clients at its beginning.
-/

namespace NextNfs

open Wire LockTable

/-! ### Reading and writing -/

/-- The JSON library: `to_string_pretty` and `from_str` on snapshots. -/
structure Json where
  toStringPretty : StateSnapshot → Except String String
  fromStr : String → Except String StateSnapshot

/-- What is written is read back. -/
structure Json.Lawful (json : Json) : Prop where
  fromStr_toStringPretty {snapshot : StateSnapshot} {text : String} :
    json.toStringPretty snapshot = .ok text → json.fromStr text = .ok snapshot

namespace StateRecovery

/-- `StateRecovery::load`, from the bytes of the file, or from the error when it is read. -/
def loadFile (json : Json) (file : Option Bytes) (readError : Option String) (now : UInt64) :
    Except String StateSnapshot :=
  match file with
  | none => .error "no state file found"
  | some bytes =>
    match readError with
    | some e => .error ("failed to read state file: " ++ e)
    | none =>
      match Xdr.fromUtf8 bytes with
      | .error _ => .error "failed to read state file: stream did not contain valid UTF-8"
      | .ok text =>
        match json.fromStr text with
        | .error e => .error ("failed to parse state file: " ++ e)
        | .ok snapshot => load (some snapshot) now

end StateRecovery

namespace StateFile

open ClientTable ClientManager StateHolders FileManagerActor AtomicFile

/-! ### The node -/

variable {F : Type}

/-- The process: it does not run, it has restored a snapshot, or it serves. Then it may be saving a
snapshot, with this left to do. -/
inductive Process (F : Type)
  | down
  | restored (server : StateHolders.Server F)
  | serves (server : StateHolders.Server F) (saving : Option (StateSnapshot × List (Op UInt8)))

/-- A process and the disk. -/
structure Node (F : Type) where
  disk : Disk UInt8
  process : Process F

/-- What happens to a node: the server works; a save begins, and will write these pieces; it does
its next call, or ends because that fails; the process crashes; it starts; and it removes the file
that it has restored, if that works. -/
inductive Act (F : Type)
  | serve (act : StateHolders.Act F)
  | save (order : Order) (bootTime now : UInt64) (pieces : List Bytes)
  | write
  | giveUp
  | crash
  | start (fs : UInt8 → F) (now : ℕ) (epoch : UInt64) (draws : List Draw)
    (readError : Option String)
  | clear (works : Bool)

/-- The file can be read and removed. -/
def Act.Works : Act F → Prop
  | .start _ _ _ _ readError => readError = none
  | .clear works => works = true
  | _ => True

namespace Node

variable [FileSystem F] (json : Json)

/-- The server starts: `load` and `restore_clients`. -/
def start (n : Node F) (fs : UInt8 → F) (now : ℕ) (epoch : UInt64) (draws : List Draw)
    (readError : Option String) : Option (Node F) :=
  match StateRecovery.loadFile json n.disk.file readError epoch with
  | .error _ => some { n with process := .serves (.start .new fs now) none }
  | .ok snapshot =>
    if snapshot.clients.length == draws.length then
      (restoreClients now .new (snapshot.clients.zip (draws.map Draw.token))).map fun cm =>
        { n with process := .restored (.start cm fs now) }
    else none

/-- The snapshot that a save takes. -/
def taken (server : StateHolders.Server F) (order : Order) (bootTime now : UInt64) :
    StateSnapshot :=
  StateRecovery.periodic (order.1 (server.clients.db.select ClientEntry.confirmed)) bootTime now

/-- A step of the node. -/
def step (n : Node F) : Act F → Option (Node F)
  | .serve act =>
    match n.process with
    | .serves server saving =>
      (server.step act).map fun server => { n with process := .serves server saving }
    | _ => none
  | .save order bootTime now pieces =>
    match n.process with
    | .serves server none =>
      let snapshot := taken server order bootTime now
      match json.toStringPretty snapshot with
      | .error _ => some n
      | .ok text =>
        if pieces.flatten = Xdr.asBytes text then
          some { n with process := .serves server (some (snapshot, replace pieces)) }
        else none
    | _ => none
  | .write =>
    match n.process with
    | .serves server (some (snapshot, op :: todo)) =>
      some ⟨n.disk.apply op,
        .serves server (if todo.isEmpty then none else some (snapshot, todo))⟩
    | _ => none
  | .giveUp =>
    match n.process with
    | .serves server (some _) => some { n with process := .serves server none }
    | _ => none
  | .crash => some { n with process := .down }
  | .start fs now epoch draws readError =>
    match n.process with
    | .down => n.start json fs now epoch draws readError
    | _ => none
  | .clear works =>
    match n.process with
    | .restored server =>
      some ⟨if works then n.disk.apply .remove else n.disk, .serves server none⟩
    | _ => none

end Node

/-! ### The refinement -/

section Refines

variable [FileSystem F] {json : Json}

/-- The bytes are a snapshot as it is written. -/
def Written (json : Json) (bytes : Bytes) (snapshot : StateSnapshot) : Prop :=
  ∃ text, json.toStringPretty snapshot = .ok text ∧ bytes = Xdr.asBytes text

/-- A snapshot that was written is loaded. -/
lemma loadFile_of_written (hjson : json.Lawful) {file : Option Bytes} {saved : Option StateSnapshot}
    (h : Option.Rel (Written json) file saved) (now : UInt64) :
    StateRecovery.loadFile json file none now = StateRecovery.load saved now := by
  cases h with
  | none => rfl
  | some hwritten =>
    obtain ⟨text, htext, rfl⟩ := hwritten
    have hread := hjson.fromStr_toStringPretty htext
    simp only [StateRecovery.loadFile, Xdr.fromUtf8_asBytes, hread]

/-- The server works. -/
def Act.serves : Act F → Bool
  | .serve _ => true
  | _ => false

/-- What the server does at once when the node does something or begins to. -/
def Act.label : Act F → Option (CrashRecovery.Act F)
  | .serve act => some (.serve act)
  | .save order bootTime now _ => some (.save order bootTime now)
  | .start fs now epoch draws _ => some (.restart fs now epoch draws)
  | _ => none

/-- What the server does follows what the node does: it serves the same, and does some of the saves
and starts that the node begins. -/
inductive Follows : List (Act F) → List (CrashRecovery.Act F) → Prop
  | nil : Follows [] []
  | does {acts : List (Act F)} {done : List (CrashRecovery.Act F)} {act : Act F}
      {act' : CrashRecovery.Act F} :
    Follows acts done → act.label = some act' → Follows (acts ++ [act]) (done ++ [act'])
  | skips {acts : List (Act F)} {done : List (CrashRecovery.Act F)} {act : Act F} :
    Follows acts done → act.serves = false → Follows (acts ++ [act]) done

variable {s₀ s s' : CrashRecovery.Server F} {n n' : Node F} {acts : List (Act F)} {act : Act F}

/-- The server gets from one state to another when it follows the node. -/
def Reaches (s₀ : CrashRecovery.Server F) (acts : List (Act F)) (s : CrashRecovery.Server F) :
    Prop :=
  ∃ done, Follows acts done ∧ done.foldlM CrashRecovery.Server.step s₀ = some s

lemma Reaches.does (h : Reaches s₀ acts s) {act' : CrashRecovery.Act F}
    (hlabel : act.label = some act') (hstep : s.step act' = some s') :
    Reaches s₀ (acts ++ [act]) s' := by
  obtain ⟨done, hfollows, hdone⟩ := h
  refine ⟨done ++ [act'], hfollows.does hlabel, ?_⟩
  rw [List.foldlM_append, hdone]
  simpa using hstep

lemma Reaches.skips (h : Reaches s₀ acts s) (hact : act.serves = false) :
    Reaches s₀ (acts ++ [act]) s := by
  obtain ⟨done, hfollows, hdone⟩ := h
  exact ⟨done, hfollows.skips hact, hdone⟩

/-- The process is as a state of the server, which could also have done the save or the restart that
the process has begun. -/
def Process.Matches (json : Json) (s₀ : CrashRecovery.Server F) (acts : List (Act F))
    (s : CrashRecovery.Server F) (disk : Disk UInt8) : Process F → Prop
  | .down => True
  | .restored server => ∃ s', Reaches s₀ acts s' ∧ s'.server = server ∧ s'.file = none
  | .serves server none => s.server = server
  | .serves server (some (snapshot, todo)) => s.server = server ∧
    Reaches s₀ acts { s with file := some snapshot } ∧
    ∃ bytes, Written json bytes snapshot ∧ Pending disk bytes todo

/-- A node is as a state that the server reaches, with the same file. -/
def Node.Matches (json : Json) (s₀ : CrashRecovery.Server F) (acts : List (Act F)) (n : Node F) :
    Prop :=
  ∃ s, Reaches s₀ acts s ∧ Option.Rel (Written json) n.disk.file s.file ∧
    n.process.Matches json s₀ acts s n.disk

/-- What the server does does not depend on its file. -/
lemma serve_file {act : StateHolders.Act F} {server : StateHolders.Server F}
    (h : s.server.step act = some server) (file : Option StateSnapshot) :
    ∃ s', s.step (.serve act) = some s' ∧ s'.server = server ∧ s'.file = s.file ∧
      CrashRecovery.Server.step { s with file := file } (.serve act) =
        some { s' with file := file } :=
  ⟨_, congrArg (Option.map _) h, rfl, rfl, congrArg (Option.map _) h⟩

/-- The server starts. -/
lemma matches_start (hjson : json.Lawful) {fs : UInt8 → F} {now : ℕ} {epoch : UInt64}
    {draws : List Draw} (hs : Reaches s₀ acts s)
    (hfile : Option.Rel (Written json) n.disk.file s.file)
    (hstep : n.start json fs now epoch draws none = some n') :
    n'.Matches json s₀ (acts ++ [.start fs now epoch draws none]) := by
  unfold Node.start at hstep
  rw [loadFile_of_written hjson hfile] at hstep
  cases hload : StateRecovery.load s.file epoch with
  | error e =>
    rw [hload] at hstep
    cases hstep
    have hrestart : s.step (.restart fs now epoch draws) =
        some ⟨.start .new fs now, s.file, ∅⟩ := by
      simp only [CrashRecovery.Server.step, hload]
    exact ⟨_, hs.does rfl hrestart, hfile, rfl⟩
  | ok snapshot =>
    rw [hload] at hstep
    dsimp only at hstep
    split_ifs at hstep with hlength
    obtain ⟨cm, hcm, rfl⟩ := Option.map_eq_some_iff.1 hstep
    have hrestart : s.step (.restart fs now epoch draws) =
        some ⟨.start cm fs now, none, s.owedAfter snapshot fs now⟩ := by
      simp only [CrashRecovery.Server.step, hload, hlength, if_true, hcm, Option.map_some]
    exact ⟨s, hs.skips rfl, hfile, _, hs.does rfl hrestart, rfl, rfl⟩

/-- A step that works keeps the node as a state that the server reaches. -/
lemma matches_step (hjson : json.Lawful) (hworks : act.Works) (hn : n.Matches json s₀ acts)
    (hstep : n.step json act = some n') : n'.Matches json s₀ (acts ++ [act]) := by
  obtain ⟨s, hs, hfile, hprocess⟩ := hn
  obtain ⟨disk, process⟩ := n
  cases act with
  | serve act =>
    cases process with
    | down => cases hstep
    | restored _ => cases hstep
    | serves server saving =>
      obtain ⟨server', hserve, rfl⟩ := Option.map_eq_some_iff.1 hstep
      rcases saving with _ | ⟨snapshot, todo⟩
      · obtain rfl : s.server = server := hprocess
        obtain ⟨s', hs', hserver, hfile', -⟩ := serve_file hserve none
        refine ⟨s', hs.does rfl hs', ?_, hserver⟩
        rw [hfile']
        exact hfile
      · obtain ⟨rfl, hsaved, hpending⟩ := hprocess
        obtain ⟨s', hs', hserver, hfile', hsaved'⟩ := serve_file hserve (some snapshot)
        refine ⟨s', hs.does rfl hs', ?_, hserver, hsaved.does rfl hsaved', hpending⟩
        rw [hfile']
        exact hfile
  | save order bootTime now pieces =>
    rcases process with _ | _ | ⟨server, _ | _⟩
    · cases hstep
    · cases hstep
    · obtain rfl : s.server = server := hprocess
      unfold Node.step at hstep
      dsimp only at hstep
      split at hstep
      · cases hstep
        exact ⟨s, hs.skips rfl, hfile, rfl⟩
      · rename_i text htext
        split_ifs at hstep with hpieces
        cases hstep
        have hsaved : s.step (.save order bootTime now) =
          some { s with file := some (Node.taken s.server order bootTime now) } := rfl
        exact ⟨s, hs.skips rfl, hfile, rfl, hs.does rfl hsaved, pieces.flatten,
          ⟨text, htext, hpieces⟩, .replace disk pieces⟩
    · cases hstep
  | write =>
    rcases process with _ | _ | ⟨server, _ | ⟨snapshot, _ | ⟨op, todo⟩⟩⟩
    · cases hstep
    · cases hstep
    · cases hstep
    · cases hstep
    · obtain ⟨rfl, hsaved, bytes, hwritten, hpending⟩ := hprocess
      cases hstep
      rcases hpending.step with ⟨hmore, hsame, hpending⟩ | ⟨rfl, hdone⟩
      · have hnot : todo.isEmpty = false := by simpa using hmore
        refine ⟨s, hs.skips rfl, ?_, ?_⟩
        · rw [hsame]
          exact hfile
        · rw [hnot]
          exact ⟨rfl, hsaved.skips rfl, bytes, hwritten, hpending⟩
      · -- The rename: the server has saved when the save began.
        refine ⟨_, hsaved.skips rfl, ?_, rfl⟩
        rw [hdone]
        exact .some hwritten
  | giveUp =>
    rcases process with _ | _ | ⟨server, _ | _⟩
    · cases hstep
    · cases hstep
    · cases hstep
    · cases hstep
      exact ⟨s, hs.skips rfl, hfile, hprocess.1⟩
  | crash =>
    cases hstep
    exact ⟨s, hs.skips rfl, hfile, trivial⟩
  | start fs now epoch draws readError =>
    rcases process with _ | _ | _
    · obtain rfl : readError = none := hworks
      exact matches_start hjson hs hfile hstep
    · cases hstep
    · cases hstep
  | clear works =>
    rcases process with _ | server | _
    · cases hstep
    · obtain rfl : works = true := hworks
      cases hstep
      obtain ⟨s', hs', hserver, hnone⟩ := hprocess
      refine ⟨s', hs'.skips rfl, ?_, hserver⟩
      rw [hnone]
      exact .none
    · cases hstep

/-- A run whose steps work keeps the node as a state that the server reaches. -/
lemma matches_run (hjson : json.Lawful) {before : List (Act F)} (hworks : ∀ act ∈ acts, act.Works)
    (hn : n.Matches json s₀ before) (hrun : acts.foldlM (Node.step json) n = some n') :
    n'.Matches json s₀ (before ++ acts) := by
  induction acts generalizing n before with
  | nil =>
    cases hrun
    rwa [List.append_nil]
  | cons act acts ih =>
    obtain ⟨n₁, hstep, hrest⟩ := Option.bind_eq_some_iff.1 hrun
    have hn₁ := matches_step hjson (hworks act List.mem_cons_self) hn hstep
    have hn' := ih (fun act h => hworks act (List.mem_cons_of_mem _ h)) hn₁ hrest
    rwa [List.append_assoc] at hn'

/-- **The state file.** Whatever a node does, where it saves call by call while it serves, may fail
in the middle of a save, and may crash anywhere and start again: it does as a server that serves the
same and for which a save or a restart is done at once or not at all. Its file has what that server
has saved, which is what it loads, whole.

**Proof sketch.** While a save or a restart is going on there are two states that the server may
have, before and after it (`Process.Matches`). Both serve alike, since only a restart reads the file
(`serve_file`). A crash leaves the node in the first, and the rename of the temporary file
(`Pending.step`) or the removal of the file takes it to the second. -/
theorem node_refines (hjson : json.Lawful) (hworks : ∀ act ∈ acts, act.Works)
    (hdown : n.process = .down) (hfile : Option.Rel (Written json) n.disk.file s₀.file)
    (hrun : acts.foldlM (Node.step json) n = some n') :
    ∃ done s, Follows acts done ∧ done.foldlM CrashRecovery.Server.step s₀ = some s ∧
      Option.Rel (Written json) n'.disk.file s.file ∧
      (∀ now, StateRecovery.loadFile json n'.disk.file none now = StateRecovery.load s.file now) ∧
      ∀ server saving, n'.process = .serves server saving → s.server = server := by
  have hn : n.Matches json s₀ [] := by
    refine ⟨s₀, ⟨[], .nil, rfl⟩, hfile, ?_⟩
    rw [hdown]
    trivial
  obtain ⟨s, ⟨done, hfollows, hdone⟩, hfile', hprocess⟩ := matches_run hjson hworks hn hrun
  refine ⟨done, s, hfollows, hdone, hfile', loadFile_of_written hjson hfile', ?_⟩
  intro server saving hserves
  rw [hserves] at hprocess
  cases saving with
  | none => exact hprocess
  | some _ => exact hprocess.1

end Refines

/-! #### Samples -/

section Samples

/-- A snapshot with one client. -/
def sampleSnapshot : StateSnapshot :=
  ⟨1, 0, 1000, [⟨none, List.Vector.replicate 8 0, "a", 1, ⟨0, "", "", 0⟩, true⟩], []⟩

/-- The snapshot as it is written. -/
def sampleText : String :=
  "\x7b\n  \"version\": 1,\n  \"boot_time\": 0,\n  \"written_at\": 1000,\n  \"clients\": [\n    " ++
    "\x7b\n      \"principal\": null,\n      \"verifier\": [\n        0,\n        0,\n        0," ++
    "\n        0,\n        0,\n        0,\n        0,\n        0\n      ],\n      \"id\": \"a\"," ++
    "\n      \"clientid\": 1,\n      \"callback_program\": 0,\n      \"callback_rnetid\": \"\"," ++
    "\n      \"callback_raddr\": \"\",\n      \"callback_ident\": 0,\n      \"confirmed\": true" ++
    "\n    \x7d\n  ],\n  \"locks\": []\n\x7d"

/-- JSON for this snapshot only. -/
def sampleJson : Json where
  toStringPretty
    | ⟨1, 0, 1000, [⟨none, verifier, "a", 1, ⟨0, "", "", 0⟩, true⟩], []⟩ =>
      if verifier = List.Vector.replicate 8 0 then .ok sampleText else .error "not a sample"
    | _ => .error "not a sample"
  fromStr text := if text = sampleText then .ok sampleSnapshot else .error "expected value"

lemma sampleJson_lawful : sampleJson.Lawful where
  fromStr_toStringPretty {snapshot text} h := by
    unfold sampleJson at h ⊢
    dsimp only at h
    split at h
    · split_ifs at h with hverifier
      cases h
      subst hverifier
      simp only [if_true, sampleSnapshot]
    · cases h

/-- A save in one piece, with its first calls. -/
lemma save_run {json : Json} {F : Type} [FileSystem F] {server : StateHolders.Server F}
    {order : Order} {bootTime now : UInt64} {text : String} (disk : Disk UInt8)
    (htext : json.toStringPretty (Node.taken server order bootTime now) = .ok text) :
    [Act.save order bootTime now [Xdr.asBytes text], .write, .write].foldlM (Node.step json)
      ⟨disk, .serves server none⟩ = some ⟨⟨disk.file, some (Xdr.asBytes text)⟩,
        .serves server (some (Node.taken server order bootTime now, [.rename]))⟩ := by
  have hsave : Node.step json ⟨disk, .serves server none⟩
      (.save order bootTime now [Xdr.asBytes text]) = some ⟨disk, .serves server
        (some (Node.taken server order bootTime now, replace [Xdr.asBytes text]))⟩ := by
    simp [Node.step, htext]
  rw [List.foldlM_cons, hsave]
  rfl

/-- A token. -/
def lastDraw : Draw := List.Vector.replicate 8 (Fin.last 254)

/-- A crash and a restart. -/
def restarts : List (Act FlatFs) :=
  [.crash, .start (fun _ => sharedFs) 0 1010 [lastDraw] none, .clear true]

/-- A restart with the snapshot in the file. -/
lemma restart_run {json : Json} {bytes : Bytes} {temp : Option Bytes}
    {process : Process FlatFs}
    (hload : StateRecovery.loadFile json (some bytes) none 1010 = .ok sampleSnapshot) :
    ∃ server : StateHolders.Server FlatFs, server.clients.db.entries.map (·.id) = ["a"] ∧
      restarts.foldlM (Node.step json) ⟨⟨some bytes, temp⟩, process⟩ =
        some ⟨⟨none, temp⟩, .serves server none⟩ := by
  have hstart : ∃ cm, cm.db.entries.map (·.id) = ["a"] ∧
      Node.step json ⟨⟨some bytes, temp⟩, .down⟩
        (.start (fun _ => sharedFs) 0 1010 [lastDraw] none) =
        some ⟨⟨some bytes, temp⟩, .restored (.start cm (fun _ => sharedFs) 0)⟩ := by
    unfold Node.step Node.start
    simp only [hload]
    exact ⟨_, rfl, rfl⟩
  obtain ⟨cm, hid, hstart⟩ := hstart
  refine ⟨.start cm (fun _ => sharedFs) 0, hid, ?_⟩
  have hcrash : Node.step json ⟨⟨some bytes, temp⟩, process⟩ .crash =
      some ⟨⟨some bytes, temp⟩, .down⟩ := rfl
  rw [restarts, List.foldlM_cons, hcrash, Option.bind_eq_bind, Option.bind_some, List.foldlM_cons,
    hstart]
  rfl

/-- The order of the records in the table. -/
def tableOrder : Order := ⟨fun l => l, fun l => List.Perm.refl l⟩

/-- A client is confirmed. -/
def confirms : List (Act FlatFs) :=
  [.start (fun _ => sharedFs) 0 1000 [] none,
    .serve (.client (.upsertClient tableOrder 0 (List.Vector.replicate 8 0) "a" ⟨0, "", "", 0⟩ none
      lastDraw)),
    .serve (.client (.confirmClient tableOrder 1 lastDraw.token none))]

lemma confirms_run : ∃ server : StateHolders.Server FlatFs,
    Node.taken server tableOrder 0 1000 = sampleSnapshot ∧
    confirms.foldlM (Node.step sampleJson) ⟨⟨none, none⟩, .down⟩ =
      some ⟨⟨none, none⟩, .serves server none⟩ :=
  ⟨_, rfl, rfl⟩

/-- The first calls of a save. -/
def begins : List (Act FlatFs) :=
  [.save tableOrder 0 1000 [Xdr.asBytes sampleText], .write, .write]

/-- **The state file** after a crash in the middle of a save: the client that was saved before is
restored, and the file is gone. -/
theorem node_refines_crash :
    ∃ (n : Node FlatFs) (server : StateHolders.Server FlatFs) (s : CrashRecovery.Server FlatFs),
      (confirms ++ (begins ++ (.write :: (begins ++ restarts)))).foldlM (Node.step sampleJson)
        ⟨⟨none, none⟩, .down⟩ = some n ∧
      n.process = .serves server none ∧ server.clients.db.entries.map (·.id) = ["a"] ∧
      s.server = server ∧ s.file = none := by
  have htext : sampleJson.toStringPretty sampleSnapshot = .ok sampleText := by
    simp [sampleJson, sampleSnapshot]
  have hload : StateRecovery.loadFile sampleJson (some (Xdr.asBytes sampleText)) none 1010 =
      .ok sampleSnapshot := by
    rw [loadFile_of_written sampleJson_lawful (.some ⟨sampleText, htext, rfl⟩)]
    rfl
  obtain ⟨server, htaken, hconfirms⟩ := confirms_run
  rw [← htaken] at htext
  obtain ⟨restarted, hid, hrestart⟩ := @restart_run _ _ (some (Xdr.asBytes sampleText))
    (.serves server (some (Node.taken server tableOrder 0 1000, [.rename]))) hload
  have hrun : (confirms ++ (begins ++ (.write :: (begins ++ restarts)))).foldlM
      (Node.step sampleJson) ⟨⟨none, none⟩, .down⟩ =
      some ⟨⟨none, some (Xdr.asBytes sampleText)⟩, .serves restarted none⟩ := by
    have hfirst := save_run ⟨none, none⟩ htext
    have hsecond := save_run ⟨some (Xdr.asBytes sampleText), none⟩ htext
    have hrename : Node.step sampleJson ⟨⟨none, some (Xdr.asBytes sampleText)⟩,
        .serves server (some (Node.taken server tableOrder 0 1000, [.rename]))⟩ .write =
        some ⟨⟨some (Xdr.asBytes sampleText), none⟩, .serves server none⟩ := rfl
    rw [List.foldlM_append, hconfirms, Option.bind_eq_bind, Option.bind_some, List.foldlM_append,
      begins, hfirst, Option.bind_eq_bind, Option.bind_some, List.foldlM_cons, hrename,
      Option.bind_eq_bind, Option.bind_some, List.foldlM_append, hsecond, Option.bind_eq_bind,
      Option.bind_some, hrestart]
  have hworks : ∀ act ∈ confirms ++ (begins ++ (.write :: (begins ++ restarts))),
      act.Works := by
    simp [confirms, begins, restarts, Act.Works]
  obtain ⟨done, s, -, -, hfile, -, hserver⟩ := @node_refines _ _ _
    ⟨.start .new (fun _ => sharedFs) 0, none, ∅⟩ _ _ _ sampleJson_lawful hworks rfl .none hrun
  refine ⟨_, restarted, s, hrun, rfl, hid, hserver _ _ rfl, ?_⟩
  cases hsaved : s.file with
  | none => rfl
  | some _ =>
    rw [hsaved] at hfile
    cases hfile

end Samples

end StateFile

end NextNfs
