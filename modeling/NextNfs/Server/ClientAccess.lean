import NextNfs.Server.ExportManager

set_option relaxedAutoImplicit false
set_option autoImplicit false

/-!
# The clients of an export

An export has a list of clients. It is looked at when a request selects the export, but a request
starts with the file manager of an export that it has not selected. This module is about what a
client can ask of an export whose list it is not on.

## Main definitions

* `NextNfs.Dispatcher.Admits` — the export is open to the client of a connection.
* `NextNfs.Dispatcher.Guarded` — the export that requests start with is not asked before its list is
  looked at, unless it is open to the client.

## Main results

* `NextNfs.Dispatcher.admits_of_guarded` — along such runs only the exports that are open to the
  client are asked anything.
* `NextNfs.Dispatcher.not_admits_locku` — LOCKU goes to an export that is not.
-/

namespace NextNfs.Dispatcher

open Wire Dialogue

/-- The export is open to the client of the connection. -/
def Admits (S : Server) (c : Connection) (e : UInt8) : Prop :=
  (S.exports e).accessControl.checkClient c.clientAddr = true

/-- A run in which the file manager that requests start with is used with care: if a request has
selected no export, LOCKU and RELEASE_LOCKOWNER are executed, and exports that are not there are
looked up, only if the export of its file manager is open to the client. -/
structure Guarded (S : Server) (c : Connection) (h : List Event) : Prop where
  executes : ∀ arg (req : Request), (⟨.execute arg req, ()⟩ : Event) ∈ h →
    ignoresFilehandle arg = true → req.accessControl = none →
      ∀ e, req.cachedFmanager = some e → Admits S c e
  looksUp : ∀ id (ctx : Context), (⟨.getExportById id ctx, false⟩ : Event) ∈ h →
    ctx.accessControl = none → ∀ e, ctx.cachedFmanager = some e → Admits S c e

section Guarded

variable {S : Server} {c : Connection} {h : List Event} {em : ℕ → ExportManager}

/-- The rest of the server along a run. -/
def clientEnvironment (S : Server) (c : Connection) (h : List Event) : Environment S c Unit where
  step := fun _ q a _ => (⟨q, a⟩ : Event) ∈ h
  Ok := fun _ q => ∀ e call, q = .on (some e) call → Admits S c e
  Crash := True
  May := fun arg req => ignoresFilehandle arg = true → req.accessControl = none →
    ∀ e, req.cachedFmanager = some e → Admits S c e
  Selects := fun _ _ => True
  Allowed := Admits S c
  Sound := fun _ => True
  Lost := fun o _ => o = .start → ∀ e, c.defaultFmanager = some e → Admits S c e
  Root := fun _ _ => True
  Astray := True

/-- What an operation asks is of exports that are open to the client. -/
lemma admits_of_reaches {req : Request} {arg : NfsArgOp} {e : UInt8}
    (hp : (clientEnvironment S c h).Placed () req) (hmay : (clientEnvironment S c h).May arg req)
    (hreaches : req.Reaches arg (some e)) : Admits S c e := by
  obtain ⟨-, he, hfh | hignores⟩ | ⟨fh, hfh, he⟩ | ⟨-, saved, hsaved, he⟩ := hreaches
  · have hstart : ∀ {e d}, (clientEnvironment S c h).Lost .start e → c.defaultFmanager = some d →
        Admits S c d := fun hlost => hlost rfl _
    exact hp.allowed_manager hstart hfh he.symm
  · obtain ⟨o, ho, hallowed⟩ := hp.located
    have hmanager := ho.sets.cachedFmanager
    rw [← he] at hmanager
    cases o with
    | start => exact hmay hignores ho.sets.accessControl e he.symm
    | pseudoRoot => cases hmanager
    | selected e' =>
      cases hmanager
      exact hallowed e rfl
  · exact (hp.current fh hfh).allowed e he.symm
  · exact (hp.saved saved hsaved).allowed e he.symm

lemma clientEnvironment_lawful (hb : Beside c h em) (hstamps : Stamps h) (hg : Guarded S c h) :
    (clientEnvironment S c h).Lawful where
  default := hb.default_ne
  listed := fun hmem _ he => hb.listed_ne hmem he
  named := hb.named_ne
  keeps := fun _ _ _ => trivial
  selects := fun _ => trivial
  loses := by
    rintro s e ctx s' o hmem hsets
    refine ⟨?_, fun _ _ => trivial⟩
    rintro rfl d hd
    exact hg.looksUp e ctx hmem hsets.accessControl d (hsets.cachedFmanager.trans hd)
  start := fun hlost => hlost rfl _
  admits := id
  gives := fun hmem hgives =>
    ⟨(hstamps _ _ _ _ hmem hgives).1, (hstamps _ _ _ _ hmem hgives).2, fun _ => trivial⟩
  soundRoot := trivial
  root := fun _ => trivial
  found := fun _ _ => trivial
  may := fun {_ arg req _ _} hmem => hg.executes arg req hmem
  plain := by
    rintro s q hq e call rfl
    cases hq
  executes := fun _ _ _ _ heq => by cases heq
  reads := by
    rintro s e call hallowed - e' call' heq
    cases heq
    exact hallowed e' rfl
  asks := by
    rintro s arg req q hp - hmay hasks e call rfl
    exact admits_of_reaches hp hmay hasks.1
  lostManager := fun _ _ => trivial
  manager := fun _ _ _ => trivial
  overflow := fun _ _ => trivial
  slots := fun _ _ => trivial
  locks := fun _ _ => trivial

end Guarded

/-- The clients of an export: along every run of a connection beside the administration of the
server, if the file manager that requests start with is used with care, then whatever is asked of an
export is asked of one that is open to the client. -/
theorem admits_of_guarded (S : Server) (c : Connection) (msgs : List (CallBody × SecFlavor))
    {h : List Event} {out : Option (List Outcome)} {em : ℕ → ExportManager}
    (hrun : Runs (serve S c msgs []) h out) (hb : Beside c h em) (hstamps : Stamps h)
    (hg : Guarded S c h) (e : UInt8) (call : Call) (a : call.Answer)
    (hmem : (⟨.on (some e) call, a⟩ : Event) ∈ h) : Admits S c e := by
  have hcache : (clientEnvironment S c h).Caches [] := by simp [Environment.Caches]
  have hsat := Environment.serve_sat (s := ()) (clientEnvironment_lawful hb hstamps hg) msgs hcache
  exact (hsat.does.of_runs hrun fun _ hx => hx).1 _ hmem e call rfl

/-- A connection that was accepted when there was an export. -/
def lateConnection : Connection := ⟨"10.0.0.1", some 1, 0⟩

/-- LOCKU, first thing in a call. -/
def lockuFirst : List (CallBody × SecFlavor) :=
  [(callOf [.oplocku ⟨.readLt, 0, ⟨0, List.Vector.replicate 12 0⟩, 0, 1⟩], .sys)]

/-- LOCKU goes to the export that requests start with, which is open to everyone. -/
theorem admits_of_guarded_open :
    ∃ (h : List Event) (out : Option (List Outcome)),
      Runs (serve openServer lateConnection lockuFirst []) h out ∧
      Guarded openServer lateConnection h ∧
      (∃ call a, (⟨.on (some 1) call, a⟩ : Event) ∈ h) ∧ Admits openServer lateConnection 1 := by
  have hb : Beside lateConnection ((serve openServer lateConnection lockuFirst []).run
      (sampleAnswers steadyExport) 0).1 steadyExport :=
    beside_sample _ (fun e he => by cases he; exact .head _) ⟨[.addExport "share" true], rfl⟩
      fun _ => ⟨[], rfl⟩
  have hg : Guarded openServer lateConnection
      ((serve openServer lateConnection lockuFirst []).run (sampleAnswers steadyExport) 0).1 :=
    ⟨fun _ _ _ _ _ _ _ => rfl, fun _ _ _ _ _ _ => rfl⟩
  have hmem : (⟨.on (some 1) (.unlockFile (List.Vector.replicate 12 0) 0 1),
      ⟨.error .nfs4errServerfault, by simp⟩⟩ : Event) ∈
      ((serve openServer lateConnection lockuFirst []).run (sampleAnswers steadyExport) 0).1 :=
    List.mem_of_getElem? (i := 3) rfl
  exact ⟨_, _, runs_run _ 0 _, hg, ⟨_, _, hmem⟩,
    admits_of_guarded _ _ _ (runs_run _ 0 _) hb (stamps_sample _ _) hg 1 _ _ hmem⟩

/-! ### An export that is not open -/

/-- A server whose exports are open to nobody. -/
def closedServer : Server :=
  { openServer with exports := fun _ => ⟨"share", false, ⟨fun _ => false, .none, 0, 0, []⟩⟩ }

/-- LOCKU unlocks in the export that requests start with, which is open to nobody. -/
theorem not_admits_locku :
    ∃ (h : List Event) (out : Option (List Outcome)) (em : ℕ → ExportManager),
      Runs (serve closedServer lateConnection lockuFirst []) h out ∧
      Beside lateConnection h em ∧ Stamps h ∧
      ∃ (e : UInt8) (other : List.Vector UInt8 12) (offset length : UInt64) (a : _),
        (⟨.on (some e) (.unlockFile other offset length), a⟩ : Event) ∈ h ∧
        ¬ Admits closedServer lateConnection e := by
  refine ⟨_, _, steadyExport, runs_run (sampleAnswers steadyExport) 0 _,
    beside_sample _ (fun e he => by cases he; exact .head _) ⟨[.addExport "share" true], rfl⟩
      fun _ => ⟨[], rfl⟩,
    stamps_sample _ _, 1, _, 0, 1, _, List.mem_of_getElem? (i := 3) rfl, nofun⟩

end NextNfs.Dispatcher
