import NextNfs.Server.ExportManager

set_option relaxedAutoImplicit false
set_option autoImplicit false

/-!
# The export of a request

A request caches what belongs to the export of its current filehandle: the file manager, the access
control, the read-only flag, the quota manager and the rate limiter. This module is about when the
cached fields are those of that export, and the export is there.

## Main definitions

* `NextNfs.Dispatcher.Request.OnLiveExport` — the fields are those of the export of the current
  filehandle, which is there.
* `NextNfs.Dispatcher.LiveExports` — the exports of a run are there when they are looked up, and as
  long as a compound is on them.

## Main results

* `NextNfs.Dispatcher.onLiveExport_of_liveExports` — the fields are right along such runs.
* `NextNfs.Dispatcher.not_onLiveExport_removed` — a cached filehandle outlives its export.
-/

namespace NextNfs.Dispatcher

open Wire Dialogue

/-! ### The export selected last -/

/-- The export selected after a question, from the one selected before it. -/
def selectedAfter (sel : Option UInt8) : Event → Option UInt8
  | ⟨.arrive, _⟩ => none
  | ⟨.getExportById e _, known⟩ => if known then some e else none
  | _ => sel

/-- The export that a call has selected last. -/
def selectedBy (h : List Event) : Option UInt8 := h.foldl selectedAfter none

lemma selectedBy_append (h : List Event) (x : Event) :
    selectedBy (h ++ [x]) = selectedAfter (selectedBy h) x := by
  rw [selectedBy, List.foldl_append]
  rfl

lemma selectedAfter_of_neutral (sel : Option UInt8) {x : Event} (hx : x.1.neutral = true) :
    selectedAfter sel x = sel := by
  obtain ⟨q, a⟩ := x
  cases q <;> first | rfl | cases hx

/-- The export selected last was found, and none was looked up after it. -/
lemma exists_of_selectedBy {h : List Event} {e : UInt8} (hsel : selectedBy h = some e) :
    ∃ h₁ ctx h₂, h = h₁ ++ (⟨.getExportById e ctx, true⟩ : Event) :: h₂ ∧
      ∀ x ∈ h₂, x.1.neutral = true := by
  induction h using List.reverseRecOn with
  | nil => cases hsel
  | append_singleton h x ih =>
    rw [selectedBy_append] at hsel
    by_cases hx : x.1.neutral = true
    · rw [selectedAfter_of_neutral _ hx] at hsel
      obtain ⟨h₁, ctx, h₂, rfl, hneutral⟩ := ih hsel
      refine ⟨h₁, ctx, h₂ ++ [x], by simp, fun y hy => ?_⟩
      rcases List.mem_append.1 hy with hy | hy
      · exact hneutral y hy
      · rw [List.mem_singleton.1 hy]
        exact hx
    · obtain ⟨q, a⟩ := x
      cases q with
      | arrive => cases hsel
      | getExportById e' ctx =>
        cases a with
        | false => cases hsel
        | true =>
          cases hsel
          exact ⟨h, ctx, [], rfl, by simp⟩
      | _ => exact absurd rfl hx

/-! ### The fields of a request -/

/-- The fields of a request are those of an export. -/
structure Request.FieldsOf (S : Server) (e : UInt8) (req : Request) : Prop where
  cachedFmanager : req.cachedFmanager = some e
  accessControl : req.accessControl = some e
  readOnly : req.readOnly = (S.exports e).readOnly
  quotaManager : req.quotaManager = some e
  rateLimiter : req.rateLimiter = some e

/-- The fields of a request are absent. -/
structure Request.FieldsAbsent (req : Request) : Prop where
  cachedFmanager : req.cachedFmanager = none
  accessControl : req.accessControl = none
  readOnly : req.readOnly = false
  quotaManager : req.quotaManager = none
  rateLimiter : req.rateLimiter = none

/-- The fields of a request are those of the export of its filehandle, which is there, or absent at
the root that lists the exports. -/
def Request.OnLiveExport (S : Server) (em : ExportManager) (req : Request) (fh : Handle) : Prop :=
  if exportIdFromFh fh.id = pseudoRootExportId then req.FieldsAbsent
  else exportIdFromFh fh.id ∈ em.listExports ∧ req.FieldsOf S (exportIdFromFh fh.id)

/-- The exports of a run are there when they are looked up by number, each stays until the call is
over or looks up another, and its root is found by its id. -/
structure LiveExports (h : List Event) (em : ℕ → ExportManager) : Prop where
  known : ∀ (i : ℕ) e ctx a, h[i]? = some (⟨.getExportById e ctx, a⟩ : Event) →
    e ∈ (em i).listExports
  stays : ∀ (i j : ℕ) e ctx, i < j → h[i]? = some (⟨.getExportById e ctx, true⟩ : Event) →
    (∀ (k : ℕ) (x : Event), i < k → k < j → h[k]? = some x → x.1.neutral = true) →
      e ∈ (em j).listExports
  root : ∀ e fh f, (⟨.on (some e) .getRootFilehandle, .ok fh⟩ : Event) ∈ h →
    (⟨.on (some e) (.getFilehandleForId fh.id), .error f⟩ : Event) ∉ h

section LiveExports

variable {S : Server} {c : Connection} {h : List Event} {em : ℕ → ExportManager}

/-- The rest of the server along a run: the state is what has been asked so far. -/
def historyEnvironment (S : Server) (c : Connection) (h : List Event) :
    Environment S c (List Event) where
  step := fun s q a s' => s' = s ++ [⟨q, a⟩] ∧ (⟨q, a⟩ : Event) ∈ h
  Ok := fun s q => ∀ arg req, q = .execute arg req → Admitted S arg req ∧
    ∀ fh, req.filehandle = some fh →
      (exportIdFromFh fh.id = pseudoRootExportId ∧ req.FieldsAbsent) ∨
        (exportIdFromFh fh.id ≠ pseudoRootExportId ∧ selectedBy s = some (exportIdFromFh fh.id) ∧
          req.FieldsOf S (exportIdFromFh fh.id))
  Crash := True
  May := fun _ _ => True
  Selects := fun s e => selectedBy s = some e
  Allowed := fun _ => True
  Sound := fun _ => True
  Lost := fun _ _ => False
  Root := fun e id => ∃ fh, (⟨.on (some e) .getRootFilehandle, .ok fh⟩ : Event) ∈ h ∧ fh.id = id
  Astray := False

/-- A request that is placed has the fields of the export of its filehandle. -/
lemma fieldsOf_of_placed {s : List Event} {req : Request} {fh : Handle}
    (hp : (historyEnvironment S c h).Placed s req) (hfh : req.filehandle = some fh) :
    (exportIdFromFh fh.id = pseudoRootExportId ∧ req.FieldsAbsent) ∨
      (exportIdFromFh fh.id ≠ pseudoRootExportId ∧ selectedBy s = some (exportIdFromFh fh.id) ∧
        req.FieldsOf S (exportIdFromFh fh.id)) := by
  obtain ⟨o, ho, -⟩ := hp.located
  have hcurrent := hp.current fh hfh
  have hnumber : req.currentExportId = o.number := ho.number.resolve_right fun ⟨_, _, _, h⟩ => h
  have hnear : req.currentExportId = some (exportIdFromFh fh.id) ∨
      req.cachedFmanager = some (exportIdFromFh fh.id) := hcurrent.near.resolve_right id
  cases o with
  | start => exact absurd hnumber hcurrent.number
  | pseudoRoot =>
    obtain ⟨hfm, hrate, hquota, haccess, hro⟩ := ho.sets
    refine .inl ⟨?_, hfm, haccess, hro, hquota, hrate⟩
    obtain hnear | hnear := hnear
    · exact Option.some.inj (hnear.symm.trans hnumber)
    · cases hnear.symm.trans hfm
  | selected e =>
    obtain ⟨hfm, hrate, hquota, haccess, hro⟩ := ho.sets
    obtain ⟨hsel, hne⟩ := ho.selects e rfl
    have hid : exportIdFromFh fh.id = e := by
      obtain hnear | hnear := hnear
      · exact Option.some.inj (hnear.symm.trans hnumber)
      · exact Option.some.inj (hnear.symm.trans hfm)
    rw [hid]
    exact .inr ⟨hne, hsel, hfm, haccess, hro, hquota, hrate⟩

lemma historyEnvironment_lawful (hb : Beside c h em) (hstamps : Stamps h)
    (hlive : LiveExports h em) : (historyEnvironment S c h).Lawful where
  default := hb.default_ne
  listed := fun hstep _ he => hb.listed_ne hstep.2 he
  named := fun hstep => hb.named_ne hstep.2
  keeps := by
    rintro s q a s' e ⟨rfl, -⟩ hq hsel
    exact (selectedBy_append _ _).trans ((selectedAfter_of_neutral _ hq).trans hsel)
  selects := by
    rintro s e ctx s' ⟨rfl, -⟩
    exact selectedBy_append _ _
  loses := by
    rintro s e ctx s' o ⟨rfl, hmem⟩ -
    obtain ⟨i, hi⟩ := List.mem_iff_getElem?.1 hmem
    have hanswer : false = (em i).getExportById e := hb.answers i _ hi
    have hknown := hlive.known i e ctx false hi
    rw [ExportManager.getExportById, List.contains_iff_mem.2 hknown] at hanswer
    cases hanswer
  start := fun hlost => hlost.elim
  admits := fun _ => trivial
  gives := by
    rintro s e call a s' fh ⟨-, hmem⟩ hgives
    obtain ⟨hid, hvfs⟩ := hstamps e call a fh hmem hgives
    exact ⟨hid, hvfs, fun _ => trivial⟩
  soundRoot := trivial
  root := fun {_ _ fh _} hstep => ⟨fh, hstep.2, rfl⟩
  found := by
    rintro s e id f s' ⟨fh, hmem, rfl⟩ hstep
    exact hlive.root e fh f hmem hstep.2
  may := fun _ => trivial
  plain := by
    rintro s q hq arg req rfl
    cases hq
  executes := by
    rintro s arg req hp hadm arg' req' heq
    cases heq
    exact ⟨hadm, fun fh hfh => fieldsOf_of_placed hp hfh⟩
  reads := fun _ _ _ _ heq => by cases heq
  asks := by
    rintro s arg req q - - - hasks arg' req' rfl
    exact absurd hasks id
  lostManager := fun hlost => hlost.elim
  manager := fun _ _ _ => trivial
  overflow := fun _ _ => trivial
  slots := fun _ _ => trivial
  locks := fun _ _ => trivial

/-- What has been asked so far is the state. -/
lemma eq_of_allows {s t h₁ : List Event}
    (hallow : Allows (historyEnvironment S c h).step s h₁ t) : t = s ++ h₁ := by
  induction hallow with
  | nil s => simp
  | cons hstep _ ih =>
    rw [ih, hstep.1]
    simp

/-- The environment allows the run. -/
lemma allows_history {s h₁ : List Event} (hsub : ∀ x ∈ h₁, x ∈ h) :
    Allows (historyEnvironment S c h).step s h₁ (s ++ h₁) := by
  induction h₁ generalizing s with
  | nil => simpa using Allows.nil s
  | cons x h₁ ih =>
    have hrest := ih (s := s ++ [x]) fun y hy => hsub y (List.mem_cons_of_mem _ hy)
    rw [List.append_assoc] at hrest
    exact .cons ⟨rfl, hsub x List.mem_cons_self⟩ hrest

end LiveExports

/-- The export of a request: along every run of a connection beside the administration of the
server, if the exports are there when they are looked up, stay while a compound is on them and their
roots are found, then every operation that is executed with a current filehandle has the fields of
the export of that filehandle, which is there. -/
theorem onLiveExport_of_liveExports (S : Server) (c : Connection)
    (msgs : List (CallBody × SecFlavor)) {h : List Event} {out : Option (List Outcome)}
    {em : ℕ → ExportManager} (hrun : Runs (serve S c msgs []) h out) (hb : Beside c h em)
    (hstamps : Stamps h) (hlive : LiveExports h em) (i : ℕ) (arg : NfsArgOp) (req : Request)
    (fh : Handle) (hi : h[i]? = some ⟨.execute arg req, ()⟩) (hfh : req.filehandle = some fh) :
    req.OnLiveExport S (em i) fh := by
  have hcache : (historyEnvironment S c h).Caches [] := by simp [Environment.Caches]
  have hsat := Environment.serve_sat (s := []) (historyEnvironment_lawful (S := S) hb hstamps hlive)
    msgs hcache
  obtain ⟨hlt, hget⟩ := List.getElem?_eq_some_iff.1 hi
  have hsplit : h = h.take i ++ ⟨.execute arg req, ()⟩ :: h.drop (i + 1) := by
    rw [← hget, ← List.drop_eq_getElem_cons hlt, List.take_append_drop]
  obtain ⟨u, hu, -, hok⟩ := (hsat.holds_of_runs hrun (allows_history fun x hx => hx)).1 _ _ _ hsplit
  have hsel := (hok arg req rfl).2 fh hfh
  rw [eq_of_allows hu, List.nil_append] at hsel
  unfold Request.OnLiveExport
  obtain ⟨hroot, habsent⟩ | ⟨hne, hsel, hfields⟩ := hsel
  · rw [if_pos hroot]
    exact habsent
  · rw [if_neg hne]
    refine ⟨?_, hfields⟩
    -- The export was found when it was selected, and nothing was looked up since.
    obtain ⟨h₁, ctx, h₂, heq, hneutral⟩ := exists_of_selectedBy hsel
    have hlen : i = h₁.length + (h₂.length + 1) := by
      have := congrArg List.length heq
      rw [List.length_take, min_eq_left hlt.le] at this
      simpa using this
    have hpos : ∀ k, k < i →
        h[k]? = (h₁ ++ (⟨.getExportById (exportIdFromFh fh.id) ctx, true⟩ : Event) :: h₂)[k]? := by
      intro k hk
      rw [← heq, List.getElem?_take_of_lt hk]
    refine hlive.stays h₁.length i _ ctx (by omega) ?_ fun k x hk hki hx => ?_
    · rw [hpos _ (by omega)]
      simp
    · rw [hpos k hki, List.getElem?_append_right (by omega)] at hx
      obtain ⟨m, hm⟩ : ∃ m, k - h₁.length = m + 1 := ⟨k - h₁.length - 1, by omega⟩
      rw [hm, List.getElem?_cons_succ] at hx
      exact hneutral x (List.mem_of_getElem? hx)

/-- Exports that are always there, and find the files they are asked for. -/
lemma liveExports_of_known {h : List Event} {em : ℕ → ExportManager}
    (hknown : ∀ e ctx a, (⟨.getExportById e ctx, a⟩ : Event) ∈ h → ∀ i, e ∈ (em i).listExports)
    (hfound : ∀ e id f, (⟨.on (some e) (.getFilehandleForId id), .error f⟩ : Event) ∉ h) :
    LiveExports h em where
  known := fun i e ctx a hi => hknown e ctx a (List.mem_of_getElem? hi) i
  stays := fun _ j e ctx _ hi _ => hknown e ctx true (List.mem_of_getElem? hi) j
  root := fun e fh f _ => hfound e fh.id f

/-- PUTFH and GETFH of a file of an export. -/
def putfhGetfh : List (CallBody × SecFlavor) := [(callOf [.opputfh ⟨fileId 1⟩, .opgetfh], .sys)]

/-- An export that stays is there along the run of PUTFH and GETFH. -/
lemma liveExports_putfhGetfh :
    LiveExports ((serve openServer earlyConnection putfhGetfh []).run
      (sampleAnswers steadyExport) 0).1 steadyExport := by
  have hknown : ∀ e ctx a, (⟨.getExportById e ctx, a⟩ : Event) ∈
      ((serve openServer earlyConnection putfhGetfh []).run (sampleAnswers steadyExport) 0).1 →
      e ∈ (steadyExport 0).listExports := by
    intro e ctx a hmem
    have hall : (((serve openServer earlyConnection putfhGetfh []).run
        (sampleAnswers steadyExport) 0).1.all fun x => match x.1 with
        | .getExportById e _ => e == 1
        | _ => true) = true := rfl
    have he : (e == 1) = true := List.all_eq_true.1 hall _ hmem
    rw [eq_of_beq he]
    exact List.mem_singleton_self 1
  refine liveExports_of_known (fun e ctx a hmem _ => hknown e ctx a hmem) fun e id f hmem => ?_
  obtain ⟨i, hi⟩ := List.mem_iff_getElem?.1 hmem
  cases Prog.answer_of_run hi

lemma beside_putfhGetfh :
    Beside earlyConnection ((serve openServer earlyConnection putfhGetfh []).run
      (sampleAnswers steadyExport) 0).1 steadyExport :=
  beside_sample _ nofun ⟨[.addExport "share" true], rfl⟩ fun _ => ⟨[], rfl⟩

/-- An export that stays is live along the run of PUTFH and GETFH. -/
theorem onLiveExport_of_liveExports_steady :
    ∃ (h : List Event) (out : Option (List Outcome)),
      Runs (serve openServer earlyConnection putfhGetfh []) h out ∧ LiveExports h steadyExport ∧
      ∃ (req : Request), h[8]? = some ⟨.execute .opgetfh req, ()⟩ ∧
        req.OnLiveExport openServer (steadyExport 8) (fileHandle 1) :=
  ⟨_, _, runs_run _ 0 _, liveExports_putfhGetfh, _, rfl, onLiveExport_of_liveExports _ _ _
    (runs_run _ 0 _) beside_putfhGetfh (stamps_sample _ _) liveExports_putfhGetfh 8 .opgetfh _ _
    rfl rfl⟩

/-! ### An export that is removed -/

/-- An export that is there for the first compound only. -/
def removedExport (i : ℕ) : ExportManager := if i < 6 then ⟨[("share", 1)], 2⟩ else ⟨[], 2⟩

lemma removedExport_reachable : (removedExport 0).Reachable := ⟨[.addExport "share" true], rfl⟩

lemma removedExport_evolves (i : ℕ) : (removedExport i).Evolves (removedExport (i + 1)) := by
  by_cases hi : i = 5
  · exact ⟨[.removeExport "share"], by rw [hi]; rfl⟩
  · have hlt : (i + 1 < 6) = (i < 6) := propext (by omega)
    exact ⟨[], by simp only [removedExport, hlt, List.foldl_nil]⟩

/-- PUTFH of a file of the export in one compound, and again in the next. -/
def putfhTwice : List (CallBody × SecFlavor) :=
  [(callOf [.opputfh ⟨fileId 1⟩], .sys), (callOf [.opputfh ⟨fileId 1⟩, .opgetfh], .sys)]

/-- The cache of the connection outlives the export: the filehandle becomes the current one, with
no file manager. -/
theorem not_onLiveExport_removed :
    ∃ (h : List Event) (out : Option (List Outcome)) (em : ℕ → ExportManager),
      Runs (serve openServer earlyConnection putfhTwice []) h out ∧
      Beside earlyConnection h em ∧ Stamps h ∧
      ∃ (i : ℕ) (arg : NfsArgOp) (req : Request) (fh : Handle),
        h[i]? = some ⟨.execute arg req, ()⟩ ∧ req.filehandle = some fh ∧
        ¬ req.OnLiveExport openServer (em i) fh := by
  refine ⟨_, _, removedExport, runs_run (sampleAnswers removedExport) 0 _,
    beside_sample _ nofun removedExport_reachable removedExport_evolves, stamps_sample _ _,
    13, .opgetfh, _, _, rfl, rfl, ?_⟩
  intro hlive
  cases hlive.2.cachedFmanager

end NextNfs.Dispatcher
