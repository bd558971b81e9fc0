import NextNfs.Server.Connections

set_option relaxedAutoImplicit false
set_option autoImplicit false

/-!
# Read-only exports

The operations on a read-only export are refused if they count as mutating. This module is about
what the other operations do to the export, along runs of any connections.

## Main definitions

* `NextNfs.Dispatcher.CachesOnDemand` — a file manager makes a write cache when it is asked for one.
* `NextNfs.Dispatcher.Sheltered` — along a run, no store of named attributes is made in the export,
  and its number and its root are found.

## Main results

* `NextNfs.Dispatcher.not_modifies_of_sheltered` — a read-only export is not changed along such
  runs.
* `NextNfs.Dispatcher.modifies_openattr` — OPENATTR changes it.
-/

namespace NextNfs.Dispatcher

open Wire Dialogue

variable {ι : Type}

/-- The file manager of an export gives out filehandles with a write cache only after it was asked
for a write cache. -/
def CachesOnDemand (h : List (ι × Event)) : Prop :=
  ∀ h₁ x h₂, h = h₁ ++ x :: h₂ → ∀ e (call : Call) a fh,
    x.2 = (⟨.on (some e) call, a⟩ : Event) → call.Gives a fh → fh.writeCache = true →
      ∃ y ∈ h₁, ∃ id, y.2.1 = .on (some e) (.getWriteCacheHandle id)

/-- A run that leaves a way around the read-only flag of the export unused: OPENATTR does not make a
store of named attributes in it; the export is found by its number, and no other one is missed from
its file manager; and the roots of exports are found by their ids. -/
structure Sheltered (e : UInt8) (h : List Event) : Prop where
  openattr : ∀ args (req : Request), (⟨.execute (.opopenattr args) req, ()⟩ : Event) ∈ h →
    args.createdir = true → req.cachedFmanager ≠ some e
  looksUp : ∀ id (ctx : Context), (⟨.getExportById id ctx, false⟩ : Event) ∈ h →
    id ≠ e ∧ ctx.cachedFmanager ≠ some e
  root : ∀ e' fh f, (⟨.on (some e') .getRootFilehandle, .ok fh⟩ : Event) ∈ h →
    (⟨.on (some e') (.getFilehandleForId fh.id), .error f⟩ : Event) ∉ h

section Sheltered

variable {S : Server} {c : Connection} {e : UInt8} {h : List Event} {req : Request} {arg : NfsArgOp}

/-- An answer of the file manager of the export without a write cache. -/
def Uncached (e : UInt8) (x : Event) : Prop :=
  ∀ (call : Call) a fh, x = (⟨.on (some e) call, a⟩ : Event) → call.Gives a fh →
    fh.writeCache = false

/-- The rest of the server along a run. -/
def readOnlyEnvironment (S : Server) (c : Connection) (e : UInt8) (h : List Event) :
    Environment S c Unit where
  step := fun _ q a _ => (⟨q, a⟩ : Event) ∈ h ∧ Uncached e ⟨q, a⟩
  Ok := fun _ q => ∀ call, q = .on (some e) call → call.modifies = false
  Crash := True
  May := fun arg req => ∀ args, arg = .opopenattr args → args.createdir = true →
    req.cachedFmanager ≠ some e
  Selects := fun _ _ => True
  Allowed := fun _ => True
  Sound := fun tag => tag.vfs = some e → tag.writeCache = false
  Lost := fun o id => id ≠ e ∧ o.manager c.defaultFmanager ≠ some e
  Root := fun e' id => ∃ fh, (⟨.on (some e') .getRootFilehandle, .ok fh⟩ : Event) ∈ h ∧ fh.id = id
  Astray := False

/-- A request that is on the export by its number or by its file manager has selected it. -/
lemma selected_of_placed (hp : (readOnlyEnvironment S c e h).Placed () req)
    (hsome : req.filehandle.isSome) (hne : e ≠ pseudoRootExportId)
    (hon : req.currentExportId = some e ∨ req.cachedFmanager = some e) :
    (readOnlyEnvironment S c e h).Located () (.selected e) req.toContext ∧
      req.currentExportId = some e := by
  obtain ⟨o, ho, -⟩ := hp.located
  obtain ⟨fh, hfh⟩ := Option.isSome_iff_exists.1 hsome
  have hmanager : req.cachedFmanager = o.manager c.defaultFmanager := ho.sets.cachedFmanager
  -- A request that is lost is elsewhere.
  have hnumber : req.currentExportId = o.number := by
    refine ho.number.resolve_right ?_
    rintro ⟨e', he', -, hlost, hother⟩
    obtain hcur | hm := hon
    · exact hlost (Option.some.inj (he'.symm.trans hcur))
    · exact hother (hmanager.symm.trans hm)
  cases o with
  | start => exact absurd hnumber (hp.current fh hfh).number
  | pseudoRoot =>
    obtain hcur | hm := hon
    · exact absurd (Option.some.inj (hcur.symm.trans hnumber)) hne
    · cases hmanager.symm.trans hm
  | selected e' =>
    have he' : e' = e := by
      obtain hcur | hm := hon
      · exact Option.some.inj (hnumber.symm.trans hcur)
      · exact Option.some.inj (hmanager.symm.trans hm)
    subst he'
    exact ⟨ho, hnumber⟩

/-- A current filehandle in the file system of the export is of the export. -/
lemma near_of_vfs (hp : (readOnlyEnvironment S c e h).Placed () req) {fh : Handle}
    (hfh : req.filehandle = some fh) (hid : exportIdFromFh fh.id = e) :
    req.currentExportId = some e ∨ req.cachedFmanager = some e := by
  rw [← hid]
  exact (hp.current fh hfh).near.resolve_right id

lemma exportId_of_home {id : NfsFh4} (hhome : some e = homeOf id) :
    exportIdFromFh id = e ∧ e ≠ pseudoRootExportId := by
  unfold homeOf at hhome
  split_ifs at hhome with hroot
  cases hhome
  exact ⟨rfl, hroot⟩

/-- An operation that is admitted does not change the export. -/
lemma not_writesTo (hdefault : c.defaultFmanager ≠ some pseudoRootExportId)
    (hro : (S.exports e).readOnly = true)
    (hp : (readOnlyEnvironment S c e h).Placed () req) (hadm : Admitted S arg req)
    (hmay : (readOnlyEnvironment S c e h).May arg req) (hmodify : mayModify arg req = true) :
    ¬ req.WritesTo arg (some e) := by
  -- A request on the export, with a filehandle, has its flag.
  have hselected : req.filehandle.isSome → e ≠ pseudoRootExportId →
      (req.currentExportId = some e ∨ req.cachedFmanager = some e) → False := by
    intro hsome hne hon
    obtain ⟨ho, hnumber⟩ := selected_of_placed hp hsome hne hon
    obtain ⟨fh, hfh⟩ := Option.isSome_iff_exists.1 hsome
    have hmanager : req.cachedFmanager = some e := ho.sets.cachedFmanager
    have hmutating := hadm.readOnly (ho.sets.readOnly.trans hro)
    cases arg with
    | opopenattr args => exact hmay args rfl hmodify hmanager
    | opclose args =>
      have hcached : fh.writeCache = true := by simpa [mayModify, hfh] using hmodify
      have hcurrent := hp.current fh hfh
      have hid : exportIdFromFh fh.id = e := by
        obtain hnear | hnear := hcurrent.near.resolve_right id
        · exact (Option.some.inj (hnumber.symm.trans hnear)).symm
        · exact (Option.some.inj (hmanager.symm.trans hnear)).symm
      have hvfs : fh.vfs = some e := by
        have hhome : fh.vfs = homeOf fh.id := hcurrent.home
        rw [hhome, homeOf, hid, if_neg hne]
      cases hcached.symm.trans (hcurrent.sound hvfs)
    | _ => cases hmodify.symm.trans hmutating
  have hcurrent : ∀ fh, req.filehandle = some fh → exportIdFromFh fh.id = e →
      e ≠ pseudoRootExportId → False := fun fh hfh hid hne =>
    hselected (by simp [hfh]) hne (near_of_vfs hp hfh hid)
  rintro (⟨-, hm, hsome⟩ | ⟨fh, hfh, hvfs⟩ | ⟨hone, hmsome, hsome, saved, hsaved, hvfs⟩)
  · obtain ⟨o, ho, -⟩ := hp.located
    exact hselected hsome (ho.manager_ne hdefault hm.symm) (.inr hm.symm)
  · have hhome : some e = homeOf fh.id := hvfs.trans (hp.current fh hfh).home
    obtain ⟨hid, hne⟩ := exportId_of_home hhome
    exact hcurrent fh hfh hid hne
  · obtain ⟨fh, hfh⟩ := Option.isSome_iff_exists.1 hsome
    have hhome : some e = homeOf saved.id := hvfs.trans (hp.saved saved hsaved).home
    obtain ⟨hid, hne⟩ := exportId_of_home hhome
    have hroot : req.isPseudoRoot = false := by
      rw [← Bool.not_eq_true]
      intro hroot
      have hnumber : req.currentExportId = some pseudoRootExportId := by
        simpa [Request.isPseudoRoot] using hroot
      obtain ⟨o, ho, -⟩ := hp.located
      have hnone : req.cachedFmanager = o.manager c.defaultFmanager := ho.sets.cachedFmanager
      cases ho.arrives hnumber with
      | pseudoRoot => simp [hnone, Origin.manager] at hmsome
      | selected hne => exact hne rfl
      | lost hne => exact hne rfl
    exact hcurrent fh hfh ((hadm.oneExport hone hmsome hroot fh saved hfh hsaved).symm.trans hid) hne

lemma readOnlyEnvironment_lawful {conn : ι → Connection} {run : List (ι × Event)}
    (hc : Connects conn run) (i : ι) (hro : (S.exports e).readOnly = true)
    (hs : Sheltered e (events run)) : (readOnlyEnvironment S (conn i) e (events run)).Lawful where
  default := hc.default_ne i
  listed := fun hstep _ he => hc.listed_ne hstep.1 he
  named := fun hstep => hc.named_ne hstep.1
  keeps := fun _ _ _ => trivial
  selects := fun _ => trivial
  loses := by
    rintro s id ctx s' o ⟨hmem, -⟩ hsets
    obtain ⟨hid, hm⟩ := hs.looksUp id ctx hmem
    exact ⟨⟨hid, hsets.cachedFmanager ▸ hm⟩, fun _ _ => trivial⟩
  start := fun _ _ => trivial
  admits := fun _ => trivial
  gives := by
    rintro s e' call a s' fh ⟨hmem, huncached⟩ hgives
    obtain ⟨hid, hvfs⟩ := hc.stamps e' call a fh hmem hgives
    refine ⟨hid, hvfs, fun _ hsame => ?_⟩
    cases hvfs.symm.trans hsame
    exact huncached call a fh rfl hgives
  soundRoot := nofun
  root := fun {_ _ fh _} hstep => ⟨fh, hstep.1, rfl⟩
  found := by
    rintro s e' id f s' ⟨fh, hmem, rfl⟩ hstep
    exact hs.root e' fh f hmem hstep.1
  may := by
    rintro s arg req a s' ⟨hmem, -⟩ args rfl
    exact hs.openattr args req hmem
  plain := by
    rintro s q hq call rfl
    cases hq
  executes := fun _ _ _ heq => by cases heq
  reads := by
    rintro s e' call - hmod call' heq
    cases heq
    exact hmod
  asks := by
    rintro s arg req q hp hadm hmay hasks call rfl
    rw [← Bool.not_eq_true]
    intro hmod
    obtain ⟨hwrites, hmodify⟩ := hasks.2 hmod
    exact not_writesTo (hc.default_ne i) hro hp hadm hmay hmodify hwrites
  lostManager := fun _ _ => trivial
  manager := fun _ _ _ => trivial
  overflow := fun _ _ => trivial
  slots := fun _ _ => trivial
  locks := fun _ _ => trivial

end Sheltered

/-- Read-only exports: along every run of any connections, if no way around its flag is used,
nothing that is asked of a read-only export changes it. -/
theorem not_modifies_of_sheltered [DecidableEq ι] (S : Server) (conn : ι → Connection)
    (calls : ι → List (CallBody × SecFlavor)) {h : List (ι × Event)} {left : ι → Op (List Outcome)}
    (hrun : Serves S conn calls h left) (hc : Connects conn h) (hcaches : CachesOnDemand h)
    (e : UInt8) (hro : (S.exports e).readOnly = true) (hs : Sheltered e (events h))
    (x : ι × Event) (hx : x ∈ h) (call : Call) (hcall : x.2.1 = .on (some e) call) :
    call.modifies = false := by
  have hdoes : ∀ i, (serve S (conn i) (calls i) []).Does
      (fun q a => (⟨q, a⟩ : Event) ∈ events h ∧ Uncached e ⟨q, a⟩)
      (fun q => ∀ call, q = .on (some e) call → call.modifies = false) True fun _ => True := by
    intro i
    have hcache : (readOnlyEnvironment S (conn i) e (events h)).Caches [] := by
      simp [Environment.Caches]
    have hsat := Environment.serve_sat (s := ()) (readOnlyEnvironment_lawful hc i hro hs) (calls i)
      hcache
    exact hsat.does.imp fun _ _ => trivial
  refine (Interleaves.does hrun hdoes ?_).1 x hx call hcall
  -- No write cache was asked for before, so none is given out.
  rintro h₁ y h₂ rfl hbefore -
  refine ⟨List.mem_map_of_mem (by simp), fun call a fh hy hgives => ?_⟩
  rw [← Bool.not_eq_true]
  intro hcached
  obtain ⟨z, hz, id, hask⟩ := hcaches h₁ y h₂ rfl e call a fh hy hgives hcached
  cases hbefore z hz _ hask

/-! ### An export to try things on -/

/-- A server whose exports are read-only. -/
def readOnlyServer : Server :=
  { openServer with exports := fun _ => ⟨"share", true, ⟨fun _ => true, .none, 0, 0, []⟩⟩ }

/-- OPENATTR of a file of the export. -/
def openattrOf (createdir : Bool) : List (CallBody × SecFlavor) :=
  [(callOf [.opputfh ⟨fileId 1⟩, .opopenattr ⟨createdir⟩], .sys)]

/-- The filehandles of the exports that have one file each have no write cache. -/
lemma cachesOnDemand_sample (S : Server) (c : Connection) (msgs : List (CallBody × SecFlavor))
    (em : ℕ → ExportManager) : CachesOnDemand (aloneRun S c msgs (sampleAnswers em)) := by
  intro h₁ x h₂ heq e call a fh hx hgives hcached
  have hmem : (⟨.on (some e) call, a⟩ : Event) ∈ events (aloneRun S c msgs (sampleAnswers em)) := by
    rw [heq, ← hx]
    simp [events]
  rw [events_aloneRun] at hmem
  obtain ⟨i, hi⟩ := List.mem_iff_getElem?.1 hmem
  have ha : a = sampleAnswers em i (.on (some e) call) := by simpa using Prog.answer_of_run hi
  subst ha
  cases call with
  | getRootFilehandle | getFilehandleForId | getFilehandleForPath =>
    cases hgives
    cases hcached
  | createFile | openNamedAttrDir => cases hgives
  | _ => exact absurd hgives id

lemma beside_openattr (S : Server) (createdir : Bool) :
    Beside earlyConnection ((serve S earlyConnection (openattrOf createdir) []).run
      (sampleAnswers steadyExport) 0).1 steadyExport :=
  beside_sample _ nofun ⟨[.addExport "share" true], rfl⟩ fun _ => ⟨[], rfl⟩

/-- OPENATTR that does not create leaves the export as it is. -/
theorem not_modifies_openattr :
    ∃ (h : List (Unit × Event)) (left : Unit → Op (List Outcome)),
      Serves readOnlyServer (fun _ => earlyConnection) (fun _ => openattrOf false) h left ∧
      Sheltered 1 (events h) ∧
      ∃ x ∈ h, ∃ fileid, x.2.1 = .on (some 1) (.openNamedAttrDir fileid false) ∧
        Call.modifies (.openNamedAttrDir fileid false) = false := by
  obtain ⟨left, hrun, -⟩ := serves_aloneRun readOnlyServer earlyConnection (openattrOf false)
    (sampleAnswers steadyExport)
  have hs : Sheltered 1 (events (aloneRun readOnlyServer earlyConnection (openattrOf false)
      (sampleAnswers steadyExport))) := by
    rw [events_aloneRun]
    refine ⟨fun args req hmem hcreate => ?_, fun id ctx hmem => ?_, fun e fh f _ hmem => ?_⟩
    · have hall : (((serve readOnlyServer earlyConnection (openattrOf false) []).run
          (sampleAnswers steadyExport) 0).1.all fun x => match x.1 with
          | .execute (.opopenattr args) _ => !args.createdir
          | _ => true) = true := rfl
      have hnot : (!args.createdir) = true := List.all_eq_true.1 hall _ hmem
      simp [hcreate] at hnot
    · have hall : (((serve readOnlyServer earlyConnection (openattrOf false) []).run
          (sampleAnswers steadyExport) 0).1.all fun x => match x with
          | ⟨.getExportById _ _, known⟩ => known
          | _ => true) = true := rfl
      cases List.all_eq_true.1 hall _ hmem
    · obtain ⟨i, hi⟩ := List.mem_iff_getElem?.1 hmem
      cases Prog.answer_of_run hi
  have hx : ((), (⟨.on (some 1) (.openNamedAttrDir (fileHandle 1).attrFileid false), .error .stale⟩ : Event)) ∈
      aloneRun readOnlyServer earlyConnection (openattrOf false) (sampleAnswers steadyExport) :=
    List.mem_of_getElem? (i := 9) rfl
  exact ⟨_, left, hrun, hs, _, hx, _, rfl, not_modifies_of_sheltered readOnlyServer _ _ hrun
    (connects_aloneRun (beside_openattr _ _)) (cachesOnDemand_sample _ _ _ _) 1 rfl hs _ hx _ rfl⟩

/-- OPENATTR that creates makes the store of named attributes in a read-only export. -/
theorem modifies_openattr :
    ∃ (h : List (Unit × Event)) (left : Unit → Op (List Outcome)),
      Serves readOnlyServer (fun _ => earlyConnection) (fun _ => openattrOf true) h left ∧
      Connects (fun _ : Unit => earlyConnection) h ∧ CachesOnDemand h ∧
      ∃ x ∈ h, ∃ fileid, x.2.1 = .on (some 1) (.openNamedAttrDir fileid true) ∧
        (readOnlyServer.exports 1).readOnly = true ∧
        Call.modifies (.openNamedAttrDir fileid true) = true := by
  obtain ⟨left, hrun, -⟩ := serves_aloneRun readOnlyServer earlyConnection (openattrOf true)
    (sampleAnswers steadyExport)
  have hx : ((), (⟨.on (some 1) (.openNamedAttrDir (fileHandle 1).attrFileid true), .error .stale⟩ : Event)) ∈
      aloneRun readOnlyServer earlyConnection (openattrOf true) (sampleAnswers steadyExport) :=
    List.mem_of_getElem? (i := 9) rfl
  exact ⟨_, left, hrun, connects_aloneRun (beside_openattr _ _), cachesOnDemand_sample _ _ _ _, _,
    hx, _, rfl, rfl, rfl⟩

end NextNfs.Dispatcher
