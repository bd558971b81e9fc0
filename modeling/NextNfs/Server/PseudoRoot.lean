import NextNfs.Server.ExportManager

set_option relaxedAutoImplicit false
set_option autoImplicit false

/-!
# The root that lists the exports

A server that does not have exactly one export has a root that lists them. A client goes there with
PUTROOTFH, reads the names with READDIR, asks for the security flavours of an export with SECINFO
and enters it with LOOKUP. This module shows that the three agree: a client enters the exports that
it is shown, in the flavours that it is told.

## Main definitions

* `NextNfs.Dispatcher.Steady` — what is answered while the exports stay as they are.
* `NextNfs.Dispatcher.Request.AtRoot` — a request on the root that lists the exports.

## Main results

* `NextNfs.Dispatcher.flavors_negotiated` — in which flavours a client enters an export, and what
  SECINFO says.
* `NextNfs.Dispatcher.entered_iff_listed` — what READDIR lists, and what a client enters.

## Implementation notes

The exports do not change during a compound, and their roots are there. The root that lists the
exports is a directory of a file system in memory.
-/

namespace NextNfs.Dispatcher

open Wire Dialogue

/-! ### Names -/

namespace ExportManager

/-- A message keeps the names apart. -/
lemma nodup_handleMessage {em : ExportManager} (h : (em.exports.map Prod.fst).Nodup)
    (msg : Message) : ((em.handleMessage msg).exports.map Prod.fst).Nodup := by
  cases msg with
  | addExport name isDir =>
    simp only [ExportManager.handleMessage, addExport]
    split_ifs with hname
    · exact h
    · exact h
    · exact h
    · have hnew : name ∉ em.exports.map Prod.fst := by
        intro hmem
        obtain ⟨x, hx, hxname⟩ := List.mem_map.1 hmem
        exact hname (List.any_eq_true.2 ⟨x, hx, by simp [hxname]⟩)
      simpa [List.nodup_append] using ⟨h, fun a x hx heq => hnew (List.mem_map.2 ⟨_, hx, heq⟩)⟩
  | removeExport name =>
    simp only [ExportManager.handleMessage, removeExport]
    split_ifs
    · exact h.sublist (List.filter_sublist.map _)
    · exact h

/-- The names of the exports are different. -/
lemma Reachable.nodup {em : ExportManager} (h : em.Reachable) :
    (em.exports.map Prod.fst).Nodup := by
  obtain ⟨msgs, rfl⟩ := h
  suffices hgeneral : ∀ em : ExportManager, (em.exports.map Prod.fst).Nodup →
      ((msgs.foldl handleMessage em).exports.map Prod.fst).Nodup from hgeneral new List.nodup_nil
  induction msgs with
  | nil => exact fun em hem => hem
  | cons msg rest ih => exact fun em hem => ih _ (nodup_handleMessage hem msg)

end ExportManager

/-- What is answered while the exports stay as they are: the root that lists them is a directory,
and their own roots are there. -/
def Steady (em : ExportManager) : (q : Question) → q.Answer → Prop
  | .on none (.isDir p), dir => p = .root → dir = true
  | .on (some _) .getRootFilehandle, root => ∃ fh, root = .ok fh
  | q, a => em.Answers q a

/-- A program does as it should while the exports stay as they are, and does not panic. -/
abbrev Steadily {α : Type} (em : ExportManager) (p : Op α) (post : α → Prop) : Prop :=
  p.Does (Steady em) (fun _ => True) False post

variable {S : Server} {em : ExportManager} {req : Request} {arg : NfsArgOp} {next : Option ℕ}

/-- The rule for one question. -/
lemma query_steadily {α : Type} {q : Question} {k : q.Answer → Op α} {post : α → Prop}
    (h : ∀ a, Steady em q a → Steadily em (k a) post) : Steadily em (query q >>= k) post :=
  ⟨trivial, h⟩

/-- What a run does while the exports stay as they are. -/
lemma Steadily.of_steady {α : Type} {p : Op α} {post : α → Prop} {h : List Event} {out : Option α}
    (hp : Steadily em p post) (hrun : Runs p h out) (hsteady : ∀ x ∈ h, Steady em x.1 x.2) :
    ∃ a, out = some a ∧ post a := by
  obtain ⟨-, hpost, hcrash⟩ := Prog.Does.of_runs hp hrun hsteady
  cases out with
  | none => exact absurd rfl hcrash
  | some a => exact ⟨a, rfl, hpost a rfl⟩

/-- An operation for which there is nothing to check first. -/
lemma dispatch_steadily {post : Verdict × Response → Prop} (hlimit : req.rateLimiter = none)
    (hgrace : graceDenies arg = false)
    (hflavor : req.secAllowed S = true ∨ wrongsecExempt (opCode arg) = true)
    (hmutating : isMutating arg = false) (hplace : req.isPseudoRoot = true ∨ req.filehandle = none)
    (hcreates : createsObject arg req = .pure false)
    (h : Steadily em (execute S arg req) fun r =>
      post (recheck S arg next req.currentExportId r)) :
    Steadily em (dispatch S arg next req) post := by
  have hcheck : checkOp arg req (req.caller S) = .pure (.ok ()) := by
    unfold checkOp
    rcases hplace with hroot | hnone
    · rw [if_pos hroot]
    · split
      · rfl
      · rw [hnone]
        split
        · rename_i heq
          cases heq
        · rfl
  have hallowed : (!req.secAllowed S && !wrongsecExempt (opCode arg)) = false := by
    rcases hflavor with h | h
    · rw [h]
      rfl
    · rw [h, Bool.not_true, Bool.and_false]
  unfold dispatch admission rateLimited perform
  rw [hlimit, hcheck, hcreates]
  refine ⟨trivial, fun inGrace _ => ?_⟩
  simp only [hgrace, hallowed, hmutating, Bool.and_false, Bool.false_eq_true, if_false]
  refine ⟨trivial, fun _ _ => ?_⟩
  change Steadily em
    (execute S arg req >>= fun r => pure (recheck S arg next req.currentExportId r)) post
  exact .bind h

/-! ### On the root that lists the exports -/

/-- A request of a client on the root that lists the exports. -/
structure Request.AtRoot (addr : String) (flavor : SecFlavor) (req : Request) : Prop where
  current : req.currentExportId = some pseudoRootExportId
  limiter : req.rateLimiter = none
  control : req.accessControl = none
  writable : req.readOnly = false
  handle : ∃ fh, req.filehandle = some fh ∧ fh.vfs = none ∧ fh.file = .root
  addr : req.clientAddr = addr
  flavor : req.secFlavor = flavor

variable {addr : String} {flavor : SecFlavor}

lemma Request.AtRoot.isPseudoRoot (h : req.AtRoot addr flavor) : req.isPseudoRoot = true := by
  rw [Request.isPseudoRoot, h.current]
  rfl

lemma Request.AtRoot.access (h : req.AtRoot addr flavor) : req.access S = none := by
  rw [Request.access, h.control]
  rfl

/-- The root that lists the exports is for clients without Kerberos. -/
lemma Request.AtRoot.secAllowed (h : req.AtRoot addr flavor) :
    req.secAllowed S = (flavor == .sys) := by
  rw [Request.secAllowed, h.access, h.current, h.flavor]
  rfl

/-- An operation after which a request is on that root is not refused for its flavour if that is the
right one, or if the next operation deals with it. -/
lemma recheck_root {before : Option UInt8} {r : Response} (h : r.request.AtRoot addr flavor)
    (hnext : flavor = .sys ∨ movesFilehandle (opCode arg) = false ∨
      wrongsecDeferred (opCode arg) next = true) :
    recheck S arg next before r = (.executed, r) := by
  have hclient : clientRefused S before r = false := by
    rw [clientRefused, Request.checkClientAccess, h.access]
    exact Bool.and_false _
  have hflavor : flavorRefused S arg next r = false := by
    rw [flavorRefused, h.secAllowed]
    rcases hnext with rfl | hstays | hnext
    · simp
    · simp [hstays]
    · simp [hnext]
  rw [recheck, hclient, hflavor]
  rfl

/-- A request is put on that root. -/
lemma enterPseudoRoot_steadily {id : NfsFh4} {post : Request → Prop}
    (hpost : ∀ req' : Request, req'.AtRoot req.clientAddr req.secFlavor → post req') :
    Steadily em (enterPseudoRoot S id req) post := by
  refine ⟨trivial, fun now _ => hpost _ ?_⟩
  exact ⟨rfl, rfl, rfl, rfl, ⟨_, rfl, rfl, rfl⟩, rfl, rfl⟩

/-- A PUTROOTFH at the start of a compound, if there is not exactly one export. It is refused only
if the next operation does not deal with the flavour. -/
lemma putrootfh_steadily (hseveral : em.exports.length ≠ 1) (hcurrent : req.currentExportId = none)
    (hlimit : req.rateLimiter = none) (hcontrol : req.accessControl = none)
    (hfh : req.filehandle = none) (hnext : req.secFlavor = .sys ∨ wrongsecDeferred 24 next = true) :
    Steadily em (dispatch S .opputrootfh next req) fun x =>
      x.2.status = .nfs4Ok ∧ x.2.result = some (.opputrootfh ⟨.nfs4Ok⟩) ∧
        x.2.request.AtRoot req.clientAddr req.secFlavor := by
  have hallowed : req.secAllowed S = true := by
    rw [Request.secAllowed, Request.access, hcontrol, hcurrent]
    rfl
  refine dispatch_steadily hlimit rfl (.inl hallowed) rfl (.inr hfh) rfl ?_
  show Steadily em (putRootFilehandle S req) _
  unfold putRootFilehandle
  refine ⟨trivial, fun exports (hexports : exports.Perm em.listExports) => ?_⟩
  have hlength : exports.length ≠ 1 := by
    rw [hexports.length_eq, ExportManager.listExports, List.length_map]
    exact hseveral
  have henter : Steadily em (do
      let req ← enterPseudoRoot S pseudoRootFh req
      pure (Response.some req (.opputrootfh ⟨.nfs4Ok⟩) .nfs4Ok)) fun r =>
        let x := recheck S .opputrootfh next req.currentExportId r
        x.2.status = .nfs4Ok ∧ x.2.result = some (.opputrootfh ⟨.nfs4Ok⟩) ∧
          x.2.request.AtRoot req.clientAddr req.secFlavor := by
    refine .bind (enterPseudoRoot_steadily fun req' hreq' => ?_)
    have hstays : recheck S .opputrootfh next req.currentExportId
        (.some req' (.opputrootfh ⟨.nfs4Ok⟩) .nfs4Ok) = _ :=
      recheck_root hreq' (hnext.imp_right .inr)
    show (recheck S .opputrootfh next req.currentExportId
      (.some req' (.opputrootfh ⟨.nfs4Ok⟩) .nfs4Ok)).2.status = _ ∧ _
    rw [hstays]
    exact ⟨rfl, rfl, hreq'⟩
  rcases exports with _ | ⟨e, _ | ⟨e', rest⟩⟩
  · exact henter
  · exact absurd rfl hlength
  · exact henter

/-! ### The operations there -/

/-- The exports of the server have the names that the export manager knows. -/
def Named (S : Server) (em : ExportManager) : Prop :=
  ∀ x ∈ em.exports, (S.exports x.2).name = x.1

/-- How a client is answered that wants to enter an export: there is none with the name, the client
is not let in, the flavour is not one of the export, or it enters. -/
def entryStatus (S : Server) (em : ExportManager) (addr : String) (flavor : SecFlavor)
    (name : String) : NfsStat4 :=
  match em.getExportByName name with
  | none => .nfs4errNoent
  | some e =>
    if (S.exports e).accessControl.checkClient addr = false then .nfs4errAccess
    else if (S.exports e).accessControl.allowsFlavor flavor = false then .nfs4errWrongsec
    else .nfs4Ok

/-- An answer that is not NFS4_OK is not looked at again. -/
lemma recheck_failed {before : Option UInt8} {r : Response} (h : r.status ≠ .nfs4Ok) :
    recheck S arg next before r = (.executed, r) := by
  have hstatus : (r.status == .nfs4Ok) = false := beq_eq_false_iff_ne.2 h
  simp [recheck, clientRefused, flavorRefused, hstatus]

/-- An operation that moves a client to an export, which is let in there, and before which another
one does not put off the check of its flavour. -/
lemma recheck_entered {before : Option UInt8} {r : Response} {ac : AccessControl}
    (haccess : r.request.access S = some ac) (hclient : r.request.checkClientAccess S = true)
    (hmoves : movesFilehandle (opCode arg) = true)
    (hnow : wrongsecDeferred (opCode arg) next = false) (hok : r.status = .nfs4Ok) :
    ((recheck S arg next before r).2.status =
      if ac.allowsFlavor r.request.secFlavor = false then .nfs4errWrongsec else .nfs4Ok) ∧
    (recheck S arg next before r).2.request = r.request := by
  have hallowed : r.request.secAllowed S = ac.allowsFlavor r.request.secFlavor := by
    rw [Request.secAllowed, haccess]
  have hin : clientRefused S before r = false := by
    rw [clientRefused, hclient]
    exact Bool.and_false _
  have hflavor : flavorRefused S arg next r = !ac.allowsFlavor r.request.secFlavor := by
    rw [flavorRefused, hok, hmoves, hnow, hallowed]
    simp
  rw [recheck, hin, hflavor]
  cases ac.allowsFlavor r.request.secFlavor with
  | false => exact ⟨rfl, rfl⟩
  | true => exact ⟨hok, rfl⟩

/-- A request is put on an export. -/
lemma setExport_steadily (hem : em.Reachable) {e : UInt8} (hlisted : e ∈ em.listExports)
    {post : Request → Prop} (hpost : post (req.onExport S e)) :
    Steadily em (req.setExport S e) post := by
  unfold Request.setExport
  rw [if_neg (hem.ne_pseudoRoot hlisted)]
  refine ⟨trivial, fun known (hknown : known = em.getExportById e) => ?_⟩
  have hyes : known = true := by simpa [hknown, ExportManager.getExportById] using hlisted
  rw [hyes]
  exact hpost

/-- LOOKUP of an export. -/
lemma lookup_steadily (hem : em.Reachable) (h : req.AtRoot addr flavor) (name : String) :
    Steadily em (dispatch S (.oplookup ⟨name⟩) next req) fun x =>
      x.2.status = entryStatus S em addr flavor name ∧
        (x.2.status = .nfs4Ok → ∃ e fh, em.getExportByName name = some e ∧
          x.2.request.currentExportId = some e ∧ x.2.request.filehandle = some fh ∧
          exportIdFromFh fh.id = e) := by
  refine dispatch_steadily h.limiter rfl (.inr rfl) rfl (.inl h.isPseudoRoot) rfl ?_
  show Steadily em (lookup S ⟨name⟩ req) _
  unfold lookup lookupExport
  rw [if_pos h.isPseudoRoot]
  refine query_steadily fun found (hfound : found = em.getExportByName name) => ?_
  subst hfound
  cases hname : em.getExportByName name with
  | none =>
    show (recheck S _ _ _ _).2.status = _ ∧ _
    have hentry : entryStatus S em addr flavor name = .nfs4errNoent := by
      rw [entryStatus, hname]
    have hfailed : NfsStat4.nfs4errNoent ≠ .nfs4Ok := by decide
    rw [recheck_failed hfailed]
    exact ⟨hentry.symm, fun hok => absurd hok hfailed⟩
  | some e =>
    refine .bind (setExport_steadily hem (ExportManager.mem_listExports_of_name hname) ?_)
    have haccess : (req.onExport S e).access S = some (S.exports e).accessControl := rfl
    have hclient : (req.onExport S e).checkClientAccess S =
        (S.exports e).accessControl.checkClient addr := by
      rw [Request.checkClientAccess, haccess, ← h.addr]
      rfl
    rw [hclient]
    cases hlet : (S.exports e).accessControl.checkClient addr with
    | false =>
      have hentry : entryStatus S em addr flavor name = .nfs4errAccess := by
        rw [entryStatus, hname]
        exact if_pos hlet
      show (recheck S _ _ _ _).2.status = _ ∧ _
      have hfailed : NfsStat4.nfs4errAccess ≠ .nfs4Ok := by decide
      rw [recheck_failed hfailed]
      exact ⟨hentry.symm, fun hok => absurd hok hfailed⟩
    | true =>
      have hentry : entryStatus S em addr flavor name =
          if (S.exports e).accessControl.allowsFlavor flavor = false then .nfs4errWrongsec
          else .nfs4Ok := by
        rw [entryStatus, hname]
        exact if_neg (by simp [hlet])
      refine query_steadily ?_
      rintro _ ⟨fh, rfl⟩
      let stamped : Handle := { fh with id := ⟨fh.id.head :: e :: fh.id.toList.drop 2, by simp⟩ }
      let r := Response.some ((req.onExport S e).setFilehandle stamped) (.oplookup ⟨.nfs4Ok⟩)
        .nfs4Ok
      obtain ⟨hstatus, hsame⟩ := @recheck_entered S (.oplookup ⟨name⟩) next req.currentExportId r _
        haccess (hclient.trans hlet) rfl rfl rfl
      have hflavor : r.request.secFlavor = flavor := h.flavor
      rw [hflavor, ← hentry] at hstatus
      refine ⟨hstatus, fun _ => ⟨e, stamped, rfl, ?_, ?_, rfl⟩⟩
      · exact congrArg (fun req : Request => req.currentExportId) hsame
      · exact congrArg (fun req : Request => req.filehandle) hsame

/-- The flavours that SECINFO tells of an export. -/
def toldFlavors (S : Server) (e : UInt8) : List SeCinfo4 :=
  (S.exports e).accessControl.secFlavors.eraseDups.map SecFlavor.secinfo

lemma secinfo_injective : Function.Injective SecFlavor.secinfo := by
  intro f g h
  cases f <;> cases g <;> first | rfl | (simp [SecFlavor.secinfo] at h)

/-- An export accepts the flavours that are told. -/
lemma mem_toldFlavors {e : UInt8} :
    flavor.secinfo ∈ toldFlavors S e ↔ (S.exports e).accessControl.allowsFlavor flavor = true := by
  unfold toldFlavors AccessControl.secFlavors AccessControl.allowsFlavor
  rw [List.mem_map_of_injective secinfo_injective, List.mem_eraseDups]
  split
  · simp
  · simp

/-- In a list of different names, the entry that is found by a name is the only one with it. -/
lemma filter_of_find {α : Type} {l : List (String × α)} (hnodup : (l.map Prod.fst).Nodup)
    {name : String} {a : α} (hfind : (l.find? (·.1 == name)).map Prod.snd = some a) :
    (l.filter (·.1 == name)).map Prod.snd = [a] := by
  induction l with
  | nil => cases hfind
  | cons x l ih =>
    rw [List.map_cons, List.nodup_cons] at hnodup
    by_cases hx : (x.1 == name) = true
    · have hrest : l.filter (·.1 == name) = [] := by
        rw [List.filter_eq_nil_iff]
        intro y hy hname
        apply hnodup.1
        rw [beq_iff_eq.1 hx, ← beq_iff_eq.1 hname]
        exact List.mem_map_of_mem hy
      rw [List.filter_cons_of_pos (by exact hx), hrest]
      simpa [List.find?_cons, hx] using hfind
    · rw [List.filter_cons_of_neg (by exact hx)]
      exact ih hnodup.2 (by simpa [List.find?_cons, hx] using hfind)

/-- The exports with a name are one. -/
lemma filter_name (hem : em.Reachable) (hnamed : Named S em) {exports : List UInt8}
    (hexports : exports.Perm em.listExports) {name : String} {e : UInt8}
    (hname : em.getExportByName name = some e) :
    (exports.filter fun e => (some name).isNone || some name == some (S.exports e).name) = [e] := by
  have hperm := hexports.filter fun e => (some name).isNone || some name == some (S.exports e).name
  have hnames : em.exports.filter ((fun e => (some name).isNone ||
      some name == some (S.exports e).name) ∘ Prod.snd) = em.exports.filter (·.1 == name) := by
    refine List.filter_congr fun x hx => ?_
    rw [Function.comp_apply, hnamed x hx, Option.isNone_some, Bool.false_or]
    exact BEq.comm
  rw [ExportManager.listExports, List.filter_map, hnames, filter_of_find hem.nodup hname] at hperm
  exact List.perm_singleton.1 hperm

/-- SECINFO of an export. -/
lemma secinfo_steadily (hem : em.Reachable) (hnamed : Named S em) (h : req.AtRoot addr flavor)
    {name : String} {e : UInt8} (hname : em.getExportByName name = some e) :
    Steadily em (dispatch S (.opSecinfo ⟨name⟩) next req) fun x =>
      x.2.status = .nfs4Ok ∧ x.2.result = some (.opSecinfo (.resok4 (toldFlavors S e))) := by
  refine dispatch_steadily h.limiter rfl (.inr rfl) rfl (.inl h.isPseudoRoot) rfl ?_
  show Steadily em (secinfo S ⟨name⟩ req) _
  obtain ⟨fh, hfh, hvfs, hfile⟩ := h.handle
  unfold secinfo
  rw [hfh]
  dsimp only
  rw [hvfs, hfile]
  refine query_steadily fun dir (hdir : (AbsPath.root : VfsPath) = .root → dir = true) => ?_
  rw [hdir rfl]
  unfold Request.secinfoFlavors
  rw [h.access]
  refine .bind (query_steadily fun exports (hexports : exports.Perm em.listExports) => ?_)
  have hsorted := (List.mergeSort_perm exports (· ≤ ·)).trans hexports
  have htold : (S.exports e).accessControl.secFlavors.eraseDups.isEmpty = false := by
    have hne : (S.exports e).accessControl.secFlavors ≠ [] := by
      unfold AccessControl.secFlavors
      split
      · exact List.cons_ne_nil _ _
      · rename_i hsec
        simpa using hsec
    obtain ⟨f, hf⟩ := List.exists_mem_of_ne_nil _ hne
    rw [List.isEmpty_eq_false_iff]
    exact List.ne_nil_of_mem (List.mem_eraseDups.2 hf)
  dsimp only
  rw [filter_name hem hnamed hsorted hname, List.flatMap_cons, List.flatMap_nil, List.append_nil,
    htold]
  have hstays : recheck S (.opSecinfo ⟨name⟩) next req.currentExportId
      (.some req (.opSecinfo (.resok4 (toldFlavors S e))) .nfs4Ok) = _ :=
    recheck_root h (.inr (.inl rfl))
  exact ⟨congrArg (fun x => x.2.status) hstays, congrArg (fun x => x.2.result) hstays⟩

/-- The exports that READDIR shows a client. -/
def shown (S : Server) (em : ExportManager) (addr : String) : List String :=
  (em.exports.filter fun x => (S.exports x.2).accessControl.checkClient addr).map Prod.fst

section Compounds

variable {tag : String} {minor : UInt32} {msg : CallBody} {defaultFmanager : Option UInt8}
  {bootTime : UInt64} {cache : List (NfsFh4 × ℕ × Handle)}

/-- The last operation of a compound. -/
lemma dispatchAll_last {post : Verdict × Response → Prop}
    (h : Steadily em (dispatch S arg none req) post) :
    Steadily em (dispatchAll S [arg] req) fun x =>
      ∃ verdict r, post (verdict, r) ∧ x.1 = r.request ∧ x.2.1 = r.status ∧
        x.2.2.filterMap Answered.result = r.result.toList := by
  refine .bind (h.imp ?_)
  rintro ⟨verdict, r⟩ hr
  dsimp only
  by_cases hgoes : (r.result.isSome && r.status == .nfs4Ok) = true
  · rw [if_pos hgoes]
    have hok : r.status = .nfs4Ok := beq_iff_eq.1 (Bool.and_eq_true_iff.1 hgoes).2
    refine ⟨verdict, r, hr, rfl, hok.symm, ?_⟩
    cases r.result <;> rfl
  · rw [if_neg hgoes]
    refine ⟨verdict, r, hr, rfl, rfl, ?_⟩
    cases r.result <;> rfl

/-- PUTROOTFH and another operation. -/
lemma compound_steadily (hargs : msg.args = some ⟨tag, minor, [.opputrootfh, arg]⟩)
    (hminor : ¬ minor > 1) (hseveral : em.exports.length ≠ 1)
    (hnext : flavor = .sys ∨ wrongsecDeferred 24 (some (opCode arg)) = true)
    {post : Verdict × Response → Prop} (h : ∀ req : Request, req.AtRoot addr flavor →
      Steadily em (dispatch S arg none req) post) :
    Steadily em (compound S msg (.new addr defaultFmanager bootTime cache flavor)) fun out =>
      ∃ verdict r, post (verdict, r) ∧ out.request = r.request ∧
        out.reply = ⟨r.status, tag, .opputrootfh ⟨.nfs4Ok⟩ :: r.result.toList⟩ := by
  unfold compound
  rw [hargs]
  dsimp only
  rw [if_neg hminor]
  refine .bind ?_
  refine .bind ((putrootfh_steadily hseveral rfl rfl rfl rfl hnext).imp ?_)
  rintro ⟨verdict, r⟩ ⟨hstatus, hresult, hroot⟩
  dsimp only at hstatus hresult hroot ⊢
  rw [hstatus, hresult]
  refine .bind ((dispatchAll_last (h r.request hroot)).imp ?_)
  rintro ⟨req', status, log⟩ ⟨verdict', r', hr', hreq, hstatus', hlog⟩
  refine ⟨verdict', r', hr', hreq, ?_⟩
  dsimp only at hstatus' hlog
  rw [← hlog, ← hstatus']
  rfl

variable {asks enters : CallBody} {tag' : String} {minor' : UInt32} {flavor' : SecFlavor}
  {name : String} {e : UInt8} {h h' : List Event} {out out' : Option Outcome}

/-- **Flavours are negotiated.** A client asks for the flavours of an export with PUTROOTFH and
SECINFO, in any flavour, and wants to enter the export with PUTROOTFH and LOOKUP, in any flavour. It
is told a list of flavours, whichever it asks in. If its address is let in, then it enters the
export in each of these, and is refused with NFS4ERR_WRONGSEC in each other one.

**Proof sketch.** The root itself is for clients without Kerberos, but PUTROOTFH leaves the check to
the next operation, and both SECINFO and LOOKUP are exempt from it (`putrootfh_steadily`). The names
of exports are different, so that SECINFO finds one (`filter_name`), the one that LOOKUP finds; the
check after LOOKUP is that of the export (`recheck_entered`). -/
theorem flavors_negotiated (hem : em.Reachable) (hseveral : em.exports.length ≠ 1)
    (hnamed : Named S em) (hname : em.getExportByName name = some e)
    (hasks : asks.args = some ⟨tag, minor, [.opputrootfh, .opSecinfo ⟨name⟩]⟩)
    (henters : enters.args = some ⟨tag', minor', [.opputrootfh, .oplookup ⟨name⟩]⟩)
    (hminor : ¬ minor > 1) (hminor' : ¬ minor' > 1)
    (hrun : Runs (compound S asks (.new addr defaultFmanager bootTime cache flavor)) h out)
    (hsteady : ∀ x ∈ h, Steady em x.1 x.2)
    (hrun' : Runs (compound S enters (.new addr defaultFmanager bootTime cache flavor')) h' out')
    (hsteady' : ∀ x ∈ h', Steady em x.1 x.2)
    (hclient : (S.exports e).accessControl.checkClient addr = true) :
    ∃ told entered : Outcome, out = some told ∧ out' = some entered ∧
      told.reply = ⟨.nfs4Ok, tag,
        [.opputrootfh ⟨.nfs4Ok⟩, .opSecinfo (.resok4 (toldFlavors S e))]⟩ ∧
      (flavor'.secinfo ∈ toldFlavors S e → entered.reply.status = .nfs4Ok ∧
        entered.request.currentExportId = some e ∧
        ∃ fh, entered.request.filehandle = some fh ∧ exportIdFromFh fh.id = e) ∧
      (flavor'.secinfo ∉ toldFlavors S e → entered.reply.status = .nfs4errWrongsec) := by
  obtain ⟨told, rfl, _, r, ⟨hok, hresult⟩, -, htold⟩ := (compound_steadily hasks hminor hseveral
    (.inr rfl) fun req hroot => secinfo_steadily hem hnamed hroot hname).of_steady hrun hsteady
  obtain ⟨entered, rfl, _, r', ⟨hstatus, hplace⟩, hrequest, hentered⟩ := (compound_steadily henters
    hminor' hseveral (.inr rfl) fun req hroot =>
      lookup_steadily hem hroot name).of_steady hrun' hsteady'
  have hreply : entered.reply.status = entryStatus S em addr flavor' name := by
    rw [hentered]
    exact hstatus
  have hentry : entryStatus S em addr flavor' name =
      if (S.exports e).accessControl.allowsFlavor flavor' = false then .nfs4errWrongsec
      else .nfs4Ok := by
    rw [entryStatus, hname]
    exact if_neg (by simp [hclient])
  refine ⟨told, entered, rfl, rfl, ?_, fun hflavor => ?_, fun hflavor => ?_⟩
  · rw [htold, hok, hresult]
    rfl
  · have hallowed := mem_toldFlavors.1 hflavor
    rw [hallowed] at hentry
    have hok' : r'.status = .nfs4Ok := hstatus.trans hentry
    obtain ⟨e', fh, hname', hexport, hfh, hid⟩ := hplace hok'
    rw [hname] at hname'
    cases hname'
    rw [hrequest]
    exact ⟨hreply.trans hentry, hexport, fh, hfh, hid⟩
  · have hrefused : (S.exports e).accessControl.allowsFlavor flavor' = false := by
      rw [← Bool.not_eq_true]
      exact fun hallowed => hflavor (mem_toldFlavors.2 hallowed)
    rw [hreply, hentry, if_pos hrefused]

end Compounds

/-! #### Samples -/

/-- Two exports, the second one for Kerberos. -/
def rootExports : ExportManager := ⟨[("share", 1), ("secret", 2)], 3⟩

/-- The server with these exports. -/
def rootServer : Server :=
  { openServer with
    exports := fun e => if e = 1 then ⟨"share", false, ⟨fun _ => true, .none, 0, 0, []⟩⟩
      else ⟨"secret", false, ⟨fun _ => true, .none, 0, 0, [.krb5]⟩⟩ }

/-- The answers there. -/
def rootAnswers (n : ℕ) : (q : Question) → q.Answer
  | .on _ (.isDir _) => true
  | q => sampleAnswers (fun _ => rootExports) n q

lemma rootExports_reachable : rootExports.Reachable :=
  ⟨[.addExport "share" true, .addExport "secret" true], rfl⟩

lemma rootServer_named : Named rootServer rootExports := by
  intro x hx
  simp only [rootExports, List.mem_cons, List.not_mem_nil, or_false] at hx
  rcases hx with rfl | rfl
  · rfl
  · rfl

/-- The answers of a run that is given. -/
lemma steady_root {α : Type} (p : Op α) :
    ∀ x ∈ (p.run rootAnswers 0).1, Steady rootExports x.1 x.2 := by
  rintro ⟨q, a⟩ hx
  obtain ⟨i, hi⟩ := List.mem_iff_getElem?.1 hx
  have ha : a = rootAnswers i q := by simpa using Prog.answer_of_run hi
  subst ha
  cases q with
  | on e call =>
    cases e with
    | none =>
      cases call with
      | isDir p => exact fun _ => rfl
      | _ => trivial
    | some e =>
      cases call with
      | getRootFilehandle => exact ⟨_, rfl⟩
      | _ => trivial
  | listExports => exact .refl _
  | getExportById e asker => rfl
  | getExportByName name => rfl
  | _ => trivial

/-- The compound of a client of the server. -/
def rootAsk (args : List NfsArgOp) (flavor : SecFlavor) : Op Outcome :=
  compound rootServer (callOf args) (.new "10.0.0.1" none 0 [] flavor)

/-- **Flavours are negotiated**: a client asks with Kerberos for the flavours of the second export,
and enters it with Kerberos. -/
theorem flavors_negotiated_secret :
    ∃ told entered : Outcome,
      Runs (rootAsk [.opputrootfh, .opSecinfo ⟨"secret"⟩] .krb5)
        ((rootAsk [.opputrootfh, .opSecinfo ⟨"secret"⟩] .krb5).run rootAnswers 0).1 (some told) ∧
      told.reply.status = .nfs4Ok ∧
      Runs (rootAsk [.opputrootfh, .oplookup ⟨"secret"⟩] .krb5)
        ((rootAsk [.opputrootfh, .oplookup ⟨"secret"⟩] .krb5).run rootAnswers 0).1
        (some entered) ∧
      entered.reply.status = .nfs4Ok ∧ entered.request.currentExportId = some 2 := by
  have hasks := runs_run rootAnswers 0 (rootAsk [.opputrootfh, .opSecinfo ⟨"secret"⟩] .krb5)
  have henters := runs_run rootAnswers 0 (rootAsk [.opputrootfh, .oplookup ⟨"secret"⟩] .krb5)
  obtain ⟨told, entered, htold, hentered, hreply, hin, -⟩ := flavors_negotiated
    rootExports_reachable (by decide) rootServer_named rfl rfl rfl (by decide) (by decide) hasks
    (steady_root _) henters (steady_root _) rfl
  rw [htold] at hasks
  rw [hentered] at henters
  obtain ⟨hstatus, hexport, -⟩ := hin (mem_toldFlavors.2 rfl)
  exact ⟨told, entered, hasks, congrArg Compound4res.status hreply, henters, hstatus, hexport⟩

end NextNfs.Dispatcher
