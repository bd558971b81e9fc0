import NextNfs.Server.ExportManager
import NextNfs.Server.NameOps
import NextNfs.Server.Tidy

set_option relaxedAutoImplicit false
set_option autoImplicit false

/-!
# Listing a directory page by page

A client lists a directory with several calls of READDIR: the first with cookie 0, each other with
the cookie of the last entry and the verifier of the reply before it, until a reply says that it is
the last. This module says which pages such a client gets from a directory that does not change,
and for which directories and which budgets it gets every entry.

## Main definitions

* `NextNfs.Readdir.Directory` — a directory, with `NextNfs.Readdir.Directory.law`: what the file
  system and the file manager answer about it.
* `NextNfs.Readdir.Page` — what a client sees of a reply.
* `NextNfs.Readdir.Directory.page` — the page that a call gets, as a part of the listing.
* `NextNfs.Readdir.Session` — the calls of a client and the pages it gets.
* `NextNfs.Readdir.Complete` — the client gets every entry once.
* `NextNfs.Readdir.Served` — each call has room for an entry, and the names make a whole verifier.

## Main results

* `NextNfs.Readdir.complete_iff_served` — which sessions are complete.
* `NextNfs.Readdir.listing_incomplete_sample` — two that are not.

## Implementation notes

The environment answers as it likes within the law, so the handles and the attributes of the entries
are open; the names, the cookies, the verifier and the end of the listing are determined.
-/

namespace NextNfs.Readdir

open Wire Dialogue Dispatcher

/-! ### The verifier -/

/-- The number of bytes of some names. -/
def nameBytes (names : List String) : ℕ := (names.map String.utf8ByteSize).sum

lemma utf8ByteSize_join (names : List String) :
    (String.join names).utf8ByteSize = nameBytes names := by
  induction names with
  | nil => rfl
  | cons name names ih => simp [nameBytes, String.join_cons, ih]

lemma length_toList_loop (b : ByteArray) (i : ℕ) (r : List UInt8) :
    (ByteArray.toList.loop b i r).length = r.length + (b.size - i) := by
  fun_induction ByteArray.toList.loop b i r with
  | case1 i r hlt ih =>
    rw [ih, List.length_cons]
    omega
  | case2 i r hlt =>
    rw [List.length_reverse]
    omega

lemma length_seed (names : List String) :
    (String.join names).toUTF8.toList.length = nameBytes names := by
  have hloop := length_toList_loop (String.join names).toUTF8 0 []
  rw [List.length_nil, Nat.zero_add, Nat.sub_zero] at hloop
  rw [← utf8ByteSize_join]
  exact hloop

/-- As much is picked from a list as there are places to pick from, if all are in bounds. -/
lemma length_filterMap_getElem? {l : Bytes} {f : ℕ → ℕ} {n : ℕ} (h : ∀ i < n, f i < l.length) :
    ((List.range n).filterMap fun i => l[f i]?).length = n := by
  rw [List.length_filterMap_eq_countP, List.countP_eq_length.2, List.length_range]
  intro i hi
  simp [h i (List.mem_range.1 hi)]

/-- One byte of every so many is picked. -/
lemma length_cookieVerifier (names : List String) :
    (cookieVerifier names).length =
      (nameBytes names + nameBytes names / 8) / (nameBytes names / 8 + 1) := by
  unfold cookieVerifier
  simp only
  have hseed := length_seed names
  generalize (String.join names).toUTF8.toList = seed at hseed ⊢
  rw [← hseed]
  have hround : seed.length + (seed.length / 8 + 1) - 1 = seed.length + seed.length / 8 := by omega
  rw [hround]
  refine length_filterMap_getElem? fun i hi => ?_
  have hmul := (Nat.le_div_iff_mul_le (Nat.succ_pos _)).1 (Nat.succ_le_of_lt hi)
  rw [Nat.succ_eq_add_one, Nat.succ_eq_add_one, Nat.succ_mul] at hmul
  omega

/-- The names of a directory make a verifier of eight bytes. -/
def FullVerifier (names : List String) : Prop := 8 ≤ nameBytes names / 8 + nameBytes names % 8

instance (names : List String) : Decidable (FullVerifier names) :=
  inferInstanceAs (Decidable (_ ≤ _))

lemma length_cookieVerifier_le (names : List String) : (cookieVerifier names).length ≤ 8 := by
  rw [length_cookieVerifier]
  refine Nat.le_of_lt_succ ((Nat.div_lt_iff_lt_mul (Nat.succ_pos _)).2 ?_)
  have hrem := Nat.mod_lt (nameBytes names) (show 8 > 0 by decide)
  have hdiv := Nat.div_add_mod (nameBytes names) 8
  omega

lemma length_cookieVerifier_eq_iff (names : List String) :
    (cookieVerifier names).length = 8 ↔ FullVerifier names := by
  have hle := length_cookieVerifier_le names
  have hge : 8 ≤ (cookieVerifier names).length ↔ FullVerifier names := by
    rw [length_cookieVerifier, Nat.le_div_iff_mul_le (Nat.succ_pos _), FullVerifier]
    have hdiv := Nat.div_add_mod (nameBytes names) 8
    omega
  rw [← hge]
  omega

/-- The client gives back the verifier it was given. It is the verifier of the directory if that
has eight bytes. -/
lemma toList_paddedVerifier_iff (names : List String) :
    cookieVerifier names = (paddedVerifier (cookieVerifier names)).toList ↔
      FullVerifier names := by
  rw [← length_cookieVerifier_eq_iff]
  constructor
  · intro heq
    rw [heq]
    exact (paddedVerifier _).toList_length
  · intro hlen
    show cookieVerifier names = (cookieVerifier names ++ List.replicate 8 0).take 8
    rw [List.take_append_of_le_length hlen.ge, List.take_of_length_le hlen.le]

/-! ### Directories and pages -/

/-- An entry that clients see. -/
def Visible (p : VfsPath) : Prop :=
  ¬ (filename p = ".nfs4attrs" ∨ (filename p).startsWith ".nfs." = true)

instance : DecidablePred Visible := fun _ => inferInstanceAs (Decidable (¬ _))

/-- A directory with its entries, in the order in which they are enumerated. -/
structure Directory where
  path : VfsPath
  entries : List VfsPath
  /-- The names of the entries are held in a vector. -/
  short : entries.length < 2 ^ 63

namespace Directory

variable (dir : Directory)

/-- The entries that clients see. -/
def visible : List VfsPath := dir.entries.filter Visible

/-- Their names. -/
def names : List String := dir.visible.map filename

/-- What is answered about a directory that does not change: it has its entries, and an entry is
found under its path and has attributes. -/
def law : (q : Question) → q.Answer → Prop
  | .on _ (.readDir p), a => p = dir.path → a = some dir.entries
  | .on _ (.getFilehandleForPath s), a =>
    ∀ p ∈ dir.entries, p.toStr = s → ∃ fh : Handle, a = .ok fh ∧ fh.file = p
  | .on _ (.filehandleAttrs ..), a => a.isSome
  | _, _ => True

lemma length_visible_lt : dir.visible.length < 2 ^ 63 :=
  (List.length_filter_le _ _).trans_lt dir.short

lemma length_names : dir.names.length = dir.visible.length := List.length_map _

end Directory

/-- The file manager of an export answers so, if the entries exist. -/
lemma Directory.law_fileManager {F : Type} [FileSystem F] [LawfulFileSystem F] (dir : Directory)
    (fm : FileManager F) (hentries : ∀ p ∈ dir.entries, p ≠ .root ∧ pathExists fm.fs p = true)
    (e : Option UInt8) (s : String) :
    dir.law (.on e (.getFilehandleForPath s))
      (match (fm.getFilehandleForPath s).2 with
        | some fh => .ok ⟨fh, e, false⟩
        | none => .error .stale) := by
  rintro p hp rfl
  obtain ⟨hne, hexists⟩ := hentries p hp
  obtain ⟨fh, hfh, hfile⟩ := fm.getFilehandleForPath_toStr hne hexists
  exact ⟨⟨fh, e, false⟩, by rw [hfh], hfile⟩

/-- A request whose current filehandle is a directory. -/
structure OnDirectory (dir : Directory) (req : Request) : Prop where
  notPseudo : req.isPseudoRoot = false
  manager : req.cachedFmanager ≠ none
  current : ∃ fh : Handle, req.filehandle = some fh ∧ fh.file = dir.path

/-- What a client sees of a reply to READDIR, or that there is none. -/
inductive Page
  | ok (entries : List (UInt64 × String)) (verf : List.Vector UInt8 8) (eof : Bool)
  | failed (status : NfsStat4)
  | lost
deriving DecidableEq

/-- The cookies and names of a linked list of entries. -/
def cookiesAndNames : Entry4 → List (UInt64 × String)
  | .mk cookie name _ none => [(cookie, name)]
  | .mk cookie name _ (some next) => (cookie, name) :: cookiesAndNames next

/-- The page in a reply. -/
def pageOf : Option Response → Page
  | some ⟨_, some (.opreaddir (.resok4 r)), .nfs4Ok⟩ =>
    .ok ((r.reply.entries.map cookiesAndNames).getD []) r.cookieverf r.reply.eof
  | some resp => .failed resp.status
  | none => .lost

/-- What an entry takes of `dircount`. -/
def entrySize (p : VfsPath) : ℕ := 8 + (filename p).utf8ByteSize + 5

/-- An entry fits if this much of the two budgets has been counted. With a `dircount` of 0
everything does. -/
def Fits (dircount maxcount : UInt32) (dircountActual maxcountActual : ℕ) : Prop :=
  dircount = 0 ∨ (dircount.toNat > dircountActual ∧ maxcount.toNat > maxcountActual)

instance (dircount maxcount : UInt32) (d m : ℕ) : Decidable (Fits dircount maxcount d m) :=
  inferInstanceAs (Decidable (_ ∨ _))

/-- How many entries fit. -/
def room (dircount maxcount : UInt32) : ℕ → ℕ → List VfsPath → ℕ
  | _, _, [] => 0
  | d, m, p :: todo =>
    if Fits dircount maxcount (d + entrySize p) (m + 200) then
      room dircount maxcount (d + entrySize p) (m + 200) todo + 1
    else 0

/-- The entries from a place in the listing on, each with its cookie. -/
def numbered : ℕ → List VfsPath → List (ℕ × VfsPath)
  | _, [] => []
  | i, p :: ps => (i + 3, p) :: numbered (i + 1) ps

/-- The cookie and the name of an entry, as they are sent. -/
def sent (x : ℕ × VfsPath) : UInt64 × String := (UInt64.ofNat x.1, filename x.2)

/-- The entries of the listing that a call gets. -/
def Directory.shown (dir : Directory) (args : Readdir4args) : List VfsPath :=
  let todo := dir.visible.drop (args.cookie.toNat - 2)
  todo.take (room args.dircount args.maxcount 0 128 todo)

/-- The page that a call gets. -/
def Directory.page (dir : Directory) (args : Readdir4args) : Page :=
  if args.cookie ≠ 0 ∧ cookieVerifier dir.names ≠ args.cookieverf.toList then
    .failed .nfs4errNotSame
  else
    .ok ((numbered (args.cookie.toNat - 2) (dir.shown args)).map sent)
      (paddedVerifier (cookieVerifier dir.names))
      (decide (dir.shown args = [] ∨
        dir.visible.length ≤ args.cookie.toNat - 2 + (dir.shown args).length))

lemma length_numbered (i : ℕ) (ps : List VfsPath) : (numbered i ps).length = ps.length := by
  induction ps generalizing i with
  | nil => rfl
  | cons p ps ih => simp [numbered, ih]

lemma map_snd_numbered (i : ℕ) (ps : List VfsPath) : (numbered i ps).map Prod.snd = ps := by
  induction ps generalizing i with
  | nil => rfl
  | cons p ps ih => simp [numbered, ih]

/-! ### The entries of a page -/

section Listing

variable (args : Readdir4args)

/-- The entries that are gone through and sent, from a place in the listing and two counts on. -/
def selected : ℕ → ℕ → ℕ → List VfsPath → List (ℕ × VfsPath)
  | _, _, _, [] => []
  | i, d, m, p :: todo =>
    if i + 2 ≥ args.cookie.toNat then
      if Fits args.dircount args.maxcount (d + entrySize p) (m + 200) then
        (i + 3, p) :: selected (i + 1) (d + entrySize p) (m + 200) todo
      else selected (i + 1) (d + entrySize p) (m + 200) todo
    else selected (i + 1) d m todo

variable {args}

/-- The counts only grow, so no entry fits after one that did not. -/
lemma Fits.mono {dircount maxcount : UInt32} {d d' m m' : ℕ} (h : Fits dircount maxcount d' m')
    (hd : d ≤ d') (hm : m ≤ m') : Fits dircount maxcount d m :=
  h.imp_right fun h => ⟨hd.trans_lt h.1, hm.trans_lt h.2⟩

lemma selected_of_not_fits {i d m : ℕ} (hfull : ¬ Fits args.dircount args.maxcount d m)
    (todo : List VfsPath) :
    selected args i d m todo = [] := by
  induction todo generalizing i d m with
  | nil => rfl
  | cons p todo ih =>
    have hstill : ¬ Fits args.dircount args.maxcount (d + entrySize p) (m + 200) := fun h =>
      hfull (h.mono (Nat.le_add_right _ _) (Nat.le_add_right _ _))
    simp only [selected, if_neg hstill, ih hfull, ih hstill, ite_self]

/-- Behind the cookie, as many entries are sent as there is room for. -/
lemma selected_of_le {i : ℕ} (hi : args.cookie.toNat ≤ i + 2) (d m : ℕ) (todo : List VfsPath) :
    selected args i d m todo =
      numbered i (todo.take (room args.dircount args.maxcount d m todo)) := by
  induction todo generalizing i d m with
  | nil => rfl
  | cons p todo ih =>
    rw [selected, if_pos hi, room]
    split_ifs with hfits
    · rw [ih (by omega), List.take_succ_cons, numbered]
    · rw [selected_of_not_fits hfits, List.take_zero, numbered]

/-- The entries in front of the cookie are skipped. -/
lemma selected_eq (i d m : ℕ) (todo : List VfsPath) (hi : i ≤ args.cookie.toNat - 2) :
    selected args i d m todo = numbered (args.cookie.toNat - 2)
      ((todo.drop (args.cookie.toNat - 2 - i)).take
        (room args.dircount args.maxcount d m (todo.drop (args.cookie.toNat - 2 - i)))) := by
  induction todo generalizing i with
  | nil => simp [selected, numbered]
  | cons p todo ih =>
    by_cases hstart : args.cookie.toNat ≤ i + 2
    · obtain rfl : i = args.cookie.toNat - 2 := by omega
      rw [selected_of_le hstart, Nat.sub_self, List.drop_zero]
    · have hskip : args.cookie.toNat - 2 - i = args.cookie.toNat - 2 - (i + 1) + 1 := by omega
      rw [selected, if_neg (by omega), ih (i + 1) (by omega), hskip, List.drop_succ_cons]

end Listing

/-! ### What a call gets -/

section Call

variable (S : Server) (dir : Directory) {args : Readdir4args} {req : Request}

/-- A program that is answered as the directory has it ends, with a value that has the property. -/
abbrev Gives {α : Type} (p : Op α) (post : α → Prop) : Prop :=
  p.Does dir.law (fun _ => True) False post

/-- What the file manager is asked for is answered by the law. -/
lemma gives_askManager (hmanager : req.cachedFmanager ≠ none) (call : Call)
    {post : call.Answer → Prop} (h : ∀ e a, dir.law (.on e call) a → post a) :
    Gives dir (req.askManager call) post := by
  obtain ⟨e, he⟩ := Option.ne_none_iff_exists'.1 hmanager
  simp only [Gives, Request.askManager, Request.fileManager, he, Prog.bind_eq, Prog.pure_bind]
  exact ⟨trivial, fun a ha => h (some e) a ha⟩

/-- The files of the filehandles of a listing. -/
def files (l : Listing) : List (ℕ × VfsPath) := l.filehandles.map fun x => (x.1, x.2.file)

/-- Going through the entries collects their names, and the filehandles of those that are sent. -/
lemma listEntries_gives (hmanager : req.cachedFmanager ≠ none) {entries : List VfsPath}
    (hmem : ∀ p ∈ entries, p ∈ dir.entries) (l : Listing) :
    Gives dir (listEntries args req entries l) fun out =>
      ∃ l', out = some l' ∧ l'.fnames = l.fnames ++ (entries.filter Visible).map filename ∧
        files l' = files l ++ selected args l.entryIdx l.dircountActual l.maxcountActual
          (entries.filter Visible) := by
  induction entries generalizing l with
  | nil => exact ⟨l, rfl, by simp, by simp [selected]⟩
  | cons p entries ih =>
    have hrest := ih fun q hq => hmem q (List.mem_cons_of_mem _ hq)
    refine .bind ?_
    unfold listEntry
    by_cases hhidden : filename p = ".nfs4attrs" ∨ (filename p).startsWith ".nfs."
    · simp only [hhidden, if_true]
      refine (hrest l).imp fun out hout => ?_
      have hskip : (p :: entries).filter Visible = entries.filter Visible :=
        List.filter_cons_of_neg fun h => of_decide_eq_true h hhidden
      rwa [hskip]
    · have hvisible : (p :: entries).filter Visible = p :: entries.filter Visible :=
        List.filter_cons_of_pos (decide_eq_true hhidden)
      simp only [hhidden, if_false, hvisible, List.map_cons, selected]
      by_cases hstart : l.entryIdx + 2 ≥ args.cookie.toNat
      · simp only [hstart, if_true]
        have hsize : l.dircountActual + 8 + (filename p).utf8ByteSize + 5 =
            l.dircountActual + entrySize p := by simp only [entrySize]; omega
        simp only [hsize]
        by_cases hfits : Fits args.dircount args.maxcount (l.dircountActual + entrySize p)
            (l.maxcountActual + 200)
        · rw [if_pos (show args.dircount = 0 ∨ _ from hfits), if_pos hfits]
          refine .bind (gives_askManager dir hmanager _ fun e a ha => ?_)
          obtain ⟨fh, rfl, hfile⟩ := ha p (hmem p List.mem_cons_self) rfl
          refine (hrest _).imp fun out ⟨l', hout, hnames, hfiles⟩ => ⟨l', hout, ?_, ?_⟩
          · rw [hnames, List.append_assoc, List.singleton_append]
          · rw [hfiles]
            simp [files, hfile]
        · rw [if_neg (show ¬ (args.dircount = 0 ∨ _) from hfits), if_neg hfits]
          refine (hrest _).imp fun out ⟨l', hout, hnames, hfiles⟩ => ⟨l', hout, ?_, hfiles⟩
          rw [hnames, List.append_assoc, List.singleton_append]
      · simp only [hstart, if_false]
        refine (hrest _).imp fun out ⟨l', hout, hnames, hfiles⟩ => ⟨l', hout, ?_, hfiles⟩
        rw [hnames, List.append_assoc, List.singleton_append]

/-- Every entry that is sent has attributes. -/
lemma entryAttrs_gives (hmanager : req.cachedFmanager ≠ none) (fhs : List (ℕ × Handle)) :
    Gives dir (entryAttrs args req fhs) fun out =>
      ∃ es, out = some es ∧
        es.map (fun e => (e.1, e.2.1)) = fhs.map fun x => sent (x.1, x.2.file) := by
  induction fhs with
  | nil => exact ⟨[], rfl, rfl⟩
  | cons x fhs ih =>
    refine .bind (ih.imp fun out hout => ?_)
    obtain ⟨es, rfl, hes⟩ := hout
    refine .bind (gives_askManager dir hmanager _ fun e a ha => ?_)
    obtain ⟨attrs, rfl⟩ := Option.isSome_iff_exists.1 ha
    refine ⟨_, rfl, ?_⟩
    rw [List.map_cons, List.map_cons, hes]
    rfl

/-- A linked list of entries has the cookies and names it was made from. -/
lemma cookiesAndNames_linkEntries (es : List (UInt64 × String × Fattr4)) :
    ((linkEntries es).map cookiesAndNames).getD [] = es.map fun e => (e.1, e.2.1) :=
  collect_linkEntries (fun _ _ _ => rfl) (fun _ _ _ _ => rfl) es

/-- The reply says that it is the last if no entry behind its entries is left, or if it has none. -/
lemma eof_eq {es : List (UInt64 × String × Fattr4)} {start n : ℕ} {ps : List VfsPath}
    (hes : es.map (fun e => (e.1, e.2.1)) = (numbered start ps).map sent)
    (hfit : start + 3 < 2 ^ 64 ∨ ps = []) :
    (match es.head? with
      | some (cookie, _) => decide (cookie.toNat + es.length - 1 ≥ n + 2)
      | none => true) = decide (ps = [] ∨ n ≤ start + ps.length) := by
  have hlen : es.length = ps.length := by
    simpa [length_numbered] using congrArg List.length hes
  cases es with
  | nil =>
    obtain rfl := List.length_eq_zero_iff.1 hlen.symm
    rfl
  | cons e es =>
    cases ps with
    | nil => cases hlen
    | cons p ps =>
      have hstart : start + 3 < 2 ^ 64 := hfit.resolve_right (List.cons_ne_nil _ _)
      have hcookie : e.1 = UInt64.ofNat (start + 3) := by
        have hhead := (List.cons.inj hes).1
        exact congrArg Prod.fst hhead
      have hnat : e.1.toNat = start + 3 := by
        rw [hcookie, UInt64.toNat_ofNat', Nat.mod_eq_of_lt hstart]
      simp only [List.head?_cons, hnat, List.length_cons] at hlen ⊢
      rw [decide_eq_decide]
      simp only [List.cons_ne_nil, false_or]
      omega

/-- A listing with all names and the entries of the page is answered with the page. -/
lemma finishReaddir_gives (hmanager : req.cachedFmanager ≠ none) {l : Listing}
    (hnames : l.fnames = dir.names)
    (hfiles : files l = numbered (args.cookie.toNat - 2) (dir.shown args)) :
    Gives dir (finishReaddir args req l) fun resp => pageOf (some resp) = dir.page args := by
  unfold finishReaddir Directory.page
  rw [hnames]
  simp only
  split_ifs with hverf
  · rfl
  · refine .bind ((entryAttrs_gives dir hmanager l.filehandles).imp fun out hout => ?_)
    obtain ⟨es, rfl, hes⟩ := hout
    have hsent : es.map (fun e => (e.1, e.2.1)) =
        (numbered (args.cookie.toNat - 2) (dir.shown args)).map sent := by
      rw [hes, ← hfiles, files, List.map_map]
      rfl
    have hfit : args.cookie.toNat - 2 + 3 < 2 ^ 64 ∨ dir.shown args = [] := by
      by_cases hstart : args.cookie.toNat - 2 < dir.visible.length
      · have hlt := dir.length_visible_lt
        exact .inl (by omega)
      · refine .inr ?_
        unfold Directory.shown
        simp only
        rw [List.drop_eq_nil_of_le (not_lt.1 hstart), List.take_nil]
    have heof := eof_eq (n := dir.names.length) hsent hfit
    rw [dir.length_names] at heof ⊢
    simp only [Prog.pure_eq, Prog.does_pure, Response.some, pageOf, cookiesAndNames_linkEntries,
      hsent]
    exact congrArg (Page.ok _ _) heof

/-- READDIR in a directory that does not change gets the page of the directory. -/
lemma readdir_gives (hreq : OnDirectory dir req) :
    Gives dir (readdir S args req) fun resp => pageOf (some resp) = dir.page args := by
  obtain ⟨fh, hfh, hpath⟩ := hreq.current
  unfold readdir
  simp only [hreq.notPseudo, Bool.false_eq_true, if_false, hfh]
  refine .bind ⟨trivial, fun a ha => ?_⟩
  obtain rfl : a = some dir.entries := ha hpath
  refine .bind ((listEntries_gives dir hreq.manager (fun p hp => hp) _).imp fun out hout => ?_)
  obtain ⟨l, rfl, hnames, hfiles⟩ := hout
  refine finishReaddir_gives dir hreq.manager hnames ?_
  rw [hfiles, selected_eq 0 0 128 _ (Nat.zero_le _)]
  rfl

end Call

/-! ### Sessions -/

section Session

variable (S : Server) (dir : Directory)

/-- A call of READDIR in a listing, with the budgets that the client chose for it. -/
structure ReaddirCall where
  req : Request
  dircount : UInt32
  maxcount : UInt32
  attrRequest : List FileAttr
  onDirectory : OnDirectory dir req

variable {dir}

/-- The arguments of a call, which goes on from a cookie. -/
def ReaddirCall.args (call : ReaddirCall dir) (cookie : UInt64) (verf : List.Vector UInt8 8) :
    Readdir4args :=
  ⟨cookie, verf, call.dircount, call.maxcount, call.attrRequest⟩

/-- The call gets the page, from a server that answers as the directory has it. -/
def ReaddirCall.Gets (call : ReaddirCall dir) (cookie : UInt64) (verf : List.Vector UInt8 8)
    (page : Page) : Prop :=
  ∃ h out, Runs (readdir S (call.args cookie verf) call.req) h out ∧
    (∀ e ∈ h, dir.law e.1 e.2) ∧ page = pageOf out

/-- What a client goes on with after a page: the cookie of the last entry and the verifier. After
NFS4ERR_TOOSMALL it asks again. -/
def Page.next (cookie : UInt64) (verf : List.Vector UInt8 8) :
    Page → Option (UInt64 × List.Vector UInt8 8)
  | .ok entries verf false => some ((entries.getLast?.map Prod.fst).getD cookie, verf)
  | .failed .nfs4errToosmall => some (cookie, verf)
  | _ => none

/-- A client lists the directory from a cookie on: its calls and the pages it gets. It stops after
the last page or an error, and it may stop before. -/
inductive Session : UInt64 → List.Vector UInt8 8 → List (ReaddirCall dir) → List Page → Prop
  | idle (cookie : UInt64) (verf : List.Vector UInt8 8) : Session cookie verf [] []
  | last {cookie : UInt64} {verf : List.Vector UInt8 8} {call : ReaddirCall dir}
      {calls : List (ReaddirCall dir)} {page : Page} :
    call.Gets S cookie verf page → page.next cookie verf = none →
    Session cookie verf (call :: calls) [page]
  | more {cookie cookie' : UInt64} {verf verf' : List.Vector UInt8 8} {call : ReaddirCall dir}
      {calls : List (ReaddirCall dir)} {page : Page} {pages : List Page} :
    call.Gets S cookie verf page → page.next cookie verf = some (cookie', verf') →
    Session cookie' verf' calls pages → Session cookie verf (call :: calls) (page :: pages)

/-- The names on a page. -/
def Page.names : Page → List String
  | .ok entries _ _ => entries.map Prod.snd
  | _ => []

/-- A page is an answer: it has an entry unless it is the last, or says that the budget is too
small. -/
def Page.Answers : Page → Prop
  | .ok entries _ eof => eof = false → entries ≠ []
  | .failed status => status = .nfs4errToosmall
  | .lost => False

/-- The client gets the names: each page is an answer, no name comes twice, and with the last page
all have come. -/
structure Complete (todo : List String) (pages : List Page) : Prop where
  answers : ∀ page ∈ pages, page.Answers
  once : List.Subperm (pages.flatMap Page.names) todo
  all : ∀ entries verf, .ok entries verf true ∈ pages → (pages.flatMap Page.names).Perm todo

/-- Each call has room for the first entry that is left, and where a call goes on after another the
names of the directory make a whole verifier. -/
def Served : List (ReaddirCall dir) → List VfsPath → Prop
  | [], _ => True
  | call :: calls, todo =>
    (∀ p, todo.head? = some p → Fits call.dircount call.maxcount (entrySize p) 328) ∧
      let left := todo.drop (room call.dircount call.maxcount 0 128 todo)
      (left ≠ [] → calls ≠ [] → FullVerifier dir.names ∧ Served calls left)

/-! ### Complete sessions -/

variable {S}

lemma complete_nil (todo : List String) : Complete todo [] :=
  ⟨by simp, List.nil_subperm, by simp⟩

/-- The last page completes a listing if it has all that is left. -/
lemma complete_last_iff {todo : List String} {entries : List (UInt64 × String)}
    {verf : List.Vector UInt8 8} :
    Complete todo [.ok entries verf true] ↔ (entries.map Prod.snd).Perm todo := by
  have hnames : [Page.ok entries verf true].flatMap Page.names = entries.map Prod.snd := by
    simp [Page.names]
  constructor
  · intro h
    rw [← hnames]
    exact h.all entries verf List.mem_cons_self
  · intro h
    rw [← hnames] at h
    exact ⟨by simp [Page.Answers], h.subperm, fun _ _ _ => h⟩

/-- After a page with some entries, the rest is left. -/
lemma complete_cons_iff {todo : List String} {entries : List (UInt64 × String)}
    {verf : List.Vector UInt8 8} {pages : List Page} (hne : entries ≠ []) :
    Complete (entries.map Prod.snd ++ todo) (.ok entries verf false :: pages) ↔
      Complete todo pages := by
  have hnames : (Page.ok entries verf false :: pages).flatMap Page.names =
      entries.map Prod.snd ++ pages.flatMap Page.names := by
    simp [Page.names]
  constructor
  · intro h
    refine ⟨fun page hp => h.answers page (List.mem_cons_of_mem _ hp), ?_, fun es v hmem => ?_⟩
    · have honce := h.once
      rwa [hnames, List.subperm_append_left] at honce
    · have hall := h.all es v (List.mem_cons_of_mem _ hmem)
      rwa [hnames, List.perm_append_left_iff] at hall
  · intro h
    refine ⟨List.forall_mem_cons.2 ⟨fun _ => hne, h.answers⟩, ?_, fun es v hmem => ?_⟩
    · rw [hnames, List.subperm_append_left]
      exact h.once
    · rw [hnames, List.perm_append_left_iff]
      exact h.all es v ((List.mem_cons.1 hmem).resolve_left nofun)

/-- A call gets the page of the directory. -/
lemma ReaddirCall.Gets.page_eq {call : ReaddirCall dir} {cookie : UInt64}
    {verf : List.Vector UInt8 8} {page : Page} (h : call.Gets S cookie verf page) :
    page = dir.page (call.args cookie verf) := by
  obtain ⟨history, out, hruns, hlaw, rfl⟩ := h
  have hgives := @readdir_gives S dir (call.args cookie verf) call.req call.onDirectory
  obtain ⟨-, hpost, hcrash⟩ := hgives.of_runs hruns hlaw
  cases out with
  | none => exact (hcrash rfl).elim
  | some resp => exact hpost resp rfl

/-- The cookie that goes on after some entries. -/
def cookieAt (start : ℕ) : UInt64 := if start = 0 then 0 else UInt64.ofNat (start + 2)

lemma toNat_cookieAt {start : ℕ} (h : start < 2 ^ 63) :
    (cookieAt start).toNat = if start = 0 then 0 else start + 2 := by
  unfold cookieAt
  split_ifs with hzero
  · rfl
  · rw [UInt64.toNat_ofNat', Nat.mod_eq_of_lt (by omega)]

lemma toNat_cookieAt_sub {start : ℕ} (h : start < 2 ^ 63) :
    (cookieAt start).toNat - 2 = start := by
  rw [toNat_cookieAt h]
  split_ifs with hzero <;> omega

lemma cookieAt_ne_zero {start : ℕ} (h : start < 2 ^ 63) (hne : start ≠ 0) : cookieAt start ≠ 0 := by
  intro heq
  have hnat := toNat_cookieAt h
  rw [heq, if_neg hne] at hnat
  exact absurd hnat.symm (Nat.succ_ne_zero _)

lemma room_le (dircount maxcount : UInt32) (d m : ℕ) (todo : List VfsPath) :
    room dircount maxcount d m todo ≤ todo.length := by
  induction todo generalizing d m with
  | nil => exact Nat.zero_le _
  | cons p todo ih =>
    rw [room, List.length_cons]
    split_ifs
    · exact Nat.succ_le_succ (ih _ _)
    · exact Nat.zero_le _

/-- There is room for an entry if the first fits. -/
lemma room_eq_zero_iff (dircount maxcount : UInt32) (todo : List VfsPath) :
    room dircount maxcount 0 128 todo = 0 ↔
      ∀ p, todo.head? = some p → ¬ Fits dircount maxcount (entrySize p) 328 := by
  cases todo with
  | nil => simp [room]
  | cons p todo =>
    rw [room, Nat.zero_add]
    split_ifs with hfits
    · simp [hfits]
    · simp [hfits]

/-- The first entry fits if there is room for one. -/
lemma fits_of_room_ne_zero {dircount maxcount : UInt32} {todo : List VfsPath}
    (h : room dircount maxcount 0 128 todo ≠ 0) :
    ∀ p, todo.head? = some p → Fits dircount maxcount (entrySize p) 328 := by
  intro p hp
  by_contra hfits
  refine h ((room_eq_zero_iff _ _ _).2 fun q hq => ?_)
  rwa [← Option.some.inj (hp.symm.trans hq)]

/-- The first entry that is left fits if the page has all that is left. -/
lemma fits_of_drop_eq_nil {dircount maxcount : UInt32} {todo : List VfsPath}
    (h : todo.drop (room dircount maxcount 0 128 todo) = []) :
    ∀ p, todo.head? = some p → Fits dircount maxcount (entrySize p) 328 := by
  by_cases hzero : room dircount maxcount 0 128 todo = 0
  · rw [hzero, List.drop_zero] at h
    subst h
    exact nofun
  · exact fits_of_room_ne_zero hzero

/-- What is asked of the calls after a page with some of the entries that are left. -/
lemma served_cons_iff {call : ReaddirCall dir} {calls : List (ReaddirCall dir)}
    {todo : List VfsPath} (hpos : room call.dircount call.maxcount 0 128 todo ≠ 0)
    (hleft : todo.drop (room call.dircount call.maxcount 0 128 todo) ≠ []) :
    Served (call :: calls) todo ↔ (calls ≠ [] → FullVerifier dir.names ∧
      Served calls (todo.drop (room call.dircount call.maxcount 0 128 todo))) :=
  ⟨fun h => h.2 hleft, fun h => ⟨fits_of_room_ne_zero hpos, fun _ => h⟩⟩

/-- The last cookie of some entries. -/
lemma getLast?_numbered (i : ℕ) {ps : List VfsPath} (h : ps ≠ []) :
    ((numbered i ps).getLast?.map Prod.fst) = some (i + ps.length + 2) := by
  induction ps generalizing i with
  | nil => exact absurd rfl h
  | cons p ps ih =>
    cases ps with
    | nil => simp [numbered]
    | cons q ps =>
      have hlast := ih (i + 1) (List.cons_ne_nil _ _)
      rw [numbered] at hlast ⊢
      rw [numbered, List.getLast?_cons_cons, hlast]
      simp only [List.length_cons, Option.some.injEq]
      omega

/-- What goes on after a page with some entries. -/
lemma next_numbered {start : ℕ} {ps : List VfsPath} (h : ps ≠ []) (cookie : UInt64)
    (verf verf' : List.Vector UInt8 8) :
    (Page.ok ((numbered start ps).map sent) verf false).next cookie verf' =
      some (cookieAt (start + ps.length), verf) := by
  have hlast := getLast?_numbered start h
  have hpos := List.length_pos_of_ne_nil h
  obtain ⟨x, hx, hcookie⟩ := Option.map_eq_some_iff.1 hlast
  have hne : start + ps.length ≠ 0 := by omega
  rw [cookieAt, if_neg hne, Page.next, List.getLast?_map, hx, ← hcookie]
  rfl

lemma names_numbered (start : ℕ) (ps : List VfsPath) :
    (((numbered start ps).map sent).map Prod.snd) = ps.map filename := by
  rw [List.map_map, ← map_snd_numbered start ps, List.map_map, map_snd_numbered]
  rfl

section Page

variable {start : ℕ} {verf : List.Vector UInt8 8} (call : ReaddirCall dir)

/-- The page of a call that goes on after some entries, with the right verifier. -/
lemma page_cookieAt (hstart : start ≤ dir.visible.length)
    (hverf : start ≠ 0 → verf = paddedVerifier (cookieVerifier dir.names) ∧
      FullVerifier dir.names) :
    dir.page (call.args (cookieAt start) verf) =
      let todo := dir.visible.drop start
      let n := room call.dircount call.maxcount 0 128 todo
      .ok ((numbered start (todo.take n)).map sent) (paddedVerifier (cookieVerifier dir.names))
        (decide (n = 0 ∨ todo.drop n = [])) := by
  have hlt : start < 2 ^ 63 := hstart.trans_lt dir.length_visible_lt
  have hsame : ¬ (cookieAt start ≠ 0 ∧ cookieVerifier dir.names ≠ verf.toList) := by
    rintro ⟨hcookie, hne⟩
    have hzero : start ≠ 0 := fun h => hcookie (by rw [h]; rfl)
    obtain ⟨rfl, hfull⟩ := hverf hzero
    exact hne ((toList_paddedVerifier_iff _).2 hfull)
  have hle := room_le call.dircount call.maxcount 0 128 (dir.visible.drop start)
  simp only [Directory.page, Directory.shown, ReaddirCall.args, toNat_cookieAt_sub hlt]
  rw [if_neg hsame]
  congr 1
  rw [decide_eq_decide, List.take_eq_nil_iff, List.drop_eq_nil_iff, List.drop_eq_nil_iff,
    List.length_take, Nat.min_eq_left hle]
  rw [List.length_drop] at hle ⊢
  omega

/-- A call with a verifier that is not whole is turned down. -/
lemma page_notSame (hstart : start ≤ dir.visible.length) (hne : start ≠ 0)
    (hfull : ¬ FullVerifier dir.names) :
    dir.page (call.args (cookieAt start) (paddedVerifier (cookieVerifier dir.names))) =
      .failed .nfs4errNotSame := by
  have hlt : start < 2 ^ 63 := hstart.trans_lt dir.length_visible_lt
  exact if_pos ⟨cookieAt_ne_zero hlt hne, fun heq => hfull ((toList_paddedVerifier_iff _).1 heq)⟩

end Page

/-- A listing that was turned down is not complete. -/
lemma Session.not_complete_of_notSame {start : ℕ} {calls : List (ReaddirCall dir)}
    {pages : List Page} {todo : List String} (hstart : start ≤ dir.visible.length)
    (hne : start ≠ 0) (hfull : ¬ FullVerifier dir.names) (hcalls : calls ≠ [])
    (h : Session S (cookieAt start) (paddedVerifier (cookieVerifier dir.names)) calls pages) :
    ¬ Complete todo pages := by
  have hturned : ∀ (call : ReaddirCall dir) (page : Page),
      call.Gets S (cookieAt start) (paddedVerifier (cookieVerifier dir.names)) page →
      ¬ page.Answers := by
    intro call page hgets
    rw [hgets.page_eq, page_notSame call hstart hne hfull]
    exact nofun
  intro hcomplete
  cases h with
  | idle => exact hcalls rfl
  | last hgets _ => exact hturned _ _ hgets (hcomplete.answers _ List.mem_cons_self)
  | more hgets _ _ => exact hturned _ _ hgets (hcomplete.answers _ List.mem_cons_self)

/-- From a place in the listing on, the client gets all that is left if each call is served. -/
lemma Session.complete_iff {cookie : UInt64} {verf : List.Vector UInt8 8}
    {calls : List (ReaddirCall dir)} {pages : List Page} (h : Session S cookie verf calls pages)
    {start : ℕ} (hstart : start ≤ dir.visible.length) (hcookie : cookie = cookieAt start)
    (hverf : start ≠ 0 → verf = paddedVerifier (cookieVerifier dir.names) ∧
      FullVerifier dir.names) :
    Complete ((dir.visible.drop start).map filename) pages ↔
      Served calls (dir.visible.drop start) := by
  induction h generalizing start with
  | idle cookie verf => exact iff_of_true (complete_nil _) trivial
  | @last cookie verf call calls page hgets hnext =>
    subst hcookie
    rw [hgets.page_eq, page_cookieAt call hstart hverf] at hnext ⊢
    generalize dir.visible.drop start = todo at hnext ⊢
    simp only at hnext ⊢
    set n := room call.dircount call.maxcount 0 128 todo with hn
    have heof : n = 0 ∨ todo.drop n = [] := by
      by_contra hmore
      rw [decide_eq_false hmore] at hnext
      cases hnext
    rw [decide_eq_true heof, complete_last_iff, names_numbered]
    by_cases hleft : todo.drop n = []
    · have hall : todo.take n = todo := List.take_of_length_le (List.drop_eq_nil_iff.1 hleft)
      rw [hall]
      exact iff_of_true (.refl _) ⟨fits_of_drop_eq_nil hleft, fun hne _ => absurd hleft hne⟩
    · have hzero : n = 0 := heof.resolve_right hleft
      rw [hzero, List.drop_zero] at hleft
      rw [hzero, List.take_zero]
      refine iff_of_false (fun hperm => hleft (List.map_eq_nil_iff.1 hperm.nil_eq.symm)) ?_
      rintro ⟨hfits, -⟩
      obtain ⟨p, todo, rfl⟩ := List.exists_cons_of_ne_nil hleft
      exact (room_eq_zero_iff _ _ _).1 hzero p rfl (hfits p rfl)
  | @more cookie cookie' verf verf' call calls page pages hgets hnext hrest ih =>
    subst hcookie
    rw [hgets.page_eq, page_cookieAt call hstart hverf] at hnext ⊢
    simp only at hnext ⊢
    set todo := dir.visible.drop start with htodo
    set n := room call.dircount call.maxcount 0 128 todo with hn
    have hmore : ¬ (n = 0 ∨ todo.drop n = []) := by
      intro heof
      rw [decide_eq_true heof] at hnext
      cases hnext
    obtain ⟨hpos, hleft⟩ := not_or.1 hmore
    have hsome : todo.take n ≠ [] := fun h => by
      rcases List.take_eq_nil_iff.1 h with h | h
      · exact hpos h
      · exact hleft (by rw [h, List.drop_nil])
    have hlen : (todo.take n).length = n := List.length_take_of_le (room_le _ _ _ _ _)
    have hdrop : todo.drop n = dir.visible.drop (start + n) := List.drop_drop
    have hnextStart : start + n ≤ dir.visible.length := by
      have hle : n ≤ todo.length := room_le _ _ _ _ _
      have hlength : todo.length = dir.visible.length - start := List.length_drop
      omega
    have hsplit : todo.map filename =
        (((numbered start (todo.take n)).map sent).map Prod.snd) ++ (todo.drop n).map filename := by
      rw [names_numbered, ← List.map_append, List.take_append_drop]
    have hentries : (numbered start (todo.take n)).map sent ≠ [] := fun h => hsome (by
      rw [← map_snd_numbered start (todo.take n), List.map_eq_nil_iff.1 h, List.map_nil])
    rw [decide_eq_false hmore] at hnext ⊢
    rw [next_numbered hsome, hlen] at hnext
    obtain ⟨rfl, rfl⟩ := Prod.mk.inj (Option.some.inj hnext)
    rw [hsplit, complete_cons_iff hentries, served_cons_iff hpos hleft, hdrop]
    by_cases hcalls : calls = []
    · subst hcalls
      cases hrest
      exact iff_of_true (complete_nil _) fun h => absurd rfl h
    · by_cases hfull : FullVerifier dir.names
      · rw [ih hnextStart rfl fun _ => ⟨rfl, hfull⟩]
        exact ⟨fun h _ => ⟨hfull, h⟩, fun h => (h hcalls).2⟩
      · have hne : start + n ≠ 0 := by omega
        exact iff_of_false (hrest.not_complete_of_notSame hnextStart hne hfull hcalls)
          fun h => hfull (h hcalls).1

/-! ### The end of a listing -/

/-- Pages with some entries that are not the last have at least as many names as they are. -/
lemma length_le_names {pages : List Page}
    (h : ∀ page ∈ pages, ∃ entries verf, page = .ok entries verf false ∧ entries ≠ []) :
    pages.length ≤ (pages.flatMap Page.names).length := by
  induction pages with
  | nil => exact Nat.zero_le _
  | cons page pages ih =>
    obtain ⟨entries, verf, rfl, hne⟩ := h page List.mem_cons_self
    have hrest := ih fun page hp => h page (List.mem_cons_of_mem _ hp)
    have hpos := List.length_pos_of_ne_nil hne
    rw [List.flatMap_cons, List.length_append, List.length_cons, Page.names, List.length_map]
    omega

/-- After each page that is not the last the client goes on, as long as it has calls. -/
lemma Session.length_eq {cookie : UInt64} {verf : List.Vector UInt8 8}
    {calls : List (ReaddirCall dir)} {pages : List Page} (h : Session S cookie verf calls pages)
    (hmore : ∀ page ∈ pages, ∃ entries verf, page = .ok entries verf false) :
    pages.length = calls.length := by
  induction h with
  | idle => rfl
  | last _ hnext =>
    obtain ⟨entries, verf, rfl⟩ := hmore _ List.mem_cons_self
    cases hnext
  | more _ _ _ ih =>
    rw [List.length_cons, List.length_cons, ih fun page hp => hmore page (List.mem_cons_of_mem _ hp)]

/-- No page asks for a larger budget. -/
lemma Session.ne_toosmall {cookie : UInt64} {verf : List.Vector UInt8 8}
    {calls : List (ReaddirCall dir)} {pages : List Page} (h : Session S cookie verf calls pages) :
    ∀ page ∈ pages, page ≠ .failed .nfs4errToosmall := by
  have hgets : ∀ {call : ReaddirCall dir} {cookie : UInt64} {verf : List.Vector UInt8 8}
      {page : Page}, call.Gets S cookie verf page → page ≠ .failed .nfs4errToosmall := by
    intro call cookie verf page hgets
    rw [hgets.page_eq, Directory.page]
    split_ifs
    · exact nofun
    · exact nofun
  induction h with
  | idle => exact fun _ h => absurd h List.not_mem_nil
  | last hpage _ => exact List.forall_mem_singleton.2 (hgets hpage)
  | more hpage _ _ ih => exact List.forall_mem_cons.2 ⟨hgets hpage, ih⟩

/-- A complete listing comes to its end if there are more calls than names. -/
lemma Session.exists_last {cookie : UInt64} {verf : List.Vector UInt8 8}
    {calls : List (ReaddirCall dir)} {pages : List Page} {todo : List String}
    (h : Session S cookie verf calls pages) (hcomplete : Complete todo pages)
    (hmany : todo.length < calls.length) : ∃ entries verf, .ok entries verf true ∈ pages := by
  by_contra hlast
  have hmore : ∀ page ∈ pages, ∃ entries verf, page = .ok entries verf false ∧ entries ≠ [] := by
    intro page hp
    have hanswers := hcomplete.answers page hp
    cases page with
    | ok entries verf eof =>
      cases eof with
      | true => exact absurd ⟨entries, verf, hp⟩ hlast
      | false => exact ⟨entries, verf, rfl, hanswers rfl⟩
    | failed status => exact absurd (congrArg Page.failed hanswers) (h.ne_toosmall _ hp)
    | lost => exact hanswers.elim
  have hlen := h.length_eq fun page hp =>
    let ⟨entries, verf, hpage, _⟩ := hmore page hp
    ⟨entries, verf, hpage⟩
  have hnames := (length_le_names hmore).trans hcomplete.once.length_le
  omega

variable (S) in
/-- **READDIR page by page.** A client that lists a directory gets every name once if and only if
each call has room for the first entry that is left and, where a call goes on after another, the
names make a verifier of eight bytes. It then comes to the end if it has more calls than there are
names.

**Proof sketch.** Induction on the session, at any place in the listing. A page has the entries from
that place on that there is room for, so the next cookie is the place behind them. Without room for
one the page is empty and says that it is the last; a verifier that is not whole is padded, and the
padded one is turned down. -/
theorem complete_iff_served {verf : List.Vector UInt8 8} {calls : List (ReaddirCall dir)}
    {pages : List Page} (h : Session S 0 verf calls pages) :
    (Complete dir.names pages ↔ Served calls dir.visible) ∧
      (Served calls dir.visible → dir.names.length < calls.length →
        ∃ entries verf, .ok entries verf true ∈ pages) := by
  have hiff := h.complete_iff (Nat.zero_le _) rfl fun hne => absurd rfl hne
  exact ⟨hiff, fun hserved hmany => h.exists_last (hiff.2 hserved) hmany⟩

/-! ### Sessions there are -/

/-- The filehandle of an entry. -/
def entryHandle (e : Option UInt8) (p : VfsPath) : Handle :=
  { Filehandle.pseudoRoot 0 pseudoRootFh with file := p, vfs := e, writeCache := false }

/-- Answers as the directory has them. -/
def Directory.answer (dir : Directory) : (q : Question) → q.Answer
  | .on _ (.readDir p) => if p = dir.path then some dir.entries else none
  | .on e (.getFilehandleForPath s) =>
    match dir.entries.find? fun p => p.toStr = s with
    | some p => .ok (entryHandle e p)
    | none => .error .stale
  | .on _ (.filehandleAttrs ..) => some ⟨[], []⟩
  | q => q.idle

lemma Directory.law_answer (dir : Directory) (q : Question) : dir.law q (dir.answer q) := by
  cases q with
  | on e call =>
    cases call with
    | readDir p => exact fun hp => if_pos hp
    | getFilehandleForPath s =>
      rintro p hp rfl
      cases hfind : dir.entries.find? fun q => q.toStr = p.toStr with
      | none =>
        have hnot := List.find?_eq_none.1 hfind p hp
        exact absurd (decide_eq_true rfl) hnot
      | some q =>
        have hstr := List.find?_some hfind
        have hq : q = p := AbsPath.toStr_injective (of_decide_eq_true hstr)
        refine ⟨entryHandle e q, ?_, hq⟩
        simp only [Directory.answer, hfind]
    | filehandleAttrs attrs fh => exact rfl
    | _ => exact trivial
  | _ => exact trivial

/-- A call gets a page. -/
lemma ReaddirCall.gets_page (S : Server) (call : ReaddirCall dir) (cookie : UInt64)
    (verf : List.Vector UInt8 8) :
    call.Gets S cookie verf (dir.page (call.args cookie verf)) := by
  have hruns := runs_run (fun _ => dir.answer) 0 (readdir S (call.args cookie verf) call.req)
  have hgets : call.Gets S cookie verf
      (pageOf ((readdir S (call.args cookie verf) call.req).run (fun _ => dir.answer) 0).2) := by
    refine ⟨_, _, hruns, fun x hx => ?_, rfl⟩
    obtain ⟨i, hi⟩ := List.mem_iff_getElem?.1 hx
    rw [Prog.answer_of_run hi]
    exact dir.law_answer x.1
  rw [← hgets.page_eq]
  exact hgets

end Session

/-! ### Two listings -/

/-- A file in the root of an export. -/
def sampleFile (name : String) (h : PlainName name) : VfsPath := AbsPath.root.child name h

/-- A directory with three short names. -/
def sampleDirectory : Directory where
  path := .root
  entries := [sampleFile "a" (by decide), sampleFile "b" (by decide), sampleFile "c" (by decide)]
  short := by decide

/-- A call in it. -/
def sampleCall (dircount maxcount : UInt32) : ReaddirCall sampleDirectory where
  req := { Request.new "10.0.0.1" (some 1) 0 [] .sys with
    filehandle := some (entryHandle (some 1) .root) }
  dircount := dircount
  maxcount := maxcount
  attrRequest := []
  onDirectory := ⟨rfl, nofun, entryHandle (some 1) .root, rfl, rfl⟩

/-- The verifier of the three names. -/
def sampleVerifier : List.Vector UInt8 8 := ⟨[97, 98, 99, 0, 0, 0, 0, 0], rfl⟩

/-- All entries on one page. -/
lemma session_one_page : Session openServer 0 (List.Vector.replicate 8 0) [sampleCall 0 0]
    [.ok [(3, "a"), (4, "b"), (5, "c")] sampleVerifier true] := by
  have hpage : sampleDirectory.page ((sampleCall 0 0).args 0 (List.Vector.replicate 8 0)) =
      .ok [(3, "a"), (4, "b"), (5, "c")] sampleVerifier true := by decide +kernel
  have hgets := (sampleCall 0 0).gets_page openServer 0 (List.Vector.replicate 8 0)
  rw [hpage] at hgets
  exact .last hgets rfl

/-- **READDIR page by page**, for a client that asks for everything at once. -/
theorem complete_iff_served_sample :
    Complete sampleDirectory.names [.ok [(3, "a"), (4, "b"), (5, "c")] sampleVerifier true] := by
  refine (complete_iff_served openServer session_one_page).1.2 ⟨fun p _ => .inl rfl, ?_⟩
  exact fun _ hcalls => absurd rfl hcalls

/-- **Listings that are not complete.** With room for one entry at a time the second call is turned
down, as three letters do not make a verifier. With a budget of one byte the first page is empty and
says that it is the last. -/
theorem listing_incomplete_sample :
    (Session openServer 0 (List.Vector.replicate 8 0) [sampleCall 15 1000, sampleCall 15 1000]
        [.ok [(3, "a")] sampleVerifier false, .failed .nfs4errNotSame] ∧
      ¬ Complete sampleDirectory.names
        [.ok [(3, "a")] sampleVerifier false, .failed .nfs4errNotSame]) ∧
      Session openServer 0 (List.Vector.replicate 8 0) [sampleCall 1 1000]
        [.ok [] sampleVerifier true] ∧
      ¬ Complete sampleDirectory.names [.ok [] sampleVerifier true] := by
  have hfirst : sampleDirectory.page ((sampleCall 15 1000).args 0 (List.Vector.replicate 8 0)) =
      .ok [(3, "a")] sampleVerifier false := by decide +kernel
  have hsecond : sampleDirectory.page ((sampleCall 15 1000).args 3 sampleVerifier) =
      .failed .nfs4errNotSame := by decide +kernel
  have hempty : sampleDirectory.page ((sampleCall 1 1000).args 0 (List.Vector.replicate 8 0)) =
      .ok [] sampleVerifier true := by decide +kernel
  have hgets₁ := (sampleCall 15 1000).gets_page openServer 0 (List.Vector.replicate 8 0)
  have hgets₂ := (sampleCall 15 1000).gets_page openServer 3 sampleVerifier
  have hgets₃ := (sampleCall 1 1000).gets_page openServer 0 (List.Vector.replicate 8 0)
  rw [hfirst] at hgets₁
  rw [hsecond] at hgets₂
  rw [hempty] at hgets₃
  refine ⟨⟨.more hgets₁ rfl (.last hgets₂ rfl), fun h => ?_⟩, .last hgets₃ rfl, fun h => ?_⟩
  · have hanswers := h.answers _ (List.mem_cons_of_mem _ List.mem_cons_self)
    cases hanswers
  · have hperm := h.all [] sampleVerifier List.mem_cons_self
    exact absurd hperm.length_eq (by decide)

end NextNfs.Readdir
