import NextNfs.Server.FileContents

set_option relaxedAutoImplicit false
set_option autoImplicit false

/-!
# Reading a file to its end

READ may return fewer bytes than it is asked for, and any two of its calls of the file system may
have other calls between them. A client reads a file by going on at the end of what it has got until
it is told that this is the end of the file. This module shows that it gets the file, also while
others append to it.

## Main definitions

* `NextNfs.FileContents.stepBeside` — the files while others append to them.
* `NextNfs.FileContents.Got` — what a READ says about the file.
* `NextNfs.FileContents.Reading` — the READs of a client that goes on where it is.

## Main results

* `NextNfs.FileContents.read_to_end` — what the client has got is in the file, what was in the file
  when it began is what it has got when it is told so, and no READ is in vain.

## Implementation notes

The files only grow: nobody truncates or overwrites them. Files grow before a question, and a READ
that fails is repeated or not. The requests of the READs may differ in everything but the file, and
the client chooses the count of each.
-/

namespace NextNfs.FileContents

open Wire Dialogue Dispatcher

section Beside

variable {ι : Type} {m m' m'' : Machine ι}

/-- Each file has what it had at its beginning. -/
def Grows (m m' : Machine ι) : Prop := ∀ file, m.content file <+: m'.content file

lemma Grows.refl (m : Machine ι) : Grows m m := fun _ => List.prefix_rfl

lemma Grows.trans (h : Grows m m') (h' : Grows m' m'') : Grows m m'' :=
  fun file => (h file).trans (h' file)

lemma Grows.length_le (h : Grows m m') (file : ι) :
    (m.content file).length ≤ (m'.content file).length := (h file).length_le

lemma Grows.of_content (h : Grows m m') (hcontent : m''.content = m'.content) : Grows m m'' := by
  intro file
  rw [hcontent]
  exact h file

/-- A file that has grown has grown also after an offset. -/
lemma Grows.drop (h : Grows m m') (file : ι) (offset : ℕ) :
    (m.content file).drop offset <+: (m'.content file).drop offset := by
  obtain ⟨rest, hrest⟩ := h file
  rw [← hrest, List.drop_append]
  exact List.prefix_append _ _

lemma seek_appending (position : ℕ) : (m.seek position).appending = m.appending := by
  unfold Machine.seek
  split <;> rfl

/-! ### What a READ says -/

/-- What the reply to a READ says: its bytes are in the file and are no more than was asked for. The
end of the file is told if they reach the end. Otherwise there are more, at an offset that a READ
can have, and there is a byte if any was asked for. -/
structure Got (file : ι) (args : Read4args) (data : Bytes) (eof : Bool) (m m' : Machine ι) :
    Prop where
  bytes : data <+: (m'.content file).drop args.offset.toNat
  count : data.length ≤ args.count.toNat
  ended : eof = true → (m.content file).length ≤ args.offset.toNat + data.length
  goesOn : eof = false → args.offset.toNat + data.length < (m'.content file).length
  fits : eof = false → args.offset.toNat + data.length < 2 ^ 64
  progress : eof = false → args.count ≠ 0 → data ≠ []

/-- `saturating_sub` is the subtraction of natural numbers. -/
lemma toNat_saturatingSub (a b : UInt64) : (saturatingSub a b).toNat = a.toNat - b.toNat := by
  unfold saturatingSub
  split_ifs with hle
  · exact UInt64.toNat_sub_of_le _ _ hle
  · have hlt := UInt64.lt_iff_toNat_lt.1 (UInt64.not_le.1 hle)
    rw [UInt64.toNat_zero]
    omega

/-- The last call of a READ, at a size that the file had before. -/
lemma got_of_read {file : ι} {args : Read4args} {data : Bytes} {size : UInt64}
    {m₀ m₁ m₂ m₃ : Machine ι} (hgrows₁ : Grows m₀ m₁) (hgrows₂ : Grows m₁ m₂)
    (hsize : size.toNat = (m₁.content file).length)
    (hdata : data <+: (m₂.content file).drop args.offset.toNat)
    (hcount : data.length ≤ min args.count.toNat (size.toNat - args.offset.toNat))
    (hend : data = [] → min args.count.toNat (size.toNat - args.offset.toNat) = 0 ∨
      (m₂.content file).length ≤ args.offset.toNat)
    (hcontent : m₃.content = m₂.content) :
    Got file args data (decide (args.offset.toNat + data.length ≥ size.toNat)) m₀ m₃ := by
  have hle₁ := hgrows₁.length_le file
  have hle₂ := hgrows₂.length_le file
  constructor
  · rw [hcontent]
    exact hdata
  · omega
  · intro heof
    have hge := of_decide_eq_true heof
    omega
  · intro heof
    have hlt := of_decide_eq_false heof
    rw [hcontent]
    omega
  · intro heof
    have hlt := of_decide_eq_false heof
    have hsmall := size.toNat_lt
    omega
  · intro heof hne hempty
    have hlt := of_decide_eq_false heof
    have hpos : args.count.toNat ≠ 0 := fun hzero => hne (UInt32.toNat_inj.1 hzero)
    rw [hempty, List.length_nil] at hlt
    rcases hend hempty with hzero | hpast
    · omega
    · omega

/-- Bytes at an offset and those after them are the bytes at the offset. -/
lemma append_drop {content data : Bytes} {offset : ℕ} (hdata : data <+: content.drop offset) :
    data ++ content.drop (offset + data.length) = content.drop offset := by
  obtain ⟨tail, htail⟩ := hdata
  rw [← List.drop_drop, ← htail, List.drop_left]

/-- The next READ is at the end of what was read. -/
lemma Got.toNat_next {file : ι} {args : Read4args} {data : Bytes}
    (h : Got file args data false m m') :
    (args.offset + UInt64.ofNat data.length).toNat = args.offset.toNat + data.length := by
  have hfits := h.fits rfl
  rw [UInt64.toNat_add, UInt64.toNat_ofNat', Nat.mod_eq_of_lt (by omega)]
  omega

/-! ### One READ beside others -/

variable [DecidableEq ι] (fileAt : Option UInt8 → VfsPath → ι)

/-- A call of READ while others append: the files may have grown before it, and it changes none. -/
def stepBeside (m : Machine ι) (q : Question) (a : q.Answer) (m' : Machine ι) : Prop :=
  ∃ m₁, Grows m m₁ ∧ m₁.position = m.position ∧ m₁.appending = m.appending ∧
    step fileAt m₁ q a m' ∧ m'.content = m₁.content

variable {fileAt}

/-- The rule for a call beside which others append. -/
lemma ask_beside {α : Type} {vfs : Option UInt8} {call : Call}
    {k : call.Answer → Op α} {post : α → Machine ι → Prop}
    (h : ∀ a m₁ m', Grows m m₁ → m₁.position = m.position → m₁.appending = m.appending →
      step fileAt m₁ (.on vfs call) a m' → m'.content = m₁.content →
      (k a).Sat (stepBeside fileAt) (fun _ _ => True) True m' post) :
    ((ask vfs call).bind k).Sat (stepBeside fileAt) (fun _ _ => True) True m post := by
  refine ⟨trivial, ?_⟩
  rintro a m' ⟨m₁, hgrows, hposition, happending, hstep, hcontent⟩
  exact h a m₁ m' hgrows hposition happending hstep hcontent

/-- What a READ does to the file of its filehandle while others append. -/
lemma read_beside {args : Read4args} {req : Request} {fh : Handle}
    (hfh : req.filehandle = some fh) :
    (Dispatcher.read args req).Sat (stepBeside fileAt) (fun _ _ => True) True m fun resp m' =>
      Grows m m' ∧ (resp.status = .nfs4Ok → ∃ data eof,
        resp.result = some (.opread (.resok4 ⟨eof, data⟩)) ∧
        Got (fileAt fh.vfs fh.file) args data eof m m') := by
  unfold Dispatcher.read fileSize
  rw [hfh]
  refine ask_beside fun opened m₁ m₂ hgrows₁ _ _ hopened hcontent₂ => ?_
  have hgrows₂ : Grows m m₂ := hgrows₁.of_content hcontent₂
  cases opened with
  | none => exact ⟨hgrows₂, of_failure nofun⟩
  | some _ =>
    have hreads : m₂.appending = false := congrArg Machine.appending hopened
    refine .bind (ask_beside fun size m₃ m₄ hgrows₃ _ happending₃ hsize hcontent₄ => ?_)
    obtain ⟨size, rfl, hsize, rfl⟩ := hsize
    have hgrows₄ : Grows m₂ (m₃.seek size.toNat) := hgrows₃.of_content hcontent₄
    refine ask_beside fun sought m₅ m₆ hgrows₅ _ happending₅ hsought hcontent₆ => ?_
    have hgrows₆ : Grows (m₃.seek size.toNat) m₆ := hgrows₅.of_content hcontent₆
    cases sought with
    | none => exact ⟨(hgrows₂.trans hgrows₄).trans hgrows₆, of_failure nofun⟩
    | some _ =>
      have hposition : m₆.position = args.offset.toNat := by
        have hfalse : m₅.appending = false := by
          rw [happending₅, seek_appending, happending₃, hreads]
        rw [hsought, Machine.seek, if_neg (by simp [hfalse])]
      refine ask_beside fun data m₇ m₈ hgrows₇ hposition₇ _ hread hcontent₈ => ?_
      have hgrows₈ : Grows m₆ m₈ := hgrows₇.of_content hcontent₈
      have hgrows : Grows m m₈ := ((hgrows₂.trans hgrows₄).trans hgrows₆).trans hgrows₈
      cases data with
      | none => exact ⟨hgrows, of_failure nofun⟩
      | some data =>
        obtain ⟨hdata, hcount, hend, -⟩ := hread
        rw [hposition₇, hposition] at hdata hend
        -- The reply has all that was read, since it is not more than was asked for.
        have htake : data.take (min args.count.toNat (saturatingSub size args.offset).toNat) =
            data := List.take_of_length_le hcount
        rw [toNat_saturatingSub] at hcount hend
        have hbefore : Grows m m₃ := hgrows₂.trans hgrows₃
        have hafter : Grows m₃ m₇ :=
          ((Grows.refl m₃).of_content hcontent₄).trans (hgrows₆.trans hgrows₇)
        have hgot := got_of_read hbefore hafter hsize hdata hcount hend hcontent₈
        refine ⟨hgrows, fun _ => ⟨data, _, ?_, hgot⟩⟩
        simp only [Response.some, Option.getD_some, htake]

/-! ### READs one after another -/

variable (fileAt) (file : ι)

/-- A READ of the file, with the count that the client chose for it. -/
structure ReadCall where
  req : Request
  stateid : Stateid4
  count : UInt32
  onFile : ∃ fh, req.filehandle = some fh ∧ fileAt fh.vfs fh.file = file

variable {fileAt file}

/-- The READ is answered, by a machine to whose files others append. -/
def ReadCall.Answers (call : ReadCall fileAt file) (offset : UInt64) (resp : Response)
    (m m' : Machine ι) : Prop :=
  ∃ h, Runs (Dispatcher.read ⟨call.stateid, offset, call.count⟩ call.req) h (some resp) ∧
    Allows (stepBeside fileAt) m h m'

/-- A client reads a file from an offset on: the replies it has got, and whether the last of them
says that this is the end of the file. It goes on at the end of what it has got, and may repeat a
READ that fails. Between its READs others append. -/
inductive Reading : UInt64 → Machine ι → List (ReadCall fileAt file × Bytes) → Bool → Machine ι →
    Prop
  | idle {offset : UInt64} {m m' : Machine ι} : Grows m m' → Reading offset m [] false m'
  | last {offset : UInt64} {m m₁ m' : Machine ι} {call : ReadCall fileAt file} {resp : Response}
      {data : Bytes} :
    Grows m m₁ → call.Answers offset resp m₁ m' → resp.status = .nfs4Ok →
    resp.result = some (.opread (.resok4 ⟨true, data⟩)) → Reading offset m [(call, data)] true m'
  | more {offset : UInt64} {m m₁ m₂ m' : Machine ι} {call : ReadCall fileAt file} {resp : Response}
      {data : Bytes} {got : List (ReadCall fileAt file × Bytes)} {eof : Bool} :
    Grows m m₁ → call.Answers offset resp m₁ m₂ → resp.status = .nfs4Ok →
    resp.result = some (.opread (.resok4 ⟨false, data⟩)) →
    Reading (offset + UInt64.ofNat data.length) m₂ got eof m' →
    Reading offset m ((call, data) :: got) eof m'
  | failed {offset : UInt64} {m m₁ m₂ m' : Machine ι} {call : ReadCall fileAt file}
      {resp : Response} {got : List (ReadCall fileAt file × Bytes)} {eof : Bool} :
    Grows m m₁ → call.Answers offset resp m₁ m₂ → resp.status ≠ .nfs4Ok →
    Reading offset m₂ got eof m' → Reading offset m got eof m'

/-- The bytes that the client has got. -/
def gotBytes (got : List (ReadCall fileAt file × Bytes)) : Bytes := got.flatMap Prod.snd

/-- The reply to a READ says what a reply should. -/
lemma ReadCall.Answers.got {call : ReadCall fileAt file} {offset : UInt64} {resp : Response}
    (h : call.Answers offset resp m m') :
    Grows m m' ∧ (resp.status = .nfs4Ok → ∃ data eof,
      resp.result = some (.opread (.resok4 ⟨eof, data⟩)) ∧
      Got file ⟨call.stateid, offset, call.count⟩ data eof m m') := by
  obtain ⟨questions, hrun, hallow⟩ := h
  obtain ⟨fh, hfh, rfl⟩ := call.onFile
  exact ((read_beside hfh).holds_of_runs hrun hallow).2.1 resp rfl

/-- The reply to a READ that says this. -/
lemma ReadCall.Answers.got_of_ok {call : ReadCall fileAt file} {offset : UInt64} {resp : Response}
    {data : Bytes} {eof : Bool} (h : call.Answers offset resp m m') (hok : resp.status = .nfs4Ok)
    (hresult : resp.result = some (.opread (.resok4 ⟨eof, data⟩))) :
    Got file ⟨call.stateid, offset, call.count⟩ data eof m m' := by
  obtain ⟨data', eof', hresult', hgot⟩ := h.got.2 hok
  rw [hresult] at hresult'
  cases hresult'
  exact hgot

variable {offset : UInt64} {got : List (ReadCall fileAt file × Bytes)} {eof : Bool}

/-- The files have grown. -/
lemma Reading.grows (h : Reading offset m got eof m') : Grows m m' := by
  induction h with
  | idle hgrows => exact hgrows
  | last hgrows hanswers _ _ => exact hgrows.trans hanswers.got.1
  | more hgrows hanswers _ _ _ ih => exact (hgrows.trans hanswers.got.1).trans ih
  | failed hgrows hanswers _ _ ih => exact (hgrows.trans hanswers.got.1).trans ih

/-- What the client has got is in the file. -/
lemma Reading.prefix_content (h : Reading offset m got eof m') :
    gotBytes got <+: (m'.content file).drop offset.toNat := by
  induction h with
  | idle _ => exact List.nil_prefix
  | last _ hanswers hok hresult =>
    have hgot := hanswers.got_of_ok hok hresult
    simpa [gotBytes] using hgot.bytes
  | @more _ _ _ _ m' _ _ data got _ _ hanswers hok hresult hrest ih =>
    have hgot := hanswers.got_of_ok hok hresult
    have hdata := hgot.bytes.trans (hrest.grows.drop file _)
    rw [hgot.toNat_next] at ih
    show data ++ gotBytes got <+: _
    rw [← append_drop hdata]
    exact (List.prefix_append_right_inj data).2 ih
  | failed _ _ _ _ ih => exact ih

/-- When it is told that this is the end, the client has got what was in the file. -/
lemma Reading.content_prefix (h : Reading offset m got eof m') (heof : eof = true) :
    (m.content file).drop offset.toNat <+: gotBytes got := by
  induction h with
  | idle _ => cases heof
  | @last offset m m₁ m' _ _ data hgrows hanswers hok hresult =>
    have hgot := hanswers.got_of_ok hok hresult
    have hold := (hgrows.trans hanswers.got.1).drop file offset.toNat
    have hended : (m₁.content file).length ≤ offset.toNat + data.length := hgot.ended rfl
    have hlength : ((m.content file).drop offset.toNat).length ≤ data.length := by
      have hle := hgrows.length_le file
      rw [List.length_drop]
      omega
    have hprefix := List.prefix_of_prefix_length_le hold hgot.bytes hlength
    simpa [gotBytes] using hprefix
  | @more offset m _ m₂ _ _ _ data got _ hgrows hanswers hok hresult _ ih =>
    have hgot := hanswers.got_of_ok hok hresult
    have hold := (hgrows.trans hanswers.got.1).drop file offset.toNat
    have hrest := ih heof
    rw [hgot.toNat_next] at hrest
    refine hold.trans ?_
    show _ <+: data ++ gotBytes got
    rw [← append_drop hgot.bytes]
    exact (List.prefix_append_right_inj data).2 hrest
  | failed hgrows hanswers _ _ ih =>
    exact ((hgrows.trans hanswers.got.1).drop file _).trans (ih heof)

/-- No READ is in vain. -/
lemma Reading.progress (h : Reading offset m got eof m') :
    got.countP (fun reply => reply.1.count ≠ 0) ≤ (gotBytes got).length + eof.toNat := by
  induction h with
  | idle _ => exact Nat.zero_le _
  | last _ _ _ _ =>
    exact List.countP_le_length.trans (Nat.le_add_left _ _)
  | @more _ _ _ _ _ call _ data got _ _ hanswers hok hresult _ ih =>
    have hgot := hanswers.got_of_ok hok hresult
    have hbytes : (gotBytes ((call, data) :: got)).length = data.length + (gotBytes got).length :=
      List.length_append
    rw [hbytes]
    by_cases hcount : call.count = 0
    · rw [List.countP_cons_of_neg (by simp [hcount])]
      omega
    · have hpos := List.length_pos_iff.2 (hgot.progress rfl hcount)
      rw [List.countP_cons_of_pos (by simp [hcount])]
      omega
  | failed _ _ _ _ ih => exact ih

/-- **Reading to the end.** A client READs a file from an offset on, each time at the end of what it
has got and as much as it likes, while others append to the file. What it has got is in the file at
the end; when it is told that this is the end of the file, it has got all that was there when it
began, which is the file if nobody has appended to it; and each READ of something but the last has
got a byte, so that it does not go on for ever.

**Proof sketch.** A READ cuts its count off at a size that the file had before it reads
(`got_of_read`), so that it is told of the end only when it has reached that size, and gets a byte
otherwise. Since the files only grow, what it reads stays there (`Reading.prefix_content`), and what
was there is read (`Reading.content_prefix`), by induction on the READs. -/
theorem read_to_end (h : Reading offset m got eof m') :
    gotBytes got <+: (m'.content file).drop offset.toNat ∧
      (eof = true → (m.content file).drop offset.toNat <+: gotBytes got) ∧
      (eof = true → m'.content file = m.content file →
        gotBytes got = (m.content file).drop offset.toNat) ∧
      got.countP (fun reply => reply.1.count ≠ 0) ≤ (gotBytes got).length + eof.toNat := by
  refine ⟨h.prefix_content, h.content_prefix, fun heof hsame => ?_, h.progress⟩
  have hprefix := h.prefix_content
  rw [hsame] at hprefix
  exact hprefix.eq_of_length_le (h.content_prefix heof).length_le

end Beside

/-! #### Samples -/

/-- A READ of the file. -/
def sampleRead (count : UInt32) : ReadCall (fun _ _ => ()) () where
  req := sampleRequest
  stateid := ⟨0, List.Vector.replicate 12 0⟩
  count := count
  onFile := ⟨fileHandle 1, rfl, rfl⟩

/-- A READ of a file to which nobody appends meanwhile. -/
lemma sampleRead_answers {content data : Bytes} {count : UInt32} {offset size : UInt64}
    (m : Machine Unit) (hm : m.content () = content) (hsize : size.toNat = content.length)
    (hdata : data <+: content.drop offset.toNat)
    (hlength : data.length = min count.toNat (saturatingSub size offset).toNat) (hne : data ≠ []) :
    ∃ m', m'.content () = content ∧ (sampleRead count).Answers offset
      (.some sampleRequest (.opread (.resok4 ⟨decide (offset.toNat + data.length ≥ size.toNat),
        data⟩)) .nfs4Ok) m m' := by
  subst hm
  let p : VfsPath := (fileHandle 1).file
  let opened : Machine Unit := { m with position := 0, appending := false }
  have htake : data.take (min count.toNat (saturatingSub size offset).toNat) = data :=
    List.take_of_length_le hlength.le
  have hstep {m₁ m₂ : Machine Unit} {q : Question} {a : q.Answer}
      (h : step (fun _ _ => ()) m₁ q a m₂) (hcontent : m₂.content = m₁.content) :
      stepBeside (fun _ _ => ()) m₁ q a m₂ := ⟨m₁, .refl m₁, rfl, rfl, h, hcontent⟩
  refine ⟨{ (opened.seek size.toNat).seek offset.toNat with
    position := offset.toNat + data.length }, rfl, [⟨.on (some 1) (.openFile p), some ()⟩,
    ⟨.on (some 1) (.seekEnd p), some size⟩, ⟨.on (some 1) (.seekStart p offset), some ()⟩,
    ⟨.on (some 1) (.read p (min count.toNat (saturatingSub size offset).toNat)), some data⟩],
    ?_, ?_⟩
  · refine .ask (.ask (.ask (.ask ?_)))
    simp only [Option.getD_some, sampleRead, Prog.pure_bind, htake]
    exact .pure _
  · refine .cons (hstep rfl rfl) (.cons (hstep ⟨size, rfl, hsize, rfl⟩ rfl)
      (.cons (hstep rfl rfl) (.cons (hstep ⟨hdata, hlength.le, fun h => absurd h hne, rfl⟩ rfl)
        (.nil _))))

/-- **Reading to the end** of a file of three bytes, to which a fourth one is appended after the
first two were read. -/
theorem read_to_end_four :
    ∃ (m m' : Machine Unit) (got : List (ReadCall (fun _ _ => ()) () × Bytes)),
      Reading 0 m got true m' ∧ m.content () = [97, 98, 99] ∧ m'.content () = [97, 98, 99, 100] ∧
      gotBytes got <+: [97, 98, 99, 100] ∧ [97, 98, 99] <+: gotBytes got := by
  obtain ⟨m₁, hm₁, hfirst⟩ := @sampleRead_answers _ [97, 98] 2 0 3 (sampleMachine [97, 98, 99]) rfl
    rfl (by decide) (by decide) (by decide)
  obtain ⟨m₂, hm₂, hsecond⟩ := @sampleRead_answers _ [99, 100] 9 2 4
    (sampleMachine [97, 98, 99, 100]) rfl rfl (by decide) (by decide) (by decide)
  have hgrows : Grows m₁ (sampleMachine [97, 98, 99, 100]) := by
    rintro ⟨⟩
    rw [hm₁]
    exact ⟨[100], rfl⟩
  have hreading := Reading.more (.refl _) hfirst rfl rfl (.last hgrows hsecond rfl rfl)
  obtain ⟨hcontent, hall, -, -⟩ := read_to_end hreading
  refine ⟨_, _, _, hreading, rfl, hm₂, ?_, hall rfl⟩
  rw [hm₂] at hcontent
  exact hcontent

end NextNfs.FileContents
