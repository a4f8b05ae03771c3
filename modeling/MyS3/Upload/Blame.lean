import MyS3.Upload.Settlement

/-!
# Who is blamed for a dead upload

A producer that writes exactly the declared bytes, ends with `shutdown` and stops at the
first error never has its error reported in place of the upload's own.
-/

namespace MyS3.Upload

open Interleaving

/-- An answer that ends the writing: an error of the writer, or the `Ok` of `shutdown`. -/
def Call.ending : Call → Answer → Option (Except IoError Unit)
  | _, .ready (.error err) => some (.error err)
  | .shutdown, .ready (.ok _) => some (.ok ())
  | _, _ => none

/-- How the writing ended, if its last answer ended it. -/
def ending (answers : List (Call × Answer)) : Option (Except IoError Unit) :=
  answers.getLast?.bind fun ca => ca.1.ending ca.2

theorem ending_concat (answers : List (Call × Answer)) (c : Call) (a : Answer) :
    ending (answers ++ [(c, a)]) = c.ending a := by
  simp [ending]

/-- A write fits into what is still owed; `shutdown` comes when nothing is owed. -/
def Call.fits (c : Call) (acked contentLength : Nat) : Bool :=
  match c with
  | .write buf => decide (acked + buf.length ≤ contentLength)
  | .flush => true
  | .shutdown => decide (acked = contentLength)

/-- The runs of a well-behaved producer: it writes what it owes in any split, flushes
anywhere, ends with `shutdown` or at the first error, and then drops the writer and
returns what it got. -/
def wellBehaved (σ : Sys) : Label → Bool
  | .call c => (ending σ.answers).isNone &&
      c.fits σ.acked.length σ.world.state.contentLength
  | .dropWriter => (ending σ.answers).isSome
  | .produce result =>
    match σ.writer with
    | .gone => (ending σ.answers).any fun outcome => decide (result = .ok outcome)
    | _ => false
  | _ => true

/-- The writing ended for a reason that clears the producer: an error behind a raised
`upload_ended`, or a complete body. -/
private def Cleared (w : World) : Except IoError Unit → Prop
  | .error _ => w.state.uploadEnded = true
  | .ok () => w.state.contentLength ≤ w.state.sent

private theorem Cleared.later {s t : World} {outcome : Except IoError Unit}
    (h : Cleared s outcome) (hst : Evolves s t) : Cleared t outcome := by
  rcases outcome with _ | ⟨⟨⟩⟩
  · exact hst.uploadEnded h
  · change t.state.contentLength ≤ t.state.sent
    rw [hst.contentLength]
    exact Nat.le_trans h hst.sent

private theorem Cleared.excuse {w : World} {outcome : Except IoError Unit}
    (h : Cleared w outcome) :
    w.state.contentLength ≤ w.state.sent ∨ w.state.uploadEnded = true := by
  rcases outcome with _ | ⟨⟨⟩⟩
  · exact .inr h
  · exact .inl h

/-- What every state shows: a body that ended is complete or its upload was known to be
dead, and so it is for a producer that returned. -/
private structure Faultless (w : World) : Prop where
  ended : w.state.bodyEnded = true →
    w.state.contentLength ≤ w.state.sent ∨ w.state.uploadEnded = true
  produced : ∀ result, w.produced = some result →
    ∃ outcome, result = .ok outcome ∧ Cleared w outcome

/-- The writing ended, and the producer is cleared. -/
private def EndedCleared (σ : Sys) : Prop :=
  ∃ outcome, ending σ.answers = some outcome ∧ Cleared σ.world outcome

/-- Where a well-behaved producer stands. -/
private def Standing (σ : Sys) : Prop :=
  match σ.writer with
  | .idle w => ending σ.answers = none ∧ w.sender = true ∨ EndedCleared σ
  | .calling c _ => ending σ.answers = none ∧
      (c ≠ .shutdown → σ.world.state.bodyEnded = false) ∧
      c.fits σ.acked.length σ.world.state.contentLength = true
  | .dropping _ | .gone => EndedCleared σ

variable {limit contentLength : Nat} {σ σ' : Sys} {l : Label} {w w' : S3UploadWriter}
  {L L' : Ledger} {e e' : Bool} {log : Bytes} {a : Answer}

/-- A write that fits is refused only by a writer that was shut down or behind a raised
`upload_ended`. -/
private theorem write_error {buf : Bytes} {err : IoError}
    (h : WriteOutcome w buf L e w' (.ready (.error err)) L' e')
    (hc : Custody limit w L e log) (hfits : log.length + buf.length ≤ L'.contentLength) :
    e' = true ∨ w'.sender = false := by
  cases h with
  | failed hparked =>
    cases hparked with
    | refused hsend => exact .inl rfl
  | shutDown hparked hsender => exact .inr hsender
  | gone hparked => exact .inl rfl
  | full hparked hbuf halive howed =>
    have hlength : 0 < buf.length := List.length_pos_iff.mpr hbuf
    have haccepted := hc.accepted (hc.unrefused halive)
    have hsame : L'.contentLength = L.contentLength ∧ L'.accepted = L.accepted := by
      cases hparked <;> exact ⟨rfl, rfl⟩
    omega
  | taken hparked hbuf hsender halive howed hfill =>
    generalize ha : (Poll.ready (Except.error err) : Poll (Except IoError Nat)) = a at hfill
    cases hfill with
    | buffered hroom => cases ha
    | sent hfull hstart =>
      cases hstart with
      | refused => exact .inl rfl
      | waiting | delivered => cases ha

/-- A flush is refused only behind a raised `upload_ended`. -/
private theorem flush_error {err : IoError}
    (h : FlushOutcome w L e w' (.ready (.error err)) L' e') : e' = true := by
  cases h with
  | failed hparked =>
    cases hparked with
    | refused hsend => rfl
  | gone hparked => rfl
  | started hparked halive hbuffer hsender hstart =>
    cases hstart with
    | refused => rfl

private theorem shutdown_error {err : IoError}
    (h : ShutdownOutcome w L e w' (.ready (.error err)) L' e') : e' = true := by
  cases h with
  | failed hsender hflush => exact flush_error hflush

/-- A shutdown that still waits keeps its `Sender`. -/
private theorem shutdown_waiting (h : ShutdownOutcome w L e w' .pending L' e') :
    w'.sender = true := by
  cases h with
  | waiting hsender hflush => exact hflush.sender.trans hsender

/-- A call that fitted goes on, or it ended the writing for a reason that clears the
producer. -/
private theorem cleared_of_outcome {c : Call} {u : World}
    (h : CallOutcome w L e c w' a L' e') (hc : Custody limit w L e log) (hu : Found L' e' u)
    (hw' : Custody limit w' L' e' (log ++ c.acknowledged a))
    (hrunning : c ≠ .shutdown → u.state.bodyEnded = false)
    (hfits : c.fits log.length u.state.contentLength = true) :
    c.ending a = none ∧ w'.sender = true ∨
      ∃ outcome, c.ending a = some outcome ∧ Cleared u outcome := by
  have hlength : L'.contentLength = u.state.contentLength := by
    rw [← hu.ledger]
    rfl
  have hopen : c ≠ .shutdown → w'.sender = true := by
    intro hcall
    have hended : L'.bodyEnded = false := by
      rw [← hu.ledger]
      exact hrunning hcall
    simpa [hw'.ended] using hended
  cases h with
  | write hwrite =>
    have hsender := hopen (by simp)
    rcases a with _ | err | n
    · exact .inl ⟨rfl, hsender⟩
    · rcases write_error hwrite hc (by simpa [Call.fits, hlength] using hfits) with he | hs
      · exact .inr ⟨_, rfl, hu.flag he⟩
      · simp [hsender] at hs
    · exact .inl ⟨rfl, hsender⟩
  | flush hflush =>
    rename_i b
    have hsender := hopen (by simp)
    rcases b with _ | err | ⟨⟨⟩⟩
    · exact .inl ⟨rfl, hsender⟩
    · exact .inr ⟨_, rfl, hu.flag (flush_error hflush)⟩
    · exact .inl ⟨rfl, hsender⟩
  | shutdown hshutdown =>
    rename_i b
    rcases b with _ | err | ⟨⟨⟩⟩
    · exact .inl ⟨rfl, shutdown_waiting hshutdown⟩
    · exact .inr ⟨_, rfl, hu.flag (shutdown_error hshutdown)⟩
    · refine .inr ⟨_, rfl, ?_⟩
      -- Everything acknowledged was handed over, and that is the whole body.
      obtain ⟨-, -, hhanded⟩ := hshutdown.handed_all hc
      have hdelivered := hw'.sound.delivered
      have hsent : L'.sent = u.state.sent := by
        rw [← hu.ledger]
        rfl
      simp only [Call.fits, decide_eq_true_eq] at hfits
      simp only [Ledger.handedBytes, hhanded, hfits, hsent] at hdelivered
      exact hdelivered

private theorem Faultless.step {s t : World} (h : Faultless s) (hst : Evolves s t)
    (hended : t.state.bodyEnded = true → s.state.bodyEnded = true ∨
      t.state.contentLength ≤ t.state.sent ∨ t.state.uploadEnded = true)
    (hproduced : ∀ result, t.produced = some result → s.produced = some result ∨
      ∃ outcome, result = .ok outcome ∧ Cleared t outcome) : Faultless t where
  ended := fun ht => (hended ht).elim
    (fun hs => (h.ended hs).imp
      (fun hfull => Cleared.later (show Cleared s (.ok ()) from hfull) hst) hst.uploadEnded) id
  produced := fun result ht => (hproduced result ht).elim
    (fun hs => by
      obtain ⟨outcome, hresult, hcleared⟩ := h.produced result hs
      exact ⟨outcome, hresult, hcleared.later hst⟩) id

/-- The three parts of the invariant of a well-behaved producer. -/
private structure Blameless (limit contentLength : Nat) (σ : Sys) : Prop where
  inv : σ.Inv limit contentLength
  faultless : Faultless σ.world
  standing : Standing σ

private theorem EndedCleared.later (h : EndedCleared σ) (hanswers : σ'.answers = σ.answers)
    (hst : Evolves σ.world σ'.world) : EndedCleared σ' := by
  obtain ⟨outcome, hending, hcleared⟩ := h
  exact ⟨outcome, hanswers ▸ hending, hcleared.later hst⟩

/-- Other parties leave a producer where it stands. -/
private theorem Standing.other (h : Standing σ) (hst : Evolves σ.world σ'.world)
    (hwriter : σ'.writer = σ.writer) (hanswers : σ'.answers = σ.answers)
    (hrely : WriterRely σ.world σ'.world) : Standing σ' := by
  simp only [Standing, hwriter] at h ⊢
  cases hw : σ.writer with
  | idle w =>
    simp only [hw] at h ⊢
    rw [hanswers]
    exact h.imp_right (·.later hanswers hst)
  | calling c p =>
    simp only [hw] at h ⊢
    rw [Sys.acked, hanswers, hst.contentLength]
    exact ⟨h.1, fun hc => (congrArg Ledger.bodyEnded hrely.ledger).trans (h.2.1 hc), h.2.2⟩
  | dropping p | gone =>
    simp only [hw] at h ⊢
    exact h.later hanswers hst

/-- A step of the upload or of whoever waits for it. -/
private theorem Blameless.step_other (h : Blameless limit contentLength σ)
    (hl : wellBehaved σ l = true) (hother : l.ofWriter = false) (hstep : σ.step l = some σ') :
    Blameless limit contentLength σ' := by
  have hst := (h.inv.worldStep hstep).toEvolves
  obtain ⟨hwriter, hanswers, hrely⟩ := h.inv.other hstep hother
  refine ⟨h.inv.step hstep, h.faultless.step hst (fun ht => .inl ?_) (fun result ht => ?_),
    h.standing.other hst hwriter hanswers hrely⟩
  · exact (congrArg Ledger.bodyEnded hrely.ledger).symm.trans ht
  · rcases h.inv.produced_or_produce hstep with hsame | ⟨result', rfl, hnew⟩
    · exact .inl (hsame ▸ ht)
    · -- It returns what its writer ended with.
      cases hnew.symm.trans ht
      have hstanding := h.standing
      simp only [wellBehaved] at hl
      split at hl
      · rename_i hw
        simp only [Standing, hw] at hstanding
        obtain ⟨outcome, hending, hcleared⟩ := hstanding
        simp only [hending, Option.any_some, decide_eq_true_eq] at hl
        exact .inr ⟨outcome, hl, hcleared.later hst⟩
      · cases hl

/-- An operation of a call ends the body only when it is complete. -/
private theorem Blameless.step_call {now : Bool} {c : Call} {p q : Prog (S3UploadWriter × Answer)}
    {world : World} (h : Blameless limit contentLength σ) (hw : σ.writer = .calling c p)
    (hop : p.advance World.exec now σ.world = some (q, world))
    (hstep : σ.step (.writerOp now) = some { σ with world := world, writer := .calling c q }) :
    Blameless limit contentLength { σ with world := world, writer := .calling c q } := by
  have hst : Evolves σ.world world := (h.inv.worldStep hstep).toEvolves
  have hsafe := h.inv.writer
  have hstanding := h.standing
  simp only [hw, WriterInv] at hsafe
  simp only [Standing, hw] at hstanding
  obtain ⟨hending, hrunning, hfits⟩ := hstanding
  obtain ⟨⟨hg, hallows⟩, -⟩ := Program.Safe.advance hsafe hop
  have hsame : c ≠ .shutdown → world.state.bodyEnded = σ.world.state.bodyEnded := by
    cases c with
    | write buf | flush => exact fun _ => hallows
    | shutdown => exact fun hc => absurd rfl hc
  refine ⟨h.inv.step hstep, h.faultless.step hst (fun ht => ?_)
    (fun result ht => .inl (hg.untouched.produced.symm.trans ht)), hending, fun hc => ?_, ?_⟩
  · cases hs : σ.world.state.bodyEnded with
    | true => exact .inl rfl
    | false =>
      by_cases hc : c = .shutdown
      · subst hc
        have hall : world.state.sent = world.state.accepted := hallows hs ht
        have hlogged := h.inv.logged
        have haccepted := hst.accepted
        simp only [Call.fits, decide_eq_true_eq] at hfits
        refine .inr (.inl ?_)
        change world.state.contentLength ≤ world.state.sent
        rw [hst.contentLength]
        omega
      · exact absurd ((hsame hc).symm.trans ht) (by simp [hs])
  · exact (hsame hc).trans (hrunning hc)
  · change c.fits σ.acked.length world.state.contentLength = true
    rw [hst.contentLength]
    exact hfits

/-- Every step keeps the producer blameless. -/
private theorem Blameless.step (h : Blameless limit contentLength σ)
    (hl : wellBehaved σ l = true) (hstep : σ.step l = some σ') :
    Blameless limit contentLength σ' := by
  have hstanding := h.standing
  have hinv' := h.inv.step hstep
  have hst := (h.inv.worldStep hstep).toEvolves
  cases Sys.transition_of_step hstep with
  | call hw =>
    rename_i c w
    simp only [wellBehaved, Bool.and_eq_true, Option.isNone_iff_eq_none] at hl
    simp only [Standing, hw] at hstanding
    rcases hstanding with ⟨hending, hsender⟩ | ⟨outcome, hending, -⟩
    · have hc := h.inv.writer
      simp only [hw, WriterInv] at hc
      have hended : σ.world.ledger.bodyEnded = false := by simpa [hsender] using hc.ended
      exact ⟨hinv', h.faultless, hending, fun _ => hended, hl.2⟩
    · simp [hending] at hl
  | callOp hw hop => exact h.step_call hw hop hstep
  | dropOp hw hop =>
    rename_i world
    have hsafe := h.inv.writer
    simp only [hw, WriterInv] at hsafe
    obtain ⟨⟨hg, -⟩, -⟩ := Program.Safe.advance hsafe.2 hop
    simp only [Standing, hw] at hstanding
    obtain ⟨outcome, hending, hcleared⟩ := hstanding
    exact ⟨hinv', h.faultless.step hst (fun _ => .inr (hcleared.later hst).excuse)
      (fun _ ht => .inl (hg.untouched.produced.symm.trans ht)),
      outcome, hending, hcleared.later hst⟩
  | callReturn hw =>
    rename_i c w a
    have hsafe := h.inv.writer
    have hc' := hinv'.writer
    simp only [hw, WriterInv] at hsafe hc'
    simp only [Standing, hw] at hstanding
    obtain ⟨w₀, L, e, L', e', hc, hout, hflag, hfound⟩ := Program.Safe.post hsafe
    have hreturn := cleared_of_outcome hout hc hfound (hout.custody hc hflag)
      hstanding.2.1 hstanding.2.2
    refine ⟨hinv', h.faultless, ?_⟩
    simpa only [Standing, EndedCleared, ending_concat] using hreturn
  | dropReturn hw =>
    simp only [Standing, hw] at hstanding
    exact ⟨hinv', h.faultless, hstanding⟩
  | dropWriter hw =>
    simp only [Standing, hw] at hstanding
    rcases hstanding with ⟨hending, -⟩ | hended
    · simp [wellBehaved, hending] at hl
    · exact ⟨hinv', h.faultless, hended⟩
  | upload hup | produce hp | finish hc | dropHandle hc | settleOp hc hop | cancelOp hc hop
  | settled hc | dropped hc => exact h.step_other hl rfl hstep

section Run

variable {bucketName key : String} {chunkSize : Nat} {σ₀ : Sys}

/-- In every run of a well-behaved producer. -/
private theorem Blameless.run (h₀ : σ₀.Started bucketName key contentLength chunkSize)
    (hrun : Reaches Sys.step wellBehaved σ₀ σ) :
    Blameless (max chunkSize 1) contentLength σ := by
  refine hrun.invariant ⟨h₀.inv, ?_, ?_⟩ fun _ _ _ h hl hstep => h.step hl hstep
  · refine ⟨fun h => ?_, fun result h => ?_⟩ <;> rcases h₀ with rfl | rfl <;> cases h
  · rcases h₀ with rfl | rfl <;> exact .inl ⟨rfl, rfl⟩

/-- `finish` names nobody but the upload. -/
private theorem FinishOutcome.eq_error {s : World} {e : S3Error} {r : Except S3Error Unit}
    (h : FinishOutcome Faultless s r) (htask : s.task = .finished (.error e)) : r = .error e := by
  cases h with
  | notFinished hfailed => simp [htask] at hfailed
  | stored hok hsent => simp [htask] at hok
  | short hv hok hshort => simp [hv.evolves.finished hok] at htask
  | uploadFailed hv herr hreason =>
    have hsame := (hv.evolves.finished herr).symm.trans htask
    cases hsame
    rfl
  | bodyFailed hv herr hended hflag hshort =>
    rw [hv.evolves.contentLength] at hshort
    rcases hv.known.ended hended with hfull | hraised
    · omega
    · simp [hflag] at hraised

/-- Nor does the end of `upload_with_writer`. -/
private theorem ProducerOutcome.eq_error {s : World} {e : S3Error} {r : Except S3Error Unit}
    (h : ProducerOutcome Faultless s (.error e) r) : r = .error e := by
  cases h with
  | uploadFailed hv hproduced hreason => rfl
  | bodyFailed hv hv' hproduced hflag hshort =>
    obtain ⟨outcome, hresult, hcleared⟩ := hv.known.produced _ hproduced
    cases hresult
    have hfull : _ ≤ _ := hcleared
    rw [hv'.evolves.contentLength, hv.evolves.contentLength] at hshort
    omega
  | producerBlamed hv hproduced hfailure hflag =>
    obtain ⟨outcome, rfl, hcleared⟩ := hv.known.produced _ hproduced
    rcases outcome with err | ⟨⟨⟩⟩
    · exact absurd (hcleared.symm.trans hflag) (by decide)
    · cases hfailure

/-- The upload of a well-behaved producer failed with `e`: that is what `finish` and
`upload_with_writer` return, whatever the producer saw of it, and they do return. -/
theorem upload_error_prevails {e : S3Error}
    (h₀ : σ₀.Started bucketName key contentLength chunkSize)
    (hrun : Reaches Sys.step wellBehaved σ₀ σ) (htask : σ.world.task = .finished (.error e)) :
    (∀ r, σ.verdict = some r → r = .error e) ∧
    (σ.control = .holding ∨ σ.AwaitsProducer ∧ σ.world.produced.isSome = true →
      Reaches Sys.step controlOnly σ { σ with control := .settled (.error e) }) := by
  have hverdict : ∀ τ r, Reaches Sys.step wellBehaved σ₀ τ →
      τ.world.task = .finished (.error e) → τ.verdict = some r → r = .error e := by
    intro τ r hτ htask hr
    have hK : ∀ u, Reaches Sys.step wellBehaved σ₀ u → Reaches Sys.step wellBehaved u τ →
        Faultless u.world := fun u hu _ => (Blameless.run h₀ hu).faultless
    rcases h₀ with rfl | rfl
    · exact (finishOutcome_of_run (Sys.inv_startUpload _ _ _ _) hτ hK trivial hr).eq_error htask
    · obtain ⟨result, hresult, hout⟩ :=
        uploadOutcome_of_run (Sys.inv_uploadWithWriter _ _ _ _) hτ hK (.inl rfl) hr
      cases hresult.symm.trans htask
      exact hout.eq_error
  refine ⟨fun r => hverdict σ r hrun htask, fun hwaits => ?_⟩
  have halone : ∃ r, Reaches Sys.step controlOnly σ { σ with control := .settled r } := by
    rcases hwaits with hc | ⟨hawaits, hproduced⟩
    · exact finish_returns hc (by rw [htask]; rfl)
    · obtain ⟨produced, hproduced⟩ := Option.isSome_iff_exists.mp hproduced
      exact upload_returns hawaits htask hproduced
  obtain ⟨r, halone⟩ := halone
  have hadmitted : ∀ τ l, controlOnly τ l = true → wellBehaved τ l = true := by
    intro τ l hl
    cases l <;> first | rfl | cases hl
  have hr := hverdict _ r (hrun.trans (halone.relax hadmitted)) htask rfl
  rwa [hr] at halone

/-- What the storage answers when it asks for a retry. -/
def slowDown : S3Error := .unexpectedStatusCode 503 (some "SlowDown") ""

/-- The request is answered with an error before the chunk was queued; the producer
finds the channel closed, drops its writer and returns what it got. -/
def refusedProducer : List Label :=
  [.call (.write [1, 2])] ++ List.replicate 6 (.writerOp true) ++
  [.upload (.answer (.error slowDown))] ++ List.replicate 3 (.writerOp true) ++
  [.writerReturn, .dropWriter] ++ List.replicate 3 (.writerOp true) ++
  [.writerReturn, .produce (.ok (.error (S3UploadWriter.new "b" "k" 2).uploadGone))]

theorem upload_error_prevails_refused :
    let σ := runTo Sys.step wellBehaved refusedProducer (.uploadWithWriter "b" "k" 2 2)
    Reaches Sys.step controlOnly σ { σ with control := .settled (.error slowDown) } :=
  (upload_error_prevails (.inr rfl) (reaches_runTo (by decide)) rfl).2
    (.inr ⟨.inl rfl, rfl⟩)

end Run

end MyS3.Upload
