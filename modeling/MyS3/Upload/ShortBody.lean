import MyS3.Upload.Retry
import MyS3.Upload.Verdict

/-!
# A body that ended short

A body that was not delivered is never a success. Where no send was refused it is the
body that is blamed, with the producer's own failure if there is one, and such a verdict
is not retried.
-/

namespace MyS3.Upload

open Interleaving

variable {bucketName key : String} {contentLength chunkSize : Nat} {σ₀ σ : Sys}

/-- A body that ended short: its count is final, and only a refused send excuses it. -/
structure EndedShort (sent contentLength : Nat) (w : World) : Prop where
  ended : w.state.bodyEnded = true
  sent : w.state.sent = sent
  length : w.state.contentLength = contentLength
  excused : w.state.uploadEnded = true → w.sawClosed = true

section Short

variable {σ₁ σ₂ : Sys} {limit : Nat} {policy : Sys → Label → Bool} {r : Except S3Error Unit}

/-- From the end of a short body on, every state up to the verdict knows of it. -/
private theorem endedShort_of_run (policy : Sys → Label → Bool) (hinv : σ₁.Inv limit contentLength)
    (hended : σ₁.world.state.bodyEnded = true) (hr : σ₂.verdict = some r) (τ : Sys)
    (hτ : Reaches Sys.step policy σ₁ τ) (hτ₂ : Reaches Sys.step policy τ σ₂) :
    EndedShort σ₁.world.state.sent contentLength τ.world where
  ended := (hinv.evolves hτ).bodyEnded hended
  sent := ((hinv.evolves hτ).frozen hended).1
  length := (hinv.run hτ).length
  excused := sawClosed_of_uploadEnded (hinv.run hτ) hτ₂ hr

/-- `finish` blames a body that ended short while it was awaiting the upload. -/
theorem finish_blames_body (hinv : σ₁.Inv limit contentLength)
    (hrun : Reaches Sys.step policy σ₁ σ₂) (hawaits : σ₁.control.AwaitsUpload)
    (hended : σ₁.world.state.bodyEnded = true)
    (hshort : σ₁.world.state.sent < contentLength) (hopen : σ₂.world.sawClosed = false)
    (htask : ∀ err, σ₂.world.task ≠ .failed err) (hr : σ₂.verdict = some r) :
    r = .error (.uploadProducerFailed (shortBody σ₁.world.state.sent contentLength)) := by
  have hK := endedShort_of_run policy hinv hended hr
  have hout := finishOutcome_of_run hinv hrun hK hawaits hr
  have hlast := hK σ₂ hrun .refl
  cases hout with
  | notFinished hfailed => exact absurd hfailed (htask _)
  | stored htask hsent =>
    rw [hlast.sent, hlast.length] at hsent
    omega
  | short hv htask hshort => rw [hv.known.sent, hlast.length]
  | uploadFailed hv htask hreason =>
    rw [hv.known.sent, hlast.length] at hreason
    rcases hreason with hrunning | hfull | hflag
    · exact absurd (hv.known.ended.symm.trans hrunning) (by decide)
    · omega
    · have hclosed := hv.evolves.sawClosed (hv.known.excused hflag)
      exact absurd (hclosed.symm.trans hopen) (by decide)
  | bodyFailed hv htask hended hflag hshort => rw [hv.known.sent, hlast.length]

/-- `upload_with_writer` blames such a body, or the producer that says why. -/
private theorem upload_blames_body (hinv : σ₁.Inv limit contentLength)
    (hrun : Reaches Sys.step policy σ₁ σ₂) (hawaits : σ₁.AwaitsProducer)
    (hended : σ₁.world.state.bodyEnded = true)
    (hshort : σ₁.world.state.sent < contentLength) (hopen : σ₂.world.sawClosed = false)
    (hr : σ₂.verdict = some r) :
    ∃ p, σ₂.world.produced = some p ∧ r = .error (.uploadProducerFailed
      ((producerFailure p).getD (shortBody σ₁.world.state.sent contentLength))) := by
  have hK := endedShort_of_run policy hinv hended hr
  obtain ⟨result, htask, hout⟩ := uploadOutcome_of_run hinv hrun hK hawaits hr
  have hlast := hK σ₂ hrun .refl
  cases hout with
  | stored hproduced hsent =>
    rw [hlast.sent, hlast.length] at hsent
    omega
  | short hv hproduced hshort =>
    exact ⟨_, hv.evolves.produced _ hproduced, by rw [hv.known.sent, hlast.length]; rfl⟩
  | producerFailed hproduced hfailure => exact ⟨_, hproduced, by rw [hfailure]; rfl⟩
  | uploadFailed hv hproduced hreason =>
    rw [hv.known.sent, hlast.length] at hreason
    rcases hreason with ⟨-, hfull⟩ | hflag
    · omega
    · have hclosed := hv.evolves.sawClosed (hv.known.excused hflag)
      exact absurd (hclosed.symm.trans hopen) (by decide)
  | bodyFailed hv hv' hproduced hflag hshort =>
    exact ⟨_, (hv.evolves.trans hv'.evolves).produced _ hproduced,
      by rw [hv.known.sent, hlast.length]; rfl⟩
  | producerBlamed hv hproduced hfailure hflag =>
    exact ⟨_, hv.evolves.produced _ hproduced, by rw [hfailure]; rfl⟩

/-- `upload_with_writer` blames a producer that failed without a refused send. -/
private theorem upload_blames_producer (hinv : σ₁.Inv limit contentLength)
    (hrun : Reaches Sys.step policy σ₁ σ₂) (hawaits : σ₁.AwaitsProducer) {p : ProduceResult}
    {err : IoError} (hproduced : σ₂.world.produced = some p)
    (hfailure : producerFailure p = some err) (hopen : σ₂.world.sawClosed = false)
    (hr : σ₂.verdict = some r) : r = .error (.uploadProducerFailed err) := by
  have hK : ∀ τ, Reaches Sys.step policy σ₁ τ → Reaches Sys.step policy τ σ₂ →
      (τ.world.state.uploadEnded = true → τ.world.sawClosed = true) :=
    fun τ hτ hτ₂ => sawClosed_of_uploadEnded (hinv.run hτ) hτ₂ hr
  obtain ⟨result, htask, hout⟩ := uploadOutcome_of_run hinv hrun
    (K := fun w => w.state.uploadEnded = true → w.sawClosed = true) hK hawaits hr
  have hnot : ∀ {q : ProduceResult}, σ₂.world.produced = some q → q = p := by
    intro q hq
    rw [hproduced] at hq
    exact (Option.some.inj hq).symm
  cases hout with
  | stored hq hsent =>
    rw [← hnot hq] at hfailure
    cases hfailure
  | short hv hq hshort =>
    rw [← hnot (hv.evolves.produced _ hq)] at hfailure
    cases hfailure
  | producerFailed hq hfailure' =>
    rw [hnot hq, hfailure] at hfailure'
    cases hfailure'
    rfl
  | uploadFailed hv hq hreason =>
    rcases hreason with ⟨hok, -⟩ | hflag
    · rw [← hnot (hv.evolves.produced _ hq), hok] at hfailure
      cases hfailure
    · have hclosed := hv.evolves.sawClosed (hv.known hflag)
      exact absurd (hclosed.symm.trans hopen) (by decide)
  | bodyFailed hv hv' hq hflag hshort =>
    rw [← hnot ((hv.evolves.trans hv'.evolves).produced _ hq)] at hfailure
    cases hfailure
  | producerBlamed hv hq hfailure' hflag =>
    rw [hnot (hv.evolves.produced _ hq), hfailure] at hfailure'
    cases hfailure'
    rfl

end Short

/-- The repetitions of an upload end with the first body failure. -/
theorem retries_stop {err : IoError} {attempt : Nat → Except S3Error Unit} {maxRetries k : Nat}
    (hk : attempt k = .error (.uploadProducerFailed err))
    (hmade : k < (uploadWithWriterWithRetries attempt maxRetries).2) :
    uploadWithWriterWithRetries attempt maxRetries =
      (.error (.uploadProducerFailed err), k + 1) :=
  retryLoop_stops hk (S3Error.isRetryable_uploadProducerFailed err) (Nat.zero_le k) hmade

/-- An undelivered body is never a success and never retried. Success means that the
upload succeeded with every byte counted, that all of them are in the channel as soon as
no permit is held, and that a producer returned `Ok`. From a state in which the body has
ended short, or with a producer that failed, a verdict that was still awaited blames the
body, unless a send was refused; and the retry loop stops there. -/
theorem undelivered_body (h₀ : σ₀.Started bucketName key contentLength chunkSize) {σ₁ σ₂ : Sys}
    (hrun₁ : Reaches Sys.step anyLabel σ₀ σ₁) (hrun₂ : Reaches Sys.step anyLabel σ₁ σ₂)
    {r : Except S3Error Unit} (hr : σ₂.verdict = some r) :
    (r = .ok () → σ₂.world.task = .finished (.ok ()) ∧
      σ₂.world.state.sent = contentLength ∧
      (σ₂.world.channel.reserved = 0 →
        σ₂.world.channel.handed.flatten.length = contentLength) ∧
      (σ₀ = .uploadWithWriter bucketName key contentLength chunkSize →
        σ₂.world.produced = some (.ok (.ok ())))) ∧
    (σ₂.world.sawClosed = false → (∀ err, σ₂.world.task ≠ .failed err) →
      (σ₁.control.AwaitsUpload → σ₁.world.state.bodyEnded = true →
        σ₁.world.channel.handed.flatten.length < contentLength →
        r = .error (.uploadProducerFailed
          (shortBody σ₁.world.channel.handed.flatten.length contentLength))) ∧
      (σ₁.AwaitsProducer →
        (σ₁.world.state.bodyEnded = true ∧
          σ₁.world.channel.handed.flatten.length < contentLength) ∨
        (∃ p, σ₂.world.produced = some p ∧ producerFailure p ≠ none) →
        ∃ p, σ₂.world.produced = some p ∧ r = .error (.uploadProducerFailed
          ((producerFailure p).getD
            (shortBody σ₁.world.channel.handed.flatten.length contentLength))))) ∧
    (∀ err, r = .error (.uploadProducerFailed err) →
      ∀ attempt maxRetries k, attempt k = r →
        k < (uploadWithWriterWithRetries attempt maxRetries).2 →
        uploadWithWriterWithRetries attempt maxRetries = (r, k + 1)) := by
  have hinv₁ := h₀.inv.run hrun₁
  have hinv₂ := hinv₁.run hrun₂
  have hexact : σ₁.world.state.bodyEnded = true →
      σ₁.world.channel.handed.flatten.length = σ₁.world.state.sent :=
    fun hended => (hinv₁.sound.exact_of_ended hended).symm
  refine ⟨?_, fun hopen htask => ⟨fun hawaits hended hshort => ?_, fun hawaits hcause => ?_⟩, ?_⟩
  · rintro rfl
    obtain ⟨htask, hsent, hproduced⟩ := stored_of_verdict h₀ (hrun₁.trans hrun₂) hr
    refine ⟨htask, hsent, fun hreserved => ?_, hproduced⟩
    rw [← hsent]
    exact (hinv₂.sound.exact_of_unreserved hreserved).symm
  · rw [hexact hended] at hshort ⊢
    exact finish_blames_body hinv₁ hrun₂ hawaits hended hshort hopen htask hr
  · rcases hcause with ⟨hended, hshort⟩ | ⟨p, hproduced, hfailure⟩
    · rw [hexact hended] at hshort ⊢
      exact upload_blames_body hinv₁ hrun₂ hawaits hended hshort hopen hr
    · obtain ⟨err, herr⟩ := Option.ne_none_iff_exists'.mp hfailure
      refine ⟨p, hproduced, ?_⟩
      rw [herr]
      exact upload_blames_producer hinv₁ hrun₂ hawaits hproduced herr hopen hr
  · rintro err rfl attempt maxRetries k hk hmade
    exact retries_stop hk hmade

/-- The writer is dropped before it wrote anything. -/
def droppedUnwritten : List Label :=
  [.dropWriter] ++ List.replicate 3 (.writerOp true) ++ [.writerReturn]

/-- The task refuses to start its request and `finish` settles. -/
def refusedAndFinished : List Label :=
  [.upload .bodyStarted, .upload .checkBodyEnded, .upload .checkShortBody, .finish] ++
  List.replicate 5 (.controlOp true) ++ [.controlReturn]

theorem undelivered_body_dropped :
    let r := .error (.uploadProducerFailed (shortBody 0 2))
    uploadWithWriterWithRetries (fun _ => r) 5 = (r, 1) :=
  let σ₁ := runTo Sys.step anyLabel droppedUnwritten (.startUpload "b" "k" 2 2)
  let σ₂ := runTo Sys.step anyLabel refusedAndFinished σ₁
  have hrun₁ : Reaches Sys.step anyLabel (.startUpload "b" "k" 2 2) σ₁ :=
    reaches_runTo (by decide)
  have hrun₂ : Reaches Sys.step anyLabel σ₁ σ₂ := reaches_runTo (by decide)
  (undelivered_body (.inl rfl) hrun₁ hrun₂ rfl).2.2 _ rfl _ 5 0 rfl (lt_retryLoop _ 5 0)

/-- A producer that panics is reported as `Other`; and the count is complete one operation
before the chunk is in the channel, where an early `Ok` can be settled. -/
theorem panic_is_other_and_count_comes_first :
    (∃ σ err, Reaches Sys.step anyLabel (.uploadWithWriter "b" "k" 2 2) σ ∧
      σ.world.sawClosed = false ∧ σ.world.produced = some (.error ⟨"panicked"⟩) ∧
      σ.verdict = some (.error (.uploadProducerFailed err)) ∧ err.kind = .other) ∧
    (∃ σ, Reaches Sys.step anyLabel (.startUpload "b" "k" 2 2) σ ∧
      σ.verdict = some (.ok ()) ∧ σ.world.channel.handed = []) :=
  ⟨⟨runTo Sys.step anyLabel (droppedUnwritten ++ [.produce (.error ⟨"panicked"⟩),
      .upload (.answer (.ok ())), .controlOp true, .controlOp true, .controlReturn]) _,
    producerDidNotFinish ⟨"panicked"⟩, reaches_runTo (by decide), rfl, rfl, rfl, rfl⟩,
   ⟨runTo Sys.step anyLabel ([.call (.write [1, 2])] ++ List.replicate 8 (.writerOp true) ++
      [.upload .bodyStarted, .upload .checkBodyEnded, .upload (.answer (.ok ())), .finish] ++
      List.replicate 4 (.controlOp true) ++ [.controlReturn]) _,
    reaches_runTo (by decide), rfl, rfl⟩⟩

end MyS3.Upload
