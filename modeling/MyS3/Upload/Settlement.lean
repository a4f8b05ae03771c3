import MyS3.Upload.Invariant

/-!
# What the verdict is read from

`finish` and the end of `upload_with_writer` read the shared state at several moments
while the others go on. Their outcomes name the moments that decided: states in which
whatever holds of the whole run holds too, and from which the world only evolved.
-/

namespace MyS3.Upload

open Interleaving Program

/-- Whoever settles the upload only reads. `K` is what is known of every state. -/
def controlContract (K : World → Prop) : Contract World where
  rely s t := Evolves s t ∧ (K s → K t)
  guar s t := t = s
  rely_refl s := ⟨.refl s, id⟩
  rely_trans h h' := ⟨h.1.trans h'.1, fun hs => h'.2 (h.2 hs)⟩

/-- Weakest preconditions of the code that settles an upload. -/
abbrev Settles (K : World → Prop) {α : Type} (p : Prog α) (post : α → World → Prop)
    (s : World) : Prop :=
  p.wp World.exec (controlContract K) post s

/-- A state the run went through, from which the world evolved to `u`. -/
structure Passed (K : World → Prop) (v u : World) : Prop where
  known : K v
  evolves : Evolves v u

theorem Passed.later {K : World → Prop} {v u u' : World} (h : Passed K v u)
    (hu : Evolves u u') : Passed K v u' :=
  ⟨h.known, h.evolves.trans hu⟩

/-- What `finish` returns, and why. -/
inductive FinishOutcome (K : World → Prop) (u : World) : Except S3Error Unit → Prop
  | notFinished {bucketName key : String} {err : JoinError} (htask : u.task = .failed err) :
      FinishOutcome K u (.error (didNotFinish bucketName key err))
  | stored (htask : u.task = .finished (.ok ()))
      (hsent : u.state.contentLength ≤ u.state.sent) : FinishOutcome K u (.ok ())
  | short {v : World} (hv : Passed K v u) (htask : v.task = .finished (.ok ()))
      (hshort : v.state.sent < u.state.contentLength) :
      FinishOutcome K u
        (.error (.uploadProducerFailed (shortBody v.state.sent u.state.contentLength)))
  | uploadFailed {e : S3Error} {v : World} (hv : Passed K v u)
      (htask : v.task = .finished (.error e))
      (hreason : v.state.bodyEnded = false ∨ u.state.contentLength ≤ v.state.sent ∨
        v.state.uploadEnded = true) : FinishOutcome K u (.error e)
  | bodyFailed {e : S3Error} {v : World} (hv : Passed K v u)
      (htask : v.task = .finished (.error e)) (hended : v.state.bodyEnded = true)
      (hflag : v.state.uploadEnded = false)
      (hshort : v.state.sent < u.state.contentLength) :
      FinishOutcome K u
        (.error (.uploadProducerFailed (shortBody v.state.sent u.state.contentLength)))

/-- The failure that a producer's answer stands for. -/
def producerFailure : ProduceResult → Option IoError
  | .error joinError => some (producerDidNotFinish joinError)
  | .ok (.error err) => some err
  | .ok (.ok ()) => none

/-- What the end of `upload_with_writer` returns behind the answer of its request. -/
inductive ProducerOutcome (K : World → Prop) (u : World) :
    Except S3Error Unit → Except S3Error Unit → Prop
  | stored (hproduced : u.produced = some (.ok (.ok ())))
      (hsent : u.state.contentLength ≤ u.state.sent) : ProducerOutcome K u (.ok ()) (.ok ())
  | short {v : World} (hv : Passed K v u) (hproduced : v.produced = some (.ok (.ok ())))
      (hshort : v.state.sent < u.state.contentLength) :
      ProducerOutcome K u (.ok ())
        (.error (.uploadProducerFailed (shortBody v.state.sent u.state.contentLength)))
  | producerFailed {result : ProduceResult} {err : IoError}
      (hproduced : u.produced = some result) (hfailure : producerFailure result = some err) :
      ProducerOutcome K u (.ok ()) (.error (.uploadProducerFailed err))
  | uploadFailed {e : S3Error} {result : ProduceResult} {v : World} (hv : Passed K v u)
      (hproduced : v.produced = some result)
      (hreason : result = .ok (.ok ()) ∧ u.state.contentLength ≤ v.state.sent ∨
        v.state.uploadEnded = true) :
      ProducerOutcome K u (.error e) (.error e)
  | bodyFailed {e : S3Error} {v v' : World} (hv : Passed K v v') (hv' : Passed K v' u)
      (hproduced : v.produced = some (.ok (.ok ())))
      (hflag : v'.state.uploadEnded = false) (hshort : v.state.sent < u.state.contentLength) :
      ProducerOutcome K u (.error e)
        (.error (.uploadProducerFailed (shortBody v.state.sent u.state.contentLength)))
  | producerBlamed {e : S3Error} {result : ProduceResult} {err : IoError} {v : World}
      (hv : Passed K v u) (hproduced : v.produced = some result)
      (hfailure : producerFailure result = some err) (hflag : v.state.uploadEnded = false) :
      ProducerOutcome K u (.error e) (.error (.uploadProducerFailed err))

variable {K : World → Prop} {s u u' : World} {r : Except S3Error Unit}

/-- A verdict stays explained while the world goes on. -/
theorem FinishOutcome.later (h : FinishOutcome K u r) (hu : Evolves u u') :
    FinishOutcome K u' r := by
  have hlength := hu.contentLength
  cases h with
  | notFinished htask => exact .notFinished (hu.failed htask)
  | stored htask hsent =>
    exact .stored (hu.finished htask) (hlength ▸ Nat.le_trans hsent hu.sent)
  | short hv htask hshort =>
    rw [← hlength] at hshort ⊢
    exact .short (hv.later hu) htask hshort
  | uploadFailed hv htask hreason =>
    rw [← hlength] at hreason
    exact .uploadFailed (hv.later hu) htask hreason
  | bodyFailed hv htask hended hflag hshort =>
    rw [← hlength] at hshort ⊢
    exact .bodyFailed (hv.later hu) htask hended hflag hshort

theorem ProducerOutcome.later {result : Except S3Error Unit} (h : ProducerOutcome K u result r)
    (hu : Evolves u u') : ProducerOutcome K u' result r := by
  have hlength := hu.contentLength
  cases h with
  | stored hproduced hsent =>
    exact .stored (hu.produced _ hproduced) (hlength ▸ Nat.le_trans hsent hu.sent)
  | short hv hproduced hshort =>
    rw [← hlength] at hshort ⊢
    exact .short (hv.later hu) hproduced hshort
  | producerFailed hproduced hfailure =>
    exact .producerFailed (hu.produced _ hproduced) hfailure
  | uploadFailed hv hproduced hreason =>
    rw [← hlength] at hreason
    exact .uploadFailed (hv.later hu) hproduced hreason
  | bodyFailed hv hv' hproduced hflag hshort =>
    rw [← hlength] at hshort ⊢
    exact .bodyFailed hv (hv'.later hu) hproduced hflag hshort
  | producerBlamed hv hproduced hfailure hflag =>
    exact .producerBlamed (hv.later hu) hproduced hfailure hflag

/-- The rule for a read: its answer comes from this state, the rest from a later one. -/
theorem settles_read {op : Op} {post : op.Res → World → Prop} (hop : op.reads = true)
    (hK : K s) (hpost : ∀ now a, s.exec op now = some (a, s) →
      ∀ u, Evolves s u → K u → post a u) : Settles K (atomically op) post s := by
  intro now a t hexec
  cases World.exec_reads hop hexec
  exact ⟨rfl, fun u hu => hpost now a hexec u hu.1 (hu.2 hK)⟩

/-- The body is measured by what had been sent when `sent` was read. -/
theorem settles_shortBodyError {post : Option IoError → World → Prop} (hK : K s)
    (hfull : ∀ u, Evolves s u → K u → u.state.contentLength ≤ s.state.sent → post none u)
    (hshort : ∀ u, Evolves s u → K u → s.state.sent < u.state.contentLength →
      post (some (shortBody s.state.sent u.state.contentLength)) u) :
    Settles K shortBodyError post s := by
  refine wp_seq (settles_read rfl hK fun now a hexec u hu hKu => ?_)
  cases hexec
  refine wp_seq (settles_read rfl hKu fun now a hexec v hv hKv => ?_)
  cases hexec
  have hlength : u.state.contentLength = v.state.contentLength := hv.contentLength.symm
  split
  · rename_i hle
    exact hfull v (hu.trans hv) hKv (hlength ▸ hle)
  · rename_i hlt
    rw [hlength] at hlt ⊢
    exact hshort v (hu.trans hv) hKv (Nat.lt_of_not_le hlt)

/-- `settle` behind two failures asks once whether the upload had ended. -/
theorem settles_settle {e : S3Error} {err : IoError} {post : Except S3Error Unit → World → Prop}
    (hK : K s)
    (hended : ∀ u, Evolves s u → s.state.uploadEnded = true → post (.error e) u)
    (hrunning : ∀ u, Evolves s u → s.state.uploadEnded = false →
      post (.error (.uploadProducerFailed err)) u) :
    Settles K (settle (.error e) (some err)) post s := by
  refine wp_seq (settles_read rfl hK fun now a hexec u hu _ => ?_)
  cases hexec
  split
  · rename_i hflag
    exact hended u hu hflag
  · rename_i hflag
    exact hrunning u hu (by simpa using hflag)

/-- The part of `finish` behind the joined task. -/
theorem settles_settleUpload {result : Except S3Error Unit} (hK : K s)
    (htask : s.task = .finished result) :
    Settles K (settleUpload result) (fun r u => FinishOutcome K u r) s := by
  refine wp_seq (settles_read rfl hK fun now ended hexec v hv hKv => ?_)
  cases hexec
  rcases result with e | ⟨⟨⟩⟩
  · cases hended : s.state.bodyEnded with
    | false => exact .uploadFailed ⟨hK, hv⟩ htask (.inl hended)
    | true =>
      refine wp_seq (settles_shortBodyError hKv (fun u hu hKu hfull => ?_)
        (fun u hu hKu hshort => ?_))
      · exact .uploadFailed ⟨hKv, hu⟩ (hv.finished htask) (.inr (.inl hfull))
      · have hended' : v.state.bodyEnded = true := hv.bodyEnded hended
        refine settles_settle hKu (fun t ht hflag => ?_) (fun t ht hflag => ?_)
        · exact .uploadFailed ⟨hKu, ht⟩ ((hv.trans hu).finished htask) (.inr (.inr hflag))
        · -- The body had ended, so the count that was read is still the count.
          have hsent := (hu.frozen hended').1
          rw [← hsent, ← ht.contentLength] at hshort ⊢
          exact .bodyFailed ⟨hKu, ht⟩ ((hv.trans hu).finished htask) (hu.bodyEnded hended')
            hflag hshort
  · refine wp_seq (settles_shortBodyError hKv (fun u hu hKu hfull => ?_)
      (fun u hu hKu hshort => ?_))
    · exact .stored ((hv.trans hu).finished htask) (Nat.le_trans hfull hu.sent)
    · exact .short ⟨hKv, hu⟩ (hv.finished htask) hshort

/-- `finish` has the outcomes of `FinishOutcome`. -/
theorem settles_finish (bucketName key : String) (hK : K s) :
    Settles K (finish bucketName key) (fun r u => FinishOutcome K u r) s := by
  refine wp_seq (settles_read rfl hK fun now joined hexec u hu hKu => ?_)
  simp only [World.exec] at hexec
  split at hexec
  · rename_i htask
    cases hexec
    exact settles_settleUpload hKu (hu.finished htask)
  · rename_i htask
    cases hexec
    exact .notFinished (hu.failed htask)
  · cases hexec

/-- The end of `upload_with_writer` has the outcomes of `ProducerOutcome`. -/
theorem settles_awaitProducer (result : Except S3Error Unit) (hK : K s) :
    Settles K (awaitProducer result) (fun r u => ProducerOutcome K u result r) s := by
  refine wp_seq (settles_read rfl hK fun now produced hexec v hv hKv => ?_)
  obtain ⟨p, hp, hpair⟩ := Option.map_eq_some_iff.mp hexec
  cases hpair
  have hproduced : v.produced = some produced := hv.produced _ hp
  -- A producer that failed is blamed unless the upload is known to have ended.
  have hfailed : ∀ err, producerFailure produced = some err →
      Settles K (settle result (some err)) (fun r u => ProducerOutcome K u result r) v := by
    intro err hfailure
    rcases result with e | ⟨⟨⟩⟩
    · refine settles_settle hKv (fun u hu hflag => ?_) (fun u hu hflag => ?_)
      · exact .uploadFailed ⟨hKv, hu⟩ hproduced (.inr hflag)
      · exact .producerBlamed ⟨hKv, hu⟩ hproduced hfailure hflag
    · exact .producerFailed hproduced hfailure
  rcases produced with joinError | err | ⟨⟨⟩⟩
  · exact hfailed _ rfl
  · exact hfailed _ rfl
  refine wp_seq (settles_shortBodyError hKv (fun u hu hKu hfull => ?_)
    (fun u hu hKu hshort => ?_))
  · rcases result with e | ⟨⟨⟩⟩
    · exact .uploadFailed ⟨hKv, hu⟩ hproduced (.inl ⟨rfl, hfull⟩)
    · exact .stored (hu.produced _ hproduced) (Nat.le_trans hfull hu.sent)
  · rcases result with e | ⟨⟨⟩⟩
    · refine settles_settle hKu (fun t ht hflag => ?_) (fun t ht hflag => ?_)
      · exact .uploadFailed ⟨hKu, ht⟩ (hu.produced _ hproduced) (.inr hflag)
      · rw [← ht.contentLength] at hshort ⊢
        exact .bodyFailed ⟨hKv, hu⟩ ⟨hKu, ht⟩ hproduced hflag hshort
    · exact .short ⟨hKv, hu⟩ hproduced hshort

/-- What `upload_with_writer` returns, and why: a result of its request and the outcome
behind it. -/
def UploadOutcome (K : World → Prop) (u : World) (r : Except S3Error Unit) : Prop :=
  ∃ result, u.task = .finished result ∧ ProducerOutcome K u result r

theorem UploadOutcome.later (h : UploadOutcome K u r) (hu : Evolves u u') :
    UploadOutcome K u' r := by
  obtain ⟨result, htask, hout⟩ := h
  exact ⟨result, hu.finished htask, hout.later hu⟩

/-- The producer is awaited behind a request that has its answer. -/
theorem settles_awaitProducer_task {result : Except S3Error Unit} (hK : K s)
    (htask : s.task = .finished result) :
    Settles K (awaitProducer result) (fun r u => UploadOutcome K u r) s := by
  refine wp_mono_reach Evolves.refl Evolves.trans ?_ (fun _ _ h => h.1)
    (settles_awaitProducer result hK) fun r u hu hr => ⟨result, hu.finished htask, hr⟩
  rintro s t rfl
  exact .refl _

/-- `upload_with_writer` has the outcomes of `UploadOutcome`. -/
theorem settles_uploadWithWriter (hK : K s) :
    Settles K uploadWithWriter (fun r u => UploadOutcome K u r) s := by
  refine wp_seq (settles_read rfl hK fun now result hexec u hu hKu => ?_)
  simp only [World.exec] at hexec
  split at hexec
  · rename_i htask
    cases hexec
    exact settles_awaitProducer_task hKu (hu.finished htask)
  · cases hexec

/-- Whoever holds or awaits the result is going to return one that satisfies `post`. -/
def Settling (K : World → Prop) (post : World → Except S3Error Unit → Prop) (held : Prop)
    (σ : Sys) : Prop :=
  match σ.control with
  | .holding => held
  | .settling p => p.Safe World.exec (controlContract K) (fun r u => post u r) σ.world
  | .settled r => post σ.world r
  | .dropping _ | .dropped => True

section Run

variable {limit contentLength : Nat} {σ σ' : Sys} {l : Label} {policy : Sys → Label → Bool}
  {post : World → Except S3Error Unit → Prop} {held : Prop}

/-- A step of the run keeps this, as long as what is known of every state stays known. -/
private theorem Settling.step (h : Settling K post held σ) (hinv : σ.Inv limit contentLength)
    (hstep : σ.step l = some σ') (hK : K σ.world) (hK' : K σ'.world)
    (hlater : ∀ s t r, post s r → Evolves s t → post t r)
    (hfinish : held → ∀ bucketName key s, K s →
      Settles K (finish bucketName key) (fun r u => post u r) s) :
    Settling K post held σ' := by
  have hevolves := (hinv.worldStep hstep).toEvolves
  -- Steps of the other parties are interference.
  have hother : σ'.control = σ.control → Settling K post held σ' := by
    intro hcontrol
    simp only [Settling] at h ⊢
    rw [hcontrol]
    cases hc : σ.control with
    | holding => rwa [hc] at h
    | settling p =>
      rw [hc] at h
      exact Program.Safe.interfere h ⟨hevolves, fun _ => hK'⟩
    | settled r =>
      rw [hc] at h
      exact hlater _ _ _ h hevolves
    | dropping p => trivial
    | dropped => trivial
  cases Sys.transition_of_step hstep with
  | finish hc =>
    simp only [Settling, hc] at h
    exact fun t ht => hfinish h _ _ t (ht.2 hK)
  | dropHandle hc => trivial
  | settleOp hc hop =>
    simp only [Settling, hc] at h
    exact (Program.Safe.advance h hop).2
  | cancelOp hc hop => trivial
  | settled hc =>
    simp only [Settling, hc] at h
    have hr := Program.Safe.post h
    exact hr
  | dropped hc => trivial
  | _ => exact hother rfl

/-- Over a run in which `K` is known of every state that is passed. -/
theorem Settling.run (h : Settling K post held σ) (hinv : σ.Inv limit contentLength)
    (hrun : Reaches Sys.step policy σ σ')
    (hK : ∀ τ, Reaches Sys.step policy σ τ → Reaches Sys.step policy τ σ' → K τ.world)
    (hlater : ∀ s t r, post s r → Evolves s t → post t r)
    (hfinish : held → ∀ bucketName key s, K s →
      Settles K (finish bucketName key) (fun r u => post u r) s) :
    Settling K post held σ' := by
  induction hrun with
  | refl => exact h
  | tail hrun hmove ih =>
    obtain ⟨l, hl, hstep⟩ := hmove
    have hmove : Moves Sys.step policy _ _ := ⟨l, hl, hstep⟩
    refine (ih fun τ hτ hτ' => hK τ hτ (hτ'.tail hmove)).step (hinv.run hrun) hstep
      (hK _ hrun (.single hmove)) (hK _ (hrun.tail hmove) .refl) hlater hfinish

/-- The handle is held, or its `finish` still waits for the task. -/
def Control.AwaitsUpload : Control → Prop
  | .holding => True
  | .settling p => ∃ bucketName key, p = finish bucketName key
  | _ => False

/-- `upload_with_writer` waits for its request, or has its answer and waits for the
producer. -/
def Sys.AwaitsProducer (σ : Sys) : Prop :=
  σ.control = .settling Upload.uploadWithWriter ∨
    ∃ result, σ.control = .settling (awaitProducer result) ∧ σ.world.task = .finished result

/-- What `finish` returns at the end of a run on which `K` held throughout. -/
theorem finishOutcome_of_run (hinv : σ.Inv limit contentLength)
    (hrun : Reaches Sys.step policy σ σ')
    (hK : ∀ τ, Reaches Sys.step policy σ τ → Reaches Sys.step policy τ σ' → K τ.world)
    (hawaits : σ.control.AwaitsUpload) (hr : σ'.verdict = some r) :
    FinishOutcome K σ'.world r := by
  have hstart : Settling K (FinishOutcome K) True σ := by
    cases hc : σ.control with
    | holding => simp only [Settling, hc]
    | settling p =>
      rw [hc] at hawaits
      obtain ⟨bucketName, key, rfl⟩ := hawaits
      simp only [Settling, hc]
      exact fun t ht => settles_finish bucketName key (ht.2 (hK σ .refl hrun))
    | settled _ | dropping _ | dropped =>
      rw [hc] at hawaits
      exact hawaits.elim
  have hend := hstart.run hinv hrun hK (fun _ _ _ h hst => h.later hst)
    (fun _ bucketName key _ hs => settles_finish bucketName key hs)
  simpa only [Settling, Sys.control_of_verdict hr] using hend

/-- What `upload_with_writer` returns at the end of a run on which `K` held throughout. -/
theorem uploadOutcome_of_run (hinv : σ.Inv limit contentLength)
    (hrun : Reaches Sys.step policy σ σ')
    (hK : ∀ τ, Reaches Sys.step policy σ τ → Reaches Sys.step policy τ σ' → K τ.world)
    (hawaits : σ.AwaitsProducer) (hr : σ'.verdict = some r) : UploadOutcome K σ'.world r := by
  have hstart : Settling K (UploadOutcome K) False σ := by
    rcases hawaits with hc | ⟨result, hc, htask⟩
    · simp only [Settling, hc]
      exact fun t ht => settles_uploadWithWriter (ht.2 (hK σ .refl hrun))
    · simp only [Settling, hc]
      exact fun t ht => settles_awaitProducer_task (ht.2 (hK σ .refl hrun))
        (ht.1.finished htask)
  have hend := hstart.run hinv hrun hK (fun _ _ _ h hst => h.later hst) (fun h => h.elim)
  simpa only [Settling, Sys.control_of_verdict hr] using hend

/-- A dropped handle stays dropped. -/
private theorem isDropped_run (h : σ.control.isDropped = true)
    (hrun : Reaches Sys.step policy σ σ') : σ'.control.isDropped = true := by
  refine hrun.invariant (I := fun τ => τ.control.isDropped = true) h fun τ l τ' hτ _ hstep => ?_
  cases Sys.transition_of_step hstep with
  | finish hc | dropHandle hc | settleOp hc _ | settled hc => simp [hc, Control.isDropped] at hτ
  | cancelOp hc hop => rfl
  | dropped hc => rfl
  | _ => exact hτ

/-- A dropped handle returns nothing. -/
theorem verdict_ne_of_dropped (h : σ.control.isDropped = true)
    (hrun : Reaches Sys.step policy σ σ') : σ'.verdict ≠ some r := by
  intro hr
  have hend := isDropped_run h hrun
  simp [Sys.control_of_verdict hr, Control.isDropped] at hend

/-- In a run that returns a verdict the handle is never dropped, so `upload_ended` is up
only behind a refused send. -/
theorem sawClosed_of_uploadEnded (hinv : σ.Inv limit contentLength)
    (hrun : Reaches Sys.step policy σ σ') (hr : σ'.verdict = some r)
    (hended : σ.world.state.uploadEnded = true) : σ.world.sawClosed = true :=
  (hinv.flagged hended).resolve_right fun hdropped => verdict_ne_of_dropped hdropped hrun hr

/-- The steps of whoever waits for the result. -/
def Label.ofControl : Label → Bool
  | .finish | .dropHandle | .controlOp _ | .controlReturn => true
  | _ => false

/-- A run of the waiting party alone. -/
def controlOnly : Sys → Label → Bool := fun _ l => l.ofControl

/-- A verdict whose reads are all enabled is reached without any help. -/
theorem settles_alone {p : Prog (Except S3Error Unit)} {σ : Sys}
    (hp : p.Uses fun op => ∃ a, σ.world.exec op true = some (a, σ.world))
    (hc : σ.control = .settling p) :
    ∃ r, Reaches Sys.step controlOnly σ { σ with control := .settled r } := by
  induction p generalizing σ with
  | pure r =>
    refine ⟨r, .single ⟨.controlReturn, rfl, ?_⟩⟩
    simp only [Sys.step, hc]
  | step op next ih =>
    obtain ⟨a, hexec⟩ := hp.1
    obtain ⟨r, hrun⟩ := ih a (σ := { σ with control := .settling (next a) }) (hp.2 a) rfl
    refine ⟨r, .head ⟨.controlOp true, rfl, ?_⟩ hrun⟩
    simp only [Sys.step, hc, Program.advance, hexec, Option.map_some]

private theorem exec_loads {op : Op} (hop : op.loads = true) (w : World) :
    ∃ a, w.exec op true = some (a, w) :=
  ⟨w.load op hop, w.exec_load hop true⟩

/-- Once the task has ended, `finish` returns. -/
theorem finish_returns {σ : Sys} (hc : σ.control = .holding)
    (htask : σ.world.task.isFinished = true) :
    ∃ r, Reaches Sys.step controlOnly σ { σ with control := .settled r } := by
  have henabled : ∀ op : Op, op = .joinUpload ∨ op.loads = true →
      ∃ a, σ.world.exec op true = some (a, σ.world) := by
    intro op hop
    rcases hop with rfl | hop
    · cases ht : σ.world.task with
      | finished result => exact ⟨.ok result, by simp only [World.exec, ht]⟩
      | failed err => exact ⟨.error err, by simp only [World.exec, ht]⟩
      | waiting | released | bodyHadEnded | requesting =>
        rw [ht] at htask
        cases htask
    · exact exec_loads hop σ.world
  let p := Upload.finish σ.world.bucketName σ.world.key
  obtain ⟨r, hrun⟩ := settles_alone (σ := { σ with control := .settling p })
    ((finish_uses _ _).mono henabled) rfl
  refine ⟨r, .head ⟨.finish, rfl, ?_⟩ hrun⟩
  simp only [Sys.step, hc, p]

/-- Once the request has its answer and the producer has returned, so does
`upload_with_writer`. -/
theorem upload_returns {σ : Sys} {result : Except S3Error Unit} {produced : ProduceResult}
    (hawaits : σ.AwaitsProducer) (htask : σ.world.task = .finished result)
    (hproduced : σ.world.produced = some produced) :
    ∃ r, Reaches Sys.step controlOnly σ { σ with control := .settled r } := by
  have hjoin : ∀ op : Op, op = .joinProducer ∨ op.loads = true →
      ∃ a, σ.world.exec op true = some (a, σ.world) := by
    intro op hop
    rcases hop with rfl | hop
    · exact ⟨produced, by simp only [World.exec, hproduced, Option.map_some]⟩
    · exact exec_loads hop σ.world
  rcases hawaits with hc | ⟨answer, hc, -⟩
  · refine settles_alone (uploadWithWriter_uses.mono fun op hop => ?_) hc
    rcases hop with rfl | hop
    · exact ⟨result, by simp only [World.exec, htask]⟩
    · exact hjoin op hop
  · exact settles_alone ((awaitProducer_uses answer).mono hjoin) hc

end Run

end MyS3.Upload
