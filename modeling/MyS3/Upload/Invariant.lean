import MyS3.Upload.Calls
import MyS3.Upload.Evolution
import MyS3.Upload.System

/-!
# The invariant of an upload

What holds in every state of every interleaving, preserved by each step of each party.
A suspended call is described by its weakest precondition, a writer between calls by
the custody of what it acknowledged.
-/

namespace MyS3.Upload

open Interleaving

/-- The task has not started its request. -/
def UploadTask.unstarted : UploadTask → Bool
  | .waiting | .released | .bodyHadEnded => true
  | _ => false

/-- The task still waits in `body_started`. -/
def UploadTask.isWaiting : UploadTask → Bool
  | .waiting => true
  | _ => false

/-- The upload's side of the invariant. -/
structure UploadInv (w : World) : Prop where
  unstarted : w.task.unstarted = true → w.channel.receiver = .listening
  concluded : w.task.isFinished = true → w.channel.receiver = .dropped
  hadEnded : w.task = .bodyHadEnded → w.state.bodyEnded = true
  refused : w.sawClosed = true → w.channel.receiver ≠ .listening
  permit : w.state.bodyStarted = true → w.notified = true
  announced : w.notified = true → w.state.bodyStarted = true ∨ w.task.isWaiting = false

/-- The writer keeps the upload's side. -/
theorem UploadInv.of_writer {limit : Nat} {log : Bytes} {s t : World} (h : UploadInv s)
    (hg : WriterGuar limit log s t) : UploadInv t where
  unstarted := by
    intro ht
    rw [hg.untouched.receiver]
    exact h.unstarted (hg.untouched.task ▸ ht)
  concluded := by
    intro ht
    rw [hg.untouched.receiver]
    exact h.concluded (hg.untouched.task ▸ ht)
  hadEnded := fun ht => hg.ledger.bodyEnded (h.hadEnded (hg.untouched.task ▸ ht))
  refused := by
    intro ht
    rw [hg.untouched.receiver]
    exact (hg.untouched.refused ht).elim h.refused id
  permit := fun ht => (hg.untouched.permit ht).elim
    (fun hs => hg.untouched.notified (h.permit hs)) id
  announced := by
    intro ht
    rcases hg.untouched.notify ht with hs | hb
    · rcases h.announced hs with hb | htask
      · exact .inl (hg.untouched.bodyStarted hb)
      · exact .inr (hg.untouched.task ▸ htask)
    · exact .inl hb

/-- A task that left `body_started` and did not end in between keeps the invariant. -/
private theorem UploadInv.of_task {s t : World} (h : UploadInv s) (hledger : t.ledger = s.ledger)
    (hunstarted : t.task.unstarted = true → t.channel.receiver = .listening)
    (hconcluded : t.task.isFinished = true → t.channel.receiver = .dropped)
    (hhadEnded : t.task = .bodyHadEnded → t.state.bodyEnded = true)
    (hreceiver : s.channel.receiver ≠ .listening → t.channel.receiver ≠ .listening)
    (hpermit : t.state.bodyStarted = true → s.state.bodyStarted = true)
    (hwaiting : t.task.isWaiting = false) : UploadInv t where
  unstarted := hunstarted
  concluded := hconcluded
  hadEnded := hhadEnded
  refused := fun ht => hreceiver
    (h.refused ((congrArg Ledger.sawClosed hledger).symm.trans ht))
  permit := fun ht => (congrArg Ledger.notified hledger).trans (h.permit (hpermit ht))
  announced := fun _ => .inr hwaiting

/-- A task inside its request keeps the invariant, whatever becomes of its receiver. -/
private theorem UploadInv.of_requesting {s t : World} (h : UploadInv s)
    (hledger : t.ledger = s.ledger) (htask : t.task = .requesting)
    (hreceiver : s.channel.receiver ≠ .listening → t.channel.receiver ≠ .listening)
    (hpermit : t.state.bodyStarted = s.state.bodyStarted) : UploadInv t := by
  refine h.of_task hledger (fun ht => ?_) (fun ht => ?_) (fun ht => ?_) hreceiver
    (fun ht => hpermit ▸ ht) ?_
  · rw [htask] at ht
    cases ht
  · rw [htask] at ht
    cases ht
  · cases htask.symm.trans ht
  · rw [htask]
    rfl

theorem UploadTask.of_isFinished {task : UploadTask} (h : task.isFinished = true) :
    task.unstarted = false ∧ task.isWaiting = false := by
  cases task with
  | finished result => exact ⟨rfl, rfl⟩
  | failed err => exact ⟨rfl, rfl⟩
  | waiting | released | bodyHadEnded | requesting => cases h

/-- The end of a task takes its receiver along. -/
private theorem UploadInv.of_endTask {s : World} (h : UploadInv s) {task : UploadTask}
    (hconcluded : task.isFinished = true) : UploadInv (s.endTask task) := by
  obtain ⟨hstarted, hwaiting⟩ := UploadTask.of_isFinished hconcluded
  refine h.of_task rfl (fun ht => ?_) (fun _ => rfl) (fun ht => ?_)
    (fun _ => by simp [World.endTask]) id hwaiting
  · exact absurd (hstarted.symm.trans ht) (by decide)
  · rw [show task = .bodyHadEnded from ht] at hconcluded
    cases hconcluded

/-- The upload keeps its side. -/
theorem UploadInv.of_upload {s t : World} {l : UploadLabel} (h : UploadInv s)
    (hup : s.upload l = some t) : UploadInv t := by
  have hledger := (World.upload_guar hup).ledger
  have hreceiver := (World.upload_guar hup).receiver
  cases World.transition_of_upload hup with
  | bodyStarted htask _ =>
    exact h.of_task hledger (fun _ => h.unstarted (by rw [htask]; rfl)) (fun ht => by cases ht)
      (fun ht => by cases ht) hreceiver (fun ht => by cases ht) rfl
  | bodyHadEnded htask hended =>
    exact h.of_task hledger (fun _ => h.unstarted (by rw [htask]; rfl)) (fun ht => by cases ht)
      (fun _ => hended) hreceiver id rfl
  | bodyOpen _ _ | bodyWhole _ _ => exact h.of_requesting hledger rfl hreceiver rfl
  | receive htask _ _ | closeReceiver htask _ | dropReceiver htask =>
    exact h.of_requesting hledger htask hreceiver rfl
  | bodyShort _ _ | answer _ | fail _ => exact h.of_endTask rfl

/-- The handle's `Drop` keeps the upload's side. -/
theorem UploadInv.of_cancels {s t : World} (h : UploadInv s) (hc : Cancels s t) :
    UploadInv t where
  unstarted := by
    intro ht
    rw [hc.receiver]
    exact h.unstarted (hc.task ▸ ht)
  concluded := by
    intro ht
    rw [hc.receiver]
    exact h.concluded (hc.task ▸ ht)
  hadEnded := fun ht =>
    (congrArg Ledger.bodyEnded hc.ledger).trans (h.hadEnded (hc.task ▸ ht))
  refused := by
    intro ht
    rw [hc.receiver]
    exact h.refused ((congrArg Ledger.sawClosed hc.ledger).symm.trans ht)
  permit := fun ht => (congrArg Ledger.notified hc.ledger).trans (h.permit (hc.bodyStarted ▸ ht))
  announced := by
    intro ht
    rw [hc.bodyStarted, hc.task]
    exact h.announced ((congrArg Ledger.notified hc.ledger).symm.trans ht)

/-- The postcondition of a call that started with `log` acknowledged. -/
def Returns (limit : Nat) (c : Call) (log : Bytes) (r : S3UploadWriter × Answer) (u : World) :
    Prop :=
  ∃ w L e L' e', Custody limit w L e log ∧ CallOutcome w L e c r.1 r.2 L' e' ∧
    (e = true → e' = true) ∧ Found L' e' u

/-- The writer's side of the invariant. -/
def WriterInv (limit : Nat) (w : World) (log : Bytes) : WriterThread → Prop
  | .idle writer => Custody limit writer w.ledger w.state.uploadEnded log
  | .calling c p => p.Safe World.exec (writerContract c.mode limit (log ++ c.offered))
      (Returns limit c log) w
  | .dropping p => w.channel.reserved = 0 ∧
      p.Safe World.exec (writerContract .dropping limit log) (fun _ u => Gone limit u.ledger log) w
  | .gone => Gone limit w.ledger log

/-- Other parties do not disturb the writer. -/
theorem WriterInv.interfere {limit : Nat} {s t : World} {log : Bytes} {thread : WriterThread}
    (h : WriterInv limit s log thread) (hst : WriterRely s t) : WriterInv limit t log thread := by
  cases thread with
  | idle writer =>
    simp only [WriterInv] at h ⊢
    rw [hst.ledger]
    exact h.raise hst.uploadEnded
  | calling c p => exact Program.Safe.interfere h hst
  | dropping p =>
    exact ⟨(congrArg Ledger.reserved hst.ledger).trans h.1, Program.Safe.interfere h.2 hst⟩
  | gone =>
    simp only [WriterInv] at h ⊢
    rw [hst.ledger]
    exact h

/-- The side of whoever waits for the result. -/
def ControlInv : Control → Prop
  | .settling p => p.Uses (Op.reads · = true)
  | .dropping p => p.Uses Op.cancels
  | _ => True

/-- The handle was dropped, or is being dropped. -/
def Control.isDropped : Control → Bool
  | .dropping _ | .dropped => true
  | _ => false

/-- The invariant of an upload of `contentLength` bytes in chunks of `limit`. -/
structure Sys.Inv (limit contentLength : Nat) (σ : Sys) : Prop where
  length : σ.world.state.contentLength = contentLength
  sound : Sound limit (σ.acked ++ σ.offered) σ.world.ledger
  logged : σ.acked.length ≤ σ.world.state.accepted
  upload : UploadInv σ.world
  writer : WriterInv limit σ.world σ.acked σ.writer
  control : ControlInv σ.control
  flagged : σ.world.state.uploadEnded = true →
    σ.world.sawClosed = true ∨ σ.control.isDropped = true

namespace Sys

variable {limit contentLength : Nat} {σ σ' : Sys} {l : Label}

/-- What the writer's thread does in one operation. -/
private theorem inv_of_writer {thread : WriterThread} {world : World}
    (h : σ.Inv limit contentLength)
    (hoffered : Sys.offered { σ with world := world, writer := thread } = σ.offered)
    (hg : WriterGuar limit (σ.acked ++ σ.offered) σ.world world)
    (hw : WriterInv limit world σ.acked thread) :
    Inv limit contentLength { σ with world := world, writer := thread } where
  length := hg.ledger.contentLength.trans h.length
  sound := by
    rw [hoffered]
    exact hg.ledger.sound
  logged := Nat.le_trans h.logged hg.ledger.accepted
  upload := h.upload.of_writer hg
  writer := hw
  control := h.control
  flagged := fun hu => (hg.flagged hu).elim
    (fun hs => (h.flagged hs).imp_left hg.ledger.sawClosed) .inl

/-- What another party does, as long as it leaves the writer alone. -/
private theorem inv_of_other {control : Control} {world : World} (h : σ.Inv limit contentLength)
    (hledger : world.ledger = σ.world.ledger)
    (hup : UploadInv world) (hcontrol : ControlInv control)
    (huploadEnded : σ.world.state.uploadEnded = true → world.state.uploadEnded = true)
    (hflagged : world.state.uploadEnded = true → σ.world.state.uploadEnded = true ∨
      control.isDropped = true)
    (hdropped : σ.control.isDropped = true → control.isDropped = true) :
    Inv limit contentLength { σ with world := world, control := control } where
  length := (congrArg Ledger.contentLength hledger).trans h.length
  sound := by
    have hs := h.sound
    rw [← hledger] at hs
    exact hs
  logged := Nat.le_trans h.logged (Nat.le_of_eq (congrArg Ledger.accepted hledger).symm)
  upload := hup
  writer := h.writer.interfere ⟨hledger, huploadEnded⟩
  control := hcontrol
  flagged := fun hu => (hflagged hu).elim
    (fun hs => (h.flagged hs).imp (congrArg Ledger.sawClosed hledger).trans hdropped) .inr

/-- Every step of every party keeps the invariant. -/
theorem Inv.step (h : σ.Inv limit contentLength) (hstep : σ.step l = some σ') :
    σ'.Inv limit contentLength := by
  cases transition_of_step hstep with
  | call hw =>
    rename_i c w
    have hc := h.writer
    rw [hw] at hc
    exact { h with
      sound := by
        have hs := h.sound
        simp only [offered, hw, List.append_nil] at hs
        exact hs.offer c.offered
      writer := by
        apply w.safe_call c hc
        intro w' a L' e' v hout hv hflag
        exact ⟨w, _, _, L', e', hc, hout, hflag, hv⟩ }
  | callOp hw hop =>
    rename_i c p q world
    have hsafe := h.writer
    rw [hw] at hsafe
    obtain ⟨⟨hg, -⟩, hsafe'⟩ := Program.Safe.advance hsafe hop
    refine inv_of_writer h ?_ ?_ hsafe'
    · simp only [offered, hw]
    · simpa only [offered, hw] using hg
  | dropOp hw hop =>
    rename_i p q world
    have hsafe := h.writer
    rw [hw] at hsafe
    obtain ⟨⟨hg, hallows⟩, hsafe'⟩ := Program.Safe.advance hsafe.2 hop
    refine inv_of_writer h ?_ ?_ ⟨hallows.2.2.2.trans hsafe.1, hsafe'⟩
    · simp only [offered, hw]
    · simpa only [offered, hw, List.append_nil] using hg
  | callReturn hw =>
    rename_i c w a
    have hsafe := h.writer
    rw [hw] at hsafe
    obtain ⟨w₀, L, e, L', e', hc, hout, hflag, hfound⟩ := Program.Safe.post hsafe
    have hc' : Custody limit w σ.world.ledger σ.world.state.uploadEnded
        (acknowledged (σ.answers ++ [(c, a)])) := by
      rw [acknowledged_concat, hfound.ledger]
      exact (hout.custody hc hflag).raise hfound.flag
    exact { h with
      sound := hc'.sound.offer []
      logged := hc'.logged
      writer := hc' }
  | dropReturn hw =>
    have hsafe := h.writer
    rw [hw] at hsafe
    have hs := h.sound
    simp only [offered, hw] at hs
    have hgone := Program.Safe.post hsafe.2
    exact { h with
      sound := hs
      writer := hgone }
  | dropWriter hw =>
    rename_i w
    have hc := h.writer
    rw [hw] at hc
    have hs := h.sound
    simp only [offered, hw] at hs
    exact { h with
      sound := hs
      writer := ⟨hc.released, fun u hu => by
        have hu' : Found σ.world.ledger σ.world.state.uploadEnded u := ⟨hu.ledger, hu.uploadEnded⟩
        refine Program.wp_mono (S3UploadWriter.holds_drop hu' hc) fun _ v hv => ?_
        rw [hv.ledger]
        exact hc.gone⟩ }
  | upload hup =>
    have hg := World.upload_guar hup
    exact inv_of_other h hg.ledger (h.upload.of_upload hup) h.control
      (fun hs => hg.uploadEnded.trans hs) (fun hu => .inl (hg.uploadEnded ▸ hu)) id
  | produce hp =>
    exact inv_of_other h rfl { h.upload with } h.control id .inl id
  | finish hc =>
    exact inv_of_other h rfl h.upload (finish_reads _ _) id .inl (by simp [hc, Control.isDropped])
  | dropHandle hc =>
    exact inv_of_other h rfl h.upload dropHandle_cancels id .inl (fun _ => rfl)
  | settleOp hc hop =>
    rename_i p q world
    have hreads : p.Uses (Op.reads · = true) := by
      have := h.control
      rwa [hc] at this
    obtain ⟨⟨op, r, hop', hexec⟩, hreads'⟩ := hreads.advance hop
    rw [World.exec_reads hop' hexec]
    exact inv_of_other h rfl h.upload hreads' id .inl (by simp [hc, Control.isDropped])
  | cancelOp hc hop =>
    rename_i p q world
    have hcancels : p.Uses Op.cancels := by
      have := h.control
      rwa [hc] at this
    obtain ⟨⟨op, r, hop', hexec⟩, hcancels'⟩ := hcancels.advance hop
    have hg := World.exec_cancels hop' hexec
    exact inv_of_other h hg.ledger (h.upload.of_cancels hg) hcancels' hg.uploadEnded
      (fun _ => .inr rfl) (fun _ => rfl)
  | settled hc =>
    exact inv_of_other h rfl h.upload trivial id .inl (by simp [hc, Control.isDropped])
  | dropped hc =>
    exact inv_of_other h rfl h.upload trivial id .inl (fun _ => rfl)

/-- What one step does to the world: an operation of the writer, a step of the upload, the
producer's return, the handle's `Drop`, or nothing. -/
inductive Change (limit : Nat) (σ : Sys) : Label → World → Prop
  | nothing {l : Label} : Change limit σ l σ.world
  | writer {now : Bool} {t : World}
      (hg : WriterGuar limit (σ.acked ++ σ.offered) σ.world t) : Change limit σ (.writerOp now) t
  | upload {ul : UploadLabel} {t : World} (hup : σ.world.upload ul = some t) :
      Change limit σ (.upload ul) t
  | produce {result : ProduceResult} (hp : σ.world.produced = none) :
      Change limit σ (.produce result) { σ.world with produced := some result }
  | cancel {now : Bool} {t : World} (hc : Cancels σ.world t) :
      Change limit σ (.controlOp now) t

theorem Inv.change (h : σ.Inv limit contentLength) (hstep : σ.step l = some σ') :
    Change limit σ l σ'.world := by
  cases transition_of_step hstep with
  | callOp hw hop =>
    have hsafe := h.writer
    rw [hw] at hsafe
    refine .writer ?_
    simpa only [offered, hw] using (Program.Safe.advance hsafe hop).1.1
  | dropOp hw hop =>
    have hsafe := h.writer
    rw [hw] at hsafe
    refine .writer ?_
    simpa only [offered, hw, List.append_nil] using (Program.Safe.advance hsafe.2 hop).1.1
  | upload hup => exact .upload hup
  | produce hp => exact .produce hp
  | settleOp hc hop =>
    have hreads := h.control
    rw [hc] at hreads
    obtain ⟨⟨op, r, hop', hexec⟩, -⟩ := Program.Uses.advance hreads hop
    rw [World.exec_reads hop' hexec]
    exact .nothing
  | cancelOp hc hop =>
    have hcancels := h.control
    rw [hc] at hcancels
    obtain ⟨⟨op, r, hop', hexec⟩, -⟩ := Program.Uses.advance hcancels hop
    exact .cancel (World.exec_cancels hop' hexec)
  | _ => exact .nothing

/-- A step of another party leaves the writer, its answers and its ledger alone. -/
theorem Inv.other (h : σ.Inv limit contentLength) (hstep : σ.step l = some σ')
    (hl : l.ofWriter = false) :
    σ'.writer = σ.writer ∧ σ'.answers = σ.answers ∧ WriterRely σ.world σ'.world := by
  have hthread : σ'.writer = σ.writer ∧ σ'.answers = σ.answers := by
    cases transition_of_step hstep with
    | call hw | callOp hw hop | dropOp hw hop | callReturn hw | dropReturn hw | dropWriter hw =>
      cases hl
    | _ => exact ⟨rfl, rfl⟩
  refine ⟨hthread.1, hthread.2, ?_⟩
  have hchange := h.change hstep
  generalize σ'.world = t at hchange ⊢
  cases hchange with
  | nothing => exact .refl _
  | writer hg => cases hl
  | upload hup => exact (World.upload_guar hup).writerRely
  | produce hp => exact ⟨rfl, id⟩
  | cancel hc => exact ⟨hc.ledger, hc.uploadEnded⟩

/-- One step of the system is one step of its world. -/
theorem Inv.worldStep (h : σ.Inv limit contentLength) (hstep : σ.step l = some σ') :
    WorldStep σ.world σ'.world := by
  have hchange := h.change hstep
  generalize σ'.world = t at hchange ⊢
  cases hchange with
  | nothing => exact .refl _
  | writer hg => exact hg.worldStep
  | upload hup => exact (World.upload_guar hup).worldStep
  | produce hp =>
    exact .of_ledger rfl id (fun _ => ⟨rfl, rfl⟩)
      (fun result hs => absurd (hp.symm.trans hs) (by simp)) id
  | cancel hc => exact hc.worldStep

/-- The task changes only by steps of the upload. -/
theorem Inv.task_or_upload (h : σ.Inv limit contentLength) (hstep : σ.step l = some σ') :
    σ'.world.task = σ.world.task ∨
      ∃ ul, l = .upload ul ∧ σ.world.upload ul = some σ'.world := by
  have hchange := h.change hstep
  generalize σ'.world = t at hchange ⊢
  cases hchange with
  | nothing => exact .inl rfl
  | writer hg => exact .inl hg.untouched.task
  | upload hup => exact .inr ⟨_, rfl, hup⟩
  | produce hp => exact .inl rfl
  | cancel hc => exact .inl hc.task

/-- A producer returns only by its own step. -/
theorem Inv.produced_or_produce (h : σ.Inv limit contentLength) (hstep : σ.step l = some σ') :
    σ'.world.produced = σ.world.produced ∨
      ∃ result, l = .produce result ∧ σ'.world.produced = some result := by
  have hchange := h.change hstep
  generalize σ'.world = t at hchange ⊢
  cases hchange with
  | nothing => exact .inl rfl
  | writer hg => exact .inl hg.untouched.produced
  | upload hup => exact .inl (World.upload_guar hup).produced
  | produce hp => exact .inr ⟨_, rfl, rfl⟩
  | cancel hc => exact .inl hc.produced

/-- A fresh writer has custody of nothing. -/
private theorem custody_new (bucketName key : String) (contentLength chunkSize : Nat)
    (task : UploadTask) :
    Custody (max chunkSize 1) (.new bucketName key chunkSize)
      (World.new bucketName key contentLength task).ledger false [] where
  sound := {
    delivered := Nat.le_refl _
    counted := Nat.le_refl _
    capped := Nat.zero_le _
    exact_of_unreserved := fun _ => rfl
    unreserved_of_ended := fun h => by cases h
    ended_of_no_sender := fun h => by cases h
    begun_of_notified := fun h => by cases h
    within := List.nil_prefix
    chunks := fun _ h => by cases h }
  chunkSize := rfl
  room := Nat.lt_of_lt_of_le Nat.zero_lt_one (Nat.le_max_right _ _)
  parked := fun _ h => by cases h
  ended := rfl
  flushed := fun h => by cases h
  released := rfl
  senders := rfl
  closed := fun h => by cases h
  conserved := fun _ => rfl
  accepted := fun _ => rfl
  logged := Nat.zero_le _
  begun := fun h => by rcases h with h | h <;> cases h

private theorem uploadInv_new (bucketName key : String) (contentLength : Nat)
    {task : UploadTask} (hrunning : task.isFinished = false) (hfresh : task ≠ .bodyHadEnded) :
    UploadInv (World.new bucketName key contentLength task) where
  unstarted := fun _ => rfl
  concluded := fun h => absurd (hrunning.symm.trans h) (by decide)
  hadEnded := fun h => absurd h hfresh
  refused := fun h => by cases h
  permit := fun h => by cases h
  announced := fun h => by cases h

/-- An upload begins in the invariant. -/
theorem inv_startUpload (bucketName key : String) (contentLength chunkSize : Nat) :
    (startUpload bucketName key contentLength chunkSize).Inv (max chunkSize 1) contentLength :=
  have hc := custody_new bucketName key contentLength chunkSize .waiting
  { length := rfl
    sound := hc.sound
    logged := Nat.zero_le _
    upload := uploadInv_new bucketName key contentLength rfl (by simp)
    writer := hc
    control := trivial
    flagged := fun h => by cases h }

theorem inv_uploadWithWriter (bucketName key : String) (contentLength chunkSize : Nat) :
    (uploadWithWriter bucketName key contentLength chunkSize).Inv (max chunkSize 1)
      contentLength :=
  have hc := custody_new bucketName key contentLength chunkSize .requesting
  { length := rfl
    sound := hc.sound
    logged := Nat.zero_le _
    upload := uploadInv_new bucketName key contentLength rfl (by simp)
    writer := hc
    control := uploadWithWriter_reads
    flagged := fun h => by cases h }

theorem Started.inv {bucketName key : String} {chunkSize : Nat}
    (h : Started bucketName key contentLength chunkSize σ) :
    σ.Inv (max chunkSize 1) contentLength := by
  rcases h with rfl | rfl
  · exact inv_startUpload bucketName key contentLength chunkSize
  · exact inv_uploadWithWriter bucketName key contentLength chunkSize

variable {policy : Sys → Label → Bool}

/-- The invariant holds in every state of every run. -/
theorem Inv.run (h : σ.Inv limit contentLength) (hrun : Reaches Sys.step policy σ σ') :
    σ'.Inv limit contentLength :=
  hrun.invariant h fun _ _ _ hinv _ hstep => hinv.step hstep

/-- Over a run the world evolves. -/
theorem Inv.evolves (h : σ.Inv limit contentLength) (hrun : Reaches Sys.step policy σ σ') :
    Evolves σ.world σ'.world := by
  induction hrun with
  | refl => exact .refl _
  | tail hrun hmove ih =>
    obtain ⟨l, -, hstep⟩ := hmove
    exact ih.trans ((h.run hrun).worldStep hstep).toEvolves

end Sys

end MyS3.Upload
