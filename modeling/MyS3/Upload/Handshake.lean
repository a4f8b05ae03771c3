import MyS3.Upload.ShortBody

/-!
# The hand-shake of `start_upload`

The request is held back until there is something to carry, the end of the body is known
before it is seen, and a request refused for a short body had no chance.
-/

namespace MyS3.Upload

open Interleaving

variable {bucketName key : String} {contentLength chunkSize limit : Nat} {σ σ' : Sys} {l : Label}

/-- The task got past `body_started`. -/
def UploadTask.isPastStart : UploadTask → Bool
  | .waiting | .failed _ => false
  | _ => true

/-- Only a stored permit lets the task past `body_started`. -/
private theorem World.upload_isPastStart {s t : World} {ul : UploadLabel}
    (h : s.upload ul = some t) (ht : t.task.isPastStart = true) :
    s.state.bodyStarted = true ∨ s.task.isPastStart = true := by
  cases World.transition_of_upload h with
  | bodyStarted _ hpermit => exact .inl hpermit
  | fail _ => cases ht
  | bodyHadEnded htask _ | bodyOpen htask _ | bodyWhole htask _ | bodyShort htask _ =>
    exact .inr (by rw [htask]; rfl)
  | receive htask _ _ | closeReceiver htask _ => exact .inr (by rw [htask]; rfl)
  | dropReceiver htask | answer htask => exact .inr (by rw [htask]; rfl)

/-- What holds in addition when the task starts out waiting: it passes `body_started` only
behind `notify_one`, and until it has ended nobody got further than waiting for it. -/
private structure Held (σ : Sys) : Prop where
  begun : σ.world.task.isPastStart = true → σ.world.notified = true
  awaits : σ.world.task.isFinished = false →
    σ.control.AwaitsUpload ∨ σ.control.isDropped = true

private theorem Held.step (h : Held σ) (hinv : σ.Inv limit contentLength)
    (hstep : σ.step l = some σ') : Held σ' where
  begun := by
    intro htask
    have hst := hinv.worldStep hstep
    apply hst.notified
    rcases hinv.task_or_upload hstep with hsame | ⟨ul, -, hup⟩
    · exact h.begun (hsame ▸ htask)
    · exact (World.upload_isPastStart hup htask).elim hinv.upload.permit h.begun
  awaits := by
    intro htask
    have hrunning : σ.world.task.isFinished = false := by
      cases hf : σ.world.task.isFinished with
      | false => rfl
      | true =>
        rw [((hinv.worldStep hstep).concluded hf).1, hf] at htask
        cases htask
    have hawaits := h.awaits hrunning
    cases Sys.transition_of_step hstep with
    | finish hc => exact .inl ⟨_, _, rfl⟩
    | dropHandle hc => exact .inr rfl
    | settleOp hc hop =>
      rcases hawaits with hawaits | hdropped
      · -- The join is not enabled while the task runs.
        rw [hc] at hawaits
        obtain ⟨bucketName, key, rfl⟩ := hawaits
        obtain ⟨op, next, r, hp, hexec, -⟩ := Program.advance_eq_some hop
        cases hp
        simp only [World.exec] at hexec
        split at hexec
        · rename_i ht
          rw [ht] at hrunning
          cases hrunning
        · rename_i ht
          rw [ht] at hrunning
          cases hrunning
        · cases hexec
      · simp [hc, Control.isDropped] at hdropped
    | cancelOp hc hop => exact .inr rfl
    | settled hc =>
      rcases hawaits with hawaits | hdropped
      · rw [hc] at hawaits
        obtain ⟨bucketName, key, hp⟩ := hawaits
        cases hp
      · simp [hc, Control.isDropped] at hdropped
    | dropped hc => exact .inr rfl
    | _ => exact hawaits

end MyS3.Upload
