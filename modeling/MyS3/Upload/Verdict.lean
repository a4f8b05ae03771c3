import MyS3.Upload.Settlement

/-!
# What the verdict says about the body

Success is the success of the upload with every byte counted, and a body that was taken
whole is never reported short.
-/

namespace MyS3.Upload

open Interleaving

variable {bucketName key : String} {contentLength chunkSize : Nat} {σ₀ σ : Sys}

/-- The three counts never overtake one another. -/
private theorem counts_ordered {limit : Nat} (h : σ.Inv limit contentLength) :
    σ.world.receivedBytes ≤ σ.world.state.sent ∧
    σ.world.state.sent ≤ σ.world.state.accepted ∧ σ.world.state.accepted ≤ contentLength :=
  ⟨Nat.le_trans σ.world.receivedBytes_le h.sound.delivered, h.sound.counted,
    h.length ▸ h.sound.capped⟩

/-- Success is the success of the upload, with every declared byte counted as sent. -/
theorem stored_of_verdict {policy : Sys → Label → Bool}
    (h₀ : σ₀.Started bucketName key contentLength chunkSize)
    (hrun : Reaches Sys.step policy σ₀ σ) (hr : σ.verdict = some (.ok ())) :
    σ.world.task = .finished (.ok ()) ∧ σ.world.state.sent = contentLength ∧
    (σ₀ = .uploadWithWriter bucketName key contentLength chunkSize →
      σ.world.produced = some (.ok (.ok ()))) := by
  have hinv := h₀.inv.run hrun
  have hcounts := counts_ordered hinv
  have hlength := hinv.length
  rcases h₀ with rfl | rfl
  · have hout := finishOutcome_of_run (Sys.inv_startUpload _ _ _ _) hrun
      (K := fun _ => True) (fun _ _ _ => trivial) trivial hr
    cases hout with
    | stored htask hsent => exact ⟨htask, by omega, fun h => nomatch congrArg Sys.control h⟩
  · obtain ⟨result, htask, hout⟩ := uploadOutcome_of_run (Sys.inv_uploadWithWriter _ _ _ _) hrun
      (K := fun _ => True) (fun _ _ _ => trivial) (.inl rfl) hr
    cases hout with
    | stored hproduced hsent => exact ⟨htask, by omega, fun _ => hproduced⟩

/-- A stored upload has one verdict. -/
private theorem verdict_of_stored {r : Except S3Error Unit}
    (hrun : Reaches Sys.step anyLabel (.startUpload bucketName key contentLength chunkSize) σ)
    (htask : σ.world.task = .finished (.ok ())) (hall : σ.world.receivedBytes = contentLength)
    (hr : σ.verdict = some r) : r = .ok () := by
  have hinv := Sys.inv_startUpload bucketName key contentLength chunkSize
  have hout := finishOutcome_of_run hinv hrun
    (K := fun w => w.receivedBytes ≤ w.state.sent ∧ w.state.contentLength = contentLength)
    (fun τ hτ _ => ⟨(counts_ordered (hinv.run hτ)).1, (hinv.run hτ).length⟩) trivial hr
  cases hout with
  | notFinished hfailed => simp [htask] at hfailed
  | stored htask hsent => rfl
  | short hv htask' hshort =>
    have hconcluded := hv.evolves.receivedBytes (by rw [htask']; rfl)
    have hcounted := hv.known.1
    rw [hv.evolves.contentLength, hv.known.2] at hshort
    omega
  | uploadFailed hv htask' hreason => simp [hv.evolves.finished htask'] at htask
  | bodyFailed hv htask' hended hflag hshort => simp [hv.evolves.finished htask'] at htask

/-- In every state what was taken is counted as sent, what was sent was accepted, and no
more was accepted than declared; so an upload that took the whole body and was answered
`Ok` has `finish` return `Ok`, wherever the writer stands, and `finish` does return. -/
theorem stored_never_short (hrun : Reaches Sys.step anyLabel
    (.startUpload bucketName key contentLength chunkSize) σ) :
    (σ.world.receivedBytes ≤ σ.world.state.sent ∧
      σ.world.state.sent ≤ σ.world.state.accepted ∧ σ.world.state.accepted ≤ contentLength) ∧
    (σ.world.task = .finished (.ok ()) → σ.world.receivedBytes = contentLength →
      (∀ r, σ.verdict = some r → r = .ok ()) ∧
      (σ.control = .holding →
        Reaches Sys.step controlOnly σ { σ with control := .settled (.ok ()) })) := by
  have hinv := (Sys.inv_startUpload bucketName key contentLength chunkSize).run hrun
  refine ⟨counts_ordered hinv, fun htask hall => ⟨fun r hr => ?_, fun hc => ?_⟩⟩
  · exact verdict_of_stored hrun htask hall hr
  · obtain ⟨r, halone⟩ := finish_returns hc (by rw [htask]; rfl)
    have hr := verdict_of_stored (hrun.trans halone.unrestricted) htask hall rfl
    rwa [hr] at halone

/-- The writer has put its only chunk into the channel and is not run again; the upload
takes the chunk and is answered. -/
def takenFromSuspended : List Label :=
  [.call (.write [1, 2])] ++ List.replicate 9 (.writerOp true) ++
  [.upload .bodyStarted, .upload .checkBodyEnded, .upload .receive, .upload (.answer (.ok ()))]

theorem stored_never_short_suspended :
    let σ := runTo Sys.step anyLabel takenFromSuspended (.startUpload "b" "k" 2 2)
    Reaches Sys.step controlOnly σ { σ with control := .settled (.ok ()) } :=
  ((stored_never_short (reaches_runTo (by decide))).2 rfl (by decide)).2 rfl

end MyS3.Upload
