import MyS3.Upload.Verdict

/-!
# A storage that answers early

`sent` counts a chunk when it enters the channel. A request that is answered `Ok` before
it took the queued chunks leaves them counted, and the verdict trusts the count. This
happens unless the channel is empty at the answer or the body can no longer count as
complete.
-/

namespace MyS3.Upload

open Interleaving

/-- What the count can still come to once the receiver is gone: a permit that is held may
still be used, and no other is granted. -/
def World.finalCount (w : World) : Nat :=
  if w.channel.reserved = 0 then w.state.sent else w.state.accepted

/-- An `Ok` at this moment is no premature one: nothing is left behind in the channel, or
the body will not count as complete. -/
def World.answerIsSafe (w : World) : Bool :=
  (w.channel.queue.isEmpty && w.channel.reserved == 0) ||
    decide (w.finalCount < w.state.contentLength)

/-- Runs in which the storage says `Ok` only when that is safe. -/
def safeAnswers (σ : Sys) : Label → Bool
  | .upload (.answer (.ok ())) => σ.world.answerIsSafe
  | _ => true

/-- The upload took everything that was and will be handed over. -/
private structure TookAll (w : World) : Prop where
  queue : w.channel.queue = []
  reserved : w.channel.reserved = 0

/-- Behind an `Ok` everything was taken, or the count stays short. -/
private def Answered (w : World) : Prop :=
  w.task = .finished (.ok ()) →
    w.channel.receiver ≠ .listening ∧ (TookAll w ∨ w.finalCount < w.state.contentLength)

private theorem TookAll.step {s t : World} (h : TookAll s) (hst : WorldStep s t)
    (hconcluded : s.task.isFinished = true) (hreceiver : s.channel.receiver ≠ .listening) :
    TookAll t := by
  have hhanded := (hst.permitted h.reserved).2
  have hreceived := (hst.concluded hconcluded).2
  refine ⟨?_, Nat.le_zero.mp (h.reserved ▸ hst.reserved hreceiver)⟩
  simpa [Channel.handed, hreceived, h.queue] using hhanded

/-- The bound on the count survives every step that grants no new permit. -/
private theorem finalCount_step {s t : World} (hst : WorldStep s t)
    (hcounted : t.state.sent ≤ t.state.accepted) (hreceiver : s.channel.receiver ≠ .listening)
    (h : s.finalCount < s.state.contentLength) : t.finalCount < t.state.contentLength := by
  have hreserved := hst.reserved hreceiver
  rw [hst.contentLength]
  unfold World.finalCount at h ⊢
  by_cases hs : s.channel.reserved = 0
  · have ht : t.channel.reserved = 0 := by omega
    rw [if_pos hs] at h
    rw [if_pos ht, (hst.permitted hs).1]
    exact h
  · rw [if_neg hs] at h
    rw [hst.held hs] at hcounted ⊢
    split <;> omega

private theorem Answered.step {limit contentLength : Nat} {σ σ' : Sys} {l : Label}
    (h : Answered σ.world) (hinv : σ.Inv limit contentLength) (hsafe : safeAnswers σ l = true)
    (hstep : σ.step l = some σ') : Answered σ'.world := by
  have hst := hinv.worldStep hstep
  have hinv' := hinv.step hstep
  intro htask
  refine ⟨by simp [hinv'.upload.concluded (by rw [htask]; rfl)], ?_⟩
  rcases hinv.task_or_upload hstep with hsame | ⟨ul, rfl, hup⟩
  · obtain ⟨hreceiver, hbefore⟩ := h (hsame ▸ htask)
    have hconcluded : σ.world.task.isFinished = true := by
      rw [← hsame, htask]
      rfl
    rcases hbefore with hall | hshort
    · exact .inl (hall.step hst hconcluded hreceiver)
    · exact .inr (finalCount_step hst hinv'.sound.counted hreceiver hshort)
  · obtain ⟨rfl, hworld⟩ := World.upload_ok hup htask
    have hsafe' : σ.world.answerIsSafe = true := hsafe
    rw [hworld]
    simp only [World.answerIsSafe, Bool.or_eq_true, Bool.and_eq_true, List.isEmpty_iff,
      beq_iff_eq, decide_eq_true_eq] at hsafe'
    rcases hsafe' with ⟨hqueue, hreserved⟩ | hshort
    · exact .inl ⟨hqueue, hreserved⟩
    · exact .inr hshort

/-- As long as no `Ok` comes too early, success means that the request took exactly the
declared bytes, and that they are the acknowledged ones. -/
theorem taken_of_success {bucketName key : String} {contentLength chunkSize : Nat} {σ₀ σ : Sys}
    (h₀ : σ₀.Started bucketName key contentLength chunkSize)
    (hrun : Reaches Sys.step safeAnswers σ₀ σ) (hr : σ.verdict = some (.ok ())) :
    σ.world.receivedBytes = contentLength ∧
    σ.world.channel.received.flatten <+: σ.acked ++ σ.offered ∧
    (σ.offered = [] → σ.world.channel.received.flatten = σ.acked) := by
  have hinv := h₀.inv.run hrun
  have hanswered : Answered σ₀.world := by
    intro htask
    rcases h₀ with rfl | rfl <;> cases htask
  have hboth := hrun.invariant
    (I := fun τ => τ.Inv (max chunkSize 1) contentLength ∧ Answered τ.world)
    ⟨h₀.inv, hanswered⟩ fun _ _ _ h hl hstep => ⟨h.1.step hstep, h.2.step h.1 hl hstep⟩
  obtain ⟨htask, hsent, -⟩ := stored_of_verdict h₀ hrun hr
  have hcounted : σ.world.state.sent ≤ σ.world.state.accepted := hinv.sound.counted
  have hlength := hinv.length
  obtain ⟨-, hall | hshort⟩ := hboth.2 htask
  · have hreceived : σ.world.channel.received = σ.world.channel.handed := by
      simp [Channel.handed, hall.queue]
    have hwithin : σ.world.channel.received.flatten <+: σ.acked ++ σ.offered := by
      rw [hreceived]
      exact hinv.sound.within
    have hbytes : σ.world.receivedBytes = contentLength := by
      rw [← hsent, World.receivedBytes, hreceived]
      exact (hinv.sound.exact_of_unreserved hall.reserved).symm
    refine ⟨hbytes, hwithin, fun hoffered => ?_⟩
    rw [hoffered, List.append_nil] at hwithin
    apply hwithin.eq_of_length_le
    have hlogged := hinv.logged
    have hcap : σ.world.state.accepted ≤ σ.world.state.contentLength := hinv.sound.capped
    change σ.acked.length ≤ σ.world.receivedBytes
    omega
  · unfold World.finalCount at hshort
    split at hshort <;> omega

/-- Two bytes are written and flushed and the request is started. -/
def writtenAndFlushed : List Label :=
  [.call (.write [1, 2])] ++ List.replicate 4 (.writerOp true) ++ [.writerReturn, .call .flush] ++
  List.replicate 7 (.writerOp true) ++
  [.writerReturn, .upload .bodyStarted, .upload .checkBodyEnded]

/-- `finish` is called and settles. -/
def finished : List Label := [.finish] ++ List.replicate 4 (.controlOp true) ++ [.controlReturn]

theorem taken_of_success_flushed :
    let σ := runTo Sys.step safeAnswers
      (writtenAndFlushed ++ [.upload .receive, .upload (.answer (.ok ()))] ++ finished)
      (.startUpload "b" "k" 2 defaultUploadChunkSize)
    σ.world.receivedBytes = 2 ∧ σ.world.channel.received.flatten = σ.acked :=
  have h := taken_of_success (.inl rfl) (reaches_runTo (by decide)) rfl
  ⟨h.1, h.2.2 rfl⟩

/-- An answer that comes before the queued chunk was taken is reported as success. -/
theorem success_without_body :
    ∃ σ, Reaches Sys.step anyLabel (.startUpload "b" "k" 2 defaultUploadChunkSize) σ ∧
      σ.verdict = some (.ok ()) ∧ σ.acked = [1, 2] ∧ σ.world.receivedBytes = 0 :=
  ⟨runTo Sys.step anyLabel (writtenAndFlushed ++ [.upload (.answer (.ok ()))] ++ finished) _,
    reaches_runTo (by decide), rfl, by decide, by decide⟩

end MyS3.Upload
