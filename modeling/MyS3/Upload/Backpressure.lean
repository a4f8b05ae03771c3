import Mathlib.Algebra.Order.BigOperators.Group.List
import Mathlib.Algebra.Order.Group.Nat
import MyS3.Upload.Invariant

/-!
# Backpressure

The channel never holds more chunks and unused permits than its capacity, and the writer
holds at most one chunk more. So what was acknowledged and not yet taken by the upload is at
most five chunks, in every state of every run.
-/

namespace MyS3.Upload

open Interleaving

/-- Queued chunks and permits that were not used yet fit the channel. -/
def Channel.Within (c : Channel) : Prop := c.queue.length + c.reserved ≤ uploadChannelCapacity

variable {limit contentLength : Nat} {σ σ' : Sys} {w w' : S3UploadWriter} {L L' : Ledger}
  {e e' : Bool} {log buf : Bytes} {a : Answer} {s t : World}

/-- No operation overfills the channel, as long as chunks are put into it with a permit. -/
private theorem exec_within {op : Op} {now : Bool} {r : op.Res} (h : s.channel.Within)
    (hexec : s.exec op now = some (r, t))
    (hpermit : s.channel.reserved = 0 → t.channel.handed = s.channel.handed) :
    t.channel.Within := by
  by_cases hreads : op.reads = true
  · rw [World.exec_reads hreads hexec]
    exact h
  unfold Channel.Within at *
  cases op with
  | reserve =>
    simp only [World.exec, Option.some.injEq] at hexec
    rcases s.reserve_cases now with hwaits | ⟨-, hroom, hgranted⟩ | ⟨-, hfound⟩
    · cases hwaits.symm.trans hexec
      exact h
    · cases hgranted.symm.trans hexec
      simp only [Channel.hasRoom, decide_eq_true_eq] at hroom
      simp only
      omega
    · cases hfound.symm.trans hexec
      exact h
  | permitSend chunk =>
    cases hexec
    have hheld : s.channel.reserved ≠ 0 := by
      intro hnone
      have hsame := congrArg List.length (hpermit hnone)
      simp [Channel.handed] at hsame
    simp only [List.length_append, List.length_singleton]
    omega
  | uploadStreamed | joinUpload | joinProducer => exact absurd rfl hreads
  | _ =>
    cases hexec
    exact h

/-- Neither does the upload. -/
private theorem upload_within {l : UploadLabel} (h : s.channel.Within)
    (hup : s.upload l = some t) : t.channel.Within := by
  unfold Channel.Within at *
  cases World.transition_of_upload hup with
  | receive _ hqueue _ =>
    simp only [hqueue, List.length_cons] at h
    simp only
    omega
  | _ => exact h

/-- The channel stays within its capacity. -/
private theorem Channel.Within.step {l : Label} (h : σ.world.channel.Within)
    (hinv : σ.Inv limit contentLength) (hstep : σ.step l = some σ') :
    σ'.world.channel.Within := by
  have hpermit : σ.world.channel.reserved = 0 →
      σ'.world.channel.handed = σ.world.channel.handed :=
    fun hnone => ((hinv.worldStep hstep).permitted hnone).2
  cases Sys.transition_of_step hstep with
  | callOp _ hop | dropOp _ hop | settleOp _ hop | cancelOp _ hop =>
    obtain ⟨op, next, r, -, hexec, -⟩ := Program.advance_eq_some hop
    exact exec_within h hexec hpermit
  | upload hup => exact upload_within h hup
  | _ => exact h

/-- The parked send and the buffer hold one chunk between them. -/
private theorem Custody.held_le (h : Custody limit w L e log) :
    w.parkedBytes.length + w.buffer.length ≤ limit := by
  have hroom := h.room
  unfold S3UploadWriter.parkedBytes
  cases hp : w.pending with
  | none =>
    simp only [List.length_nil]
    omega
  | some send =>
    obtain ⟨-, hbuffer, -, hlength⟩ := h.parked send hp
    simpa [hbuffer] using hlength

/-- A call behind which a send was refused has acknowledged nothing. -/
private theorem CallOutcome.acknowledged_nil {c : Call} (h : CallOutcome w L e c w' a L' e')
    (hc : Custody limit w L e log) (hclosed : L'.sawClosed = true) : c.acknowledged a = [] := by
  cases h with
  | flush _ | shutdown _ => rfl
  | write hwrite =>
    cases hwrite with
    | waiting _ | failed _ | shutDown _ _ | gone _ | full _ _ _ _ => rfl
    | empty _ hbuf => simp [Call.acknowledged, hbuf]
    | taken hparked _ _ halive _ hfill =>
      have hopen := (hparked.custody_ok hc).1.unrefused halive
      cases hfill with
      | buffered _ => exact absurd (hopen.symm.trans hclosed) (by decide)
      | sent _ hstart =>
        cases hstart with
        | waiting | delivered => exact absurd (hopen.symm.trans hclosed) (by decide)
        | refused => rfl

/-- What was handed over stays so. -/
private theorem handedBytes_le {l : Label} (hinv : σ.Inv limit contentLength)
    (hstep : σ.step l = some σ') :
    σ.world.ledger.handedBytes ≤ σ'.world.ledger.handedBytes := by
  have hchange := hinv.change hstep
  generalize σ'.world = t at hchange ⊢
  have hsame : t.ledger = σ.world.ledger →
      σ.world.ledger.handedBytes ≤ t.ledger.handedBytes :=
    fun hledger => Nat.le_of_eq (congrArg Ledger.handedBytes hledger).symm
  cases hchange with
  | nothing | produce _ => exact hsame rfl
  | writer hg =>
    obtain ⟨rest, hrest⟩ := hg.ledger.handed
    simp only [Ledger.handedBytes, ← hrest, List.flatten_append, List.length_append]
    omega
  | upload hup => exact hsame (World.upload_guar hup).ledger
  | cancel hc => exact hsame hc.ledger

/-- At most one chunk that was acknowledged has not been handed over. -/
private def Covered (limit : Nat) (σ : Sys) : Prop :=
  σ.acked.length ≤ σ.world.ledger.handedBytes + limit

private theorem Covered.step {l : Label} (h : Covered limit σ)
    (hinv : σ.Inv limit contentLength) (hstep : σ.step l = some σ') : Covered limit σ' := by
  have hgrows := handedBytes_le hinv hstep
  unfold Covered at *
  have hsame : σ'.answers = σ.answers →
      σ'.acked.length ≤ σ'.world.ledger.handedBytes + limit := by
    intro hanswers
    rw [Sys.acked, hanswers]
    exact Nat.le_trans h (Nat.add_le_add_right hgrows limit)
  have hinv' := hinv.step hstep
  cases Sys.transition_of_step hstep with
  | callReturn hcalling =>
    rename_i c w a
    cases hclosed : σ.world.sawClosed with
    | false =>
      -- everything acknowledged is in the channel, the parked send or the buffer
      have hc := hinv'.writer
      have hwhole : σ.world.ledger.handed.flatten ++ w.parkedBytes ++ w.buffer =
          acknowledged (σ.answers ++ [(c, a)]) := hc.conserved hclosed
      have hheld := hc.held_le
      change (acknowledged (σ.answers ++ [(c, a)])).length ≤
        σ.world.ledger.handed.flatten.length + limit
      rw [← hwhole, List.length_append, List.length_append]
      omega
    | true =>
      have hsafe := hinv.writer
      rw [hcalling] at hsafe
      obtain ⟨w₀, L, e, L', e', hc, hout, -, hfound⟩ := Program.Safe.post hsafe
      have hnothing := hout.acknowledged_nil hc
        ((congrArg Ledger.sawClosed hfound.ledger).symm.trans hclosed)
      simp only [Sys.acked, acknowledged_concat, hnothing, List.append_nil]
      exact h
  | _ => exact hsame rfl

/-- The bytes of a queue of proper chunks. -/
private theorem flatten_length_le {queue : List Bytes} (h : ∀ chunk ∈ queue, chunk.length ≤ limit) :
    queue.flatten.length ≤ queue.length * limit := by
  have hsum := List.sum_le_card_nsmul (queue.map List.length) limit fun n hn => by
    obtain ⟨chunk, hchunk, rfl⟩ := List.mem_map.mp hn
    exact h chunk hchunk
  rw [List.length_flatten]
  simpa using hsum

/-- In every state of every run the channel is within its capacity, at most one send is
parked and then nothing is buffered, and what was acknowledged and not yet taken by the
upload is at most five chunks. -/
theorem backpressure {bucketName key : String} {chunkSize : Nat} {σ₀ : Sys}
    (h₀ : σ₀.Started bucketName key contentLength chunkSize)
    (hrun : Reaches Sys.step anyLabel σ₀ σ) :
    σ.world.channel.queue.length + σ.world.channel.reserved ≤ uploadChannelCapacity ∧
    (∀ w, σ.writer = .idle w → w.chunkSize = max chunkSize 1 ∧
      σ.world.channel.senders = w.sender.toNat + w.pending.isSome.toNat ∧
      (w.pending.isSome = true → w.buffer = [])) ∧
    σ.acked.length ≤ σ.world.receivedBytes + 5 * max chunkSize 1 := by
  obtain ⟨hinv, hwithin, hcovered⟩ := hrun.invariant
    (I := fun τ => τ.Inv (max chunkSize 1) contentLength ∧ τ.world.channel.Within ∧
      Covered (max chunkSize 1) τ)
    ⟨h₀.inv, by rcases h₀ with rfl | rfl <;> exact Nat.zero_le _,
      by rcases h₀ with rfl | rfl <;> exact Nat.zero_le _⟩
    fun _ _ _ h _ hstep => ⟨h.1.step hstep, h.2.1.step h.1 hstep, h.2.2.step h.1 hstep⟩
  refine ⟨hwithin, fun w hw => ?_, ?_⟩
  · have hc := hinv.writer
    rw [hw] at hc
    refine ⟨hc.chunkSize, hc.senders, fun hp => ?_⟩
    obtain ⟨send, hsend⟩ := Option.isSome_iff_exists.mp hp
    exact (hc.parked send hsend).2.1
  · have hqueue : σ.world.channel.queue.flatten.length ≤
        σ.world.channel.queue.length * max chunkSize 1 :=
      flatten_length_le fun chunk hchunk =>
        (hinv.sound.chunks chunk (List.mem_append_right _ hchunk)).2
    have hfour : σ.world.channel.queue.length * max chunkSize 1 ≤ 4 * max chunkSize 1 :=
      Nat.mul_le_mul_right _ (Nat.le_trans (Nat.le_add_right _ _) hwithin)
    have hhanded : σ.world.ledger.handedBytes =
        σ.world.receivedBytes + σ.world.channel.queue.flatten.length := by
      simp [Ledger.handedBytes, World.ledger, World.receivedBytes, Channel.handed]
    unfold Covered at hcovered
    omega

/-- Five writes of one byte, each a whole chunk, to an upload that takes nothing: the fifth
chunk is parked. -/
def fiveChunks : List Label :=
  (List.replicate 4 ([.call (.write [7])] ++ List.replicate 10 (.writerOp true) ++
    [.writerReturn])).flatten ++
  [.call (.write [7])] ++ List.replicate 7 (.writerOp true) ++ [.writerReturn]

theorem backpressure_parked :
    let σ := runTo Sys.step anyLabel fiveChunks (.uploadWithWriter "b" "k" 9 0)
    σ.acked.length = 5 ∧ σ.world.receivedBytes = 0 ∧ σ.world.channel.queue.length = 4 ∧
      σ.acked.length ≤ σ.world.receivedBytes + 5 * max 0 1 :=
  ⟨by decide, by decide, by decide, (backpressure (.inr rfl) (reaches_runTo (by decide))).2.2⟩

end MyS3.Upload
