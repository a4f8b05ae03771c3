import MyS3.Upload.Invariant

/-!
# The body is conserved

Over every run the bytes returned as written are, in order, the bytes handed to the
channel, the parked chunk and the buffer.
-/

namespace MyS3.Upload

open Interleaving

/-- A writer whose last answer was a settled flush or shutdown holds nothing back. -/
private def Flushed (σ : Sys) : Prop :=
  ∀ w earlier c a, σ.writer = .idle w → σ.answers = earlier ++ [(c, a)] → c.Settling a →
    σ.world.channel.handed.flatten = σ.acked

private theorem Flushed.step {limit contentLength : Nat} {σ σ' : Sys} {l : Label}
    (h : Flushed σ) (hinv : σ.Inv limit contentLength) (hstep : σ.step l = some σ') :
    Flushed σ' := by
  cases hl : l.ofWriter with
  | false =>
    obtain ⟨hwriter, hanswers, hrely⟩ := hinv.other hstep hl
    intro w earlier c a hw ha hsettling
    have hhanded : σ'.world.channel.handed = σ.world.channel.handed :=
      congrArg Ledger.handed hrely.ledger
    rw [Sys.acked, hanswers, hhanded]
    exact h w earlier c a (hwriter ▸ hw) (hanswers ▸ ha) hsettling
  | true =>
    intro w earlier c a hw ha hsettling
    cases Sys.transition_of_step hstep with
    | callReturn hcalling =>
      rename_i c' w' a'
      have hsafe := hinv.writer
      rw [hcalling] at hsafe
      obtain ⟨w₀, L, e, L', e', hc, hout, hflag, hfound⟩ := Program.Safe.post hsafe
      obtain ⟨-, hlast⟩ := List.append_inj' ha rfl
      obtain ⟨rfl, rfl⟩ : c' = c ∧ a' = a := by simpa using hlast
      have hhanded : σ.world.channel.handed = L'.handed := congrArg Ledger.handed hfound.ledger
      have hnothing : c'.acknowledged a' = [] := by
        rcases hsettling.1 with rfl | rfl <;> rfl
      change σ.world.channel.handed.flatten = acknowledged (σ.answers ++ [(c', a')])
      rw [acknowledged_concat, hnothing, List.append_nil, hhanded]
      exact hout.handed_all hc hsettling
    | call _ | callOp _ _ | dropOp _ _ | dropReturn _ | dropWriter _ => cases hw
    | _ => cases hl

/-- While no send was refused, what went into the channel, the parked chunk and the buffer
are exactly the acknowledged bytes; in every state the channel got a prefix of what was
acknowledged or is being written, in proper chunks; and a flush or shutdown that answered
`Ok` left nothing behind. -/
theorem body_conserved {bucketName key : String} {contentLength chunkSize : Nat} {σ₀ σ : Sys}
    (h₀ : σ₀.Started bucketName key contentLength chunkSize)
    (hrun : Reaches Sys.step anyLabel σ₀ σ) :
    (∀ w, σ.writer = .idle w → σ.world.sawClosed = false →
      σ.world.channel.handed.flatten ++ w.parkedBytes ++ w.buffer = σ.acked) ∧
    σ.world.channel.handed.flatten <+: σ.acked ++ σ.offered ∧
    (∀ chunk ∈ σ.world.channel.handed, chunk ≠ [] ∧ chunk.length ≤ max chunkSize 1) ∧
    (∀ w earlier c a, σ.writer = .idle w → σ.answers = earlier ++ [(c, a)] → c.Settling a →
      σ.world.channel.handed.flatten = σ.acked) := by
  have hinv := h₀.inv.run hrun
  refine ⟨fun w hw hopen => ?_, hinv.sound.within, hinv.sound.chunks, ?_⟩
  · have hc := hinv.writer
    rw [hw] at hc
    exact hc.conserved hopen
  · have hstart : Flushed σ₀ := by
      intro w earlier c a _ ha _
      rcases h₀ with rfl | rfl <;> simp [Sys.startUpload, Sys.uploadWithWriter] at ha
    have hboth := hrun.invariant (I := fun τ => τ.Inv (max chunkSize 1) contentLength ∧ Flushed τ)
      ⟨h₀.inv, hstart⟩ fun _ _ _ h _ hstep => ⟨h.1.step hstep, h.2.step h.1 hstep⟩
    exact hboth.2

/-- A write of three bytes in chunks of two, the write of the one left over, and a flush. -/
def writeThenFlush : List Label :=
  [.call (.write [1, 2, 3])] ++ List.replicate 10 (.writerOp true) ++
  [.writerReturn, .call (.write [3])] ++ List.replicate 4 (.writerOp true) ++
  [.writerReturn, .call .flush] ++ List.replicate 7 (.writerOp true) ++ [.writerReturn]

theorem body_conserved_flushed :
    let σ := runTo Sys.step anyLabel writeThenFlush (.uploadWithWriter "b" "k" 3 2)
    σ.acked = [1, 2, 3] ∧ σ.world.channel.handed.flatten = σ.acked :=
  ⟨by decide, (body_conserved (.inr rfl) (reaches_runTo (by decide))).2.2.2
    ⟨"b", "k", true, [], 2, none⟩ [(.write [1, 2, 3], .ready (.ok 2)),
      (.write [3], .ready (.ok 1))] .flush (.ready (.ok 0)) rfl rfl ⟨.inl rfl, 0, rfl⟩⟩

end MyS3.Upload
