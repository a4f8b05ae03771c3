import MyS3.Upload.Invariant

/-!
# One call among the steps of the others

A call runs from the step that starts it to the step that returns its answer. Whatever the
other parties do in between, its answer is one of the outcomes it has from the ledger it
found.
-/

namespace MyS3.Upload

open Interleaving

namespace Sys

/-- The steps up to the return of the call that is running. -/
def unreturned (_ : Sys) : Label → Bool
  | .writerReturn => false
  | _ => true

/-- The call `c` is made in `σ` and has returned in `σ'`. -/
def Turn (σ : Sys) (c : Call) (σ' : Sys) : Prop :=
  ∃ σ₁ σ₂, σ.step (.call c) = some σ₁ ∧ Reaches Sys.step unreturned σ₁ σ₂ ∧
    σ₂.step .writerReturn = some σ'

variable {limit contentLength : Nat} {σ σ' τ τ' : Sys} {w : S3UploadWriter} {c : Call}
  {l : Label}

/-- The call is running, and whatever it comes to it comes to from the ledger of `σ`. -/
private structure Running (limit contentLength : Nat) (σ : Sys) (w : S3UploadWriter) (c : Call)
    (τ : Sys) : Prop where
  inv : τ.Inv limit contentLength
  answers : τ.answers = σ.answers
  safe : ∃ p, τ.writer = .calling c p ∧
    p.Safe World.exec (writerContract c.mode limit (σ.acked ++ c.offered))
      (fun r u => ∃ L' e', CallOutcome w σ.world.ledger σ.world.state.uploadEnded c r.1 r.2 L' e' ∧
        Found L' e' u) τ.world

private theorem Running.step (h : Running limit contentLength σ w c τ)
    (hl : unreturned τ l = true) (hstep : τ.step l = some τ') :
    Running limit contentLength σ w c τ' := by
  obtain ⟨p, hp, hsafe⟩ := h.safe
  cases hwriter : l.ofWriter with
  | false =>
    obtain ⟨hthread, hanswers, hrely⟩ := h.inv.other hstep hwriter
    exact ⟨h.inv.step hstep, hanswers.trans h.answers, p, hthread.trans hp,
      hsafe.interfere hrely⟩
  | true =>
    have hinv := h.inv.step hstep
    cases transition_of_step hstep with
    | call hw | dropWriter hw | dropOp hw _ | dropReturn hw => cases hp.symm.trans hw
    | callReturn hw => cases hl
    | callOp hw hop =>
      cases hp.symm.trans hw
      exact ⟨hinv, h.answers, _, rfl, (Program.Safe.advance hsafe hop).2⟩
    | _ => cases hwriter

/-- Every turn ends in one of the outcomes of its call. -/
theorem Inv.turn_outcome (h : σ.Inv limit contentLength) (hw : σ.writer = .idle w)
    (hturn : σ.Turn c σ') : ∃ w' a L' e', σ'.writer = .idle w' ∧
      σ'.answers = σ.answers ++ [(c, a)] ∧
      CallOutcome w σ.world.ledger σ.world.state.uploadEnded c w' a L' e' ∧
      Found L' e' σ'.world := by
  obtain ⟨σ₁, σ₂, hcall, hrun, hreturn⟩ := hturn
  have hc := h.writer
  rw [hw] at hc
  have hbegun : Running limit contentLength σ w c σ₁ := by
    have hinv := h.step hcall
    simp only [Sys.step, hw, Option.some.injEq] at hcall
    subst hcall
    refine ⟨hinv, rfl, w.call c, rfl, w.safe_call c hc ?_⟩
    intro w' a L' e' v hout hv _
    exact ⟨L', e', hout, hv⟩
  have hended := hrun.invariant hbegun fun _ _ _ hI hl hstep => hI.step hl hstep
  obtain ⟨p, hp, hsafe⟩ := hended.safe
  cases transition_of_step hreturn with
  | callReturn hcalling =>
    rename_i c' w' a
    cases hp.symm.trans hcalling
    obtain ⟨L', e', hout, hfound⟩ := Program.Safe.post hsafe
    exact ⟨w', a, L', e', rfl, by rw [hended.answers], hout, hfound⟩
  | dropReturn hdropping => cases hp.symm.trans hdropping

/-- `P` holds of the answers and the ledger between calls; while a call is running, of those
that it found. -/
def Between (limit : Nat) (P : List (Call × Answer) → Ledger → Prop) (σ : Sys) : Prop :=
  match σ.writer with
  | .idle _ => P σ.answers σ.world.ledger
  | .calling c p => ∃ w L e, Custody limit w L e σ.acked ∧ P σ.answers L ∧
      p.Safe World.exec (writerContract c.mode limit (σ.acked ++ c.offered))
        (fun r u => ∃ L' e', CallOutcome w L e c r.1 r.2 L' e' ∧ Found L' e' u) σ.world
  | .dropping _ | .gone => True

/-- Every outcome of every call keeps `P`. -/
def Kept (limit : Nat) (P : List (Call × Answer) → Ledger → Prop) : Prop :=
  ∀ {answers w L e c w' a L' e'}, Custody limit w L e (acknowledged answers) →
    CallOutcome w L e c w' a L' e' → P answers L → P (answers ++ [(c, a)]) L'

variable {P : List (Call × Answer) → Ledger → Prop}

private theorem Between.step (h : σ.Between limit P) (hP : Kept limit P)
    (hinv : σ.Inv limit contentLength) (hstep : σ.step l = some σ') : σ'.Between limit P := by
  unfold Between at h ⊢
  cases hwriter : l.ofWriter with
  | false =>
    obtain ⟨hthread, hanswers, hrely⟩ := hinv.other hstep hwriter
    rw [hthread, acked, hanswers, hrely.ledger]
    split
    · rename_i hw
      simpa only [hw] using h
    · rename_i c p hw
      simp only [hw] at h
      obtain ⟨w, L, e, hc, hholds, hsafe⟩ := h
      exact ⟨w, L, e, hc, hholds, hsafe.interfere hrely⟩
    · trivial
    · trivial
  | true =>
    cases transition_of_step hstep with
    | call hw =>
      rename_i c w
      have hc := hinv.writer
      rw [hw] at hc
      simp only [hw] at h
      refine ⟨w, σ.world.ledger, σ.world.state.uploadEnded, hc, h, w.safe_call c hc ?_⟩
      intro w' a L' e' v hout hv _
      exact ⟨L', e', hout, hv⟩
    | callOp hw hop =>
      simp only [hw] at h
      obtain ⟨w, L, e, hc, hholds, hsafe⟩ := h
      exact ⟨w, L, e, hc, hholds, (Program.Safe.advance hsafe hop).2⟩
    | callReturn hw =>
      simp only [hw] at h
      obtain ⟨w, L, e, hc, hholds, hsafe⟩ := h
      obtain ⟨L', e', hout, hfound⟩ := Program.Safe.post hsafe
      have hafter := hP hc hout hholds
      rw [← hfound.ledger] at hafter
      exact hafter
    | dropWriter _ | dropOp _ _ | dropReturn _ => trivial
    | _ => cases hwriter

/-- The rule for what holds between calls: every call keeps it, so it holds wherever the
writer of a run is idle. -/
theorem Started.between {bucketName key : String} {chunkSize : Nat} {σ₀ : Sys}
    (h₀ : σ₀.Started bucketName key contentLength chunkSize)
    (hstart : P [] σ₀.world.ledger) (hP : Kept (max chunkSize 1) P)
    (hrun : Reaches Sys.step anyLabel σ₀ σ) (hw : σ.writer = .idle w) :
    P σ.answers σ.world.ledger := by
  have hbegun : σ₀.Between (max chunkSize 1) P := by
    rcases h₀ with rfl | rfl <;> exact hstart
  have hboth := hrun.invariant
    (I := fun τ => τ.Inv (max chunkSize 1) contentLength ∧ τ.Between (max chunkSize 1) P)
    ⟨h₀.inv, hbegun⟩ fun _ _ _ h _ hstep => ⟨h.1.step hstep, h.2.step hP h.1 hstep⟩
  have hbetween := hboth.2
  rw [Between, hw] at hbetween
  exact hbetween

end Sys

end MyS3.Upload
