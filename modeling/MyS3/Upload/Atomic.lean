import MyS3.Upload.Invariant

/-!
# Polls as atomic steps

The same system when a poll, a `Drop` of the writer and the `Drop` of the handle run
undisturbed. Such a step is a run of the interleaved system, so whatever holds of every
interleaving holds here too.
-/

namespace MyS3.Upload

open Interleaving

/-- The steps; a choice settles each operation that leaves something open. -/
inductive AtomicLabel where
  | call (c : Call) (choices : List Bool)
  | dropWriter (choices : List Bool)
  | dropHandle (choices : List Bool)
  | other (l : Label)

/-- The steps that stay as they are. -/
def Label.isOther : Label → Bool
  | .upload _ | .produce _ | .finish | .controlOp _ | .controlReturn => true
  | _ => false

/-- One step when polls and drops are atomic. -/
def Sys.atomicStep (σ : Sys) : AtomicLabel → Option Sys
  | .call c choices =>
    match σ.writer with
    | .idle w => ((w.call c).run World.exec choices σ.world).map fun r =>
        { σ with world := r.2, writer := .idle r.1.1, answers := σ.answers ++ [(c, r.1.2)] }
    | _ => none
  | .dropWriter choices =>
    match σ.writer with
    | .idle w => (w.drop.run World.exec choices σ.world).map fun r =>
        { σ with world := r.2, writer := .gone }
    | _ => none
  | .dropHandle choices =>
    match σ.control with
    | .holding => (Upload.dropHandle.run World.exec choices σ.world).map fun r =>
        { σ with world := r.2, control := .dropped }
    | _ => none
  | .other l => if l.isOther then σ.step l else none

/-- Everything such a step can be. -/
inductive Sys.AtomicTransition (σ : Sys) : AtomicLabel → Sys → Prop
  | call {c : Call} {choices : List Bool} {w w' : S3UploadWriter} {a : Answer} {world : World}
      (hw : σ.writer = .idle w)
      (hrun : (w.call c).run World.exec choices σ.world = some ((w', a), world)) :
      AtomicTransition σ (.call c choices)
        { σ with world := world, writer := .idle w', answers := σ.answers ++ [(c, a)] }
  | dropWriter {choices : List Bool} {w : S3UploadWriter} {world : World}
      (hw : σ.writer = .idle w) (hrun : w.drop.run World.exec choices σ.world = some ((), world)) :
      AtomicTransition σ (.dropWriter choices) { σ with world := world, writer := .gone }
  | dropHandle {choices : List Bool} {world : World} (hc : σ.control = .holding)
      (hrun : Upload.dropHandle.run World.exec choices σ.world = some ((), world)) :
      AtomicTransition σ (.dropHandle choices) { σ with world := world, control := .dropped }
  | other {l : Label} {σ' : Sys} (hl : l.ofWriter = false) (hstep : σ.step l = some σ') :
      AtomicTransition σ (.other l) σ'

theorem Sys.atomicTransition_of_step {σ σ' : Sys} {l : AtomicLabel}
    (h : σ.atomicStep l = some σ') : σ.AtomicTransition l σ' := by
  cases l with
  | call c choices =>
    simp only [atomicStep] at h
    split at h
    · obtain ⟨r, hrun, rfl⟩ := Option.map_eq_some_iff.mp h
      exact .call ‹_› hrun
    · cases h
  | dropWriter choices =>
    simp only [atomicStep] at h
    split at h
    · obtain ⟨r, hrun, rfl⟩ := Option.map_eq_some_iff.mp h
      exact .dropWriter ‹_› hrun
    · cases h
  | dropHandle choices =>
    simp only [atomicStep] at h
    split at h
    · obtain ⟨r, hrun, rfl⟩ := Option.map_eq_some_iff.mp h
      exact .dropHandle ‹_› hrun
    · cases h
  | other l =>
    simp only [atomicStep] at h
    split at h
    · rename_i hl
      refine .other ?_ h
      cases l <;> first | rfl | cases hl
    · cases h

/-- Every step taken atomically is a run of the interleaved system. -/
theorem Sys.reaches_of_atomicStep {σ σ' : Sys} {l : AtomicLabel}
    (h : σ.atomicStep l = some σ') : Reaches Sys.step anyLabel σ σ' := by
  cases atomicTransition_of_step h with
  | call hw hrun =>
    rename_i c choices w w' a world
    have hops : Reaches Sys.step anyLabel { σ with writer := .calling c (w.call c) }
        { σ with world := world, writer := .calling c (.pure (w', a)) } :=
      Program.run_reaches (fun p s => { σ with world := s, writer := .calling c p })
        (fun now _ _ _ _ hop =>
          ⟨.writerOp now, rfl, by simp only [step, hop, Option.map_some]⟩) hrun
    refine .head ⟨.call c, rfl, by simp only [step, hw]⟩ (hops.tail ⟨.writerReturn, rfl, ?_⟩)
    simp only [step]
  | dropWriter hw hrun =>
    rename_i choices w world
    have hops : Reaches Sys.step anyLabel { σ with writer := .dropping w.drop }
        { σ with world := world, writer := .dropping (.pure ()) } :=
      Program.run_reaches (fun p s => { σ with world := s, writer := .dropping p })
        (fun now _ _ _ _ hop =>
          ⟨.writerOp now, rfl, by simp only [step, hop, Option.map_some]⟩) hrun
    refine .head ⟨.dropWriter, rfl, by simp only [step, hw]⟩
      (hops.tail ⟨.writerReturn, rfl, ?_⟩)
    simp only [step]
  | dropHandle hc hrun =>
    rename_i choices world
    have hops : Reaches Sys.step anyLabel { σ with control := .dropping Upload.dropHandle }
        { σ with world := world, control := .dropping (.pure ()) } :=
      Program.run_reaches (fun p s => { σ with world := s, control := .dropping p })
        (fun now _ _ _ _ hop =>
          ⟨.controlOp now, rfl, by simp only [step, hop, Option.map_some]⟩) hrun
    refine .head ⟨.dropHandle, rfl, by simp only [step, hc]⟩
      (hops.tail ⟨.controlReturn, rfl, ?_⟩)
    simp only [step]
  | other hl hstep => exact .single ⟨_, rfl, hstep⟩

/-- Every run of atomic steps is a run of the interleaved system. -/
theorem Sys.reaches_of_atomic {σ σ' : Sys} {policy : Sys → AtomicLabel → Bool}
    (h : Reaches Sys.atomicStep policy σ σ') : Reaches Sys.step anyLabel σ σ' := by
  induction h with
  | refl => exact .refl
  | tail _ hmove ih =>
    obtain ⟨l, -, hstep⟩ := hmove
    exact ih.trans (reaches_of_atomicStep hstep)

variable {limit contentLength : Nat} {σ σ' : Sys} {w w' : S3UploadWriter} {c : Call} {a : Answer}
  {choices : List Bool} {t : World}

/-- An undisturbed call has one of its outcomes. -/
theorem Sys.Inv.call_outcome (h : σ.Inv limit contentLength) (hw : σ.writer = .idle w)
    (hrun : (w.call c).run World.exec choices σ.world = some ((w', a), t)) :
    ∃ L' e', CallOutcome w σ.world.ledger σ.world.state.uploadEnded c w' a L' e' ∧
      Found L' e' t := by
  have hc := h.writer
  rw [hw] at hc
  obtain ⟨⟨L', e', hout, hfound, -⟩, -⟩ :=
    Program.wp_run (w.holds_call c ⟨rfl, id⟩ hc) hrun
  exact ⟨L', e', hout, hfound⟩

/-- An undisturbed `Drop` of the writer ends the body and nothing else. -/
theorem Sys.Inv.drop_ledger (h : σ.Inv limit contentLength) (hw : σ.writer = .idle w)
    (hrun : w.drop.run World.exec choices σ.world = some ((), t)) :
    t.ledger = σ.world.ledger.dropWriter w := by
  have hc := h.writer
  rw [hw] at hc
  exact (Program.wp_run (S3UploadWriter.holds_drop ⟨rfl, id⟩ hc) hrun).1.ledger

/-- The `Drop` of the handle leaves the writer alone. -/
theorem dropHandle_rely {s : World} (hrun : dropHandle.run World.exec choices s = some ((), t)) :
    WriterRely s t :=
  dropHandle_cancels.run hrun WriterRely.refl WriterRely.trans fun hop hexec =>
    ⟨(World.exec_cancels hop hexec).ledger, (World.exec_cancels hop hexec).uploadEnded⟩

/-- An unfinished upload is marked as ended. -/
theorem dropHandle_uploadEnded {s : World} (hrunning : s.task.isFinished = false)
    (hrun : dropHandle.run World.exec choices s = some ((), t)) : t.state.uploadEnded = true := by
  obtain ⟨_, _, finished, s₁, -, hexec, hrun⟩ := Program.run_step_eq_some hrun
  cases hexec
  rw [hrunning] at hrun
  obtain ⟨_, _, _, s₂, -, hexec, hrun⟩ := Program.run_step_eq_some hrun
  cases hexec
  obtain ⟨_, _, _, s₃, -, hexec, hrun⟩ := Program.run_step_eq_some hrun
  cases hexec
  obtain ⟨-, -, rfl⟩ := Program.run_pure_eq_some hrun
  rfl

end MyS3.Upload
