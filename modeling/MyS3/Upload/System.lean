import MyS3.Core.Transition
import MyS3.Upload.Handle
import MyS3.Upload.Outcome

/-!
# One upload as a system

The owner of the writer, the upload task and the holder of the handle take their
atomic steps in any order. The answers of the writer are recorded; nothing reads them
but the statements about runs.
-/

namespace MyS3.Upload

open Interleaving

/-- Where the owner of the writer stands. -/
inductive WriterThread where
  | idle (w : S3UploadWriter)
  | calling (c : Call) (p : Prog (S3UploadWriter × Answer))
  | dropping (p : Prog Unit)
  | gone

/-- Where the result of the upload is waited for. A `finish` that still waits, and that
may therefore be dropped, is a handle that is still held. -/
inductive Control where
  | holding
  | settling (p : Prog (Except S3Error Unit))
  | settled (result : Except S3Error Unit)
  | dropping (p : Prog Unit)
  | dropped

structure Sys where
  world : World
  writer : WriterThread
  control : Control
  answers : List (Call × Answer)

/-- The bytes that were returned as written, in call order. -/
def acknowledged (answers : List (Call × Answer)) : Bytes :=
  answers.flatMap fun ca => ca.1.acknowledged ca.2

theorem acknowledged_concat (answers : List (Call × Answer)) (c : Call) (a : Answer) :
    acknowledged (answers ++ [(c, a)]) = acknowledged answers ++ c.acknowledged a := by
  simp [acknowledged]

/-- The bytes that the writer has returned as written. -/
def Sys.acked (σ : Sys) : Bytes := acknowledged σ.answers

/-- The bytes offered by the call that is running. -/
def Sys.offered (σ : Sys) : Bytes :=
  match σ.writer with
  | .calling c _ => c.offered
  | _ => []

/-- The result that was returned to whoever waited for it. -/
def Sys.verdict (σ : Sys) : Option (Except S3Error Unit) :=
  match σ.control with
  | .settled result => some result
  | _ => none

theorem Sys.control_of_verdict {σ : Sys} {result : Except S3Error Unit}
    (h : σ.verdict = some result) : σ.control = .settled result := by
  unfold verdict at h
  split at h <;> cases h
  assumption

/-- What `start_upload` returns, with its task spawned. -/
def Sys.startUpload (bucketName key : String) (contentLength chunkSize : Nat) : Sys where
  world := .new bucketName key contentLength .waiting
  writer := .idle (.new bucketName key chunkSize)
  control := .holding
  answers := []

/-- `upload_with_writer`, its producer spawned and its request started. -/
def Sys.uploadWithWriter (bucketName key : String) (contentLength chunkSize : Nat) : Sys where
  world := .new bucketName key contentLength .requesting
  writer := .idle (.new bucketName key chunkSize)
  control := .settling Upload.uploadWithWriter
  answers := []

inductive Label where
  | call (c : Call)
  | writerOp (now : Bool)
  | writerReturn
  | dropWriter
  | upload (l : UploadLabel)
  | produce (result : ProduceResult)
  | finish
  | dropHandle
  | controlOp (now : Bool)
  | controlReturn

/-- The steps of the writer's owner. -/
def Label.ofWriter : Label → Bool
  | .call _ | .writerOp _ | .writerReturn | .dropWriter => true
  | _ => false

/-- One step of one party. A producer may return at any moment: it may have given its
writer away. -/
def Sys.step (σ : Sys) : Label → Option Sys
  | .call c =>
    match σ.writer with
    | .idle w => some { σ with writer := .calling c (w.call c) }
    | _ => none
  | .writerOp now =>
    match σ.writer with
    | .calling c p => (p.advance World.exec now σ.world).map fun pw =>
        { σ with world := pw.2, writer := .calling c pw.1 }
    | .dropping p => (p.advance World.exec now σ.world).map fun pw =>
        { σ with world := pw.2, writer := .dropping pw.1 }
    | _ => none
  | .writerReturn =>
    match σ.writer with
    | .calling c (.pure (w, a)) => some { σ with
        writer := .idle w
        answers := σ.answers ++ [(c, a)] }
    | .dropping (.pure ()) => some { σ with writer := .gone }
    | _ => none
  | .dropWriter =>
    match σ.writer with
    | .idle w => some { σ with writer := .dropping w.drop }
    | _ => none
  | .upload l => (σ.world.upload l).map fun world => { σ with world := world }
  | .produce result =>
    match σ.world.produced with
    | none => some { σ with world := { σ.world with produced := some result } }
    | some _ => none
  | .finish =>
    match σ.control with
    | .holding =>
      some { σ with control := .settling (Upload.finish σ.world.bucketName σ.world.key) }
    | _ => none
  | .dropHandle =>
    match σ.control with
    | .holding => some { σ with control := .dropping Upload.dropHandle }
    | _ => none
  | .controlOp now =>
    match σ.control with
    | .settling p => (p.advance World.exec now σ.world).map fun pw =>
        { σ with world := pw.2, control := .settling pw.1 }
    | .dropping p => (p.advance World.exec now σ.world).map fun pw =>
        { σ with world := pw.2, control := .dropping pw.1 }
    | _ => none
  | .controlReturn =>
    match σ.control with
    | .settling (.pure result) => some { σ with control := .settled result }
    | .dropping (.pure ()) => some { σ with control := .dropped }
    | _ => none

/-- Everything a step can be. -/
inductive Sys.Transition (σ : Sys) : Label → Sys → Prop
  | call {c : Call} {w : S3UploadWriter} (hw : σ.writer = .idle w) :
      Transition σ (.call c) { σ with writer := .calling c (w.call c) }
  | callOp {now : Bool} {c : Call} {p q : Prog (S3UploadWriter × Answer)} {world : World}
      (hw : σ.writer = .calling c p)
      (hop : p.advance World.exec now σ.world = some (q, world)) :
      Transition σ (.writerOp now) { σ with world := world, writer := .calling c q }
  | dropOp {now : Bool} {p q : Prog Unit} {world : World} (hw : σ.writer = .dropping p)
      (hop : p.advance World.exec now σ.world = some (q, world)) :
      Transition σ (.writerOp now) { σ with world := world, writer := .dropping q }
  | callReturn {c : Call} {w : S3UploadWriter} {a : Answer}
      (hw : σ.writer = .calling c (.pure (w, a))) :
      Transition σ .writerReturn { σ with writer := .idle w, answers := σ.answers ++ [(c, a)] }
  | dropReturn (hw : σ.writer = .dropping (.pure ())) :
      Transition σ .writerReturn { σ with writer := .gone }
  | dropWriter {w : S3UploadWriter} (hw : σ.writer = .idle w) :
      Transition σ .dropWriter { σ with writer := .dropping w.drop }
  | upload {l : UploadLabel} {world : World} (hup : σ.world.upload l = some world) :
      Transition σ (.upload l) { σ with world := world }
  | produce {result : ProduceResult} (hp : σ.world.produced = none) :
      Transition σ (.produce result)
        { σ with world := { σ.world with produced := some result } }
  | finish (hc : σ.control = .holding) : Transition σ .finish
      { σ with control := .settling (Upload.finish σ.world.bucketName σ.world.key) }
  | dropHandle (hc : σ.control = .holding) :
      Transition σ .dropHandle { σ with control := .dropping Upload.dropHandle }
  | settleOp {now : Bool} {p q : Prog (Except S3Error Unit)} {world : World}
      (hc : σ.control = .settling p)
      (hop : p.advance World.exec now σ.world = some (q, world)) :
      Transition σ (.controlOp now) { σ with world := world, control := .settling q }
  | cancelOp {now : Bool} {p q : Prog Unit} {world : World} (hc : σ.control = .dropping p)
      (hop : p.advance World.exec now σ.world = some (q, world)) :
      Transition σ (.controlOp now) { σ with world := world, control := .dropping q }
  | settled {result : Except S3Error Unit} (hc : σ.control = .settling (.pure result)) :
      Transition σ .controlReturn { σ with control := .settled result }
  | dropped (hc : σ.control = .dropping (.pure ())) :
      Transition σ .controlReturn { σ with control := .dropped }

/-- The step function takes no other step. -/
theorem Sys.transition_of_step {σ σ' : Sys} {l : Label} (h : σ.step l = some σ') :
    σ.Transition l σ' := by
  cases l with
  | call c =>
    simp only [step] at h
    split at h <;> cases h
    exact .call ‹_›
  | writerOp now =>
    simp only [step] at h
    split at h
    · obtain ⟨pw, hop, rfl⟩ := Option.map_eq_some_iff.mp h
      exact .callOp ‹_› hop
    · obtain ⟨pw, hop, rfl⟩ := Option.map_eq_some_iff.mp h
      exact .dropOp ‹_› hop
    · cases h
  | writerReturn =>
    simp only [step] at h
    split at h <;> cases h
    · exact .callReturn ‹_›
    · exact .dropReturn ‹_›
  | dropWriter =>
    simp only [step] at h
    split at h <;> cases h
    exact .dropWriter ‹_›
  | upload l =>
    obtain ⟨world, hup, rfl⟩ := Option.map_eq_some_iff.mp h
    exact .upload hup
  | produce result =>
    simp only [step] at h
    split at h <;> cases h
    exact .produce ‹_›
  | finish =>
    simp only [step] at h
    split at h <;> cases h
    exact .finish ‹_›
  | dropHandle =>
    simp only [step] at h
    split at h <;> cases h
    exact .dropHandle ‹_›
  | controlOp now =>
    simp only [step] at h
    split at h
    · obtain ⟨pw, hop, rfl⟩ := Option.map_eq_some_iff.mp h
      exact .settleOp ‹_› hop
    · obtain ⟨pw, hop, rfl⟩ := Option.map_eq_some_iff.mp h
      exact .cancelOp ‹_› hop
    · cases h
  | controlReturn =>
    simp only [step] at h
    split at h <;> cases h
    · exact .settled ‹_›
    · exact .dropped ‹_›

/-- An upload that just began: through `start_upload` or through `upload_with_writer`. -/
def Sys.Started (bucketName key : String) (contentLength chunkSize : Nat) (σ : Sys) : Prop :=
  σ = startUpload bucketName key contentLength chunkSize ∨
    σ = uploadWithWriter bucketName key contentLength chunkSize

end MyS3.Upload
