import MyS3.Upload.Writer

/-!
# Settling an upload

`S3UploadHandle::finish`, the tail of `upload_with_writer`, the rule `settle` they
share and the handle's `Drop`.
-/

namespace MyS3.Upload

open Interleaving

/-- The error of a body that delivered less than it declared. -/
def shortBody (delivered contentLength : Nat) : IoError where
  kind := .unexpectedEof
  message := s!"only {delivered} of the {contentLength} bytes declared for the upload body went out - the writer was dropped early or shutdown() was not called, or the source ended early"

/-- `UploadWriterState::short_body_error`: measured by `sent`, not by `accepted`. -/
def shortBodyError : Prog (Option IoError) := do
  let delivered ← atomically .loadSent
  let contentLength ← atomically .contentLength
  if contentLength ≤ delivered then return none
  else return some (shortBody delivered contentLength)

/-- `UploadWriterState::settle`: which of two failures the caller sees. -/
def settle (uploadResult : Except S3Error Unit) (bodyFailure : Option IoError) :
    Prog (Except S3Error Unit) :=
  match uploadResult, bodyFailure with
  | .ok (), none => return .ok ()
  | .ok (), some err => return .error (.uploadProducerFailed err)
  | .error err, none => return .error err
  | .error s3Error, some bodyError => do
    if ← atomically .loadUploadEnded then return .error s3Error
    else return .error (.uploadProducerFailed bodyError)

/-- The error of an upload task that panicked or was cancelled. -/
def didNotFinish (bucketName key : String) (err : JoinError) : S3Error :=
  .other s!"the upload task for {bucketName}/{key} did not finish: {err.display}"

/-- What `finish` does once it has the result of the upload: a body failure is looked
for behind a success, and behind an error only when the body has ended. -/
def settleUpload (uploadResult : Except S3Error Unit) : Prog (Except S3Error Unit) := do
  let bodyEnded ← atomically .loadBodyEnded
  let bodyFailure ←
    match uploadResult, bodyEnded with
    | .ok (), _ => shortBodyError
    | .error _, true => shortBodyError
    | .error _, false => pure none
  settle uploadResult bodyFailure

/-- `S3UploadHandle::finish`. -/
def finish (bucketName key : String) : Prog (Except S3Error Unit) := do
  match ← atomically .joinUpload with
  | .ok uploadResult => settleUpload uploadResult
  | .error joinError => return .error (didNotFinish bucketName key joinError)

/-- The error of a producer that panicked or was cancelled. -/
def producerDidNotFinish (err : JoinError) : IoError :=
  .other s!"the upload body producer did not finish: {err.display}"

/-- `finish_upload_with_writer`. -/
def finishUploadWithWriter (uploadResult : Except S3Error Unit)
    (produceResult : ProduceResult) : Prog (Except S3Error Unit) := do
  let bodyFailure ←
    match produceResult with
    | .error joinError => pure (some (producerDidNotFinish joinError))
    | .ok (.error err) => pure (some err)
    | .ok (.ok ()) => shortBodyError
  settle uploadResult bodyFailure

/-- The end of `upload_with_writer`: the producer is always awaited, also when the upload
already failed. -/
def awaitProducer (uploadResult : Except S3Error Unit) : Prog (Except S3Error Unit) := do
  let produceResult ← atomically .joinProducer
  finishUploadWithWriter uploadResult produceResult

/-- `S3Client::upload_with_writer`, from the spawned producer on. -/
def uploadWithWriter : Prog (Except S3Error Unit) := do
  let uploadResult ← atomically .uploadStreamed
  awaitProducer uploadResult

/-- `Drop` of the handle: an unfinished upload is marked as ended, then aborted. -/
def dropHandle : Prog Unit := do
  if ← atomically .uploadIsFinished then return ()
  else
    atomically .storeUploadEnded
    atomically .abortUpload

/-- The operations that change nothing. -/
def Op.reads : Op → Bool
  | .contentLength | .loadAccepted | .loadSent | .loadUploadEnded | .loadBodyEnded => true
  | .uploadStreamed | .joinUpload | .joinProducer | .uploadIsFinished => true
  | _ => false

/-- The reads of the shared state, which never have to wait. -/
def Op.loads : Op → Bool
  | .contentLength | .loadAccepted | .loadSent | .loadUploadEnded | .loadBodyEnded => true
  | _ => false

theorem Op.reads_of_loads {op : Op} (h : op.loads = true) : op.reads = true := by
  cases op <;> first | rfl | cases h

/-- What a load answers, in any state. -/
def World.load (w : World) : (op : Op) → op.loads = true → op.Res
  | .contentLength, _ => w.state.contentLength
  | .loadAccepted, _ => w.state.accepted
  | .loadSent, _ => w.state.sent
  | .loadUploadEnded, _ => w.state.uploadEnded
  | .loadBodyEnded, _ => w.state.bodyEnded

theorem World.exec_load (w : World) {op : Op} (h : op.loads = true) (now : Bool) :
    w.exec op now = some (w.load op h, w) := by
  cases op <;> first | rfl | cases h

/-- The operations of the handle's `Drop`. -/
def Op.cancels (op : Op) : Prop :=
  op.reads = true ∨ op = .storeUploadEnded ∨ op = .abortUpload

theorem settle_loads (uploadResult : Except S3Error Unit) (bodyFailure : Option IoError) :
    (settle uploadResult bodyFailure).Uses (Op.loads · = true) := by
  rcases uploadResult with err | ⟨⟨⟩⟩ <;> cases bodyFailure <;> try exact trivial
  refine .bind ((Program.uses_perform _).mpr rfl) fun ended => ?_
  cases ended <;> trivial

theorem shortBodyError_loads : shortBodyError.Uses (Op.loads · = true) := by
  refine .bind ((Program.uses_perform _).mpr rfl) fun delivered => ?_
  refine .bind ((Program.uses_perform _).mpr rfl) fun contentLength => ?_
  split <;> trivial

private theorem settleUpload_loads (result : Except S3Error Unit) :
    (settleUpload result).Uses (Op.loads · = true) := by
  refine .bind ((Program.uses_perform _).mpr rfl) fun ended => ?_
  rcases result with err | ⟨⟨⟩⟩
  · cases ended with
    | true => exact .bind shortBodyError_loads fun bodyFailure => settle_loads _ bodyFailure
    | false => exact settle_loads (.error err) none
  · exact .bind shortBodyError_loads fun bodyFailure => settle_loads _ bodyFailure

/-- `finish` waits for the task only. -/
theorem finish_uses (bucketName key : String) :
    (finish bucketName key).Uses fun op => op = .joinUpload ∨ op.loads = true := by
  refine .bind ((Program.uses_perform _).mpr (.inl rfl)) fun joined => ?_
  rcases joined with err | result
  · trivial
  · exact (settleUpload_loads result).mono fun _ => .inr

/-- `finish` changes nothing the others can see. -/
theorem finish_reads (bucketName key : String) :
    (finish bucketName key).Uses (Op.reads · = true) :=
  (finish_uses bucketName key).mono fun _ h => by
    rcases h with rfl | h
    · rfl
    · exact Op.reads_of_loads h

/-- `finish_upload_with_writer` never waits. -/
theorem finishUploadWithWriter_loads (uploadResult : Except S3Error Unit)
    (produceResult : ProduceResult) :
    (finishUploadWithWriter uploadResult produceResult).Uses (Op.loads · = true) := by
  rcases produceResult with err | err | ⟨⟨⟩⟩
  · exact settle_loads _ (some (producerDidNotFinish err))
  · exact settle_loads _ (some err)
  · exact .bind shortBodyError_loads fun bodyFailure => settle_loads _ bodyFailure

/-- The end of `upload_with_writer` waits for the producer only. -/
theorem awaitProducer_uses (uploadResult : Except S3Error Unit) :
    (awaitProducer uploadResult).Uses fun op => op = .joinProducer ∨ op.loads = true :=
  .bind ((Program.uses_perform _).mpr (.inl rfl)) fun produced =>
    (finishUploadWithWriter_loads uploadResult produced).mono fun _ => .inr

/-- `upload_with_writer` waits for its request and for the producer. -/
theorem uploadWithWriter_uses : uploadWithWriter.Uses
    fun op => op = .uploadStreamed ∨ op = .joinProducer ∨ op.loads = true :=
  .bind ((Program.uses_perform _).mpr (.inl rfl)) fun result =>
    (awaitProducer_uses result).mono fun _ => .inr

/-- Neither does the end of `upload_with_writer` change anything. -/
theorem uploadWithWriter_reads : uploadWithWriter.Uses (Op.reads · = true) :=
  uploadWithWriter_uses.mono fun _ h => by
    rcases h with rfl | rfl | h
    · rfl
    · rfl
    · exact Op.reads_of_loads h

theorem dropHandle_cancels : dropHandle.Uses Op.cancels := by
  refine .bind ((Program.uses_perform _).mpr (.inl rfl)) fun finished => ?_
  cases finished with
  | true => trivial
  | false =>
    exact .bind ((Program.uses_perform _).mpr (.inr (.inl rfl))) fun _ =>
      (Program.uses_perform _).mpr (.inr (.inr rfl))

end MyS3.Upload
