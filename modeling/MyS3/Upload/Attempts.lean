import Mathlib.Logic.Function.Iterate
import MyS3.Client.Operation
import MyS3.Core.Attempts
import MyS3.Upload.Handle
import MyS3.Upload.Retry

/-!
# The two retry loops

`upload_streamed_with_retries` and `upload_with_writer_with_retries`, each as the source
writes it out, down to the request that every attempt makes. What they call outside the
client acts on an arbitrary state: the caller's closure, the connection, the storage behind it.
-/

namespace MyS3.Upload

open Attempts Interleaving
open Client (FlUrlResponse Operation Platform Request)

/-- What a streamed request needs from outside the client: the clock that dates it, the
connection that sends it and is answered or fails, and the drop of a body that is not sent. -/
structure Transport (S Body : Type) where
  getAmzTimestamp : S → Bytes
  putRequestStreamed : Request → Body → S → Except FlUrlError FlUrlResponse × S
  dropBody : Body → S → S

/-- What `upload_streamed_with_retries` is called over: the closure, and the connection that
carries the body it returned. -/
structure StreamedCalls (S Body : Type) where
  newBody : S → Body × S
  transport : Transport S Body

/-- What `upload_with_writer_with_retries` is called over. During an attempt the state holds
what the writer shares with the upload: `produce` spawns the producer, `producing` awaits it,
and `others` act between two loads of that state. The request takes its body from there. -/
structure WriterCalls (T : Type) where
  produce : S3UploadWriter → World × T → World × T
  transport : Transport (World × T) Unit
  producing : World × T → ProduceResult × World × T
  others : World × T → World × T

variable {S T Body : Type}

section Calls

variable (P : Platform) (s3 : S3Client) (bucketName key : String)
  (contentLength uploadTimeout maxRetries : Nat)

/-- `S3Client::upload_streamed`. A request that cannot be signed drops its body. -/
def Transport.uploadStreamed (transport : Transport S Body) (body : Body) (s : S) :
    Except S3Error Unit × S :=
  let operation := Client.uploadStreamed P s3 (transport.getAmzTimestamp s) bucketName key
    contentLength uploadTimeout
  match operation.request with
  | .error err => (.error err, transport.dropBody body s)
  | .ok request =>
    let (response, s) := transport.putRequestStreamed request body s
    (response.mapError .flUrlError >>= operation.conclude, s)

/-- One turn's attempt: a new body and its request. -/
def StreamedCalls.attempt (calls : StreamedCalls S Body) (s : S) : Except S3Error Unit × S :=
  let (body, s) := calls.newBody s
  calls.transport.uploadStreamed P s3 bucketName key contentLength uploadTimeout body s

/-- `S3Client::upload_streamed_with_retries`, from the turn with this count of retries. -/
def StreamedCalls.uploadStreamedWithRetries (calls : StreamedCalls S Body) (retries : Nat)
    (s : S) : Except S3Error Unit × S :=
  match calls.attempt P s3 bucketName key contentLength uploadTimeout s with
  | (.ok (), s) => (.ok (), s)
  | (.error err, s) =>
    if _h : maxRetries ≤ retries ∨ err.isRetryable = false then (.error err, s)
    else calls.uploadStreamedWithRetries (retries + 1) s
  termination_by maxRetries - retries

/-- A load of the shared state, behind whatever the others did. -/
def WriterCalls.load (calls : WriterCalls T) (op : Op) (h : op.loads = true) (x : World × T) :
    op.Res × World × T :=
  ((calls.others x).1.load op h, calls.others x)

/-- `S3Client::upload_with_writer`: a fresh writer, the spawned producer, the request, the
awaited producer and the settling of both. -/
def WriterCalls.uploadWithWriter (calls : WriterCalls T) (t : T) : Except S3Error Unit × T :=
  let writer := S3UploadWriter.new bucketName key defaultUploadChunkSize
  let world := World.new bucketName key contentLength .requesting
  let x := calls.produce writer (world, t)
  let (uploadResult, x) :=
    calls.transport.uploadStreamed P s3 bucketName key contentLength uploadTimeout () x
  let (produceResult, x) := calls.producing x
  let (settled, x) := (finishUploadWithWriter uploadResult produceResult).answeredBy calls.load
    (finishUploadWithWriter_loads uploadResult produceResult) x
  (settled, x.2)

/-- `S3Client::upload_with_writer_with_retries`, from the turn with this count of retries. -/
def WriterCalls.uploadWithWriterWithRetries (calls : WriterCalls T) (retries : Nat) (t : T) :
    Except S3Error Unit × T :=
  match calls.uploadWithWriter P s3 bucketName key contentLength uploadTimeout t with
  | (.ok (), t) => (.ok (), t)
  | (.error err, t) =>
    if _h : maxRetries ≤ retries ∨ err.isRetryable = false then (.error err, t)
    else calls.uploadWithWriterWithRetries (retries + 1) t
  termination_by maxRetries - retries

end Calls

/-- One streamed request from the state `s`: it is not sent, it fails on its way, or it is
answered and the answer decides. -/
inductive Transport.Streams (transport : Transport S Body) (operation : Operation Unit)
    (body : Body) (s : S) : Except S3Error Unit → S → Prop
  | unsent {err : S3Error} (hrequest : operation.request = .error err) :
      Streams transport operation body s (.error err) (transport.dropBody body s)
  | failed {request : Request} {err : FlUrlError} {s' : S}
      (hrequest : operation.request = .ok request)
      (hsent : transport.putRequestStreamed request body s = (.error err, s')) :
      Streams transport operation body s (.error (.flUrlError err)) s'
  | answered {request : Request} {response : FlUrlResponse} {s' : S}
      (hrequest : operation.request = .ok request)
      (hsent : transport.putRequestStreamed request body s = (.ok response, s')) :
      Streams transport operation body s (operation.conclude response) s'

/-- What is held against the body behind the producer's result: a producer that did not finish
or that failed, or less in `sent` than was declared. -/
inductive WriterCalls.BodyFailure (calls : WriterCalls T) (x : World × T) :
    ProduceResult → Option IoError → World × T → Prop
  | notFinished (joinError : JoinError) :
      BodyFailure calls x (.error joinError) (some (producerDidNotFinish joinError)) x
  | failed (err : IoError) : BodyFailure calls x (.ok (.error err)) (some err) x
  | short (hshort : (calls.others x).1.state.sent < (calls.others^[2] x).1.state.contentLength) :
      BodyFailure calls x (.ok (.ok ()))
        (some (shortBody (calls.others x).1.state.sent
          (calls.others^[2] x).1.state.contentLength)) (calls.others^[2] x)
  | whole (hsent : (calls.others^[2] x).1.state.contentLength ≤ (calls.others x).1.state.sent) :
      BodyFailure calls x (.ok (.ok ())) none (calls.others^[2] x)

/-- The verdict over a request and its body. Where both failed, the upload's error is the one
to return if the channel closed under the writer. -/
inductive WriterCalls.Verdict (calls : WriterCalls T) (x : World × T) :
    Except S3Error Unit → Option IoError → Except S3Error Unit → World × T → Prop
  | stored : Verdict calls x (.ok ()) none (.ok ()) x
  | bodyFailed (err : IoError) :
      Verdict calls x (.ok ()) (some err) (.error (.uploadProducerFailed err)) x
  | uploadFailed (err : S3Error) : Verdict calls x (.error err) none (.error err) x
  | uploadEnded (s3Error : S3Error) (bodyError : IoError)
      (hended : (calls.others x).1.state.uploadEnded = true) :
      Verdict calls x (.error s3Error) (some bodyError) (.error s3Error) (calls.others x)
  | bodyBroke (s3Error : S3Error) (bodyError : IoError)
      (hended : (calls.others x).1.state.uploadEnded = false) :
      Verdict calls x (.error s3Error) (some bodyError)
        (.error (.uploadProducerFailed bodyError)) (calls.others x)

/-- One attempt of the first loop from the state `s`: the closure makes a body, and one request
is made with it. -/
inductive StreamedCalls.Attempted (P : Platform) (s3 : S3Client) (bucketName key : String)
    (contentLength uploadTimeout : Nat) (calls : StreamedCalls S Body) (s : S) :
    Except S3Error Unit → S → Prop
  | streamed {body : Body} {result : Except S3Error Unit} {called after : S}
      (hbody : calls.newBody s = (body, called))
      (hrequest : calls.transport.Streams (Client.uploadStreamed P s3
        (calls.transport.getAmzTimestamp called) bucketName key contentLength uploadTimeout)
        body called result after) :
      Attempted P s3 bucketName key contentLength uploadTimeout calls s result after

/-- One attempt of the second loop from the state `t`: the closure is given the writer and its
shared state, one request is made, the producer is awaited, and the verdict is over both. -/
inductive WriterCalls.Attempted (P : Platform) (s3 : S3Client) (bucketName key : String)
    (contentLength uploadTimeout : Nat) (calls : WriterCalls T) (writer : S3UploadWriter)
    (world : World) (t : T) : Except S3Error Unit → T → Prop
  | settled {uploaded result : Except S3Error Unit} {produced : ProduceResult}
      {failure : Option IoError} {spawned requested awaited looked after : World × T}
      (hspawned : calls.produce writer (world, t) = spawned)
      (hrequest : calls.transport.Streams (Client.uploadStreamed P s3
        (calls.transport.getAmzTimestamp spawned) bucketName key contentLength uploadTimeout)
        () spawned uploaded requested)
      (hproduced : calls.producing requested = (produced, awaited))
      (hfailure : calls.BodyFailure awaited produced failure looked)
      (hverdict : calls.Verdict looked uploaded failure result after) :
      Attempted P s3 bucketName key contentLength uploadTimeout calls writer world t result after.2

variable {P : Platform} {s3 : S3Client} {bucketName key : String}
  {contentLength uploadTimeout maxRetries : Nat}

/-- `upload_streamed` makes one streamed request. -/
theorem Transport.streams_uploadStreamed (transport : Transport S Body) (body : Body) (s : S) :
    transport.Streams (Client.uploadStreamed P s3 (transport.getAmzTimestamp s) bucketName key
      contentLength uploadTimeout) body s
      (transport.uploadStreamed P s3 bucketName key contentLength uploadTimeout body s).1
      (transport.uploadStreamed P s3 bucketName key contentLength uploadTimeout body s).2 := by
  rw [uploadStreamed]
  generalize Client.uploadStreamed P s3 (transport.getAmzTimestamp s) bucketName key contentLength
    uploadTimeout = operation
  cases hrequest : operation.request with
  | error err => exact .unsent hrequest
  | ok request =>
    change transport.Streams operation body s
      ((transport.putRequestStreamed request body s).1.mapError S3Error.flUrlError >>=
        operation.conclude) (transport.putRequestStreamed request body s).2
    rcases hsent : transport.putRequestStreamed request body s with ⟨err | response, s'⟩
    · exact .failed hrequest hsent
    · exact .answered hrequest hsent

/-- A turn of the first loop makes one attempt. -/
theorem StreamedCalls.attempted (calls : StreamedCalls S Body) (s : S) :
    calls.Attempted P s3 bucketName key contentLength uploadTimeout s
      (calls.attempt P s3 bucketName key contentLength uploadTimeout s).1
      (calls.attempt P s3 bucketName key contentLength uploadTimeout s).2 :=
  .streamed rfl (calls.transport.streams_uploadStreamed (calls.newBody s).1 (calls.newBody s).2)

/-- `short_body_error`, between whose loads the others act. -/
private theorem WriterCalls.answeredBy_shortBodyError (calls : WriterCalls T) (x : World × T) :
    shortBodyError.answeredBy calls.load shortBodyError_loads x =
      (if (calls.others^[2] x).1.state.contentLength ≤ (calls.others x).1.state.sent then none
        else some (shortBody (calls.others x).1.state.sent
          (calls.others^[2] x).1.state.contentLength), calls.others^[2] x) := by
  change Program.answeredBy calls.load
    (if (calls.others^[2] x).1.state.contentLength ≤ (calls.others x).1.state.sent
      then _ else _) _ (calls.others^[2] x) = _
  split <;> rfl

/-- `settle` over an upload and a body that both failed. -/
private theorem WriterCalls.answeredBy_settle (calls : WriterCalls T) (s3Error : S3Error)
    (bodyError : IoError) (x : World × T) :
    (settle (.error s3Error) (some bodyError)).answeredBy calls.load (settle_loads _ _) x =
      (if (calls.others x).1.state.uploadEnded = true then .error s3Error
        else .error (.uploadProducerFailed bodyError), calls.others x) := by
  change Program.answeredBy calls.load
    (if (calls.others x).1.state.uploadEnded = true then _ else _) _ (calls.others x) = _
  split <;> rfl

/-- `settle` comes to the verdict. -/
private theorem WriterCalls.verdict_settle (calls : WriterCalls T)
    (uploaded : Except S3Error Unit) (failure : Option IoError) (x : World × T) :
    calls.Verdict x uploaded failure
      ((settle uploaded failure).answeredBy calls.load (settle_loads uploaded failure) x).1
      ((settle uploaded failure).answeredBy calls.load (settle_loads uploaded failure) x).2 := by
  rcases uploaded with s3Error | ⟨⟨⟩⟩
  · rcases failure with - | bodyError
    · exact .uploadFailed s3Error
    · rw [calls.answeredBy_settle]
      by_cases hended : (calls.others x).1.state.uploadEnded = true
      · rw [if_pos hended]
        exact .uploadEnded s3Error bodyError hended
      · rw [if_neg hended]
        exact .bodyBroke s3Error bodyError (Bool.eq_false_of_not_eq_true hended)
  · rcases failure with - | bodyError
    · exact .stored
    · exact .bodyFailed bodyError

/-- `finish_upload_with_writer` looks for a failure of the body and settles. -/
private theorem WriterCalls.finishUploadWithWriter_verdict (calls : WriterCalls T)
    (uploaded : Except S3Error Unit) (produced : ProduceResult) (x : World × T) :
    ∃ failure looked, calls.BodyFailure x produced failure looked ∧
      calls.Verdict looked uploaded failure
        ((finishUploadWithWriter uploaded produced).answeredBy calls.load
          (finishUploadWithWriter_loads uploaded produced) x).1
        ((finishUploadWithWriter uploaded produced).answeredBy calls.load
          (finishUploadWithWriter_loads uploaded produced) x).2 := by
  rcases produced with joinError | err | ⟨⟨⟩⟩
  · exact ⟨_, x, .notFinished joinError, calls.verdict_settle uploaded _ x⟩
  · exact ⟨_, x, .failed err, calls.verdict_settle uploaded _ x⟩
  · have hloads : (shortBodyError >>= settle uploaded).Uses (Op.loads · = true) :=
      .bind shortBodyError_loads (settle_loads uploaded)
    change ∃ failure looked, calls.BodyFailure x (.ok (.ok ())) failure looked ∧
      calls.Verdict looked uploaded failure
        ((shortBodyError >>= settle uploaded).answeredBy calls.load hloads x).1
        ((shortBodyError >>= settle uploaded).answeredBy calls.load hloads x).2
    rw [Program.answeredBy_bind shortBodyError_loads (settle_loads uploaded)]
    refine ⟨_, _, ?_, calls.verdict_settle uploaded _ _⟩
    rw [calls.answeredBy_shortBodyError]
    by_cases hsent : (calls.others^[2] x).1.state.contentLength ≤ (calls.others x).1.state.sent
    · rw [if_pos hsent]
      exact .whole hsent
    · rw [if_neg hsent]
      exact .short (Nat.lt_of_not_le hsent)

/-- `upload_with_writer` makes one attempt. -/
theorem WriterCalls.attempted (calls : WriterCalls T) (t : T) :
    calls.Attempted P s3 bucketName key contentLength uploadTimeout
      (.new bucketName key defaultUploadChunkSize) (.new bucketName key contentLength .requesting) t
      (calls.uploadWithWriter P s3 bucketName key contentLength uploadTimeout t).1
      (calls.uploadWithWriter P s3 bucketName key contentLength uploadTimeout t).2 := by
  obtain ⟨failure, looked, hfailure, hverdict⟩ := calls.finishUploadWithWriter_verdict _ _ _
  exact .settled rfl (calls.transport.streams_uploadStreamed () _) rfl hfailure hverdict

/-- The first loop has the equation of a loop. -/
theorem StreamedCalls.isLoop (calls : StreamedCalls S Body) :
    IsLoop S3Error.isRetryable maxRetries
      (calls.attempt P s3 bucketName key contentLength uploadTimeout)
      (calls.uploadStreamedWithRetries P s3 bucketName key contentLength uploadTimeout
        maxRetries) := by
  intro retries s
  rw [uploadStreamedWithRetries]
  rcases calls.attempt P s3 bucketName key contentLength uploadTimeout s with ⟨err | ⟨⟨⟩⟩, t⟩
  · rfl
  · rfl

/-- So has the second. -/
theorem WriterCalls.isLoop (calls : WriterCalls T) :
    IsLoop S3Error.isRetryable maxRetries
      (calls.uploadWithWriter P s3 bucketName key contentLength uploadTimeout)
      (calls.uploadWithWriterWithRetries P s3 bucketName key contentLength uploadTimeout
        maxRetries) := by
  intro retries t
  rw [uploadWithWriterWithRetries]
  rcases calls.uploadWithWriter P s3 bucketName key contentLength uploadTimeout t with
    ⟨err | ⟨⟨⟩⟩, t'⟩
  · rfl
  · rfl

/-- The loop over outcomes returns that of the last attempt. -/
theorem retryLoop_eq_of_last {attempt : Nat → Except S3Error Unit} {k : Nat}
    (h : Last S3Error.isRetryable attempt maxRetries k) {retries : Nat} (hle : retries ≤ k) :
    retryLoop attempt maxRetries retries = (attempt k, k + 1) := by
  induction retries using retryLoop.induct attempt maxRetries with
  | case1 retries hok =>
    have hk : retries = k := h.eq_of_final (by rw [hok]; trivial) hle
    unfold retryLoop
    rw [hok, ← hk, hok]
  | case2 retries err herr hstop =>
    have hk : retries = k := by
      rcases hstop with hlimit | hfinal
      · have := h.within
        omega
      · exact h.eq_of_final (by rw [herr]; exact hfinal) hle
    unfold retryLoop
    simp only [herr, hstop, if_true, ← hk]
  | case3 retries err herr hgo ih =>
    have hne : retries ≠ k := by
      rintro rfl
      rcases h.final with hlimit | hfinal
      · exact hgo (.inl (Nat.le_of_eq hlimit.symm))
      · rw [herr] at hfinal
        exact hgo (.inr hfinal)
    unfold retryLoop
    simp only [herr, hgo, if_false]
    exact ih (by omega)

/-- The loop of the source comes to what the loop over the outcomes of its attempts does. -/
theorem WriterCalls.refines_retryLoop (calls : WriterCalls T) (t : T) :
    (calls.uploadWithWriterWithRetries P s3 bucketName key contentLength uploadTimeout maxRetries
      0 t).1 = (Upload.uploadWithWriterWithRetries
        (outcome (calls.uploadWithWriter P s3 bucketName key contentLength uploadTimeout) t)
        maxRetries).1 := by
  obtain ⟨k, hlast, hresult, -⟩ := calls.isLoop.returns t
  rw [hresult, Upload.uploadWithWriterWithRetries, retryLoop_eq_of_last hlast (Nat.zero_le k)]

/-- A log of the calls of `new_body`: nothing else writes it. -/
structure StreamedCalls.Logs {Entry : Type} (calls : StreamedCalls S Body)
    (log : S → List Entry) (entry : Entry) : Prop where
  newBody : ∀ s, log (calls.newBody s).2 = log s ++ [entry]
  putRequestStreamed : ∀ request body s,
    log (calls.transport.putRequestStreamed request body s).2 = log s
  dropBody : ∀ body s, log (calls.transport.dropBody body s) = log s

/-- A log of the calls of `produce`, and of what each was given: nothing else writes it. -/
structure WriterCalls.Logs (calls : WriterCalls T) (log : T → List (S3UploadWriter × World)) :
    Prop where
  produce : ∀ writer world t, log (calls.produce writer (world, t)).2 = log t ++ [(writer, world)]
  putRequestStreamed : ∀ request x,
    log (calls.transport.putRequestStreamed request () x).2.2 = log x.2
  dropBody : ∀ x, log (calls.transport.dropBody () x).2 = log x.2
  producing : ∀ x, log (calls.producing x).2.2 = log x.2
  others : ∀ x, log (calls.others x).2 = log x.2

/-- One streamed request keeps what neither the connection nor a dropped body changes. -/
private theorem Transport.Streams.log_eq {A : Type} {transport : Transport S Body}
    {operation : Operation Unit} {body : Body} {s s' : S} {result : Except S3Error Unit}
    (h : transport.Streams operation body s result s')
    (log : S → A)
    (hput : ∀ request s, log (transport.putRequestStreamed request body s).2 = log s)
    (hdrop : ∀ s, log (transport.dropBody body s) = log s) : log s' = log s := by
  cases h with
  | unsent hrequest => exact hdrop s
  | failed hrequest hsent => exact (congrArg (fun r => log r.2) hsent).symm.trans (hput _ s)
  | answered hrequest hsent => exact (congrArg (fun r => log r.2) hsent).symm.trans (hput _ s)

/-- One attempt of the first loop calls the closure once. -/
private theorem StreamedCalls.Attempted.log_eq {Entry : Type} {calls : StreamedCalls S Body}
    {log : S → List Entry} {entry : Entry} (hlogs : calls.Logs log entry) {s s' : S}
    {result : Except S3Error Unit}
    (h : calls.Attempted P s3 bucketName key contentLength uploadTimeout s result s') :
    log s' = log s ++ [entry] := by
  cases h with
  | @streamed body _ called _ hbody hrequest =>
    have hcalled : log called = log s ++ [entry] :=
      (congrArg (fun r => log r.2) hbody).symm.trans (hlogs.newBody s)
    rw [← hcalled]
    apply hrequest.log_eq log
    · exact fun request => hlogs.putRequestStreamed request body
    · exact hlogs.dropBody body

/-- What is looked at behind the producer keeps what the others keep. -/
private theorem WriterCalls.BodyFailure.log_eq {A : Type} {calls : WriterCalls T} {log : T → A}
    {produced : ProduceResult} {failure : Option IoError} {x looked : World × T}
    (h : calls.BodyFailure x produced failure looked)
    (hothers : ∀ x, log (calls.others x).2 = log x.2) : log looked.2 = log x.2 := by
  cases h with
  | notFinished joinError => rfl
  | failed err => rfl
  | short hshort => exact (hothers _).trans (hothers x)
  | whole hsent => exact (hothers _).trans (hothers x)

/-- So does the verdict. -/
private theorem WriterCalls.Verdict.log_eq {A : Type} {calls : WriterCalls T} {log : T → A}
    {uploaded result : Except S3Error Unit} {failure : Option IoError} {looked after : World × T}
    (h : calls.Verdict looked uploaded failure result after)
    (hothers : ∀ x, log (calls.others x).2 = log x.2) : log after.2 = log looked.2 := by
  cases h with
  | stored => rfl
  | bodyFailed err => rfl
  | uploadFailed err => rfl
  | uploadEnded s3Error bodyError hended => exact hothers looked
  | bodyBroke s3Error bodyError hended => exact hothers looked

/-- One attempt of the second loop calls the closure once, with the writer it is given. -/
private theorem WriterCalls.Attempted.log_eq {calls : WriterCalls T}
    {log : T → List (S3UploadWriter × World)} (hlogs : calls.Logs log)
    {writer : S3UploadWriter} {world : World} {t t' : T} {result : Except S3Error Unit}
    (h : calls.Attempted P s3 bucketName key contentLength uploadTimeout writer world t result
      t') : log t' = log t ++ [(writer, world)] := by
  cases h with
  | @settled uploaded _ produced failure spawned requested awaited looked after hspawned hrequest
      hproduced hfailure hverdict =>
    have hawaited : log awaited.2 = log requested.2 :=
      (congrArg (fun r => log r.2.2) hproduced).symm.trans (hlogs.producing requested)
    have hspawned' : log spawned.2 = log t ++ [(writer, world)] :=
      (congrArg (fun x => log x.2) hspawned).symm.trans (hlogs.produce writer world t)
    have hrequested : log requested.2 = log spawned.2 :=
      hrequest.log_eq (fun x => log x.2) hlogs.putRequestStreamed hlogs.dropBody
    calc log after.2 = log looked.2 := hverdict.log_eq hlogs.others
      _ = log awaited.2 := hfailure.log_eq hlogs.others
      _ = log requested.2 := hawaited
      _ = log spawned.2 := hrequested
      _ = log t ++ [(writer, world)] := hspawned'

/-- A writer and the state it shares, from which nothing was accepted or sent. -/
structure Fresh (writer : S3UploadWriter) (world : World) (contentLength : Nat) : Prop where
  buffer : writer.buffer = []
  pending : writer.pending = none
  sender : writer.sender = true
  state : world.state = ⟨contentLength, 0, 0, false, false, false⟩
  channel : world.channel = ⟨[], [], 0, 1, .listening⟩

/-- Both loops return the outcome of the last attempt: the one at the limit, or the first that
is `Ok` or fails with an error that is not repeated. Attempt `i` is entered with the counter
at `i`. An attempt of the first loop is a new body and one request; one of the second is the
closure with a fresh writer, one request, the awaited producer and the verdict over both. Each
attempt calls the closure once, and behind the last nothing calls it. -/
theorem retry_loops_obey_one_rule (P : Platform) (s3 : S3Client) (bucketName key : String)
    (contentLength uploadTimeout maxRetries : Nat) (streamed : StreamedCalls S Body) (s : S)
    (written : WriterCalls T) (t : T) :
    let attempt := streamed.attempt P s3 bucketName key contentLength uploadTimeout
    let attempt' := written.uploadWithWriter P s3 bucketName key contentLength uploadTimeout
    let loop := streamed.uploadStreamedWithRetries P s3 bucketName key contentLength uploadTimeout
      maxRetries
    let loop' := written.uploadWithWriterWithRetries P s3 bucketName key contentLength
      uploadTimeout maxRetries
    let fresh := S3UploadWriter.new bucketName key defaultUploadChunkSize
    let world := World.new bucketName key contentLength .requesting
    (∀ i, streamed.Attempted P s3 bucketName key contentLength uploadTimeout (after attempt s i)
      (outcome attempt s i) (after attempt s (i + 1))) ∧
    (∃ k, Last S3Error.isRetryable (outcome attempt s) maxRetries k ∧
      loop 0 s = (outcome attempt s k, after attempt s (k + 1)) ∧
      (∀ i ≤ k, loop 0 s = loop i (after attempt s i)) ∧
      ∀ (Entry : Type) (log : S → List Entry) (entry : Entry), streamed.Logs log entry →
        log (loop 0 s).2 = log s ++ List.replicate (k + 1) entry) ∧
    (∀ i, written.Attempted P s3 bucketName key contentLength uploadTimeout fresh world
      (after attempt' t i) (outcome attempt' t i) (after attempt' t (i + 1))) ∧
    (∃ k, Last S3Error.isRetryable (outcome attempt' t) maxRetries k ∧
      loop' 0 t = (outcome attempt' t k, after attempt' t (k + 1)) ∧
      (∀ i ≤ k, loop' 0 t = loop' i (after attempt' t i)) ∧
      (∀ j ≤ k, ∀ err, outcome attempt' t j = .error (.uploadProducerFailed err) → j = k) ∧
      ∀ log : T → List (S3UploadWriter × World), written.Logs log →
        log (loop' 0 t).2 = log t ++ List.replicate (k + 1) (fresh, world)) ∧
    Fresh fresh world contentLength ∧
    (outcome attempt s = outcome attempt' t → (loop 0 s).1 = (loop' 0 t).1) := by
  intro attempt attempt' loop loop' fresh world
  refine ⟨fun i => streamed.attempted (after attempt s i), ?_,
    fun i => written.attempted (after attempt' t i), ?_,
    ⟨rfl, rfl, rfl, rfl, rfl⟩, streamed.isLoop.agree written.isLoop⟩
  · obtain ⟨k, hlast, hresult, hturns⟩ := streamed.isLoop.returns s
    refine ⟨k, hlast, hresult, hturns, fun Entry log entry hlogs => ?_⟩
    refine (congrArg (fun r => log r.2) hresult).trans (log_after ?_ s (k + 1))
    exact fun s => (streamed.attempted s).log_eq hlogs
  · obtain ⟨k, hlast, hresult, hturns⟩ := written.isLoop.returns t
    refine ⟨k, hlast, hresult, hturns, fun j hj err herr => ?_, fun log hlogs => ?_⟩
    · refine hlast.eq_of_final ?_ hj
      rw [herr]
      exact S3Error.isRetryable_uploadProducerFailed err
    · refine (congrArg (fun r => log r.2) hresult).trans (log_after ?_ t (k + 1))
      exact fun t => (written.attempted t).log_eq hlogs

end MyS3.Upload
