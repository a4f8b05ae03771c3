import MyS3.Upload.World

/-!
# `S3UploadWriter`

The writer's `poll_*` functions and its `Drop`, as programs over the atomic operations
of the shared state. A parked send is the chunk it carries: `reserve` is the only
`await` of its future.
-/

namespace MyS3.Upload

open Interleaving

/-- How much is accumulated before a chunk goes out, unless told otherwise. -/
def defaultUploadChunkSize : Nat := 512 * 1024

/-- A chunk on its way into the channel; the future owns a `Sender` of its own. -/
structure PendingSend where
  chunk : Bytes
  deriving DecidableEq, Repr

/-- The body of one streamed upload. `sender` says whether the writer still has its
`Sender`, which `poll_shutdown` drops. -/
structure S3UploadWriter where
  bucketName : String
  key : String
  sender : Bool
  buffer : Bytes
  chunkSize : Nat
  pending : Option PendingSend
  deriving DecidableEq, Repr

/-- A fresh writer. A zero chunk size is raised to one. -/
def S3UploadWriter.new (bucketName key : String) (chunkSize : Nat) : S3UploadWriter where
  bucketName := bucketName
  key := key
  sender := true
  buffer := []
  chunkSize := max chunkSize 1
  pending := none

/-- The channel and the shared state that `S3UploadWriter::new` returns with the writer. -/
def World.new (bucketName key : String) (contentLength : Nat) (task : UploadTask) : World where
  bucketName := bucketName
  key := key
  state := .new contentLength
  channel := ⟨[], [], 0, 1, .listening⟩
  task := task
  abortRequested := false
  produced := none
  sawClosed := false
  sendStarted := false
  notified := false

/-- There is something to carry: the request may start. -/
def markBodyStarted : Prog Unit := atomically .notifyOne

/-- Recorded, then announced. -/
def markBodyEnded : Prog Unit := do
  atomically .storeBodyEnded
  atomically .notifyOne

/-- The refusal of a writer whose upload is over. -/
def S3UploadWriter.uploadGone (w : S3UploadWriter) : IoError where
  kind := .brokenPipe
  message := s!"S3UploadWriter: the upload of {w.bucketName}/{w.key} has already ended - its own error says why"

/-- The upload is over; recorded, because it decides which error the caller sees. -/
def S3UploadWriter.uploadIsGone (w : S3UploadWriter) : Prog IoError := do
  atomically .storeUploadEnded
  return w.uploadGone

def S3UploadWriter.alreadyShutDown (w : S3UploadWriter) : IoError where
  kind := .brokenPipe
  message := s!"S3UploadWriter: the body of {w.bucketName}/{w.key} was ended by shutdown() and cannot be written to again"

/-- The refusal of bytes past the declared length. -/
def S3UploadWriter.pastTheLength (w : S3UploadWriter) (contentLength offered : Nat) :
    IoError where
  kind := .invalidInput
  message := s!"S3UploadWriter: {w.bucketName}/{w.key} was opened for {contentLength} bytes and all of them have been written - {offered} more were offered"

/-- Polls the future of a send: room first, then the count, then the chunk. The
`Sender` inside the future is dropped when it completes. -/
def PendingSend.poll (send : PendingSend) : Prog (Poll Bool) := do
  match ← atomically .reserve with
  | .pending => return .pending
  | .ready false =>
    atomically .dropSender
    return .ready false
  | .ready true =>
    atomically (.fetchAddSent send.chunk.length)
    atomically (.permitSend send.chunk)
    atomically .dropSender
    return .ready true

/-- Drives a send that an earlier call started. -/
def S3UploadWriter.pollPending (w : S3UploadWriter) :
    Prog (S3UploadWriter × Poll (Except IoError Unit)) :=
  match w.pending with
  | none => return (w, .ready (.ok ()))
  | some send => do
    match ← send.poll with
    | .pending => return (w, .pending)
    | .ready true => return ({ w with pending := none }, .ready (.ok ()))
    | .ready false =>
      let err ← w.uploadIsGone
      return ({ w with pending := none }, .ready (.error err))

/-- Hands a chunk to the channel, keeping the send if it has to wait for room. -/
def S3UploadWriter.startSend (w : S3UploadWriter) (chunk : Bytes) :
    Prog (S3UploadWriter × Poll (Except IoError Unit)) :=
  if w.sender then do
    atomically .cloneSender
    -- Before the send rather than after: the send may well be what waits for it.
    markBodyStarted
    match ← (PendingSend.mk chunk).poll with
    | .pending => return ({ w with pending := some ⟨chunk⟩ }, .pending)
    | .ready true => return (w, .ready (.ok ()))
    | .ready false =>
      let err ← w.uploadIsGone
      return (w, .ready (.error err))
  else return (w, .ready (.error w.alreadyShutDown))

/-- Copies what fits into the chunk being filled and sends the chunk once it is full.
The part of `poll_write` behind the refusals. -/
def S3UploadWriter.fillChunk (w : S3UploadWriter) (buf : Bytes) (owed : Nat) :
    Prog (S3UploadWriter × Poll (Except IoError Nat)) := do
  let take := min (min buf.length (w.chunkSize - w.buffer.length)) owed
  let buffer := w.buffer ++ buf.take take
  atomically (.fetchAddAccepted take)
  if buffer.length < w.chunkSize then
    return ({ w with buffer := buffer }, .ready (.ok take))
  else
    match ← S3UploadWriter.startSend { w with buffer := [] } buffer with
    | (w', .ready (.error err)) => return (w', .ready (.error err))
    | (w', .ready (.ok ())) => return (w', .ready (.ok take))
    | (w', .pending) => return (w', .ready (.ok take))

/-- `AsyncWrite::poll_write`. -/
def S3UploadWriter.pollWrite (w : S3UploadWriter) (buf : Bytes) :
    Prog (S3UploadWriter × Poll (Except IoError Nat)) := do
  match ← w.pollPending with
  | (w, .pending) => return (w, .pending)
  | (w, .ready (.error err)) => return (w, .ready (.error err))
  | (w, .ready (.ok ())) =>
    if buf = [] then return (w, .ready (.ok 0))
    else if !w.sender then return (w, .ready (.error w.alreadyShutDown))
    else if ← atomically .loadUploadEnded then
      return (w, .ready (.error (← w.uploadIsGone)))
    else
      let contentLength ← atomically .contentLength
      let accepted ← atomically .loadAccepted
      let owed := contentLength - accepted
      if owed = 0 then
        return (w, .ready (.error (w.pastTheLength contentLength buf.length)))
      else w.fillChunk buf owed

/-- `AsyncWrite::poll_flush`: sends the partly filled chunk. -/
def S3UploadWriter.pollFlush (w : S3UploadWriter) :
    Prog (S3UploadWriter × Poll (Except IoError Unit)) := do
  match ← w.pollPending with
  | (w, .pending) => return (w, .pending)
  | (w, .ready (.error err)) => return (w, .ready (.error err))
  | (w, .ready (.ok ())) =>
    if ← atomically .loadUploadEnded then
      return (w, .ready (.error (← w.uploadIsGone)))
    else if w.buffer = [] then return (w, .ready (.ok ()))
    else if !w.sender then return (w, .ready (.error w.alreadyShutDown))
    else S3UploadWriter.startSend { w with buffer := [] } w.buffer

/-- `AsyncWrite::poll_shutdown`: flushes, then drops the `Sender`. -/
def S3UploadWriter.pollShutdown (w : S3UploadWriter) :
    Prog (S3UploadWriter × Poll (Except IoError Unit)) :=
  if !w.sender then return (w, .ready (.ok ()))
  else do
    match ← w.pollFlush with
    | (w, .pending) => return (w, .pending)
    | (w, .ready (.error err)) => return (w, .ready (.error err))
    | (w, .ready (.ok ())) =>
      markBodyEnded
      atomically .dropSender
      return ({ w with sender := false }, .ready (.ok ()))

/-- `Drop`: the end of the body is recorded before the fields, and with them every
`Sender`, are dropped. -/
def S3UploadWriter.drop (w : S3UploadWriter) : Prog Unit := do
  if w.sender then
    markBodyEnded
    atomically .dropSender
  if w.pending.isSome then
    atomically .dropSender

end MyS3.Upload
