import MyS3.Core.Program
import MyS3.Error

/-!
# The shared state of one streamed upload

The writer, the upload task and whoever settles the upload share
`UploadWriterState`, a bounded channel and two tasks to be joined. Every access is
one atomic operation. `received`, `sawClosed`, `sendStarted` and `notified` are
history that no operation reads.
-/

namespace MyS3.Upload

open Interleaving

/-- How many finished chunks may sit in the channel before the writer has to wait. -/
def uploadChannelCapacity : Nat := 4

/-- State the writer shares with whoever settles the upload. `bodyStarted` is the one
permit that a `Notify` can store. -/
structure UploadWriterState where
  contentLength : Nat
  accepted : Nat
  sent : Nat
  uploadEnded : Bool
  bodyEnded : Bool
  bodyStarted : Bool
  deriving DecidableEq, Repr

def UploadWriterState.new (contentLength : Nat) : UploadWriterState where
  contentLength := contentLength
  accepted := 0
  sent := 0
  uploadEnded := false
  bodyEnded := false
  bodyStarted := false

/-- The receiving end of the channel: a closed receiver still hands out what is queued. -/
inductive Receiver where
  | listening | closed | dropped
  deriving DecidableEq, Repr

/-- The bounded channel: chunks already taken by the upload, chunks queued, permits
reserved and not yet used, and live `Sender` handles. -/
structure Channel where
  received : List Bytes
  queue : List Bytes
  reserved : Nat
  senders : Nat
  receiver : Receiver
  deriving DecidableEq, Repr

/-- Every chunk that was ever handed to the channel, in order. -/
def Channel.handed (c : Channel) : List Bytes := c.received ++ c.queue

/-- A slot is taken by a queued chunk or by a permit that was not used yet. -/
def Channel.hasRoom (c : Channel) : Bool :=
  decide (c.queue.length + c.reserved < uploadChannelCapacity)

/-- Where the upload stands. `start_upload` spawns it in `waiting`;
`upload_with_writer` starts in `requesting`. -/
inductive UploadTask where
  /-- In `body_started().await`. -/
  | waiting
  /-- The permit is taken; `body_ended` is read next. -/
  | released
  /-- `body_ended` was set; `short_body_error` is evaluated next. -/
  | bodyHadEnded
  /-- In `upload_streamed`. -/
  | requesting
  /-- The task returned. -/
  | finished (result : Except S3Error Unit)
  /-- The task panicked or was cancelled. -/
  | failed (err : JoinError)

/-- The answer of a joined producer: its own result, or the reason it has none. -/
abbrev ProduceResult : Type := Except JoinError (Except IoError Unit)

/-- Everything the parties of one upload share. -/
structure World where
  bucketName : String
  key : String
  state : UploadWriterState
  channel : Channel
  task : UploadTask
  abortRequested : Bool
  produced : Option ProduceResult
  /-- A send has found the channel closed. -/
  sawClosed : Bool
  /-- `start_send` has been called on an open writer. -/
  sendStarted : Bool
  /-- `notify_one` has been called. -/
  notified : Bool

/-- The atomic operations of the writer and of the code that settles the upload. -/
inductive Op where
  | contentLength
  | loadAccepted
  | fetchAddAccepted (n : Nat)
  | loadSent
  | fetchAddSent (n : Nat)
  | loadUploadEnded
  | storeUploadEnded
  | loadBodyEnded
  | storeBodyEnded
  | notifyOne
  | cloneSender
  | dropSender
  | reserve
  | permitSend (chunk : Bytes)
  | uploadStreamed
  | joinUpload
  | joinProducer
  | uploadIsFinished
  | abortUpload

/-- What each operation answers. `reserve` is polled: it is pending, or it yields a
permit (`true`) or finds the channel closed (`false`). -/
@[reducible] def Op.Res : Op → Type
  | .contentLength | .loadAccepted | .loadSent => Nat
  | .loadUploadEnded | .loadBodyEnded | .uploadIsFinished => Bool
  | .reserve => Poll Bool
  | .uploadStreamed => Except S3Error Unit
  | .joinUpload => Except JoinError (Except S3Error Unit)
  | .joinProducer => ProduceResult
  | _ => Unit

/-- Programs over the operations of one upload. -/
abbrev Prog (α : Type) : Type := Program Op.Res α

/-- One atomic operation, as a program. -/
def atomically (op : Op) : Prog op.Res := Program.perform op

/-- `is_finished()` of the upload's join handle. -/
def UploadTask.isFinished : UploadTask → Bool
  | .finished _ | .failed _ => true
  | _ => false

/-- How many bytes the upload has taken from the channel. -/
def World.receivedBytes (w : World) : Nat := w.channel.received.flatten.length

/-- What `start_send` does before its send is polled for the first time. -/
def World.openSend (w : World) : World :=
  { w with
    channel := { w.channel with senders := w.channel.senders + 1 }
    sendStarted := true }

/-- `reserve`, polled. The choice `false` is a spurious `Pending`; otherwise a closed
channel refuses, a free slot is granted and a full channel makes the sender wait. -/
def World.reserve (w : World) (now : Bool) : Poll Bool × World :=
  if now then
    if w.channel.receiver = .listening then
      if w.channel.hasRoom then
        (.ready true, { w with channel := { w.channel with reserved := w.channel.reserved + 1 } })
      else (.pending, w)
    else (.ready false, { w with sawClosed := true })
  else (.pending, w)

/-- `reserve` waits, is granted a free slot, or finds the channel closed. -/
theorem World.reserve_cases (w : World) (now : Bool) :
    w.reserve now = (.pending, w) ∨
      (w.channel.receiver = .listening ∧ w.channel.hasRoom = true ∧ w.reserve now =
        (.ready true,
          { w with channel := { w.channel with reserved := w.channel.reserved + 1 } })) ∨
      w.channel.receiver ≠ .listening ∧
        w.reserve now = (.ready false, { w with sawClosed := true }) := by
  unfold World.reserve
  split
  · split
    · rename_i hopen
      split
      · rename_i hroom
        exact .inr (.inl ⟨hopen, hroom, rfl⟩)
      · exact .inl rfl
    · rename_i hshut
      exact .inr (.inr ⟨hshut, rfl⟩)
  · exact .inl rfl

/-- Atomic execution of one operation. Awaiting what has not ended is not enabled. -/
def World.exec (w : World) : (op : Op) → Bool → Option (op.Res × World)
  | .contentLength, _ => some (w.state.contentLength, w)
  | .loadAccepted, _ => some (w.state.accepted, w)
  | .fetchAddAccepted n, _ =>
    some ((), { w with state := { w.state with accepted := w.state.accepted + n } })
  | .loadSent, _ => some (w.state.sent, w)
  | .fetchAddSent n, _ =>
    some ((), { w with state := { w.state with sent := w.state.sent + n } })
  | .loadUploadEnded, _ => some (w.state.uploadEnded, w)
  | .storeUploadEnded, _ => some ((), { w with state := { w.state with uploadEnded := true } })
  | .loadBodyEnded, _ => some (w.state.bodyEnded, w)
  | .storeBodyEnded, _ => some ((), { w with state := { w.state with bodyEnded := true } })
  | .notifyOne, _ =>
    some ((), { w with state := { w.state with bodyStarted := true }, notified := true })
  | .cloneSender, _ => some ((), w.openSend)
  | .dropSender, _ =>
    some ((), { w with channel := { w.channel with senders := w.channel.senders - 1 } })
  | .reserve, now => some (w.reserve now)
  | .permitSend chunk, _ =>
    some ((), { w with
      channel := { w.channel with
        queue := w.channel.queue ++ [chunk]
        reserved := w.channel.reserved - 1 } })
  | .uploadStreamed, _ =>
    match w.task with
    | .finished result => some (result, w)
    | _ => none
  | .joinUpload, _ =>
    match w.task with
    | .finished result => some (.ok result, w)
    | .failed err => some (.error err, w)
    | _ => none
  | .joinProducer, _ => w.produced.map fun result => (result, w)
  | .uploadIsFinished, _ => some (w.task.isFinished, w)
  | .abortUpload, _ => some ((), { w with abortRequested := true })

/-- What the upload does: the steps of the task that `start_upload` spawns, and of the
request inside it. -/
inductive UploadLabel where
  | bodyStarted
  | checkBodyEnded
  | checkShortBody
  | receive
  | closeReceiver
  | dropReceiver
  | answer (result : Except S3Error Unit)
  | fail (err : JoinError)

/-- The task ends, and with it the receiver it owned. -/
def World.endTask (w : World) (task : UploadTask) : World :=
  { w with task := task, channel := { w.channel with receiver := .dropped } }

/-- The error of a request that was never started. -/
def World.endedShort (w : World) : S3Error :=
  .other s!"the body of {w.bucketName}/{w.key} ended short before its request was started"

/-- One step of the upload. The request may take a queued chunk, let go of the receiver
or answer at any moment; the task may panic or be cancelled at any moment. -/
def World.upload (w : World) : UploadLabel → Option World
  | .bodyStarted =>
    match w.task, w.state.bodyStarted with
    | .waiting, true =>
      some { w with task := .released, state := { w.state with bodyStarted := false } }
    | _, _ => none
  | .checkBodyEnded =>
    match w.task with
    | .released =>
      some { w with task := if w.state.bodyEnded then .bodyHadEnded else .requesting }
    | _ => none
  | .checkShortBody =>
    match w.task with
    | .bodyHadEnded =>
      if w.state.contentLength ≤ w.state.sent then some { w with task := .requesting }
      else some (w.endTask (.finished (.error w.endedShort)))
    | _ => none
  | .receive =>
    match w.task, w.channel.queue with
    | .requesting, chunk :: queue =>
      if w.channel.receiver = .dropped then none
      else some { w with
        channel := { w.channel with received := w.channel.received ++ [chunk], queue := queue } }
    | _, _ => none
  | .closeReceiver =>
    match w.task with
    | .requesting =>
      if w.channel.receiver = .listening then
        some { w with channel := { w.channel with receiver := .closed } }
      else none
    | _ => none
  | .dropReceiver =>
    match w.task with
    | .requesting => some { w with channel := { w.channel with receiver := .dropped } }
    | _ => none
  | .answer result =>
    match w.task with
    | .requesting => some (w.endTask (.finished result))
    | _ => none
  | .fail err => if w.task.isFinished then none else some (w.endTask (.failed err))

/-- Everything a step of the upload can be. -/
inductive World.UploadTransition (w : World) : UploadLabel → World → Prop
  | bodyStarted (htask : w.task = .waiting) (hpermit : w.state.bodyStarted = true) :
      UploadTransition w .bodyStarted
        { w with task := .released, state := { w.state with bodyStarted := false } }
  | bodyHadEnded (htask : w.task = .released) (hended : w.state.bodyEnded = true) :
      UploadTransition w .checkBodyEnded { w with task := .bodyHadEnded }
  | bodyOpen (htask : w.task = .released) (hended : w.state.bodyEnded = false) :
      UploadTransition w .checkBodyEnded { w with task := .requesting }
  | bodyWhole (htask : w.task = .bodyHadEnded)
      (hwhole : w.state.contentLength ≤ w.state.sent) :
      UploadTransition w .checkShortBody { w with task := .requesting }
  | bodyShort (htask : w.task = .bodyHadEnded) (hshort : w.state.sent < w.state.contentLength) :
      UploadTransition w .checkShortBody (w.endTask (.finished (.error w.endedShort)))
  | receive {chunk : Bytes} {queue : List Bytes} (htask : w.task = .requesting)
      (hqueue : w.channel.queue = chunk :: queue) (hreceiver : w.channel.receiver ≠ .dropped) :
      UploadTransition w .receive { w with
        channel := { w.channel with received := w.channel.received ++ [chunk], queue := queue } }
  | closeReceiver (htask : w.task = .requesting) (hreceiver : w.channel.receiver = .listening) :
      UploadTransition w .closeReceiver
        { w with channel := { w.channel with receiver := .closed } }
  | dropReceiver (htask : w.task = .requesting) :
      UploadTransition w .dropReceiver
        { w with channel := { w.channel with receiver := .dropped } }
  | answer {result : Except S3Error Unit} (htask : w.task = .requesting) :
      UploadTransition w (.answer result) (w.endTask (.finished result))
  | fail {err : JoinError} (hrunning : w.task.isFinished = false) :
      UploadTransition w (.fail err) (w.endTask (.failed err))

/-- The upload takes no other step. -/
theorem World.transition_of_upload {s t : World} {l : UploadLabel} (h : s.upload l = some t) :
    s.UploadTransition l t := by
  cases l with
  | bodyStarted =>
    simp only [upload] at h
    split at h <;> cases h
    exact .bodyStarted ‹_› ‹_›
  | checkBodyEnded =>
    simp only [upload] at h
    split at h <;> cases h
    cases hended : s.state.bodyEnded with
    | true => exact .bodyHadEnded ‹_› hended
    | false => exact .bodyOpen ‹_› hended
  | checkShortBody =>
    simp only [upload] at h
    split at h
    · split at h <;> cases h
      · exact .bodyWhole ‹_› ‹_›
      · exact .bodyShort ‹_› (Nat.lt_of_not_le ‹_›)
    · cases h
  | receive =>
    simp only [upload] at h
    split at h
    · split at h <;> cases h
      exact .receive ‹_› ‹_› ‹_›
    · cases h
  | closeReceiver =>
    simp only [upload] at h
    split at h
    · split at h <;> cases h
      exact .closeReceiver ‹_› ‹_›
    · cases h
  | dropReceiver =>
    simp only [upload] at h
    split at h <;> cases h
    exact .dropReceiver ‹_›
  | answer result =>
    simp only [upload] at h
    split at h <;> cases h
    exact .answer ‹_›
  | fail err =>
    simp only [upload] at h
    split at h <;> cases h
    rename_i hrunning
    exact .fail (by simpa using hrunning)

end MyS3.Upload
