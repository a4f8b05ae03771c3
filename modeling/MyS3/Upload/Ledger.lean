import MyS3.Core.RelyGuarantee
import MyS3.Upload.Writer

/-!
# The writer's ledger

Most of the shared state changes only through the writer. The ledger is that part,
with the chunks already taken and the chunks still queued read as one list. Other
parties leave it alone, so what the writer knows of it survives any interference.
-/

namespace MyS3.Upload

open Interleaving

/-- The part of the world that only the writer changes. -/
structure Ledger where
  contentLength : Nat
  accepted : Nat
  sent : Nat
  bodyEnded : Bool
  handed : List Bytes
  reserved : Nat
  senders : Nat
  sawClosed : Bool
  sendStarted : Bool
  notified : Bool

def World.ledger (w : World) : Ledger where
  contentLength := w.state.contentLength
  accepted := w.state.accepted
  sent := w.state.sent
  bodyEnded := w.state.bodyEnded
  handed := w.channel.handed
  reserved := w.channel.reserved
  senders := w.channel.senders
  sawClosed := w.sawClosed
  sendStarted := w.sendStarted
  notified := w.notified

namespace Ledger

/-- How many bytes were handed to the channel. -/
def handedBytes (L : Ledger) : Nat := L.handed.flatten.length

/-- `start_send` clones the `Sender` and announces the body. -/
def openSend (L : Ledger) : Ledger :=
  { L with senders := L.senders + 1, sendStarted := true, notified := true }

/-- A send counts its chunk, hands it over and drops its `Sender`. -/
def deliver (L : Ledger) (chunk : Bytes) : Ledger :=
  { L with
    sent := L.sent + chunk.length
    handed := L.handed ++ [chunk]
    senders := L.senders - 1 }

/-- A send finds the channel closed and drops its `Sender`. -/
def refuse (L : Ledger) : Ledger :=
  { L with sawClosed := true, senders := L.senders - 1 }

/-- The producer's bytes are taken into custody. -/
def accept (L : Ledger) (n : Nat) : Ledger := { L with accepted := L.accepted + n }

/-- The end of the body is recorded and announced. -/
def endBody (L : Ledger) : Ledger := { L with bodyEnded := true, notified := true }

/-- One `Sender` handle is dropped. -/
def dropSender (L : Ledger) : Ledger := { L with senders := L.senders - 1 }

@[simp] theorem handedBytes_deliver (L : Ledger) (chunk : Bytes) :
    (L.deliver chunk).handedBytes = L.handedBytes + chunk.length := by
  simp [handedBytes, deliver]

end Ledger

/-- Whatever was taken had been handed over. -/
theorem World.receivedBytes_le (w : World) : w.receivedBytes ≤ w.ledger.handedBytes := by
  simp [World.receivedBytes, World.ledger, Ledger.handedBytes, Channel.handed]

/-- What holds of the ledger in every state, between any two operations. The writer cuts
its chunks at `limit` bytes and was given the bytes `log`. -/
structure Sound (limit : Nat) (log : Bytes) (L : Ledger) : Prop where
  delivered : L.handedBytes ≤ L.sent
  counted : L.sent ≤ L.accepted
  capped : L.accepted ≤ L.contentLength
  exact_of_unreserved : L.reserved = 0 → L.sent = L.handedBytes
  unreserved_of_ended : L.bodyEnded = true → L.reserved = 0
  ended_of_no_sender : L.senders = 0 → L.bodyEnded = true
  begun_of_notified : L.notified = true → L.sendStarted = true ∨ L.bodyEnded = true
  within : L.handed.flatten <+: log
  chunks : ∀ chunk ∈ L.handed, chunk ≠ [] ∧ chunk.length ≤ limit

/-- After the end of the body the count is exact. -/
theorem Sound.exact_of_ended {limit : Nat} {log : Bytes} {L : Ledger} (h : Sound limit log L)
    (hended : L.bodyEnded = true) : L.sent = L.handedBytes :=
  h.exact_of_unreserved (h.unreserved_of_ended hended)

/-- The body may end wherever no permit is held. -/
theorem Sound.endBody {limit : Nat} {log : Bytes} {L : Ledger} (h : Sound limit log L)
    (hreleased : L.reserved = 0) : Sound limit log L.endBody.dropSender :=
  { h with
    unreserved_of_ended := fun _ => hreleased
    ended_of_no_sender := fun _ => rfl
    begun_of_notified := fun _ => .inr rfl }

/-- More bytes may be offered at any time. -/
theorem Sound.offer {limit : Nat} {log : Bytes} {L : Ledger} (h : Sound limit log L)
    (buf : Bytes) : Sound limit (log ++ buf) L :=
  { h with within := h.within.trans (List.prefix_append _ _) }

/-- What one operation of the writer may do to the ledger: nothing is sent after the
end of the body, nothing is counted or handed over without a permit, and nothing is
accepted while a permit is held. -/
structure LedgerStep (limit : Nat) (log : Bytes) (L L' : Ledger) : Prop where
  sound : Sound limit log L'
  contentLength : L'.contentLength = L.contentLength
  accepted : L.accepted ≤ L'.accepted
  sent : L.sent ≤ L'.sent
  handed : L.handed <+: L'.handed
  bodyEnded : L.bodyEnded = true → L'.bodyEnded = true
  sawClosed : L.sawClosed = true → L'.sawClosed = true
  frozen : L.bodyEnded = true →
    L'.sent = L.sent ∧ L'.handed = L.handed ∧ L'.sawClosed = L.sawClosed
  permitted : L.reserved = 0 → L'.sent = L.sent ∧ L'.handed = L.handed
  held : L.reserved ≠ 0 → L'.accepted = L.accepted

theorem LedgerStep.refl {limit : Nat} {log : Bytes} {L : Ledger} (h : Sound limit log L) :
    LedgerStep limit log L L where
  sound := h
  contentLength := rfl
  accepted := Nat.le_refl _
  sent := Nat.le_refl _
  handed := List.prefix_refl _
  bodyEnded := id
  sawClosed := id
  frozen := fun _ => ⟨rfl, rfl, rfl⟩
  permitted := fun _ => ⟨rfl, rfl⟩
  held := fun _ => rfl

/-- What the writer leaves alone: the upload and its end of the channel, the producer,
and the flags that are only ever raised. -/
structure Untouched (s t : World) : Prop where
  names : t.bucketName = s.bucketName ∧ t.key = s.key
  task : t.task = s.task
  abortRequested : t.abortRequested = s.abortRequested
  produced : t.produced = s.produced
  received : t.channel.received = s.channel.received
  receiver : t.channel.receiver = s.channel.receiver
  reserved : s.channel.receiver ≠ .listening → t.channel.reserved ≤ s.channel.reserved
  uploadEnded : s.state.uploadEnded = true → t.state.uploadEnded = true
  sendStarted : s.sendStarted = true → t.sendStarted = true
  bodyStarted : s.state.bodyStarted = true → t.state.bodyStarted = true
  notified : s.notified = true → t.notified = true
  notify : t.notified = true → s.notified = true ∨ t.state.bodyStarted = true
  permit : t.state.bodyStarted = true → s.state.bodyStarted = true ∨ t.notified = true
  refused : t.sawClosed = true → s.sawClosed = true ∨ s.channel.receiver ≠ .listening

/-- What every operation of the writer guarantees to the others. The flag
`upload_ended` is raised only behind a send that found the channel closed. -/
structure WriterGuar (limit : Nat) (log : Bytes) (s t : World) : Prop where
  untouched : Untouched s t
  ledger : LedgerStep limit log s.ledger t.ledger
  flagged : t.state.uploadEnded = true → s.state.uploadEnded = true ∨ t.sawClosed = true

/-- What the writer relies on: its ledger is its own, and a raised `upload_ended`
stays raised. -/
structure WriterRely (s t : World) : Prop where
  ledger : t.ledger = s.ledger
  uploadEnded : s.state.uploadEnded = true → t.state.uploadEnded = true

theorem WriterRely.refl (s : World) : WriterRely s s := ⟨rfl, id⟩

theorem WriterRely.trans {s t u : World} (h : WriterRely s t) (h' : WriterRely t u) :
    WriterRely s u :=
  ⟨h'.ledger.trans h.ledger, fun hs => h'.uploadEnded (h.uploadEnded hs)⟩

/-- What the writer is doing: a `poll_write` or `poll_flush`, a `poll_shutdown`, or its
`Drop`. -/
inductive Mode where
  | polling | ending | dropping
  deriving DecidableEq

/-- What sets the three apart. Only `poll_shutdown` and `Drop` end the body, the first
of them only when everything accepted was sent; `Drop` sends nothing. -/
def Mode.Allows (mode : Mode) (L L' : Ledger) : Prop :=
  match mode with
  | .polling => L'.bodyEnded = L.bodyEnded
  | .ending => L.bodyEnded = false → L'.bodyEnded = true → L'.sent = L'.accepted
  | .dropping => L'.sent = L.sent ∧ L'.handed = L.handed ∧ L'.sawClosed = L.sawClosed ∧
      L'.reserved = L.reserved

theorem Mode.allows_self (mode : Mode) (L : Ledger) : mode.Allows L L := by
  cases mode with
  | polling => rfl
  | ending =>
    intro h h'
    rw [h] at h'
    cases h'
  | dropping => exact ⟨rfl, rfl, rfl, rfl⟩

/-- A step that does not end the body is allowed in every call. -/
theorem Mode.allows_of_bodyEnded {mode : Mode} {L L' : Ledger} (hmode : mode ≠ .dropping)
    (h : L'.bodyEnded = L.bodyEnded) : mode.Allows L L' := by
  cases mode with
  | polling => exact h
  | ending =>
    intro hL hL'
    rw [h, hL] at hL'
    cases hL'
  | dropping => exact absurd rfl hmode

/-- The contract of the writer's programs. -/
def writerContract (mode : Mode) (limit : Nat) (log : Bytes) : Contract World where
  rely := WriterRely
  guar s t := WriterGuar limit log s t ∧ mode.Allows s.ledger t.ledger
  rely_refl := WriterRely.refl
  rely_trans := WriterRely.trans

end MyS3.Upload
