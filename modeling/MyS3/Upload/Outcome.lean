import MyS3.Upload.Ledger

/-!
# Outcomes of the writer's calls

Everything a call can come to, read off the writer, its ledger and the flag
`upload_ended` before and after. The programs are shown to have exactly these outcomes
under every interference; what is true of the calls is derived from here.
-/

namespace MyS3.Upload

/-- What polling a send comes to. -/
inductive SendOutcome (chunk : Bytes) (L : Ledger) : Poll Bool → Ledger → Prop
  | waiting : SendOutcome chunk L .pending L
  | delivered : SendOutcome chunk L (.ready true) (L.deliver chunk)
  | refused : SendOutcome chunk L (.ready false) L.refuse

/-- What `poll_pending` comes to. -/
inductive PendingOutcome (w : S3UploadWriter) (L : Ledger) :
    S3UploadWriter → Poll (Except IoError Unit) → Ledger → Bool → Prop
  | idle {e' : Bool} (hnone : w.pending = none) : PendingOutcome w L w (.ready (.ok ())) L e'
  | waiting {e' : Bool} {send : PendingSend} (hsend : w.pending = some send) :
      PendingOutcome w L w .pending L e'
  | delivered {e' : Bool} {send : PendingSend} (hsend : w.pending = some send) :
      PendingOutcome w L { w with pending := none } (.ready (.ok ())) (L.deliver send.chunk) e'
  | refused {send : PendingSend} (hsend : w.pending = some send) :
      PendingOutcome w L { w with pending := none } (.ready (.error w.uploadGone)) L.refuse true

/-- What `start_send` comes to for a writer that still has its `Sender`. -/
inductive StartOutcome (w : S3UploadWriter) (chunk : Bytes) (L : Ledger) :
    S3UploadWriter → Poll (Except IoError Unit) → Ledger → Bool → Prop
  | waiting {e' : Bool} :
      StartOutcome w chunk L { w with pending := some ⟨chunk⟩ } .pending L.openSend e'
  | delivered {e' : Bool} :
      StartOutcome w chunk L w (.ready (.ok ())) (L.openSend.deliver chunk) e'
  | refused : StartOutcome w chunk L w (.ready (.error w.uploadGone)) L.openSend.refuse true

/-- How many bytes a `poll_write` takes when `owed` are left to owe. -/
def S3UploadWriter.taken (w : S3UploadWriter) (buf : Bytes) (owed : Nat) : Nat :=
  min (min buf.length (w.chunkSize - w.buffer.length)) owed

/-- The chunk being filled after a `poll_write` took its bytes. -/
def S3UploadWriter.filled (w : S3UploadWriter) (buf : Bytes) (owed : Nat) : Bytes :=
  w.buffer ++ buf.take (w.taken buf owed)

/-- The answer of `poll_write` when its full chunk was started: bytes that are parked
count as written. -/
def writeAnswer (n : Nat) : Poll (Except IoError Unit) → Poll (Except IoError Nat)
  | .ready (.error err) => .ready (.error err)
  | .ready (.ok ()) => .ready (.ok n)
  | .pending => .ready (.ok n)

/-- What the accepting part of `poll_write` comes to. -/
inductive FillOutcome (w : S3UploadWriter) (buf : Bytes) (owed : Nat) (L : Ledger) :
    S3UploadWriter → Poll (Except IoError Nat) → Ledger → Bool → Prop
  | buffered {e' : Bool} (hroom : (w.filled buf owed).length < w.chunkSize) :
      FillOutcome w buf owed L { w with buffer := w.filled buf owed }
        (.ready (.ok (w.taken buf owed))) (L.accept (w.taken buf owed)) e'
  | sent {w' : S3UploadWriter} {a : Poll (Except IoError Unit)} {L' : Ledger} {e' : Bool}
      (hfull : w.chunkSize ≤ (w.filled buf owed).length)
      (hstart : StartOutcome { w with buffer := [] } (w.filled buf owed)
        (L.accept (w.taken buf owed)) w' a L' e') :
      FillOutcome w buf owed L w' (writeAnswer (w.taken buf owed) a) L' e'

/-- What `poll_write` comes to. The flag `e` is `upload_ended` before the call. -/
inductive WriteOutcome (w : S3UploadWriter) (buf : Bytes) (L : Ledger) (e : Bool) :
    S3UploadWriter → Poll (Except IoError Nat) → Ledger → Bool → Prop
  | waiting {w' : S3UploadWriter} {L' : Ledger} {e' : Bool}
      (hparked : PendingOutcome w L w' .pending L' e') : WriteOutcome w buf L e w' .pending L' e'
  | failed {w' : S3UploadWriter} {err : IoError} {L' : Ledger} {e' : Bool}
      (hparked : PendingOutcome w L w' (.ready (.error err)) L' e') :
      WriteOutcome w buf L e w' (.ready (.error err)) L' e'
  | empty {w' : S3UploadWriter} {L' : Ledger} {e₁ e' : Bool}
      (hparked : PendingOutcome w L w' (.ready (.ok ())) L' e₁) (hbuf : buf = []) :
      WriteOutcome w buf L e w' (.ready (.ok 0)) L' e'
  | shutDown {w' : S3UploadWriter} {L' : Ledger} {e₁ e' : Bool}
      (hparked : PendingOutcome w L w' (.ready (.ok ())) L' e₁) (hsender : w'.sender = false) :
      WriteOutcome w buf L e w' (.ready (.error w'.alreadyShutDown)) L' e'
  | gone {w' : S3UploadWriter} {L' : Ledger} {e₁ : Bool}
      (hparked : PendingOutcome w L w' (.ready (.ok ())) L' e₁) :
      WriteOutcome w buf L e w' (.ready (.error w'.uploadGone)) L' true
  | full {w' : S3UploadWriter} {L' : Ledger} {e₁ e' : Bool}
      (hparked : PendingOutcome w L w' (.ready (.ok ())) L' e₁) (hbuf : buf ≠ [])
      (halive : e = false) (howed : L'.contentLength - L'.accepted = 0) :
      WriteOutcome w buf L e w'
        (.ready (.error (w'.pastTheLength L'.contentLength buf.length))) L' e'
  | taken {w₁ w' : S3UploadWriter} {a : Poll (Except IoError Nat)} {L₁ L' : Ledger}
      {e₁ e' : Bool} (hparked : PendingOutcome w L w₁ (.ready (.ok ())) L₁ e₁)
      (hbuf : buf ≠ []) (hsender : w₁.sender = true) (halive : e = false)
      (howed : L₁.contentLength - L₁.accepted ≠ 0)
      (hfill : FillOutcome w₁ buf (L₁.contentLength - L₁.accepted) L₁ w' a L' e') :
      WriteOutcome w buf L e w' a L' e'

/-- What `poll_flush` comes to. -/
inductive FlushOutcome (w : S3UploadWriter) (L : Ledger) (e : Bool) :
    S3UploadWriter → Poll (Except IoError Unit) → Ledger → Bool → Prop
  | waiting {w' : S3UploadWriter} {L' : Ledger} {e' : Bool}
      (hparked : PendingOutcome w L w' .pending L' e') : FlushOutcome w L e w' .pending L' e'
  | failed {w' : S3UploadWriter} {err : IoError} {L' : Ledger} {e' : Bool}
      (hparked : PendingOutcome w L w' (.ready (.error err)) L' e') :
      FlushOutcome w L e w' (.ready (.error err)) L' e'
  | gone {w' : S3UploadWriter} {L' : Ledger} {e₁ : Bool}
      (hparked : PendingOutcome w L w' (.ready (.ok ())) L' e₁) :
      FlushOutcome w L e w' (.ready (.error w'.uploadGone)) L' true
  | nothing {w' : S3UploadWriter} {L' : Ledger} {e₁ e' : Bool}
      (hparked : PendingOutcome w L w' (.ready (.ok ())) L' e₁) (halive : e = false)
      (hbuffer : w'.buffer = []) : FlushOutcome w L e w' (.ready (.ok ())) L' e'
  | started {w₁ w' : S3UploadWriter} {a : Poll (Except IoError Unit)} {L₁ L' : Ledger}
      {e₁ e' : Bool} (hparked : PendingOutcome w L w₁ (.ready (.ok ())) L₁ e₁)
      (halive : e = false) (hbuffer : w₁.buffer ≠ []) (hsender : w₁.sender = true)
      (hstart : StartOutcome { w₁ with buffer := [] } w₁.buffer L₁ w' a L' e') :
      FlushOutcome w L e w' a L' e'

/-- What `poll_shutdown` comes to. -/
inductive ShutdownOutcome (w : S3UploadWriter) (L : Ledger) (e : Bool) :
    S3UploadWriter → Poll (Except IoError Unit) → Ledger → Bool → Prop
  | already {e' : Bool} (hsender : w.sender = false) :
      ShutdownOutcome w L e w (.ready (.ok ())) L e'
  | waiting {w' : S3UploadWriter} {L' : Ledger} {e' : Bool} (hsender : w.sender = true)
      (hflush : FlushOutcome w L e w' .pending L' e') : ShutdownOutcome w L e w' .pending L' e'
  | failed {w' : S3UploadWriter} {err : IoError} {L' : Ledger} {e' : Bool}
      (hsender : w.sender = true) (hflush : FlushOutcome w L e w' (.ready (.error err)) L' e') :
      ShutdownOutcome w L e w' (.ready (.error err)) L' e'
  | ended {w' : S3UploadWriter} {L' : Ledger} {e₁ e' : Bool} (hsender : w.sender = true)
      (hflush : FlushOutcome w L e w' (.ready (.ok ())) L' e₁) :
      ShutdownOutcome w L e { w' with sender := false } (.ready (.ok ()))
        L'.endBody.dropSender e'

/-- The ledger once a writer was dropped. -/
def Ledger.dropWriter (L : Ledger) (w : S3UploadWriter) : Ledger :=
  let L := if w.sender then L.endBody.dropSender else L
  if w.pending.isSome then L.dropSender else L

/-- The functions of the writer that a caller polls. -/
inductive Call where
  | write (buf : Bytes)
  | flush
  | shutdown
  deriving DecidableEq, Repr

/-- The answer of any call; a flush or a shutdown counts no bytes. -/
abbrev Answer : Type := Poll (Except IoError Nat)

/-- The answer of a flush or a shutdown among the answers of all calls. -/
def unitAnswer : Poll (Except IoError Unit) → Answer
  | .pending => .pending
  | .ready (.ok ()) => .ready (.ok 0)
  | .ready (.error err) => .ready (.error err)

/-- The bytes a call returned as written. -/
def Call.acknowledged : Call → Answer → Bytes
  | .write buf, .ready (.ok n) => buf.take n
  | _, _ => []

/-- What any call comes to. -/
inductive CallOutcome (w : S3UploadWriter) (L : Ledger) (e : Bool) :
    Call → S3UploadWriter → Answer → Ledger → Bool → Prop
  | write {buf : Bytes} {w' : S3UploadWriter} {a : Answer} {L' : Ledger} {e' : Bool}
      (h : WriteOutcome w buf L e w' a L' e') : CallOutcome w L e (.write buf) w' a L' e'
  | flush {w' : S3UploadWriter} {a : Poll (Except IoError Unit)} {L' : Ledger} {e' : Bool}
      (h : FlushOutcome w L e w' a L' e') : CallOutcome w L e .flush w' (unitAnswer a) L' e'
  | shutdown {w' : S3UploadWriter} {a : Poll (Except IoError Unit)} {L' : Ledger} {e' : Bool}
      (h : ShutdownOutcome w L e w' a L' e') :
      CallOutcome w L e .shutdown w' (unitAnswer a) L' e'

/-- A call of the writer, as a program. -/
def S3UploadWriter.call (w : S3UploadWriter) : Call → Prog (S3UploadWriter × Answer)
  | .write buf => w.pollWrite buf
  | .flush => do
    let (w, a) ← w.pollFlush
    return (w, unitAnswer a)
  | .shutdown => do
    let (w, a) ← w.pollShutdown
    return (w, unitAnswer a)

/-- The bytes a call is offered. -/
def Call.offered : Call → Bytes
  | .write buf => buf
  | _ => []

/-- Only `poll_shutdown` may end the body. -/
def Call.mode : Call → Mode
  | .shutdown => .ending
  | _ => .polling

theorem Call.mode_ne_dropping (c : Call) : c.mode ≠ .dropping := by
  cases c <;> simp [Call.mode]

end MyS3.Upload
