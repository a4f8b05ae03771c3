import Mathlib.Algebra.Group.Int.Defs
import Mathlib.Algebra.Group.Nat.Defs
import MyS3.Error

/-!
# `S3Reader`

`poll_read`, `start_seek` and `poll_complete`, and the body of a ranged `GET` as the
request's future collects it. What polling that future comes to is an argument of
`poll_read`.
-/

namespace MyS3.Reader

/-- A response body being read: its declared length, what was received, and the items
that the connection still delivers. -/
structure S3DownloadStream where
  contentLength : Option Nat
  received : Nat
  items : List (Except S3Error Bytes)
  deriving DecidableEq

/-- The end of a body is an error when less arrived than was declared. -/
def endOfStream (contentLength : Option Nat) (received : Nat) : Except S3Error Unit :=
  match contentLength with
  | some expected =>
    if received < expected then
      .error (.other s!"Download ended after {received} of the {expected} bytes the storage said the object has")
    else .ok ()
  | none => .ok ()

/-- The loop over `get_next_chunk`: it stops behind the first chunk that makes the body
longer than was requested. -/
def collect (requested : Nat) (contentLength : Option Nat) :
    List (Except S3Error Bytes) → Nat → Bytes → Except S3Error Bytes
  | [], received, body => (endOfStream contentLength received).map fun _ => body
  | .error err :: _, _, _ => .error err
  | .ok chunk :: items, received, body =>
    if requested < (body ++ chunk).length then .ok (body ++ chunk)
    else collect requested contentLength items (received + chunk.length) (body ++ chunk)

/-- A ranged `GET` in flight: where it starts and how much it was asked for. -/
structure PendingRead where
  start : Nat
  requested : Nat
  deriving DecidableEq, Repr

/-- The inclusive end of the range. -/
def PendingRead.last (p : PendingRead) : Nat := p.start + p.requested - 1

/-- What the future of a request resolves to, from the response to its range. -/
def PendingRead.body (p : PendingRead) (response : Except S3Error S3DownloadStream) :
    Except S3Error Bytes :=
  response.bind fun stream =>
    collect p.requested stream.contentLength stream.items stream.received []

/-- One object as a random-access source. -/
structure S3Reader where
  bucketName : String
  key : String
  size : Nat
  position : Nat
  pending : Option PendingRead
  leftover : Bytes
  seekTo : Option Nat
  deriving DecidableEq, Repr

/-- A 64-bit addition, as a release build computes it. -/
def addU64 (a b : Nat) : Nat := (a + b) % 2 ^ 64

namespace S3Reader

def new (bucketName key : String) (size : Nat) : S3Reader where
  bucketName := bucketName
  key := key
  size := size
  position := 0
  pending := none
  leftover := []
  seekTo := none

/-- Hands over what fits of the leftover and advances the position by as much. -/
def drainLeftover (r : S3Reader) (remaining : Nat) : S3Reader × Bytes :=
  let taken := min r.leftover.length remaining
  ({ r with leftover := r.leftover.drop taken, position := addU64 r.position taken },
    r.leftover.take taken)

/-- The one ranged `GET` a read needs. -/
def startRead (r : S3Reader) (remaining : Nat) : PendingRead where
  start := r.position
  requested := min remaining (r.size - r.position)

/-- The request that a read without leftover polls. -/
def request (r : S3Reader) (remaining : Nat) : Option PendingRead :=
  match r.pending with
  | some pending => some pending
  | none =>
    if r.size ≤ r.position ∨ remaining = 0 then none else some (r.startRead remaining)

/-- The text for a body of the wrong length. -/
def wrongLength (r : S3Reader) (requested delivered : Nat) : String :=
  s!"S3Reader: asked {r.bucketName}/{r.key} for {requested} bytes at offset {r.position} and the body was {delivered} bytes"

end S3Reader

/-- `to_io_error`: a missing key is a missing file. -/
def toIoError (err : S3Error) : IoError :=
  if err.isKeyNotFound then ⟨.notFound, err.display⟩ else .other err.display

namespace S3Reader

/-- What `poll_read` does with the body of its request. -/
def deliver (r : S3Reader) (remaining requested : Nat) :
    Except S3Error Bytes → S3Reader × Bytes × Except IoError Unit
  | .error err => (r, [], .error (toIoError err))
  | .ok body =>
    if body.length < requested then
      (r, [], .error ⟨.unexpectedEof, r.wrongLength requested body.length⟩)
    else if requested < body.length then
      (r, [], .error ⟨.invalidData, r.wrongLength requested body.length⟩)
    else
      let (r, handed) := drainLeftover { r with leftover := body } remaining
      (r, handed, .ok ())

/-- `AsyncRead::poll_read` into a buffer with `remaining` bytes of room: the reader, what
was put into the buffer, and the answer. -/
def pollRead (r : S3Reader) (remaining : Nat)
    (polled : Poll (Except S3Error S3DownloadStream)) :
    S3Reader × Bytes × Poll (Except IoError Unit) :=
  if r.leftover ≠ [] then
    let (r, handed) := r.drainLeftover remaining
    (r, handed, .ready (.ok ()))
  else
    match r.request remaining, polled with
    | none, _ => (r, [], .ready (.ok ()))
    | some pending, .pending => ({ r with pending := some pending }, [], .pending)
    | some pending, .ready response =>
      let (r, handed, answer) :=
        deliver { r with pending := none } remaining pending.requested (pending.body response)
      (r, handed, .ready answer)

variable {r : S3Reader} {remaining : Nat} {polled : Poll (Except S3Error S3DownloadStream)}
  {response : Except S3Error S3DownloadStream} {p : PendingRead}

theorem pollRead_leftover (h : r.leftover ≠ []) : r.pollRead remaining polled =
    ((r.drainLeftover remaining).1, (r.drainLeftover remaining).2, .ready (.ok ())) := by
  simp only [pollRead, if_pos h]

theorem pollRead_none (h : r.leftover = []) (hrequest : r.request remaining = none) :
    r.pollRead remaining polled = (r, [], .ready (.ok ())) := by
  simp only [pollRead, h, ne_eq, not_true_eq_false, if_false, hrequest]

theorem pollRead_pending (h : r.leftover = []) (hrequest : r.request remaining = some p) :
    r.pollRead remaining .pending = ({ r with pending := some p }, [], .pending) := by
  simp only [pollRead, h, ne_eq, not_true_eq_false, if_false, hrequest]

theorem pollRead_ready (h : r.leftover = []) (hrequest : r.request remaining = some p) :
    r.pollRead remaining (.ready response) =
      let out := deliver { r with pending := none } remaining p.requested (p.body response)
      (out.1, out.2.1, .ready out.2.2) := by
  simp only [pollRead, h, ne_eq, not_true_eq_false, if_false, hrequest]

end S3Reader

/-- `std::io::SeekFrom`. -/
inductive SeekFrom where
  | start (offset : UInt64)
  | current (delta : Int64)
  | «end» (delta : Int64)
  deriving DecidableEq

/-- A relative seek, computed where nothing wraps. -/
def resolveOffset (base : Nat) (delta : Int) (baseName : String) : Except IoError Nat :=
  let target : Int := base + delta
  if target < 0 then
    .error ⟨.invalidInput, s!"S3Reader: seeking {delta} from the {baseName} ({base}) lands at {target}, before the start of the object"⟩
  else if 2 ^ 64 - 1 < target then
    .error ⟨.invalidInput, s!"S3Reader: seeking {delta} from the {baseName} ({base}) overflows a 64-bit offset"⟩
  else .ok target.toNat

namespace S3Reader

/-- Where a seek is going to. -/
def target (r : S3Reader) : SeekFrom → Except IoError Nat
  | .start offset => .ok offset.toNat
  | .current delta => resolveOffset r.position delta.toInt "current position"
  | .end delta => resolveOffset r.size delta.toInt "end of the object"

/-- `AsyncSeek::start_seek`. A request in flight refuses it. -/
def startSeek (r : S3Reader) (position : SeekFrom) : S3Reader × Except IoError Unit :=
  if r.pending.isSome then
    (r, .error (.other "S3Reader: cannot seek while a read is still in flight - poll the read to completion before seeking"))
  else if r.seekTo.isSome then
    (r, .error (.other "S3Reader: a seek is already in progress - poll_complete it before starting another"))
  else
    match r.target position with
    | .error err => (r, .error err)
    | .ok target => ({ r with seekTo := some target }, .ok ())

/-- `AsyncSeek::poll_complete`: applies the seek, if there is one. -/
def pollComplete (r : S3Reader) : S3Reader × Nat :=
  match r.seekTo with
  | some target =>
    ({ r with seekTo := none, position := target, leftover := [] }, target)
  | none => (r, r.position)

end S3Reader

/-- The calls of a reader, each with what its environment answers. -/
inductive ReaderLabel where
  | pollRead (remaining : Nat) (polled : Poll (Except S3Error S3DownloadStream))
  | startSeek (position : SeekFrom)
  | pollComplete

/-- One call; every call is always possible. -/
def S3Reader.step (r : S3Reader) : ReaderLabel → Option S3Reader
  | .pollRead remaining polled => some (r.pollRead remaining polled).1
  | .startSeek position => some (r.startSeek position).1
  | .pollComplete => some r.pollComplete.1

end MyS3.Reader
