import MyS3.Answer
import MyS3.Reader.Poll

/-!
# The answer as the client meets it

What `FlUrl` hands over once the head of an answer has arrived, and `S3DownloadStream`, which
passes its body on one chunk at a time and counts what it passes on.
-/

namespace MyS3.Client

open Xml (MyXmlReader trim parseU64)
open Reader (endOfStream)

/-- A `FlUrlBodyReader`: the pieces that `next_item` yields, and what `into_vec` comes to
under a limit. -/
structure FlUrlBody where
  items : List (Except FlUrlError Bytes)
  intoVec : Nat → Except FlUrlError Bytes

/-- A `FlUrlResponse`: the status, what `get_header_case_insensitive` finds, and the body. -/
structure FlUrlResponse where
  statusCode : Nat
  getHeaderCaseInsensitive : String → Option String
  getBody : Except FlUrlError FlUrlBody

/-- The most of an answer that is read into memory. -/
def maxAnswerSize : Nat := 10 * 1024 * 1024

/-- `get_body()?.into_vec(MAX_ANSWER_SIZE).await?`. -/
def FlUrlResponse.readAnswer (response : FlUrlResponse) : Except S3Error Bytes := do
  let body ← response.getBody.mapError .flUrlError
  (body.intoVec maxAnswerSize).mapError .flUrlError

/-- `read_success_body`: the answer is read whatever its status. -/
def readSuccessBody (R : MyXmlReader) (response : FlUrlResponse) : Except S3Error Bytes := do
  let body ← response.readAnswer
  MyS3.readSuccessBody R ⟨response.statusCode, body⟩

/-- `expect_success`. -/
def expectSuccess (R : MyXmlReader) (response : FlUrlResponse) : Except S3Error Unit := do
  let _ ← readSuccessBody R response
  return ()

/-- The number in `Content-Length`, as `from_response` and `get_object_size` read it. -/
def FlUrlResponse.contentLength (response : FlUrlResponse) : Option Nat :=
  (response.getHeaderCaseInsensitive "content-length").bind fun value => parseU64 (trim value)

/-- An object's body, with what its head says of it. -/
structure S3DownloadStream where
  contentLength : Option Nat
  contentType : Option String
  body : List (Except FlUrlError Bytes)
  received : Nat

namespace S3DownloadStream

/-- `from_response`. -/
def fromResponse (response : FlUrlResponse) : Except S3Error S3DownloadStream := do
  let body ← response.getBody.mapError .flUrlError
  return {
    contentLength := response.contentLength
    contentType := response.getHeaderCaseInsensitive "content-type"
    body := body.items
    received := 0 }

/-- `get_next_chunk`. The end of the body is believed only behind the declared length. -/
def getNextChunk (stream : S3DownloadStream) :
    S3DownloadStream × Except S3Error (Option Bytes) :=
  match stream.body with
  | [] => (stream, (endOfStream stream.contentLength stream.received).map fun _ => none)
  | .error err :: body => ({ stream with body := body }, .error (.flUrlError err))
  | .ok chunk :: body =>
    ({ stream with body := body, received := stream.received + chunk.length }, .ok (some chunk))

/-- This many calls of `get_next_chunk`, and their answers. -/
def calls : Nat → S3DownloadStream → S3DownloadStream × List (Except S3Error (Option Bytes))
  | 0, stream => (stream, [])
  | n + 1, stream =>
    let (next, answer) := stream.getNextChunk
    let (last, answers) := calls n next
    (last, answer :: answers)

/-- `while let Some(chunk) = get_next_chunk().await?`, from what was collected so far, until
there is enough. Every turn but the last takes a piece off the body. -/
def collectUntil (enough : Bytes → Bool) : Nat → S3DownloadStream → Bytes → Except S3Error Bytes
  | 0, _, collected => .ok collected
  | n + 1, stream, collected =>
    match stream.getNextChunk with
    | (_, .error err) => .error err
    | (_, .ok none) => .ok collected
    | (next, .ok (some chunk)) =>
      if enough (collected ++ chunk) then .ok (collected ++ chunk)
      else collectUntil enough n next (collected ++ chunk)

/-- A caller that reads the stream to its end. -/
def readToEnd (stream : S3DownloadStream) : Except S3Error Bytes :=
  collectUntil (fun _ => false) (stream.body.length + 1) stream []

/-- The future of a reader's request: a body longer than requested is not read on. -/
def readRequested (stream : S3DownloadStream) (requested : Nat) : Except S3Error Bytes :=
  collectUntil (fun body => requested < body.length) (stream.body.length + 1) stream []

/-- The bytes that the answers of some calls hand over. -/
def handed (answers : List (Except S3Error (Option Bytes))) : Bytes :=
  answers.flatMap fun
    | .ok (some chunk) => chunk
    | _ => []

variable {stream : S3DownloadStream}

theorem calls_succ (n : Nat) (stream : S3DownloadStream) :
    calls (n + 1) stream =
      let first := stream.getNextChunk
      let rest := calls n first.1
      (rest.1, first.2 :: rest.2) := rfl

/-- What one call does: it hands over the next piece and counts it, or it ends or fails and
counts nothing. -/
theorem getNextChunk_cases (stream : S3DownloadStream) :
    (∃ chunk body, stream.body = .ok chunk :: body ∧
      stream.getNextChunk =
        ({ stream with body := body, received := stream.received + chunk.length },
          .ok (some chunk))) ∨
    (∃ err body, stream.body = .error err :: body ∧
      stream.getNextChunk = ({ stream with body := body }, .error (.flUrlError err))) ∨
    stream.body = [] ∧ stream.getNextChunk =
      (stream, (endOfStream stream.contentLength stream.received).map fun _ => none) := by
  unfold getNextChunk
  split
  · exact .inr (.inr ⟨‹_›, rfl⟩)
  · exact .inr (.inl ⟨_, _, ‹_›, rfl⟩)
  · exact .inl ⟨_, _, ‹_›, rfl⟩

/-- An end that is believed lies behind the declared length. -/
theorem declared_le_of_end {contentLength : Option Nat} {received expected : Nat}
    (h : endOfStream contentLength received = .ok ()) (hlength : contentLength = some expected) :
    expected ≤ received := by
  subst hlength
  unfold endOfStream at h
  split at h
  · rename_i heq
    cases heq
    split at h
    · cases h
    · omega
  · rename_i heq
    cases heq

end S3DownloadStream

end MyS3.Client
