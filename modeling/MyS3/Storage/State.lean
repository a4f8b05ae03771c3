import MyS3.Signing.Authorization
import MyS3.Signing.Verify
import MyS3.Storage.Object

/-!
# A request at the storage

The head of a request arms what was prepared for it, its body is read as far as that allows,
and the two are served. Only a `PUT` that arrived whole and is answered with a 2xx is stored.
-/

namespace MyS3.Storage

open Xml (bytesOf parseU64 eqIgnoreAsciiCase)

/-- One queued answer. -/
structure Reply where
  statusCode : Nat
  body : Bytes
  lieAboutLength : Option Nat
  deriving DecidableEq, Repr

/-- `Response::from(reply)`. -/
def Reply.response (reply : Reply) : Response where
  statusCode := reply.statusCode
  body := reply.body
  contentType := "application/xml"
  extraHeaders := []
  lieAboutLength := reply.lieAboutLength

/-- The head of a request: its line and its fields. -/
structure Head where
  method : String
  target : Bytes
  headers : List Header
  deriving DecidableEq, Repr

/-- The length that a head declares. -/
def Head.contentLength (head : Head) : Nat :=
  ((findHeader head.headers "content-length").bind fun value => parseU64 value.toList).getD 0

/-- Everything one request looked like once it arrived. -/
structure Captured where
  head : Head
  body : Bytes
  bodyComplete : Bool
  signatureValid : Bool
  deriving DecidableEq, Repr

structure State where
  replies : List Reply
  captured : List Captured
  objects : Paths
  uploaded : Paths
  abortAfter : Option Nat
  answerAfter : Option (Nat × Reply)

/-- A storage that was just started. -/
def State.start : State where
  replies := []
  captured := []
  objects := ∅
  uploaded := ∅
  abortAfter := none
  answerAfter := none

/-- `put_object`. -/
def State.putObject (state : State) (path content : Bytes) : State :=
  { state with objects := state.objects.insert path content }

/-- What was prepared for the request whose head has been read. -/
structure Armed where
  abortAfter : Option Nat
  answerAfter : Option (Nat × Reply)
  deriving DecidableEq, Repr

/-- Armed once, consumed once. -/
def State.arm (state : State) : State × Armed :=
  ({ state with abortAfter := none, answerAfter := none }, ⟨state.abortAfter, state.answerAfter⟩)

/-- How much of a body is read. -/
def Armed.wanted (armed : Armed) (contentLength : Nat) : Nat :=
  match armed.abortAfter.or (armed.answerAfter.map Prod.fst) with
  | some afterBytes => min contentLength afterBytes
  | none => contentLength

/-- The fields of a head that a signature covers or is; of the credential only the region is
read. -/
def Head.signed (head : Head) (body : Bytes) : Option SignedRequest := do
  let authorization ← findHeader head.headers "authorization"
  let host ← findHeader head.headers "host"
  let payloadHash ← findHeader head.headers "x-amz-content-sha256"
  let timestamp ← findHeader head.headers "x-amz-date"
  let (scopeRegion, signature) ← readAuthorization (bytesOf authorization)
  return {
    method := bytesOf head.method
    target := head.target
    host := bytesOf host
    payloadHash := bytesOf payloadHash
    timestamp := bytesOf timestamp
    authorization := ⟨"", [], scopeRegion, signature⟩
    body := body }

/-- `verify_signature`, from the text of the head on. -/
def verifySignature (H : Hashes) (secretKey : String) (head : Head) (body : Bytes) : Bool :=
  (head.signed body).any (MyS3.verifySignature H secretKey)

/-- `eq_ignore_ascii_case` on the method. -/
def Head.isMethod (head : Head) (method : String) : Bool :=
  eqIgnoreAsciiCase head.method.toList method.toList

/-- The capture of a request. -/
def Head.capture (H : Hashes) (secretKey : String) (head : Head) (body : Bytes) : Captured where
  head := head
  body := body
  bodyComplete := body.length == head.contentLength
  signatureValid := verifySignature H secretKey head body

/-- The answer to a request: a queued reply, else what the objects give, else an empty 200. -/
def State.answer (state : State) (head : Head) : State × Response :=
  match state.replies with
  | reply :: replies => ({ state with replies := replies }, reply.response)
  | [] => (state, (serveFromObjects state.objects head.method head.target
      (findHeader head.headers "range")).getD .emptyOk)

/-- Whether a request that was answered so has written its object. -/
def stores (head : Head) (body : Bytes) (statusCode : Nat) : Bool :=
  head.isMethod "PUT" && body.length == head.contentLength && isSuccess statusCode

/-- What the storage does with a request as far as it was read: its state, and the answer
that is written if there is one. -/
def State.serve (H : Hashes) (secretKey : String) (state : State) (armed : Armed) (head : Head)
    (body : Bytes) : State × Option Written :=
  let captured := state.captured ++ [head.capture H secretKey body]
  let state := { state with captured := captured }
  let answeringAHead := head.isMethod "HEAD"
  if armed.abortAfter.isSome then (state, none)
  else
    match armed.answerAfter with
    | some (_, reply) => (state, some (writeResponse reply.response answeringAHead))
    | none =>
      let (state, response) := state.answer head
      let state :=
        if stores head body response.statusCode then
          { state with uploaded := state.uploaded.insert (pathOf head.target) body }
        else state
      (state, some (writeResponse response answeringAHead))

/-- One request from its head to its answer, of whose body this much arrives. The body is framed
by `Content-Length`; a chunked one, which the client never sends, is not served here. -/
def State.exchange (H : Hashes) (secretKey : String) (state : State) (head : Head)
    (arrived : Bytes) : State × Option Written :=
  let (state, armed) := state.arm
  state.serve H secretKey armed head (arrived.take (armed.wanted head.contentLength))

variable {H : Hashes} {secretKey : String} {state : State} {armed : Armed} {head : Head}
  {body arrived : Bytes}

/-- Everything that serving a request can be. -/
inductive State.Serves (H : Hashes) (secretKey : String) (state : State) (armed : Armed)
    (head : Head) (body : Bytes) : State × Option Written → Prop
  /-- The connection is dropped in the middle of the request. -/
  | hungUp (harmed : armed.abortAfter.isSome = true) :
      Serves H secretKey state armed head body
        ({ state with captured := state.captured ++ [head.capture H secretKey body] }, none)
  /-- The request is refused before its body is in. -/
  | refused {afterBytes : Nat} {reply : Reply} (harmed : armed.abortAfter = none)
      (hreply : armed.answerAfter = some (afterBytes, reply)) :
      Serves H secretKey state armed head body
        ({ state with captured := state.captured ++ [head.capture H secretKey body] },
          some (writeResponse reply.response (head.isMethod "HEAD")))
  /-- The request is answered, and its body is what the path holds from now on. -/
  | stored (harmed : armed = ⟨none, none⟩)
      (hstores : stores head body (state.answer head).2.statusCode = true) :
      Serves H secretKey state armed head body
        ({ (state.answer head).1 with
            captured := state.captured ++ [head.capture H secretKey body]
            uploaded := state.uploaded.insert (pathOf head.target) body },
          some (writeResponse (state.answer head).2 (head.isMethod "HEAD")))
  /-- The request is answered, and nothing is written. -/
  | answered (harmed : armed = ⟨none, none⟩)
      (hstores : stores head body (state.answer head).2.statusCode = false) :
      Serves H secretKey state armed head body
        ({ (state.answer head).1 with
            captured := state.captured ++ [head.capture H secretKey body] },
          some (writeResponse (state.answer head).2 (head.isMethod "HEAD")))

/-- An answer only takes a reply off the queue. -/
theorem State.answer_cases (state : State) (head : Head) :
    ∃ replies, replies <:+ state.replies ∧
      (state.answer head).1 = { state with replies := replies } ∧
      ∀ captured, State.answer { state with captured := captured } head =
        ({ state with captured := captured, replies := replies }, (state.answer head).2) := by
  unfold answer
  cases hreplies : state.replies with
  | nil =>
    refine ⟨[], List.suffix_refl [], ?_, fun captured => ?_⟩ <;> simp [← hreplies]
  | cons reply replies => exact ⟨replies, List.suffix_cons reply replies, rfl, fun _ => rfl⟩

/-- The storage serves a request in no other way. -/
theorem State.serves (state : State) (armed : Armed) (head : Head) (body : Bytes)
    (secretKey : String) :
    state.Serves H secretKey armed head body (state.serve H secretKey armed head body) := by
  obtain ⟨replies, -, hstate, hanswer⟩ := state.answer_cases head
  unfold serve
  by_cases habort : armed.abortAfter.isSome = true
  · rw [if_pos habort]
    exact .hungUp habort
  · rw [if_neg habort]
    have hnone : armed.abortAfter = none := by simpa using habort
    cases hearly : armed.answerAfter with
    | some early => exact .refused hnone hearly
    | none =>
      have harmed : armed = ⟨none, none⟩ := by
        cases armed
        cases hnone
        cases hearly
        rfl
      dsimp only
      rw [hanswer]
      cases hstores : stores head body (state.answer head).2.statusCode with
      | true =>
        have hcase : state.Serves H secretKey armed head body _ := .stored harmed hstores
        rw [hstate] at hcase
        simpa only [if_true] using hcase
      | false =>
        have hcase : state.Serves H secretKey armed head body _ := .answered harmed hstores
        rw [hstate] at hcase
        simpa only [Bool.false_eq_true, if_false] using hcase

/-- Serving a request captures it, and neither seeds an object nor arms anything. -/
theorem State.serve_frame (state : State) (armed : Armed) (head : Head) (body : Bytes)
    (secretKey : String) :
    let out := (state.serve H secretKey armed head body).1
    out.captured = state.captured ++ [head.capture H secretKey body] ∧
      out.objects = state.objects ∧ out.abortAfter = state.abortAfter ∧
      out.answerAfter = state.answerAfter ∧ out.replies <:+ state.replies := by
  obtain ⟨replies, hreplies, hstate, -⟩ := state.answer_cases head
  have hserves := state.serves (H := H) armed head body secretKey
  generalize state.serve H secretKey armed head body = out at hserves
  cases hserves with
  | hungUp harmed => exact ⟨rfl, rfl, rfl, rfl, List.suffix_refl _⟩
  | refused harmed hreply => exact ⟨rfl, rfl, rfl, rfl, List.suffix_refl _⟩
  | stored harmed hstores => simpa only [hstate, true_and] using hreplies
  | answered harmed hstores => simpa only [hstate, true_and] using hreplies

/-- One capture for every request that is served. -/
theorem State.captured_exchange (state : State) (head : Head) (arrived : Bytes) :
    (state.exchange H secretKey head arrived).1.captured = state.captured ++
      [head.capture H secretKey (arrived.take (state.arm.2.wanted head.contentLength))] :=
  (state.arm.1.serve_frame state.arm.2 head _ secretKey).1

end MyS3.Storage
