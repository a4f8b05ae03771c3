import MyS3.Client.Operation
import MyS3.Storage.State
import MyS3.Xml.Number

/-!
# Between the client and the storage

A transport carries a request to the storage and its answer back, or fails. It may repeat a
request, lose an answer and break off a body anywhere; what it does deliver is what was sent.
-/

namespace MyS3.Storage

open Xml (bytesOf eqIgnoreAsciiCase fromUtf8 bytesOf_of_fromUtf8 parseU64 parseU64_toString)
open Client

/-- A head that carries what the client has put into a request. -/
structure Carries (request : Request) (content : Bytes) (head : Head) : Prop where
  method : bytesOf head.method = request.verb
  target : head.target = request.signed.target
  host : (findHeader head.headers "host").map bytesOf = some request.signed.host
  payloadHash : (findHeader head.headers "x-amz-content-sha256").map bytesOf =
    some request.signed.payloadHash
  timestamp : (findHeader head.headers "x-amz-date").map bytesOf = some request.signed.timestamp
  authorization : (findHeader head.headers "authorization").map bytesOf =
    some request.signed.authorization.text
  range : findHeader head.headers "range" = request.range
  contentLength : head.contentLength = content.length

/-- The head that a plain transport writes for a request. -/
def headOf (request : Request) (content : Bytes) : Head :=
  let text (bytes : Bytes) : String := (fromUtf8 bytes).getD ""
  { method := text request.verb
    target := request.signed.target
    headers :=
      [("Host", text request.signed.host), ("Content-Length", toString content.length),
        ("X-Amz-Content-Sha256", text request.signed.payloadHash),
        ("X-Amz-Date", text request.signed.timestamp),
        ("Authorization", text request.signed.authorization.text)] ++
          request.range.toList.map fun range => ("Range", range) }

/-- Every field of a request is a text. -/
def IsText (request : Request) : Prop :=
  ∀ bytes ∈ [request.verb, request.signed.host, request.signed.payloadHash,
    request.signed.timestamp, request.signed.authorization.text], (fromUtf8 bytes).isSome

instance (request : Request) : Decidable (IsText request) :=
  inferInstanceAs (Decidable (∀ bytes ∈ _, _))

/-- A head can carry any request whose fields are texts. -/
theorem carries_headOf {request : Request} {content : Bytes} (hlength : content.length < 2 ^ 64)
    (htext : IsText request) : Carries request content (headOf request content) := by
  have hbytes : ∀ {bytes : Bytes}, (fromUtf8 bytes).isSome → bytesOf ((fromUtf8 bytes).getD "") =
      bytes := by
    intro bytes hsome
    obtain ⟨text, hvalid⟩ := Option.isSome_iff_exists.mp hsome
    rw [hvalid, Option.getD_some]
    exact bytesOf_of_fromUtf8 hvalid
  simp only [IsText, List.forall_mem_cons] at htext
  obtain ⟨hverb, hhost, hhash, htime, hauthorization, -⟩ := htext
  constructor
  · exact hbytes hverb
  · rfl
  · simp [headOf, eqIgnoreAsciiCase, hbytes hhost]
  · simp [headOf, eqIgnoreAsciiCase, hbytes hhash]
  · simp [headOf, eqIgnoreAsciiCase, hbytes htime]
  · simp [headOf, eqIgnoreAsciiCase, hbytes hauthorization]
  · cases hrange : request.range <;> simp [headOf, eqIgnoreAsciiCase, hrange]
  · have hfound : findHeader (headOf request content).headers "content-length" =
        some (toString content.length) := by
      simp [headOf, eqIgnoreAsciiCase]
    rw [Head.contentLength, hfound, Option.bind_some, parseU64_toString hlength, Option.getD_some]

/-- The pieces in which a body arrives: all of it, or a part with an error behind it. -/
inductive Arrives (content : Bytes) : List (Except FlUrlError Bytes) → Prop
  | whole {chunks : List Bytes} (h : chunks.flatten = content) : Arrives content (chunks.map .ok)
  | broken {chunks : List Bytes} {err : FlUrlError} {rest : List (Except FlUrlError Bytes)}
      (h : chunks.flatten <+: content) : Arrives content (chunks.map .ok ++ .error err :: rest)

/-- Up to the first error the pieces are the front of the content. -/
theorem Arrives.pieces {content : Bytes} {items : List (Except FlUrlError Bytes)}
    (h : Arrives content items) :
    ∃ (chunks : List Bytes) (rest : List (Except FlUrlError Bytes)),
      items = chunks.map .ok ++ rest ∧ chunks.flatten <+: content ∧
        (∀ chunk, rest.head? ≠ some (.ok chunk)) := by
  cases h with
  | whole hwhole =>
    exact ⟨_, [], (List.append_nil _).symm, hwhole ▸ List.prefix_refl _, fun _ => nofun⟩
  | broken hpart => exact ⟨_, _, rfl, hpart, fun _ => nofun⟩

/-- Any pieces that arrive in front of others are the front of the content. -/
theorem Arrives.prefix_of_append {content : Bytes} {chunks : List Bytes}
    {rest : List (Except FlUrlError Bytes)} (h : Arrives content (chunks.map .ok ++ rest)) :
    chunks.flatten <+: content := by
  obtain ⟨all, behind, hitems, hprefix, hbehind⟩ := h.pieces
  have hfront : ∀ {chunks all : List Bytes},
      chunks.map Except.ok ++ rest = all.map Except.ok ++ behind → chunks <+: all := by
    intro chunks
    induction chunks with
    | nil => exact fun _ => List.nil_prefix
    | cons chunk chunks ih =>
      intro all hall
      cases all with
      | nil =>
        rw [List.map_nil, List.nil_append] at hall
        exact absurd (congrArg List.head? hall.symm) (hbehind chunk)
      | cons first all =>
        simp only [List.map_cons, List.cons_append, List.cons.injEq, Except.ok.injEq] at hall
        rw [hall.1]
        exact (List.prefix_cons_inj first).mpr (ih hall.2)
  obtain ⟨others, rfl⟩ := hfront hitems
  rw [List.flatten_append] at hprefix
  exact (List.prefix_append _ _).trans hprefix

/-- Without an error the pieces are the content. -/
theorem Arrives.flatten_eq {content : Bytes} {chunks : List Bytes}
    (h : Arrives content (chunks.map .ok)) : chunks.flatten = content := by
  generalize hitems : chunks.map (Except.ok (ε := FlUrlError)) = items at h
  cases h with
  | whole hwhole =>
    have hinj : Function.Injective (Except.ok (ε := FlUrlError) (α := Bytes)) :=
      fun _ _ heq => Except.ok.inj heq
    rw [List.map_injective_iff.mpr hinj hitems, hwhole]
  | broken hpart =>
    rename_i parts err rest
    have hmem : Except.error err ∈ chunks.map (Except.ok (ε := FlUrlError)) := by
      rw [hitems]
      simp
    obtain ⟨chunk, -, hchunk⟩ := List.mem_map.mp hmem
    cases hchunk

/-- What belongs to an answer of the bytes behind its head: no more than it declares. -/
def Written.delimited (written : Written) : Bytes :=
  match (findHeader written.headers "content-length").bind fun value => parseU64 value.toList with
  | some declaredLength => written.body.take declaredLength
  | none => written.body

/-- An answer of which as much was written as it declares. -/
theorem delimited_of_length {written : Written} {n : Nat} (hn : n < 2 ^ 64)
    (hlength : findHeader written.headers "content-length" = some (toString n)) :
    written.delimited = written.body.take n := by
  simp only [Written.delimited, hlength, Option.bind_some, parseU64_toString hn]

/-- Of an empty body nothing is read. -/
theorem delimited_of_nil {written : Written} (h : written.body = []) : written.delimited = [] := by
  unfold Written.delimited
  split <;> simp [h]

/-- An answer as it was written, read by the client. -/
structure Reads (written : Written) (response : FlUrlResponse) : Prop where
  statusCode : response.statusCode = written.statusCode
  header : ∀ name, response.getHeaderCaseInsensitive name = findHeader written.headers name
  items : ∀ body, response.getBody = .ok body → Arrives written.delimited body.items
  intoVec : ∀ body limit bytes, response.getBody = .ok body → body.intoVec limit = .ok bytes →
    bytes = written.delimited

/-- The response that a plain transport reads: the body in one piece. -/
def responseOf (written : Written) : FlUrlResponse where
  statusCode := written.statusCode
  getHeaderCaseInsensitive := findHeader written.headers
  getBody := .ok {
    items := [.ok written.delimited]
    intoVec limit :=
      if written.delimited.length ≤ limit then .ok written.delimited
      else .error ⟨false, .unlisted, "PayloadTooLarge"⟩ }

theorem reads_responseOf (written : Written) : Reads written (responseOf written) := by
  constructor
  · rfl
  · exact fun name => rfl
  · intro body hbody
    cases hbody
    exact .whole (List.flatten_singleton (l := written.delimited))
  · intro body limit bytes hbody hvec
    cases hbody
    simp only at hvec
    split at hvec
    · cases hvec
      rfl
    · cases hvec

section Exchange

variable (H : Hashes) (secretKey : String)

/-- A request on its way, over any number of attempts. -/
inductive Exchange (request : Request) (content : Bytes) :
    State → Except FlUrlError FlUrlResponse → State → Prop
  /-- The transport gives up. -/
  | failed {state : State} (err : FlUrlError) : Exchange request content state (.error err) state
  /-- The answer of the storage is read. -/
  | read {state state' : State} {head : Head} {written : Written} {response : FlUrlResponse}
      (hcarries : Carries request content head)
      (hserved : state.exchange H secretKey head content = (state', some written))
      (hreads : Reads written response) : Exchange request content state (.ok response) state'
  /-- An attempt reaches the storage, with a part of its body, and its answer is lost. -/
  | again {state state' : State} {head : Head} {arrived : Bytes}
      {result : Except FlUrlError FlUrlResponse} (hcarries : Carries request content head)
      (harrived : arrived <+: content)
      (hrest : Exchange request content (state.exchange H secretKey head arrived).1 result state') :
      Exchange request content state result state'

/-- A call of the client against the storage. -/
inductive Performs {α : Type} (operation : Operation α) :
    State → Except S3Error α → State → Prop
  /-- Nothing is sent. -/
  | unsent {state : State} {err : S3Error} (hrequest : operation.request = .error err) :
      Performs operation state (.error err) state
  | sent {state state' : State} {request : Request} {content : Bytes}
      {answer : Except FlUrlError FlUrlResponse} (hrequest : operation.request = .ok request)
      (hsends : request.body.Sends content)
      (hexchange : Exchange H secretKey request content state answer state') :
      Performs operation state (operation.run fun _ => answer) state'

end Exchange

variable {H : Hashes} {secretKey : String} {request : Request} {content : Bytes}
  {state state' : State} {answer : Except FlUrlError FlUrlResponse} {α : Type}
  {operation : Operation α} {result : Except S3Error α}

/-- What every serving of a request keeps is kept by the whole exchange. -/
theorem Exchange.keeps {I : State → Prop}
    (h : Exchange H secretKey request content state answer state')
    (hstate : I state) (hserve : ∀ {state head arrived}, Carries request content head →
      arrived <+: content → I state → I (state.exchange H secretKey head arrived).1) : I state' := by
  induction h with
  | failed err => exact hstate
  | read hcarries hserved hreads =>
    have hkept := hserve hcarries (List.prefix_refl content) hstate
    rwa [hserved] at hkept
  | again hcarries harrived hrest ih => exact ih (hserve hcarries harrived hstate)

/-- What is read is an answer of the storage, in a state with whatever every serving keeps. -/
theorem Exchange.answered {I : State → Prop} {response : FlUrlResponse}
    (h : Exchange H secretKey request content state (.ok response) state')
    (hstate : I state) (hserve : ∀ {state head arrived}, Carries request content head →
      arrived <+: content → I state → I (state.exchange H secretKey head arrived).1) :
    ∃ before head written, I before ∧ Carries request content head ∧
      before.exchange H secretKey head content = (state', some written) ∧
      Reads written response := by
  generalize hanswer : (Except.ok response : Except FlUrlError FlUrlResponse) = answer at h
  induction h with
  | failed err => cases hanswer
  | read hcarries hserved hreads =>
    cases hanswer
    exact ⟨_, _, _, hstate, hcarries, hserved, hreads⟩
  | again hcarries harrived hrest ih => exact ih (hserve hcarries harrived hstate) hanswer

/-- A call that succeeds has concluded so from an answer of the storage. -/
theorem Performs.concluded {I : State → Prop} {a : α}
    (h : Performs H secretKey operation state (.ok a) state') (hstate : I state)
    (hserve : ∀ {request content state head arrived}, operation.request = .ok request →
      request.body.Sends content → Carries request content head → arrived <+: content →
      I state → I (state.exchange H secretKey head arrived).1) :
    ∃ request content before head written response, operation.request = .ok request ∧
      request.body.Sends content ∧ I before ∧ Carries request content head ∧
      before.exchange H secretKey head content = (state', some written) ∧
      Reads written response ∧ operation.conclude response = .ok a := by
  generalize hresult : (Except.ok a : Except S3Error α) = result at h
  cases h with
  | unsent hrequest => cases hresult
  | sent hrequest hsends hexchange =>
    rename_i request content answer
    obtain ⟨request', response, hrequest', rfl, hconclude⟩ := Operation.run_ok hresult.symm
    rw [hrequest] at hrequest'
    cases hrequest'
    obtain ⟨before, head, written, hbefore, hcarries, hserved, hreads⟩ :=
      hexchange.answered hstate (hserve hrequest hsends)
    exact ⟨_, content, before, head, written, response, hrequest, hsends, hbefore, hcarries,
      hserved, hreads, hconclude.trans hresult⟩

end MyS3.Storage
