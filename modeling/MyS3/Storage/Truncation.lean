import MyS3.Storage.Download

/-!
# Downloads from a storage in any state

Whatever is queued or armed, an object that is read to its end is as long as the answer declared.
An answer that was cut short is never taken for a whole one.
-/

namespace MyS3.Storage

open Xml (bytesOf bytesOf_injective)
open Client
open Client.S3DownloadStream (calls handed)

/-- The length that an answer says it has. -/
def Response.declaredLength (served : Response) : Nat :=
  served.lieAboutLength.getD served.body.length

/-- What a storage may answer to a request, over any number of attempts. -/
inductive State.MayAnswer (state : State) (verb : String) (target : Bytes)
    (range? : Option String) : Response → Prop
  /-- What it is armed to answer before the body is in. -/
  | early {afterBytes : Nat} {reply : Reply} (h : state.answerAfter = some (afterBytes, reply)) :
      MayAnswer state verb target range? reply.response
  | queued {reply : Reply} (h : reply ∈ state.replies) :
      MayAnswer state verb target range? reply.response
  | held : MayAnswer state verb target range?
      ((serveFromObjects state.objects verb target range?).getD .emptyOk)

variable {P : Platform} {H : Hashes} {s3 : S3Client} {timestamp : Bytes} {secretKey : String}
  {state state' : State} {head : Head} {arrived : Bytes} {written : Written} {served : Response}
  {bucketName key : String} {url : UrlBuilder} {verb : String} {target : Bytes}
  {range? : Option String}

/-- A later state of an exchange: replies are taken off the queue, what was armed is gone. -/
structure State.Later (state later : State) : Prop where
  objects : later.objects = state.objects
  replies : later.replies <:+ state.replies
  answerAfter : later.answerAfter = state.answerAfter ∨ later.answerAfter = none

theorem State.Later.exchange {later : State} (h : state.Later later) :
    state.Later (later.exchange H secretKey head arrived).1 := by
  obtain ⟨-, hobjects, -, hanswer, hreplies⟩ := later.arm.1.serve_frame (H := H) later.arm.2 head
    (arrived.take (later.arm.2.wanted head.contentLength)) secretKey
  exact ⟨hobjects.trans h.objects, hreplies.trans h.replies, .inr hanswer⟩

/-- A later state answers nothing else. -/
theorem State.Later.mayAnswer {later : State} (h : state.Later later)
    (hanswer : later.MayAnswer verb target range? served) :
    state.MayAnswer verb target range? served := by
  cases hanswer with
  | early harmed =>
    rcases h.answerAfter with hsame | hnone
    · exact .early (hsame.symm.trans harmed)
    · rw [hnone] at harmed
      cases harmed
  | queued hmem => exact .queued (h.replies.mem hmem)
  | held =>
    rw [h.objects]
    exact .held

/-- What is written is one of the answers that may be given. -/
theorem State.mayAnswer_exchange
    (hwritten : (state.exchange H secretKey head arrived).2 = some written) :
    ∃ served, state.MayAnswer head.method head.target (findHeader head.headers "range") served ∧
      written = writeResponse served (head.isMethod "HEAD") := by
  have hanswered : state.MayAnswer head.method head.target (findHeader head.headers "range")
      (state.arm.1.answer head).2 := by
    cases hreplies : state.replies with
    | nil =>
      simp only [State.answer, State.arm, hreplies]
      exact .held
    | cons reply replies =>
      simp only [State.answer, State.arm, hreplies]
      apply MayAnswer.queued
      rw [hreplies]
      exact List.mem_cons_self
  have hserves := state.arm.1.serves (H := H) state.arm.2 head
    (arrived.take (state.arm.2.wanted head.contentLength)) secretKey
  have hexchange : state.exchange H secretKey head arrived = state.arm.1.serve H secretKey
      state.arm.2 head (arrived.take (state.arm.2.wanted head.contentLength)) := rfl
  rw [hexchange] at hwritten
  generalize state.arm.1.serve H secretKey state.arm.2 head _ = out at hserves hwritten
  cases hserves with
  | hungUp habort => cases hwritten
  | refused habort hreply =>
    cases hwritten
    exact ⟨_, .early hreply, rfl⟩
  | stored _ hstores | answered _ hstores =>
    cases hwritten
    exact ⟨_, hanswered, rfl⟩

/-- An answer to a `GET` as it is written, unless it has no content. -/
theorem writeResponse_of_get (hstatus : served.statusCode ≠ 204) :
    writeResponse served false =
      ⟨served.statusCode, framed served served.declaredLength, served.body⟩ := by
  unfold writeResponse Response.declaredLength
  cases served.lieAboutLength with
  | some declaredLength => rfl
  | none => simp [hstatus]

/-- What the caller of a download can tell of an answer with this body, of which that many bytes
were declared: never more than there is, and an end only where all that was declared is there. -/
structure Bounded (declared : Nat) (body : Bytes) (stream : S3DownloadStream) : Prop where
  calls : ∀ n, (∀ answer ∈ (calls n stream).2, ∃ chunk, answer = .ok chunk) →
    handed (S3DownloadStream.calls n stream).2 <+: body.take declared ∧
      (.ok none ∈ (S3DownloadStream.calls n stream).2 → declared ≤ body.length ∧
        handed (S3DownloadStream.calls n stream).2 = body.take declared)
  readToEnd : ∀ bytes, stream.readToEnd = .ok bytes →
    declared ≤ body.length ∧ bytes = body.take declared

/-- A part of a content that is as long as was declared is all that was declared. -/
theorem take_of_prefix {declared : Nat} {body bytes : Bytes} (hfront : bytes <+: body.take declared)
    (hlength : declared ≤ bytes.length) : declared ≤ body.length ∧ bytes = body.take declared := by
  have hle := hfront.length_le
  rw [List.length_take] at hle
  refine ⟨by omega, hfront.eq_of_length_le ?_⟩
  rw [List.length_take]
  omega

/-- The stream of an answer, as far as it was declared. -/
theorem bounded_of_arrives {declared : Nat} {body : Bytes} {stream : S3DownloadStream}
    (harrives : Arrives (body.take declared) stream.body)
    (hlength : stream.contentLength = some declared) (hreceived : stream.received = 0) :
    Bounded declared body stream := by
  constructor
  · intro n hok
    obtain ⟨chunks, rest, hbody, hfront, hrest⟩ := harrives.pieces
    have hhanded := (S3DownloadStream.handed_prefix hbody hrest hok).trans hfront
    refine ⟨hhanded, fun hend => ?_⟩
    have hdeclared := S3DownloadStream.declared_le_of_mem_calls hlength hend
    rw [hreceived, Nat.zero_add] at hdeclared
    exact take_of_prefix hhanded hdeclared
  · intro bytes hread
    obtain ⟨chunks, hbody, rfl, hend⟩ := S3DownloadStream.readToEnd_eq_ok.mp hread
    have hdeclared := S3DownloadStream.declared_le_of_end hend hlength
    rw [hreceived, Nat.zero_add] at hdeclared
    rw [hbody, ← List.append_nil (chunks.map _)] at harrives
    exact take_of_prefix harrives.prefix_of_append hdeclared

/-- A download of an object, or of a range of it. -/
def download (P : Platform) (s3 : S3Client) (timestamp : Bytes) (bucketName key : String) :
    Option (Nat × Option Nat) → Operation S3DownloadStream
  | none => downloadFile P s3 timestamp bucketName key
  | some (start, last) => downloadFileRange P s3 timestamp bucketName key start last

/-- Both send the request for an object and make a stream of its answer. -/
theorem download_openObject {bounds : Option (Nat × Option Nat)} {request : Request}
    (hrequest : (download P s3 timestamp bucketName key bounds).request = .ok request) :
    (openObject P s3 timestamp bucketName key bounds).request = .ok request ∧
      ∀ response, (download P s3 timestamp bucketName key bounds).conclude response =
        (openObjectAnswer P bounds response >>= S3DownloadStream.fromResponse) := by
  cases bounds with
  | none => exact ⟨hrequest, fun _ => rfl⟩
  | some bounds =>
    obtain ⟨start, last⟩ := bounds
    refine ⟨?_, fun _ => rfl⟩
    simp only [download, downloadFileRange] at hrequest
    split at hrequest
    · cases hrequest
    · exact hrequest

/-- Only an answer with the status that was asked for is made a stream of. -/
theorem status_of_openObject {bounds : Option (Nat × Option Nat)} {response : FlUrlResponse}
    {stream : S3DownloadStream}
    (h : (openObjectAnswer P bounds response >>= S3DownloadStream.fromResponse) = .ok stream) :
    response.statusCode = (if bounds.isSome then 206 else 200) ∧
      S3DownloadStream.fromResponse response = .ok stream := by
  obtain ⟨opened, hopened, hstream⟩ := bind_ok h
  simp only [openObjectAnswer] at hopened
  by_cases hstatus : response.statusCode = if bounds.isSome then 206 else 200
  · rw [if_pos hstatus] at hopened
    cases hopened
    exact ⟨hstatus, hstream⟩
  · rw [if_neg hstatus] at hopened
    split at hopened
    · cases hopened
    · split at hopened
      · cases hopened
      · obtain ⟨_, -, herror⟩ := bind_ok hopened
        cases herror

/-- A download that is cut short is never taken for a whole one. From any state of the storage,
with any replies queued and anything armed, over any number of attempts, and for an object or a
range of it: a stream is made only of an answer that the storage may give and that has the status
that was asked for; call by call it hands over the front of that answer's body; and its end is
told and it is read to its end only where all that was declared is there, and then with exactly
that. -/
theorem download_never_truncated (hurl : objectUrl P s3 bucketName key = .ok url)
    {bounds : Option (Nat × Option Nat)} (hdeclared : ∀ served,
      state.MayAnswer "GET" url.target (bounds.map rangeHeader) served →
        served.declaredLength < 2 ^ 64)
    {stream : S3DownloadStream} (hperforms : Performs H secretKey
      (download P s3 timestamp bucketName key bounds) state (.ok stream) state') :
    ∃ served, state.MayAnswer "GET" url.target (bounds.map rangeHeader) served ∧
      served.statusCode = (if bounds.isSome then 206 else 200) ∧
      Bounded served.declaredLength served.body stream := by
  have hfirst : state.Later state := ⟨rfl, List.suffix_refl _, .inl rfl⟩
  obtain ⟨request, content, before, head, written, response, hrequest, hsends, hlater, hcarries,
    hserved, hreads, hconclude⟩ := hperforms.concluded hfirst fun _ _ _ _ h => h.exchange
  obtain ⟨hopen, hstreams⟩ := download_openObject hrequest
  obtain ⟨request', hrequest', hverb, htarget, hrange⟩ := request_openObject timestamp hurl bounds
  rw [hopen] at hrequest'
  cases hrequest'
  have hmethod : head.method = "GET" := bytesOf_injective (hcarries.method.trans hverb)
  obtain ⟨served, hmay, rfl⟩ := State.mayAnswer_exchange (congrArg Prod.snd hserved)
  rw [hmethod, hcarries.target, htarget, hcarries.range, hrange] at hmay
  have hanswer := hlater.mayAnswer hmay
  rw [hstreams response] at hconclude
  obtain ⟨hstatus, hstream⟩ := status_of_openObject hconclude
  have hget : head.isMethod "HEAD" = false := by
    rw [Head.isMethod, hmethod]
    decide
  rw [hreads.statusCode, statusCode_writeResponse] at hstatus
  have hcontent : served.statusCode ≠ 204 := by
    rw [hstatus]
    split <;> decide
  rw [hget, writeResponse_of_get hcontent] at hreads
  obtain ⟨hlength, -⟩ := findHeader_framed served served.declaredLength
  refine ⟨served, hanswer, hstatus, ?_⟩
  obtain ⟨body, hbody, hmade⟩ := bind_ok hstream
  cases hmade
  have harrives := hreads.items body (mapError_ok hbody)
  rw [delimited_of_length (hdeclared served hanswer) hlength] at harrives
  exact bounded_of_arrives harrives
    (contentLength_of_reads hreads (hdeclared served hanswer) hlength) rfl

/-- A storage with nothing armed answers the first reply of its queue. -/
theorem State.writes_queued {reply : Reply} {replies : List Reply}
    (habort : state.abortAfter = none) (hanswer : state.answerAfter = none)
    (hreplies : state.replies = reply :: replies) :
    (state.exchange H secretKey head arrived).2 =
      some (writeResponse reply.response (head.isMethod "HEAD")) := by
  simp [State.exchange, State.arm, State.serve, State.answer, habort, hanswer, hreplies]

/-- Five bytes are declared and three are sent, for an object that is not there: the answer is made
a stream of, and it is never read to its end. -/
theorem download_never_truncated_cut :
    let cut : Reply := ⟨200, [1, 2, 3], some 5⟩
    ∃ stream state', Performs plainPlatform.hashes "secret"
      (download plainPlatform plainClient (bytesOf "20240701T123456Z") "b" "k" none)
      { State.holding (bytesOf "/b/j") [] with replies := [cut] } (.ok stream) state' ∧
      ∀ bytes, stream.readToEnd ≠ .ok bytes := by
  intro cut
  let queued : State := { State.holding (bytesOf "/b/j") [] with replies := [cut] }
  obtain ⟨request, hrequest, hverb, -, -, hsends, htext⟩ := plain_openObject none
  have hcarries : Carries request [] (headOf request []) := carries_headOf (by decide) htext
  generalize headOf request [] = head at hcarries
  have hget : head.isMethod "HEAD" = false := by
    rw [Head.isMethod, bytesOf_injective (hcarries.method.trans hverb)]
    decide
  have hwritten : (queued.exchange plainPlatform.hashes "secret" head []).2 = _ :=
    State.writes_queued rfl rfl rfl
  rw [hget, writeResponse_of_get (by decide)] at hwritten
  have hserved : queued.exchange plainPlatform.hashes "secret" head [] =
      ((queued.exchange plainPlatform.hashes "secret" head []).1, some _) := Prod.ext rfl hwritten
  have hsent : (download plainPlatform plainClient (bytesOf "20240701T123456Z") "b" "k"
      none).request = .ok request := hrequest
  have hperforms : Performs plainPlatform.hashes "secret" _ queued _ _ :=
    .sent hsent hsends (.read hcarries hserved (reads_responseOf _))
  rw [Operation.run_of_answer hsent rfl] at hperforms
  have hmissing : serveFromObjects queued.objects "GET" plainUrl.target none = some _ :=
    serveFromObjects_missing (by decide) (by decide) (.inl rfl) (by decide)
  have hanswers : ∀ served, queued.MayAnswer "GET" plainUrl.target none served →
      served = cut.response ∨
        served.statusCode = 404 ∧ served.declaredLength = noSuchKey.length := by
    intro served hmay
    cases hmay with
    | early harmed => cases harmed
    | queued hmem => exact .inl (congrArg Reply.response (List.mem_singleton.mp hmem))
    | held =>
      rw [hmissing]
      exact .inr ⟨rfl, rfl⟩
  have hdeclared : ∀ served, queued.MayAnswer "GET" plainUrl.target none served →
      served.declaredLength < 2 ^ 64 := by
    intro served hmay
    rcases hanswers served hmay with rfl | ⟨-, hlength⟩
    · decide
    · rw [hlength]
      decide +kernel
  refine ⟨_, _, hperforms, fun bytes hread => ?_⟩
  obtain ⟨served, hmay, hstatus, hbounded⟩ :=
    download_never_truncated objectUrl_plain hdeclared hperforms
  rcases hanswers served hmay with rfl | ⟨hmissed, -⟩
  · exact absurd (hbounded.readToEnd bytes hread).1 (by decide)
  · rw [hmissed] at hstatus
    cases hstatus

end MyS3.Storage
