import MyS3.Client.Download
import MyS3.Client.Failure
import MyS3.Storage.Network
import MyS3.Storage.Range
import MyS3.Xml.Place

/-!
# What is downloaded is what is stored

The reading calls of the client against a storage that holds objects. Up to a failure of the
transport, each of them gives its caller exactly the object, its range or its size, or the
error for an object that is not there.
-/

namespace MyS3.Storage

open Xml (MyXmlReader bytesOf bytesOf_injective eqIgnoreAsciiCase trim parseU64 readNodeText
  trim_toString parseU64_toString)
open Client
open Client.S3DownloadStream (calls handed)
open Separated
open Reader (range)

/-- Nothing is queued or armed, and these objects are held, each of a length that a machine can
address. -/
structure Quiet (held : Paths) (state : State) : Prop where
  replies : state.replies = []
  abortAfter : state.abortAfter = none
  answerAfter : state.answerAfter = none
  objects : state.objects = held
  addressable : ∀ path content, held.lookup path = some content → content.length < 2 ^ 64

/-- A stream that hands over a content and nothing else, and never a part of it as the whole. -/
structure Streams (content : Bytes) (stream : S3DownloadStream) : Prop where
  contentLength : stream.contentLength = some content.length
  contentType : stream.contentType = some "application/octet-stream"
  received : stream.received = 0
  arrives : Arrives content stream.body

/-- A storage that holds one object. -/
def State.holding (path content : Bytes) : State := State.start.putObject path content

/-- A storage is as quiet with an object more. -/
theorem Quiet.putObject {held : Paths} {state : State} {path content : Bytes} (h : Quiet held state)
    (hbound : content.length < 2 ^ 64) :
    Quiet (held.insert path content) (state.putObject path content) := by
  refine ⟨h.replies, h.abortAfter, h.answerAfter, h.objects ▸ rfl, ?_⟩
  intro other found hlookup
  by_cases hother : other = path
  · rw [hother, AList.lookup_insert] at hlookup
    cases hlookup
    exact hbound
  · rw [AList.lookup_insert_ne hother] at hlookup
    exact h.addressable other found hlookup

theorem quiet_holding {path content : Bytes} (h : content.length < 2 ^ 64) :
    Quiet ((∅ : Paths).insert path content) (.holding path content) :=
  have hstart : Quiet ∅ .start := ⟨rfl, rfl, rfl, rfl, nofun⟩
  hstart.putObject h

variable {P : Platform} {H : Hashes} {s3 : S3Client} {timestamp : Bytes} {secretKey : String}
  {held : Paths} {state state' : State} {head : Head} {arrived content : Bytes}
  {written : Written} {response : FlUrlResponse} {stream : S3DownloadStream}
  {bucketName key : String} {url : UrlBuilder}

/-- Calls without an error hand over the content from its front on, and all of it by the time
that they report its end. -/
theorem Streams.calls (h : Streams content stream) {n : Nat}
    (hok : ∀ answer ∈ (calls n stream).2, ∃ chunk, answer = .ok chunk) :
    handed (calls n stream).2 <+: content ∧
      (.ok none ∈ (S3DownloadStream.calls n stream).2 →
        handed (S3DownloadStream.calls n stream).2 = content) := by
  obtain ⟨chunks, rest, hbody, hprefix, hrest⟩ := h.arrives.pieces
  have hhanded := (S3DownloadStream.handed_prefix hbody hrest hok).trans hprefix
  refine ⟨hhanded, fun hend => ?_⟩
  have hdeclared := S3DownloadStream.declared_le_of_mem_calls h.contentLength hend
  rw [h.received, Nat.zero_add] at hdeclared
  exact hhanded.eq_of_length (Nat.le_antisymm hhanded.length_le hdeclared)

/-- Reading to the end gives the content, unless a piece of it is an error; then it fails. -/
theorem Streams.readToEnd (h : Streams content stream) :
    stream.readToEnd = .ok content ∨
      (∃ err, .error err ∈ stream.body) ∧ ∀ bytes, stream.readToEnd ≠ .ok bytes := by
  have harrives := h.arrives
  generalize hitems : stream.body = items at harrives
  cases harrives with
  | whole hwhole =>
    left
    apply S3DownloadStream.readToEnd_eq_ok.mpr
    refine ⟨_, hitems, hwhole.symm, S3DownloadStream.endOfStream_eq_ok.mpr ?_⟩
    intro expected hlength
    rw [h.contentLength, Option.some.injEq] at hlength
    rw [h.received, Nat.zero_add, hwhole]
    exact Nat.le_of_eq hlength.symm
  | broken hpart =>
    rename_i chunks err rest
    right
    refine ⟨⟨err, by simp⟩, fun bytes hread => ?_⟩
    obtain ⟨chunks', hbody, -, -⟩ := S3DownloadStream.readToEnd_eq_ok.mp hread
    have hmem : Except.error err ∈ chunks'.map Except.ok := by
      rw [← hbody, hitems]
      simp
    obtain ⟨chunk, -, hchunk⟩ := List.mem_map.mp hmem
    cases hchunk

/-- A loop that asked for at least as much as the content collects all of it or fails. -/
theorem Streams.readRequested (h : Streams content stream) {requested : Nat} {bytes : Bytes}
    (hroom : content.length ≤ requested) (hread : stream.readRequested requested = .ok bytes) :
    bytes = content := by
  obtain ⟨chunks, rest, hbody, hbytes, hend⟩ :=
    S3DownloadStream.collectUntil_front (Nat.lt_succ_self _) hread
  rw [List.nil_append] at hbytes
  have harrives := h.arrives
  rw [hbody] at harrives
  have hprefix := harrives.prefix_of_append
  rcases hend with henough | rfl
  · have hlong : requested < bytes.length := of_decide_eq_true henough
    have hle := hprefix.length_le
    rw [hbytes] at hlong
    omega
  · rw [List.append_nil] at harrives
    rw [hbytes, harrives.flatten_eq]

/-- The fields of an answer with a length. -/
theorem findHeader_framed (served : Response) (declaredLength : Nat) :
    findHeader (framed served declaredLength) "content-length" = some (toString declaredLength) ∧
      findHeader (framed served declaredLength) "content-type" = some served.contentType := by
  constructor <;> simp [framed, eqIgnoreAsciiCase]

/-- The declared length is read off its field. -/
theorem contentLength_of_reads (hreads : Reads written response) {n : Nat} (hn : n < 2 ^ 64)
    (hlength : findHeader written.headers "content-length" = some (toString n)) :
    response.contentLength = some n := by
  rw [FlUrlResponse.contentLength, hreads.header, hlength, Option.bind_some, trim_toString,
    parseU64_toString hn]

/-- An answer whose body has the declared length becomes a stream of that body. -/
theorem streams_of_reads (hreads : Reads written response) (hbound : written.body.length < 2 ^ 64)
    (hlength : findHeader written.headers "content-length" = some (toString written.body.length))
    (htype : findHeader written.headers "content-type" = some "application/octet-stream") :
    (∃ err, S3DownloadStream.fromResponse response = .error (.flUrlError err)) ∨
      ∃ stream, S3DownloadStream.fromResponse response = .ok stream ∧
        Streams written.body stream := by
  unfold S3DownloadStream.fromResponse
  cases hbody : response.getBody with
  | error err => exact .inl ⟨err, rfl⟩
  | ok body =>
    refine .inr ⟨_, rfl, ?_⟩
    constructor
    · exact contentLength_of_reads hreads hbound hlength
    · exact (hreads.header _).trans htype
    · rfl
    · have harrives := hreads.items body hbody
      rwa [delimited_of_length hbound hlength, List.take_length] at harrives

/-- A storage stays quiet. -/
theorem Quiet.exchange (h : Quiet held state) :
    Quiet held (state.exchange H secretKey head arrived).1 := by
  obtain ⟨-, hobjects, habort, hanswer, hreplies⟩ := state.arm.1.serve_frame (H := H)
    state.arm.2 head (arrived.take (state.arm.2.wanted head.contentLength)) secretKey
  constructor
  · exact List.suffix_nil.mp (h.replies ▸ hreplies)
  · exact habort
  · exact hanswer
  · exact hobjects.trans h.objects
  · exact h.addressable

/-- A quiet storage answers every request: with what its objects give, or with an empty 200. -/
theorem Quiet.writes (h : Quiet held state) :
    (state.exchange H secretKey head arrived).2 = some (writeResponse
      ((serveFromObjects held head.method head.target (findHeader head.headers "range")).getD
        .emptyOk) (head.isMethod "HEAD")) := by
  have hanswer : (state.arm.1.answer head).2 = (serveFromObjects held head.method head.target
      (findHeader head.headers "range")).getD .emptyOk := by
    simp only [State.answer, State.arm, h.replies, h.objects]
  have harmed : state.arm.2 = ⟨none, none⟩ := by
    simp only [State.arm, h.abortAfter, h.answerAfter]
  have hserves := state.arm.1.serves (H := H) state.arm.2 head
    (arrived.take (state.arm.2.wanted head.contentLength)) secretKey
  have hexchange : state.exchange H secretKey head arrived = state.arm.1.serve H secretKey
      state.arm.2 head (arrived.take (state.arm.2.wanted head.contentLength)) := rfl
  rw [hexchange]
  generalize state.arm.1.serve H secretKey state.arm.2 head _ = out at hserves
  cases hserves with
  | hungUp habort => exact absurd habort (by simp [harmed])
  | refused habort hreply => exact absurd hreply (by simp [harmed])
  | stored _ hstores => rw [hanswer]
  | answered _ hstores => rw [hanswer]

/-- A call against a quiet storage: the transport fails, or what it concludes is concluded from
what the objects give. -/
theorem Quiet.performs {α : Type} {operation : Operation α} {result : Except S3Error α}
    {request : Request} {verb : String} (h : Quiet held state)
    (hperforms : Performs H secretKey operation state result state')
    (hrequest : operation.request = .ok request) (hverb : request.verb = bytesOf verb) :
    (∃ err, result = .error (.flUrlError err)) ∨
      ∃ response, Reads (writeResponse ((serveFromObjects held verb request.signed.target
        request.range).getD .emptyOk) (eqIgnoreAsciiCase verb.toList "HEAD".toList)) response ∧
        result = operation.conclude response := by
  cases hperforms with
  | unsent hunsent =>
    rw [hrequest] at hunsent
    cases hunsent
  | sent hsent hsends hexchange =>
    rename_i content answer
    rw [hrequest] at hsent
    cases hsent
    cases answer with
    | error err =>
      left
      refine ⟨err, ?_⟩
      simp only [Operation.run, hrequest]
      rfl
    | ok response =>
      right
      obtain ⟨before, head, written, hquiet, hcarries, hserved, hreads⟩ :=
        hexchange.answered h fun _ _ hquiet => hquiet.exchange
      have hmethod : head.method = verb := bytesOf_injective (hcarries.method.trans hverb)
      have hwritten : (before.exchange H secretKey head content).2 = _ := hquiet.writes
      rw [hserved] at hwritten
      cases hwritten
      rw [hcarries.target, hcarries.range, Head.isMethod, hmethod] at hreads
      exact ⟨response, hreads, Operation.run_of_answer hrequest rfl⟩

/-- A quiet storage answers what reaches it over a plain transport. -/
theorem Quiet.answers {α : Type} {operation : Operation α} {request : Request} {verb : String}
    (h : Quiet held state) (H : Hashes) (secretKey : String)
    (hrequest : operation.request = .ok request) (hverb : request.verb = bytesOf verb)
    (hsends : request.body.Sends content) (hlength : content.length < 2 ^ 64)
    (htext : IsText request) :
    ∃ state', Performs H secretKey operation state (operation.conclude (responseOf (writeResponse
      ((serveFromObjects held verb request.signed.target request.range).getD .emptyOk)
      (eqIgnoreAsciiCase verb.toList "HEAD".toList)))) state' := by
  have hcarries := carries_headOf hlength htext
  generalize headOf request content = head at hcarries
  have hmethod : head.method = verb := bytesOf_injective (hcarries.method.trans hverb)
  have hwritten : (state.exchange H secretKey head content).2 = _ := h.writes
  rw [hcarries.target, hcarries.range, Head.isMethod, hmethod] at hwritten
  have hserved : state.exchange H secretKey head content =
      ((state.exchange H secretKey head content).1, some _) := Prod.ext rfl hwritten
  have hperforms : Performs H secretKey operation state _ _ :=
    .sent hrequest hsends (.read hcarries hserved (reads_responseOf _))
  rw [Operation.run_of_answer hrequest rfl] at hperforms
  exact ⟨_, hperforms⟩

/-- A call leaves a storage quiet. -/
theorem Quiet.after {α : Type} {operation : Operation α} {result : Except S3Error α}
    (h : Quiet held state) (hperforms : Performs H secretKey operation state result state') :
    Quiet held state' := by
  cases hperforms with
  | unsent hrequest => exact h
  | sent hrequest hsends hexchange => exact hexchange.keeps h fun _ _ hquiet => hquiet.exchange

section Served

variable {verb : String} {range? : Option String}

theorem entries_ne_nil {path : Bytes} (hlookup : held.lookup path = some content) :
    held.entries ≠ [] := by
  intro hempty
  have hnone : held = ∅ := AList.ext hempty
  rw [hnone, AList.lookup_empty] at hlookup
  cases hlookup

/-- A path that holds nothing. -/
theorem serveFromObjects_missing (hheld : held.entries ≠ []) (hpath : questionMark ∉ url.path)
    (hverb : verb = "GET" ∨ verb = "HEAD") (hlookup : held.lookup url.path = none) :
    serveFromObjects held verb url.target range? =
      some ⟨404, noSuchKey, "application/xml", [], none⟩ := by
  rw [serveFromObjects, pathOf_target hpath, if_neg hheld, hlookup]
  rcases hverb with rfl | rfl <;> exact if_neg (by decide)

/-- An object that is asked for as a whole. -/
theorem serveFromObjects_whole (hpath : questionMark ∉ url.path)
    (hverb : verb = "GET" ∨ verb = "HEAD") (hlookup : held.lookup url.path = some content) :
    serveFromObjects held verb url.target none =
      some ⟨200, content, "application/octet-stream", [], none⟩ := by
  rw [serveFromObjects, pathOf_target hpath, if_neg (entries_ne_nil hlookup), hlookup]
  rcases hverb with rfl | rfl <;> exact if_neg (by decide)

/-- A range of an object, as the client asks for it. -/
theorem serveFromObjects_range {start : Nat} {last : Option Nat} (hpath : questionMark ∉ url.path)
    (hlookup : held.lookup url.path = some content) (hstart : start < 2 ^ 64)
    (hlast : ∀ l ∈ last, start ≤ l ∧ l < 2 ^ 64) :
    ∃ extraHeaders, serveFromObjects held "GET" url.target (some (rangeHeader (start, last))) =
      some (if start < content.length then
        ⟨206, range content start (lastAsked last content.length), "application/octet-stream",
          extraHeaders, none⟩
      else ⟨416, invalidRange, "application/xml", [], none⟩) := by
  rw [serveFromObjects, pathOf_target hpath, if_neg (entries_ne_nil hlookup), hlookup,
    if_neg (by decide)]
  simp only [parseRange_rangeHeader hstart hlast]
  by_cases hroom : start < content.length
  · simp only [if_pos hroom]
    exact ⟨_, rfl⟩
  · simp only [if_neg hroom]
    exact ⟨[], trivial⟩

end Served

/-- What the caller of a download can tell of its stream: call by call it gets the content from
its front on, and it is told of an end or reads to it only with all of the content. -/
structure Delivers (content : Bytes) (stream : S3DownloadStream) : Prop where
  contentLength : stream.contentLength = some content.length
  contentType : stream.contentType = some "application/octet-stream"
  calls : ∀ n, (∀ answer ∈ (S3DownloadStream.calls n stream).2, ∃ chunk, answer = .ok chunk) →
    handed (S3DownloadStream.calls n stream).2 <+: content ∧
      (.ok none ∈ (S3DownloadStream.calls n stream).2 →
        handed (S3DownloadStream.calls n stream).2 = content)
  readToEnd : ∀ bytes, stream.readToEnd = .ok bytes → bytes = content
  readsToEnd : (∀ err, .error err ∉ stream.body) → stream.readToEnd = .ok content
  readRequested : ∀ requested bytes, content.length ≤ requested →
    stream.readRequested requested = .ok bytes → bytes = content

theorem Streams.delivers (h : Streams content stream) : Delivers content stream := by
  constructor
  · exact h.contentLength
  · exact h.contentType
  · exact fun n hok => h.calls hok
  · intro bytes hread
    rcases h.readToEnd with hwhole | ⟨-, hnever⟩
    · exact Except.ok.inj (hread.symm.trans hwhole)
    · exact absurd hread (hnever bytes)
  · intro hclean
    rcases h.readToEnd with hwhole | ⟨⟨err, herr⟩, -⟩
    · exact hwhole
    · exact absurd herr (hclean err)
  · exact fun requested bytes hroom hread => h.readRequested hroom hread

/-- The document of a missing key. -/
theorem errorDocument_noSuchKey : ErrorDocument noSuchKey "NoSuchKey" :=
  .of_element (by decide +kernel) (by decide +kernel) (by decide)

/-- It is read as it was written. -/
theorem delimited_noSuchKey {extraHeaders : List Header} :
    (writeResponse ⟨404, noSuchKey, "application/xml", extraHeaders, none⟩ false).delimited =
      noSuchKey := by
  rw [delimited_of_length (n := noSuchKey.length) (by decide +kernel) (findHeader_framed _ _).1]
  exact List.take_length

/-- The answer of the storage is read whole or not at all. -/
theorem readAnswer_of_reads (hreads : Reads written response) :
    (∃ err, response.readAnswer = .error (.flUrlError err)) ∨
      response.readAnswer = .ok written.delimited := by
  unfold FlUrlResponse.readAnswer
  cases hbody : response.getBody with
  | error err => exact .inl ⟨err, rfl⟩
  | ok body =>
    cases hvec : body.intoVec maxAnswerSize with
    | error err =>
      left
      refine ⟨err, ?_⟩
      change (body.intoVec maxAnswerSize).mapError _ = _
      rw [hvec]
      rfl
    | ok bytes =>
      right
      change (body.intoVec maxAnswerSize).mapError _ = _
      rw [hvec, hreads.intoVec body _ bytes hbody hvec]
      rfl

/-- The request for an object. -/
theorem request_openObject (timestamp : Bytes) (hurl : objectUrl P s3 bucketName key = .ok url)
    (range? : Option (Nat × Option Nat)) :
    ∃ request, (openObject P s3 timestamp bucketName key range?).request = .ok request ∧
      request.verb = bytesOf "GET" ∧ request.signed.target = url.target ∧
      request.range = range?.map rangeHeader := by
  simp only [openObject, hurl]
  exact ⟨_, rfl, rfl, rfl, rfl⟩

/-- An answer with the status that was asked for becomes a stream of its body. -/
theorem stream_of_openObject {range? : Option (Nat × Option Nat)}
    (hreads : Reads written response) (hbound : written.body.length < 2 ^ 64)
    (hstatus : written.statusCode = if range?.isSome then 206 else 200)
    (hlength : findHeader written.headers "content-length" = some (toString written.body.length))
    (htype : findHeader written.headers "content-type" = some "application/octet-stream") :
    (∃ err, (openObjectAnswer P range? response >>= S3DownloadStream.fromResponse) =
      .error (.flUrlError err)) ∨
      ∃ stream,
        (openObjectAnswer P range? response >>= S3DownloadStream.fromResponse) = .ok stream ∧
          Delivers written.body stream := by
  have hexpected : openObjectAnswer P range? response = .ok response := by
    rw [openObjectAnswer, hreads.statusCode, hstatus]
    exact if_pos rfl
  rw [hexpected]
  rcases streams_of_reads hreads hbound hlength htype with hfailed | ⟨stream, hstream, hstreams⟩
  · exact .inl hfailed
  · exact .inr ⟨stream, hstream, hstreams.delivers⟩

/-- The answer for a missing key becomes the error for one. -/
theorem keyNotFound_of_openObject {range? : Option (Nat × Option Nat)} (hR : P.xml.ReadsInPlace)
    (hreads : Reads written response) (hstatus : written.statusCode = 404)
    (hbody : written.delimited = noSuchKey) :
    (∃ err, (openObjectAnswer P range? response >>= S3DownloadStream.fromResponse) =
      .error (.flUrlError err)) ∨
      (openObjectAnswer P range? response >>= S3DownloadStream.fromResponse) =
        .error .keyNotFound := by
  have hcode : response.statusCode = 404 := hreads.statusCode.trans hstatus
  rcases readAnswer_of_reads hreads with ⟨err, hfailed⟩ | hanswer
  · left
    refine ⟨err, ?_⟩
    cases range? <;> simp [openObjectAnswer, hcode, hfailed] <;> rfl
  · right
    rw [hbody] at hanswer
    have hrefusal : Refusal response noSuchKey "NoSuchKey" :=
      ⟨by rw [hcode]; rfl, hanswer, errorDocument_noSuchKey⟩
    rw [hrefusal.openObjectAnswer hR range?, hcode]
    simp only [Nat.reduceEqDiff, and_false, if_false]
    rfl

/-- A download against a storage that holds objects: unless the transport fails, the caller gets
a stream of exactly the object, or learns that there is none. -/
theorem download_file (hF : P.segmentUrl.Faithful) (hR : P.xml.ReadsInPlace)
    (hheld : held.entries ≠ []) (hquiet : Quiet held state)
    (hurl : objectUrl P s3 bucketName key = .ok url) {result : Except S3Error S3DownloadStream}
    (hperforms : Performs H secretKey (downloadFile P s3 timestamp bucketName key) state result
      state') :
    (∃ err, result = .error (.flUrlError err)) ∨
      match held.lookup url.path with
      | none => result = .error .keyNotFound
      | some content => ∃ stream, result = .ok stream ∧ Delivers content stream := by
  have hpath := hF.path hurl
  obtain ⟨request, hrequest, hverb, htarget, hrange⟩ :=
    request_openObject timestamp hurl none
  rcases hquiet.performs hperforms hrequest hverb with hfailed | ⟨response, hreads, rfl⟩
  · exact .inl hfailed
  · rw [htarget, hrange, Option.map_none] at hreads
    cases hlookup : held.lookup url.path with
    | none =>
      rw [serveFromObjects_missing hheld hpath (.inl rfl) hlookup] at hreads
      exact keyNotFound_of_openObject hR hreads rfl delimited_noSuchKey
    | some content =>
      rw [serveFromObjects_whole hpath (.inl rfl) hlookup] at hreads
      obtain ⟨hlength, htype⟩ := findHeader_framed
        ⟨200, content, "application/octet-stream", [], none⟩ content.length
      exact stream_of_openObject hreads (hquiet.addressable _ _ hlookup) rfl hlength htype

/-- A download from a storage on this machine. -/
theorem plain_openObject (range? : Option (Nat × Option Nat)) :
    ∃ request, (openObject plainPlatform plainClient (bytesOf "20240701T123456Z") "b" "k"
      range?).request = .ok request ∧ request.verb = bytesOf "GET" ∧
      request.signed.target = plainUrl.target ∧ request.range = range?.map rangeHeader ∧
      request.body.Sends [] ∧ IsText request := by
  simp only [openObject, objectUrl_plain]
  refine ⟨_, rfl, rfl, rfl, rfl, rfl, ?_⟩
  unfold IsText
  dsimp only [Request.plain]
  decide +kernel

/-- Three bytes are downloaded. -/
theorem download_file_stored :
    ∃ stream state', Performs plainPlatform.hashes "secret"
      (downloadFile plainPlatform plainClient (bytesOf "20240701T123456Z") "b" "k")
      (.holding plainUrl.path [1, 2, 3]) (.ok stream) state' ∧ Delivers [1, 2, 3] stream := by
  have hquiet : Quiet _ (.holding plainUrl.path [1, 2, 3]) := quiet_holding (by decide)
  obtain ⟨request, hrequest, hverb, htarget, hrange, hsends, htext⟩ := plain_openObject none
  have hsent : (downloadFile plainPlatform plainClient (bytesOf "20240701T123456Z") "b"
      "k").request = .ok request := hrequest
  obtain ⟨state', hperforms⟩ := hquiet.answers plainPlatform.hashes "secret" hsent hverb
    hsends (by decide) htext
  rw [htarget, hrange, Option.map_none,
    serveFromObjects_whole (by decide) (.inl rfl) (AList.lookup_insert _)] at hperforms
  have hdownloaded := download_file encodedSegmentsUrl_faithful Xml.placeReader_readsInPlace
    (by decide) hquiet objectUrl_plain hperforms
  rcases hdownloaded with ⟨err, hfailed⟩ | hdownloaded
  · cases hfailed
  · simp only [AList.lookup_insert] at hdownloaded
    obtain ⟨stream, hstream, hdelivers⟩ := hdownloaded
    rw [hstream] at hperforms
    exact ⟨stream, state', hperforms, hdelivers⟩

/-- A range has no more than there is. -/
private theorem length_range_le (content : Bytes) (start last : Nat) :
    (range content start last).length ≤ content.length := by
  rw [range, List.length_take, List.length_drop]
  omega

/-- A range that does not end before it starts is asked for by the request of its object. -/
theorem request_downloadFileRange (P : Platform) (s3 : S3Client) (timestamp : Bytes)
    (bucketName key : String) {start : Nat} {last : Option Nat} (hforwards : ∀ l ∈ last, start ≤ l) :
    (downloadFileRange P s3 timestamp bucketName key start last).request =
      (openObject P s3 timestamp bucketName key (some (start, last))).request := by
  apply if_neg
  rw [Option.any_eq_true]
  rintro ⟨l, hl, hlt⟩
  exact absurd (hforwards l hl) (Nat.not_le.mpr (of_decide_eq_true hlt))

/-- It is answered as far as the object has it. -/
theorem ranged_of_performs (hF : P.segmentUrl.Faithful) (hR : P.xml.ReadsInPlace)
    (hheld : held.entries ≠ []) (hquiet : Quiet held state)
    (hurl : objectUrl P s3 bucketName key = .ok url) {start : Nat} {last : Option Nat}
    (hstart : start < 2 ^ 64) (hlast : ∀ l ∈ last, start ≤ l ∧ l < 2 ^ 64)
    {result : Except S3Error S3DownloadStream}
    (hperforms : Performs H secretKey (downloadFileRange P s3 timestamp bucketName key start last)
      state result state') :
    (∃ err, result = .error (.flUrlError err)) ∨
      match held.lookup url.path with
      | none => result = .error .keyNotFound
      | some content =>
        if start < content.length then
          ∃ stream, result = .ok stream ∧
            Delivers (range content start (lastAsked last content.length)) stream
        else result = .error .rangeNotSatisfiable := by
  have hpath := hF.path hurl
  obtain ⟨request, hrequest, hverb, htarget, hrange⟩ :=
    request_openObject timestamp hurl (some (start, last))
  have hsent := (request_downloadFileRange P s3 timestamp bucketName key
    fun l hl => (hlast l hl).1).trans hrequest
  rcases hquiet.performs hperforms hsent hverb with hfailed | ⟨response, hreads, rfl⟩
  · exact .inl hfailed
  · rw [htarget, hrange, Option.map_some] at hreads
    cases hlookup : held.lookup url.path with
    | none =>
      rw [serveFromObjects_missing hheld hpath (.inl rfl) hlookup] at hreads
      exact keyNotFound_of_openObject hR hreads rfl delimited_noSuchKey
    | some content =>
      obtain ⟨extraHeaders, hserved⟩ := serveFromObjects_range hpath hlookup hstart hlast
      rw [hserved] at hreads
      by_cases hroom : start < content.length
      · simp only [if_pos hroom] at hreads ⊢
        obtain ⟨hlength, htype⟩ := findHeader_framed
          ⟨206, range content start (lastAsked last content.length), "application/octet-stream",
            extraHeaders, none⟩ (range content start (lastAsked last content.length)).length
        have hbound := Nat.lt_of_le_of_lt
          (length_range_le content start (lastAsked last content.length))
          (hquiet.addressable _ _ hlookup)
        exact stream_of_openObject hreads hbound rfl hlength htype
      · simp only [if_neg hroom] at hreads ⊢
        right
        have hcode : response.statusCode = 416 := hreads.statusCode
        simp only [downloadFileRange, openObject, openObjectAnswer, hcode]
        rfl

/-- A ranged download against it: an end in front of the start is refused unsent, a start at or
behind the end of the object is not satisfiable, and else the caller gets exactly the bytes
from the start to the end, or to the end of the object where that comes first. -/
theorem download_file_range (hF : P.segmentUrl.Faithful) (hR : P.xml.ReadsInPlace)
    (hheld : held.entries ≠ []) (hquiet : Quiet held state)
    (hurl : objectUrl P s3 bucketName key = .ok url) {start : Nat} {last : Option Nat}
    (hstart : start < 2 ^ 64) (hlast : ∀ l ∈ last, l < 2 ^ 64)
    {result : Except S3Error S3DownloadStream}
    (hperforms : Performs H secretKey (downloadFileRange P s3 timestamp bucketName key start last)
      state result state') :
    if last.any (· < start) then
      state' = state ∧
        result = .error (.other s!"Invalid range: end ({last.getD 0}) < start ({start})")
    else (∃ err, result = .error (.flUrlError err)) ∨
      match held.lookup url.path with
      | none => result = .error .keyNotFound
      | some content =>
        if start < content.length then
          ∃ stream, result = .ok stream ∧
            Delivers (range content start (lastAsked last content.length)) stream
        else result = .error .rangeNotSatisfiable := by
  by_cases hbackwards : last.any (· < start) = true
  · rw [if_pos hbackwards]
    cases hperforms with
    | unsent hrequest =>
      simp only [downloadFileRange, if_pos hbackwards] at hrequest
      cases hrequest
      exact ⟨rfl, rfl⟩
    | sent hrequest hsends hexchange =>
      simp only [downloadFileRange, if_pos hbackwards] at hrequest
      cases hrequest
  · rw [if_neg hbackwards]
    apply ranged_of_performs hF hR hheld hquiet hurl hstart _ hperforms
    rintro l hl
    cases hl
    refine ⟨Nat.not_lt.mp fun hlt => hbackwards ?_, hlast l rfl⟩
    rw [Option.any_some]
    exact decide_eq_true hlt

/-- A range of a stored object is there to be read, in one piece. -/
theorem plain_downloadFileRange {start last : Nat} (hquiet : Quiet held state)
    (hlookup : held.lookup plainUrl.path = some content) (hroom : start < content.length)
    (hlast : start ≤ last ∧ last < 2 ^ 64) :
    ∃ stream state', Performs plainPlatform.hashes "secret"
      (downloadFileRange plainPlatform plainClient (bytesOf "20240701T123456Z") "b" "k" start
        (some last)) state (.ok stream) state' ∧
      stream = ⟨some (range content start (lastAsked (some last) content.length)).length,
        some "application/octet-stream",
        [.ok (range content start (lastAsked (some last) content.length))], 0⟩ := by
  have hasked : ∀ l ∈ some last, start ≤ l ∧ l < 2 ^ 64 := by
    rintro l hl
    cases hl
    exact hlast
  have hstart : start < 2 ^ 64 := Nat.lt_of_le_of_lt hlast.1 hlast.2
  obtain ⟨request, hrequest, hverb, htarget, hrange, hsends, htext⟩ :=
    plain_openObject (some (start, some last))
  have hsent := (request_downloadFileRange plainPlatform plainClient (bytesOf "20240701T123456Z")
    "b" "k" fun l hl => (hasked l hl).1).trans hrequest
  obtain ⟨state', hperforms⟩ := hquiet.answers plainPlatform.hashes "secret" hsent hverb
    hsends (by decide) htext
  have hpath : questionMark ∉ plainUrl.path := by decide
  obtain ⟨extraHeaders, hserved⟩ := serveFromObjects_range hpath hlookup hstart hasked
  rw [htarget, hrange, Option.map_some, hserved, if_pos hroom] at hperforms
  have hbound := Nat.lt_of_le_of_lt (length_range_le content start (lastAsked last content.length))
    (hquiet.addressable _ _ hlookup)
  generalize range content start (lastAsked last content.length) = bytes at hperforms hbound ⊢
  obtain ⟨hlength, htype⟩ := findHeader_framed
    ⟨206, bytes, "application/octet-stream", extraHeaders, none⟩ bytes.length
  let written := writeResponse ⟨206, bytes, "application/octet-stream", extraHeaders, none⟩ false
  have hdeclared : (responseOf written).contentLength = some bytes.length :=
    contentLength_of_reads (reads_responseOf written) hbound hlength
  have hdelimited : written.delimited = bytes :=
    (delimited_of_length hbound hlength).trans List.take_length
  have hconclude : (downloadFileRange plainPlatform plainClient (bytesOf "20240701T123456Z") "b" "k"
      start (some last)).conclude (responseOf written) = .ok ⟨(responseOf written).contentLength,
        findHeader written.headers "content-type", [.ok written.delimited], 0⟩ := rfl
  rw [hdeclared, hdelimited, show findHeader written.headers "content-type" = _ from htype]
    at hconclude
  exact ⟨_, state', hconclude ▸ hperforms, rfl⟩

/-- More is asked for than there is. -/
theorem download_file_range_clamped :
    ∃ stream state', Performs plainPlatform.hashes "secret"
      (downloadFileRange plainPlatform plainClient (bytesOf "20240701T123456Z") "b" "k" 1 (some 8))
      (.holding plainUrl.path [1, 2, 3]) (.ok stream) state' ∧ Delivers [2, 3] stream := by
  have hquiet : Quiet _ (.holding plainUrl.path [1, 2, 3]) := quiet_holding (by decide)
  have hlookup := AList.lookup_insert (a := plainUrl.path) (b := ([1, 2, 3] : Bytes)) (∅ : Paths)
  have hasked : 1 ≤ 8 ∧ 8 < 2 ^ 64 := by decide
  obtain ⟨stream, state', hperforms, -⟩ :=
    plain_downloadFileRange hquiet hlookup (by decide) hasked
  have hlast : ∀ l ∈ some 8, l < 2 ^ 64 := by
    intro l hl
    cases hl
    decide
  have hdownloaded := download_file_range encodedSegmentsUrl_faithful Xml.placeReader_readsInPlace
    (entries_ne_nil hlookup) hquiet objectUrl_plain (by decide) hlast hperforms
  have hforwards : (some 8).any (· < 1) = false := rfl
  rw [hlookup, hforwards] at hdownloaded
  rcases hdownloaded with ⟨err, hfailed⟩ | ⟨stream', hstream, hdelivers⟩
  · cases hfailed
  · cases hstream
    exact ⟨stream, state', hperforms, hdelivers⟩

end MyS3.Storage
