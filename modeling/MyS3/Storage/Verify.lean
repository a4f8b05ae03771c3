import MyS3.Client.Call
import MyS3.Storage.Network

/-!
# The storage verifies what the client signs

A run of calls by any clients with one secret key, while the storage is prepared to answer,
to refuse or to hang up as it likes. Every request that arrived whole has a valid signature.
-/

namespace MyS3.Storage

open Xml (bytesOf)
open Query (canonicalQuery canonicalQueryString)
open Separated
open Client

/-- An access key and a region that can be told apart in a credential. -/
structure Plain (s3 : S3Client) : Prop where
  accessKey : Unseparated (bytesOf s3.accessKey)
  region : Unseparated (bytesOf s3.region.asStr)

variable {P : Platform} {H : Hashes} {s3 : S3Client} {request : Request} {content : Bytes}
  {head : Head} {timestamp : Bytes} {secretKey : String} {state state' : State}

/-- A date of digits holds no separator. -/
theorem unseparated_date (instant : Instant) : Unseparated instant.date := by
  have hdigit : ∀ byte ∈ instant.date, 0x30 ≤ byte ∧ byte ≤ 0x39 := by
    intro byte hbyte
    simp only [Instant.date, List.mem_append] at hbyte
    rcases hbyte with (hyear | hmonth) | hday
    · exact instant.year.digit byte hyear
    · exact instant.month.digit byte hmonth
    · exact instant.day.digit byte hday
  constructor
  · exact fun h => absurd (hdigit _ h) (by decide)
  · exact fun h => absurd (hdigit _ h) (by decide)
  · exact fun h => absurd (hdigit _ h) (by decide)

/-- A field that was found has the bytes that were sent. -/
private theorem exists_of_map_bytesOf {field : Option String} {bytes : Bytes}
    (h : field.map bytesOf = some bytes) : ∃ text, field = some text ∧ bytesOf text = bytes :=
  Option.map_eq_some_iff.mp h

/-- What the storage reads of a signed request: its credential only as far as the region. -/
def received (signed : SignedRequest) (body : Bytes) : SignedRequest :=
  { signed with
    authorization := ⟨"", [], signed.authorization.region, signed.authorization.signature⟩
    body := body }

/-- A signed request verifies with any payload that its hash covers. -/
theorem verifySignature_received {url : UrlBuilder} {method payloadHash payload : Bytes}
    {signed : SignedRequest} (hsplits : Splits url)
    (hsigned : signRequestWithPayloadHash H s3 timestamp (.ok url) method payloadHash payload =
      .ok signed)
    (hpayload : payloadHash = unsignedPayload ∨ payloadHash = hexEncode (H.sha256 content)) :
    MyS3.verifySignature H s3.secretKey (received signed content) = true := by
  cases hsigned
  have hhash : ¬ (payloadHash ≠ bytesOf "UNSIGNED-PAYLOAD" ∧
      hexEncode (H.sha256 content) ≠ payloadHash) := by
    rintro ⟨hsignedPayload, hother⟩
    rcases hpayload with hunsigned | hcovered
    · exact hsignedPayload hunsigned
    · exact hother hcovered.symm
  have htarget := splitOnce_target hsplits.path
  have hquery := hsplits.query
  simp only [MyS3.verifySignature, received, if_neg hhash, htarget]
  cases hparams : url.query with
  | none =>
    rw [hparams] at hquery
    have hbare : url.target = url.path := by simp only [UrlBuilder.target, hparams]
    simp only [Option.map_none, Option.getD_none, hbare] at hquery ⊢
    simp only [hquery, deriveSigningKey_eq, BEq.rfl]
  | some query =>
    rw [hparams, Option.getD_some] at hquery
    simp only [Option.map_some, Option.getD_some, hquery, deriveSigningKey_eq, BEq.rfl]

/-- The fields that the storage reads are those that were signed. -/
theorem signed_of_carries (hcarries : Carries request content head)
    (hverb : request.verb = request.signed.method)
    (hreadable : request.signed.authorization.Readable) (body : Bytes) :
    head.signed body = some (received request.signed body) := by
  obtain ⟨host, hhost, hhostBytes⟩ := exists_of_map_bytesOf hcarries.host
  obtain ⟨hash, hhash, hhashBytes⟩ := exists_of_map_bytesOf hcarries.payloadHash
  obtain ⟨time, htime, htimeBytes⟩ := exists_of_map_bytesOf hcarries.timestamp
  obtain ⟨authorization, hauthorization, htext⟩ := exists_of_map_bytesOf hcarries.authorization
  simp only [Head.signed, hhost, hhash, htime, hauthorization, Option.bind_eq_bind,
    Option.bind_some, htext, hreadable.readAuthorization_text, hhostBytes, hhashBytes, htimeBytes,
    hcarries.method, hcarries.target, hverb]
  rfl

/-- What signing puts into a request. -/
theorem fields_of_signed {url : UrlBuilder} {method payloadHash payload : Bytes}
    {signed : SignedRequest}
    (h : signRequestWithPayloadHash H s3 timestamp (.ok url) method payloadHash payload =
      .ok signed) :
    signed.method = method ∧ signed.target = url.target ∧
      signed.authorization.accessKey = s3.accessKey ∧
      signed.authorization.date = dateOf timestamp ∧
      signed.authorization.region = bytesOf s3.region.asStr ∧
      ∃ bytes, signed.authorization.signature = hexEncode bytes := by
  cases h
  exact ⟨rfl, rfl, rfl, rfl, rfl, _, rfl⟩

/-- A request that goes out as it was signed verifies, with any body it may go out with. -/
theorem verifySignature_of_carries (hplain : Plain s3) (hdate : Unseparated (dateOf timestamp))
    (hout : request.GoesOutAsSigned H s3 timestamp) (hcarries : Carries request content head)
    (hsends : request.body.Sends content) :
    verifySignature H s3.secretKey head content = true := by
  obtain ⟨url, payloadHash, payload, hsplits, hsigned, hpayload⟩ := hout
  obtain ⟨hmethod, -, hkey, hscope, hregion, hsignature⟩ := fields_of_signed hsigned
  have hreadable : request.signed.authorization.Readable := by
    constructor
    · exact hkey ▸ hplain.accessKey
    · exact hscope ▸ hdate
    · exact hregion ▸ hplain.region
    · exact hsignature
  rw [verifySignature, signed_of_carries hcarries hmethod.symm hreadable, Option.any_some]
  exact verifySignature_received hsplits hsigned (hpayload.imp_right fun h => h content hsends)

/-- Every request that arrived whole has a valid signature. -/
def Verified (state : State) : Prop :=
  ∀ captured ∈ state.captured, captured.bodyComplete = true → captured.signatureValid = true

/-- Serving one more request of a client keeps that. -/
theorem Verified.exchange {arrived : Bytes} (h : Verified state) (hplain : Plain s3)
    (hdate : Unseparated (dateOf timestamp)) (hout : request.GoesOutAsSigned H s3 timestamp)
    (hcarries : Carries request content head) (hsends : request.body.Sends content)
    (harrived : arrived <+: content) :
    Verified (state.exchange H s3.secretKey head arrived).1 := by
  intro captured hmem hcomplete
  rw [State.captured_exchange, List.mem_append, List.mem_singleton] at hmem
  rcases hmem with hold | rfl
  · exact h captured hold hcomplete
  · -- as long as it was declared to be, so it is all of what was sent
    have hbody := (List.take_prefix (state.arm.2.wanted head.contentLength) arrived).trans harrived
    have hlength : (arrived.take (state.arm.2.wanted head.contentLength)).length =
        head.contentLength := beq_iff_eq.mp hcomplete
    have hwhole := hbody.eq_of_length (hlength.trans hcarries.contentLength)
    simp only [Head.capture, hwhole]
    exact verifySignature_of_carries hplain hdate hout hcarries hsends

/-- What happens at a storage: it is prepared for requests to come, or one of the clients
calls. -/
inductive Turn (P : Platform) (clients : Set S3Client) (secretKey : String) (state : State) :
    State → Prop
  | prepared (objects : Paths) (replies : List Reply) (abortAfter : Option Nat)
      (answerAfter : Option (Nat × Reply)) : Turn P clients secretKey state
        { state with
          objects := objects
          replies := replies
          abortAfter := abortAfter
          answerAfter := answerAfter }
  | called {state' : State} {s3 : S3Client} {instant : Instant} {behind : Bytes} {call : Call}
      {result : Except S3Error Outcome} (hclient : s3 ∈ clients)
      (hperforms : Performs P.hashes secretKey
        (call.operation P s3 (getAmzTimestamp (instant.rfc3339 behind))) state result state') :
      Turn P clients secretKey state state'

/-- The turns of a storage, one after the other. -/
abbrev Turns (P : Platform) (clients : Set S3Client) (secretKey : String) :
    State → State → Prop :=
  Relation.ReflTransGen (Turn P clients secretKey)

theorem Verified.turn {clients : Set S3Client} (hF : P.segmentUrl.Faithful)
    (hraw : P.rawUrl.Verbatim) (hplain : ∀ s3 ∈ clients, Plain s3)
    (hkey : ∀ s3 ∈ clients, s3.secretKey = secretKey) (h : Verified state)
    (hturn : Turn P clients secretKey state state') : Verified state' := by
  cases hturn with
  | prepared objects replies abortAfter answerAfter => exact h
  | called hclient hperforms =>
    have hsecret := hkey _ hclient
    subst hsecret
    cases hperforms with
    | unsent hrequest => exact h
    | sent hrequest hsends hexchange =>
      apply hexchange.keeps h
      intro state head arrived hcarries harrived hverified
      apply hverified.exchange (hplain _ hclient) _ (Call.goesOutAsSigned hF hraw hrequest)
        hcarries hsends harrived
      rw [dateOf_getAmzTimestamp]
      exact unseparated_date _

/-- Whatever the clients of one secret key call, in any order, at any time and over a transport
that repeats, cuts and loses what it carries, every request that arrives whole at the storage
has a signature that the storage finds again from the text of its head. No access key and no
region holds a separator of that text, which nothing escapes. -/
theorem every_request_verifies {clients : Set S3Client} (hF : P.segmentUrl.Faithful)
    (hraw : P.rawUrl.Verbatim) (hplain : ∀ s3 ∈ clients, Plain s3)
    (hkey : ∀ s3 ∈ clients, s3.secretKey = secretKey) (hstate : state.captured = [])
    (hturns : Turns P clients secretKey state state') :
    ∀ captured ∈ state'.captured, captured.bodyComplete = true →
      captured.signatureValid = true := by
  have hverified : Verified state := by
    intro captured hmem
    rw [hstate] at hmem
    cases hmem
  induction hturns with
  | refl => exact hverified
  | tail _ hturn ih => exact Verified.turn hF hraw hplain hkey ih hturn

/-- A `DELETE` reaches the storage, and its answer is lost. -/
theorem every_request_verifies_delete :
    ∃ state', Turns plainPlatform {plainClient} "secret" .start state' ∧
      state'.captured.length = 1 ∧
      ∀ captured ∈ state'.captured, captured.bodyComplete = true →
        captured.signatureValid = true := by
  let instant : Instant :=
    ⟨⟨bytesOf "2024", rfl, by decide +kernel⟩, ⟨bytesOf "07", rfl, by decide +kernel⟩,
      ⟨bytesOf "01", rfl, by decide +kernel⟩, ⟨bytesOf "12", rfl, by decide +kernel⟩,
      ⟨bytesOf "34", rfl, by decide +kernel⟩, ⟨bytesOf "56", rfl, by decide +kernel⟩⟩
  have hplain : ∀ s3 ∈ ({plainClient} : Set S3Client), Plain s3 := by
    rintro _ rfl
    exact ⟨⟨by decide, by decide, by decide⟩, ⟨by decide, by decide, by decide⟩⟩
  have hkey : ∀ s3 ∈ ({plainClient} : Set S3Client), s3.secretKey = "secret" := by
    rintro _ rfl
    rfl
  obtain ⟨request, hrequest, htext⟩ : ∃ request,
      ((Call.deleteFile "b" "k").operation plainPlatform plainClient
        (getAmzTimestamp (instant.rfc3339 (bytesOf ".5+00:00")))).request = .ok request ∧
      IsText request :=
    ⟨_, rfl, by decide +kernel⟩
  have hsends : request.body.Sends [] := by
    cases hrequest
    rfl
  have hperforms : Performs plainPlatform.hashes "secret" _ .start _ _ :=
    .sent hrequest hsends (.again (carries_headOf (by decide) htext) (List.prefix_refl [])
      (.failed ⟨true, .unlisted, "timeout"⟩))
  have hturns : Turns plainPlatform {plainClient} "secret" .start _ :=
    .single (.called rfl hperforms)
  refine ⟨_, hturns, ?_, every_request_verifies encodedSegmentsUrl_faithful rawEndingUrl_verbatim
    hplain hkey rfl hturns⟩
  rw [State.captured_exchange]
  rfl

end MyS3.Storage
