import MyS3.Client.Operation
import MyS3.Signing.Timestamp

/-!
# Every request of the client

The calls of the client as one type. Whatever is called, the request that goes out is the one
that was signed: its verb, its url and, where it is covered by the signature, its body.
-/

namespace MyS3.Client

open Xml (bytesOf)
open Query (canonicalQuery canonicalQueryString)
open ListObjects (S3ListObjectsPage S3ListObjectsRequest)

/-- The calls of the client that send a request. -/
inductive Call where
  | upload (bucketName key : String) (content : Bytes) (uploadTimeout : Nat)
  | uploadStreamed (bucketName key : String) (contentLength uploadTimeout : Nat)
  | downloadFile (bucketName key : String)
  | downloadFileRange (bucketName key : String) (start : Nat) (last : Option Nat)
  | deleteFile (bucketName key : String)
  | createBucket (bucketName : String)
  | getBucketLocation (bucketName : String)
  | checkIfBucketExists (bucketName : String)
  | listObjectsV2 (bucketName : String) (request : S3ListObjectsRequest)
  | getObjectSize (bucketName key : String)
  | openReader (bucketName key : String)

/-- What a call gives its caller. -/
inductive Outcome where
  | done
  | stream (stream : S3DownloadStream)
  | region (region : S3Region)
  | found (found : Bool)
  | page (page : S3ListObjectsPage)
  | size (size : Nat)
  | reader (reader : Reader.S3Reader)

/-- An operation whose result is read as something else. -/
def Operation.map {α β : Type} (f : α → β) (operation : Operation α) : Operation β where
  request := operation.request
  conclude response := (operation.conclude response).map f

/-- The operation behind a call. -/
def Call.operation (P : Platform) (s3 : S3Client) (timestamp : Bytes) : Call → Operation Outcome
  | .upload bucketName key content uploadTimeout =>
    (Client.upload P s3 timestamp bucketName key content uploadTimeout).map fun _ => .done
  | .uploadStreamed bucketName key contentLength uploadTimeout =>
    (Client.uploadStreamed P s3 timestamp bucketName key contentLength uploadTimeout).map
      fun _ => .done
  | .downloadFile bucketName key => (Client.downloadFile P s3 timestamp bucketName key).map .stream
  | .downloadFileRange bucketName key start last =>
    (Client.downloadFileRange P s3 timestamp bucketName key start last).map .stream
  | .deleteFile bucketName key => (Client.deleteFile P s3 timestamp bucketName key).map fun _ => .done
  | .createBucket bucketName => (Client.createBucket P s3 timestamp bucketName).map fun _ => .done
  | .getBucketLocation bucketName => (Client.getBucketLocation P s3 timestamp bucketName).map .region
  | .checkIfBucketExists bucketName =>
    (Client.checkIfBucketExists P s3 timestamp bucketName).map .found
  | .listObjectsV2 bucketName request =>
    (Client.listObjectsV2 P s3 timestamp bucketName request).map .page
  | .getObjectSize bucketName key => (Client.getObjectSize P s3 timestamp bucketName key).map .size
  | .openReader bucketName key => (Client.openReader P s3 timestamp bucketName key).map .reader

/-- A url that the storage splits and canonicalises as the client did. -/
structure Splits (url : UrlBuilder) : Prop where
  path : questionMark ∉ url.path
  query : canonicalQuery (url.query.getD []) = canonicalQueryString url.query

/-- A request goes out as it was signed: for its verb, for its url and, unless the payload is
left unsigned, for any body that it may go out with. -/
def Request.GoesOutAsSigned (H : Hashes) (s3 : S3Client) (timestamp : Bytes)
    (request : Request) : Prop :=
  ∃ url payloadHash payload, Splits url ∧
    signRequestWithPayloadHash H s3 timestamp (.ok url) request.verb payloadHash payload =
      .ok request.signed ∧
    (payloadHash = unsignedPayload ∨
      ∀ content, request.body.Sends content → payloadHash = hexEncode (H.sha256 content))

variable {P : Platform} {H : Hashes} {s3 : S3Client} {timestamp : Bytes} {request : Request}

/-- Signing succeeds only for a url. -/
theorem url_of_signRequest {flUrl : Except String UrlBuilder}
    {method payloadHash payload : Bytes} {signed : SignedRequest}
    (h : signRequestWithPayloadHash H s3 timestamp flUrl method payloadHash payload = .ok signed) :
    ∃ url, flUrl = .ok url := by
  cases flUrl with
  | error err => cases h
  | ok url => exact ⟨url, rfl⟩

/-- Path segments make such a url, with the one parameter that has no value or without it. -/
theorem splits_segments (hF : P.segmentUrl.Faithful) {segments : List String}
    {param : Option String} (hparam : param = none ∨ param = some "location") :
    ∀ url, P.segmentUrl.build s3.endpoint segments param = .ok url → Splits url := by
  intro url hurl
  refine ⟨hF.path hurl, ?_⟩
  rw [hF.query hurl]
  rcases hparam with rfl | rfl
  · rfl
  · decide +kernel

/-- A request that is signed for the payload that it goes out with. -/
theorem goesOutAsSigned_payload {flUrl : Except String UrlBuilder} {payload : Bytes}
    (hsplits : ∀ url, flUrl = .ok url → Splits url)
    (hsigned : signRequest H s3 timestamp flUrl request.verb payload = .ok request.signed)
    (hbody : ∀ content, request.body.Sends content → content = payload) :
    request.GoesOutAsSigned H s3 timestamp := by
  obtain ⟨url, rfl⟩ := url_of_signRequest hsigned
  refine ⟨url, _, payload, hsplits url rfl, hsigned, .inr fun content hsends => ?_⟩
  rw [hbody content hsends]

/-- Whatever is called, the request goes out as it was signed. -/
theorem Call.goesOutAsSigned (hF : P.segmentUrl.Faithful) (hraw : P.rawUrl.Verbatim) {call : Call}
    (hrequest : (call.operation P s3 timestamp).request = .ok request) :
    request.GoesOutAsSigned P.hashes s3 timestamp := by
  cases call with
  | upload bucketName key content uploadTimeout =>
    obtain ⟨signed, hsigned, hmade⟩ := bind_ok hrequest
    cases hmade
    exact goesOutAsSigned_payload (splits_segments hF (.inl rfl)) hsigned fun _ hsends => hsends
  | uploadStreamed bucketName key contentLength uploadTimeout =>
    obtain ⟨signed, hsigned, hmade⟩ := bind_ok hrequest
    cases hmade
    obtain ⟨url, hurl⟩ := url_of_signRequest hsigned
    rw [hurl] at hsigned
    exact ⟨url, _, _, splits_segments hF (.inl rfl) url hurl, hsigned, .inl rfl⟩
  | downloadFile bucketName key =>
    obtain ⟨signed, hsigned, hmade⟩ := bind_ok hrequest
    cases hmade
    exact goesOutAsSigned_payload (splits_segments hF (.inl rfl)) hsigned fun _ hsends => hsends
  | downloadFileRange bucketName key start last =>
    change (if last.any (· < start) then _ else _) = _ at hrequest
    split at hrequest
    · cases hrequest
    · -- the range is added behind the signature, which does not cover it
      obtain ⟨signed, hsigned, hmade⟩ := bind_ok hrequest
      cases hmade
      exact goesOutAsSigned_payload (splits_segments hF (.inl rfl)) hsigned fun _ hsends => hsends
  | deleteFile bucketName key =>
    obtain ⟨signed, hsigned, hmade⟩ := bind_ok hrequest
    cases hmade
    exact goesOutAsSigned_payload (splits_segments hF (.inl rfl)) hsigned fun _ hsends => hsends
  | createBucket bucketName =>
    obtain ⟨signed, hsigned, hmade⟩ := bind_ok hrequest
    cases hmade
    apply goesOutAsSigned_payload (splits_segments hF (.inl rfl)) hsigned
    -- what is signed is the configuration or nothing, and so is what is sent
    intro content hsends
    cases hconfiguration : BucketLocation.createBucketConfiguration s3.region with
    | none =>
      simp only [hconfiguration] at hsends
      exact hsends
    | some configuration =>
      simp only [hconfiguration] at hsends
      exact hsends
  | getBucketLocation bucketName =>
    obtain ⟨signed, hsigned, hmade⟩ := bind_ok hrequest
    cases hmade
    exact goesOutAsSigned_payload (splits_segments hF (.inr rfl)) hsigned fun _ hsends => hsends
  | checkIfBucketExists bucketName =>
    obtain ⟨signed, hsigned, hmade⟩ := bind_ok hrequest
    cases hmade
    exact goesOutAsSigned_payload (splits_segments hF (.inl rfl)) hsigned fun _ hsends => hsends
  | listObjectsV2 bucketName listing =>
    obtain ⟨signed, hsigned, hmade⟩ := bind_ok hrequest
    cases hmade
    obtain ⟨url, hquery, hpath, hsign⟩ := ListObjects.signListRequest_query hraw hsigned
    have hsplits : ∀ url', .ok url = Except.ok (ε := String) url' → Splits url' := by
      intro url' hurl
      cases hurl
      refine ⟨hpath, ?_⟩
      rw [hquery]
      exact ListObjects.canonicalQuery_listQuery listing
    exact goesOutAsSigned_payload hsplits hsign fun _ hsends => hsends
  | getObjectSize bucketName key =>
    obtain ⟨signed, hsigned, hmade⟩ := bind_ok hrequest
    cases hmade
    exact goesOutAsSigned_payload (splits_segments hF (.inl rfl)) hsigned fun _ hsends => hsends
  | openReader bucketName key =>
    obtain ⟨signed, hsigned, hmade⟩ := bind_ok hrequest
    cases hmade
    exact goesOutAsSigned_payload (splits_segments hF (.inl rfl)) hsigned fun _ hsends => hsends

end MyS3.Client
