import MyS3.Answer
import MyS3.ListObjects.Parse
import MyS3.Signing.Verify

/-!
# `list_objects_v2`

The request for one page of a listing. Its query is a list of encoded pairs, so every
server that goes by the rule finds the signature it was sent with.
-/

namespace MyS3.ListObjects

open Xml (bytesOf MyXmlReader)
open Query

structure S3ListObjectsRequest where
  prefix_ : Option String
  delimiter : Option String
  continuationToken : Option String
  maxKeys : Option UInt32
  deriving DecidableEq, Repr

/-- The query of a request, built by hand. -/
def listQuery (request : S3ListObjectsRequest) : Bytes :=
  let maxKeys := request.maxKeys.map fun maxKeys => toString maxKeys.toNat
  let query := bytesOf "list-type=2"
  let query := appendQueryParam query "prefix" request.prefix_
  let query := appendQueryParam query "delimiter" request.delimiter
  let query := appendQueryParam query "continuation-token" request.continuationToken
  appendQueryParam query "max-keys" maxKeys

/-- Path and query in one raw ending. -/
def pathAndQuery (bucketName : String) (request : S3ListObjectsRequest) : Bytes :=
  encodeUriComponent bucketName (bytesOf "/") ++ [questionMark] ++ listQuery request

/-- The signed request for a page. -/
def signListRequest (H : Hashes) (F : FlUrl) (s3 : S3Client) (timestamp : Bytes)
    (bucketName : String) (request : S3ListObjectsRequest) : Except S3Error SignedRequest :=
  signRequest H s3 timestamp (F.build s3.endpoint (pathAndQuery bucketName request))
    (bytesOf "GET") []

/-- `list_objects_v2`, over a transport that answers a signed request or fails. -/
def listObjectsV2 (R : MyXmlReader) (H : Hashes) (F : FlUrl)
    (send : SignedRequest → Except FlUrlError Answer) (s3 : S3Client) (timestamp : Bytes)
    (bucketName : String) (request : S3ListObjectsRequest) :
    Except S3Error S3ListObjectsPage := do
  let signed ← signListRequest H F s3 timestamp bucketName request
  let response ← (send signed).mapError .flUrlError
  let body ← readSuccessBody R response
  parseListObjectsV2 R body

/-- The parameters of a request, in the order they are appended. -/
def S3ListObjectsRequest.pairs (request : S3ListObjectsRequest) : List (Bytes × Bytes) :=
  [("list-type", some "2"), ("prefix", request.prefix_), ("delimiter", request.delimiter),
    ("continuation-token", request.continuationToken),
    ("max-keys", request.maxKeys.map fun maxKeys => toString maxKeys.toNat)].flatMap
    fun param => (param.2.map fun value => (bytesOf param.1, bytesOf value)).toList

/-- The query of a request is the list of its parameters, encoded. -/
theorem listQuery_eq (request : S3ListObjectsRequest) :
    listQuery request = joined (request.pairs.map encodedPair) := by
  have htype : bytesOf "list-type=2" =
      joined ([(bytesOf "list-type", bytesOf "2")].map encodedPair) := by decide
  simp only [listQuery, htype, appendQueryParam_eq]
  simp only [S3ListObjectsRequest.pairs, List.flatMap_cons, List.flatMap_nil, List.append_nil,
    Option.map_some, Option.toList_some, List.append_assoc,
    List.cons_append]

/-- What a request carries is found by its name. -/
theorem find_pairs (request : S3ListObjectsRequest) :
    (request.pairs.find? fun pair => pair.1 == bytesOf "prefix").map Prod.snd =
        request.prefix_.map bytesOf ∧
      (request.pairs.find? fun pair => pair.1 == bytesOf "delimiter").map Prod.snd =
        request.delimiter.map bytesOf ∧
      (request.pairs.find? fun pair => pair.1 == bytesOf "continuation-token").map Prod.snd =
        request.continuationToken.map bytesOf ∧
      (request.pairs.find? fun pair => pair.1 == bytesOf "max-keys").map Prod.snd =
        request.maxKeys.map fun maxKeys => bytesOf (toString maxKeys.toNat) := by
  obtain ⟨keyPrefix, delimiter, token, maxKeys⟩ := request
  cases keyPrefix <;> cases delimiter <;> cases token <;> cases maxKeys <;>
    exact ⟨rfl, rfl, rfl, rfl⟩

/-- The path in a raw ending holds no `?`. -/
private theorem questionMark_not_mem_path (bucketName : String) :
    questionMark ∉ encodeUriComponent bucketName (bytesOf "/") := by
  rw [encodeUriComponent_eq, List.mem_append, not_or]
  refine ⟨by decide, fun h => ?_⟩
  exact absurd (mem_encoded h) (by decide)

/-- A signed list request goes out with the query of the request. -/
theorem signListRequest_query {H : Hashes} {F : FlUrl} {s3 : S3Client} {timestamp : Bytes}
    {bucketName : String} {request : S3ListObjectsRequest} {signed : SignedRequest}
    (hF : F.Verbatim)
    (h : signListRequest H F s3 timestamp bucketName request = .ok signed) :
    ∃ url : UrlBuilder, url.query = some (listQuery request) ∧ questionMark ∉ url.path ∧
      signRequest H s3 timestamp (.ok url) (bytesOf "GET") [] = .ok signed := by
  unfold signListRequest at h
  cases hurl : F.build s3.endpoint (pathAndQuery bucketName request) with
  | error err =>
    rw [hurl] at h
    cases h
  | ok url =>
    rw [hurl] at h
    rw [pathAndQuery, List.append_assoc, List.singleton_append] at hurl
    obtain ⟨hquery, hpath⟩ := hF (questionMark_not_mem_path bucketName) hurl
    exact ⟨url, hquery, hpath, h⟩

/-- Both sides bring the query of a request into one canonical form. -/
theorem canonicalQuery_listQuery (request : S3ListObjectsRequest) :
    canonicalQuery (listQuery request) = canonicalQueryString (some (listQuery request)) := by
  rw [listQuery_eq]
  exact canonicalQuery_joined request.pairs

theorem verifySignature_signListRequest {H : Hashes} {F : FlUrl} {s3 : S3Client}
    {timestamp : Bytes} {bucketName : String} {request : S3ListObjectsRequest}
    {signed : SignedRequest} (hF : F.Verbatim)
    (h : signListRequest H F s3 timestamp bucketName request = .ok signed) :
    verifySignature H s3.secretKey signed = true := by
  obtain ⟨url, hquery, hpath, hsign⟩ := signListRequest_query hF h
  exact verifySignature_signRequest hsign hquery hpath (canonicalQuery_listQuery request)

/-- Every list request verifies at the storage: the canonical query that is signed is the
one that a server rebuilds out of the query it received, and so is the signature. -/
theorem list_request_verifies (H : Hashes) (F : FlUrl) (hF : F.Verbatim) (s3 : S3Client)
    (timestamp : Bytes) (bucketName : String) (request : S3ListObjectsRequest) :
    canonicalQuery (listQuery request) = canonicalQueryString (some (listQuery request)) ∧
      ∀ signed, signListRequest H F s3 timestamp bucketName request = .ok signed →
        verifySignature H s3.secretKey signed = true :=
  ⟨canonicalQuery_listQuery request, fun _ hsigned => verifySignature_signListRequest hF hsigned⟩

/-- A prefix with a space, a `+` and two bytes to a letter, and a token full of separators. -/
theorem list_request_verifies_escaped :
    let H : Hashes := ⟨fun bytes => bytes.take 32, fun key bytes => key ++ bytes⟩
    let s3 : S3Client := ⟨"AKIAEXAMPLE", "secret", .awsEuWest1, "http://127.0.0.1:9000"⟩
    let request : S3ListObjectsRequest := ⟨some "a b+c/é", some "/", some "x+/=&%2F?", some 7⟩
    listQuery request = bytesOf
        "list-type=2&prefix=a%20b%2Bc%2F%C3%A9&delimiter=%2F&continuation-token=x%2B%2F%3D%26%252F%3F&max-keys=7" ∧
      ∃ signed,
        signListRequest H rawEndingUrl s3 (bytesOf "20240701T123456Z") "photos" request =
          .ok signed ∧
        verifySignature H s3.secretKey signed = true := by
  intro H s3 request
  refine ⟨by decide +kernel, _, rfl, ?_⟩
  exact (list_request_verifies H rawEndingUrl rawEndingUrl_verbatim s3 _ "photos" request).2 _ rfl

end MyS3.ListObjects
