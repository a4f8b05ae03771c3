import MyS3.BucketLocation.Constraint
import MyS3.BucketLocation.Parse
import MyS3.Client.Response
import MyS3.ListObjects.Request
import MyS3.Signing.Sign
import MyS3.Xml.Place

/-!
# The operations of the client

Every operation sends at most one request and concludes from its answer. The request that is
signed and the one that is sent are kept apart: the verb and the body are chosen twice.
-/

namespace MyS3.Client

open Xml (MyXmlReader bytesOf)
open BucketLocation (createBucketConfiguration parseBucketLocation)
open ListObjects (S3ListObjectsPage S3ListObjectsRequest parseListObjectsV2 signListRequest)

/-- `FlUrl::new(endpoint)` with path segments and at most one parameter without a value, or
the text of the error that it met. -/
structure SegmentUrl where
  build : String → List String → Option String → Except String UrlBuilder

/-- A parameter without a value is the whole query, and the path holds no `?`. -/
structure SegmentUrl.Faithful (F : SegmentUrl) : Prop where
  path : ∀ {endpoint segments param url}, F.build endpoint segments param = .ok url →
    questionMark ∉ url.path
  query : ∀ {endpoint segments param url}, F.build endpoint segments param = .ok url →
    url.query = param.map bytesOf

/-- The url of an endpoint that is a scheme and a host: every segment is percent-encoded. -/
def encodedSegmentsUrl : SegmentUrl where
  build endpoint segments param := .ok {
    hostPort := hostOf endpoint
    path := segments.flatMap fun segment => Query.encodeUriComponent segment (bytesOf "/")
    query := param.map bytesOf }

theorem encodedSegmentsUrl_faithful : encodedSegmentsUrl.Faithful := by
  constructor
  · intro endpoint segments param url hbuild hmem
    cases hbuild
    obtain ⟨segment, -, hsegment⟩ := List.mem_flatMap.mp hmem
    rw [Query.encodeUriComponent_eq, List.mem_append] at hsegment
    rcases hsegment with hslash | hencoded
    · exact absurd hslash (by decide)
    · exact absurd (Query.mem_encoded hencoded) (by decide)
  · intro endpoint segments param url hbuild
    cases hbuild
    rfl

/-- What the client is built over. -/
structure Platform where
  hashes : Hashes
  rawUrl : FlUrl
  segmentUrl : SegmentUrl
  xml : MyXmlReader

/-- A platform that can be computed. Its hashes only shorten. -/
def plainPlatform : Platform where
  hashes := ⟨fun bytes => bytes.take 4, fun _ bytes => bytes.take 4⟩
  rawUrl := rawEndingUrl
  segmentUrl := encodedSegmentsUrl
  xml := Xml.placeReader

/-- A client of a storage on this machine. -/
def plainClient : S3Client where
  accessKey := "AKIAEXAMPLE"
  secretKey := "secret"
  region := .hetznerFsn1
  endpoint := "http://127.0.0.1:9000"

/-- The body that goes out with a request. -/
inductive RequestBody where
  | empty
  | raw (content : Bytes) (contentType : Option String)
  | streamed (contentLength : Nat)
  deriving DecidableEq, Repr

/-- The bytes that a body may come to. A streamed body has its declared length. -/
def RequestBody.Sends : RequestBody → Bytes → Prop
  | .empty, content => content = []
  | .raw body _, content => content = body
  | .streamed contentLength, content => content.length = contentLength

/-- A request as it is handed to `FlUrl` to be sent: the signed head, the verb that is
called, the one header that is added behind the signature, and the body. -/
structure Request where
  signed : SignedRequest
  verb : Bytes
  range : Option String
  body : RequestBody
  timeout : Option Nat
  retries : Nat
  deriving DecidableEq, Repr

/-- The head of a request without a body, three times retried. -/
def Request.plain (verb : String) (signed : SignedRequest) : Request where
  signed := signed
  verb := bytesOf verb
  range := none
  body := .empty
  timeout := none
  retries := 3

/-- One call of the client: what it sends, if it sends anything, and what it makes of the
answer. -/
structure Operation (α : Type) where
  request : Except S3Error Request
  conclude : FlUrlResponse → Except S3Error α

/-- The call over a transport that answers a request or fails. -/
def Operation.run {α : Type} (operation : Operation α)
    (send : Request → Except FlUrlError FlUrlResponse) : Except S3Error α := do
  let request ← operation.request
  let response ← (send request).mapError .flUrlError
  operation.conclude response

/-- A call succeeds only with an answer to its request. -/
theorem Operation.run_ok {α : Type} {operation : Operation α} {a : α}
    {send : Request → Except FlUrlError FlUrlResponse} (h : operation.run send = .ok a) :
    ∃ request response, operation.request = .ok request ∧ send request = .ok response ∧
      operation.conclude response = .ok a := by
  obtain ⟨request, hrequest, hsent⟩ := bind_ok h
  obtain ⟨response, hresponse, hconclude⟩ := bind_ok hsent
  exact ⟨request, response, hrequest, mapError_ok hresponse, hconclude⟩

/-- A call whose request is answered concludes from the answer. -/
theorem Operation.run_of_answer {α : Type} {operation : Operation α} {request : Request}
    {response : FlUrlResponse} {send : Request → Except FlUrlError FlUrlResponse}
    (hrequest : operation.request = .ok request) (hsend : send request = .ok response) :
    operation.run send = operation.conclude response := by
  simp only [Operation.run, hrequest]
  change ((send request).mapError S3Error.flUrlError >>= operation.conclude) = _
  rw [hsend]
  rfl

section Operations

variable (P : Platform) (s3 : S3Client) (timestamp : Bytes)

/-- `FlUrl::new(endpoint).append_path_segment(bucket_name).append_path_segment(key)`. -/
def objectUrl (bucketName key : String) : Except String UrlBuilder :=
  P.segmentUrl.build s3.endpoint [bucketName, key] none

/-- `FlUrl::new(endpoint).append_path_segment(bucket_name)`. -/
def bucketUrl (bucketName : String) : Except String UrlBuilder :=
  P.segmentUrl.build s3.endpoint [bucketName] none

/-- `UNSIGNED-PAYLOAD`, in place of a hash that cannot be known. -/
def unsignedPayload : Bytes := bytesOf "UNSIGNED-PAYLOAD"

/-- `upload`. -/
def upload (bucketName key : String) (content : Bytes) (uploadTimeout : Nat) :
    Operation Unit where
  request := do
    let signed ← signRequest P.hashes s3 timestamp (objectUrl P s3 bucketName key)
      (bytesOf "PUT") content
    return {
      Request.plain "PUT" signed with
      body := .raw content none
      timeout := some uploadTimeout }
  conclude := expectSuccess P.xml

/-- `upload_streamed`, up to the body that its channel delivers. -/
def uploadStreamed (bucketName key : String) (contentLength uploadTimeout : Nat) :
    Operation Unit where
  request := do
    let signed ← signRequestWithPayloadHash P.hashes s3 timestamp (objectUrl P s3 bucketName key)
      (bytesOf "PUT") unsignedPayload []
    return {
      Request.plain "PUT" signed with
      body := .streamed contentLength
      timeout := some uploadTimeout
      retries := 0 }
  conclude := expectSuccess P.xml

/-- The value of `Range`; both ends are inclusive. -/
def rangeHeader : Nat × Option Nat → String
  | (start, some last) => s!"bytes={start}-{last}"
  | (start, none) => s!"bytes={start}-"

/-- What `open_object` makes of the head of an answer. -/
def openObjectAnswer (range : Option (Nat × Option Nat)) (response : FlUrlResponse) :
    Except S3Error FlUrlResponse :=
  let expected := if range.isSome then 206 else 200
  if response.statusCode = expected then .ok response
  else if range.isSome ∧ response.statusCode = 416 then .error .rangeNotSatisfiable
  else if range.isSome ∧ response.statusCode = 200 then
    .error (.other
      "Server ignored the Range header and returned the full object (200 instead of 206)")
  else do
    let body ← response.readAnswer
    .error (detectError P.xml response.statusCode body)

/-- `open_object`. The range is added behind the signature. -/
def openObject (bucketName key : String) (range : Option (Nat × Option Nat)) :
    Operation FlUrlResponse where
  request := do
    let signed ← signRequest P.hashes s3 timestamp (objectUrl P s3 bucketName key)
      (bytesOf "GET") []
    return { Request.plain "GET" signed with range := range.map rangeHeader }
  conclude := openObjectAnswer P range

/-- `download_file`. -/
def downloadFile (bucketName key : String) : Operation S3DownloadStream where
  request := (openObject P s3 timestamp bucketName key none).request
  conclude response := do
    let response ← (openObject P s3 timestamp bucketName key none).conclude response
    S3DownloadStream.fromResponse response

/-- `download_file_range`. A range that ends before it starts is refused unsent. -/
def downloadFileRange (bucketName key : String) (start : Nat) (last : Option Nat) :
    Operation S3DownloadStream where
  request :=
    if last.any (· < start) then
      .error (.other s!"Invalid range: end ({last.getD 0}) < start ({start})")
    else (openObject P s3 timestamp bucketName key (some (start, last))).request
  conclude response := do
    let response ← (openObject P s3 timestamp bucketName key (some (start, last))).conclude response
    S3DownloadStream.fromResponse response

/-- `delete_file`. -/
def deleteFile (bucketName key : String) : Operation Unit where
  request := do
    let signed ← signRequest P.hashes s3 timestamp (objectUrl P s3 bucketName key)
      (bytesOf "DELETE") []
    return Request.plain "DELETE" signed
  conclude := expectSuccess P.xml

/-- `create_bucket`. -/
def createBucket (bucketName : String) : Operation Unit where
  request := do
    let configuration := createBucketConfiguration s3.region
    let signed ← signRequest P.hashes s3 timestamp (bucketUrl P s3 bucketName) (bytesOf "PUT")
      (configuration.getD [])
    return {
      Request.plain "PUT" signed with
      body := match configuration with
        | some configuration => .raw configuration (some "application/xml")
        | none => .empty }
  conclude := expectSuccess P.xml

/-- `create_bucket_if_not_exists`. -/
def createBucketIfNotExists (bucketName : String)
    (send : Request → Except FlUrlError FlUrlResponse) : Except S3Error Unit :=
  match (createBucket P s3 timestamp bucketName).run send with
  | .error err => if err.isBucketAlreadyOwnedByYou then .ok () else .error err
  | .ok () => .ok ()

/-- `get_bucket_location`. -/
def getBucketLocation (bucketName : String) : Operation S3Region where
  request := do
    let flUrl := P.segmentUrl.build s3.endpoint [bucketName] (some "location")
    let signed ← signRequest P.hashes s3 timestamp flUrl (bytesOf "GET") []
    return Request.plain "GET" signed
  conclude response := do
    let body ← readSuccessBody P.xml response
    parseBucketLocation P.xml body

/-- `check_if_bucket_exists`. The answer to a `HEAD` has no body to be read. -/
def checkIfBucketExists (bucketName : String) : Operation Bool where
  request := do
    let signed ← signRequest P.hashes s3 timestamp (bucketUrl P s3 bucketName)
      (bytesOf "HEAD") []
    return Request.plain "HEAD" signed
  conclude response :=
    if isSuccess response.statusCode then .ok true
    else if response.statusCode = 404 then .ok false
    else .error (detectError P.xml response.statusCode [])

/-- `list_objects_v2`. -/
def listObjectsV2 (bucketName : String) (request : S3ListObjectsRequest) :
    Operation S3ListObjectsPage where
  request := do
    let signed ← signListRequest P.hashes P.rawUrl s3 timestamp bucketName request
    return Request.plain "GET" signed
  conclude response := do
    let body ← readSuccessBody P.xml response
    parseListObjectsV2 P.xml body

/-- `get_object_size`. -/
def getObjectSize (bucketName key : String) : Operation Nat where
  request := do
    let signed ← signRequest P.hashes s3 timestamp (objectUrl P s3 bucketName key)
      (bytesOf "HEAD") []
    return Request.plain "HEAD" signed
  conclude response :=
    if isSuccess response.statusCode = false then
      .error (detectError P.xml response.statusCode [])
    else
      match response.contentLength with
      | some contentLength => .ok contentLength
      | none => .error (.other
          s!"HEAD {bucketName}/{key} answered {response.statusCode} without a usable Content-Length")

/-- `open_reader`. -/
def openReader (bucketName key : String) : Operation Reader.S3Reader where
  request := (getObjectSize P s3 timestamp bucketName key).request
  conclude response := do
    let size ← (getObjectSize P s3 timestamp bucketName key).conclude response
    return .new bucketName key size

end Operations

/-- The url of a plain object. -/
def plainUrl : UrlBuilder where
  hostPort := bytesOf "127.0.0.1:9000"
  path := bytesOf "/b/k"
  query := none

theorem objectUrl_plain : objectUrl plainPlatform plainClient "b" "k" = .ok plainUrl := by
  decide +kernel

end MyS3.Client
