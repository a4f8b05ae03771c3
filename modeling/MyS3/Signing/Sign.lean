import MyS3.Error
import MyS3.Region
import MyS3.Query.Encode

/-!
# Signing a request

`sign_request` over the url that `FlUrl` has built. SHA-256 and HMAC are any two
functions; `FlUrl` is whatever turns an endpoint and a raw ending into a url.
-/

namespace MyS3

open Xml (bytesOf)
open Query Separated

/-- The fields of the client that a request is made of. -/
structure S3Client where
  accessKey : String
  secretKey : String
  region : S3Region
  endpoint : String
  deriving DecidableEq, Repr

/-- What `get_url_builder` hands out: the `Host` header and the request line. -/
structure UrlBuilder where
  hostPort : Bytes
  path : Bytes
  query : Option Bytes
  deriving DecidableEq, Repr

/-- `?`, between the path and the query. -/
def questionMark : UInt8 := 0x3F

/-- The request target as it is sent. -/
def UrlBuilder.target (url : UrlBuilder) : Bytes :=
  match url.query with
  | none => url.path
  | some query => url.path ++ questionMark :: query

/-- `FlUrl::new(endpoint).append_raw_ending_to_url(ending)`, or the text of the error that
it met. -/
structure FlUrl where
  build : String → Bytes → Except String UrlBuilder

/-- The query of a raw ending is the url's, verbatim, and the path holds no `?`. -/
def FlUrl.Verbatim (F : FlUrl) : Prop :=
  ∀ {endpoint path query url}, questionMark ∉ path →
    F.build endpoint (path ++ questionMark :: query) = .ok url →
      url.query = some query ∧ questionMark ∉ url.path

/-- The host of an endpoint that is a scheme and a host. -/
def hostOf (endpoint : String) : Bytes :=
  let scheme := if (bytesOf "https://").isPrefixOf (bytesOf endpoint) then "https://" else "http://"
  (bytesOf endpoint).drop (bytesOf scheme).length

/-- The url of such an endpoint: the raw ending is split at its first `?`. -/
def rawEndingUrl : FlUrl where
  build endpoint ending :=
    match splitOnce questionMark ending with
    | some (path, query) => .ok ⟨hostOf endpoint, path, some query⟩
    | none => .ok ⟨hostOf endpoint, ending, none⟩

theorem rawEndingUrl_verbatim : rawEndingUrl.Verbatim := by
  intro endpoint path query url hpath hbuild
  simp only [rawEndingUrl, splitOnce_append hpath] at hbuild
  cases hbuild
  exact ⟨rfl, hpath⟩

/-- SHA-256 and HMAC-SHA-256, with the key first. -/
structure Hashes where
  sha256 : Bytes → Bytes
  hmac : Bytes → Bytes → Bytes

/-- `hex::encode`. -/
def hexEncode (bytes : Bytes) : Bytes :=
  bytes.flatMap fun (byte : UInt8) =>
    [(bytesOf "0123456789abcdef").getD (byte >>> 4).toNat 0,
      (bytesOf "0123456789abcdef").getD (byte &&& 0x0F).toNat 0]

/-- What is put into `Authorization`: the credential with its scope, and the signature. -/
structure Authorization where
  accessKey : String
  date : Bytes
  region : Bytes
  signature : Bytes
  deriving DecidableEq, Repr

/-- A request on the wire: its line, the headers that are signed, and its body. -/
structure SignedRequest where
  method : Bytes
  target : Bytes
  host : Bytes
  payloadHash : Bytes
  timestamp : Bytes
  authorization : Authorization
  body : Bytes
  deriving DecidableEq, Repr

/-- The end of a line. -/
def newLine : Bytes := [0x0A]

/-- `/`, between the parts of a scope. -/
def solidus : Bytes := [0x2F]

/-- The canonical request, by the one format that the client and a server share. -/
def canonicalRequest (method path query host payloadHash timestamp : Bytes) : Bytes :=
  method ++ newLine ++ path ++ newLine ++ query ++ newLine ++ bytesOf "host:" ++ host ++ newLine ++
    bytesOf "x-amz-content-sha256:" ++ payloadHash ++ newLine ++
    bytesOf "x-amz-date:" ++ timestamp ++ newLine ++ newLine ++
    bytesOf "host;x-amz-content-sha256;x-amz-date" ++ newLine ++ payloadHash

/-- The scope of a credential. -/
def credentialScope (date region service : Bytes) : Bytes :=
  date ++ solidus ++ region ++ solidus ++ service ++ solidus ++ bytesOf "aws4_request"

/-- The text that is signed. -/
def stringToSign (timestamp scope hashedCanonicalRequest : Bytes) : Bytes :=
  bytesOf "AWS4-HMAC-SHA256" ++ newLine ++ timestamp ++ newLine ++ scope ++ newLine ++
    hashedCanonicalRequest

/-- `get_signature_key`. -/
def getSignatureKey (H : Hashes) (secretKey : String) (date region service : Bytes) : Bytes :=
  let kSecret := bytesOf "AWS4" ++ bytesOf secretKey
  let kDate := H.hmac kSecret date
  let kRegion := H.hmac kDate region
  let kService := H.hmac kRegion service
  H.hmac kService (bytesOf "aws4_request")

/-- `timestamp[..8]`. -/
def dateOf (timestamp : Bytes) : Bytes := timestamp.take 8

/-- `sign_request_with_payload_hash`, with the time it reads off the clock. -/
def signRequestWithPayloadHash (H : Hashes) (s3 : S3Client) (timestamp : Bytes)
    (flUrl : Except String UrlBuilder) (method payloadHash body : Bytes) :
    Except S3Error SignedRequest :=
  match flUrl with
  | .error err => .error (.other s!"Can not sign the request: {err}")
  | .ok url =>
    let service := bytesOf "s3"
    let region := bytesOf s3.region.asStr
    let date := dateOf timestamp
    let canonicalQuery := canonicalQueryString url.query
    let request :=
      canonicalRequest method url.path canonicalQuery url.hostPort payloadHash timestamp
    let scope := credentialScope date region service
    let text := stringToSign timestamp scope (hexEncode (H.sha256 request))
    let signingKey := getSignatureKey H s3.secretKey date region service
    let signature := hexEncode (H.hmac signingKey text)
    .ok
      { method := method
        target := url.target
        host := url.hostPort
        payloadHash := payloadHash
        timestamp := timestamp
        authorization := ⟨s3.accessKey, date, region, signature⟩
        body := body }

/-- `sign_request`, which signs the hash of the payload. -/
def signRequest (H : Hashes) (s3 : S3Client) (timestamp : Bytes)
    (flUrl : Except String UrlBuilder) (method payload : Bytes) :
    Except S3Error SignedRequest :=
  signRequestWithPayloadHash H s3 timestamp flUrl method (hexEncode (H.sha256 payload)) payload

end MyS3
