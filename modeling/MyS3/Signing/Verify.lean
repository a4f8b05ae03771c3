import MyS3.Query.Server
import MyS3.Signing.Sign

/-!
# Verifying a signature

A server signs the request again as it received it. A request whose query it brings into
the canonical form that was signed is one whose signature it finds.
-/

namespace MyS3

open Xml (bytesOf)
open Query Separated

/-- `derive_signing_key`, one part after the other. -/
def deriveSigningKey (H : Hashes) (secretKey : String) (date region service : Bytes) : Bytes :=
  [date, region, service, bytesOf "aws4_request"].foldl H.hmac
    (bytesOf "AWS4" ++ bytesOf secretKey)

/-- `verify_signature`: the signature is computed again from the request as received, with
the region of the credential's scope. -/
def verifySignature (H : Hashes) (secretKey : String) (received : SignedRequest) : Bool :=
  let payloadHash := received.payloadHash
  if payloadHash ≠ bytesOf "UNSIGNED-PAYLOAD" ∧ hexEncode (H.sha256 received.body) ≠ payloadHash
  then false
  else
    let scopeRegion := received.authorization.region
    let (path, query) := match splitOnce questionMark received.target with
      | some (path, query) => (path, some query)
      | none => (received.target, none)
    let query := canonicalQuery (query.getD [])
    let request :=
      canonicalRequest received.method path query received.host payloadHash received.timestamp
    let date := dateOf received.timestamp
    let scope := credentialScope date scopeRegion (bytesOf "s3")
    let text := stringToSign received.timestamp scope (hexEncode (H.sha256 request))
    let signingKey := deriveSigningKey H secretKey date scopeRegion (bytesOf "s3")
    hexEncode (H.hmac signingKey text) == received.authorization.signature

/-- Both sides derive one key. -/
theorem deriveSigningKey_eq (H : Hashes) (secretKey : String) (date region service : Bytes) :
    deriveSigningKey H secretKey date region service =
      getSignatureKey H secretKey date region service := rfl

/-- A signed request verifies as soon as the server finds its path and, for its query, the
canonical form that was signed. -/
theorem verifySignature_signRequest {H : Hashes} {s3 : S3Client} {timestamp : Bytes}
    {url : UrlBuilder} {query method payload : Bytes} {signed : SignedRequest}
    (hsigned : signRequest H s3 timestamp (.ok url) method payload = .ok signed)
    (hquery : url.query = some query) (hpath : questionMark ∉ url.path)
    (hcanonical : canonicalQuery query = canonicalQueryString (some query)) :
    verifySignature H s3.secretKey signed = true := by
  cases hsigned
  have htarget : splitOnce questionMark url.target = some (url.path, query) := by
    simp only [UrlBuilder.target, hquery]
    exact splitOnce_append hpath
  simp only [verifySignature, htarget, Option.getD_some, hcanonical, hquery, deriveSigningKey_eq,
    ne_eq, not_true_eq_false, and_false, if_false, BEq.rfl]

end MyS3
