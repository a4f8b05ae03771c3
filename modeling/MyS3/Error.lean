import MyS3.Io

/-!
# Errors of the client

`S3Error` with its text and its classification by `isRetryable`. Errors of the
transport are kept to what the crate reads of them.
-/

namespace MyS3

/-- The variants of `FlUrlError` that decide whether a request is repeated. -/
inductive FlUrlErrorVariant where
  | ioError
  | readingHyperBodyError
  | myHttpClientError (retryable : Bool)
  | unlisted
  deriving DecidableEq, Repr

/-- What the crate reads of a transport error: `is_timeout()`, the variant and its
`Debug` text. -/
structure FlUrlError where
  isTimeout : Bool
  variant : FlUrlErrorVariant
  debug : String
  deriving DecidableEq, Repr

inductive S3Error where
  | flUrlError (err : FlUrlError)
  | bucketAlreadyExists
  | bucketAlreadyOwnedByYou
  | bucketNotFound
  | keyNotFound
  | noSuchUpload
  | entityTooSmall
  | rangeNotSatisfiable
  | unexpectedStatusCode (statusCode : Nat) (errorCode : Option String) (body : String)
  | uploadProducerFailed (err : IoError)
  | other (message : String)
  deriving DecidableEq, Repr

def S3Error.isKeyNotFound : S3Error → Bool
  | .keyNotFound => true
  | _ => false

/-- `is_bucket_already_owned_by_you`. -/
def S3Error.isBucketAlreadyOwnedByYou : S3Error → Bool
  | .bucketAlreadyOwnedByYou => true
  | _ => false

/-- Transport failures that say nothing about the request; everything unlisted is
not repeated. -/
def flUrlErrorIsRetryable (err : FlUrlError) : Bool :=
  if err.isTimeout then true
  else match err.variant with
    | .ioError | .readingHyperBodyError => true
    | .myHttpClientError retryable => retryable
    | .unlisted => false

/-- The error codes by which S3 asks for a retry whatever the status. -/
def retryableErrorCodes : List String :=
  ["SlowDown", "RequestTimeout", "RequestTimeTooSkewed", "InternalError", "ServiceUnavailable"]

/-- Whether repeating the very same request could plausibly succeed. -/
def S3Error.isRetryable : S3Error → Bool
  | .flUrlError err => flUrlErrorIsRetryable err
  | .unexpectedStatusCode statusCode errorCode _ =>
    match errorCode with
    | some code =>
      retryableErrorCodes.contains code || decide (500 ≤ statusCode) || statusCode == 429
    | none => decide (500 ≤ statusCode) || statusCode == 429
  | .bucketAlreadyExists | .bucketAlreadyOwnedByYou | .bucketNotFound | .keyNotFound
  | .noSuchUpload | .entityTooSmall | .rangeNotSatisfiable => false
  | .uploadProducerFailed _ => false
  | .other _ => false

/-- `Display` of `S3Error`, from which an `io::Error` takes its text. -/
def S3Error.display : S3Error → String
  | .flUrlError err => s!"FlUrl error: {err.debug}"
  | .bucketAlreadyExists => "BucketAlreadyExists"
  | .bucketAlreadyOwnedByYou => "BucketAlreadyOwnedByYou"
  | .bucketNotFound => "NoSuchBucket"
  | .keyNotFound => "NoSuchKey"
  | .noSuchUpload => "NoSuchUpload"
  | .entityTooSmall => "EntityTooSmall"
  | .rangeNotSatisfiable => "RangeNotSatisfiable"
  | .unexpectedStatusCode statusCode _ body => s!"Status Code: {statusCode}. Err: {body}"
  | .uploadProducerFailed err => s!"The upload body could not be produced: {err.message}"
  | .other message => message

/-- A producer's failure is never repeated. -/
@[simp] theorem S3Error.isRetryable_uploadProducerFailed (err : IoError) :
    (S3Error.uploadProducerFailed err).isRetryable = false := rfl

end MyS3
