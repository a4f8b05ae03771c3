import MyS3.Error
import MyS3.Xml.Walker

/-!
# The answer to a request

A status that is no success is told apart by the error code in the body.
-/

namespace MyS3

open Xml

/-- What the storage answers. -/
structure Answer where
  statusCode : Nat
  body : Bytes

/-- `is_success`. -/
def isSuccess (statusCode : Nat) : Bool := 200 ≤ statusCode && statusCode < 300

/-- `map_error_code`. -/
def mapErrorCode (errorCode : String) : Option S3Error :=
  match errorCode with
  | "BucketAlreadyExists" => some .bucketAlreadyExists
  | "BucketAlreadyOwnedByYou" => some .bucketAlreadyOwnedByYou
  | "NoSuchBucket" => some .bucketNotFound
  | "NoSuchKey" => some .keyNotFound
  | "NoSuchUpload" => some .noSuchUpload
  | "EntityTooSmall" => some .entityTooSmall
  | "InvalidRange" => some .rangeNotSatisfiable
  | _ => none

/-- `detect_error`: a code that is known decides, and the status where there is none. -/
def detectError (R : MyXmlReader) (statusCode : Nat) (body : Bytes) : S3Error :=
  let errorCode := readNodeText R body "Error/Code"
  match errorCode.bind mapErrorCode with
  | some err => err
  | none =>
    if errorCode = none ∧ statusCode = 404 then .keyNotFound
    else if errorCode = none ∧ statusCode = 416 then .rangeNotSatisfiable
    else .unexpectedStatusCode statusCode errorCode (fromUtf8Lossy body)

/-- `read_success_body`, once the body has arrived. -/
def readSuccessBody (R : MyXmlReader) (answer : Answer) : Except S3Error Bytes :=
  if isSuccess answer.statusCode then .ok answer.body
  else .error (detectError R answer.statusCode answer.body)

end MyS3
