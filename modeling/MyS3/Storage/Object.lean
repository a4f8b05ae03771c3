import Mathlib.Data.List.AList
import MyS3.Answer
import MyS3.Core.Separated
import MyS3.Reader.Position
import MyS3.Signing.Sign

/-!
# What the storage serves

The objects of a storage, read whole or by range, and the answer as it is written to the
connection.
-/

namespace MyS3.Storage

open Xml (bytesOf trim parseU64 eqIgnoreAsciiCase)
open Reader (range)
open Separated

/-- A map whose keys are request paths. -/
abbrev Paths : Type := AList fun _ : Bytes => Bytes

/-- A header field. -/
abbrev Header : Type := String × String

/-- The value of the first field of that name, whatever the case of its letters. -/
def findHeader (headers : List Header) (name : String) : Option String :=
  (headers.find? fun field => eqIgnoreAsciiCase field.1.toList name.toList).map Prod.snd

@[simp] theorem findHeader_nil (name : String) : findHeader [] name = none := rfl

@[simp] theorem findHeader_cons (field : Header) (headers : List Header) (name : String) :
    findHeader (field :: headers) name =
      if eqIgnoreAsciiCase field.1.toList name.toList then some field.2
      else findHeader headers name := by
  unfold findHeader
  rw [List.find?_cons]
  split
  · rename_i heq
    rw [if_pos heq, Option.map_some]
  · rename_i heq
    rw [if_neg (by simp [heq])]

/-- What goes back on the wire. -/
structure Response where
  statusCode : Nat
  body : Bytes
  contentType : String
  extraHeaders : List Header
  lieAboutLength : Option Nat
  deriving DecidableEq, Repr

/-- `Response::empty_ok`. -/
def Response.emptyOk : Response where
  statusCode := 200
  body := []
  contentType := "application/xml"
  extraHeaders := []
  lieAboutLength := none

/-- `NO_SUCH_KEY`. -/
def noSuchKey : Bytes := bytesOf ("<?xml version=\"1.0\" encoding=\"UTF-8\"?>" ++
  "<Error><Code>NoSuchKey</Code><Message>The specified key does not exist.</Message></Error>")

/-- `INVALID_RANGE`. -/
def invalidRange : Bytes := bytesOf ("<?xml version=\"1.0\" encoding=\"UTF-8\"?>" ++
  "<Error><Code>InvalidRange</Code><Message>The requested range is not satisfiable</Message></Error>")

/-- `parse_range`: the first and the last byte, clamped to the object. -/
def parseRange (value : String) (length : Nat) : Option (Nat × Nat) := do
  let spec ← (trim value).dropPrefix? "bytes=".toList
  let (first, last) ← splitOnce '-' spec
  let start ← parseU64 (trim (String.ofList first))
  if length ≤ start then none
  else
    let last := trim (String.ofList last)
    let «end» ← if last = [] then some (length - 1)
      else (parseU64 last).map fun last => min last (length - 1)
    if «end» < start then none else some (start, «end»)

/-- The part of a target in front of its query. -/
def pathOf (target : Bytes) : Bytes :=
  match splitOnce questionMark target with
  | some (path, _) => path
  | none => target

/-- The storage splits the target of a url into its path and its query. -/
theorem splitOnce_target {url : UrlBuilder} (hpath : questionMark ∉ url.path) :
    splitOnce questionMark url.target = url.query.map fun query => (url.path, query) := by
  obtain ⟨hostPort, path, query⟩ := url
  cases query with
  | none =>
    cases hsplit : splitOnce questionMark path with
    | none => exact hsplit
    | some halves =>
      refine absurd ?_ hpath
      rw [eq_of_splitOnce hsplit]
      simp
  | some query => exact splitOnce_append hpath

/-- What stands in front of the query is the path. -/
theorem pathOf_target {url : UrlBuilder} (hpath : questionMark ∉ url.path) :
    pathOf url.target = url.path := by
  rw [pathOf, splitOnce_target hpath]
  cases hquery : url.query with
  | none =>
    simp only [Option.map_none]
    rw [UrlBuilder.target, hquery]
  | some query => rfl

/-- `serve_from_objects`. -/
def serveFromObjects (objects : Paths) (method : String) (target : Bytes)
    (range? : Option String) : Option Response :=
  if eqIgnoreAsciiCase method.toList "GET".toList = false ∧
      eqIgnoreAsciiCase method.toList "HEAD".toList = false then none
  else if objects.entries = [] then none
  else
    match objects.lookup (pathOf target) with
    | none => some
      { statusCode := 404
        body := noSuchKey
        contentType := "application/xml"
        extraHeaders := []
        lieAboutLength := none }
    | some content =>
      match range? with
      | none => some
        { statusCode := 200
          body := content
          contentType := "application/octet-stream"
          extraHeaders := []
          lieAboutLength := none }
      | some value =>
        match parseRange value content.length with
        | none => some
          { statusCode := 416
            body := invalidRange
            contentType := "application/xml"
            extraHeaders := []
            lieAboutLength := none }
        | some (start, last) => some
          { statusCode := 206
            body := range content start last
            contentType := "application/octet-stream"
            extraHeaders := [("Content-Range", s!"bytes {start}-{last}/{content.length}")]
            lieAboutLength := none }

/-- A storage without objects leaves every request to the default answer. -/
theorem serveFromObjects_empty (method : String) (target : Bytes) (range? : Option String) :
    serveFromObjects ∅ method target range? = none := by
  unfold serveFromObjects
  split
  · rfl
  · exact if_pos rfl

/-- An answer as it is written: its status, its fields and the bytes behind its head. -/
structure Written where
  statusCode : Nat
  headers : List Header
  body : Bytes
  deriving DecidableEq, Repr

/-- The head of an answer that has a length. -/
def framed (response : Response) (declaredLength : Nat) : List Header :=
  [("Content-Length", toString declaredLength), ("Content-Type", response.contentType)] ++
    response.extraHeaders ++ [("Connection", "keep-alive")]

/-- `write_response`. The answer to a `HEAD` says how long its body would be, and a 204 has
neither a body nor a length. -/
def writeResponse (response : Response) (answeringAHead : Bool) : Written :=
  match response.lieAboutLength with
  | some declaredLength =>
    { statusCode := response.statusCode
      headers := framed response declaredLength
      body := response.body }
  | none =>
    if answeringAHead then
      { statusCode := response.statusCode
        headers := framed response response.body.length
        body := [] }
    else if response.statusCode = 204 then
      { statusCode := response.statusCode
        headers := [("Connection", "keep-alive")]
        body := [] }
    else
      { statusCode := response.statusCode
        headers := framed response response.body.length
        body := response.body }

/-- An answer has the status of its response. -/
@[simp] theorem statusCode_writeResponse (response : Response) (answeringAHead : Bool) :
    (writeResponse response answeringAHead).statusCode = response.statusCode := by
  unfold writeResponse
  split
  · rfl
  · split
    · rfl
    · split <;> rfl

end MyS3.Storage
