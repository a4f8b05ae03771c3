import MyS3.Client.Call
import MyS3.Xml.Place
import MyS3.Xml.Spelling

/-!
# What a failed answer becomes

An answer that is no success becomes the error that its document names. A document without a
code, and the answer to a `HEAD`, which has no document, leave it to the status.
-/

namespace MyS3

open Nesting (WellNested)
open Xml (MyXmlReader bytesOf bracket element fromUtf8Lossy isSafeToRead lt placed placedFrom
  placeReader readNodeText resolve tags unescape bytesOf_injective fromUtf8_bytesOf
  isSafeToRead_iff readNodeText_cases unescapeChars_append unescapeChars_nil)

/-- An answer whose document has this code at `Error/Code`. -/
structure ErrorDocument (body : Bytes) (code : String) : Prop where
  safe : isSafeToRead body = true
  code : ∃ tag raw, element body "Error/Code" = some tag ∧ lt ∈ tag.behind ∧
    tag.textBehind = bytesOf raw ∧ unescape raw = code

variable {R : MyXmlReader} {body : Bytes} {code : String}

/-- A text whose tags are in order and that has a plain code at `Error/Code`. -/
theorem ErrorDocument.of_element {text : String}
    (hnested : ∃ ts ∈ tags (bytesOf text), WellNested (ts.map bracket))
    (helement : ∃ tag ∈ element (bytesOf text) "Error/Code",
      lt ∈ tag.behind ∧ tag.textBehind = bytesOf code)
    (hplain : '&' ∉ code.toList) : ErrorDocument (bytesOf text) code := by
  obtain ⟨ts, htags, hnested⟩ := hnested
  obtain ⟨tag, htag, hlt, hcode⟩ := helement
  have hdecoded : unescape code = code := by
    have hchars := unescapeChars_append hplain []
    rw [List.append_nil, unescapeChars_nil, List.append_nil] at hchars
    rw [unescape, hchars, String.ofList_toList]
  constructor
  · apply isSafeToRead_iff.mpr
    refine ⟨?_, ts, htags, hnested⟩
    rw [fromUtf8_bytesOf]
    rfl
  · exact ⟨tag, code, htag, hlt, hcode, hdecoded⟩

/-- Nothing is found in an empty document. -/
theorem readNodeText_placeReader_nil (xPath : String) :
    readNodeText placeReader [] xPath = none := by
  unfold Xml.readNodeText
  split
  · simp only [placeReader, placed, placedFrom, resolve]
  · rfl

theorem ErrorDocument.readNodeText (h : ErrorDocument body code) (hR : R.ReadsInPlace) :
    Xml.readNodeText R body "Error/Code" = some code := by
  obtain ⟨tag, raw, htag, hlt, hraw, hcode⟩ := h.code
  rcases readNodeText_cases hR h.safe htag with ⟨hnone, -⟩ | ⟨-, text, htext, hread⟩
  · exact absurd hlt hnone
  · rw [hread, bytesOf_injective (htext.trans hraw), hcode]

/-- What a document with this code makes of a failure. -/
def codeError (statusCode : Nat) (body : Bytes) (code : String) : S3Error :=
  (mapErrorCode code).getD (.unexpectedStatusCode statusCode (some code) (fromUtf8Lossy body))

/-- What the status makes of a failure where there is no code. -/
def statusError (statusCode : Nat) (body : Bytes) : S3Error :=
  if statusCode = 404 then .keyNotFound
  else if statusCode = 416 then .rangeNotSatisfiable
  else .unexpectedStatusCode statusCode none (fromUtf8Lossy body)

/-- A code that is there decides. -/
theorem ErrorDocument.detectError (h : ErrorDocument body code) (hR : R.ReadsInPlace)
    (statusCode : Nat) : MyS3.detectError R statusCode body = codeError statusCode body code := by
  simp only [MyS3.detectError, h.readNodeText hR, Option.bind_some, codeError]
  cases mapErrorCode code with
  | some err => rfl
  | none => simp

/-- The status decides where there is no code. -/
theorem detectError_eq_statusError (hnone : readNodeText R body "Error/Code" = none)
    (statusCode : Nat) : detectError R statusCode body = statusError statusCode body := by
  simp only [detectError, hnone, Option.bind_none, statusError, true_and]

/-- No code that is known is worth another try. -/
theorem not_retryable_of_mapErrorCode {err : S3Error} (h : mapErrorCode code = some err) :
    err.isRetryable = false := by
  unfold mapErrorCode at h
  split at h <;> cases h <;> rfl

/-- A failure is worth another try exactly if its code is unknown, and either asks for one or
comes with a status that does. -/
theorem codeError_isRetryable {statusCode : Nat} :
    (codeError statusCode body code).isRetryable = true ↔
      mapErrorCode code = none ∧
        (code ∈ retryableErrorCodes ∨ 500 ≤ statusCode ∨ statusCode = 429) := by
  unfold codeError
  cases hcode : mapErrorCode code with
  | some err => simp [not_retryable_of_mapErrorCode hcode]
  | none => simp [S3Error.isRetryable, or_assoc]

/-- Without a code the status alone is asked. -/
theorem statusError_isRetryable {statusCode : Nat} :
    (statusError statusCode body).isRetryable = true ↔ 500 ≤ statusCode ∨ statusCode = 429 := by
  unfold statusError
  by_cases hmissing : statusCode = 404
  · subst hmissing
    simp [S3Error.isRetryable]
  · rw [if_neg hmissing]
    by_cases hrange : statusCode = 416
    · subst hrange
      simp [S3Error.isRetryable]
    · simp [if_neg hrange, S3Error.isRetryable]

namespace Client

variable {P : Platform} {s3 : S3Client} {timestamp : Bytes} {response : FlUrlResponse}

/-- An answer that is no success, read to its end, and its document. -/
structure Refusal (response : FlUrlResponse) (body : Bytes) (code : String) : Prop where
  status : isSuccess response.statusCode = false
  answer : response.readAnswer = .ok body
  document : ErrorDocument body code

/-- The calls that send a `HEAD`, whose answer has no document. -/
def Call.sendsHead : Call → Bool
  | .checkIfBucketExists _ | .getObjectSize _ _ | .openReader _ _ => true
  | _ => false

private theorem not_head {verb : String} (h : verb ≠ "HEAD") :
    false = true ↔ bytesOf verb = bytesOf "HEAD" :=
  iff_of_false Bool.false_ne_true fun heq => h (bytesOf_injective heq)

/-- They are known by the verb of their request. -/
theorem Call.sendsHead_iff {call : Call} {request : Request}
    (hrequest : (call.operation P s3 timestamp).request = .ok request) :
    call.sendsHead = true ↔ request.verb = bytesOf "HEAD" := by
  cases call with
  | downloadFileRange bucketName key start last =>
    change (if last.any (· < start) then _ else _) = _ at hrequest
    split at hrequest
    · cases hrequest
    · obtain ⟨signed, -, hmade⟩ := bind_ok hrequest
      cases hmade
      exact not_head (by decide)
  | checkIfBucketExists bucketName | getObjectSize bucketName key | openReader bucketName key =>
    obtain ⟨signed, -, hmade⟩ := bind_ok hrequest
    cases hmade
    exact iff_of_true rfl rfl
  | _ =>
    obtain ⟨signed, -, hmade⟩ := bind_ok hrequest
    cases hmade
    exact not_head (by decide)

/-- What a call makes of an answer that refuses it. A `HEAD` goes by the status alone. -/
def Call.refused (statusCode : Nat) (body : Bytes) (code : String) : Call → Except S3Error Outcome
  | .checkIfBucketExists _ =>
    if statusCode = 404 then .ok (.found false) else .error (statusError statusCode [])
  | .getObjectSize _ _ | .openReader _ _ => .error (statusError statusCode [])
  | .downloadFileRange _ _ _ _ =>
    .error (if statusCode = 416 then .rangeNotSatisfiable else codeError statusCode body code)
  | _ => .error (codeError statusCode body code)

theorem Refusal.readSuccessBody (h : Refusal response body code) (hR : R.ReadsInPlace) :
    Client.readSuccessBody R response = .error (codeError response.statusCode body code) := by
  have hread : Client.readSuccessBody R response =
      MyS3.readSuccessBody R ⟨response.statusCode, body⟩ := by
    rw [Client.readSuccessBody, h.answer]
    rfl
  rw [hread, MyS3.readSuccessBody, h.status, ← h.document.detectError hR]
  rfl

theorem Refusal.expectSuccess (h : Refusal response body code) (hR : R.ReadsInPlace) :
    Client.expectSuccess R response = .error (codeError response.statusCode body code) := by
  rw [Client.expectSuccess, h.readSuccessBody hR]
  rfl

/-- A refusal has neither of the two statuses that an object comes with. -/
theorem Refusal.openObjectAnswer (h : Refusal response body code) (hR : P.xml.ReadsInPlace)
    (range : Option (Nat × Option Nat)) :
    Client.openObjectAnswer P range response = .error
      (if range.isSome ∧ response.statusCode = 416 then .rangeNotSatisfiable
        else codeError response.statusCode body code) := by
  have hother : ∀ n, isSuccess n = true → response.statusCode ≠ n := by
    rintro n hn rfl
    rw [h.status] at hn
    cases hn
  have hexpected : response.statusCode ≠ if range.isSome then 206 else 200 := by
    split
    · exact hother 206 (by decide)
    · exact hother 200 (by decide)
  simp only [Client.openObjectAnswer, if_neg hexpected, hother 200 (by decide), and_false, if_false]
  split
  · rfl
  · rw [h.answer, ← h.document.detectError hR]
    rfl

theorem getObjectSize_refused (hstatus : isSuccess response.statusCode = false)
    (hnone : readNodeText P.xml [] "Error/Code" = none) (bucketName key : String) :
    (Client.getObjectSize P s3 timestamp bucketName key).conclude response =
      .error (statusError response.statusCode []) := by
  simp only [Client.getObjectSize, hstatus, if_true, detectError_eq_statusError hnone]

/-- A call that sent a `HEAD` makes of a refusal what the status says, whatever else it holds. -/
theorem Call.conclude_head (hstatus : isSuccess response.statusCode = false)
    (hnone : readNodeText P.xml [] "Error/Code" = none) {call : Call}
    (hhead : call.sendsHead = true) :
    (call.operation P s3 timestamp).conclude response =
      call.refused response.statusCode body code := by
  cases call with
  | checkIfBucketExists bucketName =>
    simp only [Call.operation, Operation.map, Client.checkIfBucketExists, hstatus,
      Bool.false_eq_true, if_false, detectError_eq_statusError hnone, Call.refused]
    split <;> rfl
  | getObjectSize bucketName key =>
    exact congrArg (Except.map Outcome.size) (getObjectSize_refused hstatus hnone bucketName key)
  | openReader bucketName key =>
    simp only [Call.operation, Operation.map, Client.openReader,
      getObjectSize_refused hstatus hnone]
    rfl
  | _ => cases hhead

/-- Every other call makes of a refusal the error that its document names. -/
theorem Refusal.conclude (h : Refusal response body code) (hR : P.xml.ReadsInPlace) {call : Call}
    (hbody : call.sendsHead = false) :
    (call.operation P s3 timestamp).conclude response =
      call.refused response.statusCode body code := by
  cases call with
  | upload bucketName key content uploadTimeout =>
    exact congrArg (Except.map fun _ => Outcome.done) (h.expectSuccess hR)
  | uploadStreamed bucketName key contentLength uploadTimeout =>
    exact congrArg (Except.map fun _ => Outcome.done) (h.expectSuccess hR)
  | downloadFile bucketName key =>
    have hanswer := h.openObjectAnswer hR none
    simp only [Option.isSome_none, Bool.false_eq_true, false_and, if_false] at hanswer
    simp only [Call.operation, Operation.map, downloadFile, openObject, hanswer]
    rfl
  | downloadFileRange bucketName key start last =>
    have hanswer := h.openObjectAnswer hR (some (start, last))
    simp only [Option.isSome_some, true_and] at hanswer
    simp only [Call.operation, Operation.map, downloadFileRange, openObject, hanswer]
    rfl
  | deleteFile bucketName key =>
    exact congrArg (Except.map fun _ => Outcome.done) (h.expectSuccess hR)
  | createBucket bucketName =>
    exact congrArg (Except.map fun _ => Outcome.done) (h.expectSuccess hR)
  | getBucketLocation bucketName =>
    simp only [Call.operation, Operation.map, getBucketLocation, h.readSuccessBody hR]
    rfl
  | listObjectsV2 bucketName request =>
    simp only [Call.operation, Operation.map, listObjectsV2, h.readSuccessBody hR]
    rfl
  | checkIfBucketExists bucketName => cases hbody
  | getObjectSize bucketName key => cases hbody
  | openReader bucketName key => cases hbody

/-- A refused `HEAD` leaves a bucket that is not there, or the error of the status. -/
theorem Call.refused_head {call : Call} (hhead : call.sendsHead = true) (statusCode : Nat) :
    call.refused statusCode body code = .ok (.found false) ∨
      call.refused statusCode body code = .error (statusError statusCode []) := by
  cases call with
  | checkIfBucketExists bucketName =>
    by_cases hmissing : statusCode = 404
    · exact .inl (if_pos hmissing)
    · exact .inr (if_neg hmissing)
  | getObjectSize bucketName key => exact .inr rfl
  | openReader bucketName key => exact .inr rfl
  | _ => cases hhead

/-- Every other refusal leaves the error of the code, or a range that does not fit. -/
theorem Call.refused_body {call : Call} (hbody : call.sendsHead = false) (statusCode : Nat) :
    call.refused statusCode body code = .error .rangeNotSatisfiable ∨
      call.refused statusCode body code = .error (codeError statusCode body code) := by
  cases call with
  | downloadFileRange bucketName key start last =>
    by_cases hrange : statusCode = 416
    · exact .inl (congrArg Except.error (if_pos hrange))
    · exact .inr (congrArg Except.error (if_neg hrange))
  | checkIfBucketExists bucketName => cases hbody
  | getObjectSize bucketName key => cases hbody
  | openReader bucketName key => cases hbody
  | _ => exact .inr rfl

/-- A call that reached the storage and was refused fails with the error that the document
names, or, where a `HEAD` was sent and nothing but the status is known, with that of the status.
The failure is worth another try only for a status or an unknown code that asks for one. -/
theorem refused_call (hR : P.xml.ReadsInPlace) (hnone : readNodeText P.xml [] "Error/Code" = none)
    {call : Call} {request : Request} {send : Request → Except FlUrlError FlUrlResponse}
    (hrequest : (call.operation P s3 timestamp).request = .ok request)
    (hsend : send request = .ok response) (hstatus : isSuccess response.statusCode = false)
    (hrefusal : request.verb ≠ bytesOf "HEAD" → Refusal response body code) :
    (call.operation P s3 timestamp).run send = call.refused response.statusCode body code ∧
      ∀ err, (call.operation P s3 timestamp).run send = .error err → err.isRetryable = true →
        500 ≤ response.statusCode ∨ response.statusCode = 429 ∨
          request.verb ≠ bytesOf "HEAD" ∧ mapErrorCode code = none ∧
            code ∈ retryableErrorCodes := by
  have hverb := Call.sendsHead_iff hrequest
  rw [Operation.run_of_answer hrequest hsend]
  cases hhead : call.sendsHead with
  | true =>
    have hrun : (call.operation P s3 timestamp).conclude response =
        call.refused response.statusCode body code := Call.conclude_head hstatus hnone hhead
    refine ⟨hrun, fun err herr hretry => ?_⟩
    rw [hrun] at herr
    rcases call.refused_head hhead response.statusCode with hfound | hfailed
    · cases hfound.symm.trans herr
    · cases hfailed.symm.trans herr
      exact (statusError_isRetryable.mp hretry).imp_right .inl
  | false =>
    have hnot : request.verb ≠ bytesOf "HEAD" := by
      intro hsent
      rw [hverb.mpr hsent] at hhead
      cases hhead
    have hrun : (call.operation P s3 timestamp).conclude response =
        call.refused response.statusCode body code := (hrefusal hnot).conclude hR hhead
    refine ⟨hrun, fun err herr hretry => ?_⟩
    rw [hrun] at herr
    rcases call.refused_body hhead response.statusCode with hrange | hfailed
    · cases hrange.symm.trans herr
      cases hretry
    · cases hfailed.symm.trans herr
      obtain ⟨hunknown, hasked | hbusy | hmany⟩ := codeError_isRetryable.mp hretry
      · exact .inr (.inr ⟨hnot, hunknown, hasked⟩)
      · exact .inl hbusy
      · exact .inr (.inl hmany)

/-- A storage that is too busy to delete, and a bucket that is not there. -/
theorem refused_call_slow_down :
    let body := bytesOf "<Error><Code>SlowDown</Code></Error>"
    let response : FlUrlResponse :=
      ⟨400, fun _ => none, .ok ⟨[.ok body], fun _ => .ok body⟩⟩
    let missing : FlUrlResponse := ⟨404, fun _ => none, .ok ⟨[], fun _ => .ok []⟩⟩
    let call : Call := .deleteFile "b" "k"
    let check : Call := .checkIfBucketExists "b"
    let timestamp := bytesOf "20240701T123456Z"
    (call.operation plainPlatform plainClient timestamp).run (fun _ => .ok response) =
        call.refused 400 body "SlowDown" ∧
      (check.operation plainPlatform plainClient timestamp).run (fun _ => .ok missing) =
        .ok (.found false) := by
  intro body response missing call check timestamp
  have hdocument : ErrorDocument body "SlowDown" :=
    .of_element (by decide +kernel) (by decide +kernel) (by decide)
  have hrefusal : Refusal response body "SlowDown" := ⟨rfl, rfl, hdocument⟩
  constructor
  · exact (refused_call Xml.placeReader_readsInPlace (readNodeText_placeReader_nil _) rfl rfl rfl
      fun _ => hrefusal).1
  · have hnone : ∀ request : Request, request.verb = bytesOf "HEAD" →
        request.verb ≠ bytesOf "HEAD" → Refusal missing [] "" := fun request hsent hnot =>
      absurd hsent hnot
    exact (refused_call Xml.placeReader_readsInPlace (readNodeText_placeReader_nil _) rfl rfl rfl
      (hnone _ rfl)).1

/-- Only one code is the error of a bucket that is the caller's own. -/
theorem mapErrorCode_eq_owned :
    mapErrorCode code = some .bucketAlreadyOwnedByYou ↔ code = "BucketAlreadyOwnedByYou" := by
  constructor
  · intro h
    unfold mapErrorCode at h
    split at h <;> first | rfl | cases h
  · rintro rfl
    rfl

/-- Creating a bucket that may exist succeeds where the bucket was created and where it already
was the caller's own, and nowhere else. -/
theorem createBucketIfNotExists_ok_iff (hR : P.xml.ReadsInPlace) {bucketName : String}
    {request : Request} {send : Request → Except FlUrlError FlUrlResponse}
    (hrequest : (createBucket P s3 timestamp bucketName).request = .ok request)
    (hsend : send request = .ok response) (hbody : response.readAnswer = .ok body)
    (hdocument : isSuccess response.statusCode = false → ErrorDocument body code) :
    createBucketIfNotExists P s3 timestamp bucketName send = .ok () ↔
      isSuccess response.statusCode = true ∨ code = "BucketAlreadyOwnedByYou" := by
  have hrun := Operation.run_of_answer hrequest hsend
  cases hstatus : isSuccess response.statusCode with
  | true =>
    have hcreated : (createBucket P s3 timestamp bucketName).conclude response = .ok () := by
      simp only [createBucket, expectSuccess, readSuccessBody, hbody]
      change (MyS3.readSuccessBody P.xml ⟨response.statusCode, body⟩ >>= fun _ => .ok ()) = _
      rw [MyS3.readSuccessBody, hstatus]
      rfl
    simp only [createBucketIfNotExists, hrun, hcreated, true_or]
  | false =>
    have hrefusal : Refusal response body code := ⟨hstatus, hbody, hdocument hstatus⟩
    have hrefused : (createBucket P s3 timestamp bucketName).conclude response =
        .error (codeError response.statusCode body code) := hrefusal.expectSuccess hR
    simp only [createBucketIfNotExists, hrun, hrefused, Bool.false_eq_true, false_or]
    rw [← mapErrorCode_eq_owned, codeError]
    cases hcode : mapErrorCode code with
    | none => simp [S3Error.isBucketAlreadyOwnedByYou]
    | some err => cases err <;> simp [S3Error.isBucketAlreadyOwnedByYou]

/-- A bucket that is there already and is the caller's own. -/
theorem createBucketIfNotExists_ok_iff_owned :
    let body := bytesOf "<Error><Code>BucketAlreadyOwnedByYou</Code></Error>"
    createBucketIfNotExists plainPlatform plainClient (bytesOf "20240701T123456Z") "b"
      (fun _ => .ok ⟨409, fun _ => none, .ok ⟨[.ok body], fun _ => .ok body⟩⟩) = .ok () := by
  intro body
  have hdocument : ErrorDocument body "BucketAlreadyOwnedByYou" :=
    .of_element (by decide +kernel) (by decide +kernel) (by decide)
  exact (createBucketIfNotExists_ok_iff Xml.placeReader_readsInPlace rfl rfl rfl
    fun _ => hdocument).mpr (.inr rfl)

end Client

end MyS3
