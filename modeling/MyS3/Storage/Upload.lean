import MyS3.Storage.Download

/-!
# What an upload leaves in the storage

Serving a request writes at most its own path, and only the whole of its body. A success that
the client reads was written, unless it was given before the body was in.
-/

namespace MyS3.Storage

open Xml (bytesOf bytesOf_injective eqIgnoreAsciiCase)
open Client

variable {P : Platform} {H : Hashes} {s3 : S3Client} {timestamp : Bytes} {secretKey : String}
  {state state' : State} {head : Head} {arrived content : Bytes} {written : Written}
  {bucketName key : String} {url : UrlBuilder}

/-- No success is prepared for a request that is still on its way. -/
def State.NoEarlySuccess (state : State) : Prop :=
  ∀ afterBytes reply, state.answerAfter = some (afterBytes, reply) →
    isSuccess reply.statusCode = false

/-- What serving a request does to what was uploaded. -/
inductive State.Keeps (H : Hashes) (secretKey : String) (state : State) (head : Head)
    (arrived : Bytes) : Prop
  /-- The whole body is what its path holds from now on. -/
  | stored (hmethod : head.isMethod "PUT" = true)
      (hwhole : (arrived.take head.contentLength).length = head.contentLength)
      (huploaded : (state.exchange H secretKey head arrived).1.uploaded =
        state.uploaded.insert (pathOf head.target) (arrived.take head.contentLength))
  /-- Nothing is written, and a `PUT` of which everything arrived that is waited for is not told
  otherwise. -/
  | unchanged
      (huploaded : (state.exchange H secretKey head arrived).1.uploaded = state.uploaded)
      (hrefused : state.NoEarlySuccess → head.isMethod "PUT" = true →
        state.arm.2.wanted head.contentLength ≤ arrived.length →
        ∀ written, (state.exchange H secretKey head arrived).2 = some written →
          isSuccess written.statusCode = false)

/-- A request is stored whole or not at all. -/
theorem State.keeps (H : Hashes) (secretKey : String) (state : State) (head : Head)
    (arrived : Bytes) : state.Keeps H secretKey head arrived := by
  have hserves := state.arm.1.serves (H := H) state.arm.2 head
    (arrived.take (state.arm.2.wanted head.contentLength)) secretKey
  have hexchange : state.exchange H secretKey head arrived = state.arm.1.serve H secretKey
      state.arm.2 head (arrived.take (state.arm.2.wanted head.contentLength)) := rfl
  rw [← hexchange] at hserves
  obtain ⟨replies, -, hanswer, -⟩ := state.arm.1.answer_cases head
  have hwanted : state.arm.2 = ⟨none, none⟩ →
      state.arm.2.wanted head.contentLength = head.contentLength := by
    intro harmed
    rw [harmed]
    rfl
  generalize hout : state.exchange H secretKey head arrived = out at hserves
  cases hserves with
  | hungUp harmed =>
    apply Keeps.unchanged
    · rw [hout]
      rfl
    · intro _ _ _ written hwritten
      rw [hout] at hwritten
      cases hwritten
  | refused harmed hreply =>
    rename_i afterBytes reply
    apply Keeps.unchanged
    · rw [hout]
      rfl
    · intro hearly _ _ written hwritten
      rw [hout] at hwritten
      cases hwritten
      rw [statusCode_writeResponse]
      exact hearly afterBytes reply hreply
  | stored harmed hstores =>
    rw [hwanted harmed] at hstores hout
    simp only [stores, Bool.and_eq_true, beq_iff_eq] at hstores
    apply Keeps.stored
    · exact hstores.1.1
    · exact hstores.1.2
    · rw [hout]
      rfl
  | answered harmed hstores =>
    rw [hwanted harmed] at hstores hout
    apply Keeps.unchanged
    · rw [hout, hanswer]
      rfl
    · intro _ hmethod hwaited written hwritten
      rw [hout] at hwritten
      cases hwritten
      rw [statusCode_writeResponse]
      rw [hwanted harmed] at hwaited
      have hwhole : (arrived.take head.contentLength).length = head.contentLength :=
        List.length_take_of_le hwaited
      simpa only [stores, hmethod, hwhole, BEq.rfl, Bool.true_and] using hstores

/-- No more is waited for than was declared. -/
theorem Armed.wanted_le (armed : Armed) (contentLength : Nat) :
    armed.wanted contentLength ≤ contentLength := by
  unfold wanted
  split
  · exact Nat.min_le_left _ _
  · exact Nat.le_refl _

/-- What was prepared for a request is gone behind it. -/
theorem State.noEarlySuccess_exchange (H : Hashes) (secretKey : String) (state : State)
    (head : Head) (arrived : Bytes) :
    (state.exchange H secretKey head arrived).1.NoEarlySuccess := by
  obtain ⟨-, -, -, hanswer, -⟩ := state.arm.1.serve_frame (H := H) state.arm.2 head
    (arrived.take (state.arm.2.wanted head.contentLength)) secretKey
  intro afterBytes reply hreply
  have hnone : (state.exchange H secretKey head arrived).1.answerAfter = none := hanswer
  rw [hnone] at hreply
  cases hreply

/-- One path holds what it held or the whole of a content, and the others what they held. -/
structure Uploads (path content : Bytes) (before after : State) : Prop where
  elsewhere : ∀ other, other ≠ path → after.uploaded.lookup other = before.uploaded.lookup other
  here : after.uploaded.lookup path = before.uploaded.lookup path ∨
    after.uploaded.lookup path = some content

section Exchange

variable {request : Request} {path : Bytes} {answer : Except FlUrlError FlUrlResponse}

/-- What is whole of a body that is sent is all of it. -/
theorem whole_of_carries (hcarries : Carries request content head) (harrived : arrived <+: content)
    (hwhole : (arrived.take head.contentLength).length = head.contentLength) :
    arrived.take head.contentLength = content := by
  apply ((List.take_prefix _ _).trans harrived).eq_of_length
  rw [hwhole, hcarries.contentLength]

/-- Serving an attempt keeps that. -/
theorem Uploads.exchange {before : State} (h : Uploads path content before state)
    (hpath : pathOf request.signed.target = path) (hcarries : Carries request content head)
    (harrived : arrived <+: content) :
    Uploads path content before (state.exchange H secretKey head arrived).1 := by
  cases state.keeps H secretKey head arrived with
  | stored hmethod hwhole huploaded =>
    rw [whole_of_carries hcarries harrived hwhole, hcarries.target, hpath] at huploaded
    constructor
    · intro other hother
      rw [huploaded, AList.lookup_insert_ne hother]
      exact h.elsewhere other hother
    · rw [huploaded, AList.lookup_insert]
      exact .inr rfl
  | unchanged huploaded hrefused =>
    constructor
    · intro other hother
      rw [huploaded]
      exact h.elsewhere other hother
    · rw [huploaded]
      exact h.here

/-- So whatever becomes of a request, its path holds what it held or the whole body. -/
theorem Exchange.uploads (h : Exchange H secretKey request content state answer state')
    (hpath : pathOf request.signed.target = path) : Uploads path content state state' := by
  have hfirst : Uploads path content state state := ⟨fun _ _ => rfl, .inl rfl⟩
  exact h.keeps hfirst fun hcarries harrived hkept => hkept.exchange hpath hcarries harrived

/-- A success that is read was written. -/
theorem Exchange.stored {response : FlUrlResponse}
    (h : Exchange H secretKey request content state (.ok response) state')
    (hpath : pathOf request.signed.target = path) (hverb : request.verb = bytesOf "PUT")
    (hearly : state.NoEarlySuccess) (hsuccess : isSuccess response.statusCode = true) :
    state'.uploaded.lookup path = some content := by
  obtain ⟨before, head, written, hbefore, hcarries, hserved, hreads⟩ :=
    h.answered hearly fun {state head arrived} _ _ _ =>
      state.noEarlySuccess_exchange H secretKey head arrived
  have hmethod : head.isMethod "PUT" = true := by
    rw [Head.isMethod, bytesOf_injective (hcarries.method.trans hverb)]
    decide
  have hwhole : (content.take head.contentLength).length = head.contentLength := by
    rw [List.length_take, hcarries.contentLength, Nat.min_self]
  have hwaited : before.arm.2.wanted head.contentLength ≤ content.length :=
    hcarries.contentLength ▸ before.arm.2.wanted_le head.contentLength
  cases before.keeps H secretKey head content with
  | stored _ _ huploaded =>
    rw [whole_of_carries hcarries (List.prefix_refl content) hwhole, hcarries.target, hpath,
      hserved] at huploaded
    rw [huploaded, AList.lookup_insert]
  | unchanged huploaded hrefused =>
    have hfailed := hrefused hbefore hmethod hwaited written (congrArg Prod.snd hserved)
    rw [← hreads.statusCode, hsuccess] at hfailed
    cases hfailed

end Exchange

/-- What succeeds had a status of success. -/
theorem status_of_expectSuccess {R : Xml.MyXmlReader} {response : FlUrlResponse}
    (h : expectSuccess R response = .ok ()) : isSuccess response.statusCode = true := by
  obtain ⟨body, hbody, -⟩ := bind_ok h
  obtain ⟨bytes, -, hread⟩ := bind_ok hbody
  by_contra hstatus
  rw [MyS3.readSuccessBody, if_neg hstatus] at hread
  cases hread

/-- An upload from memory, over any number of attempts of which any may be cut off anywhere: its
path holds what it held or all of the content, no other path has changed, and where it succeeds
the content is what is stored, unless the storage was prepared to say so before the body was in. -/
theorem upload_stores (hF : P.segmentUrl.Faithful) (hurl : objectUrl P s3 bucketName key = .ok url)
    {uploadTimeout : Nat} {result : Except S3Error Unit} (hperforms : Performs H secretKey
      (upload P s3 timestamp bucketName key content uploadTimeout) state result state') :
    Uploads url.path content state state' ∧
      (state.NoEarlySuccess → result = .ok () →
        state'.uploaded.lookup url.path = some content) := by
  obtain ⟨request, hrequest, hverb, htarget, hbody⟩ : ∃ request,
      (upload P s3 timestamp bucketName key content uploadTimeout).request = .ok request ∧
      request.verb = bytesOf "PUT" ∧ request.signed.target = url.target ∧
      ∀ sent, request.body.Sends sent → sent = content := by
    simp only [upload, hurl]
    exact ⟨_, rfl, rfl, rfl, fun _ hsent => hsent⟩
  have hpath : pathOf request.signed.target = url.path := by
    rw [htarget, pathOf_target (hF.path hurl)]
  cases hperforms with
  | unsent hunsent =>
    rw [hrequest] at hunsent
    cases hunsent
  | sent hsent hsends hexchange =>
    rename_i sent answer
    rw [hrequest] at hsent
    cases hsent
    cases hbody _ hsends
    refine ⟨hexchange.uploads hpath, fun hearly hok => ?_⟩
    obtain ⟨_, response, hsame, hanswer, hconclude⟩ := Operation.run_ok hok
    cases hanswer
    exact hexchange.stored hpath hverb hearly (status_of_expectSuccess hconclude)

/-- The answer of a storage for which nothing was prepared is a success. -/
theorem expectSuccess_emptyOk (R : Xml.MyXmlReader) (answeringAHead : Bool) :
    expectSuccess R (responseOf (writeResponse .emptyOk answeringAHead)) = .ok () := by
  have hempty : (writeResponse .emptyOk answeringAHead).delimited = [] := by
    apply delimited_of_nil
    cases answeringAHead <;> rfl
  cases answeringAHead <;>
    simp only [expectSuccess, Client.readSuccessBody, FlUrlResponse.readAnswer, responseOf, hempty]
      <;> rfl

/-- Three bytes are stored where nothing was. -/
theorem upload_stores_three :
    ∃ state', Performs plainPlatform.hashes "secret"
      (upload plainPlatform plainClient (bytesOf "20240701T123456Z") "b" "k" [1, 2, 3] 1000) .start
      (.ok ()) state' ∧ state'.uploaded.lookup plainUrl.path = some [1, 2, 3] := by
  have hquiet : Quiet ∅ .start := ⟨rfl, rfl, rfl, rfl, nofun⟩
  obtain ⟨request, hrequest, hverb, hsends, htext⟩ : ∃ request, (upload plainPlatform plainClient
      (bytesOf "20240701T123456Z") "b" "k" [1, 2, 3] 1000).request = .ok request ∧
      request.verb = bytesOf "PUT" ∧ request.body.Sends [1, 2, 3] ∧ IsText request := by
    simp only [upload, objectUrl_plain]
    exact ⟨_, rfl, rfl, rfl, by decide +kernel⟩
  obtain ⟨state', hperforms⟩ := hquiet.answers plainPlatform.hashes "secret" hrequest hverb hsends
    (by decide) htext
  have hok : ∀ target range?, (upload plainPlatform plainClient (bytesOf "20240701T123456Z") "b" "k"
      [1, 2, 3] 1000).conclude (responseOf (writeResponse
        ((serveFromObjects ∅ "PUT" target range?).getD .emptyOk)
        (eqIgnoreAsciiCase "PUT".toList "HEAD".toList))) = .ok () :=
    fun _ _ => expectSuccess_emptyOk _ _
  rw [hok] at hperforms
  have hstored := (upload_stores encodedSegmentsUrl_faithful objectUrl_plain hperforms).2
    (fun _ _ hreply => nomatch hreply) rfl
  exact ⟨state', hperforms, hstored⟩

end MyS3.Storage
