import MyS3.Signing.Binding
import MyS3.Storage.Verify

/-!
# Nobody else signs

Whatever is sent to a storage and whoever sends it: what it accepts under a signature of the client
is the request that the client has signed.
-/

namespace MyS3.Storage

open Xml (bytesOf)
open Client

/-- Anything that is sent to a storage in bodies of a declared length. -/
abbrev Sent (H : Hashes) (secretKey : String) : State → State → Prop :=
  Relation.ReflTransGen fun state state' =>
    ∃ head arrived, state' = (state.exchange H secretKey head arrived).1

variable {P : Platform} {H : Hashes} {s3 : S3Client} {request : Request} {content : Bytes}
  {timestamp : Bytes} {secretKey : String} {state state' : State} {accepted : SignedRequest}

/-- The signatures of a storage were verified. -/
theorem signatureValid_of_sent (hstate : state.captured = [])
    (hsent : Sent H secretKey state state') :
    ∀ captured ∈ state'.captured,
      captured.signatureValid = verifySignature H secretKey captured.head captured.body := by
  induction hsent with
  | refl =>
    intro captured hmem
    rw [hstate] at hmem
    cases hmem
  | tail _ hstep ih =>
    obtain ⟨head, arrived, rfl⟩ := hstep
    intro captured hmem
    rw [State.captured_exchange, List.mem_append, List.mem_singleton] at hmem
    rcases hmem with hold | rfl
    · exact ih captured hold
    · rfl

/-- What the client signs verifies as the storage reads it. -/
theorem verified_of_call (hF : P.segmentUrl.Faithful) (hraw : P.rawUrl.Verbatim) {call : Call}
    (hrequest : (call.operation P s3 timestamp).request = .ok request)
    (hsends : request.body.Sends content) :
    MyS3.verifySignature P.hashes s3.secretKey (received request.signed content) = true := by
  obtain ⟨url, payloadHash, payload, hsplits, hsigned, hpayload⟩ :=
    Call.goesOutAsSigned hF hraw hrequest
  exact verifySignature_received hsplits hsigned (hpayload.imp_right fun h => h content hsends)

/-- Whatever was sent to a storage, by anybody, in bodies that their `Content-Length` frames: a
request that it found valid under the signature of a call of the client has the verb, the path, the
parameters, the host, the time, the region and the payload hash of that call and, unless the payload
was left unsigned, its body, as far as the hashes tell the two apart. -/
theorem accepted_is_signed (hF : P.segmentUrl.Faithful) (hraw : P.rawUrl.Verbatim) {call : Call}
    (hrequest : (call.operation P s3 timestamp).request = .ok request)
    (hsends : request.body.Sends content) (hline : request.signed.OneLine)
    (hstate : state.captured = []) (hsent : Sent P.hashes s3.secretKey state state') :
    ∀ captured ∈ state'.captured, captured.signatureValid = true →
      ∃ accepted, captured.head.signed captured.body = some accepted ∧
        (accepted.authorization.signature = request.signed.authorization.signature →
          (received request.signed content).Distinguished P.hashes s3.secretKey accepted →
          (received request.signed content).Same accepted) := by
  intro captured hmem hvalid
  rw [signatureValid_of_sent hstate hsent captured hmem, verifySignature,
    Option.any_eq_true] at hvalid
  obtain ⟨accepted, haccepted, hverified⟩ := hvalid
  refine ⟨accepted, haccepted, fun hsignature hfree => ?_⟩
  have hline' : (received request.signed content).OneLine := { hline with }
  exact same_of_verified (verified_of_call hF hraw hrequest hsends) hverified hsignature.symm hline'
    hfree

/-- A platform whose hashes tell short requests apart by their first line. -/
def firstLinePlatform : Platform :=
  { plainPlatform with hashes := ⟨fun bytes => bytes.take 11, fun _ text => text.drop 64⟩ }

/-- A `DELETE` is turned to another object on its way, and found invalid. -/
theorem accepted_is_signed_turned :
    ∃ request, ((Call.deleteFile "b" "k").operation firstLinePlatform plainClient
        (bytesOf "20240701T123456Z")).request = .ok request ∧
      ∃ state', Sent firstLinePlatform.hashes "secret" .start state' ∧
        ∃ captured ∈ state'.captured, captured.head.target = bytesOf "/b/other" ∧
          captured.signatureValid = false := by
  let turn (signed : SignedRequest) : SignedRequest := { signed with target := bytesOf "/b/other" }
  obtain ⟨request, hrequest, htext, hline, htarget, hverb, hreadable, hfree⟩ : ∃ request,
      ((Call.deleteFile "b" "k").operation firstLinePlatform plainClient
        (bytesOf "20240701T123456Z")).request = .ok request ∧ IsText request ∧
      request.signed.OneLine ∧ request.signed.target = bytesOf "/b/k" ∧
      request.verb = request.signed.method ∧ request.signed.authorization.Readable ∧
      (received request.signed []).Distinguished firstLinePlatform.hashes "secret"
        (received (turn request.signed) []) := by
    refine ⟨_, rfl, by decide +kernel, ⟨by decide, by decide, by decide, by decide, by decide,
      by decide⟩, by decide, rfl, ⟨⟨by decide, by decide, by decide⟩,
      ⟨by decide, by decide, by decide⟩, ⟨by decide, by decide, by decide⟩, _, rfl⟩, ?_⟩
    exact ⟨by decide +kernel, by decide +kernel, id⟩
  have hsends : request.body.Sends [] := by
    cases hrequest
    rfl
  let turned : Request := { request with signed := turn request.signed }
  have hcarries : Carries turned [] (headOf turned []) := carries_headOf (by decide) htext
  have hsent : Sent firstLinePlatform.hashes "secret" .start _ :=
    .single ⟨headOf turned [], [], rfl⟩
  have hmem : (headOf turned []).capture firstLinePlatform.hashes "secret" [] ∈
      (State.start.exchange firstLinePlatform.hashes "secret" (headOf turned [])
        []).1.captured := by
    rw [State.captured_exchange, List.take_nil]
    exact List.mem_singleton_self _
  refine ⟨request, hrequest, _, hsent, _, hmem, rfl, ?_⟩
  by_contra hvalid
  rw [Bool.not_eq_false] at hvalid
  obtain ⟨accepted, haccepted, hsame⟩ := accepted_is_signed encodedSegmentsUrl_faithful
    rawEndingUrl_verbatim hrequest hsends hline rfl hsent _ hmem hvalid
  have hread : (headOf turned []).signed [] = some (received turned.signed []) :=
    signed_of_carries hcarries hverb hreadable []
  rw [show (headOf turned []).signed [] = some accepted from haccepted, Option.some.injEq] at hread
  subst hread
  have hpath : (splitTarget request.signed.target).1 = (splitTarget (bytesOf "/b/other")).1 :=
    (hsame rfl hfree).path
  rw [htarget] at hpath
  exact absurd hpath (by decide)

end MyS3.Storage
