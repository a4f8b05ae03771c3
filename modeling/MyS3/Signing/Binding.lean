import Mathlib.Data.Set.List
import MyS3.Query.Canonical
import MyS3.Query.Wire
import MyS3.Signing.Authorization
import MyS3.Signing.Verify

/-!
# What a signature binds

Two requests that verify with one signature are one request: the strings that were signed are
told apart by every part of it, as far as the hashes tell these strings apart.
-/

namespace MyS3

open Xml (bytesOf)
open Query Separated

/-- The canonical query of a server lists the parameters that the query asks for. -/
theorem canonicalQuery_eq (query : Bytes) :
    canonicalQuery query =
      joined (((decodedPairs query).map encodedPair).insertionSort PairLe) := by
  have hrecoded : (parts query).map recoded = (decodedPairs query).map encodedPair := by
    rw [decodedPairs, List.map_map]
    apply List.map_congr_left
    intro part _
    simp only [Function.comp_apply, recoded, splitPair]
    cases splitOnce equals part with
    | some pair => simp only [encodedPair, uriEncode_eq]
    | none =>
      simp only [encodedPair, uriEncode_eq]
      rfl
  rw [canonicalQuery, hrecoded]
  by_cases hquery : query = []
  · rw [if_pos hquery, hquery]
    rfl
  · rw [if_neg hquery]

/-- Queries with one canonical form ask for the same parameters, each as often. -/
theorem decodedPairs_perm {query other : Bytes} (h : canonicalQuery query = canonicalQuery other) :
    (decodedPairs query).Perm (decodedPairs other) := by
  have hpairs : ∀ text : Bytes, pairsOf (canonicalQuery text) =
      ((decodedPairs text).map encodedPair).insertionSort PairLe := by
    intro text
    rw [canonicalQuery_eq]
    apply pairsOf_joined
    intro pair hpair
    obtain ⟨decoded, -, rfl⟩ := List.mem_map.mp ((List.mem_insertionSort PairLe).mp hpair)
    refine ⟨?_, equals_not_mem_encoded _⟩
    simp only [pairText, encodedPair, List.mem_append, List.mem_cons, not_or]
    exact ⟨amp_not_mem_encoded _, by decide, amp_not_mem_encoded _⟩
  have hdecoded : ∀ text : Bytes, ((pairsOf (canonicalQuery text)).map fun pair =>
      (percentDecode pair.1, percentDecode pair.2)).Perm (decodedPairs text) := by
    intro text
    have hsorted := (List.perm_insertionSort PairLe ((decodedPairs text).map encodedPair)).map
      fun pair : Bytes × Bytes => (percentDecode pair.1, percentDecode pair.2)
    have hback : ((decodedPairs text).map encodedPair).map
        (fun pair => (percentDecode pair.1, percentDecode pair.2)) = decodedPairs text := by
      rw [List.map_map]
      apply List.map_id''
      intro pair
      simp only [Function.comp_apply, encodedPair, percentDecode_encoded]
    rw [hback] at hsorted
    rw [hpairs]
    exact hsorted
  exact (hdecoded query).symm.trans (h ▸ hdecoded other)

/-- What is read of two digits of a hash is the byte. -/
private theorem hexEncode_injective : Function.Injective hexEncode := by
  have hdigits : ∀ n : Fin 256, fromStrRadix16
      ((bytesOf "0123456789abcdef").getD (UInt8.ofNat n >>> 4).toNat 0)
      ((bytesOf "0123456789abcdef").getD (UInt8.ofNat n &&& 0x0F).toNat 0) =
        some (UInt8.ofNat n) := by decide +kernel
  have hbyte : ∀ byte : UInt8, fromStrRadix16
      ((bytesOf "0123456789abcdef").getD (byte >>> 4).toNat 0)
      ((bytesOf "0123456789abcdef").getD (byte &&& 0x0F).toNat 0) = some byte := by
    intro byte
    simpa only [UInt8.ofNat_toNat] using hdigits ⟨byte.toNat, byte.toNat_lt⟩
  intro first
  induction first with
  | nil =>
    intro second h
    cases second with
    | nil => rfl
    | cons byte rest => cases h
  | cons byte rest ih =>
    intro second h
    cases second with
    | nil => cases h
    | cons byte' rest' =>
      simp only [hexEncode, List.flatMap_cons, List.cons_append, List.nil_append,
        List.cons.injEq] at h
      obtain ⟨hhigh, hlow, hrest⟩ := h
      have hsame := hbyte byte
      rw [hhigh, hlow, hbyte byte', Option.some.injEq] at hsame
      rw [← hsame, ih hrest]

/-- The path and the query that a server splits a target into. -/
def splitTarget (target : Bytes) : Bytes × Bytes :=
  (splitOnce questionMark target).getD (target, [])

/-- The end of a line, as the byte that lines are told apart by. -/
def lineFeed : UInt8 := 0x0A

namespace SignedRequest

/-- The canonical request of a server. -/
def canonicalText (received : SignedRequest) : Bytes :=
  canonicalRequest received.method (splitTarget received.target).1
    (canonicalQuery (splitTarget received.target).2) received.host received.payloadHash
    received.timestamp

/-- The text whose signature a server looks for. -/
def signedText (H : Hashes) (received : SignedRequest) : Bytes :=
  stringToSign received.timestamp
    (credentialScope (dateOf received.timestamp) received.authorization.region (bytesOf "s3"))
    (hexEncode (H.sha256 received.canonicalText))

/-- The key that a server looks for it with. -/
def signingKey (H : Hashes) (secretKey : String) (received : SignedRequest) : Bytes :=
  deriveSigningKey H secretKey (dateOf received.timestamp) received.authorization.region
    (bytesOf "s3")

/-- No part of a request that is signed holds a line break. -/
structure OneLine (signed : SignedRequest) : Prop where
  method : lineFeed ∉ signed.method
  path : lineFeed ∉ (splitTarget signed.target).1
  host : lineFeed ∉ signed.host
  payloadHash : lineFeed ∉ signed.payloadHash
  timestamp : lineFeed ∉ signed.timestamp
  region : lineFeed ∉ signed.authorization.region

/-- The hashes tell two requests apart: none of the texts that are hashed for them collide. -/
structure Distinguished (H : Hashes) (secretKey : String) (first second : SignedRequest) :
    Prop where
  text : H.hmac (first.signingKey H secretKey) (first.signedText H) =
    H.hmac (second.signingKey H secretKey) (second.signedText H) →
      first.signedText H = second.signedText H
  canonical : H.sha256 first.canonicalText = H.sha256 second.canonicalText →
    first.canonicalText = second.canonicalText
  body : H.sha256 first.body = H.sha256 second.body → first.body = second.body

/-- Two requests ask for the same, up to the order of the parameters and their encoding. -/
structure Same (first second : SignedRequest) : Prop where
  method : first.method = second.method
  path : (splitTarget first.target).1 = (splitTarget second.target).1
  parameters : (decodedPairs (splitTarget first.target).2).Perm
    (decodedPairs (splitTarget second.target).2)
  host : first.host = second.host
  payloadHash : first.payloadHash = second.payloadHash
  timestamp : first.timestamp = second.timestamp
  region : first.authorization.region = second.authorization.region
  body : first.payloadHash ≠ bytesOf "UNSIGNED-PAYLOAD" → first.body = second.body

end SignedRequest

variable {H : Hashes} {secretKey : String} {first second received : SignedRequest}

/-- What a server accepts. -/
theorem verifySignature_iff :
    verifySignature H secretKey received = true ↔
      (received.payloadHash = bytesOf "UNSIGNED-PAYLOAD" ∨
        hexEncode (H.sha256 received.body) = received.payloadHash) ∧
      hexEncode (H.hmac (received.signingKey H secretKey) (received.signedText H)) =
        received.authorization.signature := by
  by_cases hpayload : received.payloadHash ≠ bytesOf "UNSIGNED-PAYLOAD" ∧
      hexEncode (H.sha256 received.body) ≠ received.payloadHash
  · have hrefused : verifySignature H secretKey received = false := by
      rw [verifySignature, if_pos hpayload]
    rw [hrefused]
    apply iff_of_false Bool.false_ne_true
    rintro ⟨hopen, -⟩
    exact absurd hopen (not_or.mpr hpayload)
  · have hopen : received.payloadHash = bytesOf "UNSIGNED-PAYLOAD" ∨
        hexEncode (H.sha256 received.body) = received.payloadHash := by
      rwa [not_and_or, not_not, not_not] at hpayload
    rw [verifySignature, if_neg hpayload, and_iff_right hopen, SignedRequest.signedText,
      SignedRequest.canonicalText, splitTarget]
    cases splitOnce questionMark received.target with
    | none => exact beq_iff_eq
    | some halves => exact beq_iff_eq

/-- The lines of a canonical request. -/
theorem SignedRequest.canonicalText_eq (received : SignedRequest) :
    received.canonicalText = [lineFeed].intercalate
      [received.method, (splitTarget received.target).1,
        canonicalQuery (splitTarget received.target).2, bytesOf "host:" ++ received.host,
        bytesOf "x-amz-content-sha256:" ++ received.payloadHash,
        bytesOf "x-amz-date:" ++ received.timestamp, [],
        bytesOf "host;x-amz-content-sha256;x-amz-date", received.payloadHash] := by
  delta canonicalText canonicalRequest newLine lineFeed
  simp only [List.intercalate_cons_cons, List.intercalate_singleton, List.append_assoc,
    List.nil_append]

/-- The lines of the text that is signed. -/
theorem SignedRequest.signedText_eq (received : SignedRequest) :
    received.signedText H = [lineFeed].intercalate
      [bytesOf "AWS4-HMAC-SHA256", received.timestamp,
        credentialScope (dateOf received.timestamp) received.authorization.region (bytesOf "s3"),
        hexEncode (H.sha256 received.canonicalText)] := by
  simp only [signedText, stringToSign, newLine, lineFeed, List.intercalate_cons_cons,
    List.intercalate_singleton, List.append_assoc]

/-- A hash in hexadecimal digits is one line. -/
theorem lineFeed_not_mem_hexEncode (bytes : Bytes) : lineFeed ∉ hexEncode bytes :=
  fun h => absurd (mem_hexEncode h) (by decide)

/-- A canonical query is one line, whatever the query is. -/
theorem lineFeed_not_mem_canonicalQuery (query : Bytes) : lineFeed ∉ canonicalQuery query := by
  have hencoded : ((decodedPairs query).map encodedPair).insertionSort PairLe ∈
      Set.range (List.map encodedPair) := by
    rw [Set.range_list_map]
    intro pair hpair
    obtain ⟨decoded, -, rfl⟩ := List.mem_map.mp ((List.mem_insertionSort PairLe).mp hpair)
    exact ⟨decoded, rfl⟩
  obtain ⟨pairs, hpairs⟩ := hencoded
  rw [canonicalQuery_eq, ← hpairs]
  intro h
  exact absurd (mem_joined h) (by decide)

/-- The text that is signed tells the time, the region and the hash apart. -/
theorem fields_of_signedText (hline : first.OneLine)
    (htext : first.signedText H = second.signedText H) :
    first.timestamp = second.timestamp ∧
      first.authorization.region = second.authorization.region ∧
      hexEncode (H.sha256 first.canonicalText) = hexEncode (H.sha256 second.canonicalText) := by
  have hscope : lineFeed ∉
      credentialScope (dateOf first.timestamp) first.authorization.region (bytesOf "s3") := by
    intro h
    simp only [credentialScope, List.mem_append] at h
    rcases h with (((((hdate | hslash) | hregion) | hslash) | hservice) | hslash) | hrequest
    · exact hline.timestamp (List.mem_of_mem_take hdate)
    · exact absurd hslash (by decide)
    · exact hline.region hregion
    · exact absurd hslash (by decide)
    · exact absurd hservice (by decide)
    · exact absurd hslash (by decide)
    · exact absurd hrequest (by decide)
  rw [first.signedText_eq, second.signedText_eq] at htext
  have hlines := intercalate_inj htext (by simp only [List.length_cons]) (by
    simp only [List.forall_mem_cons, List.not_mem_nil, false_imp_iff, implies_true, and_true]
    exact ⟨by decide, hline.timestamp, hscope, lineFeed_not_mem_hexEncode _⟩)
  simp only [List.cons.injEq, true_and, and_true] at hlines
  obtain ⟨htimestamp, hregion, hhash⟩ := hlines
  rw [htimestamp, credentialScope, credentialScope] at hregion
  simp only [List.append_cancel_left_eq, List.append_cancel_right_eq] at hregion
  exact ⟨htimestamp, hregion, hhash⟩

/-- The canonical request tells everything else apart. -/
theorem fields_of_canonicalText (hline : first.OneLine)
    (hcanonical : first.canonicalText = second.canonicalText) :
    first.method = second.method ∧
      (splitTarget first.target).1 = (splitTarget second.target).1 ∧
      canonicalQuery (splitTarget first.target).2 = canonicalQuery (splitTarget second.target).2 ∧
      first.host = second.host ∧ first.payloadHash = second.payloadHash := by
  rw [first.canonicalText_eq, second.canonicalText_eq] at hcanonical
  have hfields := intercalate_inj hcanonical (by simp only [List.length_cons]) (by
    simp only [List.forall_mem_cons, List.not_mem_nil, false_imp_iff, implies_true, and_true,
      List.mem_append, not_or]
    exact ⟨hline.method, hline.path, lineFeed_not_mem_canonicalQuery _, ⟨by decide, hline.host⟩,
      ⟨by decide, hline.payloadHash⟩, ⟨by decide, hline.timestamp⟩, not_false, by decide,
      hline.payloadHash⟩)
  simp only [List.cons.injEq, List.append_cancel_left_eq, true_and, and_true] at hfields
  exact ⟨hfields.1, hfields.2.1, hfields.2.2.1, hfields.2.2.2.1, hfields.2.2.2.2.1⟩

/-- Two requests that verify with one signature ask for the same. -/
theorem same_of_verified (hfirst : verifySignature H secretKey first = true)
    (hsecond : verifySignature H secretKey second = true)
    (hsignature : first.authorization.signature = second.authorization.signature)
    (hline : first.OneLine) (hfree : first.Distinguished H secretKey second) :
    first.Same second := by
  obtain ⟨hpayload, hfound⟩ := verifySignature_iff.mp hfirst
  obtain ⟨hpayload', hfound'⟩ := verifySignature_iff.mp hsecond
  have htext := hfree.text (hexEncode_injective (hfound.trans (hsignature.trans hfound'.symm)))
  obtain ⟨htimestamp, hregion, hhash⟩ := fields_of_signedText hline htext
  obtain ⟨hmethod, hpath, hquery, hhost, hpayloadHash⟩ :=
    fields_of_canonicalText hline (hfree.canonical (hexEncode_injective hhash))
  constructor
  · exact hmethod
  · exact hpath
  · exact decodedPairs_perm hquery
  · exact hhost
  · exact hpayloadHash
  · exact htimestamp
  · exact hregion
  · intro hsigned
    have hbody := hpayload.resolve_left hsigned
    have hbody' := hpayload'.resolve_left (hpayloadHash ▸ hsigned)
    exact hfree.body (hexEncode_injective (hbody.trans (hpayloadHash.trans hbody'.symm)))

end MyS3
