import MyS3.Query.Encode

/-!
# The query as a server reads it

A server does not take the query off the wire as it is: every name and value is
percent-decoded, encoded again by its own rule and only then sorted. On a query of
encoded pairs it arrives at the canonical form that was signed.
-/

namespace MyS3.Query

open MyS3.Xml (bytesOf)
open Separated

/-- The value of a hexadecimal digit, in either case. -/
def hexValue (byte : UInt8) : Option UInt8 :=
  if 0x30 ≤ byte ∧ byte ≤ 0x39 then some (byte - 0x30)
  else if 0x41 ≤ byte ∧ byte ≤ 0x46 then some (byte - 0x37)
  else if 0x61 ≤ byte ∧ byte ≤ 0x66 then some (byte - 0x57)
  else none

/-- `u8::from_str_radix(_, 16)` on two bytes; a `+` may stand in front of the number. -/
def fromStrRadix16 (first second : UInt8) : Option UInt8 :=
  if first = 0x2B then hexValue second
  else
    match hexValue first, hexValue second with
    | some high, some low => some (high * 16 + low)
    | _, _ => none

/-- `percent_decode`: an invalid escape is left as the literal text it is. -/
def percentDecode : Bytes → Bytes
  | [] => []
  | byte :: first :: second :: rest =>
    if byte = percent then
      match fromStrRadix16 first second with
      | some decoded => decoded :: percentDecode rest
      | none => byte :: percentDecode (first :: second :: rest)
    else byte :: percentDecode (first :: second :: rest)
  | byte :: rest => byte :: percentDecode rest

/-- `uri_encode`, the server's own. -/
def uriEncode (src : Bytes) : Bytes :=
  src.foldl
    (fun result byte =>
      if isUnreserved byte then result ++ [byte]
      else result ++ [percent, hexDigit (byte >>> 4), hexDigit (byte &&& 0x0F)])
    []

/-- A part of the query as the server canonicalises it. -/
def recoded (pair : Bytes) : Bytes × Bytes :=
  match splitOnce equals pair with
  | some (name, value) => (uriEncode (percentDecode name), uriEncode (percentDecode value))
  | none => (uriEncode (percentDecode pair), [])

/-- `canonical_query`: the query decoded, encoded again and sorted. -/
def canonicalQuery (query : Bytes) : Bytes :=
  if query = [] then []
  else joined (((parts query).map recoded).insertionSort PairLe)

/-- What a query asks for: its pairs, percent-decoded, in the order they were sent. -/
def decodedPairs (query : Bytes) : List (Bytes × Bytes) :=
  (parts query).map fun pair =>
    (percentDecode (splitPair pair).1, percentDecode (splitPair pair).2)

theorem uriEncode_eq (src : Bytes) : uriEncode src = encoded src := by
  have hfold : ∀ result : Bytes, src.foldl
      (fun result byte =>
        if isUnreserved byte then result ++ [byte]
        else result ++ [percent, hexDigit (byte >>> 4), hexDigit (byte &&& 0x0F)]) result =
      result ++ encoded src := by
    intro result
    induction src generalizing result with
    | nil => simp only [List.foldl_nil, encoded, List.flatMap_nil, List.append_nil]
    | cons byte rest ih =>
      rw [List.foldl_cons, ih, encoded, encoded, List.flatMap_cons, encodeByte]
      by_cases hu : isUnreserved byte = true <;> simp [hu]
  exact hfold []

/-- The escape of a byte reads as that byte. -/
private theorem fromStrRadix16_hexDigit (byte : UInt8) :
    fromStrRadix16 (hexDigit (byte >>> 4)) (hexDigit (byte &&& 0x0F)) = some byte := by
  have hall : ∀ n : Fin 256, fromStrRadix16 (hexDigit (UInt8.ofNat n >>> 4))
      (hexDigit (UInt8.ofNat n &&& 0x0F)) = some (UInt8.ofNat n) := by decide +kernel
  simpa only [UInt8.ofNat_toNat] using hall ⟨byte.toNat, byte.toNat_lt⟩

/-- A byte that begins no escape is passed on. -/
theorem percentDecode_cons {byte : UInt8} (h : byte ≠ percent) (rest : Bytes) :
    percentDecode (byte :: rest) = byte :: percentDecode rest := by
  match rest with
  | [] => rfl
  | [_] => rfl
  | _ :: _ :: _ => rw [percentDecode, if_neg h]

/-- Decoding undoes the encoding of one byte, whatever follows it. -/
theorem percentDecode_encodeByte (byte : UInt8) (rest : Bytes) :
    percentDecode (encodeByte byte ++ rest) = byte :: percentDecode rest := by
  unfold encodeByte
  by_cases hu : isUnreserved byte = true
  · have hne : byte ≠ percent := by
      rintro rfl
      exact absurd hu (by decide)
    rw [if_pos hu, List.singleton_append, percentDecode_cons hne]
  · rw [if_neg hu]
    simp only [List.cons_append, List.nil_append, percentDecode, ↓reduceIte,
      fromStrRadix16_hexDigit]

/-- Decoding undoes encoding, byte for byte. -/
theorem percentDecode_encoded (bytes : Bytes) : percentDecode (encoded bytes) = bytes := by
  induction bytes with
  | nil => rfl
  | cons byte rest ih =>
    rw [encoded, List.flatMap_cons, percentDecode_encodeByte]
    exact congrArg (byte :: ·) ih

/-- The server finds in a query of encoded pairs exactly the encoded pairs. -/
theorem recoded_pairText (pair : Bytes × Bytes) :
    recoded (pairText (encodedPair pair)) = encodedPair pair := by
  have hsplit : splitOnce equals (pairText (encodedPair pair)) = some (encodedPair pair) :=
    splitOnce_append (equals_not_mem_encoded pair.1)
  rw [recoded, hsplit]
  simp only [encodedPair, percentDecode_encoded, uriEncode_eq]

/-- What a query of encoded pairs asks for are the pairs. -/
theorem decodedPairs_joined (pairs : List (Bytes × Bytes)) :
    decodedPairs (joined (pairs.map encodedPair)) = pairs := by
  rw [decodedPairs, parts_joined, List.map_map, List.map_map, List.map_id'']
  intro pair
  simp only [Function.comp_apply]
  rw [splitPair_pairText]
  simp only [encodedPair, percentDecode_encoded]

/-- Both sides bring a query of encoded pairs into the same canonical form. -/
theorem canonicalQuery_joined (pairs : List (Bytes × Bytes)) :
    canonicalQuery (joined (pairs.map encodedPair)) =
      canonicalQueryString (some (joined (pairs.map encodedPair))) := by
  have hrecoded : ((pairs.map encodedPair).map pairText).map recoded =
      ((pairs.map encodedPair).map pairText).map splitPair := by
    simp only [List.map_map]
    exact List.map_congr_left fun pair _ =>
      (recoded_pairText pair).trans (splitPair_pairText pair).symm
  simp only [canonicalQuery, canonicalQueryString, parts_joined, hrecoded]

end MyS3.Query
