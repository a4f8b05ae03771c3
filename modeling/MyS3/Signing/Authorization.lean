import MyS3.Core.Infix
import MyS3.Query.Encode
import MyS3.Signing.Sign
import MyS3.Xml.Tree

/-!
# The `Authorization` header

The credential and the signature as one text, and what a server takes out of that text. It
looks for two words that end in `=`, and cuts the credential at `,` and `/`.
-/

namespace MyS3

open Xml (bytesOf bytesOf_append fromUtf8 fromUtf8_bytesOf isWhitespace trim)
open Query (equals)
open Separated

/-- `,`, behind the credential. -/
def comma : UInt8 := 0x2C

/-- `/`, as the byte that a credential is cut at. -/
def scopeSlash : UInt8 := 0x2F

/-- The text that goes on the wire. -/
def Authorization.text (authorization : Authorization) : Bytes :=
  bytesOf "AWS4-HMAC-SHA256 Credential=" ++ bytesOf authorization.accessKey ++ solidus ++
    credentialScope authorization.date authorization.region (bytesOf "s3") ++
    bytesOf ",SignedHeaders=host;x-amz-content-sha256;x-amz-date,Signature=" ++
    authorization.signature

/-- `str::trim` on a part of the header, which is a text as the header is one. -/
def trimHeader (text : Bytes) : Bytes :=
  bytesOf (String.ofList (trim ((fromUtf8 text).getD "")))

/-- What a server reads: the region out of the credential's scope, and the signature. -/
def readAuthorization (authorization : Bytes) : Option (Bytes × Bytes) := do
  let signaturePart ← partBehind (bytesOf "Signature=") authorization
  let credential ← partBehind (bytesOf "Credential=") authorization
  let credential := ((splitOnce comma credential).map Prod.fst).getD credential
  let scopeRegion ← (credential.splitOn scopeSlash)[2]?
  return (scopeRegion, trimHeader signaturePart)

/-- A text that none of the separators of the header occurs in. -/
structure Unseparated (text : Bytes) : Prop where
  equals : equals ∉ text
  comma : comma ∉ text
  slash : scopeSlash ∉ text

/-- The parts of a credential can be told apart. -/
structure Authorization.Readable (authorization : Authorization) : Prop where
  accessKey : Unseparated (bytesOf authorization.accessKey)
  date : Unseparated authorization.date
  region : Unseparated authorization.region
  signature : ∃ bytes, authorization.signature = hexEncode bytes

/-- Every byte of an encoded text is a hexadecimal digit. -/
theorem mem_hexEncode {bytes : Bytes} {byte : UInt8} (h : byte ∈ hexEncode bytes) :
    byte ∈ bytesOf "0123456789abcdef" := by
  obtain ⟨source, -, hdigit⟩ := List.mem_flatMap.mp h
  have hnibble : ∀ n : Nat, n < 16 →
      (bytesOf "0123456789abcdef").getD n 0 ∈ bytesOf "0123456789abcdef" := by decide
  rw [List.mem_pair] at hdigit
  rcases hdigit with rfl | rfl
  · apply hnibble
    have hbyte := source.toNat_lt
    have hhigh : (source >>> 4).toNat = source.toNat / 16 := by
      rw [UInt8.toNat_shiftRight, Nat.shiftRight_eq_div_pow]
      rfl
    omega
  · apply hnibble
    rw [UInt8.toNat_and]
    exact Nat.lt_of_le_of_lt Nat.and_le_right (by decide)

/-- A text of hexadecimal digits holds no separator. -/
theorem unseparated_hexEncode (bytes : Bytes) : Unseparated (hexEncode bytes) := by
  constructor
  · exact fun h => absurd (mem_hexEncode h) (by decide)
  · exact fun h => absurd (mem_hexEncode h) (by decide)
  · exact fun h => absurd (mem_hexEncode h) (by decide)

/-- Hexadecimal digits are characters, and none of them is whitespace. -/
private theorem exists_hexDigits {bytes : Bytes}
    (h : ∀ byte ∈ bytes, byte ∈ bytesOf "0123456789abcdef") :
    ∃ text : String, bytesOf text = bytes ∧ ∀ c ∈ text.toList, isWhitespace c = false := by
  induction bytes with
  | nil => exact ⟨"", rfl, nofun⟩
  | cons byte rest ih =>
    have hdigit : ∀ byte ∈ bytesOf "0123456789abcdef",
        bytesOf (String.ofList [Char.ofNat byte.toNat]) = [byte] ∧
          isWhitespace (Char.ofNat byte.toNat) = false := by
      decide +kernel
    obtain ⟨hbyte, hspace⟩ := hdigit byte (h byte List.mem_cons_self)
    obtain ⟨text, htext, hspaces⟩ := ih fun b hb => h b (List.mem_cons_of_mem byte hb)
    refine ⟨String.ofList [Char.ofNat byte.toNat] ++ text, ?_, ?_⟩
    · rw [bytesOf_append, hbyte, htext]
      rfl
    · rw [String.toList_append, String.toList_ofList]
      exact List.forall_mem_cons.mpr ⟨hspace, hspaces⟩

/-- There is nothing to trim off a text of hexadecimal digits. -/
theorem trimHeader_hexEncode (bytes : Bytes) : trimHeader (hexEncode bytes) = hexEncode bytes := by
  obtain ⟨text, htext, hspaces⟩ := exists_hexDigits fun byte (h : byte ∈ hexEncode bytes) =>
    mem_hexEncode h
  have hkept : ∀ l : List Char, (∀ c ∈ l, isWhitespace c = false) →
      l.dropWhile isWhitespace = l := by
    intro l hl
    cases l with
    | nil => rfl
    | cons c rest =>
      rw [List.dropWhile_cons_of_neg]
      simp only [hl c List.mem_cons_self, Bool.false_eq_true, not_false_iff]
  have htrim : trim text = text.toList := by
    rw [trim, hkept _ hspaces, hkept _ fun c hc => hspaces c (List.mem_reverse.mp hc),
      List.reverse_reverse]
  rw [trimHeader, ← htext, fromUtf8_bytesOf, Option.getD_some, htrim, String.ofList_toList]

/-- The credential with its scope, as the parts that are joined by `/`. -/
def Authorization.credentialParts (authorization : Authorization) : List Bytes :=
  [bytesOf authorization.accessKey, authorization.date, authorization.region, bytesOf "s3",
    bytesOf "aws4_request"]

/-- What stands between the first `=` and the second. -/
def Authorization.scopePart (authorization : Authorization) : Bytes :=
  [scopeSlash].intercalate authorization.credentialParts ++ bytesOf ",SignedHeaders"

/-- What stands between the second `=` and the third. -/
def signedHeaders : Bytes := bytesOf "host;x-amz-content-sha256;x-amz-date,Signature"

/-- The three `=` of the text. -/
theorem Authorization.text_eq (authorization : Authorization) :
    authorization.text = bytesOf "AWS4-HMAC-SHA256 Credential" ++ equals ::
      (authorization.scopePart ++ equals ::
        (signedHeaders ++ equals :: authorization.signature)) := by
  have hfront : bytesOf "AWS4-HMAC-SHA256 Credential=" =
      bytesOf "AWS4-HMAC-SHA256 Credential" ++ [equals] := by decide
  have hbehind : bytesOf ",SignedHeaders=host;x-amz-content-sha256;x-amz-date,Signature=" =
      bytesOf ",SignedHeaders" ++ [equals] ++ signedHeaders ++ [equals] := by decide
  have hslash : solidus = [scopeSlash] := rfl
  simp only [text, scopePart, credentialParts, credentialScope, hfront, hbehind, hslash,
    List.intercalate_cons_cons, List.intercalate_singleton, List.append_assoc, List.cons_append,
    List.nil_append]

namespace Authorization

variable {authorization : Authorization}

/-- The scope holds no `=`. -/
theorem Readable.equals_not_mem_scopePart (h : authorization.Readable) :
    equals ∉ authorization.scopePart := by
  have hkey := h.accessKey.equals
  have hdate := h.date.equals
  have hregion := h.region.equals
  simp only [scopePart, credentialParts, List.intercalate_cons_cons, List.intercalate_singleton,
    List.mem_append, hkey, hdate, hregion, false_or]
  decide

/-- A word that is longer than the last word of a piece does not end it. -/
private theorem not_suffix_scopePart {stem : Bytes} (hlength : stem.length ≤ 14)
    (hstem : ¬ stem <:+ bytesOf ",SignedHeaders") : ¬ stem <:+ authorization.scopePart := by
  intro hsuffix
  apply hstem
  apply List.suffix_of_suffix_length_le hsuffix (List.suffix_append _ _)
  exact hlength

/-- The signature stands behind its word. -/
theorem Readable.signaturePart (h : authorization.Readable) :
    partBehind (bytesOf "Signature=") authorization.text = some authorization.signature := by
  obtain ⟨bytes, hsignature⟩ := h.signature
  have hword : bytesOf "Signature=" = bytesOf "Signature" ++ [equals] := by decide
  have hheaders : signedHeaders =
      bytesOf "host;x-amz-content-sha256;x-amz-date," ++ bytesOf "Signature" := by decide
  have hstem : equals ∉ bytesOf "Signature" := by decide
  rw [hword, authorization.text_eq]
  have hfound : (signedHeaders ++ equals :: authorization.signature).dropInfix?
      (bytesOf "Signature" ++ [equals]) =
        some (bytesOf "host;x-amz-content-sha256;x-amz-date,", authorization.signature) := by
    rw [hheaders]
    exact dropInfix?_word hstem (by decide)
  have hscope := dropInfix?_behind hstem h.equals_not_mem_scopePart
    (not_suffix_scopePart (by decide) (by decide)) hfound
  have hscheme : equals ∉ bytesOf "AWS4-HMAC-SHA256 Credential" := by decide
  have hfront := dropInfix?_behind hstem hscheme (by decide) hscope
  apply partBehind_eq hfront
  apply not_infix_of_not_mem
  rw [hsignature]
  exact (unseparated_hexEncode bytes).equals

/-- The credential stands behind its word, and in front of a `,`. -/
theorem Readable.credentialPart (h : authorization.Readable) :
    ∃ rest, partBehind (bytesOf "Credential=") authorization.text =
      some ([scopeSlash].intercalate authorization.credentialParts ++ comma :: rest) := by
  obtain ⟨bytes, hsignature⟩ := h.signature
  have hword : bytesOf "Credential=" = bytesOf "Credential" ++ [equals] := by decide
  have hfront : bytesOf "AWS4-HMAC-SHA256 Credential" =
      bytesOf "AWS4-HMAC-SHA256 " ++ bytesOf "Credential" := by decide
  have hstem : equals ∉ bytesOf "Credential" := by decide
  have hcomma : bytesOf ",SignedHeaders" = comma :: bytesOf "SignedHeaders" := by decide
  refine ⟨bytesOf "SignedHeaders" ++ equals :: (signedHeaders ++ equals :: authorization.signature),
    ?_⟩
  have honce : ¬ bytesOf "Credential" ++ [equals] <:+:
      authorization.scopePart ++ equals ::
        (signedHeaders ++ equals :: authorization.signature) := by
    apply not_infix_behind hstem h.equals_not_mem_scopePart
      (not_suffix_scopePart (by decide) (by decide))
    apply not_infix_behind hstem (by decide) (by decide)
    apply not_infix_of_not_mem
    rw [hsignature]
    exact (unseparated_hexEncode bytes).equals
  rw [hword, authorization.text_eq, hfront]
  rw [partBehind_eq (dropInfix?_word hstem (by decide)) honce, scopePart, hcomma, List.append_assoc,
    List.cons_append]

/-- A server finds in the text the region of the scope and the signature, whatever the rest of
the credential is. -/
theorem Readable.readAuthorization_text (h : authorization.Readable) :
    readAuthorization authorization.text =
      some (authorization.region, authorization.signature) := by
  obtain ⟨rest, hcredential⟩ := h.credentialPart
  obtain ⟨bytes, hsignature⟩ := h.signature
  have hparts : ∀ part ∈ authorization.credentialParts, comma ∉ part ∧ scopeSlash ∉ part := by
    simp only [credentialParts, List.forall_mem_cons, List.not_mem_nil, IsEmpty.forall_iff,
      implies_true, and_true]
    exact ⟨⟨h.accessKey.comma, h.accessKey.slash⟩, ⟨h.date.comma, h.date.slash⟩,
      ⟨h.region.comma, h.region.slash⟩, by decide, by decide⟩
  have hcomma : comma ∉ [scopeSlash].intercalate authorization.credentialParts := by
    have hsep : comma ≠ scopeSlash := by decide
    simp only [credentialParts, List.forall_mem_cons, List.not_mem_nil, IsEmpty.forall_iff,
      implies_true, and_true] at hparts
    simp only [credentialParts, List.intercalate_cons_cons, List.intercalate_singleton,
      List.mem_append, List.mem_singleton, hparts.1.1, hparts.2.1.1, hparts.2.2.1.1,
      hparts.2.2.2.1.1, hparts.2.2.2.2.1, hsep, or_false, not_false_eq_true]
  have hsplit : ([scopeSlash].intercalate authorization.credentialParts).splitOn scopeSlash =
      authorization.credentialParts :=
    List.splitOn_intercalate scopeSlash (fun part hpart => (hparts part hpart).2)
      (by simp [credentialParts])
  simp only [readAuthorization, h.signaturePart, hcredential, splitOnce_append hcomma, hsignature,
    trimHeader_hexEncode, hsplit, Option.map_some, Option.getD_some, Option.bind_eq_bind,
    Option.bind_some]
  rfl

end Authorization

end MyS3
