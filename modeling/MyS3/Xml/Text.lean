import Mathlib.Algebra.Group.Nat.Defs
import MyS3.Io

/-!
# Text in a response

Strings out of bytes that the server chose: strict and lossy UTF-8, the five predefined
entities, and the two readings of a number or a flag that `std` offers.
-/

namespace MyS3.Xml

/-- The UTF-8 bytes of a text. -/
def bytesOf (s : String) : Bytes := s.toByteArray.data.toList

/-- `std::str::from_utf8`. -/
def fromUtf8 (body : Bytes) : Option String := String.fromUTF8? ⟨body.toArray⟩

theorem fromUtf8_bytesOf (text : String) : fromUtf8 (bytesOf text) = some text := by
  have hvalid : ByteArray.IsValidUTF8 ⟨(bytesOf text).toArray⟩ := text.isValidUTF8
  unfold fromUtf8 String.fromUTF8?
  rw [dif_pos hvalid]
  rfl

/-- Strict reading keeps every byte. -/
theorem bytesOf_of_fromUtf8 {body : Bytes} {text : String} (h : fromUtf8 body = some text) :
    bytesOf text = body := by
  unfold fromUtf8 String.fromUTF8? at h
  split at h
  · cases h
    rfl
  · cases h

theorem bytesOf_injective {a b : String} (h : bytesOf a = bytesOf b) : a = b :=
  Option.some.inj (by rw [← fromUtf8_bytesOf a, h, fromUtf8_bytesOf])

/-- A byte that continues a sequence. -/
def isTail (b : UInt8) : Bool := 0x80 ≤ b && b ≤ 0xBF

/-- The bytes that may follow the first byte of a sequence of three or four. -/
def isSecond (b₀ b₁ : UInt8) : Bool :=
  if b₀ = 0xE0 then 0xA0 ≤ b₁ && b₁ ≤ 0xBF
  else if b₀ = 0xED then 0x80 ≤ b₁ && b₁ ≤ 0x9F
  else if b₀ = 0xF0 then 0x90 ≤ b₁ && b₁ ≤ 0xBF
  else if b₀ = 0xF4 then 0x80 ≤ b₁ && b₁ ≤ 0x8F
  else isTail b₁

/-- How many bytes a sequence with this first byte has; zero where none begins. -/
def width (b : UInt8) : Nat :=
  if b < 0x80 then 1
  else if 0xC2 ≤ b && b ≤ 0xDF then 2
  else if 0xE0 ≤ b && b ≤ 0xEF then 3
  else if 0xF0 ≤ b && b ≤ 0xF4 then 4
  else 0

/-- The code point of a sequence: the payload of the first byte, then six bits a byte. -/
def codePoint (first : Nat) (tail : Bytes) : Char :=
  Char.ofNat (tail.foldl (fun value b => value * 64 + (b.toNat - 0x80)) first)

/-- `U+FFFD`, which stands for each maximal part of an ill-formed sequence. -/
def replacement : Char := Char.ofNat 0xFFFD

/-- The characters of `String::from_utf8_lossy`. -/
def lossyChars : Bytes → List Char
  | [] => []
  | b₀ :: rest =>
    match width b₀, rest with
    | 1, rest => codePoint b₀.toNat [] :: lossyChars rest
    | 2, b₁ :: rest' =>
      if isTail b₁ then codePoint (b₀.toNat - 0xC0) [b₁] :: lossyChars rest'
      else replacement :: lossyChars (b₁ :: rest')
    | 3, b₁ :: rest' =>
      if isSecond b₀ b₁ then
        match rest' with
        | b₂ :: rest'' =>
          if isTail b₂ then codePoint (b₀.toNat - 0xE0) [b₁, b₂] :: lossyChars rest''
          else replacement :: lossyChars (b₂ :: rest'')
        | [] => [replacement]
      else replacement :: lossyChars (b₁ :: rest')
    | 4, b₁ :: rest' =>
      if isSecond b₀ b₁ then
        match rest' with
        | b₂ :: rest'' =>
          if isTail b₂ then
            match rest'' with
            | b₃ :: rest''' =>
              if isTail b₃ then codePoint (b₀.toNat - 0xF0) [b₁, b₂, b₃] :: lossyChars rest'''
              else replacement :: lossyChars (b₃ :: rest''')
            | [] => [replacement]
          else replacement :: lossyChars (b₂ :: rest'')
        | [] => [replacement]
      else replacement :: lossyChars (b₁ :: rest')
    | _, rest => replacement :: lossyChars rest

/-- `String::from_utf8_lossy`. -/
def fromUtf8Lossy (body : Bytes) : String := String.ofList (lossyChars body)

/-- The predefined entities, in the order they are tried. -/
def entities : List (List Char × Char) :=
  [("&amp;".toList, '&'), ("&lt;".toList, '<'), ("&gt;".toList, '>'), ("&quot;".toList, '"'),
    ("&apos;".toList, '\'')]

/-- The entity a text begins with, decoded, and the text behind it. -/
def matchEntity (tail : List Char) : Option (Char × List Char) :=
  (entities.find? fun entity => entity.1.isPrefixOf tail).map fun entity =>
    (entity.2, tail.drop entity.1.length)

theorem matchEntity_length {tail rest : List Char} {c : Char}
    (h : matchEntity tail = some (c, rest)) : rest.length < tail.length := by
  obtain ⟨entity, hfind, hpair⟩ := Option.map_eq_some_iff.mp h
  cases hpair
  have hprefix : entity.1 <+: tail := by
    simpa only [List.isPrefixOf_iff_prefix] using List.find?_some hfind
  have hlength : 0 < entity.1.length := by
    have hmem := List.mem_of_find?_eq_some hfind
    simp only [entities, List.mem_cons, List.not_mem_nil, or_false] at hmem
    rcases hmem with rfl | rfl | rfl | rfl | rfl <;> decide
  have hle := hprefix.length_le
  rw [List.length_drop]
  omega

/-- The single left-to-right pass of `unescape`. -/
def unescapeChars : List Char → List Char
  | [] => []
  | c :: rest =>
    if c = '&' then
      match _h : matchEntity (c :: rest) with
      | some (decoded, rest') => decoded :: unescapeChars rest'
      | none => '&' :: unescapeChars rest
    else c :: unescapeChars rest
termination_by chars => chars.length
decreasing_by
  · exact matchEntity_length _h
  · exact Nat.lt_succ_self _
  · exact Nat.lt_succ_self _

/-- `unescape`: the five predefined entities are decoded, everything else is kept. -/
def unescape (src : String) : String := String.ofList (unescapeChars src.toList)

/-- The characters that `str::trim` removes. -/
def isWhitespace (c : Char) : Bool :=
  (0x09 ≤ c.toNat && c.toNat ≤ 0x0D) || c.toNat == 0x20 || c.toNat == 0x85 ||
    c.toNat == 0xA0 || c.toNat == 0x1680 || (0x2000 ≤ c.toNat && c.toNat ≤ 0x200A) ||
    c.toNat == 0x2028 || c.toNat == 0x2029 || c.toNat == 0x202F || c.toNat == 0x205F ||
    c.toNat == 0x3000

/-- `str::trim`. -/
def trim (s : String) : List Char :=
  ((s.toList.dropWhile isWhitespace).reverse.dropWhile isWhitespace).reverse

/-- The digits of a number, with the value read so far. -/
def digits : Nat → List Char → Option Nat
  | value, [] => some value
  | value, c :: rest =>
    if '0' ≤ c ∧ c ≤ '9' then digits (value * 10 + (c.toNat - '0'.toNat)) rest else none

/-- `str::parse` for a `u64`: at least one digit, a sign only in front, no overflow. -/
def parseU64 (chars : List Char) : Option Nat :=
  let unsigned := match chars with
    | '+' :: rest => rest
    | rest => rest
  if unsigned = [] then none
  else (digits 0 unsigned).bind fun value => if value < 2 ^ 64 then some value else none

/-- `eq_ignore_ascii_case`. -/
def eqIgnoreAsciiCase (a b : List Char) : Bool := a.map Char.toLower == b.map Char.toLower

end MyS3.Xml
