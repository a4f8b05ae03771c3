import Mathlib.Data.List.Sort
import MyS3.Core.Separated
import MyS3.Xml.Text

/-!
# The query that is sent and signed

A query is built by hand, every name and value URI-encoded over its UTF-8 bytes, and
signed in its canonical form: the same pairs taken verbatim, sorted and joined.
-/

namespace MyS3.Query

open MyS3.Xml (bytesOf)
open Separated

/-- `&`, between two parameters. -/
def amp : UInt8 := 0x26

/-- `=`, between a name and its value. -/
def equals : UInt8 := 0x3D

/-- `%`, which begins an escape. -/
def percent : UInt8 := 0x25

/-- `HEX[n]`. -/
def hexDigit (n : UInt8) : UInt8 := (bytesOf "0123456789ABCDEF").getD n.toNat 0

/-- The bytes that stand for themselves: `A-Za-z0-9-_.~`. -/
def isUnreserved (byte : UInt8) : Bool :=
  (0x41 ≤ byte && byte ≤ 0x5A) || (0x61 ≤ byte && byte ≤ 0x7A) ||
    (0x30 ≤ byte && byte ≤ 0x39) || byte == 0x2D || byte == 0x5F || byte == 0x2E || byte == 0x7E

/-- What one byte of a name or a value becomes. -/
def encodeByte (byte : UInt8) : Bytes :=
  if isUnreserved byte then [byte]
  else [percent, hexDigit (byte >>> 4), hexDigit (byte &&& 0x0F)]

/-- `encode_uri_component`, which appends to `dest`. -/
def encodeUriComponent (src : String) (dest : Bytes) : Bytes :=
  (bytesOf src).foldl (fun dest byte => dest ++ encodeByte byte) dest

/-- `append_query_param`; a `None` appends nothing at all. -/
def appendQueryParam (query : Bytes) (name : String) (value : Option String) : Bytes :=
  match value with
  | none => query
  | some value =>
    let query := if query ≠ [] then query ++ [amp] else query
    let query := encodeUriComponent name query
    let query := query ++ [equals]
    encodeUriComponent value query

/-- The order of `(&str, &str)`: by name, then by value, byte by byte. -/
def PairLe (a b : Bytes × Bytes) : Prop := a.1 < b.1 ∨ a.1 = b.1 ∧ a.2 ≤ b.2

instance : DecidableRel PairLe := fun _ _ => inferInstanceAs (Decidable (_ ∨ _ ∧ _))

/-- A part of a query as a name and a value; without a `=` the value is empty. -/
def splitPair (pair : Bytes) : Bytes × Bytes :=
  match splitOnce equals pair with
  | some (name, value) => (name, value)
  | none => (pair, [])

/-- The parts of a query that are not empty. -/
def parts (query : Bytes) : List Bytes := (query.splitOn amp).filter fun pair => !pair.isEmpty

/-- `name=value`. -/
def pairText (pair : Bytes × Bytes) : Bytes := pair.1 ++ equals :: pair.2

/-- The pairs, joined by `&`. -/
def joined (pairs : List (Bytes × Bytes)) : Bytes := [amp].intercalate (pairs.map pairText)

/-- `canonical_query_string`: the pairs verbatim, in ascending order. -/
def canonicalQueryString (query : Option Bytes) : Bytes :=
  match query with
  | none => []
  | some query =>
    if query = [] then []
    else joined (((parts query).map splitPair).insertionSort PairLe)

/-- The encoding of a text's bytes. -/
def encoded (bytes : Bytes) : Bytes := bytes.flatMap encodeByte

@[simp] theorem encodeUriComponent_eq (src : String) (dest : Bytes) :
    encodeUriComponent src dest = dest ++ encoded (bytesOf src) := by
  unfold encodeUriComponent encoded
  generalize bytesOf src = bytes
  induction bytes generalizing dest with
  | nil => simp only [List.foldl_nil, List.flatMap_nil, List.append_nil]
  | cons byte rest ih =>
    rw [List.foldl_cons, ih, List.flatMap_cons, List.append_assoc]

/-- A digit of an escape is a digit or a letter. -/
private theorem isUnreserved_hexDigit (byte : UInt8) :
    isUnreserved (hexDigit (byte >>> 4)) = true ∧
      isUnreserved (hexDigit (byte &&& 0x0F)) = true := by
  have hall : ∀ n : Fin 256, isUnreserved (hexDigit (UInt8.ofNat n >>> 4)) = true ∧
      isUnreserved (hexDigit (UInt8.ofNat n &&& 0x0F)) = true := by decide +kernel
  simpa only [UInt8.ofNat_toNat] using hall ⟨byte.toNat, byte.toNat_lt⟩

/-- Encoded text is made of unreserved bytes and `%`. -/
theorem mem_encoded {bytes : Bytes} {b : UInt8} (h : b ∈ encoded bytes) :
    isUnreserved b = true ∨ b = percent := by
  obtain ⟨byte, -, hb⟩ := List.mem_flatMap.mp h
  unfold encodeByte at hb
  by_cases hu : isUnreserved byte = true
  · rw [if_pos hu, List.mem_singleton] at hb
    exact .inl (hb ▸ hu)
  · rw [if_neg hu] at hb
    obtain ⟨hhigh, hlow⟩ := isUnreserved_hexDigit byte
    simp only [List.mem_cons, List.not_mem_nil, or_false] at hb
    rcases hb with rfl | rfl | rfl
    · exact .inr rfl
    · exact .inl hhigh
    · exact .inl hlow

theorem equals_not_mem_encoded (bytes : Bytes) : equals ∉ encoded bytes :=
  fun h => absurd (mem_encoded h) (by decide)

theorem amp_not_mem_encoded (bytes : Bytes) : amp ∉ encoded bytes :=
  fun h => absurd (mem_encoded h) (by decide)

/-- A name and a value as they stand in a query. -/
def encodedPair (pair : Bytes × Bytes) : Bytes × Bytes := (encoded pair.1, encoded pair.2)

@[simp] theorem joined_nil : joined [] = [] := rfl

/-- A query is empty exactly when it has no parameter. -/
theorem joined_eq_nil {pairs : List (Bytes × Bytes)} : joined pairs = [] ↔ pairs = [] := by
  cases pairs with
  | nil => simp only [joined_nil]
  | cons pair rest =>
    cases rest with
    | nil => simp [joined, pairText]
    | cons next rest => simp [joined, pairText, List.intercalate_cons_cons]

/-- One more parameter at the end of a query. -/
theorem joined_snoc (pairs : List (Bytes × Bytes)) (pair : Bytes × Bytes) :
    joined (pairs ++ [pair]) =
      if pairs = [] then pairText pair else joined pairs ++ [amp] ++ pairText pair := by
  unfold joined
  rw [List.map_append, List.map_singleton, intercalate_snoc]
  simp only [List.map_eq_nil_iff]

/-- `append_query_param` adds its pair, encoded, behind those that are there. -/
theorem appendQueryParam_some (pairs : List (Bytes × Bytes)) (name value : String) :
    appendQueryParam (joined pairs) name (some value) =
      joined (pairs ++ [encodedPair (bytesOf name, bytesOf value)]) := by
  simp only [appendQueryParam, encodeUriComponent_eq, joined_snoc, pairText, encodedPair, ne_eq,
    joined_eq_nil, ite_not]
  by_cases hpairs : pairs = []
  · simp [hpairs]
  · simp [hpairs]

/-- Whatever is asked for, a query of encoded pairs stays one. -/
theorem appendQueryParam_eq (pairs : List (Bytes × Bytes)) (name : String)
    (value : Option String) :
    appendQueryParam (joined (pairs.map encodedPair)) name value =
      joined ((pairs ++ (value.map fun v => (bytesOf name, bytesOf v)).toList).map
        encodedPair) := by
  cases value with
  | none => simp only [appendQueryParam, Option.map_none, Option.toList_none, List.append_nil]
  | some value =>
    rw [appendQueryParam_some, List.map_append]
    rfl

private theorem amp_not_mem_pairText (pair : Bytes × Bytes) :
    amp ∉ pairText (encodedPair pair) := by
  simp only [pairText, encodedPair, List.mem_append, List.mem_cons, not_or]
  exact ⟨amp_not_mem_encoded _, by decide, amp_not_mem_encoded _⟩

/-- Splitting at `&` undoes joining, where no pair holds one. -/
theorem parts_joined_of_not_mem {pairs : List (Bytes × Bytes)}
    (h : ∀ pair ∈ pairs, amp ∉ pairText pair) : parts (joined pairs) = pairs.map pairText := by
  by_cases hpairs : pairs = []
  · subst hpairs
    rfl
  · have hamp : ∀ part ∈ pairs.map pairText, amp ∉ part := by
      intro part hpart
      obtain ⟨pair, hpair, rfl⟩ := List.mem_map.mp hpart
      exact h pair hpair
    rw [parts, joined, List.splitOn_intercalate amp hamp (by simpa using hpairs)]
    rw [List.filter_eq_self]
    intro part hpart
    obtain ⟨pair, -, rfl⟩ := List.mem_map.mp hpart
    simp [pairText]

/-- Splitting at the first `=` undoes joining, where the name holds none. -/
theorem splitPair_pairText_of_not_mem {pair : Bytes × Bytes} (h : equals ∉ pair.1) :
    splitPair (pairText pair) = pair := by
  have hsplit : splitOnce equals (pairText pair) = some pair := splitOnce_append h
  rw [splitPair, hsplit]

/-- Splitting a query of encoded pairs at `&` gives back its parts. -/
theorem parts_joined (pairs : List (Bytes × Bytes)) :
    parts (joined (pairs.map encodedPair)) = (pairs.map encodedPair).map pairText := by
  apply parts_joined_of_not_mem
  intro pair hpair
  obtain ⟨plain, -, rfl⟩ := List.mem_map.mp hpair
  exact amp_not_mem_pairText plain

/-- Splitting a part at its first `=` gives back its pair. -/
theorem splitPair_pairText (pair : Bytes × Bytes) :
    splitPair (pairText (encodedPair pair)) = encodedPair pair :=
  splitPair_pairText_of_not_mem (equals_not_mem_encoded pair.1)

end MyS3.Query
