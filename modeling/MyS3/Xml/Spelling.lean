import MyS3.Xml.Pieces

/-!
# The ways a storage may write a key

A character of a key stands in a document as itself, as one of the five entities, or as a
character reference by its number. Decoding gives back every key that is written without
numbers; a reference by number is kept as it was written.
-/

namespace MyS3.Xml

/-- The value of a digit in either case; `16` for what is none. -/
def digitValue (c : Char) : Nat :=
  if '0' ≤ c ∧ c ≤ '9' then c.toNat - '0'.toNat
  else if 'a' ≤ c ∧ c ≤ 'f' then c.toNat - 'a'.toNat + 10
  else if 'A' ≤ c ∧ c ≤ 'F' then c.toNat - 'A'.toNat + 10
  else 16

/-- The digits name `n`; zeros may stand in front. -/
def IsNumeral (base : Nat) (digits : List Char) (n : Nat) : Prop :=
  digits ≠ [] ∧ (∀ d ∈ digits, digitValue d < base) ∧
    digits.foldl (fun value d => value * base + digitValue d) 0 = n

instance (base : Nat) (digits : List Char) (n : Nat) : Decidable (IsNumeral base digits n) :=
  letI := List.decidableBAll (digitValue · < base) digits
  inferInstanceAs (Decidable (_ ∧ _ ∧ _))

/-- A character and one of the forms it may be written in. -/
inductive Spelling where
  | literal (c : Char) (hamp : c ≠ '&') (hlt : c ≠ '<')
  | entity (e : List Char × Char) (he : e ∈ entities)
  | decimal (c : Char) (digits : List Char) (h : IsNumeral 10 digits c.toNat)
  | hexadecimal (c : Char) (digits : List Char) (h : IsNumeral 16 digits c.toNat)

namespace Spelling

/-- The character that is written. -/
def char : Spelling → Char
  | literal c _ _ => c
  | entity e _ => e.2
  | decimal c _ _ => c
  | hexadecimal c _ _ => c

/-- How it stands in the document. -/
def raw : Spelling → List Char
  | literal c _ _ => [c]
  | entity e _ => e.1
  | decimal _ digits _ => '&' :: '#' :: (digits ++ [';'])
  | hexadecimal _ digits _ => '&' :: '#' :: 'x' :: (digits ++ [';'])

/-- Whether the character is written by its number. -/
def isReference : Spelling → Bool
  | literal _ _ _ | entity _ _ => false
  | decimal _ _ _ | hexadecimal _ _ _ => true

/-- What is left of it behind the decoder. -/
def seen (spelling : Spelling) : List Char :=
  if spelling.isReference then spelling.raw else [spelling.char]

end Spelling

/-- The key that is written. -/
def keyOf (spellings : List Spelling) : String := String.ofList (spellings.map Spelling.char)

/-- The text of its element. -/
def spelled (spellings : List Spelling) : String := String.ofList (spellings.flatMap Spelling.raw)

/-- A digit is no ampersand. -/
private theorem ne_amp_of_digitValue {base : Nat} {d : Char} (h : digitValue d < base)
    (hbase : base ≤ 16) : d ≠ '&' := by
  rintro rfl
  have hamp : digitValue '&' = 16 := by decide
  omega

private theorem amp_not_mem_digits {base n : Nat} {digits : List Char}
    (h : IsNumeral base digits n) (hbase : base ≤ 16) : '&' ∉ digits ++ [';'] := by
  simp only [List.mem_append, List.mem_singleton, not_or]
  refine ⟨fun hmem => ?_, by decide⟩
  exact ne_amp_of_digitValue (h.2.1 '&' hmem) hbase rfl

/-- Text without an ampersand is passed on. -/
theorem unescapeChars_append {chars : List Char} (h : '&' ∉ chars) (rest : List Char) :
    unescapeChars (chars ++ rest) = chars ++ unescapeChars rest := by
  induction chars with
  | nil => rfl
  | cons c chars ih =>
    simp only [List.mem_cons, not_or] at h
    rw [List.cons_append, unescapeChars_literal (fun hc => h.1 hc.symm), ih h.2, List.cons_append]

/-- A number sign right behind an ampersand: no entity begins there. -/
private theorem unescapeChars_numberSign {chars : List Char} (h : '&' ∉ chars)
    (rest : List Char) :
    unescapeChars ('&' :: '#' :: chars ++ rest) = '&' :: '#' :: chars ++ unescapeChars rest := by
  have hbare : ∀ e ∈ entities, ¬e.1 <+: '&' :: '#' :: chars ++ rest := by
    intro e he
    simp only [entities, List.mem_cons, List.not_mem_nil, or_false] at he
    rcases he with rfl | rfl | rfl | rfl | rfl <;> simp [List.cons_prefix_cons]
  have hchars : '&' ∉ '#' :: chars := by
    simpa only [List.mem_cons, not_or] using ⟨by decide, h⟩
  simp only [List.cons_append] at hbare ⊢
  rw [unescapeChars_bare hbare, ← List.cons_append, unescapeChars_append hchars,
    List.cons_append]

/-- One character, in each of its forms. -/
theorem unescapeChars_raw (spelling : Spelling) (rest : List Char) :
    unescapeChars (spelling.raw ++ rest) = spelling.seen ++ unescapeChars rest := by
  cases spelling with
  | literal c hamp hlt => exact unescapeChars_literal hamp rest
  | entity e he => exact unescapeChars_entity he rest
  | decimal c digits h =>
    exact unescapeChars_numberSign (amp_not_mem_digits h (by decide)) rest
  | hexadecimal c digits h =>
    have hdigits : '&' ∉ 'x' :: (digits ++ [';']) := by
      simpa only [List.mem_cons, not_or] using ⟨by decide, amp_not_mem_digits h (by decide)⟩
    exact unescapeChars_numberSign hdigits rest

/-- The text of an element, character by character. -/
theorem unescape_spelled_eq (spellings : List Spelling) :
    unescape (spelled spellings) = String.ofList (spellings.flatMap Spelling.seen) := by
  rw [unescape, spelled, String.toList_ofList]
  congr 1
  induction spellings with
  | nil => exact unescapeChars_nil
  | cons spelling spellings ih =>
    rw [List.flatMap_cons, unescapeChars_raw, ih, List.flatMap_cons]

/-- A reference by number is longer than the character it stands for. -/
theorem Spelling.one_lt_length_seen {spelling : Spelling} (h : spelling.isReference = true) :
    1 < spelling.seen.length := by
  rw [seen, if_pos h]
  cases spelling <;> simp [raw, isReference] at h ⊢

/-- Nothing that is written vanishes. -/
theorem length_le_length_flatMap_seen (spellings : List Spelling) :
    spellings.length ≤ (spellings.flatMap Spelling.seen).length := by
  induction spellings with
  | nil => exact Nat.le_refl 0
  | cons spelling spellings ih =>
    have hpos : 0 < spelling.seen.length := by
      by_cases hreference : spelling.isReference = true
      · exact Nat.lt_of_succ_lt (Spelling.one_lt_length_seen hreference)
      · simp [Spelling.seen, hreference]
    rw [List.flatMap_cons, List.length_append, List.length_cons]
    omega

/-- The characters come back exactly where none of them is written by its number. -/
theorem flatMap_seen_eq_iff {spellings : List Spelling} :
    spellings.flatMap Spelling.seen = spellings.map Spelling.char ↔
      ∀ spelling ∈ spellings, spelling.isReference = false := by
  induction spellings with
  | nil => simp
  | cons spelling spellings ih =>
    rw [List.flatMap_cons, List.map_cons, List.forall_mem_cons, ← ih]
    cases hreference : spelling.isReference with
    | false =>
      have hseen : spelling.seen = [spelling.char] := by simp [Spelling.seen, hreference]
      rw [hseen, List.singleton_append, List.cons_inj_right]
      simp only [true_and]
    | true =>
      simp only [Bool.true_eq_false, false_and, iff_false]
      intro heq
      have hlength := congrArg List.length heq
      have hlong := Spelling.one_lt_length_seen hreference
      have hrest := length_le_length_flatMap_seen spellings
      simp only [List.length_append, List.length_cons, List.length_map] at hlength
      omega

/-- A key comes back from the text of its element with every reference by number left as it
was written: the listed key is the key exactly where it is written without one. -/
theorem unescape_spelled (spellings : List Spelling) :
    unescape (spelled spellings) = String.ofList (spellings.flatMap Spelling.seen) ∧
      (unescape (spelled spellings) = keyOf spellings ↔
        ∀ spelling ∈ spellings, spelling.isReference = false) := by
  refine ⟨unescape_spelled_eq spellings, ?_⟩
  rw [unescape_spelled_eq, keyOf, String.ofList_inj, flatMap_seen_eq_iff]

/-- A storage that writes an apostrophe by its number lists a key that is not there. -/
theorem listed_key_is_not_the_key :
    let spellings : List Spelling := [.literal 'i' (by decide) (by decide),
      .literal 't' (by decide) (by decide), .decimal '\'' ['3', '9'] (by decide),
      .literal 's' (by decide) (by decide)]
    keyOf spellings = "it's" ∧ spelled spellings = "it&#39;s" ∧
      unescape (spelled spellings) = "it&#39;s" ∧
      unescape (spelled spellings) ≠ keyOf spellings := by
  intro spellings
  have hread : unescape (spelled spellings) = "it&#39;s" := unescape_spelled_eq spellings
  refine ⟨rfl, rfl, hread, ?_⟩
  rw [hread]
  decide

end MyS3.Xml
