import MyS3.Xml.Text

/-!
# Numbers as text

A number that is printed in decimal is read back by `parse`, with or without white space
around it.
-/

namespace MyS3.Xml

/-- The digits of a number, and nothing else. -/
def IsDecimal (chars : List Char) : Prop := chars ≠ [] ∧ ∀ c ∈ chars, c.isDigit = true

theorem isDecimal_toString (n : Nat) : IsDecimal (toString n).toList := by
  rw [Nat.toString_eq_ofList_toDigits, String.toList_ofList]
  refine ⟨Nat.toDigits_ne_nil, fun c hc => ?_⟩
  exact Nat.isDigit_of_mem_toDigits (by decide) (by decide) hc

/-- The code of a digit. -/
private theorem isDigit_bounds {c : Char} (h : c.isDigit = true) :
    0x30 ≤ c.toNat ∧ c.toNat ≤ 0x39 := by
  simp only [Char.isDigit, Bool.and_eq_true, decide_eq_true_eq, UInt32.le_iff_toNat_le] at h
  exact h

/-- A digit is not white space. -/
theorem isWhitespace_of_isDigit {c : Char} (h : c.isDigit = true) : isWhitespace c = false := by
  obtain ⟨hlow, hhigh⟩ := isDigit_bounds h
  simp only [isWhitespace, Bool.or_eq_false_iff, Bool.and_eq_false_iff, decide_eq_false_iff_not,
    beq_eq_false_iff_ne]
  omega

/-- There is nothing to trim off a text without white space. -/
theorem trim_eq_self {text : String} (h : ∀ c ∈ text.toList, isWhitespace c = false) :
    trim text = text.toList := by
  have hkept : ∀ l : List Char, (∀ c ∈ l, isWhitespace c = false) →
      l.dropWhile isWhitespace = l := by
    intro l hl
    cases l with
    | nil => rfl
    | cons c rest =>
      rw [List.dropWhile_cons_of_neg]
      simp only [hl c List.mem_cons_self, Bool.false_eq_true, not_false_iff]
  rw [trim, hkept _ h, hkept _ fun c hc => h c (List.mem_reverse.mp hc), List.reverse_reverse]

/-- Digits are read from the left. -/
theorem digits_eq {chars : List Char} (h : ∀ c ∈ chars, c.isDigit = true) (value : Nat) :
    digits value chars = some (Nat.ofDigitChars 10 chars value) := by
  induction chars generalizing value with
  | nil => rfl
  | cons c rest ih =>
    obtain ⟨hlow, hhigh⟩ := isDigit_bounds (h c List.mem_cons_self)
    have hdigit : '0' ≤ c ∧ c ≤ '9' := ⟨UInt32.le_iff_toNat_le.mpr hlow,
      UInt32.le_iff_toNat_le.mpr hhigh⟩
    rw [digits, if_pos hdigit, ih fun d hd => h d (List.mem_cons_of_mem c hd),
      Nat.ofDigitChars_cons, Nat.mul_comm]

/-- A number that fits is read off its digits. -/
theorem parseU64_toString {n : Nat} (h : n < 2 ^ 64) : parseU64 (toString n).toList = some n := by
  obtain ⟨hsome, hdigits⟩ := isDecimal_toString n
  have hvalue : digits 0 (toString n).toList = some n := by
    rw [digits_eq hdigits, Nat.toString_eq_ofList_toDigits, String.toList_ofList,
      Nat.ofDigitChars_ten_toDigits]
  simp only [parseU64]
  split
  · rename_i hplus
    have hsign := hdigits '+' (hplus ▸ List.mem_cons_self)
    exact absurd hsign (by decide)
  · rw [if_neg hsome, hvalue, Option.bind_some, if_pos h]

/-- Printing leaves nothing to trim. -/
theorem trim_toString (n : Nat) : trim (toString n) = (toString n).toList :=
  trim_eq_self fun c hc => isWhitespace_of_isDigit ((isDecimal_toString n).2 c hc)

end MyS3.Xml
