import MyS3.Signing.Sign

/-!
# The time of a request

`get_amz_timestamp` over the RFC 3339 text of the clock. The date in front of it is the one
that the credential is scoped to.
-/

namespace MyS3

open Xml (bytesOf)

/-- `-`, between the parts of a date. -/
def hyphen : UInt8 := 0x2D

/-- `:`, between the parts of a time. -/
def colon : UInt8 := 0x3A

/-- `get_amz_timestamp`, from the text of the clock on: the separators are removed, and
characters are popped until fifteen are left. -/
def getAmzTimestamp (now : Bytes) : Bytes :=
  let now := now.filter (· != hyphen)
  let now := now.filter (· != colon)
  now.take 15 ++ bytesOf "Z"

/-- A number of exactly this many decimal digits. -/
structure Digits (count : Nat) where
  text : Bytes
  length_text : text.length = count
  digit : ∀ byte ∈ text, 0x30 ≤ byte ∧ byte ≤ 0x39

/-- An instant as the calendar gives it. -/
structure Instant where
  year : Digits 4
  month : Digits 2
  day : Digits 2
  hour : Digits 2
  minute : Digits 2
  second : Digits 2

/-- The date of an instant without separators. -/
def Instant.date (instant : Instant) : Bytes :=
  instant.year.text ++ instant.month.text ++ instant.day.text

/-- The time of day of an instant without separators. -/
def Instant.time (instant : Instant) : Bytes :=
  instant.hour.text ++ instant.minute.text ++ instant.second.text

/-- The text of an instant in RFC 3339, with any fraction and offset behind it. -/
def Instant.rfc3339 (instant : Instant) (behind : Bytes) : Bytes :=
  instant.year.text ++ [hyphen] ++ instant.month.text ++ [hyphen] ++ instant.day.text ++
    bytesOf "T" ++ instant.hour.text ++ [colon] ++ instant.minute.text ++ [colon] ++
    instant.second.text ++ behind

/-- No digit is a separator. -/
theorem Digits.filter_text {count : Nat} (number : Digits count) {separator : UInt8}
    (h : separator < 0x30 ∨ 0x39 < separator) :
    number.text.filter (· != separator) = number.text := by
  apply List.filter_eq_self.mpr
  intro byte hbyte
  obtain ⟨hlow, hhigh⟩ := number.digit byte hbyte
  rw [bne_iff_ne]
  rintro rfl
  simp only [UInt8.le_iff_toNat_le, UInt8.lt_iff_toNat_lt] at h hlow hhigh
  omega

theorem Instant.length_date (instant : Instant) : instant.date.length = 8 := by
  simp only [date, List.length_append, Digits.length_text]

theorem Instant.length_time (instant : Instant) : instant.time.length = 6 := by
  simp only [time, List.length_append, Digits.length_text]

/-- The text of the clock comes out compact, whatever stands behind its seconds. -/
theorem getAmzTimestamp_rfc3339 (instant : Instant) (behind : Bytes) :
    getAmzTimestamp (instant.rfc3339 behind) =
      instant.date ++ bytesOf "T" ++ instant.time ++ bytesOf "Z" := by
  have hhyphen : ∀ {count} (number : Digits count),
      number.text.filter (· != hyphen) = number.text :=
    fun number => number.filter_text (by decide)
  have hcolon : ∀ {count} (number : Digits count),
      number.text.filter (· != colon) = number.text :=
    fun number => number.filter_text (by decide)
  have hseparators : [hyphen].filter (· != hyphen) = [] ∧ [colon].filter (· != hyphen) = [colon] ∧
      [colon].filter (· != colon) = [] ∧ (bytesOf "T").filter (· != hyphen) = bytesOf "T" ∧
      (bytesOf "T").filter (· != colon) = bytesOf "T" := by decide
  obtain ⟨hh, hch, hcc, hth, htc⟩ := hseparators
  have hfront : (instant.date ++ bytesOf "T" ++ instant.time).length = 15 := by
    simp only [List.length_append, instant.length_date, instant.length_time]
    decide
  have htext : ((instant.rfc3339 behind).filter (· != hyphen)).filter (· != colon) =
      instant.date ++ bytesOf "T" ++ instant.time ++
        (behind.filter (· != hyphen)).filter (· != colon) := by
    simp only [Instant.rfc3339, Instant.date, Instant.time, List.filter_append, hhyphen, hcolon,
      hh, hch, hcc, hth, htc, List.nil_append, List.append_assoc]
  simp only [getAmzTimestamp, htext]
  rw [List.take_append_of_le_length (Nat.le_of_eq hfront.symm), List.take_of_length_le
    (Nat.le_of_eq hfront)]

/-- The date that a request is scoped to is the date of its time. -/
theorem dateOf_getAmzTimestamp (instant : Instant) (behind : Bytes) :
    dateOf (getAmzTimestamp (instant.rfc3339 behind)) = instant.date := by
  rw [getAmzTimestamp_rfc3339, dateOf, List.append_assoc, List.append_assoc,
    List.take_append_of_le_length (Nat.le_of_eq instant.length_date.symm),
    List.take_of_length_le (Nat.le_of_eq instant.length_date)]

end MyS3
