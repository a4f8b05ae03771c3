import MyS3.Client.Operation
import MyS3.Storage.Object
import MyS3.Xml.Number

/-!
# A range on the wire

The storage reads out of `Range` the two offsets that the client put into it, and clamps them
to the object it holds.
-/

namespace MyS3.Storage

open Xml (IsDecimal trim parseU64 isWhitespace isDecimal_toString trim_toString trim_eq_self
  parseU64_toString isWhitespace_of_isDigit)
open Client (rangeHeader)
open Reader (range)
open Separated

/-- The last byte that a range asks for of an object, where it asks for one at all. -/
def lastAsked (last : Option Nat) (length : Nat) : Nat := min (last.getD (length - 1)) (length - 1)

/-- What is asked for behind the end of an object is not there to be cut off. -/
theorem range_lastAsked (object : Bytes) (start last : Nat) :
    range object start (lastAsked (some last) object.length) = range object start last := by
  by_cases hinside : last ≤ object.length - 1
  · rw [lastAsked, Option.getD_some, Nat.min_eq_left hinside]
  · have hend : lastAsked (some last) object.length = object.length - 1 := by
      rw [lastAsked, Option.getD_some]
      omega
    rw [hend, range, range, List.take_of_length_le, List.take_of_length_le] <;>
      rw [List.length_drop] <;> omega

/-- The text behind `bytes=`. -/
private theorem toList_rangeHeader (start : Nat) (last : Option Nat) :
    (rangeHeader (start, last)).toList = "bytes=".toList ++
      ((toString start).toList ++ '-' :: (last.elim [] fun last => (toString last).toList)) := by
  have htext : ∀ text : String, toString text = text := fun _ => rfl
  cases last with
  | none => simp [rangeHeader, htext]
  | some last => simp [rangeHeader, htext]

/-- No character of it is white space. -/
private theorem trim_rangeHeader (start : Nat) (last : Option Nat) :
    trim (rangeHeader (start, last)) = (rangeHeader (start, last)).toList := by
  have hnumber : ∀ n : Nat, ∀ c ∈ (toString n).toList, isWhitespace c = false :=
    fun n c hc => isWhitespace_of_isDigit ((isDecimal_toString n).2 c hc)
  apply trim_eq_self
  intro c hc
  rw [toList_rangeHeader, List.mem_append, List.mem_append, List.mem_cons] at hc
  rcases hc with hword | hstart | rfl | hlast
  · have hfixed : ∀ c ∈ "bytes=".toList, isWhitespace c = false := by simp [isWhitespace]
    exact hfixed c hword
  · exact hnumber start c hstart
  · decide
  · cases last with
    | none => cases hlast
    | some last => exact hnumber last c hlast

/-- A number holds no `-`. -/
private theorem dash_not_mem (n : Nat) : '-' ∉ (toString n).toList := by
  intro hdash
  have hdigit := (isDecimal_toString n).2 '-' hdash
  exact absurd hdigit (by decide)

/-- The storage reads a range as it was asked for: unsatisfiable from the end of the object on,
and clamped to the object elsewhere. -/
theorem parseRange_rangeHeader {start length : Nat} {last : Option Nat} (hstart : start < 2 ^ 64)
    (hlast : ∀ l ∈ last, start ≤ l ∧ l < 2 ^ 64) :
    parseRange (rangeHeader (start, last)) length =
      if start < length then some (start, lastAsked last length) else none := by
  have hspec : (trim (rangeHeader (start, last))).dropPrefix? "bytes=".toList =
      some ((toString start).toList ++
        '-' :: (last.elim [] fun last => (toString last).toList)) := by
    rw [trim_rangeHeader, toList_rangeHeader]
    exact List.dropPrefix?_append_of_beq _ BEq.rfl
  have hfirst : trim (String.ofList (toString start).toList) = (toString start).toList := by
    rw [String.ofList_toList, trim_toString]
  simp only [parseRange, hspec, splitOnce_append (dash_not_mem start), hfirst,
    parseU64_toString hstart, Option.bind_eq_bind, Option.bind_some]
  by_cases hroom : start < length
  · rw [if_neg (Nat.not_le.mpr hroom), if_pos hroom]
    cases last with
    | none =>
      have hempty : trim (String.ofList (Option.elim none [] fun last : Nat =>
          (toString last).toList)) = [] := by decide
      simp only [hempty, if_true, lastAsked, Option.getD_none, Nat.min_self]
      exact if_neg (by omega)
    | some last =>
      obtain ⟨horder, hbound⟩ := hlast last rfl
      have hne : (toString last).toList ≠ [] := (isDecimal_toString last).1
      simp only [Option.elim_some, String.ofList_toList, trim_toString, hne, if_false,
        parseU64_toString hbound, Option.map_some, Option.bind_some, lastAsked, Option.getD_some]
      exact if_neg (by omega)
  · rw [if_pos (Nat.not_lt.mp hroom), if_neg hroom]

end MyS3.Storage
