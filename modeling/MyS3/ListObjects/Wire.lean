import MyS3.ListObjects.Request
import MyS3.Query.Wire

/-!
# What a list request says on the wire

The query names each field that is set and no other, so no two requests share one.
-/

namespace MyS3.ListObjects

open Xml (bytesOf bytesOf_injective)
open Query

/-- A number is read off its decimal digits. -/
private theorem toString_injective {a b : Nat} (h : toString a = toString b) : a = b := by
  rw [Nat.toString_eq_ofList_toDigits, Nat.toString_eq_ofList_toDigits, String.ofList_inj] at h
  rw [← Nat.ofDigitChars_ten_toDigits (n := a), h, Nat.ofDigitChars_ten_toDigits]

/-- The parameters of a request determine it. -/
theorem pairs_injective : Function.Injective S3ListObjectsRequest.pairs := by
  intro request other h
  obtain ⟨hkeys, hdelimiter, htoken, hmax⟩ := find_pairs request
  obtain ⟨hkeys', hdelimiter', htoken', hmax'⟩ := find_pairs other
  rw [h] at hkeys hdelimiter htoken hmax
  have hbytes : Function.Injective (Option.map bytesOf) :=
    Option.map_injective fun _ _ => bytesOf_injective
  have hnumber : Function.Injective
      (Option.map fun maxKeys : UInt32 => bytesOf (toString maxKeys.toNat)) :=
    Option.map_injective fun _ _ heq =>
      UInt32.toNat_inj.mp (toString_injective (bytesOf_injective heq))
  obtain ⟨keys, delimiter, token, maxKeys⟩ := request
  obtain ⟨keys', delimiter', token', maxKeys'⟩ := other
  rw [S3ListObjectsRequest.mk.injEq]
  exact ⟨hbytes (hkeys.symm.trans hkeys'), hbytes (hdelimiter.symm.trans hdelimiter'),
    hbytes (htoken.symm.trans htoken'), hnumber (hmax.symm.trans hmax')⟩

/-- The query on the wire means exactly the request: it reads as the parameters that have a
value, in their order; it holds no byte that is neither unreserved nor part of an escape nor a
separator, and no separator but those between them; and no two requests share a query. -/
theorem query_on_the_wire :
    (∀ params : List (String × Option String),
      decodedPairs (appendQueryParams params) = asked params ∧
        (asked params = [] ∧ appendQueryParams params = [] ∨
          (appendQueryParams params).splitOn amp = parts (appendQueryParams params)) ∧
        (∀ b ∈ appendQueryParams params,
          isUnreserved b = true ∨ b = percent ∨ b = equals ∨ b = amp) ∧
        (appendQueryParams params).count equals = (asked params).length ∧
        (appendQueryParams params).count amp = (asked params).length - 1) ∧
      Function.Injective listQuery := by
  refine ⟨fun params => ?_, fun request other h => ?_⟩
  · rw [appendQueryParams_eq]
    obtain ⟨hequals, hamp⟩ := count_joined (asked params)
    refine ⟨decodedPairs_joined _, ?_, fun b hb => mem_joined hb, hequals, hamp⟩
    by_cases hasked : asked params = []
    · exact .inl ⟨hasked, by rw [hasked]; rfl⟩
    · exact .inr (by rw [splitOn_joined hasked, parts_joined])
  · rw [listQuery_eq, listQuery_eq] at h
    have hpairs := congrArg decodedPairs h
    rw [decodedPairs_joined, decodedPairs_joined] at hpairs
    exact pairs_injective hpairs

end MyS3.ListObjects
