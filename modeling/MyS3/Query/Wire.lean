import MyS3.Query.Server

/-!
# The query on the wire

Parameters appended one after another. Read off the wire, the query holds those that have
a value, and every separator in it stands between two of them or between a name and its
value.
-/

namespace MyS3.Query

open MyS3.Xml (bytesOf)

/-- The parameters appended in their order to a query that is empty. -/
def appendQueryParams (params : List (String × Option String)) : Bytes :=
  params.foldl (fun query param => appendQueryParam query param.1 param.2) []

/-- The parameters that are asked for, as bytes. -/
def asked (params : List (String × Option String)) : List (Bytes × Bytes) :=
  params.flatMap fun param => (param.2.map fun value => (bytesOf param.1, bytesOf value)).toList

theorem appendQueryParams_eq (params : List (String × Option String)) :
    appendQueryParams params = joined ((asked params).map encodedPair) := by
  have hfold : ∀ pairs : List (Bytes × Bytes),
      params.foldl (fun query param => appendQueryParam query param.1 param.2)
          (joined (pairs.map encodedPair)) =
        joined ((pairs ++ asked params).map encodedPair) := by
    induction params with
    | nil =>
      intro pairs
      rw [List.foldl_nil, asked, List.flatMap_nil, List.append_nil]
    | cons param rest ih =>
      intro pairs
      rw [List.foldl_cons, appendQueryParam_eq, ih, List.append_assoc]
      rfl
  exact hfold []

theorem joined_singleton (pair : Bytes × Bytes) : joined [pair] = pairText pair := by
  rw [joined, List.map_singleton, List.intercalate_singleton]

theorem joined_cons_cons (pair next : Bytes × Bytes) (rest : List (Bytes × Bytes)) :
    joined (pair :: next :: rest) = pairText pair ++ amp :: joined (next :: rest) := by
  simp only [joined, List.map_cons, List.intercalate_cons_cons, List.append_assoc,
    List.singleton_append]

private theorem mem_pairText {pair : Bytes × Bytes} {b : UInt8}
    (h : b ∈ pairText (encodedPair pair)) :
    isUnreserved b = true ∨ b = percent ∨ b = equals ∨ b = amp := by
  rw [pairText, List.mem_append, List.mem_cons] at h
  rcases h with hname | rfl | hvalue
  · exact (mem_encoded hname).imp_right .inl
  · exact .inr (.inr (.inl rfl))
  · exact (mem_encoded hvalue).imp_right .inl

/-- A query of encoded pairs is made of unreserved bytes, `%` and the two separators. -/
theorem mem_joined {pairs : List (Bytes × Bytes)} {b : UInt8}
    (h : b ∈ joined (pairs.map encodedPair)) :
    isUnreserved b = true ∨ b = percent ∨ b = equals ∨ b = amp := by
  induction pairs with
  | nil => cases h
  | cons pair rest ih =>
    cases rest with
    | nil =>
      rw [List.map_singleton, joined_singleton] at h
      exact mem_pairText h
    | cons next rest =>
      rw [List.map_cons, List.map_cons, joined_cons_cons, List.mem_append, List.mem_cons] at h
      rcases h with hpair | rfl | hrest
      · exact mem_pairText hpair
      · exact .inr (.inr (.inr rfl))
      · exact ih hrest

/-- An encoded parameter holds one `=` and no `&`. -/
private theorem count_pairText (pair : Bytes × Bytes) :
    (pairText (encodedPair pair)).count equals = 1 ∧
      (pairText (encodedPair pair)).count amp = 0 := by
  simp only [pairText, encodedPair, List.count_append, List.count_cons,
    List.count_eq_zero_of_not_mem (equals_not_mem_encoded _),
    List.count_eq_zero_of_not_mem (amp_not_mem_encoded _)]
  decide

/-- A `=` for every parameter, and an `&` between any two neighbours. -/
theorem count_joined (pairs : List (Bytes × Bytes)) :
    (joined (pairs.map encodedPair)).count equals = pairs.length ∧
      (joined (pairs.map encodedPair)).count amp = pairs.length - 1 := by
  induction pairs with
  | nil => exact ⟨rfl, rfl⟩
  | cons pair rest ih =>
    obtain ⟨hequals, hamp⟩ := count_pairText pair
    cases rest with
    | nil =>
      rw [List.map_singleton, joined_singleton]
      exact ⟨hequals, hamp⟩
    | cons next rest =>
      obtain ⟨ihequals, ihamp⟩ := ih
      have hsep : (equals == amp) = false ∧ (amp == equals) = false := by decide
      rw [List.map_cons, List.map_cons, joined_cons_cons, ← List.map_cons]
      simp only [List.count_append, List.count_cons, hequals, hamp, ihequals, ihamp, hsep,
        List.length_cons, BEq.rfl]
      exact ⟨by simp only [Bool.false_eq_true, ↓reduceIte]; omega, by simp⟩

/-- Where something is asked for, no part of the query is empty. -/
theorem splitOn_joined {pairs : List (Bytes × Bytes)} (h : pairs ≠ []) :
    (joined (pairs.map encodedPair)).splitOn amp = (pairs.map encodedPair).map pairText := by
  have hamp : ∀ part ∈ (pairs.map encodedPair).map pairText, amp ∉ part := by
    intro part hpart
    obtain ⟨pair, hpair, rfl⟩ := List.mem_map.mp hpart
    obtain ⟨plain, -, rfl⟩ := List.mem_map.mp hpair
    exact List.count_eq_zero.mp (count_pairText plain).2
  rw [joined, List.splitOn_intercalate amp hamp (by simpa using h)]

end MyS3.Query
