import MyS3.Query.Encode

/-!
# The canonical form of a query

What is signed depends on nothing but the parameters and how often each of them occurs:
the canonical form lists them in the order of their names and values, and read again it
holds the same parameters.
-/

namespace MyS3.Query

open MyS3.Xml (bytesOf)
open Separated

/-- The parameters of a query, in the order it states them. -/
def pairsOf (query : Bytes) : List (Bytes × Bytes) := (parts query).map splitPair

private theorem pairLe_or_of_le {a b : Bytes × Bytes} (hle : a.1 ≤ b.1) :
    PairLe a b ∨ PairLe b a := by
  by_cases heq : a.1 = b.1
  · rcases List.le_total a.2 b.2 with hvalue | hvalue
    · exact .inl (.inr ⟨heq, hvalue⟩)
    · exact .inr (.inr ⟨heq.symm, hvalue⟩)
  · exact .inl (.inl (List.not_le.mp fun hge => heq (List.le_antisymm hle hge)))

instance : Std.Total PairLe where
  total a b := by
    rcases List.le_total a.1 b.1 with hle | hge
    · exact pairLe_or_of_le hle
    · exact (pairLe_or_of_le hge).symm

instance : IsTrans (Bytes × Bytes) PairLe where
  trans a b c hab hbc := by
    rcases hab with hlt | ⟨heq, hle⟩
    · rcases hbc with hlt' | ⟨heq', -⟩
      · exact .inl (List.lt_trans hlt hlt')
      · exact .inl (heq' ▸ hlt)
    · rcases hbc with hlt' | ⟨heq', hle'⟩
      · exact .inl (heq ▸ hlt')
      · exact .inr ⟨heq.trans heq', List.le_trans hle hle'⟩

instance : Std.Antisymm PairLe where
  antisymm a b hab hba := by
    rcases hab with hlt | ⟨heq, hle⟩
    · rcases hba with hlt' | ⟨heq', -⟩
      · exact absurd (List.lt_trans hlt hlt') (List.lt_irrefl _)
      · exact absurd (heq' ▸ hlt) (List.lt_irrefl _)
    · rcases hba with hlt' | ⟨-, hle'⟩
      · exact absurd (heq ▸ hlt') (List.lt_irrefl _)
      · exact Prod.ext heq (List.le_antisymm hle hle')

/-- A part without a `=` is a name, any other is its name and value around the first. -/
theorem splitPair_cases (part : Bytes) :
    equals ∉ part ∧ splitPair part = (part, []) ∨
      equals ∉ (splitPair part).1 ∧ pairText (splitPair part) = part := by
  unfold splitPair
  cases hsplit : splitOnce equals part with
  | none => exact .inl ⟨not_mem_of_splitOnce_eq_none hsplit, rfl⟩
  | some pair => exact .inr ⟨not_mem_of_splitOnce hsplit, (eq_of_splitOnce hsplit).symm⟩

theorem mem_parts {query part : Bytes} (h : part ∈ parts query) : part ≠ [] ∧ amp ∉ part := by
  rw [parts, List.mem_filter] at h
  exact ⟨by simpa using h.2, not_mem_of_mem_splitOn h.1⟩

/-- A parameter holds no separator that could be read as another one. -/
theorem mem_pairsOf {query : Bytes} {pair : Bytes × Bytes} (h : pair ∈ pairsOf query) :
    amp ∉ pairText pair ∧ equals ∉ pair.1 := by
  obtain ⟨part, hpart, rfl⟩ := List.mem_map.mp h
  have hamp := (mem_parts hpart).2
  rcases splitPair_cases part with ⟨hequals, hpair⟩ | ⟨hequals, htext⟩
  · rw [hpair]
    refine ⟨?_, hequals⟩
    simp only [pairText, List.mem_append, List.mem_singleton, not_or]
    exact ⟨hamp, by decide⟩
  · exact ⟨htext.symm ▸ hamp, hequals⟩

/-- Parameters of queries, joined and split again. -/
theorem pairsOf_joined {pairs : List (Bytes × Bytes)}
    (h : ∀ pair ∈ pairs, amp ∉ pairText pair ∧ equals ∉ pair.1) :
    pairsOf (joined pairs) = pairs := by
  rw [pairsOf, parts_joined_of_not_mem fun pair hpair => (h pair hpair).1, List.map_map]
  calc pairs.map (splitPair ∘ pairText)
      = pairs.map id := List.map_congr_left fun pair hpair =>
        splitPair_pairText_of_not_mem (h pair hpair).2
    _ = pairs := List.map_id pairs

/-- The parameters of a query in their canonical order. -/
def sortedPairs (query : Bytes) : List (Bytes × Bytes) := (pairsOf query).insertionSort PairLe

theorem sortedPairs_perm (query : Bytes) : (sortedPairs query).Perm (pairsOf query) :=
  List.perm_insertionSort PairLe (pairsOf query)

theorem pairwise_sortedPairs (query : Bytes) : (sortedPairs query).Pairwise PairLe :=
  List.pairwise_insertionSort PairLe (pairsOf query)

theorem canonicalQueryString_some (query : Bytes) :
    canonicalQueryString (some query) = joined (sortedPairs query) := by
  rw [canonicalQueryString]
  split
  · rename_i hquery
    rw [hquery]
    rfl
  · rfl

/-- The order in which a query states its parameters is forgotten. -/
theorem sortedPairs_eq_of_perm {query other : Bytes} (h : (pairsOf other).Perm (pairsOf query)) :
    sortedPairs other = sortedPairs query := by
  have hperm : (sortedPairs other).Perm (sortedPairs query) :=
    (sortedPairs_perm other).trans (h.trans (sortedPairs_perm query).symm)
  exact hperm.eq_of_pairwise' (pairwise_sortedPairs other) (pairwise_sortedPairs query)

/-- A canonical form states the parameters of its query. -/
theorem pairsOf_canonicalQueryString (query : Bytes) :
    pairsOf (canonicalQueryString (some query)) = sortedPairs query := by
  rw [canonicalQueryString_some]
  apply pairsOf_joined
  intro pair hpair
  exact mem_pairsOf ((sortedPairs_perm query).mem_iff.mp hpair)

/-- The canonical form depends only on the multiset of parameters: it lists them sorted by
name and then by value, each as often and exactly as the query states it. -/
theorem canonicalQueryString_by_params (query : Bytes) :
    (∃ pairs : List (Bytes × Bytes), pairs.Perm ((parts query).map splitPair) ∧
        pairs.Pairwise PairLe ∧ canonicalQueryString (some query) = joined pairs) ∧
      (∀ part ∈ parts query, part ≠ [] ∧ amp ∉ part ∧
        (equals ∉ part ∧ splitPair part = (part, []) ∨
          equals ∉ (splitPair part).1 ∧ pairText (splitPair part) = part)) ∧
      (∀ other : Bytes, ((parts other).map splitPair).Perm ((parts query).map splitPair) →
        canonicalQueryString (some other) = canonicalQueryString (some query)) ∧
      canonicalQueryString (some (canonicalQueryString (some query))) =
        canonicalQueryString (some query) := by
  have hagain : (pairsOf (canonicalQueryString (some query))).Perm (pairsOf query) := by
    rw [pairsOf_canonicalQueryString]
    exact sortedPairs_perm query
  refine ⟨⟨sortedPairs query, sortedPairs_perm query, pairwise_sortedPairs query,
    canonicalQueryString_some query⟩, fun part hpart => ?_, fun other hother => ?_, ?_⟩
  · exact ⟨(mem_parts hpart).1, (mem_parts hpart).2, splitPair_cases part⟩
  · rw [canonicalQueryString_some, canonicalQueryString_some, sortedPairs_eq_of_perm hother]
  · rw [canonicalQueryString_some (canonicalQueryString (some query)),
      sortedPairs_eq_of_perm hagain]
    exact (canonicalQueryString_some query).symm

/-- Two orders of the same parameters, one name beginning another, one value with a `=`. -/
theorem canonicalQueryString_by_params_reordered :
    canonicalQueryString (some (bytesOf "a-b=1&&a=x=y&uploads")) =
      canonicalQueryString (some (bytesOf "uploads=&a=x=y&a-b=1")) ∧
    canonicalQueryString (some (bytesOf "uploads=&a=x=y&a-b=1")) =
      bytesOf "a=x=y&a-b=1&uploads=" := by
  refine ⟨?_, by decide +kernel⟩
  exact (canonicalQueryString_by_params (bytesOf "uploads=&a=x=y&a-b=1")).2.2.1 _
    (by decide +kernel)

end MyS3.Query
