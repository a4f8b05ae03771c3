import Mathlib.Data.List.Basic

/-!
# Texts made of separated parts

Splitting at the first separator, and the join that a writer builds part by part. Where
no part contains the separator, splitting undoes joining.
-/

namespace Separated

variable {α : Type} [DecidableEq α] {sep : α} {xs ys : List α}

/-- The text before and after the first separator, if there is one. -/
def splitOnce (sep : α) : List α → Option (List α × List α)
  | [] => none
  | x :: rest =>
    if x = sep then some ([], rest)
    else (splitOnce sep rest).map fun halves => (x :: halves.1, halves.2)

/-- In front of the first separator there may be any text without one. -/
theorem splitOnce_append_left (h : sep ∉ xs) :
    splitOnce sep (xs ++ ys) =
      (splitOnce sep ys).map fun halves => (xs ++ halves.1, halves.2) := by
  induction xs with
  | nil => simp only [List.nil_append, Option.map_id']
  | cons x xs ih =>
    simp only [List.mem_cons, not_or] at h
    have hne : x ≠ sep := fun hx => h.1 hx.symm
    simp only [List.cons_append, splitOnce, hne, ↓reduceIte, ih h.2, Option.map_map]
    rfl

/-- A separator behind a text without one is the first. -/
theorem splitOnce_append (h : sep ∉ xs) : splitOnce sep (xs ++ sep :: ys) = some (xs, ys) := by
  simp only [splitOnce_append_left h, splitOnce, ↓reduceIte, Option.map_some, List.append_nil]

/-- The halves and the separator make up the text. -/
theorem eq_of_splitOnce {l : List α} (h : splitOnce sep l = some (xs, ys)) :
    l = xs ++ sep :: ys := by
  induction l generalizing xs with
  | nil => cases h
  | cons x rest ih =>
    rw [splitOnce] at h
    split at h
    · rename_i hx
      cases h
      rw [hx, List.nil_append]
    · obtain ⟨⟨before, behind⟩, hrest, heq⟩ := Option.map_eq_some_iff.mp h
      cases heq
      rw [ih hrest, List.cons_append]

/-- The first separator is not part of what stands in front of it. -/
theorem not_mem_of_splitOnce {l : List α} (h : splitOnce sep l = some (xs, ys)) : sep ∉ xs := by
  induction l generalizing xs with
  | nil => cases h
  | cons x rest ih =>
    rw [splitOnce] at h
    split at h
    · cases h
      exact List.not_mem_nil
    · rename_i hx
      obtain ⟨⟨before, behind⟩, hrest, heq⟩ := Option.map_eq_some_iff.mp h
      cases heq
      simp only [List.mem_cons, not_or]
      exact ⟨fun hsep => hx hsep.symm, ih hrest⟩

/-- Only a text without a separator is not split. -/
theorem not_mem_of_splitOnce_eq_none {l : List α} (h : splitOnce sep l = none) : sep ∉ l := by
  induction l with
  | nil => exact List.not_mem_nil
  | cons x rest ih =>
    rw [splitOnce] at h
    split at h
    · cases h
    · rename_i hx
      simp only [List.mem_cons, not_or]
      exact ⟨fun hsep => hx hsep.symm, ih (Option.map_eq_none_iff.mp h)⟩

/-- No part holds a separator. -/
theorem not_mem_of_mem_splitOn {l part : List α} (h : part ∈ l.splitOn sep) : sep ∉ part := by
  induction l generalizing part with
  | nil =>
    rw [List.splitOn_nil, List.mem_singleton] at h
    exact h ▸ List.not_mem_nil
  | cons x rest ih =>
    rw [List.splitOn_cons_eq_if_modifyHead] at h
    obtain ⟨first, others, hparts⟩ := List.exists_cons_of_ne_nil (List.splitOn_ne_nil sep rest)
    rw [hparts] at h ih
    split at h
    · rcases List.mem_cons.mp h with rfl | hpart
      · exact List.not_mem_nil
      · exact ih hpart
    · rename_i hx
      rcases List.mem_cons.mp h with rfl | hpart
      · simp only [List.mem_cons, not_or]
        exact ⟨fun hsep => hx (beq_iff_eq.mpr hsep.symm), ih List.mem_cons_self⟩
      · exact ih (List.mem_cons_of_mem first hpart)

omit [DecidableEq α] in
/-- Appending one more part to a joined text: a separator stands in front unless the part
is the first. -/
theorem intercalate_snoc (sep part : List α) (parts : List (List α)) :
    sep.intercalate (parts ++ [part]) =
      if parts = [] then part else sep.intercalate parts ++ sep ++ part := by
  induction parts with
  | nil => simp only [List.nil_append, List.intercalate_singleton, ↓reduceIte]
  | cons first rest ih =>
    have hne : rest ++ [part] ≠ [] := by simp
    rw [List.cons_append, List.intercalate_cons_of_ne_nil hne, ih]
    by_cases hrest : rest = []
    · simp [hrest]
    · rw [List.intercalate_cons_of_ne_nil hrest]
      simp [hrest]

/-- A join holds the separators of its parts and one between any two of them. -/
theorem count_intercalate (sep : α) (parts : List (List α)) :
    ([sep].intercalate parts).count sep = parts.flatten.count sep + (parts.length - 1) := by
  induction parts with
  | nil => rfl
  | cons first rest ih =>
    by_cases hrest : rest = []
    · simp [hrest]
    · have hlength := List.length_pos_iff.mpr hrest
      rw [List.intercalate_cons_of_ne_nil hrest, List.count_append, List.count_append, ih,
        List.count_singleton_self, List.flatten_cons, List.count_append, List.length_cons]
      omega

/-- A text is joined of one list of so many parts, if these hold no separator. -/
theorem intercalate_inj {parts others : List (List α)}
    (h : [sep].intercalate parts = [sep].intercalate others)
    (hlength : parts.length = others.length) (hfree : ∀ part ∈ parts, sep ∉ part) :
    parts = others := by
  have hcount := congrArg (List.count sep) h
  rw [count_intercalate, count_intercalate, hlength, Nat.add_right_cancel_iff] at hcount
  have hnone : sep ∉ parts.flatten := by
    intro hmem
    obtain ⟨part, hpart, hsep⟩ := List.mem_flatten.mp hmem
    exact hfree part hpart hsep
  rw [List.count_eq_zero_of_not_mem hnone] at hcount
  have hothers : ∀ part ∈ others, sep ∉ part := by
    intro part hpart hsep
    exact List.count_eq_zero.mp hcount.symm (List.mem_flatten_of_mem hpart hsep)
  by_cases hparts : parts = []
  · rw [hparts, List.length_nil] at hlength
    rw [hparts, List.length_eq_zero_iff.mp hlength.symm]
  · have hne : others ≠ [] := by
      rintro rfl
      exact hparts (List.length_eq_zero_iff.mp hlength)
    rw [← List.splitOn_intercalate sep hfree hparts, h, List.splitOn_intercalate sep hothers hne]

end Separated
