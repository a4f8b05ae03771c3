import Mathlib.Data.List.Infix
import MyS3.Core.Separated

/-!
# Texts cut at a word

Where a text is cut at a word by `List.dropInfix?`. A word that ends in a delimiter can end
only where the delimiter stands, so a text is searched one delimited piece at a time.
-/

namespace Separated

variable {α : Type} [DecidableEq α] {delim : α} {stem piece rest : List α}

/-- What stands behind the first occurrence of a word, up to the next one. -/
def partBehind (word text : List α) : Option (List α) :=
  (text.dropInfix? word).map fun cut =>
    ((cut.2.dropInfix? word).map Prod.fst).getD cut.2

omit [DecidableEq α] in
/-- Behind a piece without the delimiter, an occurrence of the word begins behind the
delimiter, unless the piece itself ends in the stem. -/
theorem begins_behind {before behind : List α} (hstem : delim ∉ stem) (hpiece : delim ∉ piece)
    (hends : ¬ stem <:+ piece)
    (h : piece ++ delim :: rest = before ++ (stem ++ [delim]) ++ behind) :
    ∃ between, before = piece ++ delim :: between ∧
      rest = between ++ (stem ++ [delim]) ++ behind := by
  have h' : (before ++ stem) ++ delim :: behind = piece ++ delim :: rest := by simp [h]
  rcases List.append_eq_append_iff.mp h' with ⟨gap, hgap, hbehind⟩ | ⟨gap, hgap, hrest⟩
  · cases gap with
    | nil =>
      rw [List.append_nil] at hgap
      exact absurd ⟨before, hgap.symm⟩ hends
    | cons g gap =>
      rw [List.cons_append, List.cons.injEq] at hbehind
      refine absurd ?_ hpiece
      rw [hgap, ← hbehind.1]
      simp
  · cases gap with
    | nil =>
      rw [List.append_nil] at hgap
      exact absurd ⟨before, hgap⟩ hends
    | cons g gap =>
      rw [List.cons_append, List.cons.injEq] at hrest
      obtain ⟨rfl, hrest⟩ := hrest
      have hcut : before ++ stem = (piece ++ [delim]) ++ gap := by simp [hgap]
      rcases List.append_eq_append_iff.mp hcut with ⟨extra, hextra, hlong⟩ | ⟨extra, hextra, hshort⟩
      · rcases List.eq_nil_or_concat extra with rfl | ⟨front, last, rfl⟩
        · refine ⟨[], ?_, ?_⟩
          · simpa using hextra.symm
          · simp only [List.nil_append] at hlong ⊢
            simp [hlong, hrest]
        · rw [List.concat_eq_append, ← List.append_assoc, List.append_singleton_inj] at hextra
          refine absurd ?_ hstem
          rw [hlong, hextra.2]
          simp
      · refine ⟨extra, by simpa using hextra, ?_⟩
        simp [hrest, hshort]

/-- A piece that does not end in the stem is passed over. -/
theorem dropInfix?_behind {cut : List α × List α} (hstem : delim ∉ stem) (hpiece : delim ∉ piece)
    (hends : ¬ stem <:+ piece) (h : rest.dropInfix? (stem ++ [delim]) = some cut) :
    (piece ++ delim :: rest).dropInfix? (stem ++ [delim]) =
      some (piece ++ delim :: cut.1, cut.2) := by
  obtain ⟨⟨word, hrest, hword⟩, hfirst⟩ := List.dropInfix?_eq_some_iff.mp h
  rw [beq_iff_eq] at hword
  subst hword
  apply List.dropInfix?_eq_some_iff.mpr
  constructor
  · exact ⟨_, by simp [hrest], BEq.rfl⟩
  · intro before word behind htext hword
    rw [beq_iff_eq] at hword
    subst hword
    obtain ⟨between, rfl, hbetween⟩ := begins_behind hstem hpiece hends htext
    have hlate := hfirst between _ behind hbetween BEq.rfl
    simp only [List.length_append, List.length_cons, ge_iff_le] at hlate ⊢
    omega

/-- A word is found behind a text without its delimiter. -/
theorem dropInfix?_word (hstem : delim ∉ stem) (hpiece : delim ∉ piece) :
    (piece ++ stem ++ delim :: rest).dropInfix? (stem ++ [delim]) = some (piece, rest) := by
  apply List.dropInfix?_eq_some_iff.mpr
  constructor
  · exact ⟨_, by simp, BEq.rfl⟩
  · intro before word behind htext hword
    rw [beq_iff_eq] at hword
    subst hword
    have hfree : delim ∉ piece ++ stem := by
      rw [List.mem_append]
      exact not_or.mpr ⟨hpiece, hstem⟩
    have htext' : piece ++ stem ++ delim :: rest = (before ++ stem) ++ delim :: behind := by
      simpa using htext
    rcases List.append_eq_append_iff.mp htext' with ⟨gap, hgap, -⟩ | ⟨gap, hgap, hbehind⟩
    · have hlength := congrArg List.length hgap
      simp only [List.length_append] at hlength
      omega
    · cases gap with
      | nil =>
        have hlength := congrArg List.length hgap
        simp only [List.length_append, List.length_nil] at hlength
        omega
      | cons g gap =>
        rw [List.cons_append, List.cons.injEq] at hbehind
        refine absurd ?_ hfree
        rw [hgap, ← hbehind.1]
        simp

omit [DecidableEq α] in
/-- Without the delimiter there is no word. -/
theorem not_infix_of_not_mem {text : List α} (h : delim ∉ text) :
    ¬ stem ++ [delim] <:+: text := by
  intro hinfix
  apply h
  apply hinfix.subset
  simp

omit [DecidableEq α] in
/-- A word that is not behind a piece is not in the piece either. -/
theorem not_infix_behind (hstem : delim ∉ stem) (hpiece : delim ∉ piece)
    (hends : ¬ stem <:+ piece) (h : ¬ stem ++ [delim] <:+: rest) :
    ¬ stem ++ [delim] <:+: piece ++ delim :: rest := by
  rintro ⟨before, behind, htext⟩
  obtain ⟨between, -, hrest⟩ := begins_behind hstem hpiece hends htext.symm
  exact h ⟨between, behind, hrest.symm⟩

/-- A text is cut only where the word is. -/
theorem dropInfix?_eq_none {word text : List α} (h : ¬ word <:+: text) :
    text.dropInfix? word = none := by
  cases hcut : text.dropInfix? word with
  | none => rfl
  | some cut =>
    obtain ⟨⟨found, htext, hfound⟩, -⟩ := List.dropInfix?_eq_some_iff.mp hcut
    rw [beq_iff_eq] at hfound
    subst hfound
    exact absurd ⟨cut.1, cut.2, htext.symm⟩ h

/-- The part behind the only occurrence of a word is all that follows it. -/
theorem partBehind_eq {word text front : List α}
    (hcut : text.dropInfix? word = some (front, rest)) (honce : ¬ word <:+: rest) :
    partBehind word text = some rest := by
  simp only [partBehind, hcut, Option.map_some, dropInfix?_eq_none honce, Option.map_none,
    Option.getD_none]

end Separated
