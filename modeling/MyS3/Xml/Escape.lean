import MyS3.Xml.Pieces

/-!
# Escaped text

How a text may be written in a document with the predefined entities. Decoding it in one
pass from left to right gives the text back.
-/

namespace MyS3.Xml

/-- `raw` is a way to write `text`: every character as itself or as its entity, and `&`
never as itself. -/
inductive Escapes : List Char → List Char → Prop where
  | nil : Escapes [] []
  | literal {c : Char} {raw text : List Char} (hc : c ≠ '&') (h : Escapes raw text) :
      Escapes (c :: raw) (c :: text)
  | entity {e : List Char × Char} {raw text : List Char} (he : e ∈ entities)
      (h : Escapes raw text) : Escapes (e.1 ++ raw) (e.2 :: text)

/-- A text that is written so consists of pieces, and none of them is a bare ampersand. -/
theorem exists_pieces_of_escapes {raw text : List Char} (h : Escapes raw text) :
    ∃ pieces : List Piece, .bare ∉ pieces ∧ piecesText pieces = raw ∧
      pieces.map Piece.meaning = text := by
  induction h with
  | nil => exact ⟨[], List.not_mem_nil, rfl, rfl⟩
  | literal hc h ih =>
    obtain ⟨pieces, hbare, rfl, rfl⟩ := ih
    refine ⟨.literal _ hc :: pieces, ?_, rfl, rfl⟩
    simpa only [List.mem_cons, reduceCtorEq, false_or] using hbare
  | entity he h ih =>
    obtain ⟨pieces, hbare, rfl, rfl⟩ := ih
    refine ⟨.entity _ he :: pieces, ?_, rfl, rfl⟩
    simpa only [List.mem_cons, reduceCtorEq, false_or] using hbare

/-- Without a bare ampersand nothing can be taken for an entity. -/
theorem bareStaysBare_of_not_mem {pieces : List Piece} (h : .bare ∉ pieces) :
    BareStaysBare pieces := by
  rintro before behind rfl
  exact absurd (List.mem_append_right before List.mem_cons_self) h

/-- Decoding undoes every escaping. -/
theorem unescapeChars_of_escapes {raw text : List Char} (h : Escapes raw text) :
    unescapeChars raw = text := by
  obtain ⟨pieces, hbare, rfl, rfl⟩ := exists_pieces_of_escapes h
  exact unescapeChars_piecesText (bareStaysBare_of_not_mem hbare)

theorem unescape_of_escapes {raw text : String} (h : Escapes raw.toList text.toList) :
    unescape raw = text := by
  rw [unescape, unescapeChars_of_escapes h, String.ofList_toList]

@[simp] theorem unescape_empty : unescape "" = "" := by
  rw [unescape, show "".toList = [] from rfl, unescapeChars_nil]

/-- Only no text decodes to none. -/
theorem unescape_eq_empty {raw : String} : unescape raw = "" ↔ raw = "" := by
  constructor
  · intro h
    have hnil : unescapeChars raw.toList = [] := by
      have hlist := congrArg String.toList h
      rwa [unescape, String.toList_ofList] at hlist
    cases hraw : raw.toList with
    | nil => exact String.toList_eq_nil_iff.mp hraw
    | cons c rest =>
      rw [hraw] at hnil
      rcases unescapeChars_step c rest with ⟨-, hstep⟩ | ⟨e, -, behind, -, hstep⟩
      · cases hstep.symm.trans hnil
      · cases hstep.symm.trans hnil
  · rintro rfl
    exact unescape_empty

/-- A character as a storage that escapes all it can writes it. -/
def escapeChar (c : Char) : List Char :=
  match entities.find? fun entity => entity.2 == c with
  | some entity => entity.1
  | none => [c]

/-- Every text can be written. -/
theorem escapes_flatMap (text : List Char) : Escapes (text.flatMap escapeChar) text := by
  induction text with
  | nil => exact .nil
  | cons c text ih =>
    rw [List.flatMap_cons, escapeChar]
    cases hfind : entities.find? fun entity => entity.2 == c with
    | some entity =>
      have hfound := List.find?_some hfind
      rw [← beq_iff_eq.mp hfound]
      exact .entity (List.mem_of_find?_eq_some hfind) ih
    | none =>
      have hamp : c ≠ '&' := by
        rintro rfl
        exact absurd hfind (by decide)
      exact .literal hamp ih

/-- `unescape` is one pass from left to right that never reads its own output: pieces are
read one by one, so that every escaping of a text reads as the text. -/
theorem unescape_is_one_pass :
    (∀ pieces : List Piece, BareStaysBare pieces →
      unescape (String.ofList (piecesText pieces)) =
        String.ofList (pieces.map Piece.meaning)) ∧
      ∀ raw text : String, Escapes raw.toList text.toList → unescape raw = text := by
  refine ⟨fun pieces hpieces => ?_, fun raw text h => unescape_of_escapes h⟩
  rw [unescape, String.toList_ofList, unescapeChars_piecesText hpieces]

/-- Stray ampersands around an entity, and a text that looks escaped, escaped. -/
theorem unescape_is_one_pass_nested :
    unescape "a&&lt;&lt" = "a&<&lt" ∧ unescape "&amp;lt;" = "&lt;" := by
  constructor
  · refine unescape_is_one_pass.1 [.literal 'a' (by decide), .bare,
      .entity ("&lt;".toList, '<') (by decide), .bare, .literal 'l' (by decide),
      .literal 't' (by decide)] ?_
    simp only [bareStaysBare_cons, reduceCtorEq, false_implies, true_and, bareStaysBare_nil,
      and_true, true_implies]
    decide
  · exact unescape_is_one_pass.2 "&amp;lt;" "&lt;" (.entity (e := ("&amp;".toList, '&'))
      (by decide) (.literal (by decide) (.literal (by decide) (.literal (by decide) .nil))))

end MyS3.Xml
