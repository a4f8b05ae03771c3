import MyS3.Xml.Text

/-!
# A text as a sequence of pieces

What a text that holds references consists of: characters that stand for themselves,
entities, and ampersands that begin none. The pass of `unescape` takes them one by one,
and never reads what it has put out.
-/

namespace MyS3.Xml

/-- A piece of a text as it stands in a document. -/
inductive Piece where
  | literal (c : Char) (hc : c ≠ '&')
  | entity (e : List Char × Char) (he : e ∈ entities)
  | bare

namespace Piece

/-- The characters of a piece. -/
def raw : Piece → List Char
  | literal c _ => [c]
  | entity e _ => e.1
  | bare => ['&']

/-- What a piece stands for. -/
def meaning : Piece → Char
  | literal c _ => c
  | entity e _ => e.2
  | bare => '&'

end Piece

/-- The pieces, one behind the other. -/
def piecesText (pieces : List Piece) : List Char := pieces.flatMap Piece.raw

/-- No bare ampersand begins an entity, whatever pieces that would take. -/
def BareStaysBare (pieces : List Piece) : Prop :=
  ∀ before behind, pieces = before ++ .bare :: behind →
    ∀ e ∈ entities, ¬e.1 <+: '&' :: piecesText behind

theorem bareStaysBare_nil : BareStaysBare [] := by
  intro before behind h
  cases before <;> cases h

/-- Whether an ampersand stays bare depends on what stands behind it alone. -/
theorem bareStaysBare_cons {piece : Piece} {pieces : List Piece} :
    BareStaysBare (piece :: pieces) ↔
      (piece = .bare → ∀ e ∈ entities, ¬e.1 <+: '&' :: piecesText pieces) ∧
        BareStaysBare pieces := by
  constructor
  · intro h
    refine ⟨fun hpiece => h [] pieces (by rw [hpiece, List.nil_append]), ?_⟩
    intro before behind heq
    exact h (piece :: before) behind (by rw [heq, List.cons_append])
  · rintro ⟨hpiece, hpieces⟩ before behind heq
    cases before with
    | nil =>
      cases heq
      exact hpiece rfl
    | cons first before =>
      cases heq
      exact hpieces before behind rfl

/-- An entity at the front is the one that is matched. -/
theorem matchEntity_append {e : List Char × Char} (he : e ∈ entities) (raw : List Char) :
    matchEntity (e.1 ++ raw) = some (e.2, raw) := by
  simp only [entities, List.mem_cons, List.not_mem_nil, or_false] at he
  rcases he with rfl | rfl | rfl | rfl | rfl <;> rfl

/-- Nothing is matched exactly where no entity begins. -/
theorem matchEntity_eq_none {tail : List Char} :
    matchEntity tail = none ↔ ∀ e ∈ entities, ¬e.1 <+: tail := by
  simp only [matchEntity, Option.map_eq_none_iff, List.find?_eq_none, List.isPrefixOf_iff_prefix]

/-- Every entity begins with an ampersand. -/
theorem exists_cons_of_mem_entities {e : List Char × Char} (he : e ∈ entities) :
    ∃ name, e.1 = '&' :: name := by
  simp only [entities, List.mem_cons, List.not_mem_nil, or_false] at he
  rcases he with rfl | rfl | rfl | rfl | rfl <;> exact ⟨_, rfl⟩

/-- Without an ampersand there is none. -/
theorem not_isInfix_of_not_mem {chars : List Char} (h : '&' ∉ chars) :
    ∀ e ∈ entities, ¬e.1 <:+: chars := by
  intro e he hmem
  obtain ⟨name, hname⟩ := exists_cons_of_mem_entities he
  exact h (hmem.subset (hname ▸ List.mem_cons_self))

theorem unescapeChars_nil : unescapeChars [] = [] := by rw [unescapeChars]

/-- A character other than `&` is passed on. -/
theorem unescapeChars_literal {c : Char} (hc : c ≠ '&') (rest : List Char) :
    unescapeChars (c :: rest) = c :: unescapeChars rest := by
  rw [unescapeChars, if_neg hc]

/-- An entity becomes its character, and the pass goes on behind it. -/
theorem unescapeChars_entity {e : List Char × Char} (he : e ∈ entities) (rest : List Char) :
    unescapeChars (e.1 ++ rest) = e.2 :: unescapeChars rest := by
  obtain ⟨name, hname⟩ := exists_cons_of_mem_entities he
  have hmatch := matchEntity_append he rest
  rw [hname, List.cons_append] at hmatch ⊢
  rw [unescapeChars, if_pos rfl]
  split
  · rename_i hsome
    cases hmatch.symm.trans hsome
    rfl
  · rename_i hnone
    cases hmatch.symm.trans hnone

/-- An ampersand that begins no entity is kept, and the pass goes on right behind it. -/
theorem unescapeChars_bare {rest : List Char} (h : ∀ e ∈ entities, ¬e.1 <+: '&' :: rest) :
    unescapeChars ('&' :: rest) = '&' :: unescapeChars rest := by
  have hmatch := matchEntity_eq_none.mpr h
  rw [unescapeChars, if_pos rfl]
  split
  · rename_i hsome
    cases hmatch.symm.trans hsome
  · rfl

/-- What the pass does in front of a character: it keeps it, or takes a whole entity. -/
theorem unescapeChars_step (c : Char) (rest : List Char) :
    (∀ e ∈ entities, ¬e.1 <+: c :: rest) ∧ unescapeChars (c :: rest) = c :: unescapeChars rest ∨
      ∃ e ∈ entities, ∃ behind, e.1 ++ behind = c :: rest ∧
        unescapeChars (c :: rest) = e.2 :: unescapeChars behind := by
  by_cases hentity : ∃ e ∈ entities, e.1 <+: c :: rest
  · obtain ⟨e, he, behind, hbehind⟩ := hentity
    exact .inr ⟨e, he, behind, hbehind, hbehind ▸ unescapeChars_entity he behind⟩
  · have hnone : ∀ e ∈ entities, ¬e.1 <+: c :: rest := fun e he h => hentity ⟨e, he, h⟩
    refine .inl ⟨hnone, ?_⟩
    by_cases hc : c = '&'
    · subst hc
      exact unescapeChars_bare hnone
    · exact unescapeChars_literal hc rest

/-- An entity is longer than its character. -/
theorem one_lt_length_of_mem_entities {e : List Char × Char} (he : e ∈ entities) :
    1 < e.1.length := by
  simp only [entities, List.mem_cons, List.not_mem_nil, or_false] at he
  rcases he with rfl | rfl | rfl | rfl | rfl <;> decide

/-- Decoding makes nothing longer. -/
theorem length_unescapeChars_le (chars : List Char) :
    (unescapeChars chars).length ≤ chars.length := by
  induction hn : chars.length using Nat.strongRecOn generalizing chars with
  | ind n ih =>
    cases chars with
    | nil => simp only [unescapeChars_nil, List.length_nil, Nat.zero_le]
    | cons c rest =>
      rw [List.length_cons] at hn
      rcases unescapeChars_step c rest with ⟨-, hstep⟩ | ⟨e, he, behind, hbehind, hstep⟩
      · have hrest := ih rest.length (by omega) rest rfl
        rw [hstep, List.length_cons]
        omega
      · have hlong := one_lt_length_of_mem_entities he
        have hlength := congrArg List.length hbehind
        rw [List.length_append, List.length_cons] at hlength
        have hrest := ih behind.length (by omega) behind rfl
        rw [hstep, List.length_cons]
        omega

/-- Decoding changes nothing exactly where no entity occurs. -/
theorem unescapeChars_eq_self_iff {chars : List Char} :
    unescapeChars chars = chars ↔ ∀ e ∈ entities, ¬e.1 <:+: chars := by
  induction chars with
  | nil =>
    simp only [unescapeChars_nil, List.infix_nil, true_iff]
    decide
  | cons c rest ih =>
    simp only [List.infix_cons_iff, not_or]
    rcases unescapeChars_step c rest with ⟨hnone, hstep⟩ | ⟨e, he, behind, hbehind, hstep⟩
    · rw [hstep, List.cons_inj_right, ih]
      exact ⟨fun h e he => ⟨hnone e he, h e he⟩, fun h e he => (h e he).2⟩
    · constructor
      · intro heq
        have hlong := one_lt_length_of_mem_entities he
        have hlength := congrArg List.length (hstep.symm.trans (heq.trans hbehind.symm))
        have hle := length_unescapeChars_le behind
        rw [List.length_cons, List.length_append] at hlength
        omega
      · intro h
        exact absurd ⟨behind, hbehind⟩ (h e he).1

/-- Every piece is read for what it stands for. -/
theorem unescapeChars_piecesText {pieces : List Piece} (h : BareStaysBare pieces) :
    unescapeChars (piecesText pieces) = pieces.map Piece.meaning := by
  induction pieces with
  | nil => exact unescapeChars_nil
  | cons piece pieces ih =>
    obtain ⟨hpiece, hpieces⟩ := bareStaysBare_cons.mp h
    rw [piecesText, List.flatMap_cons, List.map_cons, ← ih hpieces]
    cases piece with
    | literal c hc => exact unescapeChars_literal hc _
    | entity e he => exact unescapeChars_entity he _
    | bare => exact unescapeChars_bare (hpiece rfl)

end MyS3.Xml
