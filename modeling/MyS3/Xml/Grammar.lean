import MyS3.Xml.Scan

/-!
# The grammar of `is_safe_to_read`

The documents that the scan accepts, given by productions over bytes. The scan's tags turn
a derivation into a well-nested sequence and back.
-/

namespace MyS3.Xml

open Nesting

/-- The tag with these bytes between its `<` and the first `>` behind it. -/
def tagOf (inner : Bytes) : Bytes := lt :: inner ++ [gt]

/-- `<?..>` or `<!..>`. -/
def IsDeclaration (inner : Bytes) : Prop := inner.head? = some 0x3F ∨ inner.head? = some 0x21

/-- `</..>`. -/
def IsClose (inner : Bytes) : Prop := inner.head? = some slash

/-- `<../>`. -/
def IsSelfClosing (inner : Bytes) : Prop :=
  ¬ IsDeclaration inner ∧ ¬ IsClose inner ∧ inner.getLast? = some slash

/-- `<..>`, and none of the others. -/
def IsOpen (inner : Bytes) : Prop :=
  ¬ IsDeclaration inner ∧ ¬ IsClose inner ∧ inner.getLast? ≠ some slash

/-- The documents: text, tags that stand alone and pairs of tags around a document, one
after another. -/
inductive Doc : Bytes → Prop where
  | empty : Doc []
  | text {body : Bytes} (h : lt ∉ body) : Doc body
  | declaration {inner : Bytes} (hend : gt ∉ inner) (h : IsDeclaration inner) :
      Doc (tagOf inner)
  | selfClosing {inner : Bytes} (hend : gt ∉ inner) (h : IsSelfClosing inner) :
      Doc (tagOf inner)
  | element {opening closing body : Bytes} (hend : gt ∉ opening) (hend' : gt ∉ closing)
      (h : IsOpen opening) (h' : IsClose closing) (hbody : Doc body) :
      Doc (tagOf opening ++ body ++ tagOf closing)
  | append {head rest : Bytes} (h : Doc head) (h' : Doc rest) : Doc (head ++ rest)

variable {inner body : Bytes} {ts us : List Bytes}

theorem tagOf_second {b : UInt8} (hb : b ≠ gt) :
    (tagOf inner)[1]? = some b ↔ inner.head? = some b := by
  cases inner with
  | nil => simp [tagOf, hb.symm]
  | cons c inner => simp [tagOf]

theorem tagOf_lastButOne :
    (tagOf inner)[(tagOf inner).length - 2]? = some slash ↔ inner.getLast? = some slash := by
  have hlength : (tagOf inner).length - 2 = inner.length := by simp [tagOf]
  rw [hlength, tagOf, List.getElem?_append_left (by simp)]
  cases inner with
  | nil => decide
  | cons b inner =>
    rw [List.length_cons, List.getElem?_cons_succ, List.getLast?_eq_getElem?]
    rfl

/-- The kinds of tags are those of the grammar. -/
theorem tagKind_tagOf : tagKind (tagOf inner) =
    if inner.head? = some 0x3F ∨ inner.head? = some 0x21 then .declaration
    else if inner.head? = some slash then .closing
    else if inner.getLast? = some slash then .selfClosing
    else .opening := by
  simp only [tagKind, tagOf_lastButOne, tagOf_second (b := 0x3F) (by decide),
    tagOf_second (b := 0x21) (by decide), tagOf_second (b := slash) (by decide)]

theorem kind_declaration (h : IsDeclaration inner) : tagKind (tagOf inner) = .declaration :=
  tagKind_tagOf.trans (if_pos h)

theorem kind_close (h : IsClose inner) : tagKind (tagOf inner) = .closing := by
  have hhead : inner.head? = some slash := h
  have hnot : ¬ IsDeclaration inner := by
    unfold IsDeclaration
    rw [hhead]
    decide
  exact tagKind_tagOf.trans ((if_neg hnot).trans (if_pos hhead))

theorem kind_selfClosing (h : IsSelfClosing inner) : tagKind (tagOf inner) = .selfClosing := by
  obtain ⟨hdeclaration, hclose, hlast⟩ := h
  exact tagKind_tagOf.trans
    ((if_neg hdeclaration).trans ((if_neg hclose).trans (if_pos hlast)))

theorem kind_open (h : IsOpen inner) : tagKind (tagOf inner) = .opening := by
  obtain ⟨hdeclaration, hclose, hlast⟩ := h
  exact tagKind_tagOf.trans
    ((if_neg hdeclaration).trans ((if_neg hclose).trans (if_neg hlast)))

theorem bracket_declaration (h : IsDeclaration inner) : bracket (tagOf inner) = .neutral := by
  simp only [bracket, kind_declaration h]

theorem bracket_close (h : IsClose inner) : bracket (tagOf inner) = .closing := by
  simp only [bracket, kind_close h]

theorem bracket_selfClosing (h : IsSelfClosing inner) : bracket (tagOf inner) = .neutral := by
  simp only [bracket, kind_selfClosing h]

theorem bracket_open (h : IsOpen inner) : bracket (tagOf inner) = .opening := by
  simp only [bracket, kind_open h]

/-- Every tag is of one of the four kinds. -/
theorem kind_cases (inner : Bytes) :
    IsDeclaration inner ∨ IsClose inner ∨ IsSelfClosing inner ∨ IsOpen inner := by
  by_cases hdeclaration : IsDeclaration inner
  · exact .inl hdeclaration
  · by_cases hclose : IsClose inner
    · exact .inr (.inl hclose)
    · by_cases hlast : inner.getLast? = some slash
      · exact .inr (.inr (.inl ⟨hdeclaration, hclose, hlast⟩))
      · exact .inr (.inr (.inr ⟨hdeclaration, hclose, hlast⟩))

theorem neutral_cases (h : bracket (tagOf inner) = .neutral) :
    IsDeclaration inner ∨ IsSelfClosing inner := by
  rcases kind_cases inner with hkind | hkind | hkind | hkind
  · exact .inl hkind
  · cases h.symm.trans (bracket_close hkind)
  · exact .inr hkind
  · cases h.symm.trans (bracket_open hkind)

theorem close_of_bracket (h : bracket (tagOf inner) = .closing) : IsClose inner := by
  rcases kind_cases inner with hkind | hkind | hkind | hkind
  · cases h.symm.trans (bracket_declaration hkind)
  · exact hkind
  · cases h.symm.trans (bracket_selfClosing hkind)
  · cases h.symm.trans (bracket_open hkind)

theorem open_of_bracket (h : bracket (tagOf inner) = .opening) : IsOpen inner := by
  rcases kind_cases inner with hkind | hkind | hkind | hkind
  · cases h.symm.trans (bracket_declaration hkind)
  · cases h.symm.trans (bracket_close hkind)
  · cases h.symm.trans (bracket_selfClosing hkind)
  · exact hkind

/-- The first tag of a document and what stands around it. -/
theorem exists_tag_of_tags_cons {t : Bytes} (h : tags body = some (t :: ts)) :
    ∃ before inner rest, body = before ++ tagOf inner ++ rest ∧ lt ∉ before ∧ gt ∉ inner ∧
      t = tagOf inner ∧ tags rest = some ts := by
  induction body with
  | nil => cases h
  | cons b body ih =>
    by_cases hb : b = lt
    · subst hb
      simp only [tags, tagsFrom, if_true, tagsFrom_some] at h
      split at h
      · cases h
      · rename_i hend
        obtain ⟨ts', hts, heq⟩ := Option.map_eq_some_iff.mp h
        cases heq
        have hsplit : body = body.takeWhile (· != gt) ++ gt :: (body.dropWhile (· != gt)).tail := by
          have hhead := List.head_dropWhile_not (· != gt) hend
          have hcons := List.cons_head_tail hend
          have hgt : (body.dropWhile (· != gt)).head hend = gt := by simpa using hhead
          rw [hgt] at hcons
          rw [hcons, List.takeWhile_append_dropWhile]
        refine ⟨[], body.takeWhile (· != gt), _, ?_, by simp, fun hmem => ?_, rfl, hts⟩
        · conv => lhs; rw [hsplit]
          simp [tagOf]
        · have hne := List.mem_takeWhile_imp hmem
          simp at hne
    · simp only [tags, tagsFrom, if_neg hb] at h
      obtain ⟨before, inner, rest, rfl, hbefore, hinner, ht, hrest⟩ := ih h
      refine ⟨b :: before, inner, rest, rfl, ?_, hinner, ht, hrest⟩
      simp only [List.mem_cons, not_or]
      exact ⟨Ne.symm hb, hbefore⟩

/-- A document without tags is text. -/
theorem lt_notMem_of_tags_nil (h : tags body = some []) : lt ∉ body := by
  induction body with
  | nil => simp
  | cons b body ih =>
    by_cases hb : b = lt
    · simp only [tags, tagsFrom, if_pos hb, tagsFrom_some] at h
      split at h
      · cases h
      · obtain ⟨_, _, hcons⟩ := Option.map_eq_some_iff.mp h
        cases hcons
    · simp only [tags, tagsFrom, if_neg hb] at h
      simp only [List.mem_cons, not_or]
      exact ⟨Ne.symm hb, ih h⟩

/-- A document can be cut between any two of its tags. -/
theorem exists_append_of_tags (h : tags body = some (ts ++ us)) :
    ∃ head rest, body = head ++ rest ∧ tags head = some ts ∧ tags rest = some us := by
  induction ts generalizing body with
  | nil => exact ⟨[], body, rfl, rfl, h⟩
  | cons t ts ih =>
    obtain ⟨before, inner, rest, rfl, hbefore, hinner, rfl, hrest⟩ :=
      exists_tag_of_tags_cons h
    obtain ⟨head, rest, rfl, hhead, hrest⟩ := ih hrest
    refine ⟨before ++ tagOf inner ++ head, rest, (List.append_assoc ..).symm, ?_, hrest⟩
    rw [List.append_assoc, tags_append (tags_text hbefore), tagOf,
      tags_append (tags_tag hinner), hhead]
    rfl

/-- The tags of a derived document nest. -/
theorem Doc.nested (h : Doc body) : ∃ ts, tags body = some ts ∧ Nested bracket ts := by
  induction h with
  | empty => exact ⟨[], rfl, .nil⟩
  | text h => exact ⟨[], tags_text h, .nil⟩
  | declaration hend h => exact ⟨_, tags_tag hend, .neutral (bracket_declaration h)⟩
  | selfClosing hend h => exact ⟨_, tags_tag hend, .neutral (bracket_selfClosing h)⟩
  | element hend hend' h h' _ ih =>
    rename_i opening closing body _
    obtain ⟨ts, hts, hnested⟩ := ih
    refine ⟨tagOf opening :: ts ++ [tagOf closing], ?_,
      .enclosed (bracket_open h) (bracket_close h') hnested⟩
    have hopening : tags (tagOf opening) = some [tagOf opening] := tags_tag hend
    have hclosing : tags (tagOf closing) = some [tagOf closing] := tags_tag hend'
    rw [List.append_assoc, tags_append hopening, tags_append hts, hclosing]
    rfl
  | append _ _ ih ih' =>
    obtain ⟨ts, hts, hnested⟩ := ih
    obtain ⟨us, hus, hnested'⟩ := ih'
    refine ⟨ts ++ us, ?_, .append hnested hnested'⟩
    rw [tags_append hts, hus]
    rfl

/-- A document whose tags nest is derived. -/
theorem doc_of_nested (h : Nested bracket ts) (htags : tags body = some ts) : Doc body := by
  induction h generalizing body with
  | nil => exact .text (lt_notMem_of_tags_nil htags)
  | neutral h =>
    obtain ⟨before, inner, rest, rfl, hbefore, hinner, rfl, hrest⟩ :=
      exists_tag_of_tags_cons htags
    have htag : Doc (tagOf inner) := by
      rcases neutral_cases h with hkind | hkind
      · exact .declaration hinner hkind
      · exact .selfClosing hinner hkind
    exact .append (.append (.text hbefore) htag) (.text (lt_notMem_of_tags_nil hrest))
  | enclosed ho hc _ ih =>
    obtain ⟨before, opening, rest, rfl, hbefore, hopening, rfl, hrest⟩ :=
      exists_tag_of_tags_cons htags
    obtain ⟨head, rest, rfl, hhead, hrest⟩ := exists_append_of_tags hrest
    obtain ⟨before', closing, rest, rfl, hbefore', hclosing, rfl, htext⟩ :=
      exists_tag_of_tags_cons hrest
    have hbody : Doc (head ++ before') := .append (ih hhead) (.text hbefore')
    have helement := Doc.element hopening hclosing (open_of_bracket ho)
      (close_of_bracket hc) hbody
    have hwhole := Doc.append (.append (.text hbefore) helement)
      (.text (lt_notMem_of_tags_nil htext))
    simpa only [List.append_assoc] using hwhole
  | append _ _ ih ih' =>
    obtain ⟨head, rest, rfl, hhead, hrest⟩ := exists_append_of_tags htags
    exact .append (ih hhead) (ih' hrest)

theorem fromUtf8_isSome_iff : (fromUtf8 body).isSome = true ↔ ∃ s : String, bytesOf s = body := by
  unfold fromUtf8 String.fromUTF8?
  constructor
  · intro h
    split at h
    · rename_i hvalid
      exact ⟨.ofByteArray ⟨body.toArray⟩ hvalid, rfl⟩
    · cases h
  · rintro ⟨s, rfl⟩
    have hvalid : ByteArray.IsValidUTF8 ⟨(bytesOf s).toArray⟩ := s.isValidUTF8
    rw [dif_pos hvalid]
    rfl

/-- A text of the grammar is accepted. -/
theorem isSafeToRead_of_doc (htext : ∃ s : String, bytesOf s = body) (hdoc : Doc body) :
    isSafeToRead body = true := by
  obtain ⟨ts, hts, hnested⟩ := hdoc.nested
  exact isSafeToRead_iff.mpr
    ⟨fromUtf8_isSome_iff.mpr htext, ts, hts, wellNested_iff_nested.mpr hnested⟩

/-- Every tag has at least its two brackets. -/
theorem two_le_length_of_tags (h : tags body = some ts) {t : Bytes} (ht : t ∈ ts) :
    2 ≤ t.length := by
  induction ts generalizing body with
  | nil => cases ht
  | cons first ts ih =>
    obtain ⟨-, inner, rest, -, -, -, rfl, hrest⟩ := exists_tag_of_tags_cons h
    rcases List.mem_cons.mp ht with rfl | ht
    · simp [tagOf]
    · exact ih hrest ht

/-- `is_safe_to_read` accepts exactly the UTF-8 documents of the grammar. On these, a reader
that counts the depth over the same tags stays at or above zero and ends there, and the
byte before the last of a tag exists. -/
theorem isSafeToRead_iff_doc (body : Bytes) :
    (isSafeToRead body = true ↔ (∃ s : String, bytesOf s = body) ∧ Doc body) ∧
    (isSafeToRead body = true → ∃ ts, tags body = some ts ∧
      (∀ read, read <+: ts → 0 ≤ net (read.map bracket)) ∧ net (ts.map bracket) = 0 ∧
      ∀ t ∈ ts, 2 ≤ t.length ∧ t.length - 2 < t.length) := by
  refine ⟨⟨fun h => ?_, fun ⟨hutf8, hdoc⟩ => ?_⟩, fun h => ?_⟩
  · obtain ⟨hutf8, ts, hts, hnested⟩ := isSafeToRead_iff.mp h
    exact ⟨fromUtf8_isSome_iff.mp hutf8, doc_of_nested (wellNested_iff_nested.mp hnested) hts⟩
  · exact isSafeToRead_of_doc hutf8 hdoc
  · obtain ⟨-, ts, hts, hnested⟩ := isSafeToRead_iff.mp h
    refine ⟨ts, hts, fun read hread => hnested.net_nonneg (hread.map bracket),
      hnested.net_eq_zero, fun t ht => ?_⟩
    have hlength := two_le_length_of_tags hts ht
    exact ⟨hlength, by omega⟩

end MyS3.Xml
