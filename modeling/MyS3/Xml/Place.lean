import MyS3.Xml.Escape
import MyS3.Xml.Tree
import MyS3.Xml.Walker

/-!
# Text by position

`read_node_text` cuts the text of an element out by the positions of two tags: the one
that begins the element and the one that follows it. What it returns is exactly the text
in between, which is the element's own unless the first tag has closed itself.
-/

namespace MyS3.Xml

/-- A tag in its place: the document around it. -/
structure Placed where
  before : Bytes
  raw : Bytes
  behind : Bytes
  deriving DecidableEq

/-- The tags of a document that has been read up to here, and perhaps into a tag. -/
def placedFrom (read : Bytes) : Option Bytes → Bytes → List Placed
  | _, [] => []
  | none, b :: rest =>
    if b = lt then placedFrom read (some [b]) rest else placedFrom (read ++ [b]) none rest
  | some tag, b :: rest =>
    if b = gt then ⟨read, tag ++ [b], rest⟩ :: placedFrom (read ++ (tag ++ [b])) none rest
    else placedFrom read (some (tag ++ [b])) rest

/-- The tags of a document, each in its place. -/
abbrev placed (body : Bytes) : List Placed := placedFrom [] none body

namespace Placed

/-- The name in a tag. -/
def name (tag : Placed) : Bytes := tag.raw.tail.takeWhile isNameByte

/-- The tags behind this one. -/
def ahead (tag : Placed) : List Placed := placedFrom (tag.before ++ tag.raw) none tag.behind

/-- The text up to the next tag. -/
def textBehind (tag : Placed) : Bytes := tag.behind.takeWhile (· != lt)

end Placed

/-- The first element whose names from the root down are the path. -/
def resolve (path : List Bytes) (inside : List Bytes) : List Placed → Option Placed
  | [] => none
  | tag :: rest =>
    match tagKind tag.raw with
    | .declaration => resolve path inside rest
    | .closing => resolve path inside.dropLast rest
    | .selfClosing =>
      if inside ++ [tag.name] = path then some tag else resolve path inside rest
    | .opening =>
      if inside ++ [tag.name] = path then some tag
      else resolve path (inside ++ [tag.name]) rest

/-- The element that a path such as `Error/Code` names. -/
def element (body : Bytes) (xPath : String) : Option Placed :=
  resolve ((bytesOf xPath).splitOn slash) [] (placed body)

/-- The positions that are handed out are those of the tag. -/
def XmlTagInfo.StandsAt (info : XmlTagInfo) (tag : Placed) : Prop :=
  info.startPos = tag.before.length ∧ info.endPos + 1 = tag.before.length + tag.raw.length

/-- On a document that is accepted, the reader finds the element that a path names, and
goes on to the tag that follows. -/
def MyXmlReader.ReadsInPlace (R : MyXmlReader) : Prop :=
  ∀ {body xPath tag}, isSafeToRead body = true → element body xPath = some tag →
    ∃ reader info reader', R.fromSlice body = .ok reader ∧
      R.findTheOpenNode reader xPath = .ok (some info, reader') ∧ info.StandsAt tag ∧
      match tag.ahead with
      | [] => ∀ info' reader'', R.readNextTag reader' ≠ .ok (some info', reader'')
      | next :: _ => ∃ info' reader'', R.readNextTag reader' = .ok (some info', reader'') ∧
          info'.StandsAt next

section Places

variable {read rest : Bytes} {begun : Option Bytes} {tag : Placed}

/-- What a tag of a document has around it makes up the document, and whatever is whole as
a document is whole behind the tag. -/
theorem mem_placedFrom (h : tag ∈ placedFrom read begun rest) :
    read ++ (begun.getD [] ++ rest) = tag.before ++ (tag.raw ++ tag.behind) ∧
      (∃ inner, tag.raw = inner ++ [gt]) ∧
      ∀ ts, tagsFrom begun rest = some ts → ∃ ts', tags tag.behind = some ts' := by
  induction rest generalizing read begun with
  | nil => cases begun <;> cases h
  | cons b rest ih =>
    cases begun with
    | none =>
      rw [placedFrom] at h
      simp only [tagsFrom]
      split at h
      · rename_i hb
        obtain ⟨heq, hraw, hwhole⟩ := ih h
        rw [if_pos hb]
        exact ⟨heq, hraw, hwhole⟩
      · rename_i hb
        obtain ⟨heq, hraw, hwhole⟩ := ih h
        rw [if_neg hb]
        refine ⟨?_, hraw, hwhole⟩
        rw [← heq]
        simp only [Option.getD_none, List.nil_append, List.append_assoc, List.singleton_append]
    | some start =>
      rw [placedFrom] at h
      simp only [tagsFrom]
      split at h
      · rename_i hb
        rw [if_pos hb]
        rcases List.mem_cons.mp h with rfl | hrest
        · refine ⟨?_, ⟨start, by rw [hb]⟩, fun ts hts => ?_⟩
          · simp only [Option.getD_some, List.append_assoc, List.singleton_append]
          · obtain ⟨ts', hts', -⟩ := Option.map_eq_some_iff.mp hts
            exact ⟨ts', hts'⟩
        · obtain ⟨heq, hraw, hwhole⟩ := ih hrest
          refine ⟨?_, hraw, fun ts hts => ?_⟩
          · rw [← heq]
            simp only [Option.getD_some, Option.getD_none, List.nil_append, List.append_assoc,
              List.singleton_append]
          · obtain ⟨ts', hts', -⟩ := Option.map_eq_some_iff.mp hts
            exact hwhole ts' hts'
      · rename_i hb
        obtain ⟨heq, hraw, hwhole⟩ := ih h
        rw [if_neg hb]
        refine ⟨?_, hraw, hwhole⟩
        rw [← heq]
        simp only [Option.getD_some, List.append_assoc, List.singleton_append]

/-- A tag that was begun is the first, where it ends. -/
private theorem placedFrom_some (read : Bytes) {start : Bytes} {ts : List Bytes}
    (h : tagsFrom (some start) rest = some ts) :
    ∃ next others, placedFrom read (some start) rest = next :: others ∧ next.before = read := by
  induction rest generalizing start with
  | nil => cases h
  | cons b rest ih =>
    rw [tagsFrom] at h
    rw [placedFrom]
    split at h
    · rename_i hb
      exact ⟨_, _, if_pos hb, rfl⟩
    · rename_i hb
      rw [if_neg hb]
      exact ih h

/-- The first tag stands behind the text in front of it. -/
theorem placedFrom_cases (read : Bytes) {ts : List Bytes} (h : tags rest = some ts) :
    lt ∉ rest ∧ placedFrom read none rest = [] ∨
      lt ∈ rest ∧ ∃ next others, placedFrom read none rest = next :: others ∧
        next.before = read ++ rest.takeWhile (· != lt) := by
  induction rest generalizing read with
  | nil => exact .inl ⟨List.not_mem_nil, rfl⟩
  | cons b rest ih =>
    rw [tags, tagsFrom] at h
    rw [placedFrom]
    by_cases hb : b = lt
    · rw [if_pos hb] at h ⊢
      obtain ⟨next, others, hnext, hbefore⟩ := placedFrom_some read h
      refine .inr ⟨hb ▸ List.mem_cons_self, next, others, hnext, ?_⟩
      rw [List.takeWhile_cons_of_neg (by simp [hb]), List.append_nil, hbefore]
    · rw [if_neg hb] at h ⊢
      rw [List.takeWhile_cons_of_pos (by simp [hb])]
      rcases ih (read ++ [b]) h with ⟨hnone, hnil⟩ | ⟨hsome, next, others, hnext, hbefore⟩
      · refine .inl ⟨?_, hnil⟩
        simp only [List.mem_cons, not_or]
        exact ⟨fun hlt => hb hlt.symm, hnone⟩
      · refine .inr ⟨List.mem_cons_of_mem b hsome, next, others, hnext, ?_⟩
        rw [hbefore, List.append_assoc, List.singleton_append]

/-- A tag at the front of what is ahead. -/
theorem placedFrom_tagOf {inner : Bytes} (hinner : gt ∉ inner) :
    placedFrom read none (tagOf inner ++ rest) =
      ⟨read, tagOf inner, rest⟩ :: placedFrom (read ++ tagOf inner) none rest := by
  have hbegun : ∀ start, placedFrom read (some start) (inner ++ gt :: rest) =
      ⟨read, start ++ inner ++ [gt], rest⟩ ::
        placedFrom (read ++ (start ++ inner ++ [gt])) none rest := by
    induction inner with
    | nil =>
      intro start
      rw [List.nil_append, placedFrom, if_pos rfl, List.append_nil]
    | cons b inner ih =>
      intro start
      simp only [List.mem_cons, not_or] at hinner
      have hb : b ≠ gt := fun hgt => hinner.1 hgt.symm
      rw [List.cons_append, placedFrom, if_neg hb, ih hinner.2]
      simp only [List.append_assoc, List.singleton_append]
  rw [tagOf, List.append_assoc, List.singleton_append, List.cons_append, placedFrom, if_pos rfl,
    hbegun]
  rfl

/-- An element that is opened is the one that is looked for, or it is gone into. -/
theorem resolve_opening {path inside : List Bytes} {others : List Placed}
    (h : tagKind tag.raw = .opening) :
    resolve path inside (tag :: others) =
      if inside ++ [tag.name] = path then some tag
      else resolve path (inside ++ [tag.name]) others := by
  simp only [resolve, h]

/-- What a path names is one of the tags. -/
theorem mem_of_resolve {path inside : List Bytes} {all : List Placed}
    (h : resolve path inside all = some tag) : tag ∈ all := by
  induction all generalizing inside with
  | nil => cases h
  | cons first all ih =>
    rw [resolve] at h
    split at h
    · exact List.mem_cons_of_mem first (ih h)
    · exact List.mem_cons_of_mem first (ih h)
    · split at h
      · cases h
        exact List.mem_cons_self
      · exact List.mem_cons_of_mem first (ih h)
    · split at h
      · cases h
        exact List.mem_cons_self
      · exact List.mem_cons_of_mem first (ih h)

end Places

section Read

variable {R : MyXmlReader} {body : Bytes} {xPath : String} {tag : Placed}

/-- The text up to the next tag, and what begins with that tag. -/
theorem Placed.behind_eq (tag : Placed) :
    tag.behind = tag.textBehind ++ tag.behind.dropWhile (· != lt) :=
  List.takeWhile_append_dropWhile.symm

/-- The text behind an element of a document that is accepted is a text. -/
theorem isText_textBehind (hsafe : isSafeToRead body = true)
    (htag : element body xPath = some tag) : IsText tag.textBehind := by
  obtain ⟨heq, ⟨inner, hraw⟩, -⟩ := mem_placedFrom (mem_of_resolve htag)
  obtain ⟨text, htext⟩ := Option.isSome_iff_exists.mp (isSafeToRead_iff.mp hsafe).1
  have hbody : IsText (tag.before ++ inner ++ gt :: tag.behind) := by
    refine ⟨text, (bytesOf_of_fromUtf8 htext).trans ?_⟩
    simpa only [Option.getD_none, List.nil_append, hraw, List.append_assoc,
      List.singleton_append] using heq
  have hbehind := (hbody.split (by decide)).2
  rw [tag.behind_eq] at hbehind
  cases hrest : tag.behind.dropWhile (· != lt) with
  | nil => rwa [hrest, List.append_nil] at hbehind
  | cons b rest =>
    have hb : b = lt := by
      have hhead := List.head_dropWhile_not (· != lt) (l := tag.behind) (by rw [hrest]; simp)
      simpa [hrest] using hhead
    rw [hrest, hb] at hbehind
    exact (hbehind.split (by decide)).1

/-- Two tags in their places leave the text in between. -/
private theorem textBetween_standsAt {info info' : XmlTagInfo} {next : Placed}
    (hbody : body = tag.before ++ (tag.raw ++ tag.behind)) (hinfo : info.StandsAt tag)
    (hinfo' : info'.StandsAt next)
    (hnext : next.before = tag.before ++ tag.raw ++ tag.textBehind) :
    textBetween body info info' = (fromUtf8 tag.textBehind).map unescape := by
  have hstart : info.endPos + 1 = (tag.before ++ tag.raw).length := by
    rw [hinfo.2, List.length_append]
  have hstop : info'.startPos = (tag.before ++ tag.raw ++ tag.textBehind).length := by
    rw [hinfo'.1, hnext]
  have hparts : body =
      tag.before ++ tag.raw ++ tag.textBehind ++ tag.behind.dropWhile (· != lt) := by
    rw [List.append_assoc _ tag.textBehind, ← tag.behind_eq, List.append_assoc]
    exact hbody
  have horder : ¬(info'.startPos < info.endPos + 1 ∨ body.length < info'.startPos) := by
    rw [hstart, hstop, hparts]
    simp only [List.length_append]
    omega
  have hslice : (body.take info'.startPos).drop (info.endPos + 1) = tag.textBehind := by
    rw [hstart, hstop, hparts, List.take_left, List.drop_left]
  rw [textBetween]
  simp only [if_neg horder, hslice]

/-- What `read_node_text` returns: the text up to the next tag, if there is one. -/
theorem readNodeText_eq (hR : R.ReadsInPlace) (hsafe : isSafeToRead body = true)
    (htag : element body xPath = some tag) :
    readNodeText R body xPath =
      if lt ∈ tag.behind then (fromUtf8 tag.textBehind).map unescape else none := by
  obtain ⟨heq, -, hwhole⟩ := mem_placedFrom (mem_of_resolve htag)
  obtain ⟨-, ts, hts, -⟩ := isSafeToRead_iff.mp hsafe
  obtain ⟨ts', hts'⟩ := hwhole ts hts
  obtain ⟨reader, info, reader', hslice, hfind, hinfo, hnext⟩ := hR hsafe htag
  rw [readNodeText, if_pos hsafe]
  simp only [hslice, hfind]
  rcases placedFrom_cases (tag.before ++ tag.raw) hts' with
    ⟨hnone, hahead⟩ | ⟨hsome, next, others, hahead, hbefore⟩
  · rw [Placed.ahead, hahead] at hnext
    rw [if_neg hnone]
    split
    · rename_i hread
      exact absurd hread (hnext _ _)
    · rfl
  · rw [Placed.ahead, hahead] at hnext
    obtain ⟨info', reader'', hread, hinfo'⟩ := hnext
    rw [if_pos hsome, hread]
    exact textBetween_standsAt heq hinfo hinfo' hbefore

/-- Nothing stands in front of the next tag exactly where it follows at once. -/
theorem Placed.textBehind_eq_nil (h : lt ∈ tag.behind) :
    tag.textBehind = [] ↔ tag.behind.head? = some lt := by
  rw [textBehind]
  cases hbehind : tag.behind with
  | nil =>
    rw [hbehind] at h
    cases h
  | cons b rest =>
    by_cases hb : b = lt <;> simp [hb]

/-- So a tag behind the element is what makes a text of it. -/
theorem readNodeText_cases (hR : R.ReadsInPlace) (hsafe : isSafeToRead body = true)
    (htag : element body xPath = some tag) :
    lt ∉ tag.behind ∧ readNodeText R body xPath = none ∨
      lt ∈ tag.behind ∧ ∃ text, bytesOf text = tag.textBehind ∧
        readNodeText R body xPath = some (unescape text) := by
  rw [readNodeText_eq hR hsafe htag]
  by_cases hlt : lt ∈ tag.behind
  · obtain ⟨text, htext⟩ := isText_textBehind hsafe htag
    refine .inr ⟨hlt, text, htext, ?_⟩
    rw [if_pos hlt, ← htext, fromUtf8_bytesOf, Option.map_some]
  · exact .inl ⟨hlt, if_neg hlt⟩

/-- The text of an element: none in a self-closing one, else what stands between its tag
and the next, which is inside of it or closes it. -/
def IsTextOf (tag : Placed) (text : String) : Prop :=
  if tagKind tag.raw = .selfClosing then text = ""
  else (fromUtf8 tag.textBehind).map unescape = some text

/-- `read_node_text` returns nothing from outside the element exactly where the element is
not self-closing, or no tag stands behind it, or one stands right behind it. -/
theorem readNodeText_inside_iff (hR : R.ReadsInPlace) (hsafe : isSafeToRead body = true)
    (htag : element body xPath = some tag) :
    (∀ text, readNodeText R body xPath = some text → IsTextOf tag text) ↔
      tagKind tag.raw ≠ .selfClosing ∨ lt ∉ tag.behind ∨ tag.behind.head? = some lt := by
  rcases readNodeText_cases hR hsafe htag with ⟨hnone, hread⟩ | ⟨hlt, text, htext, hread⟩
  · simp only [hread, reduceCtorEq, false_implies, implies_true, hnone, not_false_iff, true_or,
      or_true]
  · simp only [hread, Option.some.injEq, forall_eq', hlt, not_true, false_or]
    rw [← Placed.textBehind_eq_nil hlt, ← htext, IsTextOf]
    by_cases hself : tagKind tag.raw = .selfClosing
    · have hempty : bytesOf text = [] ↔ text = "" := by
        constructor
        · exact fun h => bytesOf_injective (h.trans (by decide))
        · rintro rfl
          decide
      simp only [hself, if_true, unescape_eq_empty, ne_eq, not_true, false_or, hempty]
    · simp only [hself, if_false, ← htext, fromUtf8_bytesOf, Option.map_some, ne_eq,
        not_false_iff, true_or]

end Read

/-- What is handed out for a tag. -/
def Placed.info (tag : Placed) : XmlTagInfo :=
  ⟨(fromUtf8 tag.name).getD "", tag.raw, tag.before.length,
    tag.before.length + tag.raw.length - 1, 0⟩

/-- A reader that goes from tag to tag. -/
def placeReader : MyXmlReader where
  State := List Placed
  fromSlice body := .ok (placed body)
  findTheOpenNode ahead xPath :=
    match resolve ((bytesOf xPath).splitOn slash) [] ahead with
    | some tag => .ok (some tag.info, tag.ahead)
    | none => .ok (none, ahead)
  readNextTag
    | [] => .error "can not find the next tag"
    | next :: ahead => .ok (some next.info, ahead)
  findAnyOfTheseNodesInsideParent _ _ _ := .error "can not find the next open tag"
  readTheWholeNode _ _ := .error "can not read the node"
  remaining := List.length
  find_advances := nofun
  find_ends := nofun
  read_advances := nofun

private theorem info_standsAt {tag : Placed} {read rest : Bytes} {begun : Option Bytes}
    (h : tag ∈ placedFrom read begun rest) : tag.info.StandsAt tag := by
  obtain ⟨-, ⟨inner, hraw⟩, -⟩ := mem_placedFrom h
  refine ⟨rfl, ?_⟩
  have hpos : 0 < tag.raw.length := by simp [hraw]
  simp only [Placed.info]
  omega

theorem placeReader_readsInPlace : placeReader.ReadsInPlace := by
  intro body xPath tag _ htag
  refine ⟨placed body, tag.info, tag.ahead, rfl, ?_, info_standsAt (mem_of_resolve htag), ?_⟩
  · simp only [placeReader]
    rw [show resolve ((bytesOf xPath).splitOn slash) [] (placed body) = some tag from htag]
  · cases hahead : tag.ahead with
    | nil => exact fun _ _ => nofun
    | cons next others =>
      refine ⟨next.info, others, rfl, ?_⟩
      have hnext : next ∈ tag.ahead := hahead ▸ List.mem_cons_self
      exact info_standsAt hnext

/-- The code of an error is read from between its tags. -/
theorem readNodeText_inside_iff_code :
    ∃ tag, element (bytesOf "<Error><Code>NoSuchKey</Code></Error>") "Error/Code" = some tag ∧
      ∀ text, readNodeText placeReader (bytesOf "<Error><Code>NoSuchKey</Code></Error>")
        "Error/Code" = some text → IsTextOf tag text := by
  have htags : tags (bytesOf "<Error><Code>NoSuchKey</Code></Error>") =
      some [bytesOf "<Error>", bytesOf "<Code>", bytesOf "</Code>", bytesOf "</Error>"] := by
    decide
  have hsafe : isSafeToRead (bytesOf "<Error><Code>NoSuchKey</Code></Error>") = true :=
    isSafeToRead_iff.mpr ⟨by rw [fromUtf8_bytesOf]; rfl, _, htags, by decide⟩
  refine ⟨⟨bytesOf "<Error>", bytesOf "<Code>", bytesOf "NoSuchKey</Code></Error>"⟩,
    by decide +kernel, ?_⟩
  exact (readNodeText_inside_iff placeReader_readsInPlace hsafe (by decide +kernel)).mpr
    (.inl (by decide))

/-- Behind a code that closes itself, the line break in front of the next element is read
as its text. -/
theorem self_closing_code_reads_line_break :
    let body := bytesOf "<Error><Code/>\n<Message>no</Message></Error>"
    placeReader.ReadsInPlace ∧ isSafeToRead body = true ∧
      ∃ tag, element body "Error/Code" = some tag ∧ tagKind tag.raw = .selfClosing ∧
        readNodeText placeReader body "Error/Code" = some "\n" ∧ ¬IsTextOf tag "\n" := by
  intro body
  have htags : tags body = some [bytesOf "<Error>", bytesOf "<Code/>", bytesOf "<Message>",
      bytesOf "</Message>", bytesOf "</Error>"] := by
    decide
  have hsafe : isSafeToRead body = true :=
    isSafeToRead_iff.mpr ⟨by rw [fromUtf8_bytesOf]; rfl, _, htags, by decide⟩
  have htag : element body "Error/Code" = some ⟨bytesOf "<Error>", bytesOf "<Code/>",
      bytesOf "\n<Message>no</Message></Error>"⟩ := by
    decide +kernel
  have hself : tagKind (bytesOf "<Code/>") = .selfClosing := by decide
  have hbreak : unescape "\n" = "\n" := unescape_of_escapes (.literal (by decide) .nil)
  refine ⟨placeReader_readsInPlace, hsafe, _, htag, hself, ?_, ?_⟩
  · rcases readNodeText_cases placeReader_readsInPlace hsafe htag with
      ⟨hnone, -⟩ | ⟨-, text, htext, hread⟩
    · exact absurd (by decide) hnone
    · have hline : text = "\n" := bytesOf_injective (htext.trans (by decide))
      rw [hread, hline, hbreak]
  · rw [IsTextOf, if_pos hself]
    decide

end MyS3.Xml
