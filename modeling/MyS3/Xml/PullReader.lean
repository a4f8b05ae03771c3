import MyS3.Core.Separated
import MyS3.Xml.Structure

/-!
# A reader that goes by structure

A streaming reader over the bytes of a document: from tag to tag, with the depth it is at.
It is one of those that the walker is proved about.
-/

namespace MyS3.Xml

open Forest Separated

/-- Where the reader stands: what is ahead, and inside how many elements. -/
structure PullState where
  ahead : Bytes
  depth : Nat

/-- The text in front of the next tag, the inside of the tag, and what is behind it. -/
def splitTag (ahead : Bytes) : Option (Bytes × Bytes × Bytes) :=
  match splitOnce lt ahead with
  | none => none
  | some (before, rest) => (splitOnce gt rest).map fun halves => (before, halves.1, halves.2)

theorem splitTag_shorter {ahead before inner rest : Bytes}
    (h : splitTag ahead = some (before, inner, rest)) : rest.length < ahead.length := by
  unfold splitTag at h
  split at h
  · cases h
  · rename_i hlt
    obtain ⟨halves, hgt, heq⟩ := Option.map_eq_some_iff.mp h
    cases heq
    rw [eq_of_splitOnce hlt, eq_of_splitOnce hgt]
    simp only [List.length_append, List.length_cons]
    omega

/-- The name in a tag. -/
def nameOf (inner : Bytes) : String := (fromUtf8 (inner.takeWhile isNameByte)).getD ""

/-- What is handed out for a tag. -/
def pullInfo (inner : Bytes) (level : Nat) : XmlTagInfo :=
  ⟨nameOf inner, tagOf inner, 0, inner.length + 1, level⟩

/-- The next tag with a wanted name, or the end of the element at `level`. -/
def pullFind (names : List String) (level : Nat) (s : PullState) :
    Except String (Option XmlTagInfo × PullState) :=
  match _h : splitTag s.ahead with
  | none => .error "can not find the next open tag"
  | some (_, inner, rest) =>
    match tagKind (tagOf inner) with
    | .declaration => pullFind names level ⟨rest, s.depth⟩
    | .closing =>
      if s.depth = level then .ok (none, ⟨rest, s.depth - 1⟩)
      else pullFind names level ⟨rest, s.depth - 1⟩
    | .selfClosing =>
      if names.contains (nameOf inner) then
        .ok (some (pullInfo inner (s.depth + 1)), ⟨rest, s.depth⟩)
      else pullFind names level ⟨rest, s.depth⟩
    | .opening =>
      if names.contains (nameOf inner) then
        .ok (some (pullInfo inner (s.depth + 1)), ⟨rest, s.depth + 1⟩)
      else pullFind names level ⟨rest, s.depth + 1⟩
termination_by s.ahead.length
decreasing_by all_goals exact splitTag_shorter _h

/-- The bytes up to the tag that closes the element at `level`. -/
def pullInner (level : Nat) (s : PullState) (content : Bytes) : Except String (Bytes × PullState) :=
  match _h : splitTag s.ahead with
  | none => .error "can not find the closing tag"
  | some (before, inner, rest) =>
    match tagKind (tagOf inner) with
    | .closing =>
      if s.depth = level then .ok (content ++ before, ⟨rest, s.depth - 1⟩)
      else pullInner level ⟨rest, s.depth - 1⟩ (content ++ before ++ tagOf inner)
    | .opening => pullInner level ⟨rest, s.depth + 1⟩ (content ++ before ++ tagOf inner)
    | .declaration | .selfClosing =>
      pullInner level ⟨rest, s.depth⟩ (content ++ before ++ tagOf inner)
termination_by s.ahead.length
decreasing_by all_goals exact splitTag_shorter _h

/-- A whole node behind its tag. -/
def pullNode (s : PullState) (info : XmlTagInfo) : Except String (XmlNode × PullState) :=
  if info.isSelfClosing then .ok (⟨info.name, none⟩, s)
  else (pullInner info.level s []).map fun read => (⟨info.name, some read.1⟩, read.2)

variable {names : List String} {level : Nat} {s s' : PullState}

private theorem pullFind_advances {found : Option XmlTagInfo}
    (h : pullFind names level s = .ok (found, s')) : s'.ahead.length < s.ahead.length := by
  induction hn : s.ahead.length using Nat.strongRecOn generalizing s with
  | ind n ih =>
    rw [pullFind] at h
    split at h
    · cases h
    · rename_i hsplit
      have hshorter := splitTag_shorter hsplit
      split at h
      · exact Nat.lt_trans (ih _ (hn ▸ hshorter) h rfl) (hn ▸ hshorter)
      · split at h
        · cases h
          exact hn ▸ hshorter
        · exact Nat.lt_trans (ih _ (hn ▸ hshorter) h rfl) (hn ▸ hshorter)
      · split at h
        · cases h
          exact hn ▸ hshorter
        · exact Nat.lt_trans (ih _ (hn ▸ hshorter) h rfl) (hn ▸ hshorter)
      · split at h
        · cases h
          exact hn ▸ hshorter
        · exact Nat.lt_trans (ih _ (hn ▸ hshorter) h rfl) (hn ▸ hshorter)

private theorem pullInner_advances {content read : Bytes}
    (h : pullInner level s content = .ok (read, s')) : s'.ahead.length < s.ahead.length := by
  induction hn : s.ahead.length using Nat.strongRecOn generalizing s content with
  | ind n ih =>
    rw [pullInner] at h
    split at h
    · cases h
    · rename_i hsplit
      have hshorter := splitTag_shorter hsplit
      split at h
      · split at h
        · cases h
          exact hn ▸ hshorter
        · exact Nat.lt_trans (ih _ (hn ▸ hshorter) h rfl) (hn ▸ hshorter)
      · exact Nat.lt_trans (ih _ (hn ▸ hshorter) h rfl) (hn ▸ hshorter)
      · exact Nat.lt_trans (ih _ (hn ▸ hshorter) h rfl) (hn ▸ hshorter)
      · exact Nat.lt_trans (ih _ (hn ▸ hshorter) h rfl) (hn ▸ hshorter)

private theorem pullNode_advances {info : XmlTagInfo} {node : XmlNode}
    (h : pullNode s info = .ok (node, s')) : s'.ahead.length ≤ s.ahead.length := by
  unfold pullNode at h
  split at h
  · cases h
    exact Nat.le_refl _
  · cases hinner : pullInner info.level s [] with
    | error err => simp [hinner, Except.map] at h
    | ok read =>
      rw [hinner] at h
      cases h
      exact Nat.le_of_lt (pullInner_advances hinner)

/-- The streaming reader. -/
def pullReader : MyXmlReader where
  State := PullState
  fromSlice body := .ok ⟨body, 0⟩
  findTheOpenNode s name := pullFind [name] 0 s
  readNextTag s :=
    match splitTag s.ahead with
    | none => .ok (none, s)
    | some (_, inner, rest) => .ok (some (pullInfo inner s.depth), ⟨rest, s.depth⟩)
  findAnyOfTheseNodesInsideParent s parent names := pullFind names parent.level s
  readTheWholeNode := pullNode
  remaining s := s.ahead.length
  find_advances := pullFind_advances
  find_ends h := Nat.le_of_lt (pullFind_advances h)
  read_advances := pullNode_advances

section Steps

variable {text inner rest before : Bytes} {depth : Nat}

private theorem splitTag_text (h : lt ∉ text) (rest : Bytes) : splitTag (text ++ rest) =
    (splitTag rest).map fun split => (text ++ split.1, split.2.1, split.2.2) := by
  unfold splitTag
  rw [splitOnce_append_left h]
  cases splitOnce lt rest with
  | none => rfl
  | some halves => simp only [Option.map_some, Option.map_map]; rfl

private theorem splitTag_tagOf (h : gt ∉ inner) (rest : Bytes) :
    splitTag (tagOf inner ++ rest) = some ([], inner, rest) := by
  have hcons : tagOf inner ++ rest = lt :: (inner ++ gt :: rest) := by
    simp only [tagOf, List.cons_append, List.append_assoc, List.nil_append]
  simp only [splitTag, hcons, splitOnce, if_true, splitOnce_append h, Option.map_some]

private theorem pullFind_none (h : splitTag s.ahead = none) :
    pullFind names level s = .error "can not find the next open tag" := by
  rw [pullFind]
  split
  · rfl
  · rename_i hsplit
    cases h.symm.trans hsplit

private theorem pullFind_some (names : List String) (level : Nat)
    (h : splitTag s.ahead = some (before, inner, rest)) :
    pullFind names level s =
      match tagKind (tagOf inner) with
      | .declaration => pullFind names level ⟨rest, s.depth⟩
      | .closing =>
        if s.depth = level then .ok (none, ⟨rest, s.depth - 1⟩)
        else pullFind names level ⟨rest, s.depth - 1⟩
      | .selfClosing =>
        if names.contains (nameOf inner) then
          .ok (some (pullInfo inner (s.depth + 1)), ⟨rest, s.depth⟩)
        else pullFind names level ⟨rest, s.depth⟩
      | .opening =>
        if names.contains (nameOf inner) then
          .ok (some (pullInfo inner (s.depth + 1)), ⟨rest, s.depth + 1⟩)
        else pullFind names level ⟨rest, s.depth + 1⟩ := by
  rw [pullFind]
  split
  · rename_i hsplit
    cases h.symm.trans hsplit
  · rename_i hsplit
    cases h.symm.trans hsplit
    rfl

/-- Text is passed over. -/
private theorem pullFind_text (h : lt ∉ text) :
    pullFind names level ⟨text ++ rest, depth⟩ = pullFind names level ⟨rest, depth⟩ := by
  have hsplit := splitTag_text h rest
  cases hrest : splitTag rest with
  | none =>
    rw [hrest] at hsplit
    rw [pullFind_none hsplit, pullFind_none hrest]
  | some split =>
    rw [hrest] at hsplit
    exact (pullFind_some names level (s := ⟨text ++ rest, depth⟩) hsplit).trans
      (pullFind_some names level (s := ⟨rest, depth⟩) hrest).symm

/-- A prolog is passed over. -/
private theorem pullFind_prolog {head : Bytes} (h : Prolog head) :
    pullFind names level ⟨head ++ rest, depth⟩ = pullFind names level ⟨rest, depth⟩ := by
  obtain ⟨ts, hts, hkind⟩ := h
  induction ts generalizing head with
  | nil => exact pullFind_text (lt_notMem_of_tags_nil hts)
  | cons t ts ih =>
    obtain ⟨before, inner, behind, rfl, hbefore, hinner, rfl, hbehind⟩ :=
      exists_tag_of_tags_cons hts
    rw [List.append_assoc, List.append_assoc, pullFind_text hbefore,
      pullFind_some _ _ (splitTag_tagOf hinner _), hkind _ List.mem_cons_self]
    exact ih hbehind fun t ht => hkind t (List.mem_cons_of_mem _ ht)

private theorem takeWhile_name (tag : XmlTag) (hrest : rest.head?.all (!isNameByte ·) = true) :
    (bytesOf tag.name ++ rest).takeWhile isNameByte = bytesOf tag.name := by
  rw [List.takeWhile_append_of_pos (List.all_eq_true.mp tag.validName.2.1)]
  cases rest with
  | nil => rw [List.takeWhile_nil, List.append_nil]
  | cons b rest =>
    have hb : isNameByte b = false := by simpa using hrest
    rw [List.takeWhile_cons_of_neg (by simp [hb]), List.append_nil]

/-- Behind a name there is no byte of a name. -/
private theorem head_attributes (tag : XmlTag) (rest : Bytes)
    (hrest : rest.head?.all (!isNameByte ·) = true) :
    (bytesOf tag.attributes ++ rest).head?.all (!isNameByte ·) = true := by
  have hspace := tag.validAttributes.1
  cases hattributes : bytesOf tag.attributes with
  | nil => exact hrest
  | cons b attributes =>
    rw [hattributes] at hspace
    have hb : isSpace b = true := hspace
    simp [isNameByte, hb]

private theorem nameOf_opening (tag : XmlTag) : nameOf tag.opening = tag.name := by
  have hend := head_attributes tag [] rfl
  rw [List.append_nil] at hend
  rw [nameOf, XmlTag.opening, takeWhile_name tag hend, fromUtf8_bytesOf]
  rfl

private theorem nameOf_selfClosing (tag : XmlTag) : nameOf tag.selfClosing = tag.name := by
  have hend := head_attributes tag [slash] (by decide)
  rw [nameOf, XmlTag.selfClosing, XmlTag.opening, List.append_assoc, takeWhile_name tag hend,
    fromUtf8_bytesOf]
  rfl

/-- The search over the bytes is the search over the events. -/
private theorem pullFind_events (names : List String) (level depth : Nat)
    (events : List XmlEvent) :
    match search (nameIn names) level depth events with
    | .hit tag isBranch found next => ∃ info s',
        pullFind names level ⟨eventsBytes events, depth⟩ = .ok (some info, s') ∧
          Describes info tag isBranch found ∧ s' = ⟨eventsBytes next.ahead, next.depth⟩
    | .closed next => ∃ s',
        pullFind names level ⟨eventsBytes events, depth⟩ = .ok (none, s') ∧
          s' = ⟨eventsBytes next.ahead, next.depth⟩
    | .exhausted => True := by
  induction events generalizing depth with
  | nil => trivial
  | cons event events ih =>
    cases event with
    | text t =>
      simp only [search, eventsBytes_cons, eventBytes, pullFind_text t.2]
      exact ih _
    | leaf tag =>
      have hfind := pullFind_some names level
        (s := ⟨eventsBytes (.leaf tag :: events), depth⟩)
        (splitTag_tagOf (gt_notMem_selfClosing tag) (eventsBytes events))
      rw [kind_selfClosing (isSelfClosing_selfClosing tag), nameOf_selfClosing] at hfind
      simp only [search, nameIn, hfind]
      by_cases hname : names.contains tag.name = true
      · simp only [hname, if_true]
        exact ⟨_, _, rfl, ⟨nameOf_selfClosing tag, rfl, rfl⟩, rfl⟩
      · simp only [hname, Bool.false_eq_true, if_false]
        exact ih _
    | enter tag =>
      have hfind := pullFind_some names level
        (s := ⟨eventsBytes (.enter tag :: events), depth⟩)
        (splitTag_tagOf (gt_notMem_opening tag) (eventsBytes events))
      rw [kind_open (isOpen_opening tag), nameOf_opening] at hfind
      simp only [search, nameIn, hfind]
      by_cases hname : names.contains tag.name = true
      · simp only [hname, if_true]
        exact ⟨_, _, rfl, ⟨nameOf_opening tag, rfl, rfl⟩, rfl⟩
      · simp only [hname, Bool.false_eq_true, if_false]
        exact ih _
    | leave tag =>
      have hfind := pullFind_some names level
        (s := ⟨eventsBytes (.leave tag :: events), depth⟩)
        (splitTag_tagOf (gt_notMem_closing tag) (eventsBytes events))
      rw [kind_close (isClose_closing tag)] at hfind
      simp only [search, hfind]
      by_cases hlevel : depth = level
      · simp only [if_pos hlevel]
        exact ⟨_, rfl, rfl⟩
      · simp only [if_neg hlevel]
        exact ih _

/-- Text is read up to the tag that closes its element. -/
private theorem pullInner_texts (tag : XmlTag) (texts : List CharData) (events : List XmlEvent) :
    pullInner level ⟨eventsBytes (texts.map .text ++ .leave tag :: events), level⟩ [] =
      .ok (eventsBytes (texts.map .text), ⟨eventsBytes events, level - 1⟩) := by
  have hsplit : splitTag (eventsBytes (texts.map Event.text ++ .leave tag :: events)) =
      some (eventsBytes (texts.map .text), tag.closing, eventsBytes events) := by
    induction texts with
    | nil => exact splitTag_tagOf (gt_notMem_closing tag) _
    | cons t texts ih =>
      rw [List.map_cons, List.cons_append, eventsBytes_cons, eventBytes, splitTag_text t.2, ih]
      rfl
  rw [pullInner]
  split
  · rename_i hnone
    cases hsplit.symm.trans hnone
  · rename_i hsome
    cases hsplit.symm.trans hsome
    simp only [kind_close (isClose_closing tag), if_true, List.nil_append]

/-- The root is found behind the prolog. -/
private theorem pullFind_root (document : XmlDocument) :
    ∃ info s', pullFind [document.root.label.name] 0 ⟨document.bytes, 0⟩ = .ok (some info, s') ∧
      Describes info document.root.label document.root.inner.isSome 1 ∧
      s' = ⟨eventsBytes (document.root.behind 0 [.text document.trailer]).ahead,
        (document.root.behind 0 [.text document.trailer]).depth⟩ := by
  have hevents := pullFind_events [document.root.label.name] 0 0
    (firstEvent document.root :: (document.root.pending ++ [.text document.trailer]))
  rw [XmlDocument.bytes, pullFind_prolog document.prolog]
  obtain ⟨head, ⟨label, inner⟩, trailer, hprolog⟩ := document
  cases inner <;>
    simpa [search, firstEvent, nameIn, Child.behind] using hevents

end Steps

/-- The reader goes by structure. -/
theorem pullReader_byStructure : pullReader.ByStructure fun s position =>
    s = (⟨eventsBytes position.ahead, position.depth⟩ : PullState) where
  opens := by
    intro document
    obtain ⟨info, s', hfind, hinfo, hat⟩ := pullFind_root document
    exact ⟨⟨document.bytes, 0⟩, info, s', 0, rfl, hfind, hinfo, hat⟩
  finds := by
    rintro s position parent names rfl hdepth
    exact pullFind_events _ _ _ _
  readsLeaf := by
    rintro s position info tag level hinfo rfl
    refine ⟨⟨info.name, none⟩, _, ?_, rfl, rfl⟩
    simp only [pullReader, pullNode, hinfo.isSelfClosing, Bool.not_false, if_true]
  readsText := by
    rintro s info tag level texts ahead hinfo rfl
    refine ⟨⟨info.name, some (eventsBytes (texts.map .text))⟩, _, ?_, rfl, rfl⟩
    simp only [pullReader, pullNode, hinfo.isSelfClosing, Bool.not_true, Bool.false_eq_true,
      if_false, hinfo.level, pullInner_texts]
    rfl

end MyS3.Xml
