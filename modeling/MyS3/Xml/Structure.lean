import MyS3.Xml.Escape
import MyS3.Xml.Tree
import MyS3.Xml.Walker

/-!
# Reading by structure

What is assumed of the streaming reader: it walks the events of a document one after the
other and matches a name at any depth. What `XmlWalker` makes of it is children and no
others.
-/

namespace MyS3.Xml

open Forest

/-- What the reader says about a tag that it hands out. -/
structure Describes (info : XmlTagInfo) (tag : XmlTag) (isBranch : Bool) (level : Nat) :
    Prop where
  name : info.name = tag.name
  raw : info.raw = tagOf (if isBranch then tag.opening else tag.selfClosing)
  level : info.level = level

/-- The tags with one of these names. -/
def nameIn (names : List String) (tag : XmlTag) : Bool := names.contains tag.name

/-- The reader walks the events of a document: `At` says where it stands. A search answers
with the first tag of a wanted name at whatever depth, or with the end of the parent; a node
of text is read up to its closing tag. -/
structure MyXmlReader.ByStructure (R : MyXmlReader)
    (At : R.State → Position XmlTag CharData → Prop) : Prop where
  opens : ∀ document : XmlDocument, ∃ s info s' depth,
    R.fromSlice document.bytes = .ok s ∧
      R.findTheOpenNode s document.root.label.name = .ok (some info, s') ∧
      Describes info document.root.label document.root.inner.isSome (depth + 1) ∧
      At s' (document.root.behind depth [.text document.trailer])
  finds : ∀ {s position parent} (names : List String), At s position → parent.level ≤ position.depth →
    match search (nameIn names) parent.level position.depth position.ahead with
    | .hit tag isBranch level next => ∃ info s',
        R.findAnyOfTheseNodesInsideParent s parent names = .ok (some info, s') ∧
          Describes info tag isBranch level ∧ At s' next
    | .closed next => ∃ s',
        R.findAnyOfTheseNodesInsideParent s parent names = .ok (none, s') ∧ At s' next
    | .exhausted => True
  readsLeaf : ∀ {s position info tag level}, Describes info tag false level → At s position →
    ∃ node s', R.readTheWholeNode s info = .ok (node, s') ∧ node.innerContent = none ∧
      At s' position
  readsText : ∀ {s info tag level texts ahead}, Describes info tag true level →
    At s ⟨List.map Event.text texts ++ .leave tag :: ahead, level⟩ →
    ∃ node s', R.readTheWholeNode s info = .ok (node, s') ∧
      node.innerContent = some (eventsBytes (texts.map .text)) ∧ At s' ⟨ahead, level - 1⟩

/-- The text of an element as it stands in the document. -/
def rawText (element : XmlElement) : String :=
  match element.inner with
  | none => ""
  | some inner => String.join (inner.texts.map Subtype.val)

/-- The text of an element, decoded. -/
def elementText (element : XmlElement) : String := unescape (rawText element)

/-- The elements directly inside an element. -/
def elements (element : XmlElement) : List XmlElement :=
  match element.inner with
  | none => []
  | some inner => inner.children

/-- The direct children with one of these names. -/
def wantedChildren (names : List String) (element : XmlElement) : List XmlElement :=
  (elements element).filter fun child => nameIn names child.label

/-- An element with nothing but text in it. -/
def IsLeaf (element : XmlElement) : Prop := ∀ inner ∈ element.inner, inner.children = []

instance (element : XmlElement) : Decidable (IsLeaf element) :=
  inferInstanceAs (Decidable (∀ inner ∈ element.inner, inner.children = []))

theorem bytesOf_join (texts : List CharData) :
    bytesOf (String.join (texts.map Subtype.val)) = eventsBytes (texts.map .text) := by
  have hfold : ∀ start : String,
      bytesOf ((texts.map Subtype.val).foldl (fun r s => r ++ s) start) =
        bytesOf start ++ eventsBytes (texts.map .text) := by
    intro start
    induction texts generalizing start with
    | nil => simp only [List.map_nil, List.foldl_nil, eventsBytes_nil, List.append_nil]
    | cons t texts ih =>
      simp only [List.map_cons, List.foldl_cons, ih, bytesOf_append, eventsBytes_cons,
        eventBytes, List.append_assoc]
  exact hfold ""

/-- A tag ends in `/>` exactly if what is inside of it ends in `/`. -/
private theorem suffix_tagOf {inner : Bytes} :
    [slash, gt] <:+ tagOf inner ↔ [slash] <:+ lt :: inner := by
  have hinj : [slash] ++ [gt] <:+ (lt :: inner) ++ [gt] ↔ _ :=
    List.suffix_append_inj_of_length_eq rfl
  exact hinj.trans (and_iff_left rfl)

/-- The reader's tags tell a leaf from a branch. -/
theorem Describes.isSelfClosing {info : XmlTagInfo} {tag : XmlTag} {isBranch : Bool}
    {level : Nat} (h : Describes info tag isBranch level) :
    info.isSelfClosing = !isBranch := by
  rw [XmlTagInfo.isSelfClosing, h.raw]
  cases isBranch with
  | false =>
    have hsuffix : [slash] <:+ lt :: tag.selfClosing := ⟨lt :: tag.opening, rfl⟩
    simpa only [Bool.false_eq_true, if_false, Bool.not_false, List.isSuffixOf_iff_suffix] using
      suffix_tagOf.mpr hsuffix
  | true =>
    have hnot : ¬ [slash] <:+ lt :: tag.opening := by
      rintro ⟨before, hbefore⟩
      have hlast := congrArg List.getLast? hbefore
      rw [List.getLast?_append_of_ne_nil _ (by simp)] at hlast
      cases hopening : tag.opening with
      | nil =>
        rw [hopening] at hlast
        exact absurd hlast (by decide)
      | cons b rest =>
        have hopen := (isOpen_opening tag).2.2
        rw [hopening, List.getLast?_cons_cons] at hlast
        exact hopen (hopening ▸ hlast.symm)
    have hsuffix := mt suffix_tagOf.mp hnot
    simpa only [if_true, Bool.not_true, ← Bool.not_eq_true, List.isSuffixOf_iff_suffix] using
      hsuffix

section Walk

variable {R : MyXmlReader} {At : R.State → Position XmlTag CharData → Prop}

private theorem nextDirectChild_none {s s' : R.State} {parent : XmlTagInfo}
    {names : List String}
    (h : R.findAnyOfTheseNodesInsideParent s parent names = .ok (none, s')) :
    nextDirectChild s parent names = .ok (none, s') := by
  rw [nextDirectChild]
  split
  · rename_i hfind
    cases h.symm.trans hfind
  · rename_i hfind
    cases h.symm.trans hfind
    rfl
  · rename_i hfind
    cases h.symm.trans hfind

private theorem nextDirectChild_some {s s' : R.State} {parent info : XmlTagInfo}
    {names : List String}
    (h : R.findAnyOfTheseNodesInsideParent s parent names = .ok (some info, s')) :
    nextDirectChild s parent names =
      if info.level = parent.level + 1 then .ok (some info, s')
      else nextDirectChild s' parent names := by
  rw [nextDirectChild]
  split
  · rename_i hfind
    cases h.symm.trans hfind
  · rename_i hfind
    cases h.symm.trans hfind
  · rename_i hfind
    cases h.symm.trans hfind
    rfl

/-- What `next_direct_child` hands out is the next child of the parent, whatever lies
deeper in between. -/
theorem nextDirectChild_reads (hR : R.ByStructure At) {s : R.State}
    {position : Position XmlTag CharData} {parent : XmlTagInfo} (names : List String)
    (hat : At s position) (hdepth : parent.level ≤ position.depth) :
    match searchDirect (nameIn names) parent.level position.depth position.ahead with
    | .hit tag isBranch level next => ∃ info s',
        nextDirectChild s parent names = .ok (some info, s') ∧
          Describes info tag isBranch level ∧ At s' next
    | .closed next => ∃ s', nextDirectChild s parent names = .ok (none, s') ∧ At s' next
    | .exhausted => True := by
  induction hn : position.ahead.length using Nat.strongRecOn generalizing s position with
  | ind n ih =>
    have hfinds := hR.finds names hat hdepth
    cases hsearch : search (nameIn names) parent.level position.depth position.ahead with
    | exhausted =>
      rw [search_exhausted hsearch]
      trivial
    | closed next =>
      rw [hsearch] at hfinds
      obtain ⟨s', hfind, hnext⟩ := hfinds
      rw [search_closed hsearch]
      exact ⟨s', nextDirectChild_none hfind, hnext⟩
    | hit tag isBranch level next =>
      rw [hsearch] at hfinds
      obtain ⟨info, s', hfind, hinfo, hnext⟩ := hfinds
      obtain ⟨hshorter, hlevel, hdirect⟩ := search_hit hsearch hdepth
      rw [hdirect, nextDirectChild_some hfind, hinfo.level]
      by_cases hchild : level = parent.level + 1
      · simp only [if_pos hchild]
        exact ⟨info, s', rfl, hinfo, hnext⟩
      · simp only [if_neg hchild]
        exact ih _ (hn ▸ hshorter) hnext hlevel rfl

/-- A walker is opened on the root of a document. -/
theorem open_reads (hR : R.ByStructure At) (document : XmlDocument) :
    ∃ (w : XmlWalker R) (depth : Nat),
      XmlWalker.open R document.bytes document.root.label.name = .ok (some w) ∧
        Describes w.root document.root.label document.root.inner.isSome (depth + 1) ∧
        At w.reader (document.root.behind depth [.text document.trailer]) := by
  obtain ⟨s, info, s', depth, hslice, hfind, hinfo, hat⟩ := hR.opens document
  refine ⟨⟨s', info⟩, depth, ?_, hinfo, hat⟩
  simp only [XmlWalker.open, document.isSafeToRead, if_true, hslice, hfind]

variable {w : XmlWalker R} {parent info : XmlTagInfo} {ahead : List XmlEvent}
  {names : List String} {child : XmlElement} {children : List XmlElement} {level : Nat}

/-- The walker stands inside an element that has these wanted children ahead, and `ahead` is
what comes behind it. -/
def Inside (At : R.State → Position XmlTag CharData → Prop) (names : List String)
    (w : XmlWalker R) (parent : XmlTagInfo) (children : List XmlElement)
    (ahead : List XmlEvent) (level : Nat) : Prop :=
  (parent.isSelfClosing = true ∧ children = [] ∧ At w.reader ⟨ahead, level⟩) ∨
    (parent.isSelfClosing = false ∧ parent.level = level + 1 ∧
      ∃ (content : XmlContent) (tag : XmlTag), content.named (nameIn names) = children ∧
        At w.reader ⟨content.events ++ .leave tag :: ahead, level + 1⟩)

/-- Behind the tag of an element the walker stands inside of it. -/
theorem inside_of_behind (names : List String) {element : XmlElement}
    (hparent : Describes parent element.label element.inner.isSome (level + 1))
    (hat : At w.reader (element.behind level ahead)) :
    Inside At names w parent (wantedChildren names element) ahead level := by
  have hself := hparent.isSelfClosing
  obtain ⟨label, inner⟩ := element
  cases inner with
  | none => exact .inl ⟨hself, rfl, hat⟩
  | some inner =>
    refine .inr ⟨hself, hparent.level, inner, label, rfl, ?_⟩
    simpa only [Child.behind, Child.pending, List.append_assoc, List.singleton_append,
      Option.isSome_some, if_true] using hat

/-- Behind the last wanted child the walker finds the end of the element. -/
theorem Inside.nil (hR : R.ByStructure At) (h : Inside At names w parent [] ahead level) :
    ∃ w', w.nextChildOf parent names = .ok (none, w') ∧ w'.root = w.root ∧
      At w'.reader ⟨ahead, level⟩ := by
  rcases h with ⟨hself, -, hat⟩ | ⟨hbranch, hlevel, content, tag, hnamed, hat⟩
  · exact ⟨w, if_pos hself, rfl, hat⟩
  have hnext := nextDirectChild_reads hR names hat (Nat.le_of_eq hlevel)
  rw [hlevel, searchDirect_events] at hnext
  cases hfirst : content.next (nameIn names) with
  | some found =>
    have hcons := next_eq_some hfirst
    rw [hnamed] at hcons
    cases hcons
  | none =>
    rw [hfirst] at hnext
    obtain ⟨s', hnone, hat'⟩ := hnext
    refine ⟨{ w with reader := s' }, ?_, rfl, hat'⟩
    simp only [XmlWalker.nextChildOf, hbranch, Bool.false_eq_true, if_false, hnone, Except.map]

/-- The walker hands out the wanted children in order, and is back inside of the element as
soon as one of them is read. -/
theorem Inside.cons (hR : R.ByStructure At)
    (h : Inside At names w parent (child :: children) ahead level) :
    ∃ (info : XmlTagInfo) (w' : XmlWalker R) (siblings : List XmlEvent),
      w.nextChildOf parent names = .ok (some info, w') ∧ w'.root = w.root ∧
      Describes info child.label child.inner.isSome (level + 1 + 1) ∧
      At w'.reader (child.behind (level + 1) siblings) ∧
      ∀ w'' : XmlWalker R, At w''.reader ⟨siblings, level + 1⟩ →
        Inside At names w'' parent children ahead level := by
  rcases h with ⟨-, hnil, -⟩ | ⟨hbranch, hlevel, content, tag, hnamed, hat⟩
  · cases hnil
  have hnext := nextDirectChild_reads hR names hat (Nat.le_of_eq hlevel)
  rw [hlevel, searchDirect_events] at hnext
  cases hfirst : content.next (nameIn names) with
  | none =>
    have hnil := next_eq_none hfirst
    rw [hnamed] at hnil
    cases hnil
  | some found =>
    obtain ⟨child', rest⟩ := found
    have hcons := next_eq_some hfirst
    rw [hnamed] at hcons
    cases hcons
    rw [hfirst] at hnext
    obtain ⟨info, s', hsome, hinfo, hat'⟩ := hnext
    refine ⟨info, { w with reader := s' }, rest.events ++ .leave tag :: ahead, ?_, rfl, hinfo,
      hat', fun w'' hat'' => .inr ⟨hbranch, hlevel, rest, tag, rfl, hat''⟩⟩
    simp only [XmlWalker.nextChildOf, hbranch, Bool.false_eq_true, if_false, hsome, Except.map]

/-- Reading a leaf takes its text and nothing more. -/
theorem readText_reads (hR : R.ByStructure At) (hleaf : IsLeaf child)
    (hinfo : Describes info child.label child.inner.isSome (level + 1))
    (hat : At w.reader (child.behind level ahead)) :
    ∃ w', w.readText info = .ok (elementText child, w') ∧ w'.root = w.root ∧
      At w'.reader ⟨ahead, level⟩ := by
  obtain ⟨label, inner⟩ := child
  cases inner with
  | none =>
    obtain ⟨node, s', hread, hnode, hat'⟩ := hR.readsLeaf hinfo hat
    refine ⟨{ w with reader := s' }, ?_, rfl, hat'⟩
    simp only [XmlWalker.readText, hread, hnode, elementText, rawText, unescape_empty]
  | some inner =>
    have htexts := events_of_texts (hleaf inner rfl)
    have hat' : At w.reader
        ⟨inner.texts.map Event.text ++ .leave label :: ahead, level + 1⟩ := by
      simpa only [Child.behind, Child.pending, htexts, List.append_assoc, Option.isSome_some,
        if_true, List.singleton_append] using hat
    obtain ⟨node, s', hread, hnode, hat'⟩ := hR.readsText hinfo hat'
    refine ⟨{ w with reader := s' }, ?_, rfl, hat'⟩
    simp only [XmlWalker.readText, hread, hnode, ← bytesOf_join, fromUtf8_bytesOf, elementText,
      rawText]

end Walk

end MyS3.Xml
