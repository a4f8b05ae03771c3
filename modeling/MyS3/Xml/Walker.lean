import MyS3.Xml.Scan

/-!
# Reading one document

`read_node_text` and `XmlWalker` over the streaming reader they are driven by. The reader
is a parameter: its functions, and that it only ever moves on.
-/

namespace MyS3.Xml

/-- A tag that the reader hands out. -/
structure XmlTagInfo where
  name : String
  raw : Bytes
  startPos : Nat
  endPos : Nat
  level : Nat
  deriving DecidableEq

/-- A node that the reader has read whole; a self-closing one has no inner content. -/
structure XmlNode where
  name : String
  innerContent : Option Bytes
  deriving DecidableEq

/-- The streaming reader. `remaining` measures the document that is still ahead of it. -/
structure MyXmlReader where
  State : Type
  fromSlice : Bytes → Except String State
  findTheOpenNode : State → String → Except String (Option XmlTagInfo × State)
  readNextTag : State → Except String (Option XmlTagInfo × State)
  findAnyOfTheseNodesInsideParent :
    State → XmlTagInfo → List String → Except String (Option XmlTagInfo × State)
  readTheWholeNode : State → XmlTagInfo → Except String (XmlNode × State)
  remaining : State → Nat
  find_advances : ∀ {s s' parent names tag},
    findAnyOfTheseNodesInsideParent s parent names = .ok (some tag, s') →
      remaining s' < remaining s
  find_ends : ∀ {s s' parent names},
    findAnyOfTheseNodesInsideParent s parent names = .ok (none, s') →
      remaining s' ≤ remaining s
  read_advances : ∀ {s s' tag node},
    readTheWholeNode s tag = .ok (node, s') → remaining s' ≤ remaining s

/-- A tag that begins with `<` and this name. -/
def Names (name : String) (tag : Bytes) : Prop := lt :: bytesOf name <+: tag

instance (name : String) (tag : Bytes) : Decidable (Names name tag) :=
  inferInstanceAs (Decidable (_ <+: _))

/-- The reader finds a node of this name only in a document with a tag that begins so. -/
def MyXmlReader.FindsTags (R : MyXmlReader) (name : String) : Prop :=
  ∀ {body ts reader reader' node}, isSafeToRead body = true → tags body = some ts →
    R.fromSlice body = .ok reader →
    R.findTheOpenNode reader name = .ok (some node, reader') → ∃ tag ∈ ts, Names name tag

/-- A reader that looks for the first tag of a name and for nothing else. -/
def tagReader : MyXmlReader where
  State := Bytes
  fromSlice := .ok
  findTheOpenNode document name :=
    .ok ((((tags document).getD []).find? fun tag => decide (Names name tag)).map fun tag =>
      ⟨name, tag, 0, tag.length - 1, 0⟩, document)
  readNextTag _ := .error "can not find the next tag"
  findAnyOfTheseNodesInsideParent _ _ _ := .error "can not find the next open tag"
  readTheWholeNode _ _ := .error "can not read the node"
  remaining := List.length
  find_advances := nofun
  find_ends := nofun
  read_advances := nofun

theorem tagReader_findsTags (name : String) : tagReader.FindsTags name := by
  intro body ts reader reader' node _ hts hslice hfind
  cases hslice
  simp only [tagReader, hts, Option.getD_some, Except.ok.injEq] at hfind
  obtain ⟨tag, htag, -⟩ := Option.map_eq_some_iff.mp (congrArg Prod.fst hfind)
  have hname := List.find?_some htag
  exact ⟨tag, List.mem_of_find?_eq_some htag, of_decide_eq_true hname⟩

/-- The text between two tags; nothing, where the positions leave nothing. -/
def textBetween (body : Bytes) (openNode closeNode : XmlTagInfo) : Option String :=
  let start := openNode.endPos + 1
  let stop := closeNode.startPos
  if stop < start ∨ body.length < stop then some ""
  else (fromUtf8 ((body.take stop).drop start)).map unescape

/-- `read_node_text`: the text content of the node at a path. -/
def readNodeText (R : MyXmlReader) (body : Bytes) (xPath : String) : Option String :=
  if isSafeToRead body then
    match R.fromSlice body with
    | .error _ => none
    | .ok reader =>
      match R.findTheOpenNode reader xPath with
      | .ok (some openNode, reader) =>
        match R.readNextTag reader with
        | .ok (some closeNode, _) => textBetween body openNode closeNode
        | _ => none
      | _ => none
  else none

/-- Whether a tag closed itself. -/
def XmlTagInfo.isSelfClosing (node : XmlTagInfo) : Bool := [slash, gt].isSuffixOf node.raw

/-- The repeated children of one document, in document order. -/
structure XmlWalker (R : MyXmlReader) where
  reader : R.State
  root : XmlTagInfo

variable {R : MyXmlReader}

/-- `next_direct_child`: what lies deeper than a child is passed over. -/
def nextDirectChild (reader : R.State) (parent : XmlTagInfo) (names : List String) :
    Except String (Option XmlTagInfo × R.State) :=
  match _h : R.findAnyOfTheseNodesInsideParent reader parent names with
  | .error err => .error err
  | .ok (none, reader') => .ok (none, reader')
  | .ok (some found, reader') =>
    if found.level = parent.level + 1 then .ok (some found, reader')
    else nextDirectChild reader' parent names
termination_by R.remaining reader
decreasing_by exact R.find_advances _h

/-- The reader moves on, and behind what it hands out it has moved. -/
theorem nextDirectChild_advances {s s' : R.State} {parent : XmlTagInfo} {names : List String}
    {found : Option XmlTagInfo} (h : nextDirectChild s parent names = .ok (found, s')) :
    R.remaining s' + found.toList.length ≤ R.remaining s := by
  induction hn : R.remaining s using Nat.strongRecOn generalizing s with
  | ind n ih =>
    rw [nextDirectChild] at h
    split at h
    · cases h
    · rename_i hfind
      cases h
      exact hn ▸ R.find_ends hfind
    · rename_i tag reader hfind
      have hmoved := R.find_advances hfind
      split at h
      · cases h
        exact hn ▸ hmoved
      · exact Nat.le_trans (ih _ (hn ▸ hmoved) h rfl) (Nat.le_of_lt (hn ▸ hmoved))

namespace XmlWalker

/-- `XmlWalker::open`: positions the walker just inside the root. -/
def «open» (R : MyXmlReader) (body : Bytes) (rootName : String) :
    Except String (Option (XmlWalker R)) :=
  if isSafeToRead body then
    match R.fromSlice body with
    | .error err => .error err
    | .ok reader =>
      match R.findTheOpenNode reader rootName with
      | .error err => .error err
      | .ok (none, _) => .ok none
      | .ok (some root, reader) => .ok (some ⟨reader, root⟩)
  else .error "body is not XML this reader can be driven over safely"

/-- The next child of a node; a self-closing node has none. -/
def nextChildOf (w : XmlWalker R) (parent : XmlTagInfo) (names : List String) :
    Except String (Option XmlTagInfo × XmlWalker R) :=
  if parent.isSelfClosing then .ok (none, w)
  else (nextDirectChild w.reader parent names).map fun found =>
    (found.1, { w with reader := found.2 })

/-- The next child of the root. -/
def nextChild (w : XmlWalker R) (names : List String) :
    Except String (Option XmlTagInfo × XmlWalker R) :=
  w.nextChildOf w.root names

/-- Consumes a node and returns its text. -/
def readText (w : XmlWalker R) (node : XmlTagInfo) : Except String (String × XmlWalker R) :=
  match R.readTheWholeNode w.reader node with
  | .error err => .error err
  | .ok (node, reader) =>
    match node.innerContent with
    | none => .ok ("", { w with reader := reader })
    | some content =>
      match fromUtf8 content with
      | none => .error s!"<{node.name}> holds bytes that are not UTF-8"
      | some text => .ok (unescape text, { w with reader := reader })

/-- How much of the document is still ahead. -/
def remaining (w : XmlWalker R) : Nat := R.remaining w.reader

theorem nextChildOf_advances {w w' : XmlWalker R} {parent : XmlTagInfo} {names : List String}
    {found : Option XmlTagInfo} (h : w.nextChildOf parent names = .ok (found, w')) :
    w'.remaining + found.toList.length ≤ w.remaining := by
  unfold nextChildOf at h
  split at h
  · cases h
    exact Nat.le_refl _
  · cases hnext : nextDirectChild w.reader parent names with
    | error err => simp [hnext, Except.map] at h
    | ok next =>
      rw [hnext] at h
      cases h
      exact nextDirectChild_advances hnext

theorem readText_advances {w w' : XmlWalker R} {node : XmlTagInfo} {text : String}
    (h : w.readText node = .ok (text, w')) : w'.remaining ≤ w.remaining := by
  unfold readText at h
  split at h
  · cases h
  · rename_i hread
    split at h
    · cases h
      exact R.read_advances hread
    · split at h
      · cases h
      · cases h
        exact R.read_advances hread

end XmlWalker

end MyS3.Xml
