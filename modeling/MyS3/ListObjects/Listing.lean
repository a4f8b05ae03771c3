import MyS3.ListObjects.Parse
import MyS3.Xml.Structure

/-!
# What a listing states

The meaning of a `ListBucketResult` by its tree alone: direct children in document order,
whatever stands between them and however deep it nests.
-/

namespace MyS3.ListObjects

open Xml Forest

/-- The direct children of a name. -/
def childrenNamed (name : String) (element : XmlElement) : List XmlElement :=
  (elements element).filter fun child => child.label.name == name

/-- The text of the last direct child of a name. -/
def lastText (name : String) (element : XmlElement) : Option String :=
  ((childrenNamed name element).map elementText).getLast?

/-- The entry that a `Contents` states. -/
def entry (contents : XmlElement) : Option S3ObjectInfo := do
  let key ← lastText "Key" contents
  let lastModified ← lastText "LastModified" contents
  let size ← lastText "Size" contents
  let bytes ← parseU64 (trim size)
  return { key := key, size := bytes, lastModified := lastModified, etag := lastText "ETag" contents }

/-- The prefixes that a `CommonPrefixes` states. -/
def prefixes (commonPrefixes : XmlElement) : List String :=
  (childrenNamed "Prefix" commonPrefixes).map elementText

/-- A flag reads as set whatever the case of its letters. -/
def isTrue (value : String) : Bool := eqIgnoreAsciiCase (trim value) "true".toList

/-- Whether the page says that it is truncated, by its last word on it. -/
def isTruncated (root : XmlElement) : Bool := (lastText "IsTruncated" root).any isTrue

/-- The last token that is not empty. -/
def lastToken (root : XmlElement) : Option String :=
  (((childrenNamed "NextContinuationToken" root).map elementText).filter (· ≠ "")).getLast?

/-- A `Contents` that is no entry: a field is missing, or its size is no number. -/
def BrokenEntry (contents : XmlElement) : Prop :=
  lastText "Key" contents = none ∨ lastText "Size" contents = none ∨
    lastText "LastModified" contents = none ∨
    ∃ size ∈ lastText "Size" contents, parseU64 (trim size) = none

/-- A listing with a `Contents` that is no entry, or a `CommonPrefixes` without a prefix. -/
def Broken (root : XmlElement) : Prop :=
  (∃ contents ∈ childrenNamed "Contents" root, BrokenEntry contents) ∨
    ∃ commonPrefixes ∈ childrenNamed "CommonPrefixes" root,
      childrenNamed "Prefix" commonPrefixes = []

/-- A page that says what a listing states. -/
structure States (root : XmlElement) (page : S3ListObjectsPage) : Prop where
  objects : page.objects.map some = (childrenNamed "Contents" root).map entry
  commonPrefixes : page.commonPrefixes = (childrenNamed "CommonPrefixes" root).flatMap prefixes
  token : page.nextContinuationToken = if isTruncated root then lastToken root else none

/-- The root of a listing: the fields that are read hold nothing but text. -/
structure IsListing (root : XmlElement) : Prop where
  name : root.label.name = "ListBucketResult"
  isTruncated : ∀ child ∈ childrenNamed "IsTruncated" root, IsLeaf child
  token : ∀ child ∈ childrenNamed "NextContinuationToken" root, IsLeaf child
  fields : ∀ contents ∈ childrenNamed "Contents" root, ∀ name ∈ objectElements,
    ∀ field ∈ childrenNamed name contents, IsLeaf field
  prefixes : ∀ commonPrefixes ∈ childrenNamed "CommonPrefixes" root,
    ∀ child ∈ childrenNamed "Prefix" commonPrefixes, IsLeaf child

/-- The fields of an entry, each the last of its name. -/
def fieldsOf (contents : XmlElement) : ObjectFields :=
  ⟨lastText "Key" contents, lastText "Size" contents, lastText "LastModified" contents,
    lastText "ETag" contents⟩

/-- What one child of the root adds to the page. -/
def pageStep (parts : PageParts) (child : XmlElement) : Except S3Error PageParts :=
  match child.label.name with
  | "Contents" => (fieldsOf child).object.map fun object =>
      { parts with objects := parts.objects ++ [object] }
  | "CommonPrefixes" =>
    if prefixes child = [] then
      .error (.other "ListObjectsV2 sent a <CommonPrefixes> with no <Prefix> in it")
    else .ok { parts with commonPrefixes := parts.commonPrefixes ++ prefixes child }
  | "IsTruncated" => .ok { parts with isTruncated := isTrue (elementText child) }
  | "NextContinuationToken" =>
    .ok (if elementText child = "" then parts
      else { parts with nextContinuationToken := some (elementText child) })
  | _ => .ok parts

variable {names : List String} {element child contents root : XmlElement} {name : String}

theorem mem_wantedChildren (h : child ∈ wantedChildren names element) :
    child.label.name ∈ names ∧ child ∈ childrenNamed child.label.name element := by
  obtain ⟨hmem, hname⟩ := List.mem_filter.mp h
  exact ⟨List.contains_iff_mem.mp hname, List.mem_filter.mpr ⟨hmem, BEq.rfl⟩⟩

/-- Looking for several names finds the children of each. -/
theorem filter_wantedChildren (h : name ∈ names) :
    (wantedChildren names element).filter (fun child => child.label.name == name) =
      childrenNamed name element := by
  rw [wantedChildren, List.filter_filter, childrenNamed]
  apply List.filter_congr
  intro child _
  by_cases hname : child.label.name = name
  · subst hname
    simp [nameIn, h]
  · simp [hname]

theorem wantedChildren_singleton (name : String) (element : XmlElement) :
    wantedChildren [name] element = childrenNamed name element := by
  apply List.filter_congr
  intro child _
  simp only [nameIn, List.contains_cons, List.contains_nil, Bool.or_false]

/-- The last of several, or what was there before. -/
private theorem getLast?_cons_or {α : Type} (x : α) (xs : List α) (before : Option α) :
    (x :: xs).getLast?.or before = xs.getLast?.or (some x) := by
  cases xs with
  | nil => rfl
  | cons y ys => simp [List.getLast?_cons]

/-- A field that comes again replaces the one before. -/
private theorem set_eq (fields : ObjectFields) (name value : String) :
    fields.set name value =
      ⟨if name = "Key" then some value else fields.key,
        if name = "Size" then some value else fields.size,
        if name = "LastModified" then some value else fields.lastModified,
        if name = "ETag" then some value else fields.etag⟩ := by
  unfold ObjectFields.set
  split
  · rfl
  · rfl
  · rfl
  · rfl
  · rename_i hkey hsize hmodified hetag
    simp only [if_neg hkey, if_neg hsize, if_neg hmodified, if_neg hetag]

/-- The text of the last of the children of a name, or what was there before. -/
private def lastOf (name : String) (children : List XmlElement) (before : Option String) :
    Option String :=
  (((children.filter fun child => child.label.name == name).map elementText).getLast?).or before

private theorem lastOf_cons (name : String) (child : XmlElement) (children : List XmlElement)
    (before : Option String) :
    lastOf name (child :: children) before = lastOf name children
      (if child.label.name = name then some (elementText child) else before) := by
  unfold lastOf
  by_cases hname : child.label.name = name
  · rw [List.filter_cons_of_pos (by simpa using hname), List.map_cons, getLast?_cons_or,
      if_pos hname]
  · rw [List.filter_cons_of_neg (by simpa using hname), if_neg hname]

private theorem foldl_set (children : List XmlElement) (fields : ObjectFields) :
    children.foldl (fun fields child => fields.set child.label.name (elementText child)) fields =
      ⟨lastOf "Key" children fields.key, lastOf "Size" children fields.size,
        lastOf "LastModified" children fields.lastModified,
        lastOf "ETag" children fields.etag⟩ := by
  induction children generalizing fields with
  | nil => rfl
  | cons child children ih =>
    rw [List.foldl_cons, ih]
    simp only [set_eq, lastOf_cons]

/-- Reading the fields one after the other ends with the last of each name. -/
theorem foldl_fields (contents : XmlElement) :
    (wantedChildren objectElements contents).foldl
      (fun fields child => fields.set child.label.name (elementText child))
      ⟨none, none, none, none⟩ = fieldsOf contents := by
  have hlast : ∀ name ∈ objectElements,
      lastOf name (wantedChildren objectElements contents) none = lastText name contents := by
    intro name hname
    rw [lastOf, filter_wantedChildren hname, Option.or_none, lastText]
  rw [foldl_set, fieldsOf, hlast "Key" (by decide), hlast "Size" (by decide),
    hlast "LastModified" (by decide), hlast "ETag" (by decide)]

/-- Reading the prefixes one after the other ends with all of them. -/
theorem foldl_prefixes (commonPrefixes : XmlElement) :
    (wantedChildren ["Prefix"] commonPrefixes).foldl
      (fun dest child => dest ++ [elementText child]) [] = prefixes commonPrefixes := by
  rw [List.foldl_append_eq_append, List.nil_append, wantedChildren_singleton]
  exact List.map_eq_flatMap.symm

/-- The fields make the entry that is stated, or an error where none is. -/
theorem object_fieldsOf (contents : XmlElement) :
    match (fieldsOf contents).object with
    | .ok object => entry contents = some object
    | .error _ => entry contents = none := by
  unfold fieldsOf ObjectFields.object entry
  cases lastText "Key" contents with
  | none => rfl
  | some key =>
    cases lastText "LastModified" contents with
    | none => rfl
    | some lastModified =>
      cases lastText "Size" contents with
      | none => rfl
      | some size =>
        simp only [required, bind, Except.bind, Option.bind]
        cases parseU64 (trim size) with
        | none => rfl
        | some bytes => rfl

/-- There is no entry exactly where a field is missing or the size is no number. -/
theorem entry_eq_none_iff : entry contents = none ↔ BrokenEntry contents := by
  unfold entry BrokenEntry
  cases lastText "Key" contents with
  | none => simp
  | some key =>
    cases lastText "LastModified" contents with
    | none => simp
    | some lastModified =>
      cases lastText "Size" contents with
      | none => simp
      | some size => cases hparse : parseU64 (trim size) <;> simp [hparse]

/-- The children among these that have a name. -/
private def named (name : String) (children : List XmlElement) : List XmlElement :=
  children.filter fun child => child.label.name == name

private theorem named_append (name : String) (children children' : List XmlElement) :
    named name (children ++ children') = named name children ++ named name children' :=
  List.filter_append ..

/-- A page to which these children have been added. -/
private structure Added (children : List XmlElement) (parts parts' : PageParts) : Prop where
  objects : parts'.objects.map some =
    parts.objects.map some ++ (named "Contents" children).map entry
  commonPrefixes : parts'.commonPrefixes =
    parts.commonPrefixes ++ (named "CommonPrefixes" children).flatMap prefixes
  isTruncated : parts'.isTruncated =
    ((named "IsTruncated" children).map elementText).getLast?.elim parts.isTruncated isTrue
  token : parts'.nextContinuationToken =
    (((named "NextContinuationToken" children).map elementText).filter (· ≠ "")).getLast?.or
      parts.nextContinuationToken

/-- A child that can not be added. -/
private def Refused (child : XmlElement) : Prop :=
  child.label.name = "Contents" ∧ entry child = none ∨
    child.label.name = "CommonPrefixes" ∧ prefixes child = []

/-- One child is added, or it is refused. -/
private theorem pageStep_cases (hname : child.label.name ∈ pageElements) (parts : PageParts) :
    (∃ parts', pageStep parts child = .ok parts' ∧ Added [child] parts parts' ∧
        ¬ Refused child) ∨
      (∃ err, pageStep parts child = .error err) ∧ Refused child := by
  simp only [pageElements, List.mem_cons, List.not_mem_nil, or_false] at hname
  rcases hname with hname | hname | hname | hname
  · have hobject := object_fieldsOf child
    simp only [pageStep, hname]
    cases hfields : (fieldsOf child).object with
    | ok object =>
      rw [hfields] at hobject
      refine .inl ⟨_, rfl, ⟨?_, ?_, ?_, ?_⟩, ?_⟩ <;> simp [hname, hobject, named, Refused]
    | error err =>
      rw [hfields] at hobject
      exact .inr ⟨⟨err, rfl⟩, .inl ⟨hname, hobject⟩⟩
  · simp only [pageStep, hname]
    by_cases hempty : prefixes child = []
    · rw [if_pos hempty]
      exact .inr ⟨⟨_, rfl⟩, .inr ⟨hname, hempty⟩⟩
    · rw [if_neg hempty]
      refine .inl ⟨_, rfl, ⟨?_, ?_, ?_, ?_⟩, ?_⟩ <;> simp [hname, hempty, named, Refused]
  · simp only [pageStep, hname]
    refine .inl ⟨_, rfl, ⟨?_, ?_, ?_, ?_⟩, ?_⟩ <;> simp [hname, named, Refused]
  · simp only [pageStep, hname]
    refine .inl ⟨_, rfl, ⟨?_, ?_, ?_, ?_⟩, ?_⟩
    all_goals by_cases hempty : elementText child = "" <;> simp [hname, hempty, named, Refused]

private theorem getLast?_append_or {α : Type} (xs ys : List α) (before : Option α) :
    (xs ++ ys).getLast?.or before = ys.getLast?.or (xs.getLast?.or before) := by
  rw [List.getLast?_append, Option.or_assoc]

private theorem Added.trans {children children' : List XmlElement}
    {parts parts' parts'' : PageParts} (h : Added children parts parts')
    (h' : Added children' parts' parts'') : Added (children ++ children') parts parts'' := by
  refine ⟨?_, ?_, ?_, ?_⟩
  · rw [h'.objects, h.objects, named_append, List.map_append, List.append_assoc]
  · rw [h'.commonPrefixes, h.commonPrefixes, named_append, List.flatMap_append,
      List.append_assoc]
  · rw [h'.isTruncated, h.isTruncated, named_append, List.map_append, List.getLast?_append]
    cases ((named "IsTruncated" children').map elementText).getLast? <;> rfl
  · rw [h'.token, h.token, named_append, List.map_append, List.filter_append,
      getLast?_append_or]

/-- The children are added one after the other, or one of them is refused. -/
private theorem foldlM_cases {children : List XmlElement}
    (hnames : ∀ child ∈ children, child.label.name ∈ pageElements) (parts : PageParts) :
    (∃ parts', children.foldlM pageStep parts = .ok parts' ∧ Added children parts parts' ∧
        ∀ child ∈ children, ¬ Refused child) ∨
      (∃ err, children.foldlM pageStep parts = .error err) ∧
        ∃ child ∈ children, Refused child := by
  induction children generalizing parts with
  | nil =>
    refine .inl ⟨parts, rfl, ⟨?_, ?_, ?_, ?_⟩, by simp⟩ <;> simp [named]
  | cons child children ih =>
    have hrest := fun child h => hnames child (List.mem_cons_of_mem _ h)
    rcases pageStep_cases (hnames child List.mem_cons_self) parts with
      ⟨parts₁, hstep, hadded, hnot⟩ | ⟨⟨err, hstep⟩, hrefused⟩
    · rw [List.foldlM_cons, hstep]
      rcases ih hrest parts₁ with ⟨parts', hfold, hadded', hnone⟩ | ⟨⟨err, hfold⟩, c, hc, hrefused⟩
      · refine .inl ⟨parts', hfold, hadded.trans hadded', fun c hc => ?_⟩
        rcases List.mem_cons.mp hc with rfl | hc
        · exact hnot
        · exact hnone c hc
      · exact .inr ⟨⟨err, hfold⟩, c, List.mem_cons_of_mem _ hc, hrefused⟩
    · rw [List.foldlM_cons, hstep]
      exact .inr ⟨⟨err, rfl⟩, child, List.mem_cons_self, hrefused⟩

/-- A refused child makes a broken listing. -/
private theorem exists_refused_iff {root : XmlElement} :
    (∃ child ∈ wantedChildren pageElements root, Refused child) ↔ Broken root := by
  have hmem : ∀ {name : String} {child : XmlElement}, name ∈ pageElements →
      child ∈ childrenNamed name root →
        child ∈ wantedChildren pageElements root ∧ child.label.name = name := by
    intro name child hname hchild
    rw [← filter_wantedChildren hname] at hchild
    obtain ⟨hwanted, heq⟩ := List.mem_filter.mp hchild
    exact ⟨hwanted, beq_iff_eq.mp heq⟩
  constructor
  · rintro ⟨child, hchild, ⟨hname, hentry⟩ | ⟨hname, hprefixes⟩⟩
    · have hdirect := (mem_wantedChildren hchild).2
      exact .inl ⟨child, hname ▸ hdirect, entry_eq_none_iff.mp hentry⟩
    · have hdirect := (mem_wantedChildren hchild).2
      exact .inr ⟨child, hname ▸ hdirect, List.map_eq_nil_iff.mp hprefixes⟩
  · rintro (⟨child, hchild, hbroken⟩ | ⟨child, hchild, hempty⟩)
    · obtain ⟨hwanted, hname⟩ := hmem (by decide) hchild
      exact ⟨child, hwanted, .inl ⟨hname, entry_eq_none_iff.mpr hbroken⟩⟩
    · obtain ⟨hwanted, hname⟩ := hmem (by decide) hchild
      exact ⟨child, hwanted, .inr ⟨hname, List.map_eq_nil_iff.mpr hempty⟩⟩

/-- Added up child by child, a listing comes to what it states, or it is broken. -/
theorem foldlM_root (root : XmlElement) :
    (∃ parts, (wantedChildren pageElements root).foldlM pageStep ⟨[], [], false, none⟩ =
        .ok parts ∧ ¬ Broken root ∧
        States root ⟨parts.commonPrefixes, parts.objects,
          if parts.isTruncated then parts.nextContinuationToken else none⟩ ∧
        parts.isTruncated = isTruncated root ∧ parts.nextContinuationToken = lastToken root) ∨
      (∃ err, (wantedChildren pageElements root).foldlM pageStep ⟨[], [], false, none⟩ =
        .error err) ∧ Broken root := by
  have hnamed : ∀ name ∈ pageElements,
      named name (wantedChildren pageElements root) = childrenNamed name root :=
    fun name hname => filter_wantedChildren hname
  rcases foldlM_cases (fun child hchild => (mem_wantedChildren hchild).1)
      (⟨[], [], false, none⟩ : PageParts) with ⟨parts, hfold, hadded, hnone⟩ | ⟨herr, hrefused⟩
  · have htruncated : parts.isTruncated = isTruncated root := by
      rw [hadded.isTruncated, hnamed _ (by decide), isTruncated, lastText]
      cases ((childrenNamed "IsTruncated" root).map elementText).getLast? <;> rfl
    have htoken : parts.nextContinuationToken = lastToken root := by
      rw [hadded.token, hnamed _ (by decide), Option.or_none, lastToken]
    refine .inl ⟨parts, hfold, fun hbroken => ?_, ⟨?_, ?_, ?_⟩, htruncated, htoken⟩
    · obtain ⟨child, hchild, hrefused⟩ := exists_refused_iff.mpr hbroken
      exact hnone child hchild hrefused
    · rw [hadded.objects, hnamed _ (by decide)]
      rfl
    · rw [hadded.commonPrefixes, hnamed _ (by decide)]
      rfl
    · simp only [htruncated, htoken]
  · exact .inr ⟨herr, exists_refused_iff.mp hrefused⟩

end MyS3.ListObjects
