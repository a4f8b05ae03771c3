import MyS3.ListObjects.Listing
import MyS3.Xml.PullReader

/-!
# A listing is read by its structure

The three loops share one cursor. Each of them reads the children that it is after, leaves
the cursor behind its parent, and so adds up to what the document states.
-/

namespace MyS3.ListObjects

open Xml Forest

variable {R : MyXmlReader} {At : R.State → Position XmlTag CharData → Prop}
  {w w' w'' : XmlWalker R} {info info' : XmlTagInfo} {ahead : List XmlEvent}
  {children : List XmlElement} {child root : XmlElement} {level : Nat} {parts : PageParts}

/-- A loop over the texts of an element takes every wanted child, and nothing of another. -/
private theorem IsTextLoop.inside {α : Type} {names : List String}
    {add : α → String → String → α} {loop : XmlWalker R → α → Except S3Error (α × XmlWalker R)}
    (hR : R.ByStructure At) (hloop : IsTextLoop info names add loop)
    (h : Inside At names w info children ahead level) (hleaf : ∀ field ∈ children, IsLeaf field)
    (read : α) :
    ∃ w', loop w read =
        .ok (children.foldl (fun read child => add read child.label.name (elementText child)) read,
          w') ∧
      w'.root = w.root ∧ At w'.reader ⟨ahead, level⟩ := by
  induction children generalizing w read with
  | nil =>
    obtain ⟨w', hnext, hroot, hat⟩ := h.nil hR
    refine ⟨w', ?_, hroot, hat⟩
    rw [hloop, hnext]
    rfl
  | cons field children ih =>
    obtain ⟨fieldInfo, w₁, siblings, hnext, hroot₁, hfield, hat₁, hinside⟩ := h.cons hR
    obtain ⟨w₂, hread, hroot₂, hat₂⟩ :=
      readText_reads hR (hleaf field List.mem_cons_self) hfield hat₁
    obtain ⟨w', hrest, hroot, hat'⟩ := ih (hinside w₂ hat₂)
      (fun field h => hleaf field (List.mem_cons_of_mem _ h))
      (add read field.label.name (elementText field))
    refine ⟨w', ?_, hroot.trans (hroot₂.trans hroot₁), hat'⟩
    rw [hloop, hnext]
    simp only [hread, hfield.name]
    exact hrest

private theorem readPage_none (h : w.nextChild pageElements = .ok (none, w')) :
    readPage w parts = .ok parts := by
  rw [readPage]
  split
  · rename_i hnext
    cases h.symm.trans hnext
  · rfl
  · rename_i hnext
    cases h.symm.trans hnext

private theorem readPage_some (h : w.nextChild pageElements = .ok (some info, w')) :
    readPage w parts =
      (readPageElement w' info parts).bind fun read => readPage read.2 read.1 := by
  rw [readPage]
  split
  · rename_i hnext
    cases h.symm.trans hnext
  · rename_i hnext
    cases h.symm.trans hnext
  · rename_i hnext
    cases h.symm.trans hnext
    split
    · rename_i hread
      rw [hread]
      rfl
    · rename_i hread
      rw [hread]
      rfl

/-- The fields of a child of the root that are read are leaves. -/
private structure Readable (child : XmlElement) : Prop where
  fields : child.label.name = "Contents" →
    ∀ field ∈ wantedChildren objectElements child, IsLeaf field
  prefixes : child.label.name = "CommonPrefixes" →
    ∀ field ∈ wantedChildren ["Prefix"] child, IsLeaf field
  scalar : child.label.name = "IsTruncated" ∨ child.label.name = "NextContinuationToken" →
    IsLeaf child

private theorem IsListing.readable (h : IsListing root)
    (hchild : child ∈ wantedChildren pageElements root) : Readable child := by
  obtain ⟨-, hmem⟩ := mem_wantedChildren hchild
  refine ⟨fun hname field hfield => ?_, fun hname field hfield => ?_, fun hname => ?_⟩
  · obtain ⟨hwanted, hfield⟩ := mem_wantedChildren hfield
    exact h.fields child (hname ▸ hmem) _ hwanted field hfield
  · obtain ⟨hwanted, hfield⟩ := mem_wantedChildren hfield
    rw [List.mem_singleton.mp hwanted] at hfield
    exact h.prefixes child (hname ▸ hmem) field hfield
  · rcases hname with hname | hname
    · exact h.isTruncated child (hname ▸ hmem)
    · exact h.token child (hname ▸ hmem)

/-- One child of the root is read up to its end, and adds to the page what it states. -/
private theorem readPageElement_behind (hR : R.ByStructure At)
    (hname : child.label.name ∈ pageElements) (hreadable : Readable child)
    (hinfo : Describes info child.label child.inner.isSome (level + 1))
    (hat : At w.reader (child.behind level ahead)) (parts : PageParts) :
    ∃ w', readPageElement w info parts = (pageStep parts child).map (fun parts => (parts, w')) ∧
      w'.root = w.root ∧ At w'.reader ⟨ahead, level⟩ := by
  simp only [pageElements, List.mem_cons, List.not_mem_nil, or_false] at hname
  rcases hname with hname | hname | hname | hname
  · obtain ⟨w', hloop, hroot, hat'⟩ := (isTextLoop_readFields info).inside hR
      (inside_of_behind objectElements hinfo hat) (hreadable.fields hname) ⟨none, none, none, none⟩
    refine ⟨w', ?_, hroot, hat'⟩
    rw [foldl_fields] at hloop
    simp only [readPageElement, pageStep, hinfo.name, hname, readObject, hloop, bind, Except.bind]
    cases (fieldsOf child).object <;> rfl
  · obtain ⟨w', hloop, hroot, hat'⟩ := (isTextLoop_readPrefixes info).inside hR
      (inside_of_behind ["Prefix"] hinfo hat) (hreadable.prefixes hname) []
    refine ⟨w', ?_, hroot, hat'⟩
    rw [foldl_prefixes] at hloop
    simp only [readPageElement, pageStep, hinfo.name, hname, readCommonPrefixes, hloop, bind,
      Except.bind]
    by_cases hempty : prefixes child = []
    · simp only [hempty, if_true]
      rfl
    · simp only [hempty, if_false]
      rfl
  · obtain ⟨w', hread, hroot, hat'⟩ := readText_reads hR (hreadable.scalar (.inl hname)) hinfo hat
    refine ⟨w', ?_, hroot, hat'⟩
    simp only [readPageElement, pageStep, hinfo.name, hname, hread, Except.mapError, bind,
      Except.bind]
    rfl
  · obtain ⟨w', hread, hroot, hat'⟩ := readText_reads hR (hreadable.scalar (.inr hname)) hinfo hat
    refine ⟨w', ?_, hroot, hat'⟩
    simp only [readPageElement, pageStep, hinfo.name, hname, hread, Except.mapError, bind,
      Except.bind]
    rfl

/-- The loop over the page takes every child of the root. -/
private theorem readPage_inside (hR : R.ByStructure At)
    (h : Inside At pageElements w w.root children ahead level)
    (hreadable : ∀ child ∈ children, child.label.name ∈ pageElements ∧ Readable child)
    (parts : PageParts) : readPage w parts = children.foldlM pageStep parts := by
  induction children generalizing w parts with
  | nil =>
    obtain ⟨w', hnext, -, -⟩ := h.nil hR
    rw [readPage_none hnext]
    rfl
  | cons child children ih =>
    obtain ⟨info, w₁, siblings, hnext, hroot₁, hinfo, hat₁, hinside⟩ := h.cons hR
    obtain ⟨hname, hchild⟩ := hreadable child List.mem_cons_self
    obtain ⟨w₂, hread, hroot₂, hat₂⟩ := readPageElement_behind hR hname hchild hinfo hat₁ parts
    rw [readPage_some hnext, hread, List.foldlM_cons]
    cases hstep : pageStep parts child with
    | error err => rfl
    | ok parts' =>
      have hinside₂ := hinside w₂ hat₂
      rw [← hroot₁, ← hroot₂] at hinside₂
      exact ih hinside₂ (fun child h => hreadable child (List.mem_cons_of_mem _ h)) parts'

/-- What is read of a listing is what its tree states, child by child. -/
theorem parseListObjectsV2_eq (hR : R.ByStructure At) (document : XmlDocument)
    (hlisting : IsListing document.root) :
    parseListObjectsV2 R document.bytes =
      ((wantedChildren pageElements document.root).foldlM pageStep ⟨[], [], false, none⟩).bind
        PageParts.page := by
  obtain ⟨w, depth, hopen, hroot, hat⟩ := open_reads hR document
  have hinside := inside_of_behind pageElements hroot hat
  have hpage := readPage_inside hR hinside
    (fun child h => ⟨(mem_wantedChildren h).1, hlisting.readable h⟩) ⟨[], [], false, none⟩
  rw [hlisting.name] at hopen
  simp only [parseListObjectsV2, hopen, hpage]
  rfl

/-- What is read is the page that a listing states; it is refused exactly where it is broken,
or truncated without a token to go on from. -/
theorem parse_cases (hR : R.ByStructure At) (document : XmlDocument)
    (hlisting : IsListing document.root) :
    (∃ page, parseListObjectsV2 R document.bytes = .ok page ∧ States document.root page ∧
        ¬ Broken document.root ∧
        (isTruncated document.root = true → lastToken document.root ≠ none)) ∨
      (∃ err, parseListObjectsV2 R document.bytes = .error err) ∧
        (Broken document.root ∨
          isTruncated document.root = true ∧ lastToken document.root = none) := by
  rw [parseListObjectsV2_eq hR document hlisting]
  rcases foldlM_root document.root with
    ⟨parts, hfold, hwhole, hstates, htruncated, htoken⟩ | ⟨⟨err, hfold⟩, hbroken⟩
  · rw [hfold]
    simp only [Except.bind, PageParts.page, htruncated]
    rw [htruncated] at hstates
    by_cases hpage : isTruncated document.root = true
    · cases hlast : parts.nextContinuationToken with
      | none =>
        rw [htoken] at hlast
        exact .inr ⟨⟨_, if_pos hpage⟩, .inr ⟨hpage, hlast⟩⟩
      | some token =>
        rw [hlast, if_pos hpage] at hstates
        rw [htoken] at hlast
        refine .inl ⟨_, if_pos hpage, hstates, hwhole, fun _ hnone => ?_⟩
        cases hlast.symm.trans hnone
    · rw [if_neg hpage] at hstates
      exact .inl ⟨_, if_neg hpage, hstates, hwhole, fun h => absurd h hpage⟩
  · exact .inr ⟨⟨err, by rw [hfold]; rfl⟩, .inl hbroken⟩

/-- A listing is read by structure alone: the entries, prefixes and token are those of the
direct children, in document order, and the page is refused exactly where one of them is
missing what it has to have. -/
theorem listing_read_by_structure (hR : R.ByStructure At) (document : XmlDocument)
    (hlisting : IsListing document.root) :
    (∀ page, parseListObjectsV2 R document.bytes = .ok page →
      page.objects.map some = (childrenNamed "Contents" document.root).map entry ∧
      page.commonPrefixes = (childrenNamed "CommonPrefixes" document.root).flatMap prefixes ∧
      page.nextContinuationToken.isSome = isTruncated document.root ∧
      ∀ token, page.nextContinuationToken = some token →
        lastToken document.root = some token) ∧
    ((∃ err, parseListObjectsV2 R document.bytes = .error err) ↔
      (∃ contents ∈ childrenNamed "Contents" document.root,
        lastText "Key" contents = none ∨ lastText "Size" contents = none ∨
          lastText "LastModified" contents = none ∨
          ∃ size ∈ lastText "Size" contents, parseU64 (trim size) = none) ∨
      (∃ commonPrefixes ∈ childrenNamed "CommonPrefixes" document.root,
        childrenNamed "Prefix" commonPrefixes = []) ∨
      isTruncated document.root = true ∧ lastToken document.root = none) := by
  rcases parse_cases hR document hlisting with
    ⟨page, hpage, hstates, hwhole, htoken⟩ | ⟨⟨err, herr⟩, hcause⟩
  · constructor
    · intro page' hpage'
      cases hpage.symm.trans hpage'
      refine ⟨hstates.objects, hstates.commonPrefixes, ?_, ?_⟩
      · rw [hstates.token]
        by_cases htruncated : isTruncated document.root = true
        · rw [if_pos htruncated, htruncated]
          exact Option.isSome_iff_ne_none.mpr (htoken htruncated)
        · rw [if_neg htruncated, Bool.eq_false_iff.mpr htruncated]
          rfl
      · intro token hsome
        rw [hstates.token] at hsome
        split at hsome
        · exact hsome
        · cases hsome
    · constructor
      · rintro ⟨err, herr⟩
        cases hpage.symm.trans herr
      · rintro (hentry | hmissing | ⟨htruncated, hnone⟩)
        · exact absurd (.inl hentry) hwhole
        · exact absurd (.inr hmissing) hwhole
        · exact absurd hnone (htoken htruncated)
  · constructor
    · intro page hpage
      cases herr.symm.trans hpage
    · constructor
      · intro _
        rcases hcause with (hentry | hmissing) | hnone
        · exact .inl hentry
        · exact .inr (.inl hmissing)
        · exact .inr (.inr hnone)
      · intro _
        exact ⟨err, herr⟩

/-- The tags of a listing, without attributes. -/
def listTag : XmlTag := .plain "ListBucketResult" (by decide)

def contentsTag : XmlTag := .plain "Contents" (by decide)

def commonPrefixesTag : XmlTag := .plain "CommonPrefixes" (by decide)

def ownerTag : XmlTag := .plain "Owner" (by decide)

def isTruncatedTag : XmlTag := .plain "IsTruncated" (by decide)

def tokenTag : XmlTag := .plain "NextContinuationToken" (by decide)

def keyTag : XmlTag := .plain "Key" (by decide)

def sizeTag : XmlTag := .plain "Size" (by decide)

def lastModifiedTag : XmlTag := .plain "LastModified" (by decide)

def prefixTag : XmlTag := .plain "Prefix" (by decide)

/-- A listing with fields of an entry buried in an owner, and an owner in front of it that
holds an entry of its own. -/
def buriedListing : XmlDocument where
  head := "<?xml?>"
  prolog := ⟨[bytesOf "<?xml?>"], by decide, by decide⟩
  trailer := ⟨"\n", by decide⟩
  root := ⟨listTag, some
    (.branch ownerTag
      (.branch contentsTag (textField keyTag ⟨"owner-key", by decide⟩ .nil) .nil)
    (.branch contentsTag
      (.branch ownerTag (textField keyTag ⟨"owner-key", by decide⟩ .nil)
      (textField keyTag ⟨"real-key", by decide⟩
      (textField lastModifiedTag ⟨"t", by decide⟩
      (textField sizeTag ⟨" 5", by decide⟩ .nil))))
    (textField isTruncatedTag ⟨"True", by decide⟩
    (textField tokenTag ⟨"page/2", by decide⟩
    (.branch commonPrefixesTag (textField prefixTag ⟨"a &amp; b/", by decide⟩ .nil)
    (.leaf tokenTag .nil))))))⟩

theorem listing_read_by_structure_buried :
    parseListObjectsV2 pullReader buriedListing.bytes =
      .ok ⟨["a & b/"], [⟨"real-key", 5, "t", none⟩], some "page/2"⟩ := by
  have hlisting : IsListing buriedListing.root :=
    ⟨by decide, by decide +kernel, by decide +kernel, by decide +kernel, by decide +kernel⟩
  obtain ⟨hok, herr⟩ :=
    listing_read_by_structure pullReader_byStructure buriedListing hlisting
  cases hparse : parseListObjectsV2 pullReader buriedListing.bytes with
  | error err => exact absurd (herr.mp ⟨err, hparse⟩) (by decide +kernel)
  | ok page =>
    obtain ⟨commonPrefixes, objects, token⟩ := page
    obtain ⟨hobjects, hprefixes, htruncated, htoken⟩ := hok _ hparse
    have hentries : (childrenNamed "Contents" buriedListing.root).map entry =
        [⟨"real-key", 5, "t", none⟩].map some := by decide +kernel
    have hlast : lastToken buriedListing.root = some "page/2" := by decide +kernel
    have hflatMap : (childrenNamed "CommonPrefixes" buriedListing.root).flatMap prefixes =
        ["a & b/"] := by decide +kernel
    have hsome : token.isSome = true := htruncated.trans (by decide +kernel)
    obtain ⟨text, htext⟩ := Option.isSome_iff_exists.mp hsome
    have hpage := (htoken text htext).symm.trans hlast
    have hobjects' : objects = [⟨"real-key", 5, "t", none⟩] :=
      List.map_injective_iff.mpr (fun _ _ => Option.some.inj) (hobjects.trans hentries)
    have hprefixes' : commonPrefixes = ["a & b/"] := hprefixes.trans hflatMap
    rw [hobjects', hprefixes', htext.trans hpage]

end MyS3.ListObjects
