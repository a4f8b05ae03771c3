import MyS3.Core.Forest
import MyS3.Xml.Grammar

/-!
# Documents as trees

Tags with a valid name, text without a `<`, and the document that a tree is written as. The
scan accepts every one of these.
-/

namespace MyS3.Xml

open Forest

/-- The bytes that end a name and may stand in front of attributes. -/
def isSpace (b : UInt8) : Bool := b == 0x20 || b == 0x09 || b == 0x0A || b == 0x0D

/-- The bytes of a name. -/
def isNameByte (b : UInt8) : Bool := !isSpace b && b != slash && b != lt && b != gt

/-- Some bytes of a name, the first of which begins no declaration. -/
def ValidName (name : Bytes) : Prop :=
  name ≠ [] ∧ name.all isNameByte = true ∧ name.head? ≠ some 0x3F ∧ name.head? ≠ some 0x21

/-- Nothing, or a space and whatever does not end the tag or close it. -/
def ValidAttributes (attributes : Bytes) : Prop :=
  attributes.head?.all isSpace = true ∧ gt ∉ attributes ∧ attributes.getLast? ≠ some slash

instance (name : Bytes) : Decidable (ValidName name) :=
  inferInstanceAs (Decidable (_ ∧ _ ∧ _ ∧ _))

instance (attributes : Bytes) : Decidable (ValidAttributes attributes) :=
  inferInstanceAs (Decidable (_ ∧ _ ∧ _))

/-- The tag of an element. -/
structure XmlTag where
  name : String
  attributes : String
  validName : ValidName (bytesOf name)
  validAttributes : ValidAttributes (bytesOf attributes)

/-- Text between tags. -/
abbrev CharData : Type := { text : String // lt ∉ bytesOf text }

/-- What is inside an element. -/
abbrev XmlContent : Type := Forest XmlTag CharData

abbrev XmlElement : Type := Child XmlTag CharData

abbrev XmlEvent : Type := Event XmlTag CharData

namespace XmlTag

/-- A tag without attributes. -/
def plain (name : String) (validName : ValidName (bytesOf name)) : XmlTag :=
  ⟨name, "", validName, by decide⟩

/-- The inside of an opening tag. -/
def opening (tag : XmlTag) : Bytes := bytesOf tag.name ++ bytesOf tag.attributes

/-- The inside of a self-closing tag. -/
def selfClosing (tag : XmlTag) : Bytes := tag.opening ++ [slash]

/-- The inside of a closing tag. -/
def closing (tag : XmlTag) : Bytes := slash :: bytesOf tag.name

end XmlTag

/-- An element with text in it, and what stands behind it. -/
def textField (tag : XmlTag) (text : CharData) (rest : XmlContent) : XmlContent :=
  .branch tag (.text text .nil) rest

/-- An event as it stands in the document. -/
def eventBytes : XmlEvent → Bytes
  | .text t => bytesOf t.1
  | .leaf tag => tagOf tag.selfClosing
  | .enter tag => tagOf tag.opening
  | .leave tag => tagOf tag.closing

/-- Events, one behind the other. -/
def eventsBytes (events : List XmlEvent) : Bytes := events.flatMap eventBytes

@[simp] theorem eventsBytes_nil : eventsBytes [] = [] := rfl

@[simp] theorem eventsBytes_cons (event : XmlEvent) (events : List XmlEvent) :
    eventsBytes (event :: events) = eventBytes event ++ eventsBytes events := rfl

@[simp] theorem eventsBytes_append (events events' : List XmlEvent) :
    eventsBytes (events ++ events') = eventsBytes events ++ eventsBytes events' :=
  List.flatMap_append

/-- Text and declarations, which stand in front of the root. -/
def Prolog (head : Bytes) : Prop :=
  ∃ ts, tags head = some ts ∧ ∀ t ∈ ts, tagKind t = .declaration

/-- A document: a prolog, one root element, and text behind it. -/
structure XmlDocument where
  head : String
  root : XmlElement
  trailer : CharData
  prolog : Prolog (bytesOf head)

/-- The event that begins an element. -/
def firstEvent (element : XmlElement) : XmlEvent :=
  if element.inner.isSome then .enter element.label else .leaf element.label

namespace XmlDocument

/-- The document as it is sent. -/
def bytes (document : XmlDocument) : Bytes :=
  bytesOf document.head ++
    eventsBytes (firstEvent document.root :: (document.root.pending ++ [.text document.trailer]))

end XmlDocument

section Text

/-- The bytes of some text. -/
def IsText (bytes : Bytes) : Prop := ∃ text : String, bytesOf text = bytes

theorem bytesOf_append (a b : String) : bytesOf (a ++ b) = bytesOf a ++ bytesOf b := by
  simp only [bytesOf, String.toByteArray_append, ByteArray.data_append, Array.toList_append]

theorem isText_bytesOf (text : String) : IsText (bytesOf text) := ⟨text, rfl⟩

theorem IsText.append {a b : Bytes} (ha : IsText a) (hb : IsText b) : IsText (a ++ b) := by
  obtain ⟨s, rfl⟩ := ha
  obtain ⟨t, rfl⟩ := hb
  exact ⟨s ++ t, bytesOf_append s t⟩

theorem bytesOf_eq_flatMap (text : String) :
    bytesOf text = text.toList.flatMap String.utf8EncodeChar := by
  rw [bytesOf, ← String.utf8Encode_toList, List.utf8Encode, List.data_toByteArray]

theorem isText_flatMap (chars : List Char) : IsText (chars.flatMap String.utf8EncodeChar) :=
  ⟨String.ofList chars, by rw [bytesOf_eq_flatMap, String.toList_ofList]⟩

/-- A character is one byte below `0x80`, or some bytes from there on. -/
private theorem utf8EncodeChar_cases (c : Char) :
    (∃ b, String.utf8EncodeChar c = [b]) ∨ ∀ b ∈ String.utf8EncodeChar c, ¬b < 0x80 := by
  have hbyte : ∀ n : Nat, 128 ≤ n → n < 256 → ¬UInt8.ofNat n < 0x80 := by
    intro n hle hlt h
    rw [UInt8.lt_iff_toNat_lt, UInt8.toNat_ofNat', Nat.mod_eq_of_lt hlt] at h
    exact absurd h (Nat.not_lt.mpr hle)
  rw [String.utf8EncodeChar]
  split
  · exact .inl ⟨_, rfl⟩
  · right
    split
    · simp only [List.forall_mem_cons, List.not_mem_nil, false_implies, implies_true, and_true]
      exact ⟨hbyte _ (by omega) (by omega), hbyte _ (by omega) (by omega)⟩
    · split
      · simp only [List.forall_mem_cons, List.not_mem_nil, false_implies, implies_true, and_true]
        exact ⟨hbyte _ (by omega) (by omega), hbyte _ (by omega) (by omega),
          hbyte _ (by omega) (by omega)⟩
      · simp only [List.forall_mem_cons, List.not_mem_nil, false_implies, implies_true, and_true]
        exact ⟨hbyte _ (by omega) (by omega), hbyte _ (by omega) (by omega),
          hbyte _ (by omega) (by omega), hbyte _ (by omega) (by omega)⟩

/-- Text cut at an ASCII byte is text on both sides. -/
theorem IsText.split {xs ys : Bytes} {b : UInt8} (h : IsText (xs ++ b :: ys)) (hb : b < 0x80) :
    IsText xs ∧ IsText ys := by
  obtain ⟨text, htext⟩ := h
  rw [bytesOf_eq_flatMap] at htext
  generalize text.toList = chars at htext
  induction chars generalizing xs with
  | nil => simp at htext
  | cons c chars ih =>
    rw [List.flatMap_cons] at htext
    have hc : IsText (String.utf8EncodeChar c) := by
      simpa only [List.flatMap_singleton] using isText_flatMap [c]
    rcases List.append_eq_append_iff.mp htext with ⟨mid, rfl, hrest⟩ | ⟨mid, henc, hrest⟩
    · obtain ⟨hmid, hys⟩ := ih hrest
      exact ⟨hc.append hmid, hys⟩
    · cases mid with
      | nil =>
        rw [List.append_nil] at henc
        obtain ⟨-, hys⟩ : IsText [] ∧ IsText ys := ih hrest.symm
        exact ⟨henc ▸ hc, hys⟩
      | cons first mid =>
        rw [List.cons_append, List.cons.injEq] at hrest
        obtain ⟨rfl, hys⟩ := hrest
        rcases utf8EncodeChar_cases c with ⟨b', hone⟩ | hlarge
        · rw [hone, List.singleton_eq_append_iff] at henc
          rcases henc with ⟨rfl, hmid⟩ | ⟨-, hmid⟩
          · cases hmid
            exact ⟨isText_flatMap [], hys ▸ isText_flatMap chars⟩
          · cases hmid
        · exact absurd hb (hlarge b (henc ▸ List.mem_append_right xs List.mem_cons_self))

/-- Text that begins another byte by byte begins it character by character. -/
theorem toList_isPrefix_of_bytesOf {a b : String} (h : bytesOf a <+: bytesOf b) :
    a.toList <+: b.toList := by
  obtain ⟨rest, hrest⟩ := h
  refine List.isPrefix_of_utf8Encode_append_eq_utf8Encode ⟨rest.toArray⟩ ?_
  rw [String.utf8Encode_toList, String.utf8Encode_toList]
  apply ByteArray.ext
  apply Array.toList_inj.mp
  simpa only [ByteArray.data_append, Array.toList_append, bytesOf] using hrest

theorem IsText.tagOf {inner : Bytes} (h : IsText inner) : IsText (tagOf inner) :=
  IsText.append (IsText.append (a := [lt]) ⟨"<", by decide⟩ h) ⟨">", by decide⟩

theorem isText_eventBytes (event : XmlEvent) : IsText (eventBytes event) := by
  have hslash : IsText [slash] := ⟨"/", by decide⟩
  cases event with
  | text t => exact isText_bytesOf _
  | leaf tag =>
    exact (((isText_bytesOf _).append (isText_bytesOf _)).append hslash).tagOf
  | enter tag => exact ((isText_bytesOf _).append (isText_bytesOf _)).tagOf
  | leave tag => exact (hslash.append (isText_bytesOf _)).tagOf

theorem isText_eventsBytes (events : List XmlEvent) : IsText (eventsBytes events) := by
  induction events with
  | nil => exact ⟨"", by decide⟩
  | cons event events ih => exact (isText_eventBytes event).append ih

end Text

section Kinds

variable (tag : XmlTag)

private theorem head_opening :
    ∃ b rest, tag.opening = b :: rest ∧ isNameByte b = true ∧ b ≠ 0x3F ∧ b ≠ 0x21 := by
  obtain ⟨hne, hall, hquestion, hbang⟩ := tag.validName
  unfold XmlTag.opening
  cases hname : bytesOf tag.name with
  | nil => exact absurd hname hne
  | cons b rest =>
    rw [hname] at hall hquestion hbang
    rw [List.all_eq_true] at hall
    refine ⟨b, _, rfl, hall b List.mem_cons_self, fun h => ?_, fun h => ?_⟩
    · exact hquestion (by rw [h]; rfl)
    · exact hbang (by rw [h]; rfl)

private theorem isNameByte_ne {b c : UInt8} (hb : isNameByte b = true)
    (hc : isNameByte c = false) : b ≠ c := by
  rintro rfl
  exact absurd (hb.symm.trans hc) (by decide)

theorem gt_notMem_name : gt ∉ bytesOf tag.name := fun h =>
  isNameByte_ne (List.all_eq_true.mp tag.validName.2.1 gt h) (by decide) rfl

theorem gt_notMem_opening : gt ∉ tag.opening := by
  rw [XmlTag.opening, List.mem_append, not_or]
  exact ⟨gt_notMem_name tag, tag.validAttributes.2.1⟩

theorem gt_notMem_selfClosing : gt ∉ tag.selfClosing := by
  rw [XmlTag.selfClosing, List.mem_append, not_or]
  exact ⟨gt_notMem_opening tag, by decide⟩

theorem gt_notMem_closing : gt ∉ tag.closing := by
  rw [XmlTag.closing, List.mem_cons, not_or]
  exact ⟨by decide, gt_notMem_name tag⟩

private theorem not_declaration {inner : Bytes} {b : UInt8} {rest : Bytes}
    (h : inner = b :: rest) (hquestion : b ≠ 0x3F) (hbang : b ≠ 0x21) :
    ¬ IsDeclaration inner := by
  subst h
  simp [IsDeclaration, hquestion, hbang]

private theorem not_close {inner : Bytes} {b : UInt8} {rest : Bytes}
    (h : inner = b :: rest) (hname : isNameByte b = true) : ¬ IsClose inner := by
  subst h
  simpa [IsClose] using isNameByte_ne hname (by decide)

theorem isOpen_opening : IsOpen tag.opening := by
  obtain ⟨b, rest, hcons, hname, hquestion, hbang⟩ := head_opening tag
  refine ⟨not_declaration hcons hquestion hbang, not_close hcons hname, ?_⟩
  unfold XmlTag.opening
  by_cases hattributes : bytesOf tag.attributes = []
  · rw [hattributes, List.append_nil]
    intro hlast
    have hmem := List.mem_of_getLast? hlast
    exact isNameByte_ne (List.all_eq_true.mp tag.validName.2.1 slash hmem) (by decide) rfl
  · rw [List.getLast?_append_of_ne_nil _ hattributes]
    exact tag.validAttributes.2.2

theorem isSelfClosing_selfClosing : IsSelfClosing tag.selfClosing := by
  obtain ⟨b, rest, hcons, hname, hquestion, hbang⟩ := head_opening tag
  have hcons' : tag.selfClosing = b :: (rest ++ [slash]) := by
    rw [XmlTag.selfClosing, hcons, List.cons_append]
  refine ⟨not_declaration hcons' hquestion hbang, not_close hcons' hname, ?_⟩
  rw [XmlTag.selfClosing, List.getLast?_append_of_ne_nil _ (by simp)]
  rfl

theorem isClose_closing : IsClose tag.closing := rfl

end Kinds

/-- The content of an element is a document of the scan's grammar. -/
theorem doc_events (content : XmlContent) : Doc (eventsBytes content.events) := by
  induction content with
  | nil => exact .empty
  | text t rest ih => exact .append (.text t.2) ih
  | leaf tag rest ih =>
    exact .append (.selfClosing (gt_notMem_selfClosing tag) (isSelfClosing_selfClosing tag)) ih
  | branch tag inner rest ihInner ihRest =>
    have helement := Doc.element (gt_notMem_opening tag) (gt_notMem_closing tag)
      (isOpen_opening tag) (isClose_closing tag) ihInner
    have hwhole := helement.append ihRest
    simpa only [Forest.events, eventsBytes_cons, eventsBytes_append, eventBytes,
      List.append_assoc] using hwhole

/-- So is the root with what stands behind it. -/
theorem doc_root (root : XmlElement) :
    Doc (eventsBytes (firstEvent root :: root.pending)) := by
  obtain ⟨tag, inner⟩ := root
  cases inner with
  | none =>
    have hdoc := doc_events (.leaf tag .nil)
    exact hdoc
  | some inner =>
    have hdoc := doc_events (.branch tag inner .nil)
    exact hdoc

/-- And so is what stands in front of it. -/
theorem doc_prolog {head : Bytes} (h : Prolog head) : Doc head := by
  obtain ⟨ts, hts, hkind⟩ := h
  refine doc_of_nested ?_ hts
  clear hts
  induction ts with
  | nil => exact .nil
  | cons t ts ih =>
    have hneutral : bracket t = .neutral := by
      simp only [bracket, hkind t List.mem_cons_self]
    exact .append (.neutral hneutral) (ih fun u hu => hkind u (List.mem_cons_of_mem _ hu))

/-- A document is accepted by the scan. -/
theorem XmlDocument.isSafeToRead (document : XmlDocument) :
    isSafeToRead document.bytes = true := by
  apply isSafeToRead_of_doc
  · exact (isText_bytesOf _).append (isText_eventsBytes _)
  · have hroot := (doc_root document.root).append (.text document.trailer.2)
    have hwhole := (doc_prolog document.prolog).append hroot
    simpa only [XmlDocument.bytes, eventsBytes_cons, eventsBytes_append,
      eventsBytes_nil, eventBytes, List.append_nil, List.append_assoc] using hwhole

end MyS3.Xml
