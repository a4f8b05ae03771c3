import MyS3.Error
import MyS3.Xml.Walker

/-!
# `parse_list_objects_v2`

One page of a listing, read child by child in whatever order the storage chose.
-/

namespace MyS3.ListObjects

open Xml

structure S3ObjectInfo where
  key : String
  size : Nat
  lastModified : String
  etag : Option String
  deriving DecidableEq, Repr

/-- One page of a listing. -/
structure S3ListObjectsPage where
  commonPrefixes : List String
  objects : List S3ObjectInfo
  nextContinuationToken : Option String
  deriving DecidableEq, Repr

/-- The children of the root worth stopping at. -/
def pageElements : List String :=
  ["Contents", "CommonPrefixes", "IsTruncated", "NextContinuationToken"]

def objectElements : List String := ["Key", "Size", "LastModified", "ETag"]

def malformed (err : String) : S3Error :=
  .other s!"ListObjectsV2 answered with malformed XML: {err}"

/-- A field that every entry has to have. -/
def required (value : Option String) (element : String) : Except S3Error String :=
  match value with
  | some value => .ok value
  | none => .error (.other s!"ListObjectsV2 sent a <Contents> with no <{element}> in it")

/-- The fields of one entry read so far. -/
structure ObjectFields where
  key : Option String
  size : Option String
  lastModified : Option String
  etag : Option String

/-- A field that comes again replaces the one before. -/
def ObjectFields.set (fields : ObjectFields) (name value : String) : ObjectFields :=
  match name with
  | "Key" => { fields with key := some value }
  | "Size" => { fields with size := some value }
  | "LastModified" => { fields with lastModified := some value }
  | "ETag" => { fields with etag := some value }
  | _ => fields

/-- The entry that its fields make. A size that is not a number is not defaulted. -/
def ObjectFields.object (fields : ObjectFields) : Except S3Error S3ObjectInfo := do
  let key ← required fields.key "Key"
  let lastModified ← required fields.lastModified "LastModified"
  let size ← required fields.size "Size"
  match parseU64 (trim size) with
  | some bytes =>
    return { key := key, size := bytes, lastModified := lastModified, etag := fields.etag }
  | none =>
    throw (.other s!"ListObjectsV2 gave <Size>{size}</Size> for key {key}, which is not a byte count")

variable {R : MyXmlReader}

/-- The loop of `read_object`. -/
def readFields (w : XmlWalker R) (contents : XmlTagInfo) (fields : ObjectFields) :
    Except S3Error (ObjectFields × XmlWalker R) :=
  match _h : w.nextChildOf contents objectElements with
  | .error err => .error (malformed err)
  | .ok (none, w') => .ok (fields, w')
  | .ok (some field, w') =>
    match _h' : w'.readText field with
    | .error err => .error (malformed err)
    | .ok (value, w'') => readFields w'' contents (fields.set field.name value)
termination_by w.remaining
decreasing_by
  have h₁ := XmlWalker.nextChildOf_advances _h
  have h₂ := XmlWalker.readText_advances _h'
  simp only [Option.toList_some, List.length_singleton] at h₁
  omega

/-- `read_object`. -/
def readObject (w : XmlWalker R) (contents : XmlTagInfo) :
    Except S3Error (S3ObjectInfo × XmlWalker R) := do
  let (fields, w) ← readFields w contents ⟨none, none, none, none⟩
  let object ← fields.object
  return (object, w)

/-- The loop of `read_common_prefixes`. -/
def readPrefixes (w : XmlWalker R) (commonPrefixesNode : XmlTagInfo) (dest : List String) :
    Except S3Error (List String × XmlWalker R) :=
  match _h : w.nextChildOf commonPrefixesNode ["Prefix"] with
  | .error err => .error (malformed err)
  | .ok (none, w') => .ok (dest, w')
  | .ok (some node, w') =>
    match _h' : w'.readText node with
    | .error err => .error (malformed err)
    | .ok (value, w'') => readPrefixes w'' commonPrefixesNode (dest ++ [value])
termination_by w.remaining
decreasing_by
  have h₁ := XmlWalker.nextChildOf_advances _h
  have h₂ := XmlWalker.readText_advances _h'
  simp only [Option.toList_some, List.length_singleton] at h₁
  omega

/-- `read_common_prefixes`: one `CommonPrefixes` has at least one `Prefix`. -/
def readCommonPrefixes (w : XmlWalker R) (commonPrefixesNode : XmlTagInfo) :
    Except S3Error (List String × XmlWalker R) := do
  let (found, w) ← readPrefixes w commonPrefixesNode []
  if found = [] then
    throw (.other "ListObjectsV2 sent a <CommonPrefixes> with no <Prefix> in it")
  else return (found, w)

/-- A page while it is read. -/
structure PageParts where
  commonPrefixes : List String
  objects : List S3ObjectInfo
  isTruncated : Bool
  nextContinuationToken : Option String

/-- One child of the root. -/
def readPageElement (w : XmlWalker R) (node : XmlTagInfo) (parts : PageParts) :
    Except S3Error (PageParts × XmlWalker R) :=
  match node.name with
  | "Contents" => do
    let (object, w) ← readObject w node
    return ({ parts with objects := parts.objects ++ [object] }, w)
  | "CommonPrefixes" => do
    let (found, w) ← readCommonPrefixes w node
    return ({ parts with commonPrefixes := parts.commonPrefixes ++ found }, w)
  | "IsTruncated" => do
    let (value, w) ← (w.readText node).mapError malformed
    return ({ parts with isTruncated := eqIgnoreAsciiCase (trim value) "true".toList }, w)
  | "NextContinuationToken" => do
    let (value, w) ← (w.readText node).mapError malformed
    return (if value = "" then parts else { parts with nextContinuationToken := some value }, w)
  | _ => return (parts, w)

section Advances

variable {α : Type} {w w' : XmlWalker R} {node : XmlTagInfo} {names : List String}
  {add : α → String → String → α} {loop : XmlWalker R → α → Except S3Error (α × XmlWalker R)}

/-- A loop that reads the text of every child with one of the names. -/
def IsTextLoop (node : XmlTagInfo) (names : List String) (add : α → String → String → α)
    (loop : XmlWalker R → α → Except S3Error (α × XmlWalker R)) : Prop :=
  ∀ w read, loop w read = match w.nextChildOf node names with
    | .error err => .error (malformed err)
    | .ok (none, w') => .ok (read, w')
    | .ok (some child, w') =>
      match w'.readText child with
      | .error err => .error (malformed err)
      | .ok (value, w'') => loop w'' (add read child.name value)

theorem isTextLoop_readFields (node : XmlTagInfo) :
    IsTextLoop node objectElements ObjectFields.set fun w : XmlWalker R => readFields w node := by
  intro w fields
  dsimp only
  rw [readFields]
  split
  · rename_i hnext
    rw [hnext]
  · rename_i hnext
    rw [hnext]
  · rename_i hnext
    split
    · rename_i hread
      simp only [hnext, hread]
    · rename_i hread
      simp only [hnext, hread]

theorem isTextLoop_readPrefixes (node : XmlTagInfo) :
    IsTextLoop node ["Prefix"] (fun dest _ value => dest ++ [value])
      fun w : XmlWalker R => readPrefixes w node := by
  intro w dest
  dsimp only
  rw [readPrefixes]
  split
  · rename_i hnext
    rw [hnext]
  · rename_i hnext
    rw [hnext]
  · rename_i hnext
    split
    · rename_i hread
      simp only [hnext, hread]
    · rename_i hread
      simp only [hnext, hread]

/-- Such a loop only ever moves on. -/
theorem IsTextLoop.advances (hloop : IsTextLoop node names add loop) {read read' : α}
    (h : loop w read = .ok (read', w')) : w'.remaining ≤ w.remaining := by
  induction hn : w.remaining using Nat.strongRecOn generalizing w read with
  | ind n ih =>
    rw [hloop] at h
    split at h
    · cases h
    · rename_i hnext
      cases h
      exact hn ▸ XmlWalker.nextChildOf_advances hnext
    · rename_i child w₁ hnext
      have h₁ := XmlWalker.nextChildOf_advances hnext
      split at h
      · cases h
      · rename_i value w₂ hread
        have h₂ := XmlWalker.readText_advances hread
        simp only [Option.toList_some, List.length_singleton] at h₁
        have h₃ := ih w₂.remaining (by omega) h rfl
        omega

/-- A child of the root is read forwards. -/
private theorem readPageElement_advances {parts parts' : PageParts}
    (h : readPageElement w node parts = .ok (parts', w')) : w'.remaining ≤ w.remaining := by
  unfold readPageElement at h
  split at h
  · obtain ⟨⟨object, w₁⟩, hobject, h⟩ := bind_ok h
    obtain ⟨⟨fields, w₂⟩, hfields, hobject⟩ := bind_ok hobject
    obtain ⟨entry, -, hobject⟩ := bind_ok hobject
    cases hobject
    cases h
    exact (isTextLoop_readFields node).advances hfields
  · obtain ⟨⟨found, w₁⟩, hfound, h⟩ := bind_ok h
    obtain ⟨⟨dest, w₂⟩, hdest, hfound⟩ := bind_ok hfound
    dsimp only at hfound
    split at hfound
    · cases hfound
    · cases hfound
      cases h
      exact (isTextLoop_readPrefixes node).advances hdest
  · obtain ⟨⟨value, w₁⟩, hread, h⟩ := bind_ok h
    cases h
    exact XmlWalker.readText_advances (mapError_ok hread)
  · obtain ⟨⟨value, w₁⟩, hread, h⟩ := bind_ok h
    cases h
    exact XmlWalker.readText_advances (mapError_ok hread)
  · cases h
    exact Nat.le_refl _

end Advances

/-- The loop over the children of the root. -/
def readPage (w : XmlWalker R) (parts : PageParts) : Except S3Error PageParts :=
  match _h : w.nextChild pageElements with
  | .error err => .error (malformed err)
  | .ok (none, _) => .ok parts
  | .ok (some node, w') =>
    match _h' : readPageElement w' node parts with
    | .error err => .error err
    | .ok (parts, w'') => readPage w'' parts
termination_by w.remaining
decreasing_by
  have h₁ := XmlWalker.nextChildOf_advances _h
  have h₂ := readPageElement_advances _h'
  simp only [Option.toList_some, List.length_singleton] at h₁
  omega

/-- The page that its parts make: a token counts only on a truncated page, and a truncated
page has to have one. -/
def PageParts.page (parts : PageParts) : Except S3Error S3ListObjectsPage :=
  if parts.isTruncated then
    match parts.nextContinuationToken with
    | none =>
      .error (.other "ListObjectsV2 reported a truncated listing but sent no NextContinuationToken")
    | some token => .ok ⟨parts.commonPrefixes, parts.objects, some token⟩
  else .ok ⟨parts.commonPrefixes, parts.objects, none⟩

/-- `parse_list_objects_v2`: reads a `ListObjectsV2` answer. -/
def parseListObjectsV2 (R : MyXmlReader) (body : Bytes) : Except S3Error S3ListObjectsPage :=
  match XmlWalker.open R body "ListBucketResult" with
  | .error err =>
    .error (.other s!"ListObjectsV2 answered with a body that is not a ListBucketResult ({err}): {fromUtf8Lossy body}")
  | .ok none =>
    .error (.other s!"ListObjectsV2 answered with a body that is not a ListBucketResult: {fromUtf8Lossy body}")
  | .ok (some w) => do
    let parts ← readPage w ⟨[], [], false, none⟩
    parts.page

end MyS3.ListObjects
