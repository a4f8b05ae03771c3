import MyS3.Region
import MyS3.Xml.Place

/-!
# The region in the request for a bucket

`create_bucket_configuration` writes the region between two tags as it is, and the same
crate reads an element by decoding it. Both mean one region exactly where its text holds
neither a tag nor an entity.
-/

namespace MyS3.BucketLocation

open Xml Nesting

/-- `create_bucket_configuration`: no body for the default region. -/
def createBucketConfiguration (region : S3Region) : Option Bytes :=
  if region.isEmpty || region.isUsEast1 then none
  else some (bytesOf (
    "<CreateBucketConfiguration xmlns=\"http://s3.amazonaws.com/doc/2006-03-01/\">" ++
      "<LocationConstraint>" ++ region.asStr ++ "</LocationConstraint>" ++
        "</CreateBucketConfiguration>"))

/-- The inside of the tag that opens the body. -/
def configurationTag : Bytes :=
  bytesOf "CreateBucketConfiguration xmlns=\"http://s3.amazonaws.com/doc/2006-03-01/\""

/-- The inside of the tag in front of the region. -/
def constraintTag : Bytes := bytesOf "LocationConstraint"

/-- What stands behind the region. -/
def closingTags : Bytes := tagOf (bytesOf "/LocationConstraint") ++
  tagOf (bytesOf "/CreateBucketConfiguration")

variable {region : S3Region} {body : Bytes} {R : MyXmlReader}

/-- A body is sent for every region that is configured and is not the default one. -/
theorem exists_createBucketConfiguration :
    (∃ body, createBucketConfiguration region = some body) ↔
      region.asStr ≠ "" ∧ region.asStr ≠ "us-east-1" := by
  unfold createBucketConfiguration S3Region.isEmpty S3Region.isUsEast1
  split
  · rename_i hdefault
    simpa [← not_or] using hdefault
  · rename_i hdefault
    simpa [not_or] using hdefault

/-- The parts of a body that is sent. -/
theorem eq_of_createBucketConfiguration (h : createBucketConfiguration region = some body) :
    body = tagOf configurationTag ++ (tagOf constraintTag ++
      (bytesOf region.asStr ++ closingTags)) := by
  unfold createBucketConfiguration at h
  split at h
  · cases h
  · cases h
    simp only [bytesOf_append, List.append_assoc]
    rw [show bytesOf "<CreateBucketConfiguration xmlns=\"http://s3.amazonaws.com/doc/2006-03-01/\">"
        = tagOf configurationTag by decide,
      show bytesOf "<LocationConstraint>" = tagOf constraintTag by decide,
      show bytesOf "</LocationConstraint>" ++ bytesOf "</CreateBucketConfiguration>" =
        closingTags by decide]

/-- The element of the region, whatever the region. -/
theorem element_constraint (h : createBucketConfiguration region = some body) :
    element body "CreateBucketConfiguration/LocationConstraint" =
      some ⟨tagOf configurationTag, tagOf constraintTag,
        bytesOf region.asStr ++ closingTags⟩ := by
  have hpath : (bytesOf "CreateBucketConfiguration/LocationConstraint").splitOn slash =
      [bytesOf "CreateBucketConfiguration", constraintTag] := by
    decide +kernel
  have hfirst : gt ∉ configurationTag := by decide
  have hsecond : gt ∉ constraintTag := by decide
  have hname : (tagOf configurationTag).tail.takeWhile isNameByte =
      bytesOf "CreateBucketConfiguration" := by
    decide
  have hname' : (tagOf constraintTag).tail.takeWhile isNameByte = constraintTag := by decide
  have hopening : tagKind (tagOf configurationTag) = .opening := by decide
  have hopening' : tagKind (tagOf constraintTag) = .opening := by decide
  rw [element, hpath, placed, eq_of_createBucketConfiguration h, placedFrom_tagOf hfirst,
    placedFrom_tagOf hsecond, resolve_opening hopening, resolve_opening hopening']
  simp only [Placed.name, hname, hname', List.nil_append, List.cons_append, if_true]
  rw [if_neg (by decide)]

/-- The tags of a body, where the region holds none. -/
theorem tags_configuration (h : createBucketConfiguration region = some body)
    (hregion : lt ∉ bytesOf region.asStr) :
    tags body = some [tagOf configurationTag, tagOf constraintTag,
      tagOf (bytesOf "/LocationConstraint"), tagOf (bytesOf "/CreateBucketConfiguration")] := by
  have hclosing : tags closingTags = some [tagOf (bytesOf "/LocationConstraint"),
      tagOf (bytesOf "/CreateBucketConfiguration")] := by
    decide
  have hfirst : tags (tagOf configurationTag) = some [tagOf configurationTag] :=
    tags_tag (by decide)
  have hsecond : tags (tagOf constraintTag) = some [tagOf constraintTag] := tags_tag (by decide)
  rw [eq_of_createBucketConfiguration h, tags_append hfirst, tags_append hsecond,
    tags_append (tags_text hregion), hclosing]
  rfl

/-- So it is accepted. -/
theorem isSafeToRead_configuration (h : createBucketConfiguration region = some body)
    (hregion : lt ∉ bytesOf region.asStr) : isSafeToRead body = true := by
  refine isSafeToRead_iff.mpr ⟨?_, _, tags_configuration h hregion, by decide⟩
  unfold createBucketConfiguration at h
  split at h
  · cases h
  · cases h
    rw [fromUtf8_bytesOf]
    rfl

/-- Up to the next tag stands what the region has in front of its first `<`. -/
private theorem takeWhile_region (region : S3Region) :
    (bytesOf region.asStr ++ closingTags).takeWhile (· != lt) =
      (bytesOf region.asStr).takeWhile (· != lt) := by
  have hclosing : closingTags.takeWhile (· != lt) = [] := by decide
  rw [List.takeWhile_append]
  split
  · rename_i hall
    rw [hclosing, List.append_nil]
    exact (List.IsPrefix.eq_of_length (List.takeWhile_prefix _) hall).symm
  · rfl

/-- A text in front of a tag that is read as the region is the region, and holds no tag. -/
theorem text_eq_of_unescape {text : String}
    (htext : bytesOf text = (bytesOf region.asStr).takeWhile (· != lt))
    (h : unescape text = region.asStr) :
    text = region.asStr ∧ lt ∉ bytesOf region.asStr := by
  have hbegins : text.toList <+: region.asStr.toList :=
    toList_isPrefix_of_bytesOf (htext ▸ List.takeWhile_prefix _)
  have hlength : region.asStr.toList.length ≤ text.toList.length := by
    rw [← h, unescape, String.toList_ofList]
    exact length_unescapeChars_le text.toList
  have heq : text = region.asStr := String.toList_inj.mp (hbegins.eq_of_length_le hlength)
  refine ⟨heq, fun hlt => ?_⟩
  rw [← heq, htext] at hlt
  exact absurd (List.mem_takeWhile_imp hlt) (by decide)

/-- The region as it is read back, where it holds no tag. -/
theorem readNodeText_configuration (hR : R.ReadsInPlace)
    (h : createBucketConfiguration region = some body) (hregion : lt ∉ bytesOf region.asStr) :
    readNodeText R body "CreateBucketConfiguration/LocationConstraint" =
      some (unescape region.asStr) := by
  have hwhole : (bytesOf region.asStr).takeWhile (· != lt) = bytesOf region.asStr := by
    apply List.takeWhile_eq_self_iff.mpr
    intro b hb
    simp only [bne_iff_ne, ne_eq]
    rintro rfl
    exact hregion hb
  rcases readNodeText_cases hR (isSafeToRead_configuration h hregion) (element_constraint h) with
    ⟨hnone, -⟩ | ⟨-, text, htext, hsome⟩
  · exact absurd (List.mem_append_right _ (by decide)) hnone
  · have heq : text = region.asStr :=
      bytesOf_injective ((htext.trans (takeWhile_region region)).trans hwhole)
    rw [hsome, heq]

/-- The encoder and the decoder agree on a region exactly where its text holds neither a `<`
nor one of the five entities. -/
theorem constraint_agrees_iff (hR : R.ReadsInPlace)
    (h : createBucketConfiguration region = some body) :
    (isSafeToRead body = true ∧
      tags body = some [tagOf configurationTag, tagOf constraintTag,
        tagOf (bytesOf "/LocationConstraint"), tagOf (bytesOf "/CreateBucketConfiguration")] ∧
      readNodeText R body "CreateBucketConfiguration/LocationConstraint" = some region.asStr) ↔
    lt ∉ bytesOf region.asStr ∧ ∀ e ∈ entities, ¬e.1 <:+: region.asStr.toList := by
  have hself : unescape region.asStr = region.asStr ↔
      ∀ e ∈ entities, ¬e.1 <:+: region.asStr.toList := by
    rw [← unescapeChars_eq_self_iff, ← String.toList_inj, unescape, String.toList_ofList]
  constructor
  · rintro ⟨hsafe, -, hread⟩
    rcases readNodeText_cases hR hsafe (element_constraint h) with
      ⟨-, hnone⟩ | ⟨-, text, htext, hsome⟩
    · rw [hnone] at hread
      cases hread
    · rw [hsome, Option.some_inj] at hread
      obtain ⟨heq, hlt⟩ := text_eq_of_unescape (htext.trans (takeWhile_region region)) hread
      exact ⟨hlt, hself.mp (heq ▸ hread)⟩
  · rintro ⟨hlt, hentities⟩
    refine ⟨isSafeToRead_configuration h hlt, tags_configuration h hlt, ?_⟩
    rw [readNodeText_configuration hR h hlt, hself.mpr hentities]

/-- A plain name goes out and comes back as it is. -/
theorem constraint_agrees_iff_plain :
    ∃ body, createBucketConfiguration (.other "some-private-ceph") = some body ∧
      isSafeToRead body = true ∧
      readNodeText placeReader body "CreateBucketConfiguration/LocationConstraint" =
        some "some-private-ceph" := by
  obtain ⟨body, hbody⟩ := exists_createBucketConfiguration.mpr
    (show (S3Region.other "some-private-ceph").asStr ≠ "" ∧
      (S3Region.other "some-private-ceph").asStr ≠ "us-east-1" by decide)
  have hentities : ∀ e ∈ entities, ¬e.1 <:+: "some-private-ceph".toList :=
    not_isInfix_of_not_mem (by decide)
  have hagrees := (constraint_agrees_iff placeReader_readsInPlace hbody).mpr
    ⟨by decide, hentities⟩
  exact ⟨body, hbody, hagrees.1, hagrees.2.2⟩

/-- A region that looks escaped is read as another one. -/
theorem escaped_region_is_another :
    ∃ body, createBucketConfiguration (.other "a&amp;b") = some body ∧
      placeReader.ReadsInPlace ∧ isSafeToRead body = true ∧
      readNodeText placeReader body "CreateBucketConfiguration/LocationConstraint" =
        some "a&b" ∧ "a&b" ≠ (S3Region.other "a&amp;b").asStr := by
  obtain ⟨body, hbody⟩ := exists_createBucketConfiguration.mpr
    (show (S3Region.other "a&amp;b").asStr ≠ "" ∧
      (S3Region.other "a&amp;b").asStr ≠ "us-east-1" by decide)
  have hlt : lt ∉ bytesOf (S3Region.other "a&amp;b").asStr := by decide
  have hdecoded : unescape "a&amp;b" = "a&b" :=
    unescape_of_escapes (.literal (by decide) (.entity (e := ("&amp;".toList, '&'))
      (by decide) (.literal (by decide) .nil)))
  refine ⟨body, hbody, placeReader_readsInPlace, isSafeToRead_configuration hbody hlt, ?_,
    by decide⟩
  rw [readNodeText_configuration placeReader_readsInPlace hbody hlt]
  exact congrArg some hdecoded

end MyS3.BucketLocation
