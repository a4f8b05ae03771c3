import MyS3.Error
import MyS3.Region
import MyS3.Xml.Walker

/-!
# The location of a bucket

`parse_bucket_location` and the search by which it tells an empty element from no element.
-/

namespace MyS3.BucketLocation

open Xml

/-- `contains`: some window of the haystack is the needle. -/
def contains (haystack needle : Bytes) : Bool :=
  (List.range (haystack.length + 1 - needle.length)).any fun i =>
    (haystack.drop i).take needle.length == needle

/-- The search finds a needle wherever it stands. -/
theorem contains_iff {haystack needle : Bytes} :
    contains haystack needle = true ↔ needle <:+: haystack := by
  simp only [contains, List.any_eq_true, List.mem_range, beq_iff_eq]
  constructor
  · rintro ⟨i, -, hwindow⟩
    exact hwindow ▸ ((List.take_prefix _ _).isInfix.trans (List.drop_suffix _ _).isInfix)
  · rintro ⟨before, behind, rfl⟩
    refine ⟨before.length, ?_, ?_⟩
    · simp only [List.length_append]
      omega
    · rw [List.append_assoc, List.drop_left, List.take_left]

/-- `parse_bucket_location`: the region that a `GetBucketLocation` answer states. -/
def parseBucketLocation (R : MyXmlReader) (body : Bytes) : Except S3Error S3Region :=
  match readNodeText R body "LocationConstraint" with
  | some region =>
    if region.isEmpty then .ok .awsUsEast1 else .ok (S3Region.fromStr region)
  | none =>
    if contains body (bytesOf "<LocationConstraint") then .ok .awsUsEast1
    else .error (.other ("GetBucketLocation answered with a body that is not a " ++
      s!"LocationConstraint: {fromUtf8Lossy body}"))

variable {R : MyXmlReader} {body : Bytes}

/-- Without a text the answer is settled by the search alone. -/
theorem parseBucketLocation_of_none (h : readNodeText R body "LocationConstraint" = none) :
    parseBucketLocation R body = .ok .awsUsEast1 ∧ bytesOf "<LocationConstraint" <:+: body ∨
    (∃ err, parseBucketLocation R body = .error err) ∧
      ¬ bytesOf "<LocationConstraint" <:+: body := by
  unfold parseBucketLocation
  rw [h]
  by_cases hcontains : contains body (bytesOf "<LocationConstraint") = true
  · exact .inl ⟨if_pos hcontains, contains_iff.mp hcontains⟩
  · exact .inr ⟨⟨_, if_neg hcontains⟩, fun hinfix => hcontains (contains_iff.mpr hinfix)⟩

/-- So it is an error exactly where the name of the element does not occur. -/
theorem parse_error_iff (h : readNodeText R body "LocationConstraint" = none) :
    (∃ err, parseBucketLocation R body = .error err) ↔
      ¬ bytesOf "<LocationConstraint" <:+: body := by
  rcases parseBucketLocation_of_none h with ⟨hok, hinfix⟩ | ⟨herr, hinfix⟩
  · simp only [hok, reduceCtorEq, exists_false, hinfix, not_true]
  · simp only [herr, hinfix, not_false_iff]

/-- And it is the default region exactly where the name does occur. -/
theorem parse_default_iff (h : readNodeText R body "LocationConstraint" = none) :
    parseBucketLocation R body ≠ .ok .awsUsEast1 ↔
      ¬ bytesOf "<LocationConstraint" <:+: body := by
  rcases parseBucketLocation_of_none h with ⟨hok, hinfix⟩ | ⟨⟨err, herr⟩, hinfix⟩
  · simp only [hok, hinfix, ne_eq, not_true]
  · simp only [herr, hinfix, ne_eq, reduceCtorEq, not_false_iff]

end MyS3.BucketLocation
