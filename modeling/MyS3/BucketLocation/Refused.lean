import MyS3.BucketLocation.Parse
import MyS3.Xml.Root

/-!
# Answers that are not a whole document

An answer that was refused, or cut short, is an error where the name of the element does
not occur in it; where it does, the default region is reported.
-/

namespace MyS3.BucketLocation

open Xml Nesting

/-- The tag that opens the element. -/
def openingTag (attributes : Bytes) : Bytes :=
  lt :: (bytesOf "LocationConstraint" ++ attributes) ++ [gt]

/-- A location: a prolog, and one element with attributes that holds a text. -/
def locationDocument (prolog attributes text : Bytes) : Bytes :=
  prolog ++ openingTag attributes ++ text ++ bytesOf "</LocationConstraint>"

variable {prolog attributes text : Bytes} {before : List Bytes}

/-- The tag is one of its own. -/
private theorem tags_openingTag (h : gt ∉ attributes) :
    tags (openingTag attributes) = some [openingTag attributes] := by
  have hname : gt ∉ bytesOf "LocationConstraint" := by decide
  apply tags_tag
  simp only [List.mem_append, hname, h, or_self, not_false_iff]

/-- It opens, unless the attributes end in a slash. -/
private theorem tagKind_openingTag (h : attributes.getLast? ≠ some slash) :
    tagKind (openingTag attributes) = .opening := by
  have hlast : (bytesOf "LocationConstraint").getLast? = some 0x74 := by decide
  have hcons : bytesOf "LocationConstraint" = 0x4C :: bytesOf "ocationConstraint" := by decide
  have hend : (bytesOf "LocationConstraint" ++ attributes).getLast? ≠ some slash := by
    rw [List.getLast?_append, hlast]
    cases hattributes : attributes.getLast? with
    | none => decide
    | some b => simpa only [hattributes, Option.some_or] using h
  rw [hcons, List.cons_append] at hend
  rw [openingTag, hcons, List.cons_append]
  exact tagKind_opening (by decide) hend

/-- The element is the root, and its closing tag closes it. -/
private theorem closesRoot_location (hprolog : tags prolog = some before)
    (hbefore : ∀ t ∈ before, ¬ Names "LocationConstraint" t) (hattributes : gt ∉ attributes)
    (hopen : attributes.getLast? ≠ some slash) (htext : lt ∉ text) :
    ClosesRoot "LocationConstraint" (prolog ++ openingTag attributes ++ text)
      (bytesOf "</LocationConstraint>") := by
  have hhead : tags (prolog ++ openingTag attributes ++ text) =
      some (before ++ openingTag attributes :: []) := by
    rw [List.append_assoc, tags_append hprolog, tags_append (tags_openingTag hattributes),
      tags_text htext]
    rfl
  have hname : Names "LocationConstraint" (openingTag attributes) :=
    ⟨attributes ++ [gt], by simp [openingTag]⟩
  exact .closing hhead hbefore hname (tagKind_openingTag hopen) rfl (by decide)

/-- A refused answer is an error exactly where the name of the element does not occur in
it, and so for a location that was cut: elsewhere it names the default region. -/
theorem refused_is_error_iff (R : MyXmlReader) :
    (∀ body, isSafeToRead body = false →
      ((∃ err, parseBucketLocation R body = .error err) ↔
        ¬ bytesOf "<LocationConstraint" <:+: body)) ∧
    (R.FindsTags "LocationConstraint" → ∀ prolog before attributes text p,
      tags prolog = some before → (∀ t ∈ before, ¬ Names "LocationConstraint" t) →
      gt ∉ attributes → attributes.getLast? ≠ some slash → lt ∉ text →
      p <+: locationDocument prolog attributes text →
      p ≠ locationDocument prolog attributes text →
      (parseBucketLocation R p ≠ .ok .awsUsEast1 ↔
        ¬ bytesOf "<LocationConstraint" <:+: p)) := by
  constructor
  · intro body hrefused
    exact parse_error_iff (if_neg (by simp only [hrefused, Bool.false_eq_true, not_false_iff]))
  · intro hR prolog before attributes text p hprolog hbefore hattributes hopen htext hp hproper
    have htag : IsTag (bytesOf "</LocationConstraint>") :=
      ⟨bytesOf "/LocationConstraint", by decide, by decide⟩
    have hcut : p.length < (locationDocument prolog attributes text).length :=
      Nat.lt_of_le_of_ne hp.length_le fun hlength => hproper (hp.eq_of_length hlength)
    exact parse_default_iff (readNodeText_eq_none hR (cut_before_root htag
      (closesRoot_location hprolog hbefore hattributes hopen htext) hp hcut))

/-- A document that never closes what it opened is refused. -/
private theorem isSafeToRead_unclosed {body : Bytes} {ts : List Bytes} (hts : tags body = some ts)
    (hopen : ¬ WellNested (ts.map bracket)) : isSafeToRead body = false := by
  rw [Bool.eq_false_iff]
  intro hsafe
  obtain ⟨-, ts', hts', hbalanced⟩ := isSafeToRead_iff.mp hsafe
  rw [hts, Option.some_inj] at hts'
  exact hopen (hts' ▸ hbalanced)

/-- An error page that was cut, and a location that was cut behind its prolog. -/
theorem refused_is_error_iff_cut :
    (∃ err, parseBucketLocation tagReader (bytesOf "<html>") = .error err) ∧
      parseBucketLocation tagReader (bytesOf "<?xml?>") ≠ .ok .awsUsEast1 := by
  have hts : tags (bytesOf "<html>") = some [bytesOf "<html>"] := by decide
  have hrefused := isSafeToRead_unclosed hts (by decide)
  obtain ⟨herror, hdefault⟩ := refused_is_error_iff tagReader
  exact ⟨(herror _ hrefused).mpr (by decide),
    (hdefault (tagReader_findsTags _) (bytesOf "<?xml?>") [bytesOf "<?xml?>"] []
      (bytesOf "eu-west-1") _ (by decide) (by decide) (by decide) (by decide) (by decide)
      (by decide) (by decide)).mpr (by decide)⟩

/-- A location that was cut in its text is refused, and names the default region. -/
theorem cut_location_is_default :
    isSafeToRead (bytesOf "<LocationConstraint>eu-west-1") = false ∧
      parseBucketLocation tagReader (bytesOf "<LocationConstraint>eu-west-1") =
        .ok .awsUsEast1 := by
  have hts : tags (bytesOf "<LocationConstraint>eu-west-1") =
      some [bytesOf "<LocationConstraint>"] := by decide
  have hrefused := isSafeToRead_unclosed hts (by decide)
  refine ⟨hrefused, ?_⟩
  have hnone : readNodeText tagReader (bytesOf "<LocationConstraint>eu-west-1")
      "LocationConstraint" = none := by
    simp only [readNodeText, hrefused, Bool.false_eq_true, if_false]
  unfold parseBucketLocation
  rw [hnone]
  exact if_pos (by decide)

end MyS3.BucketLocation
