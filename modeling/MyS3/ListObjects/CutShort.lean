import MyS3.ListObjects.Parse
import MyS3.Xml.Root

/-!
# A listing cut short

A listing whose body ends before its root was closed is an error, wherever it was cut.
-/

namespace MyS3.ListObjects

open Xml

variable {R : MyXmlReader} {body : Bytes}

/-- A body that is not opened is an error. -/
private theorem error_of_not_opened
    (h : ∀ w, XmlWalker.open R body "ListBucketResult" ≠ .ok (some w)) :
    ∃ err, parseListObjectsV2 R body = .error err := by
  unfold parseListObjectsV2
  split
  · exact ⟨_, rfl⟩
  · exact ⟨_, rfl⟩
  · rename_i w hopen
    exact absurd hopen (h w)

/-- Every prefix of a listing that ends before the `>` that closes its root is an error. -/
theorem cut_short_is_error (hR : R.FindsTags "ListBucketResult") {document head tag tail p : Bytes}
    (hdocument : document = head ++ tag ++ tail) (htag : IsTag tag)
    (hroot : ClosesRoot "ListBucketResult" head tag) (hp : p <+: document)
    (hcut : p.length < (head ++ tag).length) :
    ∃ err, parseListObjectsV2 R p = .error err := by
  subst hdocument
  have hp' : p <+: head ++ tag :=
    List.prefix_of_prefix_length_le hp (List.prefix_append _ _) (Nat.le_of_lt hcut)
  exact error_of_not_opened (open_ne_some hR (cut_before_root htag hroot hp' hcut))

/-- A listing with a prolog, cut behind it. -/
theorem cut_short_is_error_prolog :
    ∃ err, parseListObjectsV2 tagReader (bytesOf "<?xml?>") = .error err := by
  have hhead : tags (bytesOf "<?xml?><ListBucketResult><Name/>") =
      some ([bytesOf "<?xml?>"] ++ bytesOf "<ListBucketResult>" :: [bytesOf "<Name/>"]) := by
    decide
  have hroot : ClosesRoot "ListBucketResult" (bytesOf "<?xml?><ListBucketResult><Name/>")
      (bytesOf "</ListBucketResult>") :=
    .closing hhead (by decide) (by decide) (by decide) (by decide) (by decide)
  have htag : IsTag (bytesOf "</ListBucketResult>") :=
    ⟨bytesOf "/ListBucketResult", by decide, by decide⟩
  have hp : bytesOf "<?xml?>" <+:
      bytesOf "<?xml?><ListBucketResult><Name/>" ++ bytesOf "</ListBucketResult>" ++ [] := by
    decide
  exact cut_short_is_error (tagReader_findsTags _) rfl htag hroot hp (by decide)

end MyS3.ListObjects
