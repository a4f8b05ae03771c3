import MyS3.Storage.Download

/-!
# The size of a stored object

What a `HEAD` tells of an object, and the reader that is opened on it.
-/

namespace MyS3.Storage

open Xml (bytesOf readNodeText)
open Client
open Reader (S3Reader)

variable {P : Platform} {H : Hashes} {s3 : S3Client} {timestamp : Bytes} {secretKey : String}
  {held : Paths} {state state' : State} {bucketName key : String} {url : UrlBuilder}

/-- The request for the head of an object. -/
theorem request_getObjectSize (timestamp : Bytes) (hurl : objectUrl P s3 bucketName key = .ok url) :
    ∃ request, (getObjectSize P s3 timestamp bucketName key).request = .ok request ∧
      request.verb = bytesOf "HEAD" ∧ request.signed.target = url.target ∧
      request.range = none := by
  simp only [getObjectSize, hurl]
  exact ⟨_, rfl, rfl, rfl, rfl⟩

/-- Unless the transport fails, the size of an object is the length that is stored, and there is
no size where nothing is stored. -/
theorem size_of_performs {α : Type} {operation : Operation α} {result : Except S3Error α}
    {f : Nat → Except S3Error α} (hF : P.segmentUrl.Faithful)
    (hnone : readNodeText P.xml [] "Error/Code" = none)
    (hheld : held.entries ≠ []) (hquiet : Quiet held state)
    (hurl : objectUrl P s3 bucketName key = .ok url)
    (hsame : operation.request = (getObjectSize P s3 timestamp bucketName key).request)
    (hconclude : ∀ response, operation.conclude response =
      (getObjectSize P s3 timestamp bucketName key).conclude response >>= f)
    (hperforms : Performs H secretKey operation state result state') :
    (∃ err, result = .error (.flUrlError err)) ∨
      match held.lookup url.path with
      | none => result = .error .keyNotFound
      | some content => result = f content.length := by
  have hpath := hF.path hurl
  obtain ⟨request, hrequest, hverb, htarget, hrange⟩ :=
    request_getObjectSize timestamp hurl
  rcases hquiet.performs hperforms (hsame.trans hrequest) hverb with
    hfailed | ⟨response, hreads, rfl⟩
  · exact .inl hfailed
  · right
    rw [htarget, hrange] at hreads
    cases hlookup : held.lookup url.path with
    | none =>
      rw [serveFromObjects_missing hheld hpath (.inr rfl) hlookup] at hreads
      have hcode : response.statusCode = 404 := hreads.statusCode
      rw [hconclude]
      simp only [getObjectSize, hcode, detectError_eq_statusError hnone]
      rfl
    | some content =>
      rw [serveFromObjects_whole hpath (.inr rfl) hlookup] at hreads
      have hcode : response.statusCode = 200 := hreads.statusCode
      obtain ⟨hlength, -⟩ := findHeader_framed
        ⟨200, content, "application/octet-stream", [], none⟩ content.length
      have hsize : response.contentLength = some content.length :=
        contentLength_of_reads hreads (hquiet.addressable _ _ hlookup) hlength
      rw [hconclude]
      simp only [getObjectSize, hcode, hsize]
      rfl

/-- `get_object_size` against a storage that holds objects. -/
theorem get_object_size (hF : P.segmentUrl.Faithful)
    (hnone : readNodeText P.xml [] "Error/Code" = none)
    (hheld : held.entries ≠ []) (hquiet : Quiet held state)
    (hurl : objectUrl P s3 bucketName key = .ok url) {result : Except S3Error Nat}
    (hperforms : Performs H secretKey (getObjectSize P s3 timestamp bucketName key) state result
      state') :
    (∃ err, result = .error (.flUrlError err)) ∨
      match held.lookup url.path with
      | none => result = .error .keyNotFound
      | some content => result = .ok content.length := by
  apply size_of_performs (f := .ok) hF hnone hheld hquiet hurl rfl _ hperforms
  intro response
  cases (getObjectSize P s3 timestamp bucketName key).conclude response <;> rfl

/-- `open_reader` against it: the reader stands at the front of the whole object. -/
theorem open_reader (hF : P.segmentUrl.Faithful)
    (hnone : readNodeText P.xml [] "Error/Code" = none)
    (hheld : held.entries ≠ []) (hquiet : Quiet held state)
    (hurl : objectUrl P s3 bucketName key = .ok url) {result : Except S3Error S3Reader}
    (hperforms : Performs H secretKey (openReader P s3 timestamp bucketName key) state result
      state') :
    (∃ err, result = .error (.flUrlError err)) ∨
      match held.lookup url.path with
      | none => result = .error .keyNotFound
      | some content => result = .ok (.new bucketName key content.length) :=
  size_of_performs (f := fun size => .ok (S3Reader.new bucketName key size)) hF hnone hheld hquiet
    hurl rfl (fun _ => rfl) hperforms

end MyS3.Storage
