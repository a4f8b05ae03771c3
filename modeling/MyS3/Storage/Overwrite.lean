import MyS3.Storage.Reading

/-!
# An object that is overwritten while it is read

Another content may be put under the path of a reader at any time, also between a request and the
end of its answer. Every read is of one of these contents, at the position of the reader.
-/

namespace MyS3.Storage

open Xml (readNodeText)
open Client
open Reader (Placed PendingRead S3Reader SeekFrom bytesAt honest range seeksAtRest)

/-- A reader, the storage, the answer to the request in flight once it was served, and every
content that the path has held since the reader was opened. -/
structure Watch where
  reader : S3Reader
  state : State
  answer : Option (Except S3Error Reader.S3DownloadStream)
  versions : List Bytes

section Step

variable (P : Platform) (H : Hashes) (s3 : S3Client) (secretKey : String)

/-- What polling a request comes to: nothing yet, the answer that was served before, or one that
is served and read at once. -/
inductive Watch.Polled (watch : Watch) (remaining : Nat) :
    Poll (Except S3Error Reader.S3DownloadStream) → State → Prop
  | pending : Polled watch remaining .pending watch.state
  | answered {response : Except S3Error Reader.S3DownloadStream}
      (hanswer : watch.answer = some response) :
      Polled watch remaining (.ready response) watch.state
  | atOnce {p : PendingRead} {timestamp : Bytes} {result : Except S3Error S3DownloadStream}
      {state' : State} (hleft : watch.reader.leftover = []) (hanswer : watch.answer = none)
      (hrequest : watch.reader.request remaining = some p)
      (hperforms : Performs H secretKey (downloadFileRange P s3 timestamp watch.reader.bucketName
        watch.reader.key p.start (some p.last)) watch.state result state') :
      Polled watch remaining (.ready (result.map S3DownloadStream.forReader)) state'

/-- A read, with its answer. -/
def Watch.read (watch : Watch) (remaining : Nat)
    (polled : Poll (Except S3Error Reader.S3DownloadStream)) (state' : State) : Watch where
  reader := (watch.reader.pollRead remaining polled).1
  state := state'
  answer :=
    match polled with
    | .pending => watch.answer
    | .ready _ => none
  versions := watch.versions

/-- What happens to a reader of `path` and to the storage. -/
inductive Watch.Step (path : Bytes) (watch : Watch) : Watch → Prop
  | read {remaining : Nat} {polled : Poll (Except S3Error Reader.S3DownloadStream)} {state' : State}
      (hpolled : watch.Polled P H s3 secretKey remaining polled state') :
      Step path watch (watch.read remaining polled state')
  /-- The request in flight is served, and its answer is on its way. -/
  | served {p : PendingRead} {timestamp : Bytes} {result : Except S3Error S3DownloadStream}
      {state' : State} (hpending : watch.reader.pending = some p) (hanswer : watch.answer = none)
      (hperforms : Performs H secretKey (downloadFileRange P s3 timestamp watch.reader.bucketName
        watch.reader.key p.start (some p.last)) watch.state result state') :
      Step path watch
        { watch with state := state', answer := some (result.map S3DownloadStream.forReader) }
  | startSeek (position : SeekFrom) :
      Step path watch { watch with reader := (watch.reader.startSeek position).1 }
  /-- A seek is applied, but not under a request. -/
  | pollComplete (hrest : seeksAtRest watch.reader .pollComplete = true) :
      Step path watch { watch with reader := watch.reader.pollComplete.1 }
  /-- The object is overwritten. -/
  | overwritten (content : Bytes) (hbound : content.length < 2 ^ 64) :
      Step path watch
        { watch with
          state := watch.state.putObject path content
          versions := watch.versions ++ [content] }
  /-- Another object is put. -/
  | put {other : Bytes} (content : Bytes) (hother : other ≠ path)
      (hbound : content.length < 2 ^ 64) :
      Step path watch { watch with state := watch.state.putObject other content }
  /-- Somebody else uses the storage. -/
  | elsewhere (key : String) (head : Head) (arrived : Bytes) :
      Step path watch { watch with state := (watch.state.exchange H key head arrived).1 }

end Step

variable {P : Platform} {H : Hashes} {s3 : S3Client} {timestamp : Bytes} {secretKey : String}
  {held : Paths} {state state' : State} {bucketName key : String} {url : UrlBuilder}
  {object path content : Bytes} {watch next : Watch} {remaining : Nat}

/-- Without a leftover a reader is placed on any object. -/
theorem placed_of_leftover_nil {r : S3Reader} (h : Placed object r) (hleft : r.leftover = [])
    (content : Bytes) : Placed content r :=
  { h with leftover := by simp [hleft, bytesAt] }

/-- What is kept of a reader and its storage. -/
structure Watch.Inv (path : Bytes) (bucketName key : String) (size : Nat) (watch : Watch) :
    Prop where
  storage : ∃ held, Quiet held watch.state ∧
    ∃ content ∈ watch.versions, held.lookup path = some content
  placed : ∃ content ∈ watch.versions, Placed content watch.reader
  size : watch.reader.size = size
  bucketName : watch.reader.bucketName = bucketName
  key : watch.reader.key = key
  answered : ∀ response, watch.answer = some response → ∃ p, watch.reader.pending = some p ∧
    ∃ content ∈ watch.versions, (∃ err, p.body response = .error err) ∨
      p.body response = .ok (range content p.start p.last)

/-- An answer that was served belongs to the request in flight, and there is no leftover. -/
theorem Watch.Inv.inFlight {size : Nat} (h : watch.Inv path bucketName key size)
    {response : Except S3Error Reader.S3DownloadStream} (hanswer : watch.answer = some response)
    (remaining : Nat) :
    ∃ p, watch.reader.leftover = [] ∧ watch.reader.request remaining = some p ∧
      ∃ content ∈ watch.versions, (∃ err, p.body response = .error err) ∨
        p.body response = .ok (range content p.start p.last) := by
  obtain ⟨p, hpending, hbody⟩ := h.answered _ hanswer
  obtain ⟨since, -, hplaced⟩ := h.placed
  refine ⟨p, ?_, by rw [S3Reader.request, hpending], hbody⟩
  by_contra hleft
  rw [hplaced.exclusive hleft] at hpending
  cases hpending

/-- Seeks change neither what is read nor what is in flight. -/
theorem startSeek_keeps (r : S3Reader) (position : SeekFrom) :
    (r.startSeek position).1.size = r.size ∧ (r.startSeek position).1.bucketName = r.bucketName ∧
      (r.startSeek position).1.key = r.key ∧ (r.startSeek position).1.pending = r.pending := by
  unfold S3Reader.startSeek
  split
  · exact ⟨rfl, rfl, rfl, rfl⟩
  · split
    · exact ⟨rfl, rfl, rfl, rfl⟩
    · split <;> exact ⟨rfl, rfl, rfl, rfl⟩

theorem pollComplete_keeps (r : S3Reader) :
    r.pollComplete.1.size = r.size ∧ r.pollComplete.1.bucketName = r.bucketName ∧
      r.pollComplete.1.key = r.key ∧ r.pollComplete.1.pending = r.pending := by
  unfold S3Reader.pollComplete
  split <;> exact ⟨rfl, rfl, rfl, rfl⟩

/-- The request of a read is answered with its range of the content that is held then. -/
theorem Watch.Inv.body {size : Nat} (h : watch.Inv url.path bucketName key size)
    (hF : P.segmentUrl.Faithful) (hR : P.xml.ReadsInPlace)
    (hurl : objectUrl P s3 bucketName key = .ok url) {p : PendingRead}
    (hrequest : watch.reader.request remaining = some p)
    {result : Except S3Error S3DownloadStream} (hperforms : Performs H secretKey
      (downloadFileRange P s3 timestamp watch.reader.bucketName watch.reader.key p.start
        (some p.last)) watch.state result state') :
    ∃ content ∈ watch.versions, watch.state.objects.lookup url.path = some content ∧
      ((∃ err, p.body (result.map S3DownloadStream.forReader) = .error err) ∨
        p.body (result.map S3DownloadStream.forReader) = .ok (range content p.start p.last)) := by
  obtain ⟨held, hquiet, content, hversion, hlookup⟩ := h.storage
  obtain ⟨_, -, hplaced⟩ := h.placed
  obtain ⟨-, hsome, hwithin⟩ := hplaced.request hrequest
  have hsize := hplaced.addressable
  rw [h.bucketName, h.key] at hperforms
  exact ⟨content, hversion, hquiet.objects ▸ hlookup,
    body_of_range hF hR hquiet hurl hlookup hsome (by omega) hperforms⟩

/-- An answer with its range of a content is honest about that content. -/
theorem honest_of_body {r : S3Reader} {p : PendingRead}
    {response : Except S3Error Reader.S3DownloadStream}
    (hrequest : r.request remaining = some p) (hbody : (∃ err, p.body response = .error err) ∨
      p.body response = .ok (range content p.start p.last)) :
    honest content r (.pollRead remaining (.ready response)) = true := by
  simp only [honest, hrequest]
  rcases hbody with ⟨err, hfailed⟩ | hrange
  · rw [hfailed]
  · rw [hrange]
    exact decide_eq_true fun _ => rfl

/-- Every read is of one of the contents; one that is served at once is of the content that is held
then. -/
theorem Watch.Inv.read_placed {size : Nat} (h : watch.Inv url.path bucketName key size)
    (hF : P.segmentUrl.Faithful) (hR : P.xml.ReadsInPlace)
    (hurl : objectUrl P s3 bucketName key = .ok url)
    {polled : Poll (Except S3Error Reader.S3DownloadStream)}
    (hpolled : watch.Polled P H s3 secretKey remaining polled state') :
    ∃ content ∈ watch.versions,
      (watch.reader.leftover = [] → watch.answer = none →
        watch.state.objects.lookup url.path = some content) ∧
      Placed content (watch.reader.pollRead remaining polled).1 ∧
      (watch.reader.pollRead remaining polled).1.position = watch.reader.position +
        (watch.reader.pollRead remaining polled).2.1.length ∧
      (watch.reader.pollRead remaining polled).2.1 = bytesAt content watch.reader.position
        (watch.reader.pollRead remaining polled).2.1.length := by
  obtain ⟨since, hsince, hplaced⟩ := h.placed
  cases hpolled with
  | pending =>
    by_cases hleft : watch.reader.leftover = []
    · obtain ⟨held, hquiet, content, hversion, hlookup⟩ := h.storage
      exact ⟨content, hversion, fun _ _ => hquiet.objects ▸ hlookup,
        (placed_of_leftover_nil hplaced hleft content).pollRead rfl⟩
    · exact ⟨since, hsince, fun hnil => absurd hnil hleft, hplaced.pollRead rfl⟩
  | answered hanswer =>
    obtain ⟨p, hleft, hrequest, content, hversion, hbody⟩ := h.inFlight hanswer remaining
    refine ⟨content, hversion, fun _ hnone => ?_, (placed_of_leftover_nil hplaced hleft
      content).pollRead (honest_of_body hrequest hbody)⟩
    rw [hnone] at hanswer
    cases hanswer
  | atOnce hleft hanswer hrequest hperforms =>
    obtain ⟨content, hversion, hlookup, hbody⟩ := h.body hF hR hurl hrequest hperforms
    exact ⟨content, hversion, fun _ _ => hlookup,
      (placed_of_leftover_nil hplaced hleft content).pollRead (honest_of_body hrequest hbody)⟩

/-- A storage is left as it was by the requests of a reader, whatever they are answered. -/
theorem Watch.Inv.storage_after {size : Nat} (h : watch.Inv path bucketName key size)
    {α : Type} {operation : Operation α} {result : Except S3Error α}
    (hperforms : Performs H secretKey operation watch.state result state') :
    ∃ held, Quiet held state' ∧ ∃ content ∈ watch.versions, held.lookup path = some content := by
  obtain ⟨held, hquiet, hheld⟩ := h.storage
  exact ⟨held, hquiet.after hperforms, hheld⟩

/-- A read keeps all of it. -/
theorem Watch.Inv.read {size : Nat} (h : watch.Inv url.path bucketName key size)
    (hF : P.segmentUrl.Faithful) (hR : P.xml.ReadsInPlace)
    (hurl : objectUrl P s3 bucketName key = .ok url)
    {polled : Poll (Except S3Error Reader.S3DownloadStream)}
    (hpolled : watch.Polled P H s3 secretKey remaining polled state') :
    (watch.read remaining polled state').Inv url.path bucketName key size := by
  obtain ⟨content, hversion, -, hplaced, -, -⟩ := h.read_placed hF hR hurl hpolled
  obtain ⟨hsize, hbucket, hkey⟩ := pollRead_keeps watch.reader remaining polled
  constructor
  · cases hpolled with
    | pending | answered _ => exact h.storage
    | atOnce _ _ _ hperforms => exact h.storage_after hperforms
  · exact ⟨content, hversion, hplaced⟩
  · exact hsize.trans h.size
  · exact hbucket.trans h.bucketName
  · exact hkey.trans h.key
  · cases hpolled with
    | pending =>
      intro response hanswer
      obtain ⟨p, hleft, hrequest, hbody⟩ := h.inFlight hanswer remaining
      refine ⟨p, ?_, hbody⟩
      simp only [Watch.read, S3Reader.pollRead_pending hleft hrequest]
    | answered _ | atOnce _ _ _ _ => exact nofun

/-- Whatever happens to a reader and its storage keeps it. -/
theorem Watch.Inv.step {size : Nat} (h : watch.Inv url.path bucketName key size)
    (hF : P.segmentUrl.Faithful) (hR : P.xml.ReadsInPlace)
    (hurl : objectUrl P s3 bucketName key = .ok url)
    (hstep : watch.Step P H s3 secretKey url.path next) :
    next.Inv url.path bucketName key size := by
  obtain ⟨since, hsince, hplaced⟩ := h.placed
  cases hstep with
  | read hpolled => exact h.read hF hR hurl hpolled
  | served hpending hanswer hperforms =>
    rename_i p timestamp result state'
    have hrequest : watch.reader.request 0 = some p := by
      rw [S3Reader.request, hpending]
    obtain ⟨content, hversion, -, hbody⟩ := h.body hF hR hurl hrequest hperforms
    refine { h with storage := h.storage_after hperforms, answered := ?_ }
    rintro response ⟨⟩
    exact ⟨p, hpending, content, hversion, hbody⟩
  | startSeek position =>
    obtain ⟨hsize, hbucket, hkey, hpending⟩ := startSeek_keeps watch.reader position
    exact ⟨h.storage, ⟨since, hsince, hplaced.startSeek position⟩, hsize.trans h.size,
      hbucket.trans h.bucketName, hkey.trans h.key, hpending ▸ h.answered⟩
  | pollComplete hrest =>
    obtain ⟨hsize, hbucket, hkey, hpending⟩ := pollComplete_keeps watch.reader
    exact ⟨h.storage, ⟨since, hsince, hplaced.pollComplete hrest⟩, hsize.trans h.size,
      hbucket.trans h.bucketName, hkey.trans h.key, hpending ▸ h.answered⟩
  | overwritten content hbound =>
    obtain ⟨held, hquiet, -⟩ := h.storage
    refine { h with
      storage := ⟨_, hquiet.putObject hbound, content, by simp, AList.lookup_insert held⟩
      placed := ⟨since, List.mem_append_left _ hsince, hplaced⟩
      answered := fun response hanswer => ?_ }
    obtain ⟨p, hpending, version, hversion, hbody⟩ := h.answered response hanswer
    exact ⟨p, hpending, version, List.mem_append_left _ hversion, hbody⟩
  | put content hother hbound =>
    obtain ⟨held, hquiet, version, hversion, hlookup⟩ := h.storage
    refine { h with storage := ⟨_, hquiet.putObject hbound, version, hversion, ?_⟩ }
    rw [AList.lookup_insert_ne (Ne.symm hother)]
    exact hlookup
  | elsewhere key head arrived =>
    obtain ⟨held, hquiet, hheld⟩ := h.storage
    exact { h with storage := ⟨held, hquiet.exchange, hheld⟩ }

/-- A reader never mixes the contents of an object within a read. Whatever is put under its path
and whenever, also between a request and its answer, with reads of any size, seeks at rest and
failures of the transport anywhere: the size stays what it was when the reader was opened, and
every read hands over bytes of one content that the path has held since then, at the position of
the reader, and moves behind them. A read that sends its request is of the content that is held
then. -/
theorem reads_one_version (hF : P.segmentUrl.Faithful) (hR : P.xml.ReadsInPlace)
    (hnone : readNodeText P.xml [] "Error/Code" = none) (hquiet : Quiet held state)
    (hurl : objectUrl P s3 bucketName key = .ok url) (hlookup : held.lookup url.path = some object)
    {reader : S3Reader} (hopen : Performs H secretKey (openReader P s3 timestamp bucketName key)
      state (.ok reader) state')
    (hrun : Relation.ReflTransGen (Watch.Step P H s3 secretKey url.path)
      ⟨reader, state', none, [object]⟩ watch) :
    watch.reader.size = object.length ∧
      ∀ remaining polled after, watch.Polled P H s3 secretKey remaining polled after →
        let out := watch.reader.pollRead remaining polled
        out.1.position = watch.reader.position + out.2.1.length ∧
          ∃ content ∈ watch.versions,
            (watch.reader.leftover = [] → watch.answer = none →
              watch.state.objects.lookup url.path = some content) ∧
            out.2.1 = bytesAt content watch.reader.position out.2.1.length := by
  have hinv : watch.Inv url.path bucketName key object.length := by
    induction hrun with
    | refl =>
      have hopened := open_reader hF hnone (entries_ne_nil hlookup) hquiet hurl hopen
      rw [hlookup] at hopened
      rcases hopened with ⟨err, hfailed⟩ | hopened
      · cases hfailed
      · cases hopened
        have hbound := hquiet.addressable _ _ hlookup
        exact ⟨⟨held, hquiet.after hopen, object, List.mem_singleton_self _, hlookup⟩,
          ⟨object, List.mem_singleton_self _, Reader.placed_new object bucketName key hbound⟩,
          rfl, rfl, rfl, nofun⟩
    | tail _ hstep ih => exact ih.step hF hR hurl hstep
  refine ⟨hinv.size, fun remaining polled after hpolled => ?_⟩
  obtain ⟨content, hversion, hcurrent, -, hposition, hhanded⟩ :=
    hinv.read_placed hF hR hurl hpolled
  exact ⟨hposition, content, hversion, hcurrent, hhanded⟩

/-- A reader is opened on three bytes, and they are overwritten under its first request. -/
theorem reads_one_version_overwritten :
    ∃ (reader : S3Reader) (state' : State) (watch : Watch),
      Performs plainPlatform.hashes "secret" (openReader plainPlatform plainClient
        (Xml.bytesOf "20240701T123456Z") "b" "k") (.holding plainUrl.path [1, 2, 3]) (.ok reader)
        state' ∧
      Relation.ReflTransGen
        (Watch.Step plainPlatform plainPlatform.hashes plainClient "secret" plainUrl.path)
        ⟨reader, state', none, [[1, 2, 3]]⟩ watch ∧
      watch.versions = [[1, 2, 3], [4, 5, 6, 7]] ∧ watch.reader.pending = some ⟨0, 3⟩ ∧
      watch.reader.size = 3 ∧
      ∀ remaining polled after,
        watch.Polled plainPlatform plainPlatform.hashes plainClient "secret" remaining polled
          after →
        ∃ content ∈ watch.versions,
          (watch.reader.pollRead remaining polled).2.1 = bytesAt content watch.reader.position
            (watch.reader.pollRead remaining polled).2.1.length := by
  obtain ⟨state', hopen⟩ := plain_openReader
  have hpolled : ∀ watch : Watch, watch.Polled plainPlatform plainPlatform.hashes plainClient
      "secret" 8 .pending watch.state := fun _ => .pending
  have hrun : Relation.ReflTransGen
      (Watch.Step plainPlatform plainPlatform.hashes plainClient "secret" plainUrl.path)
      ⟨.new "b" "k" 3, state', none, [[1, 2, 3]]⟩ _ :=
    (Relation.ReflTransGen.single (.read (hpolled _))).tail
      (.overwritten [4, 5, 6, 7] (by decide))
  obtain ⟨hsize, hreads⟩ := reads_one_version encodedSegmentsUrl_faithful
    Xml.placeReader_readsInPlace (readNodeText_placeReader_nil _) (quiet_holding (by decide))
    objectUrl_plain (AList.lookup_insert (a := plainUrl.path) (b := ([1, 2, 3] : Bytes))
      (∅ : Paths)) hopen hrun
  refine ⟨_, state', _, hopen, hrun, rfl, rfl, hsize, fun remaining polled after hread => ?_⟩
  obtain ⟨-, content, hversion, -, hhanded⟩ := hreads remaining polled after hread
  exact ⟨content, hversion, hhanded⟩

end MyS3.Storage
