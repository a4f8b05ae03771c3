import MyS3.Reader.Resumption
import MyS3.Storage.Open

/-!
# A reader over the storage

A reader that was opened on a stored object, while its requests are answered by the storage or
fail on their way, and others use the storage in between. What it hands over since its last
seek is the object from there to its position.
-/

namespace MyS3.Storage

open Xml (readNodeText)
open Client
open Reader (Placed PendingRead S3Reader SeekFrom bytesAt bytesAt_append honest range seeksAtRest)

/-- A reader, the storage, and what was handed over since the offset that was last sought. -/
structure Session where
  reader : S3Reader
  state : State
  since : Nat
  handed : Bytes

section Step

variable (P : Platform) (H : Hashes) (s3 : S3Client) (secretKey : String)

/-- What polling a request comes to: nothing yet, or what the client makes of the ranged `GET`. -/
inductive Session.Polled (session : Session) (remaining : Nat) :
    Poll (Except S3Error Reader.S3DownloadStream) → State → Prop
  | pending : Polled session remaining .pending session.state
  | ready {p : PendingRead} {timestamp : Bytes} {result : Except S3Error S3DownloadStream}
      {state' : State} (hleft : session.reader.leftover = [])
      (hrequest : session.reader.request remaining = some p)
      (hperforms : Performs H secretKey (downloadFileRange P s3 timestamp session.reader.bucketName
        session.reader.key p.start (some p.last)) session.state result state') :
      Polled session remaining (.ready (result.map S3DownloadStream.forReader)) state'

/-- A read, with its answer. -/
def Session.read (session : Session) (remaining : Nat)
    (polled : Poll (Except S3Error Reader.S3DownloadStream)) (state' : State) : Session where
  reader := (session.reader.pollRead remaining polled).1
  state := state'
  since := session.since
  handed := session.handed ++ (session.reader.pollRead remaining polled).2.1

/-- What happens in a session. -/
inductive Session.Step (session : Session) : Session → Prop
  | read {remaining : Nat} {polled : Poll (Except S3Error Reader.S3DownloadStream)} {state' : State}
      (hpolled : session.Polled P H s3 secretKey remaining polled state') :
      Step session (session.read remaining polled state')
  | startSeek (position : SeekFrom) :
      Step session { session with reader := (session.reader.startSeek position).1 }
  /-- A seek is applied, but not under a request. -/
  | pollComplete {target : Nat} (hseek : session.reader.seekTo = some target)
      (hrest : seeksAtRest session.reader .pollComplete = true) :
      Step session
        { session with reader := session.reader.pollComplete.1, since := target, handed := [] }
  /-- Somebody else uses the storage. -/
  | elsewhere (key : String) (head : Head) (arrived : Bytes) :
      Step session { session with state := (session.state.exchange H key head arrived).1 }

end Step

variable {P : Platform} {H : Hashes} {s3 : S3Client} {timestamp : Bytes} {secretKey : String}
  {held : Paths} {state state' : State} {bucketName key : String} {url : UrlBuilder}
  {object : Bytes} {session next : Session} {remaining : Nat}

/-- What a session keeps. -/
structure Session.Inv (held : Paths) (bucketName key : String) (object : Bytes)
    (session : Session) : Prop where
  quiet : Quiet held session.state
  placed : Placed object session.reader
  size : session.reader.size = object.length
  bucketName : session.reader.bucketName = bucketName
  key : session.reader.key = key
  forward : session.since ≤ session.reader.position
  handed : session.handed = bytesAt object session.since (session.reader.position - session.since)

/-- A read changes neither what is read nor how long it is. -/
theorem pollRead_keeps (r : S3Reader) (remaining : Nat)
    (polled : Poll (Except S3Error Reader.S3DownloadStream)) :
    (r.pollRead remaining polled).1.size = r.size ∧
      (r.pollRead remaining polled).1.bucketName = r.bucketName ∧
      (r.pollRead remaining polled).1.key = r.key := by
  by_cases hleft : r.leftover = []
  · cases hrequest : r.request remaining with
    | none =>
      rw [S3Reader.pollRead_none hleft hrequest]
      exact ⟨rfl, rfl, rfl⟩
    | some p =>
      cases polled with
      | pending =>
        rw [S3Reader.pollRead_pending hleft hrequest]
        exact ⟨rfl, rfl, rfl⟩
      | ready response =>
        rw [S3Reader.pollRead_ready hleft hrequest]
        unfold S3Reader.deliver
        split
        · exact ⟨rfl, rfl, rfl⟩
        · split
          · exact ⟨rfl, rfl, rfl⟩
          · split <;> exact ⟨rfl, rfl, rfl⟩
  · rw [S3Reader.pollRead_leftover hleft]
    exact ⟨rfl, rfl, rfl⟩

/-- A ranged `GET` of a reader is answered with its range, as far as the object has it, or fails. -/
theorem body_of_range (hF : P.segmentUrl.Faithful) (hR : P.xml.ReadsInPlace)
    (hquiet : Quiet held state) (hurl : objectUrl P s3 bucketName key = .ok url)
    (hlookup : held.lookup url.path = some object) {p : PendingRead} (hsome : 0 < p.requested)
    (hbound : p.start + p.requested < 2 ^ 64) {result : Except S3Error S3DownloadStream}
    (hperforms : Performs H secretKey
      (downloadFileRange P s3 timestamp bucketName key p.start (some p.last)) state result state') :
    (∃ err, p.body (result.map S3DownloadStream.forReader) = .error err) ∨
      p.body (result.map S3DownloadStream.forReader) = .ok (range object p.start p.last) := by
  have hlast : p.last + 1 = p.start + p.requested := by
    unfold PendingRead.last
    omega
  have hanswered := ranged_of_performs hF hR (entries_ne_nil hlookup) hquiet hurl
    (by omega) (fun l hl => by cases hl; omega) hperforms
  rw [hlookup] at hanswered
  simp only [range_lastAsked] at hanswered
  rcases hanswered with ⟨err, rfl⟩ | hanswered
  · exact .inl ⟨_, rfl⟩
  · split at hanswered
    · obtain ⟨stream, rfl, hdelivers⟩ := hanswered
      have hlength : (range object p.start p.last).length ≤ p.requested := by
        rw [range, List.length_take]
        omega
      rw [Except.map, ← S3DownloadStream.readRequested_eq stream p]
      cases hbody : stream.readRequested p.requested with
      | error err => exact .inl ⟨err, rfl⟩
      | ok bytes => exact .inr (congrArg Except.ok (hdelivers.readRequested _ bytes hlength hbody))
    · rw [hanswered]
      exact .inl ⟨_, rfl⟩

theorem Session.Inv.body (h : session.Inv held bucketName key object)
    (hF : P.segmentUrl.Faithful) (hR : P.xml.ReadsInPlace)
    (hurl : objectUrl P s3 bucketName key = .ok url) (hlookup : held.lookup url.path = some object)
    {p : PendingRead} (hrequest : session.reader.request remaining = some p)
    {result : Except S3Error S3DownloadStream} (hperforms : Performs H secretKey
      (downloadFileRange P s3 timestamp session.reader.bucketName session.reader.key p.start
        (some p.last)) session.state result state') :
    (∃ err, p.body (result.map S3DownloadStream.forReader) = .error err) ∨
      p.body (result.map S3DownloadStream.forReader) = .ok (range object p.start p.last) := by
  obtain ⟨-, hsome, hwithin⟩ := h.placed.request hrequest
  have hsize := h.placed.addressable
  rw [h.bucketName, h.key] at hperforms
  exact body_of_range hF hR h.quiet hurl hlookup hsome (by omega) hperforms

/-- Whatever a request is answered, the answer is honest. -/
theorem Session.Inv.honest (h : session.Inv held bucketName key object)
    (hF : P.segmentUrl.Faithful) (hR : P.xml.ReadsInPlace)
    (hurl : objectUrl P s3 bucketName key = .ok url) (hlookup : held.lookup url.path = some object)
    {polled : Poll (Except S3Error Reader.S3DownloadStream)}
    (hpolled : session.Polled P H s3 secretKey remaining polled state') :
    Reader.honest object session.reader (.pollRead remaining polled) = true := by
  cases hpolled with
  | pending => rfl
  | ready hleft hrequest hperforms =>
    simp only [Reader.honest, hrequest]
    rcases h.body hF hR hurl hlookup hrequest hperforms with ⟨err, hbody⟩ | hbody
    · rw [hbody]
    · rw [hbody]
      exact decide_eq_true fun _ => rfl

/-- The requests of a session leave the storage quiet. -/
theorem Session.Polled.quiet {polled : Poll (Except S3Error Reader.S3DownloadStream)}
    (hpolled : session.Polled P H s3 secretKey remaining polled state')
    (hquiet : Quiet held session.state) : Quiet held state' := by
  cases hpolled with
  | pending => exact hquiet
  | ready hleft hrequest hperforms => exact hquiet.after hperforms

/-- A read hands over what the object has at the position, and moves behind it. -/
theorem Session.Inv.read (h : session.Inv held bucketName key object)
    (hF : P.segmentUrl.Faithful) (hR : P.xml.ReadsInPlace)
    (hurl : objectUrl P s3 bucketName key = .ok url) (hlookup : held.lookup url.path = some object)
    {polled : Poll (Except S3Error Reader.S3DownloadStream)}
    (hpolled : session.Polled P H s3 secretKey remaining polled state') :
    (session.read remaining polled state').Inv held bucketName key object := by
  obtain ⟨hplaced, hposition, hhanded⟩ :=
    h.placed.pollRead (h.honest hF hR hurl hlookup hpolled)
  obtain ⟨hsize, hbucket, hkey⟩ := pollRead_keeps session.reader remaining polled
  have hforward := h.forward
  constructor
  · exact hpolled.quiet h.quiet
  · exact hplaced
  · exact hsize.trans h.size
  · exact hbucket.trans h.bucketName
  · exact hkey.trans h.key
  · simp only [Session.read, hposition]
    omega
  · simp only [Session.read, hposition]
    rw [← bytesAt_append hforward, ← hhanded, ← h.handed]

/-- Whatever happens in a session, it keeps that. -/
theorem Session.Inv.step (h : session.Inv held bucketName key object)
    (hF : P.segmentUrl.Faithful) (hR : P.xml.ReadsInPlace)
    (hurl : objectUrl P s3 bucketName key = .ok url) (hlookup : held.lookup url.path = some object)
    (hstep : session.Step P H s3 secretKey next) : next.Inv held bucketName key object := by
  cases hstep with
  | read hpolled => exact h.read hF hR hurl hlookup hpolled
  | startSeek position =>
    have hplaced := h.placed.startSeek position
    unfold S3Reader.startSeek at hplaced ⊢
    split
    · exact h
    · split
      · exact h
      · split
        · exact h
        · exact { h with placed := { h.placed with } }
  | pollComplete hseek hrest =>
    have hplaced := h.placed.pollComplete hrest
    rw [S3Reader.pollComplete, hseek] at hplaced ⊢
    exact { h with
      placed := hplaced
      forward := Nat.le_refl _
      handed := by simp [bytesAt] }
  | elsewhere key head arrived => exact { h with quiet := h.quiet.exchange }

/-- A read that succeeds without a byte, in spite of room for one, stands behind the object. -/
theorem Session.Inv.at_end (h : session.Inv held bucketName key object)
    (hF : P.segmentUrl.Faithful) (hR : P.xml.ReadsInPlace)
    (hurl : objectUrl P s3 bucketName key = .ok url) (hlookup : held.lookup url.path = some object)
    {polled : Poll (Except S3Error Reader.S3DownloadStream)}
    (hpolled : session.Polled P H s3 secretKey remaining polled state') (hroom : 0 < remaining)
    (hout : (session.reader.pollRead remaining polled).2 = ([], .ready (.ok ()))) :
    object.length ≤ session.reader.position := by
  have hmoved := ((h.placed.pollRead (h.honest hF hR hurl hlookup hpolled)).2).1
  rw [hout, List.length_nil, Nat.add_zero] at hmoved
  by_cases hbody : session.reader.leftover = [] → ∀ p response,
      session.reader.request remaining = some p → polled = .ready response →
        p.body response = .ok (range object p.start p.last)
  · have hc : Reader.Continued object session.reader remaining _ := h.placed.continued h.size hbody
    have hend := hc.progress (Nat.ne_of_gt hroom) (congrArg Prod.snd hout) (congrArg Prod.fst hout)
    rwa [hmoved, h.size] at hend
  · -- the request has failed, so the read has not succeeded
    exfalso
    apply hbody
    intro hleft p response hrequest hready
    cases hpolled with
    | pending => cases hready
    | ready hleft' hrequest' hperforms =>
      cases hready
      rw [hrequest] at hrequest'
      cases hrequest'
      rcases h.body hF hR hurl hlookup hrequest hperforms with ⟨err, hfailed⟩ | hrange
      · rw [S3Reader.pollRead_ready hleft hrequest, hfailed] at hout
        cases hout
      · exact hrange

/-- A reader that is opened on a stored object reads the object. In any session, with reads of any
size, seeks, failures of the transport anywhere and others at the storage, what was handed over
since the last seek is the object from there to the position, every read continues it, and one
that succeeds without a byte has the whole rest behind it. -/
theorem reader_reads_object (hF : P.segmentUrl.Faithful) (hR : P.xml.ReadsInPlace)
    (hnone : readNodeText P.xml [] "Error/Code" = none) (hquiet : Quiet held state)
    (hurl : objectUrl P s3 bucketName key = .ok url) (hlookup : held.lookup url.path = some object)
    {reader : S3Reader} (hopen : Performs H secretKey (openReader P s3 timestamp bucketName key)
      state (.ok reader) state')
    (hrun : Relation.ReflTransGen (Session.Step P H s3 secretKey) ⟨reader, state', 0, []⟩ session) :
    session.reader.size = object.length ∧
      session.handed = bytesAt object session.since (session.reader.position - session.since) ∧
      ∀ remaining polled after, session.Polled P H s3 secretKey remaining polled after →
        let out := session.reader.pollRead remaining polled
        out.1.position = session.reader.position + out.2.1.length ∧
          out.2.1 = bytesAt object session.reader.position out.2.1.length ∧
          (0 < remaining → out.2 = ([], .ready (.ok ())) →
            session.handed = object.drop session.since) := by
  have hinv : session.Inv held bucketName key object := by
    induction hrun with
    | refl =>
      have hopened := open_reader hF hnone (entries_ne_nil hlookup) hquiet hurl hopen
      rw [hlookup] at hopened
      rcases hopened with ⟨err, hfailed⟩ | hopened
      · cases hfailed
      · cases hopened
        have hbound := hquiet.addressable _ _ hlookup
        exact ⟨hquiet.after hopen, Reader.placed_new object bucketName key hbound, rfl, rfl, rfl,
          Nat.le_refl _, rfl⟩
    | tail _ hstep ih => exact ih.step hF hR hurl hlookup hstep
  refine ⟨hinv.size, hinv.handed, fun remaining polled after hpolled => ?_⟩
  obtain ⟨-, hposition, hhanded⟩ :=
    hinv.placed.pollRead (hinv.honest hF hR hurl hlookup hpolled)
  refine ⟨hposition, hhanded, fun hroom hout => ?_⟩
  have hend := hinv.at_end hF hR hurl hlookup hpolled hroom hout
  have hforward := hinv.forward
  rw [hinv.handed, bytesAt]
  apply List.take_of_length_le
  rw [List.length_drop]
  omega

/-- A reader can be opened on three bytes. -/
theorem plain_openReader : ∃ state', Performs plainPlatform.hashes "secret"
    (openReader plainPlatform plainClient (Xml.bytesOf "20240701T123456Z") "b" "k")
    (.holding plainUrl.path [1, 2, 3]) (.ok (.new "b" "k" 3)) state' := by
  have hquiet : Quiet _ (.holding plainUrl.path [1, 2, 3]) := quiet_holding (by decide)
  have hlookup := AList.lookup_insert (a := plainUrl.path) (b := ([1, 2, 3] : Bytes)) (∅ : Paths)
  obtain ⟨request, hrequest, hverb, htarget, hrange, hsends, htext⟩ : ∃ request,
      (openReader plainPlatform plainClient (Xml.bytesOf "20240701T123456Z") "b" "k").request =
        .ok request ∧ request.verb = Xml.bytesOf "HEAD" ∧ request.signed.target = plainUrl.target ∧
      request.range = none ∧ request.body.Sends [] ∧ IsText request := by
    simp only [openReader, getObjectSize, objectUrl_plain]
    exact ⟨_, rfl, rfl, rfl, rfl, rfl, by decide +kernel⟩
  obtain ⟨state', hopen⟩ := hquiet.answers plainPlatform.hashes "secret" hrequest hverb hsends
    (by decide) htext
  rw [htarget, hrange, serveFromObjects_whole (by decide) (.inr rfl) hlookup] at hopen
  have hopened := open_reader encodedSegmentsUrl_faithful (readNodeText_placeReader_nil _)
    (by decide) hquiet objectUrl_plain hopen
  rw [hlookup] at hopened
  rcases hopened with ⟨err, hfailed⟩ | hopened
  · cases hfailed
  · rw [hopened] at hopen
    exact ⟨state', hopen⟩

/-- A reader is opened on three bytes, seeks, reads the last one over two polls and stands at the
end. -/
theorem reader_reads_object_sought :
    ∃ (reader : S3Reader) (state' : State) (session : Session),
      Performs plainPlatform.hashes "secret" (openReader plainPlatform plainClient
        (Xml.bytesOf "20240701T123456Z") "b" "k") (.holding plainUrl.path [1, 2, 3]) (.ok reader)
        state' ∧
      Relation.ReflTransGen (Session.Step plainPlatform plainPlatform.hashes plainClient "secret")
        ⟨reader, state', 0, []⟩ session ∧
      session.since = 2 ∧ session.reader.position = 3 ∧ session.handed = [3] := by
  obtain ⟨state', hopen⟩ := plain_openReader
  have hlookup := AList.lookup_insert (a := plainUrl.path) (b := ([1, 2, 3] : Bytes)) (∅ : Paths)
  have hquiet : Quiet _ (.holding plainUrl.path [1, 2, 3]) := quiet_holding (by decide)
  have hwaits : ∀ session : Session, session.Polled plainPlatform plainPlatform.hashes plainClient
      "secret" 8 .pending session.state := fun _ => .pending
  have hasked : 2 ≤ 2 ∧ 2 < 2 ^ 64 := by decide
  obtain ⟨stream, state'', hperforms, hstream⟩ :=
    plain_downloadFileRange (hquiet.after hopen) hlookup (by decide) hasked
  let asked : Session := ⟨{ S3Reader.new "b" "k" 3 with position := 2, pending := some ⟨2, 1⟩ },
    state', 2, []⟩
  have hbegun : Relation.ReflTransGen
      (Session.Step plainPlatform plainPlatform.hashes plainClient "secret")
      ⟨.new "b" "k" 3, state', 0, []⟩ asked :=
    ((Relation.ReflTransGen.single (.startSeek (.start 2))).tail
      (.pollComplete rfl rfl)).tail (.read (hwaits _))
  have hanswered : asked.Polled plainPlatform plainPlatform.hashes plainClient "secret" 8
      (.ready (Except.map S3DownloadStream.forReader (.ok stream))) state'' :=
    .ready (p := ⟨2, 1⟩) rfl rfl hperforms
  have hrun : Relation.ReflTransGen
      (Session.Step plainPlatform plainPlatform.hashes plainClient "secret")
      ⟨.new "b" "k" 3, state', 0, []⟩ (asked.read 8 (.ready (.ok stream.forReader)) state'') :=
    hbegun.tail (.read hanswered)
  obtain ⟨-, -, hreads⟩ := reader_reads_object encodedSegmentsUrl_faithful
    Xml.placeReader_readsInPlace (readNodeText_placeReader_nil _) hquiet objectUrl_plain hlookup
    hopen hrun
  have hreader : (asked.read 8 (.ready (.ok stream.forReader)) state'').reader =
      { S3Reader.new "b" "k" 3 with position := 3 } := by
    rw [hstream]
    rfl
  have hend := (hreads 8 .pending state'' .pending).2.2 (by decide)
  rw [hreader] at hend
  exact ⟨_, state', _, hopen, hrun, rfl, congrArg S3Reader.position hreader, hend rfl⟩

end MyS3.Storage
