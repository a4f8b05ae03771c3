import MyS3.Client.Response
import MyS3.Reader.Failure

/-!
# Reading a download

What a caller has been handed, call by call, and when it may believe that the object ended. The
loops over `get_next_chunk` are read as facts about the pieces of the body.
-/

namespace MyS3.Client.S3DownloadStream

open Reader (collect endOfStream)

variable {stream : S3DownloadStream}

/-- One call counts exactly what it hands over. -/
theorem received_getNextChunk (stream : S3DownloadStream) :
    stream.getNextChunk.1.received =
        stream.received + (handed [stream.getNextChunk.2]).length ∧
      stream.getNextChunk.1.contentLength = stream.contentLength := by
  rcases stream.getNextChunk_cases with ⟨chunk, body, -, hcall⟩ | ⟨err, body, -, hcall⟩ |
    ⟨-, hcall⟩
  · rw [hcall]
    simp [handed]
  · rw [hcall]
    simp [handed]
  · rw [hcall]
    cases hend : endOfStream stream.contentLength stream.received with
    | error err => simp [handed, Except.map]
    | ok _ => simp [handed, Except.map]

theorem handed_cons (answer : Except S3Error (Option Bytes))
    (answers : List (Except S3Error (Option Bytes))) :
    handed (answer :: answers) = handed [answer] ++ handed answers := by
  simp [handed]

/-- Any number of calls counts exactly what it hands over. -/
theorem received_calls (n : Nat) (stream : S3DownloadStream) :
    (calls n stream).1.received = stream.received + (handed (calls n stream).2).length ∧
      (calls n stream).1.contentLength = stream.contentLength := by
  induction n generalizing stream with
  | zero => exact ⟨rfl, rfl⟩
  | succ n ih =>
    obtain ⟨hreceived, hlength⟩ := stream.received_getNextChunk
    obtain ⟨ihreceived, ihlength⟩ := ih stream.getNextChunk.1
    simp only [calls_succ]
    rw [handed_cons, List.length_append]
    constructor
    · rw [ihreceived, hreceived, Nat.add_assoc]
    · rw [ihlength, hlength]

/-- An end is believed only behind the declared length. -/
theorem declared_le_of_getNextChunk {expected : Nat}
    (hcall : stream.getNextChunk.2 = .ok none) (hlength : stream.contentLength = some expected) :
    expected ≤ stream.received := by
  rcases stream.getNextChunk_cases with ⟨chunk, body, -, heq⟩ | ⟨err, body, -, heq⟩ | ⟨-, heq⟩
  · rw [heq] at hcall
    cases hcall
  · rw [heq] at hcall
    cases hcall
  · rw [heq] at hcall
    cases hend : endOfStream stream.contentLength stream.received with
    | error err =>
      rw [hend] at hcall
      cases hcall
    | ok _ => exact declared_le_of_end hend hlength

/-- In any run of calls, an end is reported only if at least as many bytes as were declared have
been received before it. -/
theorem declared_le_of_mem_calls {n expected : Nat} (hlength : stream.contentLength = some expected)
    (h : .ok none ∈ (calls n stream).2) :
    expected ≤ stream.received + (handed (calls n stream).2).length := by
  induction n generalizing stream with
  | zero => cases h
  | succ n ih =>
    obtain ⟨hreceived, hkept⟩ := stream.received_getNextChunk
    simp only [calls_succ, List.mem_cons] at h ⊢
    rw [handed_cons, List.length_append]
    rcases h with hend | hlater
    · have hdeclared := declared_le_of_getNextChunk hend.symm hlength
      omega
    · have hrest := ih (hkept.trans hlength) hlater
      omega

/-- Calls without an error hand over the pieces of the body from its front on. -/
theorem handed_prefix {n : Nat} {chunks : List Bytes} {rest : List (Except FlUrlError Bytes)}
    (hbody : stream.body = chunks.map .ok ++ rest) (hrest : ∀ chunk, rest.head? ≠ some (.ok chunk))
    (hok : ∀ answer ∈ (calls n stream).2, ∃ chunk, answer = .ok chunk) :
    handed (calls n stream).2 <+: chunks.flatten := by
  induction n generalizing stream chunks with
  | zero => exact List.nil_prefix
  | succ n ih =>
    simp only [calls_succ, List.forall_mem_cons] at hok ⊢
    obtain ⟨hfirst, hlater⟩ := hok
    rw [handed_cons]
    rcases stream.getNextChunk_cases with ⟨chunk, body, hitem, hcall⟩ | ⟨err, body, hitem, hcall⟩ |
      ⟨hitem, hcall⟩
    · rw [hcall] at hlater ⊢
      cases chunks with
      | nil =>
        rw [List.map_nil, List.nil_append, hitem] at hbody
        exact absurd (congrArg List.head? hbody.symm) (hrest chunk)
      | cons first chunks =>
        rw [hitem, List.map_cons, List.cons_append, List.cons.injEq] at hbody
        obtain ⟨hchunk, hbody⟩ := hbody
        cases hchunk
        have hprefix := ih hbody hlater
        rw [List.flatten_cons]
        simpa only [handed, List.flatMap_cons, List.flatMap_nil, List.append_nil,
          List.prefix_append_right_inj] using hprefix
    · rw [hcall] at hfirst
      obtain ⟨chunk, hchunk⟩ := hfirst
      cases hchunk
    · have hempty : chunks = [] := by
        rw [hitem] at hbody
        simpa using (List.append_eq_nil_iff.mp hbody.symm).1
      subst hempty
      have hsame : stream.getNextChunk.1 = stream := by rw [hcall]
      have hnone : handed [stream.getNextChunk.2] = [] := by
        rw [hcall]
        cases endOfStream stream.contentLength stream.received <;> rfl
      rw [hsame] at hlater ⊢
      rw [hnone, List.nil_append]
      exact ih hbody hlater

/-- Reading to the end succeeds exactly on a body that arrived in pieces, without an error, and
is no shorter than it was declared to be. -/
theorem collectUntil_never {n : Nat} {collected bytes : Bytes} (hfuel : stream.body.length < n) :
    collectUntil (fun _ => false) n stream collected = .ok bytes ↔
      ∃ chunks : List Bytes, stream.body = chunks.map .ok ∧ bytes = collected ++ chunks.flatten ∧
        endOfStream stream.contentLength (stream.received + chunks.flatten.length) = .ok () := by
  induction n generalizing stream collected with
  | zero => cases hfuel
  | succ n ih =>
    rw [collectUntil]
    rcases stream.getNextChunk_cases with ⟨chunk, body, hitem, hcall⟩ | ⟨err, body, hitem, hcall⟩ |
      ⟨hitem, hcall⟩
    · rw [hitem, List.length_cons] at hfuel
      simp only [hcall, Bool.false_eq_true, if_false]
      rw [ih (Nat.lt_of_succ_lt_succ hfuel)]
      constructor
      · rintro ⟨chunks, hbody, rfl, hend⟩
        have hpieces : body = chunks.map .ok := hbody
        refine ⟨chunk :: chunks, by rw [hitem, hpieces, List.map_cons], by simp, ?_⟩
        rw [List.flatten_cons, List.length_append, ← Nat.add_assoc]
        exact hend
      · rintro ⟨chunks, hbody, rfl, hend⟩
        cases chunks with
        | nil =>
          rw [hitem] at hbody
          cases hbody
        | cons first chunks =>
          rw [hitem, List.map_cons, List.cons.injEq] at hbody
          obtain ⟨hchunk, hbody⟩ := hbody
          cases hchunk
          refine ⟨chunks, hbody, by simp, ?_⟩
          rw [List.flatten_cons, List.length_append, ← Nat.add_assoc] at hend
          exact hend
    · simp only [hcall]
      constructor
      · intro h
        cases h
      · rintro ⟨chunks, hbody, -, -⟩
        rw [hitem] at hbody
        cases chunks <;> cases hbody
    · simp only [hcall]
      have hnone : ∀ chunks : List Bytes, stream.body = chunks.map .ok → chunks = [] := by
        intro chunks hbody
        rw [hitem] at hbody
        exact List.map_eq_nil_iff.mp hbody.symm
      cases hend : endOfStream stream.contentLength stream.received with
      | error err =>
        constructor
        · intro h
          cases h
        · rintro ⟨chunks, hbody, -, hchunks⟩
          rw [hnone chunks hbody, List.flatten_nil, List.length_nil, Nat.add_zero, hend] at hchunks
          cases hchunks
      | ok _ =>
        constructor
        · intro h
          cases h
          exact ⟨[], hitem, by simp, hend⟩
        · rintro ⟨chunks, hbody, rfl, -⟩
          rw [hnone chunks hbody, List.flatten_nil, List.append_nil]
          rfl

theorem readToEnd_eq_ok {bytes : Bytes} :
    stream.readToEnd = .ok bytes ↔
      ∃ chunks : List Bytes, stream.body = chunks.map .ok ∧ bytes = chunks.flatten ∧
        endOfStream stream.contentLength (stream.received + chunks.flatten.length) = .ok () := by
  rw [readToEnd, collectUntil_never (Nat.lt_succ_self _)]
  simp only [List.nil_append]

/-- What a loop has collected is the front of the pieces: with enough of them it stops, and
otherwise only behind the last. -/
theorem collectUntil_front {enough : Bytes → Bool} {n : Nat} {collected bytes : Bytes}
    (hfuel : stream.body.length < n) (h : collectUntil enough n stream collected = .ok bytes) :
    ∃ (chunks : List Bytes) (rest : List (Except FlUrlError Bytes)),
      stream.body = chunks.map .ok ++ rest ∧ bytes = collected ++ chunks.flatten ∧
        (enough bytes = true ∨ rest = []) := by
  induction n generalizing stream collected with
  | zero => cases hfuel
  | succ n ih =>
    rw [collectUntil] at h
    rcases stream.getNextChunk_cases with ⟨chunk, body, hitem, hcall⟩ | ⟨err, body, hitem, hcall⟩ |
      ⟨hitem, hcall⟩
    · rw [hitem, List.length_cons] at hfuel
      simp only [hcall] at h
      split at h
      · rename_i henough
        cases h
        exact ⟨[chunk], body, hitem, by simp, .inl henough⟩
      · obtain ⟨chunks, rest, hbody, rfl, hend⟩ := ih (Nat.lt_of_succ_lt_succ hfuel) h
        have hpieces : body = chunks.map .ok ++ rest := hbody
        refine ⟨chunk :: chunks, rest, by rw [hitem, hpieces, List.map_cons, List.cons_append], ?_,
          hend⟩
        rw [List.flatten_cons, List.append_assoc]
    · simp only [hcall] at h
      cases h
    · simp only [hcall] at h
      cases hend : endOfStream stream.contentLength stream.received with
      | error err =>
        rw [hend] at h
        cases h
      | ok _ =>
        rw [hend] at h
        cases h
        exact ⟨[], [], hitem, by simp, .inr rfl⟩

/-- The body of a stream as a reader's request goes through it. -/
def forReader (stream : S3DownloadStream) : Reader.S3DownloadStream where
  contentLength := stream.contentLength
  received := stream.received
  items := stream.body.map fun item => item.mapError .flUrlError

/-- The future of a request is the loop over the pieces of its body. -/
theorem collectUntil_requested {n requested : Nat} {collected : Bytes}
    (hfuel : stream.body.length < n) :
    collectUntil (fun body => requested < body.length) n stream collected =
      collect requested stream.contentLength stream.forReader.items stream.received collected := by
  induction n generalizing stream collected with
  | zero => cases hfuel
  | succ n ih =>
    rw [collectUntil]
    rcases stream.getNextChunk_cases with ⟨chunk, body, hitem, hcall⟩ | ⟨err, body, hitem, hcall⟩ |
      ⟨hitem, hcall⟩
    · rw [hitem, List.length_cons] at hfuel
      simp only [hcall, forReader, hitem, List.map_cons, Except.mapError, collect,
        decide_eq_true_eq]
      by_cases hlong : requested < (collected ++ chunk).length
      · rw [if_pos hlong, if_pos hlong]
      · rw [if_neg hlong, if_neg hlong]
        exact ih (Nat.lt_of_succ_lt_succ hfuel)
    · simp only [hcall, forReader, hitem, List.map_cons, Except.mapError, collect]
    · simp only [hcall, forReader, hitem, List.map_nil, collect]
      cases endOfStream stream.contentLength stream.received <;> rfl

/-- So the reader's model of a request is the client's stream, read through `get_next_chunk`. -/
theorem readRequested_eq (stream : S3DownloadStream) (p : Reader.PendingRead) :
    stream.readRequested p.requested = p.body (.ok stream.forReader) :=
  collectUntil_requested (Nat.lt_succ_self _)

/-- A body is long enough exactly if it is as long as it was declared to be. -/
theorem endOfStream_eq_ok {contentLength : Option Nat} {received : Nat} :
    endOfStream contentLength received = .ok () ↔
      ∀ expected, contentLength = some expected → expected ≤ received := by
  constructor
  · exact fun h expected hlength => declared_le_of_end h hlength
  · intro h
    cases contentLength with
    | none => rfl
    | some expected => exact if_neg (Nat.not_lt.mpr (h expected rfl))

/-- A download is complete or it fails. In any run of calls `received` is what was handed over
and an end comes only behind the declared length; reading to the end gives a body exactly where
it arrived without an error and is no shorter than declared; and the loop of a reader's request
is the same loop. -/
theorem complete_or_fails {response : FlUrlResponse} {stream : S3DownloadStream}
    (hstream : fromResponse response = .ok stream) :
    (∀ n, (calls n stream).1.received = (handed (calls n stream).2).length ∧
      ∀ expected, response.contentLength = some expected → .ok none ∈ (calls n stream).2 →
        expected ≤ (handed (calls n stream).2).length) ∧
    (∀ bytes, stream.readToEnd = .ok bytes ↔
      ∃ (body : FlUrlBody) (chunks : List Bytes), response.getBody = .ok body ∧
        body.items = chunks.map .ok ∧ bytes = chunks.flatten ∧
        ∀ expected, response.contentLength = some expected → expected ≤ bytes.length) ∧
    ∀ p : Reader.PendingRead, stream.readRequested p.requested = p.body (.ok stream.forReader) := by
  obtain ⟨body, hbody, hmade⟩ := bind_ok hstream
  have hget := mapError_ok hbody
  cases hmade
  refine ⟨fun n => ?_, fun bytes => ?_, readRequested_eq _⟩
  · obtain ⟨hreceived, -⟩ := received_calls n
      ⟨response.contentLength, response.getHeaderCaseInsensitive "content-type", body.items, 0⟩
    refine ⟨hreceived.trans (Nat.zero_add _), fun expected hlength hend => ?_⟩
    have hdeclared := declared_le_of_mem_calls hlength hend
    rwa [Nat.zero_add] at hdeclared
  · rw [readToEnd_eq_ok]
    simp only [Nat.zero_add, endOfStream_eq_ok]
    constructor
    · rintro ⟨chunks, hitems, rfl, hend⟩
      exact ⟨body, chunks, hget, hitems, rfl, hend⟩
    · rintro ⟨body', chunks, hget', hitems, rfl, hend⟩
      rw [hget] at hget'
      cases hget'
      exact ⟨chunks, hitems, rfl, hend⟩

/-- Two pieces of a body that was declared to have four bytes: the third call fails, and so does
reading to the end. -/
theorem complete_or_fails_truncated :
    let body : FlUrlBody := ⟨[.ok [1], .ok [2, 3]], fun _ => .ok [1, 2, 3]⟩
    let response : FlUrlResponse :=
      ⟨200, fun name => if name = "content-length" then some "4" else none, .ok body⟩
    let stream : S3DownloadStream := ⟨some 4, none, body.items, 0⟩
    fromResponse response = .ok stream ∧
      (calls 3 stream).1.received = 3 ∧ .ok none ∉ (calls 3 stream).2 ∧
      ∀ bytes, stream.readToEnd ≠ .ok bytes := by
  intro body response stream
  have hstream : fromResponse response = .ok stream := by
    have hlength : Xml.parseU64 (Xml.trim "4") = some 4 := by decide
    simp only [fromResponse, FlUrlResponse.contentLength, response, stream, if_true]
    rw [Option.bind_some, hlength]
    rfl
  have hcomplete := complete_or_fails hstream
  have hlength : response.contentLength = some 4 := by decide
  obtain ⟨hreceived, hend⟩ := hcomplete.1 3
  refine ⟨hstream, by decide, fun h => ?_, fun bytes hread => ?_⟩
  · have hfour := hend 4 hlength h
    rw [← hreceived] at hfour
    exact absurd hfour (by decide)
  · obtain ⟨body', chunks, hget, hitems, rfl, hfour⟩ := (hcomplete.2.1 bytes).mp hread
    cases hget
    have hthree : (chunks.map (Except.ok (ε := FlUrlError))) = [[1], [2, 3]].map .ok := hitems.symm
    have hinj := List.map_injective_iff.mpr (fun _ _ h => Except.ok.inj h) hthree
    subst hinj
    exact absurd (hfour 4 hlength) (by decide)

end MyS3.Client.S3DownloadStream
