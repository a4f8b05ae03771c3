import MyS3.Reader.Position

/-!
# Failed reads and seeks

A read that completes its request puts bytes into the buffer only when the body was as long
as the range. Every other answer leaves the reader at its position, without a request and
without a leftover. A seek moves by an exact sum or is refused.
-/

namespace MyS3.Reader

open Interleaving

/-- A response delivers the whole of a body: in some pieces and without an error. -/
def Delivers (response : Except S3Error S3DownloadStream) (body : Bytes) : Prop :=
  ∃ (stream : S3DownloadStream) (chunks : List Bytes), response = .ok stream ∧
    stream.items = chunks.map .ok ∧ chunks.flatten = body

/-- A response delivers a body of exactly this length. -/
def DeliversExactly (response : Except S3Error S3DownloadStream) (n : Nat) : Prop :=
  ∃ body, Delivers response body ∧ body.length = n

/-- A body that was collected is the whole body, unless it is already too long. -/
theorem collect_eq_ok {requested : Nat} {contentLength : Option Nat}
    {items : List (Except S3Error Bytes)} {received : Nat} {start body : Bytes}
    (h : collect requested contentLength items received start = .ok body)
    (hlength : body.length ≤ requested) :
    ∃ chunks : List Bytes, items = chunks.map .ok ∧ start ++ chunks.flatten = body := by
  induction items generalizing received start with
  | nil =>
    refine ⟨[], rfl, ?_⟩
    unfold collect at h
    cases hend : endOfStream contentLength received with
    | error err =>
      rw [hend] at h
      cases h
    | ok _ =>
      rw [hend] at h
      cases h
      exact List.append_nil start
  | cons item items ih =>
    cases item with
    | error err => cases h
    | ok chunk =>
      unfold collect at h
      split at h
      · rename_i hlong
        cases h
        omega
      · obtain ⟨chunks, hitems, hbody⟩ := ih h
        refine ⟨chunk :: chunks, ?_, ?_⟩
        · rw [hitems, List.map_cons]
        · rw [← hbody, List.flatten_cons, List.append_assoc]

/-- The future of a request resolves to a body of the requested length only if that is the
body delivered. -/
theorem PendingRead.delivers_of_body {p : PendingRead}
    {response : Except S3Error S3DownloadStream} {body : Bytes}
    (h : p.body response = .ok body) (hlength : body.length = p.requested) :
    Delivers response body := by
  cases response with
  | error err => cases h
  | ok stream =>
    obtain ⟨chunks, hitems, hbody⟩ := collect_eq_ok h (Nat.le_of_eq hlength)
    exact ⟨stream, chunks, rfl, hitems, hbody⟩

namespace S3Reader

variable {r : S3Reader} {remaining requested : Nat} {result : Except S3Error Bytes}
  {response : Except S3Error S3DownloadStream} {p : PendingRead}

/-- The two ways to deliver a body: it has the requested length and is drained, or the
reader is as it was. -/
theorem deliver_cases (r : S3Reader) (remaining requested : Nat)
    (result : Except S3Error Bytes) :
    (∃ body, result = .ok body ∧ body.length = requested ∧
      (r.deliver remaining requested result).2.2 = .ok ()) ∨
    ∃ err, r.deliver remaining requested result = (r, [], .error err) := by
  cases result with
  | error err => exact .inr ⟨toIoError err, rfl⟩
  | ok body =>
    by_cases hshort : body.length < requested
    · exact .inr ⟨_, if_pos hshort⟩
    · by_cases hlong : requested < body.length
      · exact .inr ⟨_, (if_neg hshort).trans (if_pos hlong)⟩
      · refine .inl ⟨body, rfl, by omega, ?_⟩
        simp only [deliver, if_neg hshort, if_neg hlong]

theorem deliver_pending : (r.deliver remaining requested result).1.pending = r.pending := by
  unfold deliver
  split
  · rfl
  · split
    · rfl
    · split <;> rfl

/-- A read never looks at a seek that was started. -/
theorem pollRead_seekTo (seekTo : Option Nat) (remaining : Nat)
    (polled : Poll (Except S3Error S3DownloadStream)) :
    S3Reader.pollRead { r with seekTo := seekTo } remaining polled =
      let out := r.pollRead remaining polled
      ({ out.1 with seekTo := seekTo }, out.2) := by
  by_cases hleft : r.leftover = []
  · cases hrequest : r.request remaining with
    | none =>
      have hrequest' : S3Reader.request { r with seekTo := seekTo } remaining = none := hrequest
      rw [pollRead_none hleft hrequest, pollRead_none (by exact hleft) hrequest']
    | some p =>
      have hrequest' : S3Reader.request { r with seekTo := seekTo } remaining = some p := hrequest
      cases polled with
      | pending =>
        rw [pollRead_pending hleft hrequest, pollRead_pending (by exact hleft) hrequest']
      | ready response =>
        rw [pollRead_ready hleft hrequest, pollRead_ready (by exact hleft) hrequest']
        unfold deliver
        split
        · rfl
        · split
          · rfl
          · split <;> rfl
  · rw [pollRead_leftover hleft, pollRead_leftover (by exact hleft)]
    rfl

/-- A reader holds a request or a leftover, never both. -/
def Exclusive (r : S3Reader) : Prop := r.leftover ≠ [] → r.pending = none

theorem Exclusive.step {r' : S3Reader} {l : ReaderLabel} (h : r.Exclusive)
    (hstep : r.step l = some r') : r'.Exclusive := by
  cases l with
  | pollRead remaining polled =>
    cases hstep
    by_cases hleft : r.leftover = []
    · cases hrequest : r.request remaining with
      | none => simpa only [pollRead_none hleft hrequest] using h
      | some p =>
        cases polled with
        | pending =>
          rw [pollRead_pending hleft hrequest]
          exact fun hne => absurd hleft hne
        | ready response =>
          rw [pollRead_ready hleft hrequest]
          exact fun _ => deliver_pending
    · rw [pollRead_leftover hleft]
      exact fun _ => h hleft
  | startSeek position =>
    cases hstep
    unfold startSeek
    split
    · exact h
    · split
      · exact h
      · split <;> exact h
  | pollComplete =>
    cases hstep
    unfold pollComplete
    split
    · exact fun hne => absurd rfl hne
    · exact h

theorem exclusive_of_reaches {bucketName key : String} {size : Nat}
    (hrun : Reaches S3Reader.step anyLabel (.new bucketName key size) r) : r.Exclusive :=
  hrun.invariant (fun _ => rfl) fun _ _ _ h _ hstep => h.step hstep

/-- A read with this much room completes the request `p`: the one in flight, or the one that
it starts itself. -/
def Completes (r : S3Reader) (remaining : Nat) (p : PendingRead) : Prop :=
  r.pending = some p ∨
    r.pending = none ∧ r.leftover = [] ∧ r.position < r.size ∧ remaining ≠ 0 ∧
      p = r.startRead remaining

/-- A request is polled where there is no leftover. -/
theorem Completes.request (h : r.Completes remaining p) (hex : r.Exclusive) :
    r.leftover = [] ∧ r.request remaining = some p := by
  rcases h with hpending | ⟨hpending, hleft, hroom, hbuf, rfl⟩
  · refine ⟨?_, by simp only [S3Reader.request, hpending]⟩
    by_cases hleft : r.leftover = []
    · exact hleft
    · exact absurd ((hex hleft).symm.trans hpending) (by simp)
  · refine ⟨hleft, ?_⟩
    simp only [S3Reader.request, hpending]
    exact if_neg (by omega)

/-- A reader that was just opened, standing at the position of `r`. -/
def fresh (r : S3Reader) : S3Reader :=
  { S3Reader.new r.bucketName r.key r.size with position := r.position }

/-- What a read that completes a request may answer. -/
structure Completed (r : S3Reader) (p : PendingRead)
    (response : Except S3Error S3DownloadStream)
    (out : S3Reader × Bytes × Poll (Except IoError Unit)) : Prop where
  /-- Bytes are handed over only from a body as long as the range. -/
  exactly : out.2.1 ≠ [] → DeliversExactly response p.requested
  /-- Every other response is an error. -/
  refused : ¬ DeliversExactly response p.requested → ∃ err, out.2.2 = .ready (.error err)
  /-- An error fills nothing and leaves the reader where it was. -/
  restored : ∀ err, out.2.2 = .ready (.error err) →
    out.2.1 = [] ∧ out.1.position = r.position ∧ out.1.size = r.size ∧
      out.1.seekTo = r.seekTo ∧ out.1.pending = none ∧ out.1.leftover = []
  /-- Behind an error, the next read is that of a fresh reader. -/
  next : ∀ err, out.2.2 = .ready (.error err) → ∀ remaining polled,
    out.1.pollRead remaining polled =
      let after := r.fresh.pollRead remaining polled
      ({ after.1 with seekTo := r.seekTo }, after.2)

/-- The error exits of a read all restore the same reader. -/
theorem completed_of_exclusive (hex : r.Exclusive) (hcompletes : r.Completes remaining p) :
    Completed r p response (r.pollRead remaining (.ready response)) := by
  obtain ⟨hleft, hrequest⟩ := hcompletes.request hex
  have hfresh : ({ r with pending := none } : S3Reader) = { r.fresh with seekTo := r.seekTo } := by
    simp only [fresh, S3Reader.new, ← hleft]
  rw [pollRead_ready hleft hrequest]
  rcases deliver_cases { r with pending := none } remaining p.requested (p.body response) with
    ⟨body, hbody, hlength, hok⟩ | ⟨err, herr⟩
  · have hexact : DeliversExactly response p.requested :=
      ⟨body, p.delivers_of_body hbody hlength, hlength⟩
    refine ⟨fun _ => hexact, fun hnot => absurd hexact hnot, fun err herr => ?_,
      fun err herr => ?_⟩
    · simp only [hok] at herr
      cases herr
    · simp only [hok] at herr
      cases herr
  · simp only [herr]
    refine ⟨fun hne => absurd rfl hne, fun _ => ⟨err, rfl⟩,
      fun _ _ => ⟨rfl, rfl, rfl, rfl, rfl, hleft⟩, fun _ _ remaining polled => ?_⟩
    rw [hfresh]
    exact pollRead_seekTo r.seekTo remaining polled

/-- What a seek is relative to. -/
def base (r : S3Reader) : SeekFrom → Int
  | .start _ => 0
  | .current _ => r.position
  | .end _ => r.size

end S3Reader

/-- How far a seek goes from its base. -/
def SeekFrom.delta : SeekFrom → Int
  | .start offset => offset.toNat
  | .current delta => delta.toInt
  | .end delta => delta.toInt

namespace S3Reader

variable {r : S3Reader} {position : SeekFrom}

theorem resolveOffset_cases (base : Nat) (delta : Int) (baseName : String) :
    (∃ target : Nat, (target : Int) = base + delta ∧ target ≤ 2 ^ 64 - 1 ∧
      resolveOffset base delta baseName = .ok target) ∨
    ¬ (0 ≤ base + delta ∧ base + delta ≤ 2 ^ 64 - 1) ∧
      ∃ message, resolveOffset base delta baseName = .error ⟨.invalidInput, message⟩ := by
  by_cases hlow : (base : Int) + delta < 0
  · exact .inr ⟨by omega, _, if_pos hlow⟩
  · by_cases hhigh : 2 ^ 64 - 1 < (base : Int) + delta
    · exact .inr ⟨by omega, _, (if_neg hlow).trans (if_pos hhigh)⟩
    · refine .inl ⟨((base : Int) + delta).toNat, by omega, by omega, ?_⟩
      exact (if_neg hlow).trans (if_neg hhigh)

/-- A seek resolves to the exact sum, or is out of the range of an offset. -/
theorem target_cases (r : S3Reader) (position : SeekFrom) :
    (∃ target : Nat, (target : Int) = r.base position + position.delta ∧
      target ≤ 2 ^ 64 - 1 ∧ r.target position = .ok target) ∨
    ¬ (0 ≤ r.base position + position.delta ∧
        r.base position + position.delta ≤ 2 ^ 64 - 1) ∧
      ∃ message, r.target position = .error ⟨.invalidInput, message⟩ := by
  cases position with
  | start offset =>
    refine .inl ⟨offset.toNat, ?_, ?_, rfl⟩
    · simp only [base, SeekFrom.delta, Int.zero_add]
    · have := offset.toNat_lt
      omega
  | current delta => exact resolveOffset_cases r.position delta.toInt _
  | «end» delta => exact resolveOffset_cases r.size delta.toInt _

theorem startSeek_rest (hpending : r.pending = none) (hseek : r.seekTo = none) :
    r.startSeek position =
      match r.target position with
      | .error err => (r, .error err)
      | .ok target => ({ r with seekTo := some target }, .ok ()) := by
  unfold startSeek
  refine (if_neg (by simp [hpending])).trans ((if_neg (by simp [hseek])).trans ?_)
  cases r.target position <;> rfl

/-- Both halves of a seek of a reader at rest. -/
theorem seek_exact (hpending : r.pending = none) (hseek : r.seekTo = none) :
    if 0 ≤ r.base position + position.delta ∧ r.base position + position.delta ≤ 2 ^ 64 - 1 then
      (r.startSeek position).2 = .ok () ∧
      ∃ target : Nat, (target : Int) = r.base position + position.delta ∧
        (r.startSeek position).1.pollComplete =
          ({ r with position := target, leftover := [] }, target)
    else ∃ message, r.startSeek position = (r, .error ⟨.invalidInput, message⟩) := by
  rcases r.target_cases position with ⟨target, hsum, hbound, htarget⟩ | ⟨hout, message, htarget⟩
  · rw [if_pos (by omega)]
    rw [startSeek_rest hpending hseek, htarget]
    refine ⟨rfl, target, hsum, ?_⟩
    simp only [pollComplete, hseek]
  · rw [if_neg hout]
    exact ⟨message, by rw [startSeek_rest hpending hseek, htarget]⟩

theorem startSeek_refused (h : r.pending.isSome ∨ r.seekTo.isSome) :
    ∃ err, r.startSeek position = (r, .error err) := by
  unfold startSeek
  by_cases hpending : r.pending.isSome = true
  · exact ⟨_, if_pos hpending⟩
  · exact ⟨_, (if_neg hpending).trans (if_pos (h.resolve_left hpending))⟩

end S3Reader

/-- A failed read or seek leaves a reader where it was, and a seek that does not fail moves
it by exactly what was asked. -/
theorem failed_call_restores :
    (∀ (bucketName key : String) (size : Nat) (r : S3Reader),
      Reaches S3Reader.step anyLabel (.new bucketName key size) r →
      ∀ (remaining : Nat) (p : PendingRead) (response : Except S3Error S3DownloadStream),
        r.Completes remaining p →
        r.Completed p response (r.pollRead remaining (.ready response))) ∧
    (∀ (r : S3Reader) (position : SeekFrom), r.pending = none → r.seekTo = none →
      if 0 ≤ r.base position + position.delta ∧
          r.base position + position.delta ≤ 2 ^ 64 - 1 then
        (r.startSeek position).2 = .ok () ∧
        ∃ target : Nat, (target : Int) = r.base position + position.delta ∧
          (r.startSeek position).1.pollComplete =
            ({ r with position := target, leftover := [] }, target)
      else ∃ message, r.startSeek position = (r, .error ⟨.invalidInput, message⟩)) ∧
    ∀ (r : S3Reader) (position : SeekFrom), r.pending.isSome ∨ r.seekTo.isSome →
      ∃ err, r.startSeek position = (r, .error err) := by
  refine ⟨fun bucketName key size r hrun remaining p response hcompletes => ?_,
    fun r position hpending hseek => ?_, fun r position h => ?_⟩
  · exact S3Reader.completed_of_exclusive (S3Reader.exclusive_of_reaches hrun) hcompletes
  · exact S3Reader.seek_exact hpending hseek
  · exact S3Reader.startSeek_refused h

/-- A read of three bytes is resumed with room for two and answered with two, and a seek
before the start is refused. -/
theorem failed_call_restores_short :
    let r := runTo S3Reader.step anyLabel [.pollRead 3 .pending] (.new "b" "k" 4)
    let opened := S3Reader.new "b" "k" 4
    r.Completed ⟨0, 3⟩ (inOnePiece [10, 20]) (r.pollRead 2 (.ready (inOnePiece [10, 20]))) ∧
    (r.pollRead 2 (.ready (inOnePiece [10, 20]))).2.1 = [] ∧
    (∃ message, opened.startSeek (.current (-1)) = (opened, .error ⟨.invalidInput, message⟩)) ∧
    ∃ err, r.startSeek (.start 1) = (r, .error err) := by
  intro r opened
  have hrun : Reaches S3Reader.step anyLabel (.new "b" "k" 4) r := reaches_runTo (by decide)
  have hread := failed_call_restores.1 "b" "k" 4 r hrun 2 ⟨0, 3⟩ (inOnePiece [10, 20])
    (.inl (by decide))
  have hseek := failed_call_restores.2.1 opened (.current (-1)) rfl rfl
  refine ⟨hread, by decide, ?_, failed_call_restores.2.2 r (.start 1) (.inl (by decide))⟩
  rwa [if_neg (by decide)] at hseek

end MyS3.Reader
