import MyS3.Core.Transition
import MyS3.Reader.Poll

/-!
# The bytes at the position

A reader that never moves its position under a request hands over the bytes of the
object at its position. `start_seek` refuses to move it; `poll_complete` does not ask.
-/

namespace MyS3.Reader

open Interleaving

/-- `object[a..=b]`, what a ranged `GET` is asked for. -/
def range (object : Bytes) (a b : Nat) : Bytes := (object.drop a).take (b + 1 - a)

/-- `object[p..p + n]`. -/
def bytesAt (object : Bytes) (p n : Nat) : Bytes := (object.drop p).take n

/-- The storage answers a range with that range of the object, if it succeeds with the
requested length. -/
def honest (object : Bytes) (r : S3Reader) : ReaderLabel → Bool
  | .pollRead remaining (.ready response) =>
    match r.request remaining with
    | none => true
    | some pending =>
      match pending.body response with
      | .error _ => true
      | .ok body => decide (body.length = pending.requested →
          body = range object pending.start pending.last)
  | _ => true

/-- No seek is applied that leaves the position of a request in flight. -/
def seeksAtRest (r : S3Reader) : ReaderLabel → Bool
  | .pollComplete => r.pending.isNone || r.seekTo.all (· == r.position)
  | _ => true

variable {object : Bytes} {r : S3Reader} {l : ReaderLabel}

/-- Reading on is reading from a later position. -/
private theorem drop_bytesAt (object : Bytes) (p n k : Nat) :
    (bytesAt object p n).drop k = bytesAt object (p + k) (n - k) := by
  simp [bytesAt, List.drop_take, List.drop_drop]

theorem take_bytesAt {object : Bytes} {p n k : Nat} (h : k ≤ n) :
    (bytesAt object p n).take k = bytesAt object p k := by
  simp [bytesAt, List.take_take, Nat.min_eq_left h]

/-- What a reader holds belongs to its position: a request in flight starts there, and a
leftover is what the object has there. -/
structure Placed (object : Bytes) (r : S3Reader) : Prop where
  addressable : r.size < 2 ^ 64
  pending : ∀ p, r.pending = some p →
    p.start = r.position ∧ 0 < p.requested ∧ p.start + p.requested ≤ r.size
  exclusive : r.leftover ≠ [] → r.pending = none
  leftover : r.leftover = bytesAt object r.position r.leftover.length
  within : r.leftover ≠ [] → r.position + r.leftover.length ≤ r.size

/-- A fresh request is placed. -/
private theorem startRead_placed {remaining : Nat} (hroom : r.position < r.size)
    (hbuf : remaining ≠ 0) : 0 < (r.startRead remaining).requested ∧
      (r.startRead remaining).start + (r.startRead remaining).requested ≤ r.size := by
  simp only [S3Reader.startRead]
  omega

/-- Whatever request a read polls is placed. -/
theorem Placed.request (h : Placed object r) {remaining : Nat} {p : PendingRead}
    (hp : r.request remaining = some p) :
    p.start = r.position ∧ 0 < p.requested ∧ p.start + p.requested ≤ r.size := by
  unfold S3Reader.request at hp
  split at hp
  · rename_i hpending
    cases hp
    exact h.pending _ hpending
  · split at hp
    · cases hp
    · rename_i hread
      cases hp
      rw [not_or] at hread
      exact ⟨rfl, startRead_placed (Nat.lt_of_not_le hread.1) hread.2⟩

/-- Draining a leftover hands over the bytes at the position and moves behind them. -/
theorem Placed.drain (h : Placed object r) (hleft : r.leftover ≠ []) (remaining : Nat) :
    let out := r.drainLeftover remaining
    Placed object out.1 ∧ out.1.position = r.position + out.2.length ∧
      out.2 = bytesAt object r.position out.2.length := by
  intro out
  have hwithin := h.within hleft
  have hsize := h.addressable
  have hpending := h.exclusive hleft
  have hlength : out.2.length = min r.leftover.length remaining := by
    simp only [out, S3Reader.drainLeftover, List.length_take]
    omega
  have hposition : out.1.position = r.position + out.2.length := by
    rw [hlength]
    exact Nat.mod_eq_of_lt (by omega)
  have hhanded : out.2 = bytesAt object r.position out.2.length := by
    rw [hlength]
    exact (congrArg (List.take _) h.leftover).trans (take_bytesAt (Nat.min_le_left _ _))
  have hrest : out.1.leftover = r.leftover.drop out.2.length := by
    rw [hlength]
    rfl
  have hrestLength : out.1.leftover.length = r.leftover.length - out.2.length := by
    rw [hrest, List.length_drop]
  refine ⟨⟨hsize, fun p hp => ?_, fun _ => hpending, ?_, fun hne => ?_⟩,
    hposition, hhanded⟩
  · exact absurd (hpending.symm.trans hp) (by simp)
  · rw [hrestLength, hrest, hposition]
    exact (congrArg (List.drop _) h.leftover).trans (drop_bytesAt object _ _ _)
  · rw [hposition, hrestLength]
    have hsome : 0 < out.1.leftover.length := List.length_pos_iff.mpr hne
    change r.position + out.2.length + (r.leftover.length - out.2.length) ≤ r.size
    omega

/-- The leftover of a fetched body that has the requested length. -/
theorem placed_fetched {p : PendingRead} {body : Bytes} (hsize : r.size < 2 ^ 64)
    (hpending : r.pending = none) (hstart : p.start = r.position)
    (hwithin : p.start + p.requested ≤ r.size) (hlength : body.length = p.requested)
    (hbody : body = range object p.start p.last) :
    Placed object { r with leftover := body } := by
  refine ⟨hsize, fun q hq => ?_, fun _ => hpending, ?_, fun hne => ?_⟩
  · exact absurd (hpending.symm.trans hq) (by simp)
  · have hsome : p.last + 1 - p.start = body.length ∨ body = [] := by
      simp only [PendingRead.last, hlength, ← List.length_eq_zero_iff]
      omega
    rcases hsome with hsome | rfl
    · rw [range, hsome, hstart] at hbody
      exact hbody
    · rfl
  · change r.position + body.length ≤ r.size
    omega

/-- The body of a request is delivered: as the object's bytes at the position, or not at
all. -/
theorem Placed.deliver (h : Placed object r) (hpending : r.pending = none)
    {p : PendingRead} (hstart : p.start = r.position)
    (hsome : 0 < p.requested) (hwithin : p.start + p.requested ≤ r.size) (remaining : Nat)
    {result : Except S3Error Bytes} (hbody : ∀ body, result = .ok body →
      body.length = p.requested → body = range object p.start p.last) :
    let out := r.deliver remaining p.requested result
    Placed object out.1 ∧ out.1.position = r.position + out.2.1.length ∧
      out.2.1 = bytesAt object r.position out.2.1.length := by
  intro out
  have hnothing : Placed object r ∧ r.position = r.position + ([] : Bytes).length ∧
      [] = bytesAt object r.position ([] : Bytes).length := ⟨h, rfl, rfl⟩
  cases result with
  | error err => exact hnothing
  | ok body =>
    by_cases hshort : body.length < p.requested
    · simpa only [out, S3Reader.deliver, if_pos hshort] using hnothing
    · by_cases hlong : p.requested < body.length
      · simpa only [out, S3Reader.deliver, if_neg hshort, if_pos hlong] using hnothing
      · have hlength : body.length = p.requested := by omega
        have hfetched := placed_fetched h.addressable hpending hstart hwithin hlength
          (hbody body rfl hlength)
        have hne : body ≠ [] := List.ne_nil_of_length_pos (by omega)
        simp only [out, S3Reader.deliver, if_neg hshort, if_neg hlong]
        exact hfetched.drain hne remaining

/-- What a read does: it hands over the bytes at its position and moves behind them. -/
theorem Placed.pollRead (h : Placed object r) {remaining : Nat}
    {polled : Poll (Except S3Error S3DownloadStream)}
    (hhonest : honest object r (.pollRead remaining polled) = true) :
    let out := r.pollRead remaining polled
    Placed object out.1 ∧ out.1.position = r.position + out.2.1.length ∧
      out.2.1 = bytesAt object r.position out.2.1.length := by
  intro out
  by_cases hleft : r.leftover = []
  · cases hrequest : r.request remaining with
    | none =>
      simp only [out, S3Reader.pollRead_none hleft hrequest]
      exact ⟨h, rfl, rfl⟩
    | some p =>
      obtain ⟨hstart, hsome, hwithin⟩ := h.request hrequest
      cases polled with
      | pending =>
        simp only [out, S3Reader.pollRead_pending hleft hrequest]
        refine ⟨{ h with pending := fun q hq => ?_, exclusive := fun hne => absurd hleft hne },
          rfl, rfl⟩
        cases hq
        exact ⟨hstart, hsome, hwithin⟩
      | ready response =>
        simp only [out, S3Reader.pollRead_ready hleft hrequest]
        simp only [honest, hrequest] at hhonest
        have hfree : Placed object { r with pending := none } :=
          { h with pending := nofun, exclusive := fun _ => rfl }
        refine hfree.deliver rfl hstart hsome hwithin remaining fun body hbody => ?_
        simpa only [hbody, decide_eq_true_eq] using hhonest
  · simp only [out, S3Reader.pollRead_leftover hleft]
    exact h.drain hleft remaining

/-- A seek that is started moves nothing. -/
theorem Placed.startSeek (h : Placed object r) (position : SeekFrom) :
    Placed object (r.startSeek position).1 := by
  unfold S3Reader.startSeek
  split
  · exact h
  · split
    · exact h
    · split
      · exact h
      · exact { h with }

/-- A seek that is applied at rest leaves nothing behind. -/
theorem Placed.pollComplete (h : Placed object r)
    (hrest : seeksAtRest r .pollComplete = true) : Placed object r.pollComplete.1 := by
  unfold S3Reader.pollComplete
  split
  · rename_i target hseek
    refine ⟨h.addressable, fun p hp => ?_, fun hne => absurd rfl hne, rfl,
      fun hne => absurd rfl hne⟩
    have hpending : r.pending = some p := hp
    simp only [seeksAtRest, hpending, hseek, Option.isNone_some, Option.all_some,
      Bool.false_or, beq_iff_eq] at hrest
    rw [hrest]
    exact h.pending p hp
  · exact h

/-- Every call keeps what a reader holds at its position. -/
private theorem Placed.step {r' : S3Reader} (h : Placed object r)
    (hl : (honest object r l && seeksAtRest r l) = true) (hstep : r.step l = some r') :
    Placed object r' := by
  obtain ⟨hhonest, hrest⟩ := Bool.and_eq_true_iff.mp hl
  cases l with
  | pollRead remaining polled =>
    cases hstep
    exact (h.pollRead hhonest).1
  | startSeek position =>
    cases hstep
    exact h.startSeek position
  | pollComplete =>
    cases hstep
    exact h.pollComplete hrest

theorem placed_new (object : Bytes) (bucketName key : String) {size : Nat}
    (hsize : size < 2 ^ 64) : Placed object (.new bucketName key size) where
  addressable := hsize
  pending := nofun
  exclusive := fun _ => rfl
  leftover := rfl
  within := fun h => absurd rfl h

/-- A reader that never applied a seek under a request hands over, at every read, the bytes
of the object at its position, and its position moves behind them. -/
theorem reads_bytes_at_position {bucketName key : String} {size : Nat}
    (hsize : size < 2 ^ 64)
    (hrun : Reaches S3Reader.step (fun r l => honest object r l && seeksAtRest r l)
      (.new bucketName key size) r)
    {remaining : Nat} {polled : Poll (Except S3Error S3DownloadStream)}
    (hhonest : honest object r (.pollRead remaining polled) = true) :
    let out := r.pollRead remaining polled
    out.1.position = r.position + out.2.1.length ∧
      out.2.1 = bytesAt object r.position out.2.1.length :=
  ((hrun.invariant (placed_new object bucketName key hsize)
    fun _ _ _ h hl hstep => h.step hl hstep).pollRead hhonest).2

/-- A body that arrives in one piece. -/
def inOnePiece (body : Bytes) : Except S3Error S3DownloadStream :=
  .ok ⟨some body.length, 0, [.ok body]⟩

theorem reads_bytes_at_position_resumed :
    let object := [10, 20, 30, 40]
    let r := runTo S3Reader.step (fun r l => honest object r l && seeksAtRest r l)
      [.startSeek (.start 1), .pollComplete, .pollRead 3 .pending] (.new "b" "k" 4)
    let out := r.pollRead 2 (.ready (inOnePiece [20, 30, 40]))
    out.1.position = 3 ∧ out.2.1 = bytesAt object 1 2 := by
  intro object r out
  have hrun : Reaches S3Reader.step (fun r l => honest object r l && seeksAtRest r l)
      (.new "b" "k" 4) r := reaches_runTo (by decide)
  exact reads_bytes_at_position (by decide) hrun (by decide)

/-- A read is started between `start_seek` and `poll_complete`: the position moves under its
request, and its bytes are handed over at the wrong offset. -/
theorem seek_under_read :
    let object := [10, 20, 30, 40]
    let r := runTo S3Reader.step (honest object)
      [.startSeek (.start 2), .pollRead 2 .pending, .pollComplete] (.new "b" "k" 4)
    let out := r.pollRead 2 (.ready (inOnePiece [10, 20]))
    Reaches S3Reader.step (honest object) (.new "b" "k" 4) r ∧
    honest object r (.pollRead 2 (.ready (inOnePiece [10, 20]))) = true ∧
    out.2.1 = [10, 20] ∧ r.position = 2 ∧ out.1.position = 4 ∧ bytesAt object 2 2 = [30, 40] :=
  ⟨reaches_runTo (by decide), by decide, by decide, by decide, by decide, by decide⟩

end MyS3.Reader
