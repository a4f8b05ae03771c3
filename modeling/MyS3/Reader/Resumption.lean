import MyS3.Core.Tiling
import MyS3.Reader.Position

/-!
# Reads that are cancelled and resumed

A run of `poll_read` calls without a seek, with the bytes that were handed over and the
ranges that were asked for. While every request succeeds, the ranges tile the object from
the first position on, and the bytes handed over are those up to the position.
-/

namespace MyS3.Reader

open Interleaving Tiling

/-- The positions that a request covers. -/
def PendingRead.span (p : PendingRead) : Span := ⟨p.start, p.requested⟩

/-- The ranged `GET` that a read starts: `start_read` is reached without a leftover and
without a request in flight. -/
def S3Reader.issued (r : S3Reader) (remaining : Nat) : Option PendingRead :=
  if r.leftover ≠ [] ∨ r.pending.isSome then none else r.request remaining

/-- A reader, what it has handed over and the ranges it has asked for. -/
structure Journal where
  reader : S3Reader
  handed : Bytes
  gets : List Span

/-- One `poll_read`: the room in its buffer and what its request answers. -/
structure ReadCall where
  remaining : Nat
  polled : Poll (Except S3Error S3DownloadStream)

/-- A read and its traces. -/
def Journal.read (j : Journal) (call : ReadCall) : Journal :=
  let out := j.reader.pollRead call.remaining call.polled
  { reader := out.1
    handed := j.handed ++ out.2.1
    gets := j.gets ++ ((j.reader.issued call.remaining).map PendingRead.span).toList }

/-- Every read is always possible. -/
def Journal.step (j : Journal) (call : ReadCall) : Option Journal := some (j.read call)

/-- A request that answers, answers with the range it was asked for. -/
def succeeds (object : Bytes) (j : Journal) (call : ReadCall) : Bool :=
  match j.reader.leftover, call.polled with
  | [], .ready response =>
    (j.reader.request call.remaining).all fun p =>
      decide (p.body response = .ok (range object p.start p.last))
  | _, _ => true

/-- How far the object has been asked for. -/
def S3Reader.frontier (r : S3Reader) : Nat :=
  r.position + r.leftover.length + (r.pending.elim 0 PendingRead.requested)

variable {object : Bytes} {r : S3Reader} {remaining : Nat} {p : PendingRead}

/-- What is handed over behind `object[p..q]` continues it. -/
theorem bytesAt_append {start q : Nat} (h : start ≤ q) (n : Nat) :
    bytesAt object start (q - start) ++ bytesAt object q n =
      bytesAt object start (q + n - start) := by
  have hsum : q + n - start = q - start + n := by omega
  have hdrop : object.drop q = (object.drop start).drop (q - start) := by
    rw [List.drop_drop]
    congr 1
    omega
  rw [bytesAt, bytesAt, bytesAt, hsum, List.take_add, hdrop]

theorem length_range {a b : Nat} (h : b < object.length) :
    (range object a b).length = b + 1 - a := by
  rw [range, List.length_take, List.length_drop]
  omega

namespace S3Reader

theorem issued_eq_some (h : r.issued remaining = some p) :
    r.leftover = [] ∧ r.pending = none ∧ r.position < r.size ∧ remaining ≠ 0 ∧
      p = r.startRead remaining := by
  unfold issued at h
  split at h
  · cases h
  · rename_i hrest
    rw [not_or, not_not] at hrest
    have hpending : r.pending = none := by simpa using hrest.2
    simp only [request, hpending] at h
    split at h
    · cases h
    · rename_i hread
      cases h
      exact ⟨hrest.1, hpending, by omega, by omega, rfl⟩

/-- A request that is polled is the one in flight or was just started. -/
theorem request_frontier (hleft : r.leftover = [])
    (hrequest : r.request remaining = some p) :
    r.position + p.requested =
      r.frontier + ((r.issued remaining).elim 0 PendingRead.requested) := by
  cases hpending : r.pending with
  | none =>
    have hissued : r.issued remaining = some p := by
      simpa [issued, hleft, hpending] using hrequest
    simp [frontier, hissued, hleft, hpending]
  | some q =>
    have hissued : r.issued remaining = none := by simp [issued, hpending]
    simp only [request, hpending] at hrequest
    cases hrequest
    simp [frontier, hissued, hleft, hpending]

end S3Reader

/-- Draining hands over what was fetched before: it asks for nothing. -/
theorem Placed.drain_frontier (h : Placed object r) (hleft : r.leftover ≠ [])
    (remaining : Nat) : (r.drainLeftover remaining).1.frontier = r.frontier := by
  obtain ⟨-, hposition, -⟩ := h.drain hleft remaining
  have hpending : (r.drainLeftover remaining).1.pending = r.pending := rfl
  have hlength : (r.drainLeftover remaining).2.length = min r.leftover.length remaining := by
    simp only [S3Reader.drainLeftover, List.length_take]
    omega
  have hrest : (r.drainLeftover remaining).1.leftover.length =
      r.leftover.length - min r.leftover.length remaining := by
    simp only [S3Reader.drainLeftover, List.length_drop]
  unfold S3Reader.frontier
  rw [hposition, hpending, hrest, hlength]
  omega

/-- What a successful read does to a reader of the whole object. -/
structure Continued (object : Bytes) (r : S3Reader) (remaining : Nat)
    (out : S3Reader × Bytes × Poll (Except IoError Unit)) : Prop where
  placed : Placed object out.1
  size : out.1.size = r.size
  position : out.1.position = r.position + out.2.1.length
  handed : out.2.1 = bytesAt object r.position out.2.1.length
  within : out.2.1 ≠ [] → out.1.position ≤ r.size
  frontier : out.1.frontier =
    r.frontier + ((r.issued remaining).elim 0 PendingRead.requested)
  progress : remaining ≠ 0 → out.2.2 = .ready (.ok ()) → out.2.1 = [] →
    r.size ≤ out.1.position

/-- A leftover is drained without a request. -/
theorem Placed.continued_drain (h : Placed object r) (hleft : r.leftover ≠ [])
    (remaining : Nat) {before : S3Reader} (hsize : r.size = before.size)
    (hposition : r.position = before.position)
    (hfrontier : r.frontier =
      before.frontier + ((before.issued remaining).elim 0 PendingRead.requested)) :
    Continued object before remaining
      ((r.drainLeftover remaining).1, (r.drainLeftover remaining).2, .ready (.ok ())) := by
  obtain ⟨hplaced, hmoved, hhanded⟩ := h.drain hleft remaining
  have hlength : (r.drainLeftover remaining).2.length = min r.leftover.length remaining := by
    simp only [S3Reader.drainLeftover, List.length_take]
    omega
  have hwithin := h.within hleft
  refine ⟨hplaced, hsize, hposition ▸ hmoved, hposition ▸ hhanded, fun _ => ?_,
    (h.drain_frontier hleft remaining).trans hfrontier, fun hroom _ hnothing => ?_⟩
  · simp only [hmoved, hlength]
    omega
  · simp only at hnothing
    rw [hnothing, List.length_nil] at hlength
    have hsome : 0 < r.leftover.length := List.length_pos_iff.mpr hleft
    omega

/-- Every way a read can go while its request succeeds. -/
theorem Placed.continued (h : Placed object r) (hsize : r.size = object.length)
    {polled : Poll (Except S3Error S3DownloadStream)}
    (hbody : r.leftover = [] → ∀ p response, r.request remaining = some p →
      polled = .ready response → p.body response = .ok (range object p.start p.last)) :
    Continued object r remaining (r.pollRead remaining polled) := by
  by_cases hleft : r.leftover = []
  · cases hrequest : r.request remaining with
    | none =>
      have hissued : r.issued remaining = none := by
        unfold S3Reader.issued
        split
        · rfl
        · exact hrequest
      rw [S3Reader.pollRead_none hleft hrequest]
      refine ⟨h, rfl, rfl, rfl, fun hne => absurd rfl hne, ?_, fun hroom _ _ => ?_⟩
      · simp only [hissued, Option.elim_none, Nat.add_zero]
      · -- nothing to poll: there is room, so the position is at the end
        unfold S3Reader.request at hrequest
        split at hrequest
        · cases hrequest
        · split at hrequest
          · rename_i hend
            exact hend.resolve_right hroom
          · cases hrequest
    | some p =>
      obtain ⟨hstart, hsome, hwithin⟩ := h.request hrequest
      have hfrontier := S3Reader.request_frontier hleft hrequest
      cases polled with
      | pending =>
        rw [S3Reader.pollRead_pending hleft hrequest]
        refine ⟨{ h with pending := fun q hq => ?_, exclusive := fun hne => absurd hleft hne },
          rfl, rfl, rfl, fun hne => absurd rfl hne, ?_, fun _ hready => by cases hready⟩
        · cases hq
          exact ⟨hstart, hsome, hwithin⟩
        · rw [← hfrontier]
          simp [S3Reader.frontier, hleft]
      | ready response =>
        have hrange := hbody hleft p response hrequest rfl
        have hlength : (range object p.start p.last).length = p.requested := by
          rw [length_range (by unfold PendingRead.last; omega)]
          unfold PendingRead.last
          omega
        have hfetched : Placed object
            { r with pending := none, leftover := range object p.start p.last } :=
          placed_fetched (r := { r with pending := none }) h.addressable rfl hstart hwithin
            hlength rfl
        have hne : range object p.start p.last ≠ [] := List.ne_nil_of_length_pos (by omega)
        rw [S3Reader.pollRead_ready hleft hrequest, hrange]
        simp only [S3Reader.deliver, hlength, Nat.lt_irrefl, if_false]
        refine hfetched.continued_drain hne remaining rfl rfl ?_
        rw [← hfrontier]
        simp [S3Reader.frontier, hlength]
  · have hissued : r.issued remaining = none := by simp [S3Reader.issued, hleft]
    rw [S3Reader.pollRead_leftover hleft]
    apply h.continued_drain hleft remaining rfl rfl
    simp only [hissued, Option.elim_none, Nat.add_zero]

/-- What a journal that was begun at a position holds. -/
structure Journal.Inv (object : Bytes) (start : Nat) (j : Journal) : Prop where
  placed : Placed object j.reader
  size : j.reader.size = object.length
  forward : start ≤ j.reader.position
  handed : j.handed = bytesAt object start (j.reader.position - start)
  tiles : Tiles start j.gets j.reader.frontier
  inside : ∀ s ∈ j.gets, s.stop ≤ object.length

variable {j : Journal} {call : ReadCall} {start : Nat}

theorem Journal.Inv.continued (h : j.Inv object start) (hl : succeeds object j call = true) :
    Continued object j.reader call.remaining
      (j.reader.pollRead call.remaining call.polled) := by
  refine h.placed.continued h.size fun hleft p response hrequest hpolled => ?_
  simpa [succeeds, hleft, hpolled, hrequest] using hl

/-- Every successful read continues the journal. -/
theorem Journal.Inv.read (h : j.Inv object start) (hl : succeeds object j call = true) :
    (j.read call).Inv object start := by
  have hc := h.continued hl
  have hforward := h.forward
  refine ⟨hc.placed, hc.size.trans h.size, ?_, ?_, ?_, fun s hs => ?_⟩
  · simp only [Journal.read, hc.position]
    omega
  · simp only [Journal.read, hc.position]
    rw [← bytesAt_append h.forward, ← hc.handed, ← h.handed]
  · simp only [Journal.read, hc.frontier]
    cases hissued : j.reader.issued call.remaining with
    | none => simpa using h.tiles
    | some p =>
      obtain ⟨hleft, hpending, hroom, hbuf, hp⟩ := S3Reader.issued_eq_some hissued
      have hfrontier : p.span.start = j.reader.frontier := by
        simp [hp, PendingRead.span, S3Reader.startRead, S3Reader.frontier, hleft, hpending]
      have hlength : 0 < p.span.length := by
        simp only [hp, PendingRead.span, S3Reader.startRead]
        omega
      have htiles := h.tiles.snoc hfrontier hlength
      rw [Span.stop, hfrontier] at htiles
      exact htiles
  · rcases List.mem_append.mp hs with hs | hs
    · exact h.inside s hs
    · cases hissued : j.reader.issued call.remaining with
      | none => simp [hissued] at hs
      | some p =>
        obtain ⟨-, -, hroom, -, hp⟩ := S3Reader.issued_eq_some hissued
        have hsize := h.size
        simp only [hissued, Option.map_some, Option.toList_some, List.mem_singleton] at hs
        simp only [hs, hp, Span.stop, PendingRead.span, S3Reader.startRead]
        omega

/-- The journal of a reader without request and leftover. -/
theorem Journal.inv_open {opened : S3Reader} (hsize : opened.size = object.length)
    (haddressable : object.length < 2 ^ 64) (hpending : opened.pending = none)
    (hleft : opened.leftover = []) : Journal.Inv object opened.position ⟨opened, [], []⟩ where
  placed := {
    addressable := hsize ▸ haddressable
    pending := fun p hp => absurd (hpending.symm.trans hp) (by simp)
    exclusive := fun _ => hpending
    leftover := by
      rw [hleft]
      rfl
    within := fun hne => absurd hleft hne }
  size := hsize
  forward := Nat.le_refl _
  handed := by simp [bytesAt]
  tiles := by simp [S3Reader.frontier, hpending, hleft]
  inside := nofun

/-- Successful reads hand over the object from the first position to the current one. Their
ranges tile it, one request at a time and none larger than the buffer of the read that
starts it, and no offset wraps. -/
theorem resumed_reads_tile {opened : S3Reader} (hsize : opened.size = object.length)
    (haddressable : object.length < 2 ^ 64) (hpending : opened.pending = none)
    (hleft : opened.leftover = [])
    (hrun : Reaches Journal.step (succeeds object) ⟨opened, [], []⟩ j) :
    (opened.position ≤ j.reader.position ∧
      j.handed = bytesAt object opened.position (j.reader.position - opened.position)) ∧
    (∃ stop, Tiles opened.position j.gets stop) ∧
    (∀ s ∈ j.gets, 0 < s.length ∧ s.stop ≤ object.length) ∧
    (j.gets.Pairwise fun s t => s.stop ≤ t.start) ∧
    ∀ call, succeeds object j call = true →
      let out := j.reader.pollRead call.remaining call.polled
      (∀ p, j.reader.issued call.remaining = some p →
        j.reader.pending = none ∧ j.reader.leftover = [] ∧ p.requested ≤ call.remaining ∧
          j.reader.position ≤ j.reader.size ∧ 1 ≤ p.start + p.requested ∧
          p.start + p.requested < 2 ^ 64) ∧
      (0 < call.remaining → out.2.2 = .ready (.ok ()) → out.2.1 = [] →
        out.1.size ≤ out.1.position) ∧
      out.1.position = j.reader.position + out.2.1.length ∧
      (out.2.1 ≠ [] → out.1.position < 2 ^ 64) := by
  have hinv : j.Inv object opened.position :=
    hrun.invariant (Journal.inv_open hsize haddressable hpending hleft)
      fun s call t hs hl hstep => by
        cases hstep
        exact hs.read hl
  refine ⟨⟨hinv.forward, hinv.handed⟩, ⟨_, hinv.tiles⟩,
    fun s hs => ⟨(hinv.tiles.within hs).2.1, hinv.inside s hs⟩, hinv.tiles.pairwise,
    fun call hl => ?_⟩
  have hc := hinv.continued hl
  have hobject := hinv.size
  refine ⟨fun p hissued => ?_, fun hroom hok hnothing => ?_, hc.position, fun hne => ?_⟩
  · obtain ⟨hempty, hfree, hbehind, hbuf, rfl⟩ := S3Reader.issued_eq_some hissued
    refine ⟨hfree, hempty, Nat.min_le_left _ _, Nat.le_of_lt hbehind, ?_, ?_⟩
    · simp only [S3Reader.startRead]
      omega
    · simp only [S3Reader.startRead]
      omega
  · rw [hc.size]
    exact hc.progress (by omega) hok hnothing
  · have hbound := hc.within hne
    omega

/-- A read of three bytes is cancelled, resumed with room for one, drained, and followed by
a read up to the end. -/
theorem resumed_reads_tile_cancelled :
    let object := [10, 20, 30, 40, 50]
    let opened : S3Reader := { S3Reader.new "b" "k" 5 with position := 1 }
    let j := runTo Journal.step (succeeds object)
      [⟨3, .pending⟩, ⟨1, .ready (inOnePiece [20, 30, 40])⟩, ⟨0, .pending⟩, ⟨8, .pending⟩,
        ⟨2, .pending⟩] ⟨opened, [], []⟩
    j.handed = [20, 30, 40] ∧ j.gets = [⟨1, 3⟩, ⟨4, 1⟩] ∧
      (j.gets.Pairwise fun s t => s.stop ≤ t.start) := by
  intro object opened j
  have hrun : Reaches Journal.step (succeeds object) ⟨opened, [], []⟩ j :=
    reaches_runTo (by decide)
  obtain ⟨-, -, -, hdisjoint, -⟩ := resumed_reads_tile rfl (by decide) rfl rfl hrun
  exact ⟨by decide, by decide, hdisjoint⟩

end MyS3.Reader
