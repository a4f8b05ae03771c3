import MyS3.Upload.Outcome

/-!
# Custody of the acknowledged bytes

Between calls every byte the writer returned as written is in one of three places: the
channel, the parked send, the buffer. `Custody` states this with what the writer keeps
true of its `Sender` and its flags; every outcome of every call preserves it.
-/

namespace MyS3.Upload

/-- What a send carries to the channel and the writer keeps until then. -/
def S3UploadWriter.parkedBytes (w : S3UploadWriter) : Bytes :=
  match w.pending with
  | some send => send.chunk
  | none => []

/-- A writer between two calls: its chunks are cut at `limit`, `e` is `upload_ended` and
`log` is what it has acknowledged. Once a send was refused the rest of the body is given
up, and the flag says so. -/
structure Custody (limit : Nat) (w : S3UploadWriter) (L : Ledger) (e : Bool) (log : Bytes) :
    Prop where
  sound : Sound limit log L
  chunkSize : w.chunkSize = limit
  room : w.buffer.length < limit
  parked : ∀ send, w.pending = some send →
    w.sender = true ∧ w.buffer = [] ∧ send.chunk ≠ [] ∧ send.chunk.length ≤ limit
  ended : L.bodyEnded = !w.sender
  flushed : w.sender = false → w.buffer = [] ∧ L.sawClosed = false
  released : L.reserved = 0
  senders : L.senders = w.sender.toNat + w.pending.isSome.toNat
  closed : L.sawClosed = true → w.pending = none ∧ w.buffer = [] ∧ e = true
  conserved : L.sawClosed = false → L.handed.flatten ++ w.parkedBytes ++ w.buffer = log
  accepted : L.sawClosed = false → L.accepted = log.length
  logged : log.length ≤ L.accepted
  begun : L.sendStarted = true ∨ L.bodyEnded = true → L.notified = true

/-- What a chunk needs to be sent: it is covered by what was accepted, the body is still
open, and its `Sender` is not the last one. -/
structure Sendable (limit : Nat) (log : Bytes) (chunk : Bytes) (L : Ledger) : Prop where
  sound : Sound limit log L
  released : L.reserved = 0
  running : L.bodyEnded = false
  senders : 2 ≤ L.senders
  covered : L.sent + chunk.length ≤ L.accepted
  within : L.handed.flatten ++ chunk <+: log
  bounds : chunk ≠ [] ∧ chunk.length ≤ limit

/-- What a writer with an empty buffer needs to start a send of `chunk`. -/
structure Loaded (limit : Nat) (log : Bytes) (w : S3UploadWriter) (chunk : Bytes) (L : Ledger) :
    Prop where
  sound : Sound limit log L
  chunkSize : w.chunkSize = limit
  buffer : w.buffer = []
  pending : w.pending = none
  sender : w.sender = true
  running : L.bodyEnded = false
  released : L.reserved = 0
  senders : L.senders = 1
  unrefused : L.sawClosed = false
  conserved : L.handed.flatten ++ chunk = log
  accepted : L.accepted = log.length
  bounds : chunk ≠ [] ∧ chunk.length ≤ limit

variable {limit : Nat} {w w' : S3UploadWriter} {L L' : Ledger} {e e' : Bool} {log : Bytes}
  {chunk : Bytes}

/-- The bytes on either side of the channel's entry, for a chunk about to be sent. -/
private theorem sent_add_length (hs : Sound limit log L) (hr : L.reserved = 0)
    (hconserved : L.handed.flatten ++ chunk = log) : L.sent + chunk.length = log.length := by
  rw [hs.exact_of_unreserved hr, ← hconserved, List.length_append]
  rfl

/-- Other parties raise `upload_ended` at any time; custody does not notice. -/
theorem Custody.raise (h : Custody limit w L e log) (he : e = true → e' = true) :
    Custody limit w L e' log :=
  { h with closed := fun hc => ⟨(h.closed hc).1, (h.closed hc).2.1, he (h.closed hc).2.2⟩ }

/-- A parked send implies that no send was refused. -/
theorem Custody.open_of_pending (h : Custody limit w L e log) {send : PendingSend}
    (hsend : w.pending = some send) : L.sawClosed = false := by
  cases hc : L.sawClosed with
  | false => rfl
  | true =>
    rw [(h.closed hc).1] at hsend
    cases hsend

/-- A writer without its `Sender` has no send outstanding. -/
theorem Custody.pending_none (h : Custody limit w L e log) (hsender : w.sender = false) :
    w.pending = none := by
  cases hp : w.pending with
  | none => rfl
  | some send => exact absurd ((h.parked send hp).1.symm.trans hsender) (by decide)

/-- A parked send can be polled again, whatever else was offered meanwhile. -/
theorem Custody.sendable (h : Custody limit w L e log) {send : PendingSend}
    (hsend : w.pending = some send) (buf : Bytes) :
    Sendable limit (log ++ buf) send.chunk L := by
  obtain ⟨hsender, hbuffer, hbounds⟩ := h.parked send hsend
  have hopen := h.open_of_pending hsend
  have hconserved : L.handed.flatten ++ send.chunk = log := by
    simpa [S3UploadWriter.parkedBytes, hsend, hbuffer] using h.conserved hopen
  refine ⟨h.sound.offer buf, h.released, by simp [h.ended, hsender], ?_, ?_, ?_, hbounds⟩
  · simp [h.senders, hsender, hsend]
  · exact Nat.le_of_eq ((sent_add_length h.sound h.released hconserved).trans
      (h.accepted hopen).symm)
  · exact ⟨buf, by rw [hconserved]⟩

/-- Starting a send clones the `Sender`; then the chunk can be polled. -/
theorem Loaded.sendable (h : Loaded limit log w chunk L) : Sendable limit log chunk L.openSend where
  sound := { h.sound with
    ended_of_no_sender := fun h0 => absurd h0 (Nat.succ_ne_zero _)
    begun_of_notified := fun _ => .inl rfl }
  released := h.released
  running := h.running
  senders := by simp [Ledger.openSend, h.senders]
  covered := Nat.le_of_eq
    ((sent_add_length h.sound h.released h.conserved).trans h.accepted.symm)
  within := ⟨[], by simpa [Ledger.openSend] using h.conserved⟩
  bounds := h.bounds

/-- Delivering a chunk keeps the ledger sound. -/
theorem Sendable.sound_deliver (h : Sendable limit log chunk L) :
    Sound limit log (L.deliver chunk) where
  delivered := by
    rw [Ledger.handedBytes_deliver]
    exact Nat.add_le_add_right h.sound.delivered _
  counted := h.covered
  capped := h.sound.capped
  exact_of_unreserved := by
    intro hr
    rw [Ledger.handedBytes_deliver, ← h.sound.exact_of_unreserved hr]
    rfl
  unreserved_of_ended := fun _ => h.released
  ended_of_no_sender := by
    intro h0
    have := h.senders
    simp only [Ledger.deliver] at h0
    omega
  begun_of_notified := h.sound.begun_of_notified
  within := by simpa [Ledger.deliver] using h.within
  chunks := by
    intro c hc
    rcases List.mem_append.mp hc with hold | hnew
    · exact h.sound.chunks c hold
    · rw [List.mem_singleton.mp hnew]
      exact h.bounds

/-- A refused send leaves the ledger sound. -/
theorem Sendable.sound_refuse (h : Sendable limit log chunk L) : Sound limit log L.refuse :=
  { h.sound with
    ended_of_no_sender := by
      intro h0
      have := h.senders
      simp only [Ledger.refuse] at h0
      omega }

/-- Driving the parked send keeps custody. -/
theorem PendingOutcome.custody {a : Poll (Except IoError Unit)}
    (h : PendingOutcome w L w' a L' e') (hc : Custody limit w L e log)
    (he : e = true → e' = true) : Custody limit w' L' e' log := by
  cases h with
  | idle hnone => exact hc.raise he
  | waiting hsend => exact hc.raise he
  | delivered hsend =>
    rename_i send
    obtain ⟨hsender, hbuffer, -⟩ := hc.parked send hsend
    have hopen := hc.open_of_pending hsend
    have hlog : L.handed.flatten ++ send.chunk = log := by
      simpa [S3UploadWriter.parkedBytes, hsend, hbuffer] using hc.conserved hopen
    have hsend' : Sendable limit log send.chunk L := by simpa using hc.sendable hsend []
    exact { hc with
      sound := hsend'.sound_deliver
      parked := fun _ h => by cases h
      senders := by simp [Ledger.deliver, hc.senders, hsender, hsend]
      closed := by
        intro h
        rw [show (L.deliver send.chunk).sawClosed = L.sawClosed from rfl, hopen] at h
        cases h
      conserved := by
        intro _
        simpa [Ledger.deliver, S3UploadWriter.parkedBytes, hbuffer] using hlog }
  | refused hsend =>
    rename_i send
    obtain ⟨hsender, hbuffer, -⟩ := hc.parked send hsend
    have hsend' : Sendable limit log send.chunk L := by simpa using hc.sendable hsend []
    exact { hc with
      sound := hsend'.sound_refuse
      parked := fun _ h => by cases h
      flushed := fun h => absurd (hsender.symm.trans h) (by decide)
      senders := by simp [Ledger.refuse, hc.senders, hsender, hsend]
      closed := fun _ => ⟨rfl, hbuffer, rfl⟩
      conserved := fun h => by cases h
      accepted := fun h => by cases h }

/-- A send that was started and not refused takes the chunk into custody. -/
theorem StartOutcome.custody {a : Poll (Except IoError Unit)}
    (h : StartOutcome w chunk L w' a L' e') (hl : Loaded limit log w chunk L)
    (ha : ∀ err, a ≠ .ready (.error err)) : Custody limit w' L' e' log := by
  have hlimit : 0 < limit :=
    Nat.lt_of_lt_of_le (List.length_pos_iff.mpr hl.bounds.1) hl.bounds.2
  cases h with
  | waiting =>
    exact {
      sound := hl.sendable.sound
      chunkSize := hl.chunkSize
      room := by simpa [hl.buffer] using hlimit
      parked := by
        intro send hsend
        cases hsend
        exact ⟨hl.sender, hl.buffer, hl.bounds⟩
      ended := by simp [Ledger.openSend, hl.running, hl.sender]
      flushed := fun h => absurd (hl.sender.symm.trans h) (by decide)
      released := hl.released
      senders := by simp [Ledger.openSend, hl.senders, hl.sender]
      closed := fun h => absurd (hl.unrefused.symm.trans h) (by decide)
      conserved := by
        intro _
        simpa [Ledger.openSend, S3UploadWriter.parkedBytes, hl.buffer] using hl.conserved
      accepted := fun _ => hl.accepted
      logged := Nat.le_of_eq hl.accepted.symm
      begun := fun _ => rfl }
  | delivered =>
    exact {
      sound := hl.sendable.sound_deliver
      chunkSize := hl.chunkSize
      room := by simpa [hl.buffer] using hlimit
      parked := by
        intro send hsend
        rw [hl.pending] at hsend
        cases hsend
      ended := by simp [Ledger.openSend, Ledger.deliver, hl.running, hl.sender]
      flushed := fun h => absurd (hl.sender.symm.trans h) (by decide)
      released := hl.released
      senders := by simp [Ledger.openSend, Ledger.deliver, hl.senders, hl.sender, hl.pending]
      closed := fun h => absurd (hl.unrefused.symm.trans h) (by decide)
      conserved := by
        intro _
        simpa [Ledger.openSend, Ledger.deliver, S3UploadWriter.parkedBytes, hl.pending, hl.buffer]
          using hl.conserved
      accepted := fun _ => hl.accepted
      logged := Nat.le_of_eq hl.accepted.symm
      begun := fun _ => rfl }
  | refused => exact absurd rfl (ha _)

/-- A send refused at its start gives the chunk up; what was acknowledged before stays a
bound on what was handed over. -/
theorem Loaded.custody_refused (hl : Loaded limit log w chunk L) {old : Bytes}
    (hold : old <+: log) (hwithin : L.handed.flatten <+: old) :
    Custody limit w L.openSend.refuse true old where
  sound := { hl.sendable.sound_refuse with within := hwithin }
  chunkSize := hl.chunkSize
  room := by
    simpa [hl.buffer] using
      Nat.lt_of_lt_of_le (List.length_pos_iff.mpr hl.bounds.1) hl.bounds.2
  parked := by
    intro send hsend
    rw [hl.pending] at hsend
    cases hsend
  ended := by simp [Ledger.openSend, Ledger.refuse, hl.running, hl.sender]
  flushed := fun h => absurd (hl.sender.symm.trans h) (by decide)
  released := hl.released
  senders := by simp [Ledger.openSend, Ledger.refuse, hl.senders, hl.sender, hl.pending]
  closed := fun _ => ⟨hl.pending, hl.buffer, rfl⟩
  conserved := fun h => by cases h
  accepted := fun h => by cases h
  logged := Nat.le_trans hold.length_le (Nat.le_of_eq hl.accepted.symm)
  begun := fun _ => rfl

/-- A driven send that left nothing outstanding says nothing new about `upload_ended`. -/
theorem PendingOutcome.custody_ok (h : PendingOutcome w L w' (.ready (.ok ())) L' e')
    (hc : Custody limit w L e log) : Custody limit w' L' e log ∧ w'.pending = none := by
  cases h with
  | idle hnone => exact ⟨hc, hnone⟩
  | delivered hsend => exact ⟨(PendingOutcome.delivered hsend).custody hc id, rfl⟩

/-- While `upload_ended` is down no send was refused. -/
theorem Custody.unrefused (h : Custody limit w L e log) (he : e = false) :
    L.sawClosed = false := by
  cases hc : L.sawClosed with
  | false => rfl
  | true => exact absurd ((h.closed hc).2.2.symm.trans he) (by decide)

/-- The bytes of an idle writer with no send outstanding. -/
theorem Custody.handed_append_buffer (h : Custody limit w L e log) (he : e = false)
    (hpending : w.pending = none) : L.handed.flatten ++ w.buffer = log := by
  simpa [S3UploadWriter.parkedBytes, hpending] using h.conserved (h.unrefused he)

theorem S3UploadWriter.length_filled (w : S3UploadWriter) (buf : Bytes) (owed : Nat) :
    (w.filled buf owed).length = w.buffer.length + w.taken buf owed := by
  simp only [filled, taken, List.length_append, List.length_take]
  omega

/-- Accepted bytes and acknowledged bytes grow together. -/
private theorem accepted_accept {n : Nat} {buf : Bytes} (hn : n ≤ buf.length)
    (h : L.accepted = log.length) : (L.accept n).accepted = (log ++ buf.take n).length := by
  rw [List.length_append, List.length_take, Nat.min_eq_left hn, ← h]
  rfl

/-- A full chunk is ready to be sent, its bytes now part of the log. -/
theorem Custody.loaded_fill (h : Custody limit w L e log) (hpending : w.pending = none)
    (hsender : w.sender = true) (he : e = false) {buf : Bytes}
    (hfull : w.chunkSize ≤ (w.filled buf (L.contentLength - L.accepted)).length) :
    Loaded limit (log ++ buf.take (w.taken buf (L.contentLength - L.accepted)))
      { w with buffer := [] } (w.filled buf (L.contentLength - L.accepted))
      (L.accept (w.taken buf (L.contentLength - L.accepted))) := by
  have hroom := h.room
  have hcap := h.sound.capped
  have hsize := h.chunkSize
  have hlength := w.length_filled buf (L.contentLength - L.accepted)
  have htaken : w.taken buf (L.contentLength - L.accepted) ≤ buf.length ∧
      w.taken buf (L.contentLength - L.accepted) ≤ w.chunkSize - w.buffer.length ∧
      w.taken buf (L.contentLength - L.accepted) ≤ L.contentLength - L.accepted := by
    simp only [S3UploadWriter.taken]
    omega
  exact {
    sound := { h.sound.offer _ with
      counted := Nat.le_trans h.sound.counted (Nat.le_add_right _ _)
      capped := by
        simp only [Ledger.accept]
        omega }
    chunkSize := hsize
    buffer := rfl
    pending := hpending
    sender := hsender
    running := by simp [Ledger.accept, h.ended, hsender]
    released := h.released
    senders := by simp [Ledger.accept, h.senders, hsender, hpending]
    unrefused := h.unrefused he
    conserved := by
      rw [← h.handed_append_buffer he hpending]
      simp [Ledger.accept, S3UploadWriter.filled]
    accepted := accepted_accept htaken.1 (h.accepted (h.unrefused he))
    bounds := by
      refine ⟨List.ne_nil_of_length_pos ?_, ?_⟩ <;> omega }

/-- What the buffer holds is ready to be sent. -/
theorem Custody.loaded_flush (h : Custody limit w L e log) (hpending : w.pending = none)
    (hsender : w.sender = true) (he : e = false) (hbuffer : w.buffer ≠ []) :
    Loaded limit log { w with buffer := [] } w.buffer L where
  sound := h.sound
  chunkSize := h.chunkSize
  buffer := rfl
  pending := hpending
  sender := hsender
  running := by simp [h.ended, hsender]
  released := h.released
  senders := by simp [h.senders, hsender, hpending]
  unrefused := h.unrefused he
  conserved := h.handed_append_buffer he hpending
  accepted := h.accepted (h.unrefused he)
  bounds := ⟨hbuffer, Nat.le_of_lt h.room⟩

/-- The accepting part of `poll_write` keeps custody, of the bytes it returns as written
and of no others. -/
theorem FillOutcome.custody {buf : Bytes} {a : Poll (Except IoError Nat)}
    (h : FillOutcome w buf (L.contentLength - L.accepted) L w' a L' e')
    (hc : Custody limit w L e log) (hpending : w.pending = none) (hsender : w.sender = true)
    (he : e = false) : Custody limit w' L' e' (log ++ (Call.write buf).acknowledged a) := by
  have hopen := hc.unrefused he
  cases h with
  | buffered hroom =>
    have hlength := w.length_filled buf (L.contentLength - L.accepted)
    have htaken : w.taken buf (L.contentLength - L.accepted) ≤ buf.length ∧
        w.taken buf (L.contentLength - L.accepted) ≤ L.contentLength - L.accepted := by
      simp only [S3UploadWriter.taken]
      omega
    have hcap := hc.sound.capped
    have haccepted := accepted_accept htaken.1 (hc.accepted hopen)
    exact { hc with
      sound := { hc.sound.offer _ with
        counted := Nat.le_trans hc.sound.counted (Nat.le_add_right _ _)
        capped := by
          simp only [Ledger.accept]
          omega }
      room := by
        rw [← hc.chunkSize]
        exact hroom
      parked := by
        intro send hsend
        rw [hpending] at hsend
        cases hsend
      flushed := fun h => absurd (hsender.symm.trans h) (by decide)
      closed := fun h => absurd (hopen.symm.trans h) (by decide)
      conserved := by
        intro _
        rw [← hc.handed_append_buffer he hpending]
        simp [Ledger.accept, S3UploadWriter.filled, S3UploadWriter.parkedBytes, hpending,
          Call.acknowledged]
      accepted := fun _ => haccepted
      logged := Nat.le_of_eq haccepted.symm }
  | sent hfull hstart =>
    have hl := hc.loaded_fill hpending hsender he hfull
    cases hstart with
    | waiting => exact StartOutcome.waiting.custody hl (by simp)
    | delivered => exact StartOutcome.delivered.custody hl (by simp)
    | refused =>
      have hold : Custody limit { w with buffer := [] } _ true log :=
        hl.custody_refused (List.prefix_append _ _) hc.sound.within
      simpa [writeAnswer, Call.acknowledged] using hold

/-- `poll_write` keeps custody of exactly what it acknowledges. -/
theorem WriteOutcome.custody {buf : Bytes} {a : Poll (Except IoError Nat)}
    (h : WriteOutcome w buf L e w' a L' e') (hc : Custody limit w L e log)
    (he : e = true → e' = true) :
    Custody limit w' L' e' (log ++ (Call.write buf).acknowledged a) := by
  have hkeep : ∀ {e₁ : Bool}, PendingOutcome w L w' (.ready (.ok ())) L' e₁ →
      (e = true → e' = true) → Custody limit w' L' e' (log ++ []) := by
    intro e₁ hparked hflag
    simpa using (hparked.custody_ok hc).1.raise hflag
  cases h with
  | waiting hparked => simpa [Call.acknowledged] using hparked.custody hc he
  | failed hparked => simpa [Call.acknowledged] using hparked.custody hc he
  | empty hparked hbuf => simpa [Call.acknowledged] using hkeep hparked he
  | shutDown hparked hsender => exact hkeep hparked he
  | gone hparked => exact hkeep hparked he
  | full hparked hbuf halive howed => exact hkeep hparked he
  | taken hparked hbuf hsender halive howed hfill =>
    obtain ⟨hc₁, hpending⟩ := hparked.custody_ok hc
    exact hfill.custody hc₁ hpending hsender halive

/-- `poll_flush` keeps custody. -/
theorem FlushOutcome.custody {a : Poll (Except IoError Unit)}
    (h : FlushOutcome w L e w' a L' e') (hc : Custody limit w L e log)
    (he : e = true → e' = true) : Custody limit w' L' e' log := by
  cases h with
  | waiting hparked => exact hparked.custody hc he
  | failed hparked => exact hparked.custody hc he
  | gone hparked => exact (hparked.custody_ok hc).1.raise he
  | nothing hparked halive hbuffer => exact (hparked.custody_ok hc).1.raise he
  | started hparked halive hbuffer hsender hstart =>
    obtain ⟨hc₁, hpending⟩ := hparked.custody_ok hc
    have hl := hc₁.loaded_flush hpending hsender halive hbuffer
    cases hstart with
    | waiting => exact StartOutcome.waiting.custody hl (by simp)
    | delivered => exact StartOutcome.delivered.custody hl (by simp)
    | refused => exact hl.custody_refused (List.prefix_refl _) hc₁.sound.within

/-- A flush that answers `Ok` left nothing behind. -/
theorem FlushOutcome.handed_all (h : FlushOutcome w L e w' (.ready (.ok ())) L' e')
    (hc : Custody limit w L e log) :
    w'.pending = none ∧ w'.buffer = [] ∧ L'.sawClosed = false ∧ L'.handed.flatten = log := by
  cases h with
  | nothing hparked halive hbuffer =>
    obtain ⟨hc₁, hpending⟩ := hparked.custody_ok hc
    refine ⟨hpending, hbuffer, hc₁.unrefused halive, ?_⟩
    simpa [hbuffer] using hc₁.handed_append_buffer halive hpending
  | started hparked halive hbuffer hsender hstart =>
    obtain ⟨hc₁, hpending⟩ := hparked.custody_ok hc
    have hl := hc₁.loaded_flush hpending hsender halive hbuffer
    cases hstart with
    | delivered =>
      exact ⟨hpending, rfl, hl.unrefused, by simpa [Ledger.openSend, Ledger.deliver] using
        hl.conserved⟩

theorem PendingOutcome.sender {a : Poll (Except IoError Unit)}
    (h : PendingOutcome w L w' a L' e') : w'.sender = w.sender := by
  cases h <;> rfl

theorem StartOutcome.sender {a : Poll (Except IoError Unit)}
    (h : StartOutcome w chunk L w' a L' e') : w'.sender = w.sender := by
  cases h <;> rfl

/-- `poll_write` never drops the `Sender`. -/
theorem WriteOutcome.sender {buf : Bytes} {a : Poll (Except IoError Nat)}
    (h : WriteOutcome w buf L e w' a L' e') : w'.sender = w.sender := by
  cases h with
  | waiting hparked | failed hparked | gone hparked => exact hparked.sender
  | empty hparked _ | shutDown hparked _ => exact hparked.sender
  | full hparked _ _ _ => exact hparked.sender
  | taken hparked _ _ _ _ hfill =>
    cases hfill with
    | buffered _ => exact hparked.sender
    | sent _ hstart => exact hstart.sender.trans hparked.sender

/-- `poll_flush` never drops the `Sender`. -/
theorem FlushOutcome.sender {a : Poll (Except IoError Unit)}
    (h : FlushOutcome w L e w' a L' e') : w'.sender = w.sender := by
  cases h with
  | waiting hparked | failed hparked | gone hparked => exact hparked.sender
  | nothing hparked _ _ => exact hparked.sender
  | started hparked _ _ _ hstart => exact hstart.sender.trans hparked.sender

/-- Ending a body whose every byte was handed over keeps custody. -/
theorem Custody.end_body (h : Custody limit w L e log) (hsender : w.sender = true)
    (hpending : w.pending = none) (hbuffer : w.buffer = []) (hopen : L.sawClosed = false) :
    Custody limit { w with sender := false } L.endBody.dropSender e log :=
  { h with
    sound := h.sound.endBody h.released
    parked := by
      intro send hsend
      rw [hpending] at hsend
      cases hsend
    ended := rfl
    flushed := fun _ => ⟨hbuffer, hopen⟩
    senders := by simp [Ledger.endBody, Ledger.dropSender, h.senders, hsender, hpending]
    begun := fun _ => rfl }

/-- `poll_shutdown` keeps custody. -/
theorem ShutdownOutcome.custody {a : Poll (Except IoError Unit)}
    (h : ShutdownOutcome w L e w' a L' e') (hc : Custody limit w L e log)
    (he : e = true → e' = true) : Custody limit w' L' e' log := by
  cases h with
  | already hsender => exact hc.raise he
  | waiting hsender hflush => exact hflush.custody hc he
  | failed hsender hflush => exact hflush.custody hc he
  | ended hsender hflush =>
    rename_i w₁ L₁ e₁
    obtain ⟨hpending, hbuffer, hopen, -⟩ := hflush.handed_all hc
    have halive : e = false := by
      cases hflush with
      | nothing _ halive _ => exact halive
      | started _ halive _ _ _ => exact halive
    have hc₁ : Custody limit w₁ L₁ e₁ log :=
      hflush.custody hc fun h => absurd (halive.symm.trans h) (by decide)
    exact { (hc₁.end_body (hflush.sender.trans hsender) hpending hbuffer hopen) with
      closed := fun h => absurd (hopen.symm.trans h) (by decide) }

/-- A shutdown that answers `Ok` handed over everything acknowledged, and its body has
ended. -/
theorem ShutdownOutcome.handed_all (h : ShutdownOutcome w L e w' (.ready (.ok ())) L' e')
    (hc : Custody limit w L e log) :
    w'.sender = false ∧ L'.sawClosed = false ∧ L'.handed.flatten = log := by
  cases h with
  | already hsender =>
    obtain ⟨hbuffer, hopen⟩ := hc.flushed hsender
    have hpending := hc.pending_none hsender
    have hconserved := hc.conserved hopen
    refine ⟨hsender, hopen, ?_⟩
    simpa [S3UploadWriter.parkedBytes, hpending, hbuffer] using hconserved
  | ended hsender hflush =>
    obtain ⟨-, -, hopen, hhanded⟩ := hflush.handed_all hc
    exact ⟨rfl, hopen, hhanded⟩

/-- Every call keeps custody of what was acknowledged before and of what it returns as
written. -/
theorem CallOutcome.custody {c : Call} {a : Answer} (h : CallOutcome w L e c w' a L' e')
    (hc : Custody limit w L e log) (he : e = true → e' = true) :
    Custody limit w' L' e' (log ++ c.acknowledged a) := by
  cases h with
  | write hwrite => exact hwrite.custody hc he
  | flush hflush => simpa [Call.acknowledged] using hflush.custody hc he
  | shutdown hshutdown => simpa [Call.acknowledged] using hshutdown.custody hc he

/-- A call that claims to leave nothing behind. -/
def Call.Settling (c : Call) (a : Answer) : Prop :=
  (c = .flush ∨ c = .shutdown) ∧ ∃ n, a = .ready (.ok n)

/-- A flush or a shutdown that answers `Ok` handed over everything acknowledged. -/
theorem CallOutcome.handed_all {c : Call} {a : Answer} (h : CallOutcome w L e c w' a L' e')
    (hc : Custody limit w L e log) (hsettling : c.Settling a) : L'.handed.flatten = log := by
  obtain ⟨hcall, n, rfl⟩ := hsettling
  have hunit : ∀ {b : Poll (Except IoError Unit)}, .ready (.ok n) = unitAnswer b →
      b = .ready (.ok ()) := by
    intro b hb
    rcases b with _ | _ | ⟨⟨⟩⟩
    · cases hb
    · cases hb
    · rfl
  generalize ha : (Poll.ready (Except.ok n) : Answer) = a at h
  cases h with
  | write hwrite => simp at hcall
  | flush hflush =>
    rw [hunit ha] at hflush
    exact (hflush.handed_all hc).2.2.2
  | shutdown hshutdown =>
    rw [hunit ha] at hshutdown
    exact (hshutdown.handed_all hc).2.2

/-- What remains of a dropped writer: the body has ended, and everything handed over was
acknowledged. -/
structure Gone (limit : Nat) (L : Ledger) (log : Bytes) : Prop where
  sound : Sound limit log L
  ended : L.bodyEnded = true
  released : L.reserved = 0
  senders : L.senders = 0
  logged : log.length ≤ L.accepted
  begun : L.notified = true

/-- Dropping a writer ends its body, whatever it still held. -/
theorem Custody.gone (h : Custody limit w L e log) : Gone limit (L.dropWriter w) log := by
  cases hsender : w.sender with
  | true =>
    have hended := h.sound.endBody h.released
    cases hp : w.pending with
    | none =>
      simp only [Ledger.dropWriter, hsender, hp, if_true, Option.isSome_none]
      exact ⟨hended, rfl, h.released, by simp [Ledger.endBody, Ledger.dropSender, h.senders,
        hsender, hp], h.logged, rfl⟩
    | some send =>
      simp only [Ledger.dropWriter, hsender, hp, if_true, Option.isSome_some]
      exact ⟨{ hended with ended_of_no_sender := fun _ => rfl }, rfl, h.released,
        by simp [Ledger.endBody, Ledger.dropSender, h.senders, hsender, hp], h.logged, rfl⟩
  | false =>
    have hpending := h.pending_none hsender
    have hbody : L.bodyEnded = true := by simp [h.ended, hsender]
    simp only [Ledger.dropWriter, hsender, hpending, Option.isSome_none]
    exact ⟨h.sound, hbody, h.released, by simp [h.senders, hsender, hpending], h.logged,
      h.begun (.inr hbody)⟩

end MyS3.Upload
