import MyS3.Upload.Backpressure

/-!
# Bodies that end on a chunk boundary

Without a flush every chunk is a full one, so a body of whole chunks leaves nothing in the
buffer. Dropping the writer then ends a complete body, unless the channel had no room for the
last chunk when it was asked for some: a parked send dies with the writer.
-/

namespace MyS3.Upload

open Interleaving

/-- Runs in which nothing is called but `poll_write`. -/
def writesOnly (_ : Sys) : Label → Bool
  | .call (.write _) => true
  | .call _ => false
  | _ => true

/-- Every chunk that was handed over or is parked is a full one. -/
structure FullChunks (limit : Nat) (w : S3UploadWriter) (L : Ledger) : Prop where
  handed : ∀ chunk ∈ L.handed, chunk.length = limit
  parked : ∀ send, w.pending = some send → send.chunk.length = limit

variable {limit contentLength : Nat} {σ σ' : Sys} {w w' : S3UploadWriter} {L L' : Ledger}
  {e e' : Bool} {log buf chunk : Bytes} {s t : World} {l : Label}

private theorem PendingOutcome.fullChunks {b : Poll (Except IoError Unit)}
    (h : PendingOutcome w L w' b L' e') (hf : FullChunks limit w L) : FullChunks limit w' L' := by
  cases h with
  | idle _ | waiting _ => exact hf
  | delivered hsend =>
    refine ⟨fun chunk hchunk => ?_, nofun⟩
    rcases List.mem_append.mp hchunk with hchunk | hchunk
    · exact hf.handed chunk hchunk
    · rw [List.mem_singleton.mp hchunk]
      exact hf.parked _ hsend
  | refused _ => exact ⟨hf.handed, nofun⟩

private theorem StartOutcome.fullChunks {b : Poll (Except IoError Unit)}
    (h : StartOutcome w chunk L w' b L' e') (hf : FullChunks limit w L)
    (hchunk : chunk.length = limit) : FullChunks limit w' L' := by
  cases h with
  | waiting =>
    refine ⟨hf.handed, fun send hsend => ?_⟩
    cases hsend
    exact hchunk
  | delivered =>
    refine ⟨fun chunk' hmem => ?_, hf.parked⟩
    rcases List.mem_append.mp hmem with hmem | hmem
    · exact hf.handed chunk' hmem
    · rw [List.mem_singleton.mp hmem]
      exact hchunk
  | refused => exact ⟨hf.handed, hf.parked⟩

/-- `poll_write` starts sends of full chunks only. -/
private theorem WriteOutcome.fullChunks {a : Answer} (h : WriteOutcome w buf L e w' a L' e')
    (hc : Custody limit w L e log) (hf : FullChunks limit w L) : FullChunks limit w' L' := by
  cases h with
  | waiting hparked | failed hparked | gone hparked => exact hparked.fullChunks hf
  | empty hparked _ | shutDown hparked _ => exact hparked.fullChunks hf
  | full hparked _ _ _ => exact hparked.fullChunks hf
  | taken hparked hbuf hsender halive howed hfill =>
    rename_i w₁ L₁ e₁
    obtain ⟨hc₁, -⟩ := hparked.custody_ok hc
    have hf₁ := hparked.fullChunks hf
    cases hfill with
    | buffered _ => exact ⟨hf₁.handed, hf₁.parked⟩
    | sent hfull hstart =>
      have hroom := hc₁.room
      have hsize := hc₁.chunkSize
      have hlength := w₁.length_filled buf (L₁.contentLength - L₁.accepted)
      have htaken : w₁.taken buf (L₁.contentLength - L₁.accepted) ≤
          w₁.chunkSize - w₁.buffer.length := by
        unfold S3UploadWriter.taken
        omega
      exact hstart.fullChunks ⟨hf₁.handed, hf₁.parked⟩ (by omega)

/-- The chunks of a writer between calls are full, and so they are when a call returns. -/
private def Chunked (limit : Nat) (σ : Sys) : Prop :=
  match σ.writer with
  | .idle w => FullChunks limit w σ.world.ledger
  | .calling c p => p.Safe World.exec (writerContract c.mode limit (σ.acked ++ c.offered))
      (fun r u => FullChunks limit r.1 u.ledger) σ.world
  | _ => True

private theorem Chunked.other (h : Chunked limit σ) (hwriter : σ'.writer = σ.writer)
    (hanswers : σ'.answers = σ.answers) (hrely : WriterRely σ.world σ'.world) :
    Chunked limit σ' := by
  unfold Chunked at *
  rw [hwriter, Sys.acked, hanswers]
  split
  · rename_i hw
    rw [hw] at h
    rw [hrely.ledger]
    exact h
  · rename_i hw
    rw [hw] at h
    exact Program.Safe.interfere h hrely
  · exact trivial

private theorem Chunked.step (h : Chunked limit σ) (hinv : σ.Inv limit contentLength)
    (hl : writesOnly σ l = true) (hstep : σ.step l = some σ') : Chunked limit σ' := by
  cases hwriter : l.ofWriter with
  | false =>
    obtain ⟨hthread, hanswers, hrely⟩ := hinv.other hstep hwriter
    exact h.other hthread hanswers hrely
  | true =>
    unfold Chunked at h
    cases Sys.transition_of_step hstep with
    | call hw =>
      rename_i c w
      have hc := hinv.writer
      rw [hw] at hc h
      cases c with
      | flush | shutdown => cases hl
      | write buf =>
        apply w.safe_call (.write buf) hc
        intro w' a L' e' v hout hv _
        rw [hv.ledger]
        cases hout with
        | write hwrite => exact hwrite.fullChunks hc h
    | callOp hw hop =>
      rw [hw] at h
      exact (Program.Safe.advance h hop).2
    | callReturn hw =>
      rw [hw] at h
      have hpost := Program.Safe.post h
      exact hpost
    | dropOp _ _ | dropReturn _ | dropWriter _ => exact trivial
    | _ => cases hwriter

/-- The writer is being dropped or is gone. -/
def WriterThread.isLeaving : WriterThread → Bool
  | .dropping _ | .gone => true
  | _ => false

/-- What a leaving writer handed over is final. -/
theorem leaving_step (h : σ.writer.isLeaving = true) (hinv : σ.Inv limit contentLength)
    (hstep : σ.step l = some σ') : σ'.writer.isLeaving = true ∧
      σ'.world.state.sent = σ.world.state.sent ∧
      σ'.world.channel.handed = σ.world.channel.handed ∧
      σ'.world.state.contentLength = σ.world.state.contentLength := by
  have hlength := (hinv.worldStep hstep).contentLength
  cases hwriter : l.ofWriter with
  | false =>
    obtain ⟨hthread, -, hrely⟩ := hinv.other hstep hwriter
    rw [hthread]
    exact ⟨h, congrArg Ledger.sent hrely.ledger, congrArg Ledger.handed hrely.ledger, hlength⟩
  | true =>
    cases Sys.transition_of_step hstep with
    | call hw | callReturn hw | dropWriter hw | callOp hw _ =>
      rw [hw] at h
      cases h
    | dropOp hw hop =>
      have hsafe := hinv.writer
      rw [hw] at hsafe
      obtain ⟨-, hallows⟩ := (Program.Safe.advance hsafe.2 hop).1
      exact ⟨rfl, hallows.1, hallows.2.1, hlength⟩
    | dropReturn hw => exact ⟨rfl, rfl, rfl, hlength⟩
    | _ => cases hwriter

private theorem leaving_run {policy : Sys → Label → Bool} (h : σ.writer.isLeaving = true)
    (hinv : σ.Inv limit contentLength) (hrun : Reaches Sys.step policy σ σ') :
    σ'.world.state.sent = σ.world.state.sent ∧
      σ'.world.channel.handed = σ.world.channel.handed ∧
      σ'.world.state.contentLength = σ.world.state.contentLength := by
  have hall := hrun.invariant
    (I := fun τ => τ.Inv limit contentLength ∧ τ.writer.isLeaving = true ∧
      τ.world.state.sent = σ.world.state.sent ∧
      τ.world.channel.handed = σ.world.channel.handed ∧
      τ.world.state.contentLength = σ.world.state.contentLength)
    ⟨hinv, h, rfl, rfl, rfl⟩ fun τ l τ' hτ _ hstep => by
      obtain ⟨hτinv, hleaving, hsent, hhanded, hlength⟩ := hτ
      obtain ⟨hleaving', hsent', hhanded', hlength'⟩ := leaving_step hleaving hτinv hstep
      exact ⟨hτinv.step hstep, hleaving', hsent'.trans hsent, hhanded'.trans hhanded,
        hlength'.trans hlength⟩
  exact hall.2.2

/-- `short_body_error` compares the two counts that it reads. -/
theorem shortBodyError_run {choices : List Bool} {r : Option IoError}
    (hrun : shortBodyError.run World.exec choices s = some (r, t)) :
    r = if s.state.contentLength ≤ s.state.sent then none
      else some (shortBody s.state.sent s.state.contentLength) := by
  obtain ⟨_, _, _, s₁, -, hexec, hrun⟩ := Program.run_step_eq_some hrun
  cases hexec
  obtain ⟨_, _, _, s₂, -, hexec, hrun⟩ := Program.run_step_eq_some hrun
  cases hexec
  change Program.run World.exec (if _ ≤ _ then _ else _) _ _ = _ at hrun
  split at hrun
  · rename_i hwhole
    obtain ⟨-, rfl, -⟩ := Program.run_pure_eq_some hrun
    exact (if_pos hwhole).symm
  · rename_i hshort
    obtain ⟨-, rfl, -⟩ := Program.run_pure_eq_some hrun
    exact (if_neg hshort).symm

private theorem length_flatten_full {chunks : List Bytes}
    (h : ∀ chunk ∈ chunks, chunk.length = limit) : chunks.flatten.length = chunks.length * limit := by
  induction chunks with
  | nil => simp
  | cons chunk chunks ih =>
    rw [List.flatten_cons, List.length_append, h chunk (List.mem_cons_self ..),
      ih fun c hc => h c (List.mem_cons_of_mem _ hc), List.length_cons, Nat.succ_mul, Nat.add_comm]

/-- Whole chunks leave no part of one in the buffer. -/
private theorem buffer_nil (hc : Custody limit w L e log) (hf : FullChunks limit w L)
    (hopen : L.sawClosed = false) (hpending : w.pending = none) {m : Nat}
    (hlog : log.length = m * limit) : w.buffer = [] := by
  have hroom := hc.room
  have hwhole := congrArg List.length (hc.conserved hopen)
  simp only [S3UploadWriter.parkedBytes, hpending, List.append_nil, List.length_append, hlog,
    length_flatten_full hf.handed] at hwhole
  have hle : L.handed.length ≤ m := Nat.le_of_mul_le_mul_right (by omega) (by omega : 0 < limit)
  obtain ⟨k, rfl⟩ := Nat.exists_eq_add_of_le hle
  rw [Nat.add_mul] at hwhole
  cases k with
  | zero => exact List.length_eq_zero_iff.mp (by omega)
  | succ k =>
    rw [Nat.succ_mul] at hwhole
    omega

/-- A body of whole chunks that was written without a flush is complete at the drop of its
writer exactly when no send is parked then. -/
private theorem delivered_iff_unparked {bucketName key : String} {chunkSize m : Nat}
    {σ₀ σ₁ σ₂ : Sys}
    (h₀ : σ₀.Started bucketName key contentLength chunkSize)
    (hboundary : contentLength = m * max chunkSize 1)
    (hrun : Reaches Sys.step writesOnly σ₀ σ) (hw : σ.writer = .idle w)
    (hacked : σ.acked.length = contentLength) (hopen : σ.world.sawClosed = false)
    (hdrop : σ.step .dropWriter = some σ₁) (hrest : Reaches Sys.step anyLabel σ₁ σ₂) :
    (σ₂.world.channel.handed.flatten = σ.acked ∧ σ₂.world.state.sent = contentLength ∧
      ∀ choices r t, shortBodyError.run World.exec choices σ₂.world = some (r, t) → r = none) ↔
    w.pending = none := by
  obtain ⟨hinv, hchunked⟩ := hrun.invariant
    (I := fun τ => τ.Inv (max chunkSize 1) contentLength ∧ Chunked (max chunkSize 1) τ)
    ⟨h₀.inv, by rcases h₀ with rfl | rfl <;> exact ⟨nofun, nofun⟩⟩
    fun _ _ _ h hl hstep => ⟨h.1.step hstep, h.2.step h.1 hl hstep⟩
  have hc := hinv.writer
  rw [hw] at hc
  simp only [Chunked, hw] at hchunked
  have hinv₁ := hinv.step hdrop
  simp only [Sys.step, hw, Option.some.injEq] at hdrop
  subst hdrop
  obtain ⟨hsent, hhanded, hlength⟩ := leaving_run rfl hinv₁ hrest
  have hexact : σ.world.state.sent = σ.world.channel.handed.flatten.length :=
    hc.sound.exact_of_unreserved hc.released
  have hconserved : σ.world.channel.handed.flatten ++ w.parkedBytes ++ w.buffer = σ.acked :=
    hc.conserved hopen
  rw [hhanded, hsent]
  constructor
  · rintro ⟨hall, -, -⟩
    cases hpending : w.pending with
    | none => rfl
    | some send =>
      -- the parked chunk is missing from what was handed over
      have hsome := List.length_pos_iff.mpr (hc.parked send hpending).2.2.1
      have hwhole := congrArg List.length hconserved
      simp only [S3UploadWriter.parkedBytes, hpending, hall, List.length_append] at hwhole
      omega
  · intro hpending
    have hbuffer := buffer_nil hc hchunked hopen hpending (hacked.trans hboundary)
    have hall : σ.world.channel.handed.flatten = σ.acked := by
      simpa [S3UploadWriter.parkedBytes, hpending, hbuffer] using hconserved
    have hcount : σ.world.state.sent = contentLength := by
      rw [hexact, hall, hacked]
    refine ⟨hall, hcount, fun choices r t hread => ?_⟩
    have hdeclared : σ₂.world.state.contentLength = contentLength := hlength.trans hinv.length
    have hsent₂ : σ₂.world.state.sent = contentLength := hsent.trans hcount
    rw [shortBodyError_run hread, hdeclared, hsent₂]
    exact if_pos (Nat.le_refl _)

/-- The last answer of `reserve`, among the responses that a program is given. -/
def Op.lastReserve : (op : Op) → op.Res → Poll Bool → Poll Bool
  | .reserve, r, _ => r
  | _, _, last => last

/-- What the last answer of `reserve` left of a writer's send. -/
def S3UploadWriter.LeftBy (w : S3UploadWriter) : Poll Bool → Prop
  | .ready true => w.pending = none
  | .pending => w.pending ≠ none
  | .ready false => True

/-- The programs of the writer that leave it as the last answer of `reserve` says. -/
private abbrev Leaves {α : Type} (p : Prog (S3UploadWriter × α)) (last : Poll Bool) : Prop :=
  p.Leaves Op.lastReserve (fun last r => r.1.LeftBy last) last

variable {last : Poll Bool}

/-- A send comes to what `reserve` answered. -/
private theorem PendingSend.poll_leaves (send : PendingSend) :
    send.poll.Leaves Op.lastReserve (fun last r => r = last) last := by
  intro answer
  cases answer with
  | pending => exact rfl
  | ready granted =>
    cases granted with
    | true => exact fun _ _ _ => rfl
    | false => exact fun _ => rfl

private theorem S3UploadWriter.pollPending_leaves (h : w.LeftBy last) :
    w.pollPending.Leaves Op.lastReserve
      (fun last r => r.1.LeftBy last ∧ (r.2 = .ready (.ok ()) → r.1.pending = none)) last := by
  unfold S3UploadWriter.pollPending
  cases hpending : w.pending with
  | none => exact ⟨h, fun _ => hpending⟩
  | some send =>
    refine .bind send.poll_leaves ?_
    rintro _ answer rfl
    cases answer with
    | pending =>
      refine ⟨?_, nofun⟩
      rw [LeftBy, hpending]
      exact Option.some_ne_none send
    | ready granted =>
      cases granted with
      | true => exact ⟨rfl, fun _ => rfl⟩
      | false => exact fun _ => ⟨trivial, fun _ => rfl⟩

private theorem S3UploadWriter.startSend_leaves (h : w.LeftBy last) (hpending : w.pending = none) :
    Leaves (w.startSend chunk) last := by
  unfold S3UploadWriter.startSend
  split
  · intro _ _
    change Leaves (PendingSend.poll ⟨chunk⟩ >>= _) last
    refine .bind (PendingSend.poll_leaves _) ?_
    rintro _ answer rfl
    cases answer with
    | pending => exact Option.some_ne_none _
    | ready granted =>
      cases granted with
      | true => exact hpending
      | false => exact fun _ => trivial
  · exact h

private theorem S3UploadWriter.fillChunk_leaves {owed : Nat} (h : w.LeftBy last)
    (hpending : w.pending = none) : Leaves (w.fillChunk buf owed) last := by
  unfold S3UploadWriter.fillChunk
  intro _
  change Leaves (if _ then _ else _) last
  split
  · exact h
  · refine .bind (startSend_leaves (w := { w with buffer := [] }) h hpending) ?_
    rintro answer ⟨w', _ | (err | ⟨⟨⟩⟩)⟩ hleft
    · exact hleft
    · exact hleft
    · exact hleft

/-- A `poll_write` leaves the writer so. -/
private theorem S3UploadWriter.pollWrite_leaves (h : w.LeftBy last) :
    Leaves (w.pollWrite buf) last := by
  unfold S3UploadWriter.pollWrite
  refine .bind (pollPending_leaves h) ?_
  rintro answer ⟨w', _ | (err | ⟨⟨⟩⟩)⟩ ⟨hleft, hfree⟩
  · exact hleft
  · exact hleft
  · have hpending := hfree rfl
    change Leaves (if _ then _ else _) answer
    split
    · exact hleft
    · split
      · exact hleft
      · intro ended
        change Leaves (if _ then _ else _) answer
        split
        · exact fun _ => hleft
        · intro declared accepted
          change Leaves (if _ then _ else _) answer
          split
          · exact hleft
          · exact fillChunk_leaves hleft hpending

/-- What the writer met where it last asked the channel for room: that it was not made to wait,
and that a slot was free. -/
def Sys.metRoom (σ : Sys) (l : Label) (room : Bool) : Bool :=
  match σ.writer, l with
  | .calling _ (.step .reserve _), .writerOp now => now && σ.world.channel.hasRoom
  | _, _ => room

/-- Runs of a system that take down what the writer met. -/
abbrev Met (policy : Sys → Label → Bool) : Sys × Bool → Sys × Bool → Prop :=
  Reaches (noting Sys.step Sys.metRoom) fun noted => policy noted.1

/-- The note agrees with the last answer of `reserve`, unless a send was refused. -/
private def Agrees (σ : Sys) (room : Bool) (last : Poll Bool) : Prop :=
  σ.world.sawClosed = false → last = if room then .ready true else .pending

/-- The writer stands as the note says, and so it does when its call returns. -/
private def Marked (σ : Sys) (room : Bool) : Prop :=
  match σ.writer with
  | .idle w => ∃ last, w.LeftBy last ∧ Agrees σ room last
  | .calling _ p => ∃ last, Leaves p last ∧ Agrees σ room last
  | _ => True

/-- Only where an operation is performed is anything met. -/
private theorem metRoom_of_ne {room : Bool} (h : ∀ now, l ≠ .writerOp now) :
    σ.metRoom l room = room := by
  unfold Sys.metRoom
  split
  · exact absurd rfl (h _)
  · rfl

/-- What `reserve` answers is what the writer meets. -/
private theorem reserve_agrees {now room : Bool} {c : Call} {answer : Poll Bool}
    {next : Poll Bool → Prog (S3UploadWriter × Answer)}
    (hw : σ.writer = .calling c (.step .reserve next))
    (hexec : σ.world.exec .reserve now = some (answer, t)) (hopen : t.sawClosed = false) :
    answer = if σ.metRoom (.writerOp now) room then .ready true else .pending := by
  have hmet : σ.metRoom (.writerOp now) room = (now && σ.world.channel.hasRoom) := by
    simp only [Sys.metRoom, hw]
  rw [hmet]
  simp only [World.exec, Option.some.injEq, World.reserve] at hexec
  cases now with
  | false =>
    cases hexec
    rfl
  | true =>
    rw [if_pos rfl] at hexec
    by_cases hlistening : σ.world.channel.receiver = .listening
    · rw [if_pos hlistening] at hexec
      cases hroom : σ.world.channel.hasRoom with
      | true =>
        rw [hroom] at hexec
        cases hexec
        rfl
      | false =>
        rw [hroom] at hexec
        cases hexec
        rfl
    · rw [if_neg hlistening] at hexec
      cases hexec
      cases hopen

private theorem Marked.step {room : Bool} (h : Marked σ room) (hinv : σ.Inv limit contentLength)
    (hl : writesOnly σ l = true) (hstep : σ.step l = some σ') :
    Marked σ' (σ.metRoom l room) := by
  have hunrefused : σ'.world.sawClosed = false → σ.world.sawClosed = false := by
    intro hopen
    by_contra hrefused
    rw [Bool.not_eq_false] at hrefused
    rw [(hinv.worldStep hstep).sawClosed hrefused] at hopen
    cases hopen
  have hkept : ∀ {last}, Agrees σ room last → Agrees σ' room last :=
    fun hagrees hopen => hagrees (hunrefused hopen)
  unfold Marked at h ⊢
  cases hwriter : l.ofWriter with
  | false =>
    obtain ⟨hthread, -, -⟩ := hinv.other hstep hwriter
    have hroom : σ.metRoom l room = room := by
      apply metRoom_of_ne
      rintro now rfl
      cases hwriter
    rw [hthread, hroom]
    split
    · rename_i hw
      simp only [hw] at h
      obtain ⟨last, hleft, hagrees⟩ := h
      exact ⟨last, hleft, hkept hagrees⟩
    · rename_i hw
      simp only [hw] at h
      obtain ⟨last, hleaves, hagrees⟩ := h
      exact ⟨last, hleaves, hkept hagrees⟩
    · trivial
  | true =>
    cases Sys.transition_of_step hstep with
    | call hw =>
      rename_i c w
      simp only [hw] at h
      obtain ⟨last, hleft, hagrees⟩ := h
      cases c with
      | flush | shutdown => cases hl
      | write buf =>
        rw [metRoom_of_ne fun _ => Label.noConfusion]
        exact ⟨last, S3UploadWriter.pollWrite_leaves hleft, hkept hagrees⟩
    | callOp hw hop =>
      rename_i now c p q world
      simp only [hw] at h
      obtain ⟨last, hleaves, hagrees⟩ := h
      obtain ⟨op, next, r, rfl, hexec, rfl⟩ := Program.advance_eq_some hop
      refine ⟨_, hleaves r, fun hopen => ?_⟩
      by_cases hasks : op = .reserve
      · subst hasks
        exact reserve_agrees hw hexec hopen
      · have hnote : op.lastReserve r last = last ∧ σ.metRoom (.writerOp now) room = room := by
          cases op with
          | reserve => exact absurd rfl hasks
          | _ =>
            simp only [Sys.metRoom, hw]
            exact ⟨rfl, trivial⟩
        rw [hnote.1, hnote.2]
        exact hkept hagrees hopen
    | callReturn hw =>
      simp only [hw] at h
      obtain ⟨last, hleft, hagrees⟩ := h
      rw [metRoom_of_ne fun _ => Label.noConfusion]
      exact ⟨last, hleft, hkept hagrees⟩
    | dropOp _ _ | dropReturn _ | dropWriter _ => exact trivial
    | _ => cases hwriter

/-- A writer that is idle has nothing parked exactly if there was room where it last asked. -/
private theorem unparked_iff_room {noted : Sys × Bool} {bucketName key : String}
    {chunkSize : Nat} {σ₀ : Sys} (h₀ : σ₀.Started bucketName key contentLength chunkSize)
    (hmet : Met writesOnly (σ₀, true) noted) (hw : noted.1.writer = .idle w)
    (hopen : noted.1.world.sawClosed = false) : w.pending = none ↔ noted.2 = true := by
  have hbegun : Marked σ₀ true := by
    rcases h₀ with rfl | rfl <;> exact ⟨.ready true, rfl, fun _ => rfl⟩
  obtain ⟨-, hmarked⟩ := hmet.invariant
    (I := fun noted => noted.1.Inv (max chunkSize 1) contentLength ∧ Marked noted.1 noted.2)
    ⟨h₀.inv, hbegun⟩ fun noted l next h hl hstep => by
      obtain ⟨σ', hstep', rfl⟩ := Option.map_eq_some_iff.mp hstep
      exact ⟨h.1.step hstep', h.2.step h.1 hl hstep'⟩
  unfold Marked at hmarked
  simp only [hw] at hmarked
  obtain ⟨last, hleft, hagrees⟩ := hmarked
  rw [hagrees hopen] at hleft
  cases hroom : noted.2 with
  | true =>
    rw [hroom] at hleft
    exact ⟨fun _ => rfl, fun _ => hleft⟩
  | false =>
    rw [hroom] at hleft
    exact ⟨fun hnone => absurd hnone hleft, nofun⟩

/-- A body of whole chunks that was written without a flush is complete at the drop of its writer
exactly if the writer found room in the channel where it last asked for some. Any run can be
watched for that. -/
theorem boundary_delivered_iff {bucketName key : String} {chunkSize m : Nat} {σ₀ σ₁ σ₂ : Sys}
    (h₀ : σ₀.Started bucketName key contentLength chunkSize)
    (hboundary : contentLength = m * max chunkSize 1)
    (hrun : Reaches Sys.step writesOnly σ₀ σ) (hw : σ.writer = .idle w)
    (hacked : σ.acked.length = contentLength) (hopen : σ.world.sawClosed = false)
    (hdrop : σ.step .dropWriter = some σ₁) (hrest : Reaches Sys.step anyLabel σ₁ σ₂) :
    (∃ room, Met writesOnly (σ₀, true) (σ, room)) ∧
      ∀ room, Met writesOnly (σ₀, true) (σ, room) →
        ((σ₂.world.channel.handed.flatten = σ.acked ∧ σ₂.world.state.sent = contentLength ∧
          ∀ choices r t, shortBodyError.run World.exec choices σ₂.world = some (r, t) →
            r = none) ↔ room = true) := by
  refine ⟨hrun.noted Sys.metRoom true, fun room hmet => ?_⟩
  rw [delivered_iff_unparked h₀ hboundary hrun hw hacked hopen hdrop hrest]
  exact unparked_iff_room h₀ hmet hw hopen

/-- Two chunks that both went into the channel, and the drop of their writer. -/
def twoChunks : List Label :=
  (List.replicate 2 ([.call (.write [7])] ++ List.replicate 10 (.writerOp true) ++
    [.writerReturn])).flatten

theorem boundary_delivered_iff_two :
    let σ := runTo Sys.step writesOnly twoChunks (.uploadWithWriter "b" "k" 2 1)
    let σ₁ := runTo Sys.step anyLabel [.dropWriter] σ
    let σ₂ := runTo Sys.step anyLabel (List.replicate 3 (.writerOp true)) σ₁
    σ₂.world.channel.handed.flatten = [7, 7] ∧ σ₂.world.state.sent = 2 := by
  intro σ σ₁ σ₂
  have hrun : Reaches Sys.step writesOnly (.uploadWithWriter "b" "k" 2 1) σ :=
    reaches_runTo (by decide)
  have hrest : Reaches Sys.step anyLabel σ₁ σ₂ := reaches_runTo (by decide)
  have hw : σ.writer = .idle ⟨"b", "k", true, [], 1, none⟩ := rfl
  have hboundary : 2 = 2 * max 1 1 := rfl
  let noted := runTo (noting Sys.step Sys.metRoom) (fun noted => writesOnly noted.1) twoChunks
    (.uploadWithWriter "b" "k" 2 1, true)
  have hmet : Met writesOnly (.uploadWithWriter "b" "k" 2 1, true) noted :=
    reaches_runTo (by decide)
  have hnoted : noted = (σ, true) := rfl
  obtain ⟨-, hdone⟩ := boundary_delivered_iff (.inr rfl) hboundary hrun hw (by decide) rfl rfl hrest
  obtain ⟨hall, hsent, -⟩ := (hdone true (hnoted ▸ hmet)).mpr rfl
  exact ⟨hall, hsent⟩

/-- Five chunks to an upload that takes nothing: all are acknowledged, the fifth is parked and
dies with the writer. -/
theorem parked_chunk_dies :
    let σ := runTo Sys.step writesOnly fiveChunks (.uploadWithWriter "b" "k" 5 1)
    let σ' := runTo Sys.step anyLabel ([.dropWriter] ++ List.replicate 4 (.writerOp true) ++
      [.writerReturn]) σ
    Reaches Sys.step writesOnly (.uploadWithWriter "b" "k" 5 1) σ ∧
    Reaches Sys.step anyLabel σ σ' ∧ σ.acked = [7, 7, 7, 7, 7] ∧ σ'.world.sawClosed = false ∧
    σ'.world.channel.handed.flatten = [7, 7, 7, 7] ∧ σ'.world.state.sent = 4 ∧
    (shortBodyError.run World.exec [true, true] σ'.world).map Prod.fst =
      some (some (shortBody 4 5)) :=
  ⟨reaches_runTo (by decide), reaches_runTo (by decide +kernel), by decide, by decide +kernel,
    by decide +kernel, by decide +kernel, by decide +kernel⟩

end MyS3.Upload
