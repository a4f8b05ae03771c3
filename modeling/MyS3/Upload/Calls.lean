import MyS3.Upload.Custody
import MyS3.Upload.Operation

/-!
# The programs have exactly their outcomes

One specification for each function of the writer, proved by the operation rules in the
order of its operations. A caller cites the specification of what it calls.
-/

namespace MyS3.Upload

open Interleaving Program

variable {mode : Mode} {limit : Nat} {log buf : Bytes} {s : World} {w : S3UploadWriter}
  {L L' : Ledger} {e : Bool} {chunk : Bytes}

/-- What a step leaves alone that neither counts nor hands over anything. -/
private structure SameCounts (L L' : Ledger) : Prop where
  contentLength : L'.contentLength = L.contentLength
  accepted : L'.accepted = L.accepted
  sent : L'.sent = L.sent
  handed : L'.handed = L.handed
  sawClosed : L'.sawClosed = L.sawClosed
  bodyEnded : L.bodyEnded = true → L'.bodyEnded = true

/-- Such a step is permitted where its call may take it and it leaves the ledger sound. -/
private theorem SameCounts.permitted (h : SameCounts L L') (hs : Sound limit log L')
    (hallows : mode.Allows L L') : Permitted mode limit log L L' where
  step := {
    sound := hs
    contentLength := h.contentLength
    accepted := Nat.le_of_eq h.accepted.symm
    sent := Nat.le_of_eq h.sent.symm
    handed := h.handed ▸ List.prefix_refl _
    bodyEnded := h.bodyEnded
    sawClosed := fun hclosed => h.sawClosed.trans hclosed
    frozen := fun _ => ⟨h.sent, h.handed, h.sawClosed⟩
    permitted := fun _ => ⟨h.sent, h.handed⟩
    held := fun _ => h.accepted }
  allows := hallows

/-- Changes to the permits, to the `Sender` handles and to what is only recorded. -/
private theorem sameCounts_with (L : Ledger) (reserved senders : Nat)
    (sendStarted notified : Bool) : SameCounts L { L with
      reserved := reserved, senders := senders, sendStarted := sendStarted, notified := notified } :=
  ⟨rfl, rfl, rfl, rfl, rfl, id⟩

namespace Sendable

private theorem reserve_permitted (h : Sendable limit log chunk L) (hmode : mode ≠ .dropping) :
    Permitted mode limit log L { L with reserved := L.reserved + 1 } :=
  (sameCounts_with L _ _ _ _).permitted
    { h.sound with
      exact_of_unreserved := fun h0 => by cases h0
      unreserved_of_ended := fun hended => absurd (h.running.symm.trans hended) (by decide) }
    (Mode.allows_of_bodyEnded hmode rfl)

private theorem refuse_permitted (h : Sendable limit log chunk L) (hmode : mode ≠ .dropping) :
    Permitted mode limit log L { L with sawClosed := true } where
  step := { LedgerStep.refl h.sound with
    sound := { h.sound with }
    sawClosed := fun _ => rfl
    frozen := fun hended => absurd (h.running.symm.trans hended) (by decide) }
  allows := Mode.allows_of_bodyEnded hmode rfl

private theorem count_permitted (h : Sendable limit log chunk L) (hmode : mode ≠ .dropping) :
    Permitted mode limit log { L with reserved := L.reserved + 1 }
      { L with reserved := L.reserved + 1, sent := L.sent + chunk.length } where
  step := { LedgerStep.refl (h.reserve_permitted hmode).step.sound with
    sound := { h.sound with
      delivered := Nat.le_trans h.sound.delivered (Nat.le_add_right _ _)
      counted := h.covered
      exact_of_unreserved := fun h0 => by cases h0
      unreserved_of_ended := fun hended => absurd (h.running.symm.trans hended) (by decide) }
    sent := Nat.le_add_right _ _
    frozen := fun hended => absurd (h.running.symm.trans hended) (by decide)
    permitted := fun h0 => by cases h0 }
  allows := Mode.allows_of_bodyEnded hmode rfl

private theorem permit_permitted (h : Sendable limit log chunk L) (hmode : mode ≠ .dropping) :
    Permitted mode limit log
      { L with reserved := L.reserved + 1, sent := L.sent + chunk.length }
      { L with
        reserved := L.reserved
        sent := L.sent + chunk.length
        handed := L.handed ++ [chunk] } where
  step := { LedgerStep.refl (h.count_permitted hmode).step.sound with
    sound := { h.sound_deliver with ended_of_no_sender := h.sound.ended_of_no_sender }
    handed := List.prefix_append _ _
    frozen := fun hended => absurd (h.running.symm.trans hended) (by decide)
    permitted := fun h0 => by cases h0 }
  allows := Mode.allows_of_bodyEnded hmode rfl

end Sendable

/-- Polling a send: it waits, delivers, or is refused. -/
theorem PendingSend.holds_poll (send : PendingSend) (hmode : mode ≠ .dropping)
    (h : Found L e s) (hsend : Sendable limit log send.chunk L) :
    Holds mode limit log send.poll
      (fun r u => ∃ L', SendOutcome send.chunk L r L' ∧ Found L' e u) s := by
  refine wp_seq (holds_reserve h hsend.sound (hsend.reserve_permitted hmode)
    (hsend.refuse_permitted hmode) ?_ ?_ ?_)
  · intro u hu
    exact ⟨L, .waiting, hu⟩
  · intro u hu
    refine wp_seq (holds_fetchAddSent hu (hsend.count_permitted hmode) fun u hu => ?_)
    refine wp_seq (holds_permitSend hu (hsend.permit_permitted hmode) fun u hu => ?_)
    refine wp_seq (holds_dropSender hu ?_ fun u hu => ⟨_, .delivered, hu⟩)
    exact (sameCounts_with _ _ _ _ _).permitted hsend.sound_deliver
      (Mode.allows_of_bodyEnded hmode rfl)
  · intro u hu
    refine wp_seq (holds_dropSender hu ?_ fun u hu => ⟨_, .refused, hu⟩)
    exact (sameCounts_with _ _ _ _ _).permitted hsend.sound_refuse
      (Mode.allows_of_bodyEnded hmode rfl)

/-- Recording that the upload is gone, behind a refused send or a raised flag. -/
theorem S3UploadWriter.holds_uploadIsGone (w : S3UploadWriter) (h : Found L e s)
    (hs : Sound limit log L) (hreason : e = true ∨ L.sawClosed = true) :
    Holds mode limit log w.uploadIsGone (fun err u => err = w.uploadGone ∧ Found L true u) s :=
  wp_seq (holds_storeUploadEnded h hs hreason fun _ hu => ⟨rfl, hu⟩)

/-- Driving the parked send has the outcomes of `PendingOutcome`. -/
theorem S3UploadWriter.holds_pollPending (w : S3UploadWriter) (buf : Bytes) {base : Bytes}
    (hmode : mode ≠ .dropping) (h : Found L e s) (hc : Custody limit w L e base) :
    Holds mode limit (base ++ buf) w.pollPending (fun r u => ∃ L' e',
      PendingOutcome w L r.1 r.2 L' e' ∧ Found L' e' u ∧ (e = true → e' = true)) s := by
  unfold S3UploadWriter.pollPending
  split
  · rename_i hnone
    exact ⟨L, e, .idle hnone, h, id⟩
  · rename_i send hsend
    have hsendable := hc.sendable hsend buf
    refine wp_call (send.holds_poll hmode h hsendable) fun r u hr => ?_
    obtain ⟨L', hout, hu⟩ := hr
    cases hout with
    | waiting => exact ⟨L, e, .waiting hsend, hu, id⟩
    | delivered => exact ⟨_, e, .delivered hsend, hu, id⟩
    | refused =>
      refine wp_call (w.holds_uploadIsGone hu hsendable.sound_refuse (.inr rfl)) fun err u hr => ?_
      obtain ⟨rfl, hu⟩ := hr
      exact ⟨_, true, .refused hsend, hu, fun _ => rfl⟩

/-- Starting a send has the outcomes of `StartOutcome`. -/
theorem S3UploadWriter.holds_startSend (hmode : mode ≠ .dropping) (h : Found L e s)
    (hl : Loaded limit log w chunk L) (hbuf : log <+: buf) :
    Holds mode limit buf (w.startSend chunk) (fun r u => ∃ L' e',
      StartOutcome w chunk L r.1 r.2 L' e' ∧ Found L' e' u ∧ (e = true → e' = true)) s := by
  have hsendable : Sendable limit buf chunk L.openSend := { hl.sendable with
    sound := { hl.sendable.sound with within := hl.sendable.sound.within.trans hbuf }
    within := hl.sendable.within.trans hbuf }
  unfold S3UploadWriter.startSend
  rw [if_pos hl.sender]
  refine wp_seq (holds_cloneSender h ?_ fun u hu => ?_)
  · exact (sameCounts_with _ _ _ _ _).permitted
      { hsendable.sound with begun_of_notified := fun _ => .inl rfl }
      (Mode.allows_of_bodyEnded hmode rfl)
  refine wp_seq (holds_notifyOne hu ?_ fun u hu => ?_)
  · exact (sameCounts_with _ _ _ _ _).permitted hsendable.sound
      (Mode.allows_of_bodyEnded hmode rfl)
  refine wp_call ((PendingSend.mk chunk).holds_poll hmode hu hsendable) fun r u hr => ?_
  obtain ⟨L', hout, hu⟩ := hr
  cases hout with
  | waiting => exact ⟨_, e, .waiting, hu, id⟩
  | delivered => exact ⟨_, e, .delivered, hu, id⟩
  | refused =>
    refine wp_call (w.holds_uploadIsGone hu hsendable.sound_refuse (.inr rfl)) fun err u hr => ?_
    obtain ⟨rfl, hu⟩ := hr
    exact ⟨_, true, .refused, hu, fun _ => rfl⟩

/-- Taking bytes from the producer is permitted up to what is still owed. -/
private theorem accept_permitted {base : Bytes} (hmode : mode ≠ .dropping)
    (hc : Custody limit w L e base) :
    Permitted mode limit (base ++ buf) L
      (L.accept (w.taken buf (L.contentLength - L.accepted))) where
  step := { LedgerStep.refl (hc.sound.offer buf) with
    sound := { hc.sound.offer buf with
      counted := Nat.le_trans hc.sound.counted (Nat.le_add_right _ _)
      capped := by
        have := hc.sound.capped
        simp only [Ledger.accept, S3UploadWriter.taken]
        omega }
    accepted := Nat.le_add_right _ _
    held := fun hr => absurd hc.released hr }
  allows := Mode.allows_of_bodyEnded hmode rfl

/-- The accepting part of `poll_write` has the outcomes of `FillOutcome`. -/
theorem S3UploadWriter.holds_fillChunk {base : Bytes} (hmode : mode ≠ .dropping)
    (h : Found L e s) (hc : Custody limit w L e base) (hpending : w.pending = none)
    (hsender : w.sender = true) (he : e = false) :
    Holds mode limit (base ++ buf) (w.fillChunk buf (L.contentLength - L.accepted))
      (fun r u => ∃ L' e', FillOutcome w buf (L.contentLength - L.accepted) L r.1 r.2 L' e' ∧
        Found L' e' u ∧ (e = true → e' = true)) s := by
  refine wp_seq (holds_fetchAddAccepted h (accept_permitted hmode hc) fun u hu => ?_)
  split
  · rename_i hroom
    exact ⟨_, e, .buffered hroom, hu, id⟩
  · rename_i hroom
    have hfull := Nat.le_of_not_lt hroom
    have hl := hc.loaded_fill hpending hsender he hfull
    have hoffered : base ++ buf.take (w.taken buf (L.contentLength - L.accepted)) <+:
        base ++ buf := (List.prefix_append_right_inj base).mpr (List.take_prefix _ _)
    refine wp_call (S3UploadWriter.holds_startSend hmode hu hl hoffered) fun r u hr => ?_
    obtain ⟨w', a⟩ := r
    obtain ⟨L', e', hout, hu, hflag⟩ := hr
    rcases a with _ | err | ⟨⟨⟩⟩
    · exact ⟨L', e', .sent hfull hout, hu, hflag⟩
    · exact ⟨L', e', .sent hfull hout, hu, hflag⟩
    · exact ⟨L', e', .sent hfull hout, hu, hflag⟩

/-- `poll_write` has the outcomes of `WriteOutcome`. -/
theorem S3UploadWriter.holds_pollWrite {base : Bytes} (hmode : mode ≠ .dropping)
    (h : Found L e s) (hc : Custody limit w L e base) :
    Holds mode limit (base ++ buf) (w.pollWrite buf) (fun r u => ∃ L' e',
      WriteOutcome w buf L e r.1 r.2 L' e' ∧ Found L' e' u ∧ (e = true → e' = true)) s := by
  refine wp_call (w.holds_pollPending buf hmode h hc) fun r u hr => ?_
  obtain ⟨w₁, a⟩ := r
  obtain ⟨L₁, e₁, hparked, hu, hflag⟩ := hr
  rcases a with _ | err | ⟨⟨⟩⟩
  · exact ⟨L₁, e₁, .waiting hparked, hu, hflag⟩
  · exact ⟨L₁, e₁, .failed hparked, hu, hflag⟩
  obtain ⟨hc₁, hpending⟩ := hparked.custody_ok hc
  replace hu : Found L₁ e u := ⟨hu.ledger, fun he => hu.flag (hflag he)⟩
  have hs := hc₁.sound.offer buf
  simp only
  split
  · rename_i hbuf
    exact ⟨L₁, e, .empty hparked hbuf, hu, id⟩
  · rename_i hbuf
    split
    · rename_i hsender
      exact ⟨L₁, e, .shutDown hparked (by simpa using hsender), hu, id⟩
    · rename_i hsender
      refine wp_seq (holds_loadUploadEnded hu hs (fun u hu => ?_)
        (fun u hu halive => ?_))
      · refine wp_call (w₁.holds_uploadIsGone hu hs (.inl rfl)) fun err u hr => ?_
        obtain ⟨rfl, hu⟩ := hr
        exact ⟨L₁, true, .gone hparked, hu, fun _ => rfl⟩
      · refine wp_seq (holds_contentLength hu hs fun u hu => ?_)
        refine wp_seq (holds_loadAccepted hu hs fun u hu => ?_)
        split
        · rename_i howed
          exact ⟨L₁, e, .full hparked hbuf halive howed, hu, id⟩
        · rename_i howed
          have hsender' : w₁.sender = true := by simpa using hsender
          refine wp_mono (S3UploadWriter.holds_fillChunk hmode hu hc₁ hpending hsender' halive)
            fun r u hr => ?_
          obtain ⟨L', e', hfill, hu, hflag'⟩ := hr
          exact ⟨L', e', .taken hparked hbuf hsender' halive howed hfill, hu, hflag'⟩

/-- `poll_flush` has the outcomes of `FlushOutcome`. -/
theorem S3UploadWriter.holds_pollFlush (hmode : mode ≠ .dropping)
    (h : Found L e s) (hc : Custody limit w L e log) :
    Holds mode limit log w.pollFlush (fun r u => ∃ L' e',
      FlushOutcome w L e r.1 r.2 L' e' ∧ Found L' e' u ∧ (e = true → e' = true)) s := by
  have hparked := w.holds_pollPending [] hmode h hc
  rw [List.append_nil] at hparked
  refine wp_call hparked fun r u hr => ?_
  obtain ⟨w₁, a⟩ := r
  obtain ⟨L₁, e₁, hparked, hu, hflag⟩ := hr
  rcases a with _ | err | ⟨⟨⟩⟩
  · exact ⟨L₁, e₁, .waiting hparked, hu, hflag⟩
  · exact ⟨L₁, e₁, .failed hparked, hu, hflag⟩
  obtain ⟨hc₁, hpending⟩ := hparked.custody_ok hc
  replace hu : Found L₁ e u := ⟨hu.ledger, fun he => hu.flag (hflag he)⟩
  refine wp_seq (holds_loadUploadEnded hu hc₁.sound (fun u hu => ?_)
    (fun u hu halive => ?_))
  · refine wp_call (w₁.holds_uploadIsGone hu hc₁.sound (.inl rfl)) fun err u hr => ?_
    obtain ⟨rfl, hu⟩ := hr
    exact ⟨L₁, true, .gone hparked, hu, fun _ => rfl⟩
  · rw [if_neg Bool.false_ne_true]
    split
    · rename_i hbuffer
      exact ⟨L₁, e, .nothing hparked halive hbuffer, hu, id⟩
    · rename_i hbuffer
      have hsender : w₁.sender = true := by
        cases hsender : w₁.sender with
        | true => rfl
        | false => exact absurd (hc₁.flushed hsender).1 hbuffer
      rw [if_neg (by simp [hsender])]
      have hl := hc₁.loaded_flush hpending hsender halive hbuffer
      refine wp_mono (S3UploadWriter.holds_startSend hmode hu hl (List.prefix_refl _))
        fun r u hr => ?_
      obtain ⟨L', e', hstart, hu, hflag'⟩ := hr
      exact ⟨L', e', .started hparked halive hbuffer hsender hstart, hu, hflag'⟩

/-- The end of the body may be recorded wherever the call may take it. -/
private theorem end_permitted (hs : Sound limit log L) (hreleased : L.reserved = 0)
    (hallows : mode.Allows L { L with bodyEnded := true }) :
    Permitted mode limit log L { L with bodyEnded := true } where
  step := { LedgerStep.refl hs with
    sound := { hs with
      unreserved_of_ended := fun _ => hreleased
      ended_of_no_sender := fun _ => rfl
      begun_of_notified := fun _ => .inr rfl }
    bodyEnded := fun _ => rfl }
  allows := hallows

/-- Recording the end of the body, announcing it and dropping the `Sender`. -/
private theorem holds_endBody {α : Type} {next : Prog α}
    {post' : α → World → Prop} (h : Found L e s) (hs : Sound limit log L)
    (hreleased : L.reserved = 0) (hallows : mode.Allows L { L with bodyEnded := true })
    (hallows' : ∀ L₁ L₂ : Ledger, L₁.bodyEnded = true → L₂.bodyEnded = true →
      L₂.sent = L₁.sent → L₂.handed = L₁.handed → L₂.sawClosed = L₁.sawClosed →
      L₂.reserved = L₁.reserved → mode.Allows L₁ L₂)
    (hnext : ∀ u, Found L.endBody.dropSender e u → Holds mode limit log next post' u) :
    Holds mode limit log (do markBodyEnded; atomically .dropSender; next) post' s := by
  have hended := end_permitted hs hreleased hallows
  refine wp_seq (wp_seq (holds_storeBodyEnded h hended fun u hu => ?_))
  refine holds_notifyOne hu ?_ fun u hu => ?_
  · exact (sameCounts_with _ _ _ _ _).permitted
      { hended.step.sound with begun_of_notified := fun _ => .inr rfl }
      (hallows' _ _ rfl rfl rfl rfl rfl rfl)
  refine wp_seq (holds_dropSender hu ?_ fun u hu => hnext u hu)
  exact (sameCounts_with _ _ _ _ _).permitted (hs.endBody hreleased)
    (hallows' _ _ rfl rfl rfl rfl rfl rfl)

/-- `poll_shutdown` has the outcomes of `ShutdownOutcome`. -/
theorem S3UploadWriter.holds_pollShutdown (h : Found L e s) (hc : Custody limit w L e log) :
    Holds .ending limit log w.pollShutdown (fun r u => ∃ L' e',
      ShutdownOutcome w L e r.1 r.2 L' e' ∧ Found L' e' u ∧ (e = true → e' = true)) s := by
  unfold S3UploadWriter.pollShutdown
  split
  · rename_i hsender
    exact ⟨L, e, .already (by simpa using hsender), h, id⟩
  · rename_i hsender
    replace hsender : w.sender = true := by simpa using hsender
    refine wp_call (S3UploadWriter.holds_pollFlush (by decide) h hc) fun r u hr => ?_
    obtain ⟨w₁, a⟩ := r
    obtain ⟨L₁, e₁, hflush, hu, hflag⟩ := hr
    rcases a with _ | err | ⟨⟨⟩⟩
    · exact ⟨L₁, e₁, .waiting hsender hflush, hu, hflag⟩
    · exact ⟨L₁, e₁, .failed hsender hflush, hu, hflag⟩
    have hc₁ := hflush.custody hc hflag
    obtain ⟨-, -, hopen, hhanded⟩ := hflush.handed_all hc
    -- Everything accepted was handed over, so the body may end here.
    have hall : L₁.sent = L₁.accepted := by
      rw [hc₁.sound.exact_of_unreserved hc₁.released, hc₁.accepted hopen, ← hhanded]
      rfl
    refine holds_endBody hu hc₁.sound hc₁.released (fun _ _ => hall) ?_ fun u hu =>
      ⟨_, e₁, .ended hsender hflush, hu, hflag⟩
    intro L₂ L₃ hL₂ _ _ _ _ _ hfalse
    exact absurd (hL₂.symm.trans hfalse) (by decide)

/-- Every call has the outcomes of `CallOutcome`. The bytes it is offered extend the log
that bounds the channel. -/
theorem S3UploadWriter.holds_call (c : Call) (h : Found L e s) (hc : Custody limit w L e log) :
    Holds c.mode limit (log ++ c.offered) (w.call c) (fun r u => ∃ L' e',
      CallOutcome w L e c r.1 r.2 L' e' ∧ Found L' e' u ∧ (e = true → e' = true)) s := by
  cases c with
  | write buf =>
    refine wp_mono (S3UploadWriter.holds_pollWrite (Call.mode_ne_dropping _) h hc) fun r u hr => ?_
    obtain ⟨L', e', hout, hu⟩ := hr
    exact ⟨L', e', .write hout, hu⟩
  | flush =>
    simp only [Call.offered, List.append_nil]
    refine wp_call (S3UploadWriter.holds_pollFlush (Call.mode_ne_dropping _) h hc)
      fun r u hr => ?_
    obtain ⟨L', e', hout, hu⟩ := hr
    exact ⟨L', e', .flush hout, hu⟩
  | shutdown =>
    simp only [Call.offered, List.append_nil]
    refine wp_call (S3UploadWriter.holds_pollShutdown h hc) fun r u hr => ?_
    obtain ⟨L', e', hout, hu⟩ := hr
    exact ⟨L', e', .shutdown hout, hu⟩

/-- A call that begins comes to one of its outcomes from the ledger that it finds, whatever
the others do meanwhile. -/
theorem S3UploadWriter.safe_call (c : Call) {post : S3UploadWriter × Answer → World → Prop}
    (hc : Custody limit w s.ledger s.state.uploadEnded log)
    (hpost : ∀ {w' a L' e' u}, CallOutcome w s.ledger s.state.uploadEnded c w' a L' e' →
      Found L' e' u → (s.state.uploadEnded = true → e' = true) → post (w', a) u) :
    (w.call c).Safe World.exec (writerContract c.mode limit (log ++ c.offered)) post s := by
  intro u hu
  have hfound : Found s.ledger s.state.uploadEnded u := ⟨hu.ledger, hu.uploadEnded⟩
  refine wp_mono (w.holds_call c hfound hc) fun r v hr => ?_
  obtain ⟨L', e', hout, hv, hflag⟩ := hr
  exact hpost hout hv hflag

private theorem allows_dropping (L₁ L₂ : Ledger) (_ : L₁.bodyEnded = true)
    (_ : L₂.bodyEnded = true) (hsent : L₂.sent = L₁.sent) (hhanded : L₂.handed = L₁.handed)
    (hclosed : L₂.sawClosed = L₁.sawClosed) (hreserved : L₂.reserved = L₁.reserved) :
    Mode.dropping.Allows L₁ L₂ :=
  ⟨hsent, hhanded, hclosed, hreserved⟩

/-- Dropping the parked send, if there is one. -/
private theorem holds_dropPending (h : Found L e s) (hs : Sound limit log L)
    (hended : L.bodyEnded = true) :
    Holds .dropping limit log
      (if w.pending.isSome then atomically .dropSender else Pure.pure ())
      (fun _ u => Found (if w.pending.isSome then L.dropSender else L) e u) s := by
  split
  · refine holds_dropSender h ?_ fun u hu => hu
    exact (sameCounts_with L _ _ _ _).permitted
      { hs with ended_of_no_sender := fun _ => hended }
      (allows_dropping L _ hended hended rfl rfl rfl rfl)
  · exact h

/-- `Drop` ends the body and drops every `Sender`. -/
theorem S3UploadWriter.holds_drop (h : Found L e s) (hc : Custody limit w L e log) :
    Holds .dropping limit log w.drop (fun _ u => Found (L.dropWriter w) e u) s := by
  cases hsender : w.sender with
  | true =>
    simp only [S3UploadWriter.drop, Ledger.dropWriter, hsender, if_true]
    refine holds_endBody h hc.sound hc.released ?_ allows_dropping fun u hu =>
      holds_dropPending hu (hc.sound.endBody hc.released) rfl
    exact ⟨rfl, rfl, rfl, rfl⟩
  | false =>
    simp only [S3UploadWriter.drop, Ledger.dropWriter, hsender]
    exact holds_dropPending h hc.sound (by simp [hc.ended, hsender])

end MyS3.Upload
