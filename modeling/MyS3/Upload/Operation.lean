import MyS3.Upload.Ledger

/-!
# One operation of the writer

For every operation the writer performs: what it does to the ledger, that it leaves
the rest alone, and the proof rule that the `poll_*` functions are verified with.
-/

namespace MyS3.Upload

open Interleaving

/-- The writer finds ledger `L`, and `upload_ended` raised if `e` says so. -/
structure Found (L : Ledger) (e : Bool) (s : World) : Prop where
  ledger : s.ledger = L
  flag : e = true → s.state.uploadEnded = true

/-- Weakest preconditions of the writer's programs. -/
abbrev Holds (mode : Mode) (limit : Nat) (log : Bytes) {α : Type} (p : Prog α)
    (post : α → World → Prop) (s : World) : Prop :=
  p.wp World.exec (writerContract mode limit log) post s

variable {mode : Mode} {limit : Nat} {log : Bytes} {s t u : World} {L L' : Ledger} {e : Bool}

/-- What the writer knows survives interference. -/
theorem Found.interfere (h : Found L e t) (hu : WriterRely t u) : Found L e u :=
  ⟨hu.ledger.trans h.ledger, fun he => hu.uploadEnded (h.flag he)⟩

private theorem untouched_self (s : World) : Untouched s s where
  names := ⟨rfl, rfl⟩
  task := rfl
  abortRequested := rfl
  produced := rfl
  received := rfl
  receiver := rfl
  reserved := fun _ => Nat.le_refl _
  uploadEnded := id
  sendStarted := id
  bodyStarted := id
  notified := id
  notify := fun h => .inl h
  permit := fun h => .inl h
  refused := fun h => .inl h

private theorem guar_self (hs : Sound limit log s.ledger) :
    (writerContract mode limit log).guar s s :=
  ⟨⟨untouched_self s, .refl hs, fun h => .inl h⟩, mode.allows_self _⟩

/-- An operation that only reads. -/
theorem holds_load {op : Op} {r : op.Res} {post : op.Res → World → Prop}
    (hexec : ∀ now, s.exec op now = some (r, s)) (h : Found L e s) (hs : Sound limit log L)
    (hpost : ∀ u, Found L e u → post r u) :
    Holds mode limit log (atomically op) post s := by
  intro now r' t he
  rw [hexec] at he
  cases he
  exact ⟨guar_self (h.ledger ▸ hs), fun u hu => hpost u (h.interfere hu)⟩

/-- A raised `upload_ended` is known from then on. -/
theorem holds_loadUploadEnded {post : Bool → World → Prop} (h : Found L e s)
    (hs : Sound limit log L) (hended : ∀ u, Found L true u → post true u)
    (hrunning : ∀ u, Found L e u → e = false → post false u) :
    Holds mode limit log (atomically .loadUploadEnded) post s := by
  cases hflag : s.state.uploadEnded with
  | true =>
    refine holds_load (fun _ => ?_) ⟨h.ledger, fun _ => hflag⟩ hs hended
    simp only [World.exec, hflag]
  | false =>
    have halive : e = false := by
      cases e with
      | false => rfl
      | true => exact absurd ((h.flag rfl).symm.trans hflag) (by decide)
    refine holds_load (fun _ => ?_) h hs (fun u hu => hrunning u hu halive)
    simp only [World.exec, hflag]

theorem holds_contentLength {post : Nat → World → Prop} (h : Found L e s)
    (hs : Sound limit log L) (hpost : ∀ u, Found L e u → post L.contentLength u) :
    Holds mode limit log (atomically .contentLength) post s := by
  have hread : L.contentLength = s.state.contentLength := by
    rw [← h.ledger]
    rfl
  exact holds_load (fun _ => by rw [hread]; rfl) h hs hpost

theorem holds_loadAccepted {post : Nat → World → Prop} (h : Found L e s)
    (hs : Sound limit log L) (hpost : ∀ u, Found L e u → post L.accepted u) :
    Holds mode limit log (atomically .loadAccepted) post s := by
  have hread : L.accepted = s.state.accepted := by
    rw [← h.ledger]
    rfl
  exact holds_load (fun _ => by rw [hread]; rfl) h hs hpost

/-- The proof obligations of an operation that changes the ledger from `L` to `L'`. -/
structure Permitted (mode : Mode) (limit : Nat) (log : Bytes) (L L' : Ledger) : Prop where
  step : LedgerStep limit log L L'
  allows : mode.Allows L L'

/-- An operation that changes the ledger and leaves everything else alone. -/
private theorem holds_change {op : Op} {r : op.Res} {post : op.Res → World → Prop}
    (hexec : ∀ now, s.exec op now = some (r, t)) (hledger : t.ledger = L')
    (huntouched : Untouched s t) (hflag : t.state.uploadEnded = s.state.uploadEnded)
    (h : Found L e s) (hstep : Permitted mode limit log L L')
    (hpost : ∀ u, Found L' e u → post r u) : Holds mode limit log (atomically op) post s := by
  intro now r' t' he
  rw [hexec] at he
  cases he
  have hfound : Found L' e t := ⟨hledger, fun he => hflag ▸ h.flag he⟩
  refine ⟨⟨⟨huntouched, ?_, fun hu => .inl (hflag ▸ hu)⟩, ?_⟩,
    fun u hu => hpost u (hfound.interfere hu)⟩
  · rw [h.ledger, hledger]
    exact hstep.step
  · rw [h.ledger, hledger]
    exact hstep.allows

theorem holds_fetchAddAccepted {n : Nat} {post : Unit → World → Prop} (h : Found L e s)
    (hstep : Permitted mode limit log L (L.accept n))
    (hpost : ∀ u, Found (L.accept n) e u → post () u) :
    Holds mode limit log (atomically (.fetchAddAccepted n)) post s := by
  refine holds_change (fun _ => rfl) ?_ { untouched_self s with } rfl h hstep hpost
  rw [← h.ledger]
  rfl

theorem holds_fetchAddSent {n : Nat} {post : Unit → World → Prop} (h : Found L e s)
    (hstep : Permitted mode limit log L { L with sent := L.sent + n })
    (hpost : ∀ u, Found { L with sent := L.sent + n } e u → post () u) :
    Holds mode limit log (atomically (.fetchAddSent n)) post s := by
  refine holds_change (fun _ => rfl) ?_ { untouched_self s with } rfl h hstep hpost
  rw [← h.ledger]
  rfl

/-- Using a permit: one more chunk handed over, one permit less. -/
def Ledger.usePermit (L : Ledger) (chunk : Bytes) : Ledger :=
  { L with handed := L.handed ++ [chunk], reserved := L.reserved - 1 }

theorem holds_permitSend {chunk : Bytes} {post : Unit → World → Prop} (h : Found L e s)
    (hstep : Permitted mode limit log L (L.usePermit chunk))
    (hpost : ∀ u, Found (L.usePermit chunk) e u → post () u) :
    Holds mode limit log (atomically (.permitSend chunk)) post s := by
  refine holds_change (fun _ => rfl) ?_
    { untouched_self s with reserved := fun _ => Nat.sub_le _ _ } rfl h hstep hpost
  rw [← h.ledger]
  simp [World.ledger, Ledger.usePermit, Channel.handed]

theorem holds_dropSender {post : Unit → World → Prop} (h : Found L e s)
    (hstep : Permitted mode limit log L L.dropSender)
    (hpost : ∀ u, Found L.dropSender e u → post () u) :
    Holds mode limit log (atomically .dropSender) post s := by
  refine holds_change (fun _ => rfl) ?_ { untouched_self s with } rfl h hstep hpost
  rw [← h.ledger]
  rfl

theorem holds_cloneSender {post : Unit → World → Prop} (h : Found L e s)
    (hstep : Permitted mode limit log L { L with senders := L.senders + 1, sendStarted := true })
    (hpost : ∀ u, Found { L with senders := L.senders + 1, sendStarted := true } e u →
      post () u) :
    Holds mode limit log (atomically .cloneSender) post s := by
  refine holds_change (fun _ => rfl) ?_
    { untouched_self s with sendStarted := fun _ => rfl } rfl h hstep hpost
  rw [← h.ledger]
  rfl

theorem holds_notifyOne {post : Unit → World → Prop} (h : Found L e s)
    (hstep : Permitted mode limit log L { L with notified := true })
    (hpost : ∀ u, Found { L with notified := true } e u → post () u) :
    Holds mode limit log (atomically .notifyOne) post s := by
  refine holds_change (fun _ => rfl) ?_ { untouched_self s with
    bodyStarted := fun _ => rfl
    notified := fun _ => rfl
    notify := fun _ => .inr rfl
    permit := fun _ => .inr rfl } rfl h hstep hpost
  rw [← h.ledger]
  rfl

theorem holds_storeBodyEnded {post : Unit → World → Prop} (h : Found L e s)
    (hstep : Permitted mode limit log L { L with bodyEnded := true })
    (hpost : ∀ u, Found { L with bodyEnded := true } e u → post () u) :
    Holds mode limit log (atomically .storeBodyEnded) post s := by
  refine holds_change (fun _ => rfl) ?_ { untouched_self s with } rfl h hstep hpost
  rw [← h.ledger]
  rfl

/-- Raising `upload_ended` needs a reason: it was raised, or a send was refused. -/
theorem holds_storeUploadEnded {post : Unit → World → Prop} (h : Found L e s)
    (hs : Sound limit log L) (hreason : e = true ∨ L.sawClosed = true)
    (hpost : ∀ u, Found L true u → post () u) :
    Holds mode limit log (atomically .storeUploadEnded) post s := by
  intro now r t he
  cases he
  have hreason' : s.state.uploadEnded = true ∨ s.ledger.sawClosed = true := by
    rw [h.ledger]
    exact hreason.imp h.flag id
  have hfound : Found L true { s with state := { s.state with uploadEnded := true } } :=
    ⟨h.ledger ▸ rfl, fun _ => rfl⟩
  exact ⟨⟨⟨{ untouched_self s with uploadEnded := fun _ => rfl }, .refl (h.ledger ▸ hs),
    fun _ => hreason'⟩, mode.allows_self _⟩, fun u hu => hpost u (hfound.interfere hu)⟩

/-- Polling `reserve`: it waits, is granted a permit, or finds the channel closed. -/
theorem holds_reserve {post : Poll Bool → World → Prop} (h : Found L e s)
    (hs : Sound limit log L)
    (hgrant : Permitted mode limit log L { L with reserved := L.reserved + 1 })
    (hclosed : Permitted mode limit log L { L with sawClosed := true })
    (hwait : ∀ u, Found L e u → post .pending u)
    (hready : ∀ u, Found { L with reserved := L.reserved + 1 } e u → post (.ready true) u)
    (hrefused : ∀ u, Found { L with sawClosed := true } e u → post (.ready false) u) :
    Holds mode limit log (atomically .reserve) post s := by
  have hpending : (writerContract mode limit log).guar s s ∧
      ∀ u, WriterRely s u → post .pending u :=
    ⟨guar_self (h.ledger ▸ hs), fun u hu => hwait u (h.interfere hu)⟩
  obtain ⟨rfl, hflag⟩ := h
  intro now r t he
  simp only [World.exec, Option.some.injEq] at he
  rcases s.reserve_cases now with hwaits | ⟨hopen, -, hgranted⟩ | ⟨hshut, hfound⟩
  · cases hwaits.symm.trans he
    exact hpending
  · cases hgranted.symm.trans he
    refine ⟨⟨⟨{ untouched_self s with reserved := fun h => absurd hopen h }, hgrant.step,
      fun h => .inl h⟩, hgrant.allows⟩, fun u hu => hready u (Found.interfere ?_ hu)⟩
    exact ⟨rfl, hflag⟩
  · cases hfound.symm.trans he
    refine ⟨⟨⟨{ untouched_self s with refused := fun _ => .inr hshut }, hclosed.step,
      fun h => .inl h⟩, hclosed.allows⟩, fun u hu => hrefused u (Found.interfere ?_ hu)⟩
    exact ⟨rfl, hflag⟩

end MyS3.Upload
