import MyS3.Upload.Atomic
import MyS3.Upload.Turn

/-!
# The cap of the writer

No byte past the declared length is accepted, every accepted write makes progress, and the
subtractions of `poll_write` never go below zero.
-/

namespace MyS3.Upload

open Interleaving

/-- The refusal of bytes past the declared length. -/
def Refused (a : Answer) : Prop := ∃ err, a = .ready (.error err) ∧ err.kind = .invalidInput

/-- Every write of some bytes that was answered with a count made progress. -/
def Progress (answers : List (Call × Answer)) : Prop :=
  ∀ buf n, (.write buf, .ready (.ok n)) ∈ answers → buf ≠ [] → 1 ≤ n ∧ n ≤ buf.length

variable {limit contentLength : Nat} {σ σ' : Sys} {w w' : S3UploadWriter} {L L' : Ledger}
  {e e' : Bool} {log buf : Bytes} {a : Answer}

/-- A broken pipe is no such refusal. -/
private theorem not_refused {err : IoError} (h : err.kind = .brokenPipe) :
    ¬ Refused (.ready (.error err)) := by
  rintro ⟨err', herr, hkind⟩
  cases herr
  cases h.symm.trans hkind

/-- Of a non-empty buffer at least one byte fits while a byte is owed. -/
theorem taken_bounds (hroom : w.buffer.length < w.chunkSize) (hbuf : buf ≠ [])
    {owed : Nat} (howed : owed ≠ 0) : 1 ≤ w.taken buf owed ∧ w.taken buf owed ≤ buf.length := by
  have hlength : 0 < buf.length := List.length_pos_iff.mpr hbuf
  unfold S3UploadWriter.taken
  omega

private theorem writeAnswer_ok {n k : Nat} {b : Poll (Except IoError Unit)}
    (h : writeAnswer n b = .ready (.ok k)) : k = n := by
  rcases b with _ | err | ⟨⟨⟩⟩ <;> cases h <;> rfl

/-- A write that counts bytes counts at least one, and none that it was not given. -/
theorem WriteOutcome.progress {n : Nat} (h : WriteOutcome w buf L e w' a L' e')
    (ha : a = .ready (.ok n)) (hc : Custody limit w L e log) (hbuf : buf ≠ []) :
    1 ≤ n ∧ n ≤ buf.length := by
  cases h with
  | waiting _ | failed _ | shutDown _ _ | gone _ | full _ _ _ _ => cases ha
  | empty _ hempty => exact absurd hempty hbuf
  | taken hparked hne hsender halive howed hfill =>
    rename_i w₁ L₁ e₁
    obtain ⟨hc₁, -⟩ := hparked.custody_ok hc
    have hroom : w₁.buffer.length < w₁.chunkSize := hc₁.chunkSize.symm ▸ hc₁.room
    have hbounds := taken_bounds hroom hbuf howed
    cases hfill with
    | buffered _ =>
      cases ha
      exact hbounds
    | sent _ _ =>
      rw [writeAnswer_ok ha]
      exact hbounds

/-- Progress is made by every call. -/
private theorem Progress.step {l : Label} (h : Progress σ.answers)
    (hinv : σ.Inv limit contentLength) (hstep : σ.step l = some σ') : Progress σ'.answers := by
  cases Sys.transition_of_step hstep with
  | callReturn hcalling =>
    rename_i c w a
    have hsafe := hinv.writer
    rw [hcalling] at hsafe
    obtain ⟨w₀, L, e, L', e', hc, hout, -, -⟩ := Program.Safe.post hsafe
    intro buf n hmem hbuf
    rcases List.mem_append.mp hmem with hmem | hmem
    · exact h buf n hmem hbuf
    · obtain ⟨rfl, rfl⟩ : Call.write buf = c ∧ Poll.ready (Except.ok n) = a := by
        simpa using hmem
      cases hout with
      | write hwrite => exact hwrite.progress rfl hc hbuf
  | _ => exact h

/-- With no send outstanding there is none to drive. -/
private theorem PendingOutcome.of_none {b : Poll (Except IoError Unit)}
    (h : PendingOutcome w L w' b L' e') (hpending : w.pending = none) :
    b = .ready (.ok ()) ∧ w' = w ∧ L' = L := by
  cases h with
  | idle _ => exact ⟨rfl, rfl, rfl⟩
  | waiting hsend | delivered hsend | refused hsend => cases hpending.symm.trans hsend

/-- Bytes that are taken are not refused for the length. -/
private theorem FillOutcome.not_refused {owed : Nat} (h : FillOutcome w buf owed L w' a L' e') :
    ¬ Refused a := by
  cases h with
  | buffered _ =>
    rintro ⟨err, herr, -⟩
    cases herr
  | sent _ hstart =>
    cases hstart with
    | waiting | delivered =>
      rintro ⟨err, herr, -⟩
      cases herr
    | refused => exact not_refused rfl

/-- A refusal for the length comes at the length only, and changes nothing. -/
theorem WriteOutcome.full_of_refused (h : WriteOutcome w buf L e w' a L' e')
    (hc : Custody limit w L e log) (hpending : w.pending = none) (ha : Refused a) :
    L.accepted = L.contentLength ∧ w' = w ∧ L' = L := by
  have hcap := hc.sound.capped
  cases h with
  | failed hparked => cases (hparked.of_none hpending).1
  | full hparked _ _ howed =>
    obtain ⟨-, rfl, rfl⟩ := hparked.of_none hpending
    exact ⟨by omega, rfl, rfl⟩
  | taken _ _ _ _ _ hfill => exact absurd ha hfill.not_refused
  | waiting _ | empty _ _ =>
    obtain ⟨err, herr, -⟩ := ha
    cases herr
  | shutDown _ _ | gone _ => exact absurd ha (not_refused rfl)

/-- At the length an open writer refuses whatever it is offered. -/
theorem WriteOutcome.refused_of_full (h : WriteOutcome w buf L e w' a L' e')
    (hsender : w.sender = true) (hpending : w.pending = none) (hbuf : buf ≠ [])
    (hfull : L.accepted = L.contentLength) (hrunning : e' = false) : Refused a := by
  cases h with
  | waiting hparked | failed hparked => cases (hparked.of_none hpending).1
  | empty _ hempty => exact absurd hempty hbuf
  | shutDown hparked hsender' =>
    rw [(hparked.of_none hpending).2.1, hsender] at hsender'
    cases hsender'
  | gone _ => cases hrunning
  | full _ _ _ _ => exact ⟨_, rfl, rfl⟩
  | taken hparked _ _ _ howed _ =>
    obtain ⟨-, rfl, rfl⟩ := hparked.of_none hpending
    omega

/-- Whatever a parked send comes to, the buffer stays. -/
theorem S3UploadWriter.pollPending_yields (w : S3UploadWriter) :
    w.pollPending.Yields fun r => r.1.buffer = w.buffer ∧ r.1.chunkSize = w.chunkSize := by
  unfold S3UploadWriter.pollPending
  split
  · exact ⟨rfl, rfl⟩
  · refine (Program.yields_true _).bind fun polled _ => ?_
    rcases polled with _ | ⟨_ | _⟩
    · exact ⟨rfl, rfl⟩
    · exact (Program.yields_true _).bind fun _ _ => ⟨rfl, rfl⟩
    · exact ⟨rfl, rfl⟩

/-- A send that fails found the upload gone, or the writer shut down. -/
private theorem startSend_yields (w : S3UploadWriter) (chunk : Bytes) :
    (w.startSend chunk).Yields fun r => ∀ err, r.2 = .ready (.error err) →
      err.kind = .brokenPipe := by
  unfold S3UploadWriter.startSend
  split
  · refine (Program.yields_true _).bind fun _ _ => ?_
    refine (Program.yields_true _).bind fun _ _ => ?_
    refine (Program.yields_true _).bind fun polled _ => ?_
    rcases polled with _ | ⟨_ | _⟩
    · exact fun err herr => by cases herr
    · have hgone : w.uploadIsGone.Yields fun err => err.kind = .brokenPipe :=
        fun _ => (rfl : w.uploadGone.kind = .brokenPipe)
      refine hgone.bind fun err hkind err' herr => ?_
      cases herr
      exact hkind
    · exact fun err herr => by cases herr
  · intro err herr
    cases herr
    rfl

/-- Taking bytes is never refused for the length. -/
private theorem fillChunk_yields (w : S3UploadWriter) (buf : Bytes) (owed : Nat) :
    (w.fillChunk buf owed).Yields fun r => ¬ Refused r.2 := by
  refine (Program.yields_true _).bind fun _ _ => ?_
  split
  · rintro ⟨err, herr, -⟩
    cases herr
  · refine (startSend_yields _ _).bind fun r hr => ?_
    obtain ⟨w', b⟩ := r
    rcases b with _ | err | ⟨⟨⟩⟩
    · rintro ⟨err, herr, -⟩
      cases herr
    · exact not_refused (hr err rfl)
    · rintro ⟨err, herr, -⟩
      cases herr

/-- An undisturbed write with nothing outstanding is refused at the length, where it has only
read, or it is stopped before it gets there, or bytes are owed. -/
private theorem pollWrite_cases {choices : List Bool} {s t : World} (hpending : w.pending = none)
    (hrun : (w.pollWrite buf).run World.exec choices s = some ((w', a), t)) :
    (Refused a ∧ s.state.contentLength - s.state.accepted = 0 ∧ w' = w ∧ t = s) ∨
      ¬ Refused a ∧ (buf = [] ∨ w.sender = false ∨ s.state.uploadEnded = true ∨
        s.state.contentLength - s.state.accepted ≠ 0) := by
  unfold S3UploadWriter.pollWrite at hrun
  have hparked : w.pollPending = Pure.pure (w, .ready (.ok ())) := by
    simp only [S3UploadWriter.pollPending, hpending]
  rw [hparked] at hrun
  change Program.run World.exec (if buf = [] then _ else if !w.sender then _ else _) _ _ = _ at hrun
  split at hrun
  · rename_i hbuf
    obtain ⟨-, hr, -⟩ := Program.run_pure_eq_some hrun
    cases hr
    refine .inr ⟨?_, .inl hbuf⟩
    rintro ⟨err, herr, -⟩
    cases herr
  · split at hrun
    · rename_i hsender
      obtain ⟨-, hr, -⟩ := Program.run_pure_eq_some hrun
      cases hr
      exact .inr ⟨not_refused rfl, .inr (.inl (by simpa using hsender))⟩
    · obtain ⟨_, _, ended, s₁, -, hexec, hrun⟩ := Program.run_step_eq_some hrun
      cases hexec
      cases hended : s.state.uploadEnded with
      | true =>
        rw [hended] at hrun
        obtain ⟨_, _, _, s₂, -, -, hrun⟩ := Program.run_step_eq_some hrun
        obtain ⟨-, hr, -⟩ := Program.run_pure_eq_some hrun
        cases hr
        exact .inr ⟨not_refused rfl, .inr (.inr (.inl rfl))⟩
      | false =>
        rw [hended] at hrun
        obtain ⟨_, _, _, s₂, -, hexec, hrun⟩ := Program.run_step_eq_some hrun
        cases hexec
        obtain ⟨_, _, _, s₃, -, hexec, hrun⟩ := Program.run_step_eq_some hrun
        cases hexec
        change Program.run World.exec (if _ = 0 then _ else _) _ _ = _ at hrun
        split at hrun
        · rename_i howed
          obtain ⟨-, hr, rfl⟩ := Program.run_pure_eq_some hrun
          cases hr
          exact .inl ⟨⟨_, rfl, rfl⟩, howed, rfl, rfl⟩
        · rename_i howed
          exact .inr ⟨(fillChunk_yields w buf _).run hrun, .inr (.inr (.inr howed))⟩

/-- An undisturbed write that is refused for the length has only read. -/
theorem S3UploadWriter.pollWrite_refused {choices : List Bool} {s t : World}
    (hpending : w.pending = none)
    (hrun : (w.pollWrite buf).run World.exec choices s = some ((w', a), t)) (ha : Refused a) :
    w' = w ∧ t = s := by
  rcases pollWrite_cases hpending hrun with ⟨-, -, hsame⟩ | ⟨hnot, -⟩
  · exact hsame
  · exact absurd ha hnot

/-- On an open writer it is the length that decides. -/
theorem S3UploadWriter.pollWrite_refused_iff {choices : List Bool} {s t : World}
    (hpending : w.pending = none)
    (hrun : (w.pollWrite buf).run World.exec choices s = some ((w', a), t)) (hbuf : buf ≠ [])
    (hsender : w.sender = true) (hrunning : s.state.uploadEnded = false) :
    Refused a ↔ s.state.contentLength - s.state.accepted = 0 := by
  rcases pollWrite_cases hpending hrun with ⟨ha, howed, -⟩ | ⟨hnot, hwhy⟩
  · exact iff_of_true ha howed
  · rcases hwhy with hempty | hshut | hended | howed
    · exact absurd hempty hbuf
    · cases hsender.symm.trans hshut
    · cases hrunning.symm.trans hended
    · exact iff_of_false hnot howed

/-- The cap of the writer is exact: in every state of every run no more is accepted or handed
over than was declared; a write that counts makes progress; and a write of some bytes to an
open writer with nothing outstanding is refused for the length exactly when the whole length
was accepted, and that refusal changes nothing. -/
theorem length_cap_exact {bucketName key : String} {chunkSize : Nat} {σ₀ : Sys}
    (h₀ : σ₀.Started bucketName key contentLength chunkSize)
    (hrun : Reaches Sys.step anyLabel σ₀ σ) :
    (σ.world.state.contentLength = contentLength ∧ σ.world.state.accepted ≤ contentLength ∧
      σ.world.channel.handed.flatten.length ≤ contentLength) ∧
    Progress σ.answers ∧
    ∀ w, σ.writer = .idle w →
      (w.buffer.length < w.chunkSize ∧
        w.pollPending.Yields fun r => r.1.buffer.length < r.1.chunkSize) ∧
      (w.pending = none → ∀ buf σ', σ.Turn (.write buf) σ' →
        ∃ a, σ'.answers = σ.answers ++ [(.write buf, a)] ∧
          (Refused a → σ.world.state.accepted = contentLength ∧ σ'.writer = .idle w ∧
            σ'.world.ledger = σ.world.ledger) ∧
          (σ.world.state.accepted = contentLength → buf ≠ [] → w.sender = true →
            σ'.world.state.uploadEnded = false → Refused a)) ∧
      (w.pending = none → ∀ buf choices w' a t,
        (w.pollWrite buf).run World.exec choices σ.world = some ((w', a), t) →
        (Refused a → w' = w ∧ t = σ.world) ∧
        (buf ≠ [] → w.sender = true → σ.world.state.uploadEnded = false →
          (Refused a ↔ σ.world.state.accepted = contentLength))) := by
  have hboth := hrun.invariant
    (I := fun τ => τ.Inv (max chunkSize 1) contentLength ∧ Progress τ.answers)
    ⟨h₀.inv, fun buf n hmem => by rcases h₀ with rfl | rfl <;> cases hmem⟩
    fun _ _ _ h _ hstep => ⟨h.1.step hstep, h.2.step h.1 hstep⟩
  have hinv := hboth.1
  have hcap : σ.world.state.accepted ≤ contentLength := hinv.length ▸ hinv.sound.capped
  have hhanded : σ.world.channel.handed.flatten.length ≤ contentLength :=
    Nat.le_trans (Nat.le_trans hinv.sound.delivered hinv.sound.counted) hcap
  refine ⟨⟨hinv.length, hcap, hhanded⟩, hboth.2, fun w hw => ?_⟩
  have hc := hinv.writer
  rw [hw] at hc
  have hroom : w.buffer.length < w.chunkSize := hc.chunkSize.symm ▸ hc.room
  refine ⟨⟨hroom, w.pollPending_yields.mono fun r hr => ?_⟩, ?_, ?_⟩
  · rw [hr.1, hr.2]
    exact hroom
  · intro hpending buf σ' hturn
    obtain ⟨w', a, L', e', hw', hanswers, hout, hfound⟩ := hinv.turn_outcome hw hturn
    cases hout with
    | write hwrite =>
      refine ⟨a, hanswers, fun hr => ?_, fun hfull hbuf hsender hrunning => ?_⟩
      · obtain ⟨hfull, rfl, rfl⟩ := hwrite.full_of_refused hc hpending hr
        exact ⟨hfull.trans hinv.length, hw', hfound.ledger⟩
      · have he : e' = false := by
          cases e' with
          | false => rfl
          | true => exact absurd (hrunning.symm.trans (hfound.flag rfl)) (by decide)
        exact hwrite.refused_of_full hsender hpending hbuf (hfull.trans hinv.length.symm) he
  · intro hpending buf choices w' a t hcall
    refine ⟨S3UploadWriter.pollWrite_refused hpending hcall, fun hbuf hsender hrunning => ?_⟩
    rw [S3UploadWriter.pollWrite_refused_iff hpending hcall hbuf hsender hrunning, hinv.length]
    omega

/-- Both of two declared bytes are written; a third one is offered. -/
def writtenInFull : List Label :=
  [.call (.write [1, 2])] ++ List.replicate 4 (.writerOp true) ++ [.writerReturn]

def oneMore : List Label := [.call (.write [3])] ++ List.replicate 3 (.writerOp true)

theorem length_cap_exact_full :
    let σ := runTo Sys.step anyLabel writtenInFull (.startUpload "b" "k" 2 4)
    let σ' := runTo Sys.step anyLabel (oneMore ++ [.writerReturn]) σ
    ∃ a, σ'.answers = [(.write [1, 2], .ready (.ok 2)), (.write [3], a)] ∧ Refused a ∧
      σ'.world.ledger = σ.world.ledger := by
  intro σ σ'
  have hturn : σ.Turn (.write [3]) σ' :=
    ⟨runTo Sys.step anyLabel [.call (.write [3])] σ,
      runTo Sys.step Sys.unreturned (List.replicate 3 (.writerOp true))
        (runTo Sys.step anyLabel [.call (.write [3])] σ), rfl, reaches_runTo (by decide), rfl⟩
  obtain ⟨a, hanswers, hsame, hfull⟩ :=
    ((length_cap_exact (.inl rfl) (reaches_runTo (by decide))).2.2
      ⟨"b", "k", true, [1, 2], 4, none⟩ rfl).2.1 rfl [3] σ' hturn
  have hrefused : Refused a := hfull rfl (by decide) rfl rfl
  exact ⟨a, hanswers, hrefused, (hsame hrefused).2.2⟩

end MyS3.Upload
