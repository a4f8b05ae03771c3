import Mathlib.Algebra.GroupWithZero.Nat
import MyS3.Upload.Cap

/-!
# What the writer says it has accepted

`bytes_written` counts the bytes that `poll_write` returned as written. A write records its
bytes before it sends the chunk they complete: where that send is refused the write fails,
and its bytes stay in the count.
-/

namespace MyS3.Upload

open Interleaving

/-- `S3UploadWriter::bytes_written`, read from the shared state. -/
def World.bytesWritten (w : World) : Nat := w.state.accepted

/-- The count that a call returned; only a write returns one. -/
def Call.count : Call → Answer → Nat
  | .write _, .ready (.ok n) => n
  | _, _ => 0

/-- The sum over all calls. -/
def written (answers : List (Call × Answer)) : Nat :=
  (answers.map fun ca => ca.1.count ca.2).sum

theorem written_concat (answers : List (Call × Answer)) (c : Call) (a : Answer) :
    written (answers ++ [(c, a)]) = written answers + c.count a := by
  simp only [written, List.map_append, List.map_cons, List.map_nil, List.sum_append,
    List.sum_cons, List.sum_nil, Nat.add_zero]

/-- A write that fails with its bytes recorded: they completed a chunk, and the send of the
chunk was the first to be refused. -/
inductive LostWrite (w : S3UploadWriter) (L L' : Ledger) : Call → Answer → Prop
  | refused {buf : Bytes} (hfirst : L.sawClosed = false) (hrefused : L'.sawClosed = true)
      (hfull : w.chunkSize ≤ (w.filled buf (L.contentLength - L.accepted)).length)
      (hsome : 1 ≤ w.taken buf (L.contentLength - L.accepted))
      (haccepted : L'.accepted = L.accepted + w.taken buf (L.contentLength - L.accepted)) :
      LostWrite w L L' (.write buf) (.ready (.error w.uploadGone))

variable {limit contentLength : Nat} {σ : Sys} {w w' : S3UploadWriter} {L L' : Ledger}
  {e e' : Bool} {log buf : Bytes} {c : Call} {a : Answer}

/-- Driving a parked send records nothing, and leaves the chunk being filled. -/
private theorem PendingOutcome.same {b : Poll (Except IoError Unit)}
    (h : PendingOutcome w L w' b L' e') :
    L'.accepted = L.accepted ∧ L'.contentLength = L.contentLength ∧
      w'.uploadGone = w.uploadGone ∧ ∀ buf owed, w'.taken buf owed = w.taken buf owed ∧
        w'.filled buf owed = w.filled buf owed ∧ w'.chunkSize = w.chunkSize := by
  cases h <;> exact ⟨rfl, rfl, rfl, fun _ _ => ⟨rfl, rfl, rfl⟩⟩

private theorem StartOutcome.accepted {chunk : Bytes} {b : Poll (Except IoError Unit)}
    (h : StartOutcome w chunk L w' b L' e') : L'.accepted = L.accepted := by
  cases h <;> rfl

/-- A flush records nothing. -/
private theorem FlushOutcome.accepted {b : Poll (Except IoError Unit)}
    (h : FlushOutcome w L e w' b L' e') : L'.accepted = L.accepted := by
  cases h with
  | waiting hparked | failed hparked | gone hparked => exact hparked.same.1
  | nothing hparked _ _ => exact hparked.same.1
  | started hparked _ _ _ hstart => exact hstart.accepted.trans hparked.same.1

private theorem ShutdownOutcome.accepted {b : Poll (Except IoError Unit)}
    (h : ShutdownOutcome w L e w' b L' e') : L'.accepted = L.accepted := by
  cases h with
  | already _ => rfl
  | waiting _ hflush | failed _ hflush => exact hflush.accepted
  | ended _ hflush => exact hflush.accepted

/-- A write records what it returns, or it loses what it recorded. -/
private theorem WriteOutcome.accepted (h : WriteOutcome w buf L e w' a L' e')
    (hc : Custody limit w L e log) :
    L'.accepted = L.accepted + (Call.write buf).count a ∨ LostWrite w L L' (.write buf) a := by
  cases h with
  | waiting hparked | failed hparked | gone hparked => exact .inl hparked.same.1
  | empty hparked _ | shutDown hparked _ => exact .inl hparked.same.1
  | full hparked _ _ _ => exact .inl hparked.same.1
  | taken hparked hbuf hsender halive howed hfill =>
    rename_i w₁ L₁ e₁
    obtain ⟨hc₁, -⟩ := hparked.custody_ok hc
    obtain ⟨haccepted, hlength, hgone, hsame⟩ := hparked.same
    rw [hlength, haccepted] at hfill howed
    obtain ⟨htaken, hfilled, hsize⟩ := hsame buf (L.contentLength - L.accepted)
    have hroom : w₁.buffer.length < w₁.chunkSize := hc₁.chunkSize.symm ▸ hc₁.room
    have hsome := (taken_bounds hroom hbuf howed).1
    have hrecorded : (L₁.accept (w₁.taken buf (L.contentLength - L.accepted))).accepted =
        L.accepted + w.taken buf (L.contentLength - L.accepted) := by
      rw [Ledger.accept, htaken, haccepted]
    cases hfill with
    | buffered _ => exact .inl (htaken ▸ hrecorded)
    | sent hfull hstart =>
      rw [htaken] at hsome
      rw [hfilled, hsize] at hfull
      cases hstart with
      | waiting | delivered => exact .inl (htaken ▸ hrecorded)
      | refused =>
        have hlost : LostWrite w L
            (L₁.accept (w₁.taken buf (L.contentLength - L.accepted))).openSend.refuse
            (.write buf) (.ready (.error w.uploadGone)) :=
          .refused (hc.unrefused halive) rfl hfull hsome hrecorded
        rw [← hgone] at hlost
        exact .inr hlost

/-- No write returns more than it was offered. -/
private theorem WriteOutcome.count_le (h : WriteOutcome w buf L e w' a L' e')
    (hc : Custody limit w L e log) : (Call.write buf).count a ≤ buf.length := by
  rcases a with _ | err | n
  · exact Nat.zero_le _
  · exact Nat.zero_le _
  · by_cases hbuf : buf = []
    · cases h with
      | empty _ _ => exact Nat.zero_le _
      | taken _ hne _ _ _ _ => exact absurd hbuf hne
    · exact (h.progress rfl hc hbuf).2

/-- What any call records. -/
theorem CallOutcome.accepted (h : CallOutcome w L e c w' a L' e')
    (hc : Custody limit w L e log) :
    L'.accepted = L.accepted + c.count a ∨ LostWrite w L L' c a := by
  cases h with
  | write hwrite => exact hwrite.accepted hc
  | flush hflush => exact .inl hflush.accepted
  | shutdown hshutdown => exact .inl hshutdown.accepted

/-- The bytes that a call returned as written are as many as it says. -/
theorem CallOutcome.count_eq (h : CallOutcome w L e c w' a L' e')
    (hc : Custody limit w L e log) : c.count a = (c.acknowledged a).length := by
  cases h with
  | write hwrite =>
    have hle := hwrite.count_le hc
    rcases a with _ | err | n
    · rfl
    · rfl
    · exact (List.length_take_of_le hle).symm
  | flush _ | shutdown _ => rfl

/-- What is recorded is what was returned, but for the bytes of one write that was refused. -/
def Reconciled (limit : Nat) (answers : List (Call × Answer)) (L : Ledger) : Prop :=
  written answers = (acknowledged answers).length ∧
    (L.accepted = written answers ∨
      ∃ before buf err behind n, answers = before ++ (.write buf, .ready (.error err)) :: behind ∧
        err.kind = .brokenPipe ∧ 1 ≤ n ∧ n ≤ buf.length ∧ n ≤ limit ∧
        L.accepted = written answers + n)

/-- While no send was refused nothing was lost. -/
private theorem Reconciled.unrefused {answers : List (Call × Answer)}
    (h : Reconciled limit answers L) (hc : Custody limit w L e (acknowledged answers))
    (hopen : L.sawClosed = false) : L.accepted = written answers :=
  (hc.accepted hopen).trans h.1.symm

/-- Every call keeps the two together. -/
private theorem reconciled_kept : Sys.Kept limit (Reconciled limit) := by
  intro answers w L e c w' a L' e' hc hout h
  have hcount := hout.count_eq hc
  refine ⟨?_, ?_⟩
  · rw [written_concat, acknowledged_concat, List.length_append, h.1, hcount]
  · rw [written_concat]
    rcases hout.accepted hc with haccepted | hlost
    · rcases h.2 with hexact | ⟨before, buf, err, behind, n, hanswers, hkind, hpos, hbuf, hlimit, hn⟩
      · exact .inl (by rw [haccepted, hexact])
      · refine .inr ⟨before, buf, err, behind ++ [(c, a)], n, ?_, hkind, hpos, hbuf, hlimit, ?_⟩
        · rw [hanswers, List.append_assoc, List.cons_append]
        · rw [haccepted, hn]
          omega
    · cases hlost with
      | refused hfirst hrefused hfull hsome haccepted =>
        rename_i buf
        have hexact := h.unrefused hc hfirst
        refine .inr ⟨answers, buf, w.uploadGone, [], _, rfl, rfl, hsome, ?_, ?_, ?_⟩
        · simp only [S3UploadWriter.taken]
          omega
        · have hsize := hc.chunkSize
          simp only [S3UploadWriter.taken]
          omega
        · rw [haccepted, hexact]
          rfl

/-- `bytes_written` is the sum of what `poll_write` returned for as long as no send was
refused. A call records exactly what it returns, with one exception in a whole run: the write
that completes a chunk whose send is the first to be refused fails, and its bytes are counted. -/
theorem bytes_written_reconciled {bucketName key : String} {chunkSize : Nat} {σ₀ : Sys}
    (h₀ : σ₀.Started bucketName key contentLength chunkSize)
    (hrun : Reaches Sys.step anyLabel σ₀ σ) (hw : σ.writer = .idle w) :
    (σ.world.sawClosed = false → σ.world.bytesWritten = written σ.answers) ∧
    (σ.world.bytesWritten = written σ.answers ∨
      ∃ before buf err behind n,
        σ.answers = before ++ (.write buf, .ready (.error err)) :: behind ∧
        err.kind = .brokenPipe ∧ 1 ≤ n ∧ n ≤ buf.length ∧ n ≤ max chunkSize 1 ∧
        σ.world.bytesWritten = written σ.answers + n) ∧
    ∀ c σ', σ.Turn c σ' → ∃ a, σ'.answers = σ.answers ++ [(c, a)] ∧
      (σ'.world.bytesWritten = σ.world.bytesWritten + c.count a ∨
        LostWrite w σ.world.ledger σ'.world.ledger c a) := by
  have hinv := h₀.inv.run hrun
  have hc := hinv.writer
  rw [hw] at hc
  have hstart : Reconciled (max chunkSize 1) [] σ₀.world.ledger := by
    rcases h₀ with rfl | rfl <;> exact ⟨rfl, .inl rfl⟩
  have hreconciled := h₀.between hstart reconciled_kept hrun hw
  refine ⟨hreconciled.unrefused hc, hreconciled.2, fun c σ' hturn => ?_⟩
  obtain ⟨w', a, L', e', -, hanswers, hout, hfound⟩ := hinv.turn_outcome hw hturn
  refine ⟨a, hanswers, ?_⟩
  have haccepted : σ'.world.bytesWritten = L'.accepted := congrArg Ledger.accepted hfound.ledger
  rw [haccepted, hfound.ledger]
  exact hout.accepted hc

theorem bytes_written_reconciled_full :
    let σ := runTo Sys.step anyLabel writtenInFull (.startUpload "b" "k" 2 4)
    σ.world.bytesWritten = written σ.answers ∧ written σ.answers = 2 :=
  ⟨(bytes_written_reconciled (w := ⟨"b", "k", true, [1, 2], 4, none⟩) (.inl rfl)
    (reaches_runTo (by decide)) rfl).1 rfl, by decide⟩

/-- The request lets go of the body, and a write completes a chunk. -/
def refusedWrite : List Label :=
  [.upload .dropReceiver, .call (.write [1, 2, 3])] ++ List.replicate 9 (.writerOp true) ++
    [.writerReturn]

/-- A write that failed, and two bytes that count as written. -/
theorem failed_write_is_counted :
    let σ := runTo Sys.step anyLabel refusedWrite (.uploadWithWriter "b" "k" 3 2)
    Reaches Sys.step anyLabel (.uploadWithWriter "b" "k" 3 2) σ ∧
      (∃ w err, σ.writer = .idle w ∧
        σ.answers = [(.write [1, 2, 3], .ready (.error err))]) ∧
      written σ.answers = 0 ∧ σ.world.bytesWritten = 2 := by
  intro σ
  refine ⟨reaches_runTo (by decide), ⟨_, _, rfl, rfl⟩, by decide, by decide⟩

end MyS3.Upload
