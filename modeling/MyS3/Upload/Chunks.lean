import Mathlib.Data.List.Induction
import MyS3.Core.Chunks
import MyS3.Upload.Boundary

/-!
# Where a body is cut

A flush or a shutdown ends a segment of the body. What goes into the channel is the segments, each
cut at the chunk size: it depends neither on how the bytes were split into writes nor on when the
channel had room for them.
-/

namespace MyS3.Upload

open Interleaving Chunks

/-- The segments that were ended, and the one that is being written. -/
structure Segments where
  ended : List Bytes
  current : Bytes
  deriving DecidableEq, Repr

/-- A segment ends. -/
def Segments.close (s : Segments) : Segments := ⟨s.ended ++ [s.current], []⟩

/-- What an answer adds to the segments. -/
def Segments.add (s : Segments) : Call × Answer → Segments
  | (.write buf, answer) => { s with current := s.current ++ (Call.write buf).acknowledged answer }
  | (.flush, _) | (.shutdown, _) => s.close

/-- The segments of the answers of a writer. -/
def segments (answers : List (Call × Answer)) : Segments := answers.foldl Segments.add ⟨[], []⟩

/-- The segments, each cut at the chunk size. -/
def Segments.chunks (limit : Nat) (s : Segments) : List Bytes :=
  s.ended.flatMap (cutAt limit) ++ cutAt limit s.current

/-- The chunk of a parked send. -/
def S3UploadWriter.parkedChunks (w : S3UploadWriter) : List Bytes :=
  (w.pending.map PendingSend.chunk).toList

@[simp] theorem segments_concat (answers : List (Call × Answer)) (c : Call) (a : Answer) :
    segments (answers ++ [(c, a)]) = (segments answers).add (c, a) := by
  simp [segments]

@[simp] theorem Segments.chunks_close (limit : Nat) (s : Segments) :
    s.close.chunks limit = s.chunks limit := by
  simp [close, chunks]

/-- Writes alone are one segment. -/
theorem segments_writes {answers : List (Call × Answer)}
    (h : ∀ ca ∈ answers, ∃ buf, ca.1 = .write buf) :
    segments answers = ⟨[], acknowledged answers⟩ := by
  induction answers using List.reverseRecOn with
  | nil => rfl
  | append_singleton answers ca ih =>
    obtain ⟨c, a⟩ := ca
    obtain ⟨buf, rfl⟩ : ∃ buf, c = .write buf := h (c, a) (by simp)
    rw [segments_concat, ih fun ca hca => h ca (List.mem_append_left _ hca), acknowledged_concat]
    rfl

/-- The chunks of the segments are all that was acknowledged. -/
theorem flatten_chunks (limit : Nat) (answers : List (Call × Answer)) :
    ((segments answers).chunks limit).flatten = acknowledged answers := by
  have hsegments : (segments answers).ended.flatten ++ (segments answers).current =
      acknowledged answers := by
    induction answers using List.reverseRecOn with
    | nil => rfl
    | append_singleton answers ca ih =>
      obtain ⟨c, a⟩ := ca
      rw [segments_concat, acknowledged_concat, ← ih]
      cases c <;> simp [Segments.add, Segments.close, Call.acknowledged]
  have hcut : ∀ ended : List Bytes, (ended.flatMap (cutAt limit)).flatten = ended.flatten := by
    intro ended
    induction ended with
    | nil => rfl
    | cons segment ended ih => simp [ih]
  rw [Segments.chunks, List.flatten_append, hcut, flatten_cutAt, hsegments]

variable {limit contentLength : Nat} {σ σ' : Sys} {w w' : S3UploadWriter} {L L' : Ledger}
  {e e' : Bool} {log buf chunk : Bytes} {s : Segments} {chunks : List Bytes} {l : Label}

/-- The chunks handed over are the front of these, and those that the writer still holds are the
rest, unless a send was refused. -/
structure Cut (w : S3UploadWriter) (L : Ledger) (chunks : List Bytes) : Prop where
  inside : L.handed <+: chunks
  all : L.sawClosed = false → L.handed ++ w.parkedChunks ++ remainder w.buffer = chunks

/-- A writer between calls holds no more than the end of the last chunk. -/
structure Segmented (limit : Nat) (w : S3UploadWriter) (L : Ledger) (e : Bool) (s : Segments) :
    Prop extends Cut w L (s.chunks limit) where
  fits : L.sawClosed = false → e = false → w.buffer.length = s.current.length % limit

/-- Driving a parked send moves its chunk. -/
theorem PendingOutcome.cut {a : Poll (Except IoError Unit)} (h : PendingOutcome w L w' a L' e')
    (hc : Custody limit w L e log) (hcut : Cut w L chunks) : Cut w' L' chunks := by
  cases h with
  | idle _ | waiting _ => exact hcut
  | delivered hsend =>
    have hopen := hc.open_of_pending hsend
    have hbuffer := (hc.parked _ hsend).2.1
    have hall := hcut.all hopen
    simp only [S3UploadWriter.parkedChunks, hsend, hbuffer, Option.map_some, Option.toList_some,
      remainder_nil, List.append_nil] at hall
    constructor
    · exact hall ▸ List.prefix_refl _
    · intro _
      simpa [Ledger.deliver, S3UploadWriter.parkedChunks, hbuffer] using hall
  | refused hsend =>
    refine ⟨hcut.inside, fun hopen => ?_⟩
    cases hopen

/-- `upload_ended` may rise at any time. -/
theorem Segmented.raise (h : Segmented limit w L e s) (he : e = true → e' = true) :
    Segmented limit w L e' s := by
  refine ⟨h.toCut, fun hopen halive => h.fits hopen ?_⟩
  cases hended : e with
  | false => rfl
  | true => exact absurd (he hended) (by simp [halive])

theorem PendingOutcome.segmented {a : Poll (Except IoError Unit)}
    (h : PendingOutcome w L w' a L' e') (hc : Custody limit w L e log)
    (hs : Segmented limit w L e s) : Segmented limit w' L' e s := by
  refine ⟨h.cut hc hs.toCut, ?_⟩
  cases h with
  | idle _ | waiting _ | delivered _ => exact hs.fits
  | refused _ => exact nofun

/-- Starting the send of the last chunk moves it out of the buffer, if it is not refused. -/
theorem StartOutcome.cut {a : Poll (Except IoError Unit)} (h : StartOutcome w chunk L w' a L' e')
    (hbuffer : w.buffer = []) (hpending : w.pending = none) (hall : L.handed ++ [chunk] = chunks) :
    (∀ err, a ≠ .ready (.error err)) ∧ w'.buffer = [] ∧ Cut w' L' chunks ∨
      ∃ err, a = .ready (.error err) ∧ L'.handed = L.handed ∧ L'.sawClosed = true := by
  cases h with
  | waiting =>
    refine .inl ⟨by simp, hbuffer, hall ▸ List.prefix_append _ _, fun _ => ?_⟩
    simpa [Ledger.openSend, S3UploadWriter.parkedChunks, hbuffer] using hall
  | delivered =>
    refine .inl ⟨by simp, hbuffer, hall ▸ List.prefix_refl _, fun _ => ?_⟩
    simpa [Ledger.openSend, Ledger.deliver, S3UploadWriter.parkedChunks, hbuffer, hpending]
      using hall
  | refused => exact .inr ⟨_, rfl, rfl, rfl⟩

/-- More bytes lengthen the last chunk, as long as it has room for them. -/
theorem Segmented.grow (h : Segmented limit w L e s) (hc : Custody limit w L e log)
    (halive : e = false) (hpending : w.pending = none) {more : Bytes}
    (hroom : (w.buffer ++ more).length ≤ limit) :
    L.handed ++ remainder (w.buffer ++ more) =
        Segments.chunks limit { s with current := s.current ++ more } ∧
      (s.current ++ more).length % limit = (w.buffer ++ more).length % limit := by
  have hlimit : 0 < limit := Nat.lt_of_le_of_lt (Nat.zero_le _) hc.room
  have hopen := hc.unrefused halive
  have hfits := h.fits hopen halive
  have hall := h.all hopen
  obtain ⟨front, back, hcurrent, ⟨k, hfront⟩, hback, hcutAt⟩ := exists_remainder hlimit s.current
  simp only [S3UploadWriter.parkedChunks, hpending, Option.map_none, Option.toList_none,
    List.append_nil, Segments.chunks, hcutAt, ← List.append_assoc] at hall
  obtain ⟨hhanded, hbuffer⟩ := remainder_inj hall (hfits.trans hback.symm)
  constructor
  · rw [hhanded, Segments.chunks, hcurrent, cutAt_grow hlimit hfront (hbuffer ▸ hroom), hbuffer,
      List.append_assoc]
  · rw [hcurrent, ← hbuffer, List.append_assoc, List.length_append, hfront, Nat.add_comm,
      Nat.add_mul_mod_self_right]

/-- Bytes whose chunk was not refused count as written. -/
theorem writeAnswer_of_unrefused {n : Nat} {a : Poll (Except IoError Unit)}
    (h : ∀ err, a ≠ .ready (.error err)) : writeAnswer n a = .ready (.ok n) := by
  rcases a with _ | err | _
  · rfl
  · exact absurd rfl (h err)
  · rfl

/-- `poll_write` adds what it acknowledges to the segment that is being written. -/
theorem WriteOutcome.segmented {a : Answer} (h : WriteOutcome w buf L e w' a L' e')
    (hc : Custody limit w L e log) (hs : Segmented limit w L e s) (he : e = true → e' = true) :
    Segmented limit w' L' e' (s.add (.write buf, a)) := by
  have hkeep : ∀ {b : Poll (Except IoError Unit)} {e₁ : Bool}, PendingOutcome w L w' b L' e₁ →
      (Call.write buf).acknowledged a = [] → Segmented limit w' L' e' (s.add (.write buf, a)) := by
    intro b e₁ hparked hnothing
    have hsame : s.add (.write buf, a) = s := by
      simp only [Segments.add, hnothing, List.append_nil]
    rw [hsame]
    exact (hparked.segmented hc hs).raise he
  cases h with
  | waiting hparked | failed hparked | gone hparked => exact hkeep hparked rfl
  | empty hparked _ | shutDown hparked _ => exact hkeep hparked rfl
  | full hparked _ _ _ => exact hkeep hparked rfl
  | taken hparked hbuf hsender halive howed hfill =>
    rename_i w₁ L₁ e₁
    obtain ⟨hc₁, hpending⟩ := hparked.custody_ok hc
    have hs₁ := hparked.segmented hc hs
    have hroom := hc₁.room
    have hsize := hc₁.chunkSize
    have hlength := w₁.length_filled buf (L₁.contentLength - L₁.accepted)
    have htaken : w₁.taken buf (L₁.contentLength - L₁.accepted) ≤
        w₁.chunkSize - w₁.buffer.length := by
      unfold S3UploadWriter.taken
      omega
    have hshort : (w₁.filled buf (L₁.contentLength - L₁.accepted)).length ≤ limit := by omega
    -- what is acknowledged unless the send is refused
    have hgrown : L₁.handed ++ remainder (w₁.filled buf (L₁.contentLength - L₁.accepted)) =
        (s.add (.write buf, .ready (.ok (w₁.taken buf (L₁.contentLength - L₁.accepted))))).chunks
          limit := (hs₁.grow hc₁ halive hpending hshort).1
    have hmod := (hs₁.grow hc₁ halive hpending hshort).2
    cases hfill with
    | buffered hpart =>
      refine ⟨⟨hgrown ▸ List.prefix_append _ _, fun _ => ?_⟩, fun _ _ => ?_⟩
      · simpa [Ledger.accept, S3UploadWriter.parkedChunks, hpending] using hgrown
      · exact (hmod.trans (Nat.mod_eq_of_lt (hsize ▸ hpart))).symm
    | sent hfull hstart =>
      have hwhole : (w₁.filled buf (L₁.contentLength - L₁.accepted)).length = limit := by omega
      have hne : w₁.filled buf (L₁.contentLength - L₁.accepted) ≠ [] := by
        intro hnil
        rw [hnil, List.length_nil] at hwhole
        omega
      rw [remainder_of_ne_nil hne] at hgrown
      rcases hstart.cut rfl hpending hgrown with ⟨hok, hbuffer, hcut⟩ | ⟨err, rfl, hhanded, hclosed⟩
      · rw [writeAnswer_of_unrefused hok]
        refine ⟨hcut, fun _ _ => ?_⟩
        rw [hbuffer]
        exact (hmod.trans (hwhole ▸ Nat.mod_self _)).symm
      · have hsame : s.add (.write buf, .ready (.error err)) = s := by
          simp only [Segments.add, Call.acknowledged, List.append_nil]
        rw [writeAnswer, hsame]
        refine ⟨⟨hhanded ▸ hs₁.inside, fun hopen => ?_⟩, fun hopen => ?_⟩ <;>
          exact absurd hclosed (by simp [hopen])

/-- `poll_flush` sends the last chunk as it is, so that the next byte begins another. -/
theorem FlushOutcome.segmented {a : Poll (Except IoError Unit)} (h : FlushOutcome w L e w' a L' e')
    (hc : Custody limit w L e log) (hs : Segmented limit w L e s) :
    Cut w' L' (s.close.chunks limit) ∧
      (w'.buffer = [] ∨ L'.sawClosed = true ∨ e' = true) := by
  rw [s.chunks_close]
  cases h with
  | waiting hparked =>
    have hcut := hparked.cut hc hs.toCut
    cases hparked with
    | waiting hsend => exact ⟨hcut, .inl (hc.parked _ hsend).2.1⟩
  | failed hparked =>
    have hcut := hparked.cut hc hs.toCut
    cases hparked with
    | refused hsend => exact ⟨hcut, .inr (.inl rfl)⟩
  | gone hparked => exact ⟨hparked.cut hc hs.toCut, .inr (.inr rfl)⟩
  | nothing hparked halive hbuffer => exact ⟨hparked.cut hc hs.toCut, .inl hbuffer⟩
  | started hparked halive hbuffer hsender hstart =>
    obtain ⟨hc₁, hpending⟩ := hparked.custody_ok hc
    have hcut := hparked.cut hc hs.toCut
    have hall := hcut.all (hc₁.unrefused halive)
    simp only [S3UploadWriter.parkedChunks, hpending, Option.map_none, Option.toList_none,
      List.append_nil, remainder_of_ne_nil hbuffer] at hall
    rcases hstart.cut rfl hpending hall with ⟨-, hempty, hcut'⟩ | ⟨err, -, hhanded, hclosed⟩
    · exact ⟨hcut', .inl hempty⟩
    · refine ⟨⟨hhanded ▸ hcut.inside, fun hopen => ?_⟩, .inr (.inl hclosed)⟩
      exact absurd hclosed (by simp [hopen])

/-- A segment that was just ended fits an empty buffer. -/
theorem Cut.segmented (h : Cut w L (s.close.chunks limit))
    (hempty : w.buffer = [] ∨ L.sawClosed = true ∨ e = true) : Segmented limit w L e s.close := by
  refine ⟨h, fun hopen halive => ?_⟩
  rcases hempty with hnil | hclosed | hended
  · rw [hnil, Segments.close, List.length_nil, Nat.zero_mod]
  · exact absurd hclosed (by simp [hopen])
  · exact absurd hended (by simp [halive])

/-- Every call keeps the chunks of its writer where the segments are cut. -/
theorem CallOutcome.segmented {c : Call} {a : Answer} (h : CallOutcome w L e c w' a L' e')
    (hc : Custody limit w L e log) (hs : Segmented limit w L e s) (he : e = true → e' = true) :
    Segmented limit w' L' e' (s.add (c, a)) := by
  have hafter := h.custody hc he
  cases h with
  | write hwrite => exact hwrite.segmented hc hs he
  | flush hflush =>
    obtain ⟨hcut, hempty⟩ := hflush.segmented hc hs
    exact hcut.segmented hempty
  | shutdown hshutdown =>
    cases hshutdown with
    | already hsender =>
      have hcut := hs.toCut
      rw [← s.chunks_close] at hcut
      exact hcut.segmented (.inl (hc.flushed hsender).1)
    | waiting hsender hflush | failed hsender hflush =>
      obtain ⟨hcut, hempty⟩ := hflush.segmented hc hs
      exact hcut.segmented hempty
    | ended hsender hflush =>
      rename_i w₁ L₁ e₁
      obtain ⟨hcut, -⟩ := hflush.segmented hc hs
      have hended : Cut { w₁ with sender := false } L₁.endBody.dropSender (s.close.chunks limit) :=
        ⟨hcut.inside, hcut.all⟩
      exact hended.segmented (.inl (hafter.flushed rfl).1)

/-- The chunks of a writer between calls; of one that is leaving, what it has handed over. -/
def Sys.Segmented (limit : Nat) (σ : Sys) : Prop :=
  match σ.writer with
  | .idle w =>
    Upload.Segmented limit w σ.world.ledger σ.world.state.uploadEnded (segments σ.answers)
  | .calling c p => p.Safe World.exec (writerContract c.mode limit (σ.acked ++ c.offered))
      (fun r u => Upload.Segmented limit r.1 u.ledger u.state.uploadEnded
        (segments (σ.answers ++ [(c, r.2)]))) σ.world
  | .dropping _ | .gone => σ.world.channel.handed <+: (segments σ.answers).chunks limit

/-- The other parties leave the chunks of a writer alone. -/
theorem Sys.Segmented.other (h : σ.Segmented limit) (hwriter : σ'.writer = σ.writer)
    (hanswers : σ'.answers = σ.answers) (hrely : WriterRely σ.world σ'.world) :
    σ'.Segmented limit := by
  have hledger := hrely.ledger
  have hhanded : σ'.world.channel.handed = σ.world.channel.handed :=
    congrArg Ledger.handed hledger
  unfold Sys.Segmented at *
  rw [hwriter, Sys.acked, hanswers]
  split
  · rename_i hw
    rw [hw] at h
    rw [hledger]
    exact h.raise hrely.uploadEnded
  · rename_i hw
    rw [hw] at h
    exact Program.Safe.interfere h hrely
  · rename_i hw
    rw [hw] at h
    exact hhanded ▸ h
  · rename_i hw
    rw [hw] at h
    exact hhanded ▸ h

/-- So does every step. -/
theorem Sys.Segmented.step (h : σ.Segmented limit) (hinv : σ.Inv limit contentLength)
    (hstep : σ.step l = some σ') : σ'.Segmented limit := by
  cases hwriter : l.ofWriter with
  | false =>
    obtain ⟨hthread, hanswers, hrely⟩ := hinv.other hstep hwriter
    exact h.other hthread hanswers hrely
  | true =>
    unfold Sys.Segmented at h
    cases Sys.transition_of_step hstep with
    | call hw =>
      rename_i c w
      have hc := hinv.writer
      rw [hw] at hc h
      apply w.safe_call c hc
      intro w' a L' e' v hout hv hflag
      have hafter := hout.segmented hc h hflag
      rw [hv.ledger, segments_concat]
      exact hafter.raise hv.flag
    | callOp hw hop =>
      rw [hw] at h
      exact (Program.Safe.advance h hop).2
    | callReturn hw =>
      rw [hw] at h
      have hpost := Program.Safe.post h
      exact hpost
    | dropWriter hw =>
      rw [hw] at h
      exact h.inside
    | dropOp hw hop =>
      obtain ⟨-, -, hhanded, -⟩ := leaving_step (by rw [hw]; rfl) hinv hstep
      rw [hw] at h
      unfold Sys.Segmented
      rw [hhanded]
      exact h
    | dropReturn hw =>
      rw [hw] at h
      exact h
    | _ => cases hwriter

/-- Where a body is cut is decided by its bytes and by the calls that end a segment, and by
nothing else. Between calls, and once the writer is dropped, the chunks handed to the channel are
the front of the segments cut at the chunk size; while no send was refused, the chunk that is
parked and the one that is being filled are the rest of them. Writes alone are one segment,
however the bytes were split. -/
theorem chunks_by_segments {bucketName key : String} {chunkSize : Nat} {σ₀ : Sys}
    (h₀ : σ₀.Started bucketName key contentLength chunkSize)
    (hrun : Reaches Sys.step anyLabel σ₀ σ) (hcall : ∀ c p, σ.writer ≠ .calling c p) :
    σ.world.channel.handed <+: (segments σ.answers).chunks (max chunkSize 1) ∧
    (∀ w, σ.writer = .idle w → σ.world.sawClosed = false →
      σ.world.channel.handed ++ w.parkedChunks ++ remainder w.buffer =
        (segments σ.answers).chunks (max chunkSize 1)) ∧
    ((segments σ.answers).chunks (max chunkSize 1)).flatten = σ.acked ∧
    ((∀ ca ∈ σ.answers, ∃ buf, ca.1 = .write buf) →
      (segments σ.answers).chunks (max chunkSize 1) = cutAt (max chunkSize 1) σ.acked) := by
  have hbegun : σ₀.Segmented (max chunkSize 1) := by
    rcases h₀ with rfl | rfl <;>
      exact ⟨⟨List.nil_prefix, fun _ => (cutAt_nil (n := max chunkSize 1)).symm⟩,
        fun _ _ => (Nat.zero_mod _).symm⟩
  obtain ⟨hinv, hsegmented⟩ := hrun.invariant
    (I := fun τ => τ.Inv (max chunkSize 1) contentLength ∧ τ.Segmented (max chunkSize 1))
    ⟨h₀.inv, hbegun⟩ fun _ _ _ h _ hstep => ⟨h.1.step hstep, h.2.step h.1 hstep⟩
  unfold Sys.Segmented at hsegmented
  refine ⟨?_, fun w hw hopen => ?_, flatten_chunks _ _, fun hwrites => ?_⟩
  · cases hwriter : σ.writer with
    | idle w =>
      rw [hwriter] at hsegmented
      exact hsegmented.inside
    | calling c p => exact absurd hwriter (hcall c p)
    | dropping p | gone =>
      rw [hwriter] at hsegmented
      exact hsegmented
  · rw [hw] at hsegmented
    exact hsegmented.all hopen
  · rw [segments_writes hwrites]
    rfl

/-- Five bytes in four writes, with a flush behind the third. -/
def fiveBytes : List Label :=
  [(.write [1], 4), (.write [2, 3], 10), (.write [3], 4), (.flush, 7), (.write [4, 5], 10)].flatMap
    fun (c, operations) => [.call c] ++ List.replicate operations (.writerOp true) ++ [.writerReturn]

theorem chunks_by_segments_five :
    let σ := runTo Sys.step anyLabel fiveBytes (.uploadWithWriter "b" "k" 5 2)
    σ.world.channel.handed = [[1, 2], [3], [4, 5]] ∧
      σ.world.channel.handed <+: (segments σ.answers).chunks 2 ∧
      segments σ.answers = ⟨[[1, 2, 3]], [4, 5]⟩ := by
  intro σ
  have hrun : Reaches Sys.step anyLabel (.uploadWithWriter "b" "k" 5 2) σ :=
    reaches_runTo (by decide)
  refine ⟨rfl, (chunks_by_segments (.inr rfl) hrun ?_).1, rfl⟩
  intro c p hw
  cases hw

end MyS3.Upload
