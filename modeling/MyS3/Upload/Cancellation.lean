import MyS3.Upload.Atomic

/-!
# A dead upload stays dead

From the moment its handle was dropped or a send of its writer was refused, an upload
takes nothing more: every later poll is refused or waits for the one chunk that was
already on its way.
-/

namespace MyS3.Upload

open Interleaving

/-- A poll that was refused or still waits. Writing nothing is the one thing that may
still succeed. -/
def Call.refuses : Call → Answer → Prop
  | _, .pending => True
  | _, .ready (.error err) => err.kind = .brokenPipe
  | .write buf, .ready (.ok _) => buf = []
  | _, .ready (.ok _) => False

/-- The poll returned an error. -/
def isError : Answer → Bool
  | .ready (.error _) => true
  | _ => false

variable {limit contentLength : Nat} {w w' : S3UploadWriter} {L L' : Ledger} {e e' : Bool}
  {c : Call} {a : Answer}

/-- Driving the parked send hands over that chunk at most. -/
private theorem PendingOutcome.at_most_parked {b : Poll (Except IoError Unit)}
    (h : PendingOutcome w L w' b L' e') : L'.accepted = L.accepted ∧
    (w'.pending = w.pending ∧ L'.handed = L.handed ∨ w'.pending = none ∧
      (L'.handed = L.handed ∨ ∃ send, w.pending = some send ∧
        L'.handed = L.handed ++ [send.chunk])) := by
  cases h with
  | idle hnone => exact ⟨rfl, .inl ⟨rfl, rfl⟩⟩
  | waiting hsend => exact ⟨rfl, .inl ⟨rfl, rfl⟩⟩
  | delivered hsend => exact ⟨rfl, .inr ⟨rfl, .inr ⟨_, hsend, rfl⟩⟩⟩
  | refused hsend => exact ⟨rfl, .inr ⟨rfl, .inl rfl⟩⟩

/-- A parked send that was driven to its end is parked no longer. -/
private theorem PendingOutcome.settled {r : Except IoError Unit}
    (h : PendingOutcome w L w' (.ready r) L' e') : w'.pending = none := by
  cases h with
  | idle hnone => exact hnone
  | delivered hsend | refused hsend => rfl

private theorem PendingOutcome.error_kind {err : IoError}
    (h : PendingOutcome w L w' (.ready (.error err)) L' e') : err.kind = .brokenPipe := by
  cases h with
  | refused hsend => rfl

/-- A poll behind a raised `upload_ended` only drives the parked send. -/
private theorem WriteOutcome.dead {buf : Bytes} (h : WriteOutcome w buf L true w' a L' e')
    (hsender : w.sender = true) : (Call.write buf).refuses a ∧
    ∃ b e₁, PendingOutcome w L w' b L' e₁ ∧ (isError a = true → w'.pending = none) := by
  cases h with
  | waiting hparked => exact ⟨trivial, _, _, hparked, fun hf => by cases hf⟩
  | failed hparked => exact ⟨hparked.error_kind, _, _, hparked, fun _ => hparked.settled⟩
  | empty hparked hbuf => exact ⟨hbuf, _, _, hparked, fun hf => by cases hf⟩
  | shutDown hparked hclosed =>
    exact absurd ((hparked.sender.trans hsender).symm.trans hclosed) (by decide)
  | gone hparked => exact ⟨rfl, _, _, hparked, fun _ => hparked.settled⟩
  | full hparked hbuf halive howed => cases halive
  | taken hparked hbuf hopen halive howed hfill => cases halive

private theorem FlushOutcome.dead {b : Poll (Except IoError Unit)}
    (h : FlushOutcome w L true w' b L' e') : Call.flush.refuses (unitAnswer b) ∧
    ∃ b' e₁, PendingOutcome w L w' b' L' e₁ ∧
      (isError (unitAnswer b) = true → w'.pending = none) := by
  cases h with
  | waiting hparked => exact ⟨trivial, _, _, hparked, fun hf => by cases hf⟩
  | failed hparked => exact ⟨hparked.error_kind, _, _, hparked, fun _ => hparked.settled⟩
  | gone hparked => exact ⟨rfl, _, _, hparked, fun _ => hparked.settled⟩
  | nothing hparked halive hbuffer => cases halive
  | started hparked halive hbuffer hopen hstart => cases halive

private theorem CallOutcome.dead (h : CallOutcome w L true c w' a L' e')
    (hsender : w.sender = true) : c.refuses a ∧
    ∃ b e₁, PendingOutcome w L w' b L' e₁ ∧ (isError a = true → w'.pending = none) := by
  cases h with
  | write hwrite => exact hwrite.dead hsender
  | flush hflush => exact hflush.dead
  | shutdown hshutdown =>
    cases hshutdown with
    | already hclosed => exact absurd (hsender.symm.trans hclosed) (by decide)
    | waiting hopen hflush => exact ⟨trivial, hflush.dead.2⟩
    | failed hopen hflush => exact ⟨hflush.dead.1, hflush.dead.2⟩
    | ended hopen hflush => exact absurd hflush.dead.1 id

/-- Only a refused send records a closed channel. -/
private theorem PendingOutcome.closes {b : Poll (Except IoError Unit)}
    (h : PendingOutcome w L w' b L' e') :
    L'.sawClosed = L.sawClosed ∨ ∃ err, err.kind = .brokenPipe ∧ b = .ready (.error err) := by
  cases h with
  | idle hnone | waiting hsend | delivered hsend => exact .inl rfl
  | refused hsend => exact .inr ⟨_, rfl, rfl⟩

private theorem StartOutcome.closes {chunk : Bytes} {b : Poll (Except IoError Unit)}
    (h : StartOutcome w chunk L w' b L' e') :
    L'.sawClosed = L.sawClosed ∨ ∃ err, err.kind = .brokenPipe ∧ b = .ready (.error err) := by
  cases h with
  | waiting | delivered => exact .inl rfl
  | refused => exact .inr ⟨_, rfl, rfl⟩

private theorem PendingOutcome.sawClosed_eq (h : PendingOutcome w L w' (.ready (.ok ())) L' e') :
    L'.sawClosed = L.sawClosed :=
  h.closes.resolve_right fun ⟨_, _, heq⟩ => nomatch heq

private theorem WriteOutcome.closes {buf : Bytes} (h : WriteOutcome w buf L e w' a L' e') :
    L'.sawClosed = L.sawClosed ∨ ∃ err, err.kind = .brokenPipe ∧ a = .ready (.error err) := by
  cases h with
  | waiting hparked =>
    exact .inl (hparked.closes.resolve_right fun ⟨_, _, heq⟩ => nomatch heq)
  | failed hparked => exact .inr ⟨_, hparked.error_kind, rfl⟩
  | empty hparked hbuf => exact .inl hparked.sawClosed_eq
  | shutDown hparked hclosed => exact .inl hparked.sawClosed_eq
  | gone hparked => exact .inl hparked.sawClosed_eq
  | full hparked hbuf halive howed => exact .inl hparked.sawClosed_eq
  | taken hparked hbuf hopen halive howed hfill =>
    cases hfill with
    | buffered hroom => exact .inl hparked.sawClosed_eq
    | sent hfull hstart =>
      rcases hstart.closes with hsame | ⟨err, hkind, rfl⟩
      · exact .inl (hsame.trans hparked.sawClosed_eq)
      · exact .inr ⟨err, hkind, rfl⟩

private theorem FlushOutcome.closes {b : Poll (Except IoError Unit)}
    (h : FlushOutcome w L e w' b L' e') :
    L'.sawClosed = L.sawClosed ∨ ∃ err, err.kind = .brokenPipe ∧ b = .ready (.error err) := by
  cases h with
  | waiting hparked =>
    exact .inl (hparked.closes.resolve_right fun ⟨_, _, heq⟩ => nomatch heq)
  | failed hparked => exact .inr ⟨_, hparked.error_kind, rfl⟩
  | gone hparked => exact .inl hparked.sawClosed_eq
  | nothing hparked halive hbuffer => exact .inl hparked.sawClosed_eq
  | started hparked halive hbuffer hopen hstart =>
    exact hstart.closes.imp_left fun hsame => hsame.trans hparked.sawClosed_eq

/-- The poll whose send finds the channel closed says so. -/
private theorem CallOutcome.closes (h : CallOutcome w L e c w' a L' e') :
    L'.sawClosed = L.sawClosed ∨ ∃ err, err.kind = .brokenPipe ∧ a = .ready (.error err) := by
  cases h with
  | write hwrite => exact hwrite.closes
  | flush hflush =>
    rcases hflush.closes with hsame | ⟨err, hkind, rfl⟩
    · exact .inl hsame
    · exact .inr ⟨err, hkind, rfl⟩
  | shutdown hshutdown =>
    cases hshutdown with
    | already hclosed => exact .inl rfl
    | waiting hopen hflush =>
      exact .inl (hflush.closes.resolve_right fun ⟨_, _, heq⟩ => nomatch heq)
    | failed hopen hflush =>
      rcases hflush.closes with hsame | ⟨err, hkind, heq⟩
      · exact .inl hsame
      · cases heq
        exact .inr ⟨_, hkind, rfl⟩
    | ended hopen hflush =>
      exact .inl (hflush.closes.resolve_right fun ⟨_, _, heq⟩ => nomatch heq)

/-- The writer has nothing on its way. -/
def Sys.Quiet (σ : Sys) : Prop :=
  match σ.writer with
  | .idle w => w.pending = none
  | .gone => True
  | _ => False

/-- What a cut left behind: `answers` came before it, `σ` is the state behind it, and
`parked` the send that was on its way there. -/
private structure Dead (answers : List (Call × Answer)) (σ : Sys) (parked : Option PendingSend)
    (τ : Sys) : Prop where
  ended : τ.world.state.uploadEnded = true
  accepted : τ.world.state.accepted = σ.world.state.accepted
  writes : ∀ w, τ.writer = .idle w → w.sender = true
  answered : ∃ later, τ.answers = answers ++ later ∧
    ∀ ca ∈ later, ca.1.refuses ca.2 ∧ (isError ca.2 = true → τ.Quiet)
  onItsWay : (∃ w, τ.writer = .idle w ∧ w.pending = parked ∧
      τ.world.channel.handed = σ.world.channel.handed) ∨
    τ.Quiet ∧ (τ.world.channel.handed = σ.world.channel.handed ∨
      ∃ send, parked = some send ∧
        τ.world.channel.handed = σ.world.channel.handed ++ [send.chunk])

variable {answers : List (Call × Answer)} {σ τ τ' : Sys} {parked : Option PendingSend}
  {l : AtomicLabel}

/-- Other parties leave a dead upload as it is. -/
private theorem Dead.other (h : Dead answers σ parked τ) (hwriter : τ'.writer = τ.writer)
    (hanswers : τ'.answers = τ.answers) (hrely : WriterRely τ.world τ'.world) :
    Dead answers σ parked τ' where
  ended := hrely.uploadEnded h.ended
  accepted := (congrArg Ledger.accepted hrely.ledger).trans h.accepted
  writes := by
    rw [hwriter]
    exact h.writes
  answered := by
    have hans := h.answered
    simp only [Sys.Quiet, hwriter, hanswers] at hans ⊢
    exact hans
  onItsWay := by
    have hway := h.onItsWay
    have hhanded : τ'.world.channel.handed = τ.world.channel.handed :=
      congrArg Ledger.handed hrely.ledger
    simp only [Sys.Quiet, hwriter, hhanded] at hway ⊢
    exact hway

/-- One call on a dead upload. -/
private theorem Dead.call {world : World} (h : Dead answers σ parked τ)
    (hw : τ.writer = .idle w) (hout : CallOutcome w τ.world.ledger true c w' a L' e')
    (hfound : Found L' e' world) (hended : world.state.uploadEnded = true) :
    Dead answers σ parked
      { τ with world := world, writer := .idle w', answers := τ.answers ++ [(c, a)] } := by
  have hsender := h.writes w hw
  obtain ⟨hrefuses, b, e₁, hpending, hsettled⟩ := hout.dead hsender
  obtain ⟨haccepted, hparked⟩ := hpending.at_most_parked
  rw [← hfound.ledger] at haccepted hparked
  -- Once nothing is on its way, nothing ever is again.
  have hquiet : τ.Quiet → w'.pending = none := by
    intro hq
    simp only [Sys.Quiet, hw] at hq
    rcases hparked with ⟨hsame, -⟩ | ⟨hnone, -⟩
    · exact hsame.trans hq
    · exact hnone
  refine ⟨hended, haccepted.trans h.accepted, ?_, ?_, ?_⟩
  · rintro _ ⟨⟩
    exact hpending.sender.trans hsender
  · obtain ⟨later, hlater, hall⟩ := h.answered
    refine ⟨later ++ [(c, a)], by rw [hlater, List.append_assoc], fun ca hca => ?_⟩
    rcases List.mem_append.mp hca with hold | hnew
    · exact ⟨(hall ca hold).1, fun herr => hquiet ((hall ca hold).2 herr)⟩
    · cases List.mem_singleton.mp hnew
      exact ⟨hrefuses, hsettled⟩
  · rcases h.onItsWay with ⟨w₁, hw₁, hp, hhanded⟩ | ⟨hq, hhanded⟩
    · cases hw.symm.trans hw₁
      rcases hparked with ⟨hsame, hkept⟩ | ⟨hnone, hkept | ⟨send, hsend, hgone⟩⟩
      · exact .inl ⟨w', rfl, hsame.trans hp, hkept.trans hhanded⟩
      · exact .inr ⟨hnone, .inl (hkept.trans hhanded)⟩
      · exact .inr ⟨hnone, .inr ⟨send, hp ▸ hsend, hgone.trans (by rw [← hhanded]; rfl)⟩⟩
    · refine .inr ⟨hquiet hq, ?_⟩
      simp only [Sys.Quiet, hw] at hq
      have hkept : world.channel.handed = τ.world.channel.handed := by
        rcases hparked with ⟨-, hkept⟩ | ⟨-, hkept | ⟨send, hsend, -⟩⟩
        · exact hkept
        · exact hkept
        · cases hq.symm.trans hsend
      rw [hkept]
      exact hhanded

/-- Dropping the writer of a dead upload sends nothing. -/
private theorem Dead.drop {world : World} (h : Dead answers σ parked τ)
    (hledger : world.ledger = τ.world.ledger.dropWriter w)
    (hended : world.state.uploadEnded = true) :
    Dead answers σ parked { τ with world := world, writer := .gone } := by
  have hdrop : (τ.world.ledger.dropWriter w).accepted = τ.world.ledger.accepted ∧
      (τ.world.ledger.dropWriter w).handed = τ.world.ledger.handed := by
    unfold Ledger.dropWriter
    constructor <;> split <;> split <;> rfl
  have haccepted : world.state.accepted = τ.world.state.accepted :=
    (congrArg Ledger.accepted hledger).trans hdrop.1
  have hhanded : world.channel.handed = τ.world.channel.handed :=
    (congrArg Ledger.handed hledger).trans hdrop.2
  refine ⟨hended, haccepted.trans h.accepted, nofun, ?_, .inr ⟨trivial, ?_⟩⟩
  · obtain ⟨later, hlater, hall⟩ := h.answered
    exact ⟨later, hlater, fun ca hca => ⟨(hall ca hca).1, fun _ => trivial⟩⟩
  · change world.channel.handed = _ ∨ ∃ send, _ ∧ world.channel.handed = _
    rw [hhanded]
    rcases h.onItsWay with ⟨-, -, -, hkept⟩ | ⟨-, hkept⟩
    · exact .inl hkept
    · exact hkept

/-- Every step keeps a dead upload dead. -/
private theorem Dead.step (h : Dead answers σ parked τ) (hinv : τ.Inv limit contentLength)
    (hstep : τ.atomicStep l = some τ') : Dead answers σ parked τ' := by
  have hended : τ'.world.state.uploadEnded = true :=
    (hinv.evolves (Sys.reaches_of_atomicStep hstep)).uploadEnded h.ended
  cases Sys.atomicTransition_of_step hstep with
  | call hw hrun =>
    obtain ⟨L', e', hout, hfound⟩ := hinv.call_outcome hw hrun
    rw [h.ended] at hout
    exact h.call hw hout hfound hended
  | dropWriter hw hrun => exact h.drop (hinv.drop_ledger hw hrun) hended
  | dropHandle hc hrun => exact h.other rfl rfl (dropHandle_rely hrun)
  | other hl hstep =>
    obtain ⟨hwriter, hanswers, hrely⟩ := hinv.other hstep hl
    exact h.other hwriter hanswers hrely

private theorem Dead.run (h : Dead answers σ parked τ) (hinv : τ.Inv limit contentLength)
    (hrun : Reaches Sys.atomicStep anyLabel τ τ') : Dead answers σ parked τ' :=
  (hrun.invariant (I := fun υ => υ.Inv limit contentLength ∧ Dead answers σ parked υ) ⟨hinv, h⟩
    fun _ _ _ hυ _ hstep => ⟨hυ.1.run (Sys.reaches_of_atomicStep hstep), hυ.2.step hυ.1 hstep⟩).2

/-- Between calls no permit is held, so the count is the bytes handed over. -/
private theorem Dead.sent (h : Dead answers σ parked τ) (hinv : τ.Inv limit contentLength) :
    τ.world.state.sent = τ.world.channel.handed.flatten.length := by
  apply hinv.sound.exact_of_unreserved
  have hwriter := hinv.writer
  rcases h.onItsWay with ⟨w, hw, -⟩ | ⟨hq, -⟩
  · rw [hw] at hwriter
    exact hwriter.released
  · unfold Sys.Quiet at hq
    split at hq
    · rename_i w hw
      rw [hw] at hwriter
      exact hwriter.released
    · rename_i hw
      rw [hw] at hwriter
      exact hwriter.released
    · exact hq.elim

/-- Once nothing is on its way nothing is sent. -/
private theorem Dead.frozen (h : Dead answers σ parked τ) (hinv : τ.Inv limit contentLength)
    (hquiet : τ.Quiet) (hrun : Reaches Sys.atomicStep anyLabel τ τ') :
    τ'.world.state.sent = τ.world.state.sent ∧
      τ'.world.channel.handed = τ.world.channel.handed := by
  have hnow : Dead τ.answers τ none τ :=
    ⟨h.ended, rfl, h.writes, ⟨[], by simp, nofun⟩, .inr ⟨hquiet, .inl rfl⟩⟩
  have hlater := hnow.run hinv hrun
  have hhanded : τ'.world.channel.handed = τ.world.channel.handed := by
    rcases hlater.onItsWay with ⟨-, -, -, hsame⟩ | ⟨-, hsame | ⟨_, hnone, -⟩⟩
    · exact hsame
    · exact hsame
    · cases hnone
  rw [hlater.sent (hinv.run (Sys.reaches_of_atomic hrun)), h.sent hinv, hhanded]
  exact ⟨rfl, rfl⟩

/-- The upload is cut off by this step: its handle is dropped while the task is unfinished,
or a send finds the channel closed for the first time. -/
def Sys.CutOff (σ : Sys) (l : AtomicLabel) (σ' : Sys) : Prop :=
  (∃ choices, l = .dropHandle choices) ∧ σ.world.task.isFinished = false ∨
    σ.world.sawClosed = false ∧ σ'.world.sawClosed = true

/-- The state behind a cut. -/
private theorem dead_of_cutOff (hinv : σ.Inv limit contentLength)
    (hstep : σ.atomicStep l = some τ) (hcut : σ.CutOff l τ) (hw : τ.writer = .idle w)
    (hsender : w.sender = true) : Dead σ.answers τ w.pending τ := by
  have hinv' := hinv.run (Sys.reaches_of_atomicStep hstep)
  have hwrites : ∀ w₁, τ.writer = .idle w₁ → w₁.sender = true := by
    intro w₁ hw₁
    cases hw.symm.trans hw₁
    exact hsender
  -- A writer that is left alone has nothing to answer.
  have hsame : ∀ {τ : Sys}, τ.answers = σ.answers →
      ∃ later, τ.answers = σ.answers ++ later ∧
        ∀ ca ∈ later, ca.1.refuses ca.2 ∧ (isError ca.2 = true → τ.Quiet) :=
    fun heq => ⟨[], by simp [heq], nofun⟩
  rcases hcut with ⟨⟨choices, rfl⟩, hrunning⟩ | ⟨hopen, hclosed⟩
  · cases Sys.atomicTransition_of_step hstep with
    | dropHandle hc hrun =>
      exact ⟨dropHandle_uploadEnded hrunning hrun, rfl, hwrites, hsame rfl,
        .inl ⟨w, hw, rfl, rfl⟩⟩
  · have hcustody := hinv'.writer
    rw [hw] at hcustody
    obtain ⟨hpending, -, hended⟩ := hcustody.closed hclosed
    refine ⟨hended, rfl, hwrites, ?_, .inl ⟨w, hw, rfl, rfl⟩⟩
    have hrely : WriterRely σ.world τ.world → False := fun hrely => by
      have hkept : τ.world.sawClosed = σ.world.sawClosed :=
        congrArg Ledger.sawClosed hrely.ledger
      simp [hopen, hclosed] at hkept
    cases Sys.atomicTransition_of_step hstep with
    | call hw₀ hrun =>
      rename_i c choices w₀ w₁ a world
      cases hw
      obtain ⟨L', e', hout, hfound⟩ := hinv.call_outcome hw₀ hrun
      rcases hout.closes with hkept | ⟨err, hkind, rfl⟩
      · have hkept' : world.sawClosed = σ.world.sawClosed :=
          (congrArg Ledger.sawClosed hfound.ledger).trans hkept
        exact absurd (hclosed.symm.trans (hkept'.trans hopen)) (by decide)
      · refine ⟨[(c, .ready (.error err))], rfl, fun ca hca => ?_⟩
        cases List.mem_singleton.mp hca
        exact ⟨by cases c <;> exact hkind, fun _ => hpending⟩
    | dropWriter hw₀ hrun => cases hw
    | dropHandle hc hrun => exact (hrely (dropHandle_rely hrun)).elim
    | other hl hstep => exact (hrely (hinv.other hstep hl).2.2).elim

/-- Behind a cut nothing is accepted, at most the parked chunk is handed over, every
answer is a refusal, and behind the first refusal nothing is sent at all. -/
theorem dead_stays_dead {bucketName key : String} {chunkSize : Nat} {σ₀ σ₁ σ₂ : Sys}
    (h₀ : σ₀.Started bucketName key contentLength chunkSize)
    (hrun₀ : Reaches Sys.atomicStep anyLabel σ₀ σ) (hstep : σ.atomicStep l = some σ₁)
    (hcut : σ.CutOff l σ₁) (hw : σ₁.writer = .idle w) (hsender : w.sender = true)
    (hrun : Reaches Sys.atomicStep anyLabel σ₁ σ₂) :
    σ₂.world.state.accepted = σ₁.world.state.accepted ∧
    (σ₂.world.channel.handed = σ₁.world.channel.handed ∨ ∃ send, w.pending = some send ∧
      σ₂.world.channel.handed = σ₁.world.channel.handed ++ [send.chunk]) ∧
    ∃ later, σ₂.answers = σ.answers ++ later ∧ ∀ ca ∈ later, ca.1.refuses ca.2 ∧
      (isError ca.2 = true → ∀ σ₃, Reaches Sys.atomicStep anyLabel σ₂ σ₃ →
        σ₃.world.state.sent = σ₂.world.state.sent ∧
        σ₃.world.channel.handed = σ₂.world.channel.handed) := by
  have hinv := h₀.inv.run (Sys.reaches_of_atomic hrun₀)
  have hinv₁ := hinv.run (Sys.reaches_of_atomicStep hstep)
  have hinv₂ := hinv₁.run (Sys.reaches_of_atomic hrun)
  have hdead := (dead_of_cutOff hinv hstep hcut hw hsender).run hinv₁ hrun
  refine ⟨hdead.accepted, ?_, ?_⟩
  · rcases hdead.onItsWay with ⟨-, -, -, hsame⟩ | ⟨-, hsame⟩
    · exact .inl hsame
    · exact hsame
  · obtain ⟨later, hlater, hall⟩ := hdead.answered
    exact ⟨later, hlater, fun ca hca => ⟨(hall ca hca).1, fun herr _ hrun' =>
      hdead.frozen hinv₂ ((hall ca hca).2 herr) hrun'⟩⟩

/-- A full chunk is parked, the handle is dropped, and `flush` drives the chunk home before
it is refused. -/
theorem dead_stays_dead_parked :
    let σ := runTo Sys.atomicStep anyLabel
      [.call (.write [1, 2]) [true, true, true, true, true, true, false]]
      (.startUpload "b" "k" 4 2)
    let σ₁ := runTo Sys.atomicStep anyLabel [.dropHandle [true, true, true]] σ
    let σ₂ := runTo Sys.atomicStep anyLabel [.call .flush (List.replicate 6 true)] σ₁
    σ₂.world.channel.handed = [[1, 2]] ∧ σ₂.world.state.accepted = σ₁.world.state.accepted := by
  intro σ σ₁ σ₂
  have hrun₀ : Reaches Sys.atomicStep anyLabel (.startUpload "b" "k" 4 2) σ :=
    reaches_runTo (by decide)
  have hstep : σ.atomicStep (.dropHandle [true, true, true]) = some σ₁ := rfl
  have hrun : Reaches Sys.atomicStep anyLabel σ₁ σ₂ := reaches_runTo (by decide)
  exact ⟨rfl, (dead_stays_dead (.inl rfl) hrun₀ hstep (.inl ⟨⟨_, rfl⟩, rfl⟩) rfl rfl hrun).1⟩

end MyS3.Upload
