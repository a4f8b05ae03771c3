import MyS3.Upload.Handle
import MyS3.Upload.Ledger

/-!
# How the shared state evolves

What any step of any party may do to the world. `Evolves` is closed under further steps
and is what the code that settles an upload relies on; `WorldStep` adds what holds of a
single step.
-/

namespace MyS3.Upload

/-- What has happened stays: counts grow, raised flags stay raised, and after the end of
the body or of the task the matching part of the world is final. -/
structure Evolves (s t : World) : Prop where
  contentLength : t.state.contentLength = s.state.contentLength
  accepted : s.state.accepted ≤ t.state.accepted
  sent : s.state.sent ≤ t.state.sent
  uploadEnded : s.state.uploadEnded = true → t.state.uploadEnded = true
  bodyEnded : s.state.bodyEnded = true → t.state.bodyEnded = true
  sawClosed : s.sawClosed = true → t.sawClosed = true
  notified : s.notified = true → t.notified = true
  frozen : s.state.bodyEnded = true → t.state.sent = s.state.sent ∧
    t.channel.handed = s.channel.handed ∧ t.sawClosed = s.sawClosed
  concluded : s.task.isFinished = true → t.task = s.task ∧ t.channel.received = s.channel.received
  produced : ∀ result, s.produced = some result → t.produced = some result

theorem Evolves.refl (s : World) : Evolves s s where
  contentLength := rfl
  accepted := Nat.le_refl _
  sent := Nat.le_refl _
  uploadEnded := id
  bodyEnded := id
  sawClosed := id
  notified := id
  frozen := fun _ => ⟨rfl, rfl, rfl⟩
  concluded := fun _ => ⟨rfl, rfl⟩
  produced := fun _ => id

theorem Evolves.trans {s t u : World} (h : Evolves s t) (h' : Evolves t u) : Evolves s u where
  contentLength := h'.contentLength.trans h.contentLength
  accepted := Nat.le_trans h.accepted h'.accepted
  sent := Nat.le_trans h.sent h'.sent
  uploadEnded := fun hs => h'.uploadEnded (h.uploadEnded hs)
  bodyEnded := fun hs => h'.bodyEnded (h.bodyEnded hs)
  sawClosed := fun hs => h'.sawClosed (h.sawClosed hs)
  notified := fun hs => h'.notified (h.notified hs)
  frozen := by
    intro hs
    obtain ⟨hsent, hhanded, hclosed⟩ := h.frozen hs
    obtain ⟨hsent', hhanded', hclosed'⟩ := h'.frozen (h.bodyEnded hs)
    exact ⟨hsent'.trans hsent, hhanded'.trans hhanded, hclosed'.trans hclosed⟩
  concluded := by
    intro hs
    obtain ⟨htask, hreceived⟩ := h.concluded hs
    obtain ⟨htask', hreceived'⟩ := h'.concluded (htask ▸ hs)
    exact ⟨htask'.trans htask, hreceived'.trans hreceived⟩
  produced := fun result hs => h'.produced result (h.produced result hs)

theorem Evolves.finished {s t : World} (h : Evolves s t) {result : Except S3Error Unit}
    (hs : s.task = .finished result) : t.task = .finished result := by
  rw [(h.concluded (by rw [hs]; rfl)).1, hs]

theorem Evolves.failed {s t : World} (h : Evolves s t) {err : JoinError}
    (hs : s.task = .failed err) : t.task = .failed err := by
  rw [(h.concluded (by rw [hs]; rfl)).1, hs]

/-- Nothing is taken behind the end of a task. -/
theorem Evolves.receivedBytes {s t : World} (h : Evolves s t)
    (hs : s.task.isFinished = true) : t.receivedBytes = s.receivedBytes := by
  rw [World.receivedBytes, (h.concluded hs).2]
  rfl

/-- One step: nothing is counted or handed over without a permit, nothing is accepted
while one is held, and a receiver that stopped listening grants no more of them. -/
structure WorldStep (s t : World) : Prop extends Evolves s t where
  permitted : s.channel.reserved = 0 →
    t.state.sent = s.state.sent ∧ t.channel.handed = s.channel.handed
  held : s.channel.reserved ≠ 0 → t.state.accepted = s.state.accepted
  reserved : s.channel.receiver ≠ .listening → t.channel.reserved ≤ s.channel.reserved
  receiver : s.channel.receiver ≠ .listening → t.channel.receiver ≠ .listening

theorem WorldStep.refl (s : World) : WorldStep s s where
  toEvolves := .refl s
  permitted := fun _ => ⟨rfl, rfl⟩
  held := fun _ => rfl
  reserved := fun _ => Nat.le_refl _
  receiver := id

/-- A step of any party that leaves the writer's ledger alone. -/
theorem WorldStep.of_ledger {s t : World} (hledger : t.ledger = s.ledger)
    (huploadEnded : s.state.uploadEnded = true → t.state.uploadEnded = true)
    (hconcluded : s.task.isFinished = true →
      t.task = s.task ∧ t.channel.received = s.channel.received)
    (hproduced : ∀ result, s.produced = some result → t.produced = some result)
    (hreceiver : s.channel.receiver ≠ .listening → t.channel.receiver ≠ .listening) :
    WorldStep s t where
  contentLength := congrArg Ledger.contentLength hledger
  accepted := Nat.le_of_eq (congrArg Ledger.accepted hledger).symm
  sent := Nat.le_of_eq (congrArg Ledger.sent hledger).symm
  uploadEnded := huploadEnded
  bodyEnded := fun hs => (congrArg Ledger.bodyEnded hledger).trans hs
  sawClosed := fun hs => (congrArg Ledger.sawClosed hledger).trans hs
  notified := fun hs => (congrArg Ledger.notified hledger).trans hs
  frozen := fun _ => ⟨congrArg Ledger.sent hledger, congrArg Ledger.handed hledger,
    congrArg Ledger.sawClosed hledger⟩
  concluded := hconcluded
  produced := hproduced
  permitted := fun _ => ⟨congrArg Ledger.sent hledger, congrArg Ledger.handed hledger⟩
  held := fun _ => congrArg Ledger.accepted hledger
  reserved := fun _ => Nat.le_of_eq (congrArg Ledger.reserved hledger)
  receiver := hreceiver

/-- An operation of the writer is a step of the world. -/
theorem WriterGuar.worldStep {limit : Nat} {log : Bytes} {s t : World}
    (h : WriterGuar limit log s t) : WorldStep s t where
  contentLength := h.ledger.contentLength
  accepted := h.ledger.accepted
  sent := h.ledger.sent
  uploadEnded := h.untouched.uploadEnded
  bodyEnded := h.ledger.bodyEnded
  sawClosed := h.ledger.sawClosed
  notified := h.untouched.notified
  frozen := h.ledger.frozen
  concluded := fun _ => ⟨h.untouched.task, h.untouched.received⟩
  produced := fun _ hs => h.untouched.produced.trans hs
  permitted := h.ledger.permitted
  held := h.ledger.held
  reserved := h.untouched.reserved
  receiver := fun hs => h.untouched.receiver ▸ hs

/-- What a step of the upload leaves alone. It takes none once its task has ended. -/
structure UploadGuar (s t : World) : Prop where
  ledger : t.ledger = s.ledger
  uploadEnded : t.state.uploadEnded = s.state.uploadEnded
  produced : t.produced = s.produced
  running : s.task.isFinished = false
  receiver : s.channel.receiver ≠ .listening → t.channel.receiver ≠ .listening

/-- Every step of the upload leaves the writer's ledger alone. -/
theorem World.upload_guar {s t : World} {l : UploadLabel} (h : s.upload l = some t) :
    UploadGuar s t := by
  cases World.transition_of_upload h with
  | bodyStarted htask _ | bodyHadEnded htask _ | bodyOpen htask _ | bodyWhole htask _ =>
    exact ⟨rfl, rfl, rfl, by rw [htask]; rfl, id⟩
  | receive htask hqueue _ =>
    refine ⟨?_, rfl, rfl, by rw [htask]; rfl, id⟩
    simp [World.ledger, Channel.handed, hqueue]
  | bodyShort htask _ | closeReceiver htask _ | dropReceiver htask | answer htask =>
    exact ⟨rfl, rfl, rfl, by rw [htask]; rfl, fun _ => by simp [World.endTask]⟩
  | fail hrunning => exact ⟨rfl, rfl, rfl, hrunning, fun _ => by simp [World.endTask]⟩

/-- A task ends in `Ok` only by an answer to its request. -/
theorem World.upload_ok {s t : World} {l : UploadLabel} (h : s.upload l = some t)
    (ht : t.task = .finished (.ok ())) :
    l = .answer (.ok ()) ∧ t = s.endTask (.finished (.ok ())) := by
  cases World.transition_of_upload h with
  | answer _ =>
    cases ht
    exact ⟨rfl, rfl⟩
  | receive htask _ _ | closeReceiver htask _ | dropReceiver htask => cases htask.symm.trans ht
  | _ => cases ht

theorem UploadGuar.worldStep {s t : World} (h : UploadGuar s t) : WorldStep s t :=
  .of_ledger h.ledger (fun hs => h.uploadEnded.trans hs)
    (fun hs => absurd (h.running.symm.trans hs) (by decide))
    (fun _ hs => h.produced.trans hs) h.receiver

/-- A step of the upload does not disturb the writer. -/
theorem UploadGuar.writerRely {s t : World} (h : UploadGuar s t) : WriterRely s t :=
  ⟨h.ledger, fun hs => h.uploadEnded.trans hs⟩

/-- An operation that only reads changes nothing. -/
theorem World.exec_reads {s t : World} {op : Op} {now : Bool} {r : op.Res}
    (hop : op.reads = true) (h : s.exec op now = some (r, t)) : t = s := by
  cases op with
  | contentLength | loadAccepted | loadSent | loadUploadEnded | loadBodyEnded
  | uploadIsFinished =>
    cases h
    rfl
  | uploadStreamed =>
    simp only [World.exec] at h
    split at h <;> cases h
    rfl
  | joinUpload =>
    simp only [World.exec] at h
    split at h <;> cases h <;> rfl
  | joinProducer =>
    obtain ⟨result, -, hres⟩ := Option.map_eq_some_iff.mp h
    cases hres
    rfl
  | _ => simp [Op.reads] at hop

/-- What the handle's `Drop` leaves alone: it raises `upload_ended` and asks for an abort. -/
structure Cancels (s t : World) : Prop where
  ledger : t.ledger = s.ledger
  uploadEnded : s.state.uploadEnded = true → t.state.uploadEnded = true
  task : t.task = s.task
  produced : t.produced = s.produced
  received : t.channel.received = s.channel.received
  receiver : t.channel.receiver = s.channel.receiver
  bodyStarted : t.state.bodyStarted = s.state.bodyStarted

theorem World.exec_cancels {s t : World} {op : Op} {now : Bool} {r : op.Res}
    (hop : op.cancels) (h : s.exec op now = some (r, t)) : Cancels s t := by
  rcases hop with hreads | rfl | rfl
  · rw [World.exec_reads hreads h]
    exact ⟨rfl, id, rfl, rfl, rfl, rfl, rfl⟩
  · cases h
    exact ⟨rfl, fun _ => rfl, rfl, rfl, rfl, rfl, rfl⟩
  · cases h
    exact ⟨rfl, id, rfl, rfl, rfl, rfl, rfl⟩

theorem Cancels.worldStep {s t : World} (h : Cancels s t) : WorldStep s t :=
  .of_ledger h.ledger h.uploadEnded (fun _ => ⟨h.task, h.received⟩)
    (fun _ hs => h.produced.trans hs) (fun hs => h.receiver ▸ hs)

end MyS3.Upload
