import MyS3.Storage.Upload
import MyS3.Upload.EarlyAnswer

/-!
# Streamed uploads into one storage

Any number of streamed uploads run against one storage, each with its writer, its task and its
handle. All of them interleave: the storage reads what has arrived of a body, writes and answers,
while the parties of every upload take their steps. What is stored is always whole.
-/

namespace MyS3.Storage

open Xml (bytesOf bytesOf_injective)
open Interleaving
open Client
open Upload (Label Sys)

/-- One streamed upload that somebody makes. -/
structure Uploader where
  s3 : S3Client
  bucketName : String
  key : String
  contentLength : Nat
  chunkSize : Nat
  uploadTimeout : Nat

/-- The request behind it. -/
def Uploader.operation (P : Platform) (uploader : Uploader) (timestamp : Bytes) : Operation Unit :=
  uploadStreamed P uploader.s3 timestamp uploader.bucketName uploader.key uploader.contentLength
    uploader.uploadTimeout

/-- The uploads, the storage, and for a request that reached it the answer, if it has one.
`order` is history: whose requests reached the storage, one after the other. -/
structure Fleet (ι : Type) where
  uploads : ι → Sys
  state : State
  served : ι → Option (Option Written)
  order : List ι

/-- Whether a step gives the request of an upload its result. -/
def answers : Label → Bool
  | .upload (.answer _) => true
  | _ => false

variable {ι : Type} {P : Platform} {H : Hashes} {secretKey : String} {uploaders : ι → Uploader}
  {allowed : Reply → Prop} {fleet next begun : Fleet ι} {i : ι} {urls : ι → UrlBuilder}
  {head : Head} {arrived path : Bytes}

/-- What the bytes that an upload has taken from its writer are. -/
def Fleet.taken (fleet : Fleet ι) (i : ι) : Bytes :=
  (fleet.uploads i).world.channel.received.flatten

/-- What `upload_streamed` comes to: its request is not made, fails on its way, or is answered. -/
inductive Fleet.Concludes (P : Platform) (uploaders : ι → Uploader) (fleet : Fleet ι) (i : ι) :
    Except S3Error Unit → Prop
  | unsent {timestamp : Bytes} {err : S3Error}
      (hrequest : ((uploaders i).operation P timestamp).request = .error err) :
      Concludes P uploaders fleet i (.error err)
  | failed (err : FlUrlError) : Concludes P uploaders fleet i (.error (.flUrlError err))
  | read {written : Written} {response : FlUrlResponse}
      (hserved : fleet.served i = some (some written)) (hreads : Reads written response) :
      Concludes P uploaders fleet i (expectSuccess P.xml response)

/-- A request of an upload, as it stands before the storage: it was not there before, and what
arrives of its body is the front of what was taken from the writer. -/
structure Fleet.Arrives (P : Platform) (uploaders : ι → Uploader) (fleet : Fleet ι) (i : ι)
    (head : Head) (arrived : Bytes) : Prop where
  task : (fleet.uploads i).world.task = .requesting
  once : fleet.served i = none
  request : ∃ timestamp request content,
    ((uploaders i).operation P timestamp).request = .ok request ∧ request.body.Sends content ∧
      Carries request content head
  arrived : arrived <+: fleet.taken i

/-- Every upload has just begun, and no request has reached the storage. -/
structure Fleet.Begun (uploaders : ι → Uploader) (fleet : Fleet ι) : Prop where
  started : ∀ i, (fleet.uploads i).Started (uploaders i).bucketName (uploaders i).key
    (uploaders i).contentLength (uploaders i).chunkSize
  served : ∀ i, fleet.served i = none
  order : fleet.order = []

/-- A path holds the whole body of an upload. -/
def Fleet.Holds (uploaders : ι → Uploader) (fleet : Fleet ι) (i : ι) (path : Bytes) : Prop :=
  ∃ content, fleet.state.uploaded.lookup path = some content ∧
    content.length = (uploaders i).contentLength ∧ content <+: fleet.taken i

/-- A step of an upload only adds to what it has taken. -/
theorem received_prefix {limit contentLength : Nat} {σ σ' : Sys} {l : Label}
    (h : σ.Inv limit contentLength) (hstep : σ.step l = some σ') :
    σ.world.channel.received.flatten <+: σ'.world.channel.received.flatten := by
  have hchange := h.change hstep
  generalize σ'.world = t at hchange ⊢
  cases hchange with
  | nothing => exact List.prefix_refl _
  | writer hg => rw [hg.untouched.received]
  | upload hup =>
    cases Upload.World.transition_of_upload hup with
    | receive _ _ _ =>
      rw [List.flatten_append]
      exact List.prefix_append _ _
    | _ => exact List.prefix_refl _
  | produce hp => exact List.prefix_refl _
  | cancel hc => rw [hc.received]

/-- What the storage reads of a request of an upload. -/
theorem Fleet.Arrives.reads (h : fleet.Arrives P uploaders i head arrived)
    (hF : P.segmentUrl.Faithful)
    (hurl : objectUrl P (uploaders i).s3 (uploaders i).bucketName (uploaders i).key =
      .ok (urls i)) :
    pathOf head.target = (urls i).path ∧ head.isMethod "PUT" = true ∧
      head.contentLength = (uploaders i).contentLength := by
  obtain ⟨timestamp, request, content, hrequest, hsends, hcarries⟩ := h.request
  simp only [Uploader.operation, uploadStreamed, hurl] at hrequest
  cases hrequest
  refine ⟨?_, ?_, ?_⟩
  · rw [hcarries.target]
    exact pathOf_target (hF.path hurl)
  · have hmethod : head.method = "PUT" := bytesOf_injective hcarries.method
    rw [Head.isMethod, hmethod]
    decide
  · exact hcarries.contentLength.trans hsends

/-- A body that is held stays the front of what is taken. -/
theorem Fleet.Holds.mono (h : fleet.Holds uploaders i path)
    (hlookup : next.state.uploaded.lookup path = fleet.state.uploaded.lookup path)
    (htaken : fleet.taken i <+: next.taken i) : next.Holds uploaders i path := by
  obtain ⟨content, hheld, hlength, hprefix⟩ := h
  exact ⟨content, hlookup.trans hheld, hlength, hprefix.trans htaken⟩

/-- A path holds the whole body of one of the uploads to it. -/
def Fleet.HoldsOne (uploaders : ι → Uploader) (urls : ι → UrlBuilder) (fleet : Fleet ι)
    (path : Bytes) : Prop :=
  ∃ i, (urls i).path = path ∧ fleet.Holds uploaders i path

/-- The request of an upload has reached the storage, and its path holds its whole body or that of
an upload whose request came behind. -/
def Fleet.HoldsSince (uploaders : ι → Uploader) (urls : ι → UrlBuilder) (fleet : Fleet ι)
    (i : ι) : Prop :=
  ∃ before after, fleet.order = before ++ i :: after ∧
    ∃ j ∈ i :: after, (urls j).path = (urls i).path ∧ fleet.Holds uploaders j (urls i).path

theorem Fleet.HoldsSince.mono (h : fleet.HoldsSince uploaders urls i)
    (horder : next.order = fleet.order)
    (hlookup : next.state.uploaded.lookup (urls i).path = fleet.state.uploaded.lookup (urls i).path)
    (htaken : ∀ j, fleet.taken j <+: next.taken j) : next.HoldsSince uploaders urls i := by
  obtain ⟨before, after, hserved, j, hj, hpath, hholds⟩ := h
  exact ⟨before, after, horder.trans hserved, j, hj, hpath, hholds.mono hlookup (htaken j)⟩

theorem Fleet.HoldsOne.mono (h : fleet.HoldsOne uploaders urls path)
    (hlookup : next.state.uploaded.lookup path = fleet.state.uploaded.lookup path)
    (htaken : ∀ i, fleet.taken i <+: next.taken i) : next.HoldsOne uploaders urls path := by
  obtain ⟨i, hpath, hholds⟩ := h
  exact ⟨i, hpath, hholds.mono hlookup (htaken i)⟩

/-- What every run keeps: each upload is in a state of its own runs, and each path holds what it
held or the whole body of an upload. -/
structure Fleet.Inv (uploaders : ι → Uploader) (urls : ι → UrlBuilder) (fleet begun : Fleet ι) :
    Prop where
  reached : ∀ i, Reaches Sys.step anyLabel (begun.uploads i) (fleet.uploads i)
  whole : ∀ path, fleet.state.uploaded.lookup path = begun.state.uploaded.lookup path ∨
    fleet.HoldsOne uploaders urls path

theorem Fleet.Inv.sys (h : fleet.Inv uploaders urls begun) (hbegun : begun.Begun uploaders)
    (i : ι) :
    (fleet.uploads i).Inv (max (uploaders i).chunkSize 1) (uploaders i).contentLength :=
  (hbegun.started i).inv.run (h.reached i)

/-- A request of an upload writes to no other path. -/
theorem Fleet.Arrives.lookup_ne (h : fleet.Arrives P uploaders i head arrived)
    (hF : P.segmentUrl.Faithful)
    (hurl : objectUrl P (uploaders i).s3 (uploaders i).bucketName (uploaders i).key = .ok (urls i))
    (hne : path ≠ (urls i).path) :
    (fleet.state.exchange H secretKey head arrived).1.uploaded.lookup path =
      fleet.state.uploaded.lookup path := by
  obtain ⟨hpath, -, -⟩ := h.reads hF hurl
  cases fleet.state.keeps H secretKey head arrived with
  | stored hmethod hwhole huploaded => rw [huploaded, hpath, AList.lookup_insert_ne hne]
  | unchanged huploaded hrefused => rw [huploaded]

/-- To its own path it writes its whole body, or nothing, and then it is not told otherwise. -/
theorem Fleet.Arrives.lookup_self (H : Hashes) (secretKey : String)
    (h : fleet.Arrives P uploaders i head arrived)
    (hF : P.segmentUrl.Faithful)
    (hurl : objectUrl P (uploaders i).s3 (uploaders i).bucketName (uploaders i).key = .ok (urls i))
    (served : ι → Option (Option Written)) :
    Fleet.Holds uploaders
        { fleet with
          state := (fleet.state.exchange H secretKey head arrived).1
          served := served
          order := fleet.order ++ [i] }
        i (urls i).path ∨
      (fleet.state.exchange H secretKey head arrived).1.uploaded = fleet.state.uploaded ∧
        (fleet.state.NoEarlySuccess → fleet.state.arm.2.wanted head.contentLength ≤ arrived.length →
          ∀ written, (fleet.state.exchange H secretKey head arrived).2 = some written →
            isSuccess written.statusCode = false) := by
  obtain ⟨hpath, hmethod, hlength⟩ := h.reads hF hurl
  cases fleet.state.keeps H secretKey head arrived with
  | stored _ hwhole huploaded =>
    refine .inl ⟨arrived.take head.contentLength, ?_, hwhole.trans hlength,
      (List.take_prefix _ _).trans h.arrived⟩
    simp only [huploaded, hpath, AList.lookup_insert]
  | unchanged huploaded hrefused =>
    exact .inr ⟨huploaded, fun hearly hwaited => hrefused hearly hmethod hwaited⟩

/-- So a path holds what it held in front of a request, or it is its own and holds its body. -/
theorem Fleet.Arrives.lookup (H : Hashes) (secretKey : String)
    (h : fleet.Arrives P uploaders i head arrived)
    (hF : P.segmentUrl.Faithful)
    (hurl : objectUrl P (uploaders i).s3 (uploaders i).bucketName (uploaders i).key = .ok (urls i))
    (served : ι → Option (Option Written)) (path : Bytes) :
    (fleet.state.exchange H secretKey head arrived).1.uploaded.lookup path =
        fleet.state.uploaded.lookup path ∨
      (urls i).path = path ∧ Fleet.Holds uploaders
        { fleet with
          state := (fleet.state.exchange H secretKey head arrived).1
          served := served
          order := fleet.order ++ [i] }
        i path := by
  by_cases hpath : path = (urls i).path
  · subst hpath
    rcases h.lookup_self H secretKey hF hurl served with hholds | ⟨huploaded, -⟩
    · exact .inr ⟨rfl, hholds⟩
    · exact .inl (by rw [huploaded])
  · exact .inl (h.lookup_ne hF hurl hpath)

/-- A whole body gives way only to one whose request came behind. -/
theorem Fleet.HoldsSince.exchange {j : ι} (h : fleet.HoldsSince uploaders urls j)
    (hF : P.segmentUrl.Faithful)
    (hurl : ∀ i, objectUrl P (uploaders i).s3 (uploaders i).bucketName (uploaders i).key =
      .ok (urls i))
    (harrives : fleet.Arrives P uploaders i head arrived) (served : ι → Option (Option Written)) :
    Fleet.HoldsSince uploaders urls
      { fleet with
        state := (fleet.state.exchange H secretKey head arrived).1
        served := served
        order := fleet.order ++ [i] }
      j := by
  obtain ⟨before, after, hserved, k, hk, hpath, hholds⟩ := h
  refine ⟨before, after ++ [i], ?_, ?_⟩
  · simp only [hserved, List.append_assoc, List.cons_append]
  · rcases harrives.lookup H secretKey hF (hurl i) served (urls j).path with
      hsame | ⟨hown, hholds'⟩
    · exact ⟨k, List.mem_append_left [i] hk, hpath,
        hholds.mono hsame (List.prefix_refl _)⟩
    · exact ⟨i, List.mem_append_right (j :: after) (List.mem_singleton_self i), hown, hholds'⟩

/-- Serving a request of an upload keeps what every run keeps. -/
theorem Fleet.Inv.exchange (h : fleet.Inv uploaders urls begun) (hF : P.segmentUrl.Faithful)
    (hurl : ∀ i, objectUrl P (uploaders i).s3 (uploaders i).bucketName (uploaders i).key =
      .ok (urls i))
    (harrives : fleet.Arrives P uploaders i head arrived) (served : ι → Option (Option Written)) :
    Fleet.Inv uploaders urls
      { fleet with
        state := (fleet.state.exchange H secretKey head arrived).1
        served := served
        order := fleet.order ++ [i] }
      begun := by
  refine ⟨h.reached, fun path => ?_⟩
  rcases harrives.lookup H secretKey hF (hurl i) served path with
    hsame | hholds
  · rcases h.whole path with hold | hone
    · exact .inl (hsame.trans hold)
    · exact .inr (hone.mono hsame fun _ => List.prefix_refl _)
  · exact .inr ⟨i, hholds⟩

/-- What is taken from a writer is the front of what it acknowledged and is about to. -/
theorem Fleet.Inv.taken (h : fleet.Inv uploaders urls begun) (hbegun : begun.Begun uploaders)
    (i : ι) : fleet.taken i <+: (fleet.uploads i).acked ++ (fleet.uploads i).offered := by
  refine List.IsPrefix.trans ?_ (h.sys hbegun i).sound.within
  simp only [Fleet.taken, Upload.World.ledger, Upload.Channel.handed, List.flatten_append]
  exact List.prefix_append _ _

/-- What a path holds of an upload, in terms of its writer. -/
def Fleet.Stores (uploaders : ι → Uploader) (fleet : Fleet ι) (i : ι) (content : Bytes) : Prop :=
  content.length = (uploaders i).contentLength ∧
    content <+: (fleet.uploads i).acked ++ (fleet.uploads i).offered ∧
    ((fleet.uploads i).offered = [] → content = (fleet.uploads i).acked)

/-- What is held of an upload is what its writer took. -/
theorem Fleet.Holds.stores (h : fleet.Holds uploaders i path)
    (hinv : fleet.Inv uploaders urls begun) (hbegun : begun.Begun uploaders) :
    ∃ content, fleet.state.uploaded.lookup path = some content ∧
      fleet.Stores uploaders i content := by
  obtain ⟨content, hheld, hlength, hprefix⟩ := h
  have hinvi := hinv.sys hbegun i
  have hwithin := hprefix.trans (hinv.taken hbegun i)
  refine ⟨content, hheld, hlength, hwithin, fun hoffered => ?_⟩
  rw [hoffered, List.append_nil] at hwithin
  apply hwithin.eq_of_length_le
  have hlogged := hinvi.logged
  have hcap : (fleet.uploads i).world.state.accepted ≤
      (fleet.uploads i).world.state.contentLength := hinvi.sound.capped
  rw [hinvi.length] at hcap
  omega

section Steps

variable [DecidableEq ι]

/-- One step of anybody. -/
inductive Fleet.Step (P : Platform) (H : Hashes) (secretKey : String) (uploaders : ι → Uploader)
    (allowed : Reply → Prop) (fleet : Fleet ι) : Fleet ι → Prop
  /-- A step of a writer, of a handle or of the task around a request. -/
  | moves {i : ι} {l : Label} {σ : Sys} (hl : answers l = false)
      (hstep : (fleet.uploads i).step l = some σ) :
      Step P H secretKey uploaders allowed fleet
        { fleet with uploads := Function.update fleet.uploads i σ }
  /-- Everything has arrived that the storage waits for. -/
  | served {i : ι} {head : Head} {arrived : Bytes} (h : fleet.Arrives P uploaders i head arrived)
      (hwaited : fleet.state.arm.2.wanted head.contentLength ≤ arrived.length) :
      Step P H secretKey uploaders allowed fleet
        { fleet with
          state := (fleet.state.exchange H secretKey head arrived).1
          served := Function.update fleet.served i
            (some (fleet.state.exchange H secretKey head arrived).2)
          order := fleet.order ++ [i] }
  /-- The connection ends in front of that, and an answer would find nobody. -/
  | cut {i : ι} {head : Head} {arrived : Bytes} (h : fleet.Arrives P uploaders i head arrived) :
      Step P H secretKey uploaders allowed fleet
        { fleet with
          state := (fleet.state.exchange H secretKey head arrived).1
          served := Function.update fleet.served i (some none)
          order := fleet.order ++ [i] }
  /-- The request has its result. -/
  | answered {i : ι} {result : Except S3Error Unit} {σ : Sys}
      (hresult : fleet.Concludes P uploaders i result)
      (hstep : (fleet.uploads i).step (.upload (.answer result)) = some σ) :
      Step P H secretKey uploaders allowed fleet
        { fleet with uploads := Function.update fleet.uploads i σ }
  /-- The storage is prepared for requests to come. -/
  | prepared (objects : Paths) (replies : List Reply) (abortAfter : Option Nat)
      (answerAfter : Option (Nat × Reply))
      (hallowed : ∀ afterBytes reply, answerAfter = some (afterBytes, reply) → allowed reply) :
      Step P H secretKey uploaders allowed fleet
        { fleet with
          state := { fleet.state with
            objects := objects
            replies := replies
            abortAfter := abortAfter
            answerAfter := answerAfter } }

/-- A step of one upload adds to what it has taken, and to nothing else. -/
theorem Fleet.taken_update {limit contentLength : Nat} {l : Label} {σ : Sys}
    (hinv : (fleet.uploads i).Inv limit contentLength)
    (hstep : (fleet.uploads i).step l = some σ) (j : ι) :
    fleet.taken j <+:
      Fleet.taken { fleet with uploads := Function.update fleet.uploads i σ } j := by
  unfold taken
  by_cases hj : j = i
  · subst hj
    simp only [Function.update_self]
    exact received_prefix hinv hstep
  · simp only [Function.update_of_ne hj]
    exact List.prefix_refl _

/-- The parties of an upload leave the storage alone. -/
theorem Fleet.Inv.update (h : fleet.Inv uploaders urls begun) (hbegun : begun.Begun uploaders)
    {l : Label} {σ : Sys} (hstep : (fleet.uploads i).step l = some σ) :
    Fleet.Inv uploaders urls { fleet with uploads := Function.update fleet.uploads i σ } begun := by
  constructor
  · intro j
    by_cases hj : j = i
    · subst hj
      simp only [Function.update_self]
      exact (h.reached j).tail ⟨l, rfl, hstep⟩
    · simp only [Function.update_of_ne hj]
      exact h.reached j
  · intro path
    rcases h.whole path with hold | hone
    · exact .inl hold
    · exact .inr (hone.mono rfl (taken_update (h.sys hbegun i) hstep))

/-- Every step keeps it. -/
theorem Fleet.Inv.step (h : fleet.Inv uploaders urls begun) (hbegun : begun.Begun uploaders)
    (hF : P.segmentUrl.Faithful)
    (hurl : ∀ i, objectUrl P (uploaders i).s3 (uploaders i).bucketName (uploaders i).key =
      .ok (urls i))
    (hstep : fleet.Step P H secretKey uploaders allowed next) : next.Inv uploaders urls begun := by
  cases hstep with
  | moves hl hstep => exact h.update hbegun hstep
  | served harrives hwaited => exact h.exchange hF hurl harrives _
  | cut harrives => exact h.exchange hF hurl harrives _
  | answered hresult hstep => exact h.update hbegun hstep
  | prepared objects replies abortAfter answerAfter hallowed => exact ⟨h.reached, h.whole⟩

/-- What an upload is told of its success: its path holds the whole body of an upload, its own or
one whose request came behind. -/
structure Fleet.Told (uploaders : ι → Uploader) (urls : ι → UrlBuilder) (fleet : Fleet ι) :
    Prop where
  early : fleet.state.NoEarlySuccess
  served : ∀ i written, fleet.served i = some (some written) →
    isSuccess written.statusCode = true → fleet.HoldsSince uploaders urls i
  finished : ∀ i, (fleet.uploads i).world.task = .finished (.ok ()) →
    fleet.HoldsSince uploaders urls i

/-- A step of the parties of an upload keeps that, if a success that it gives is true. -/
theorem Fleet.Told.update (h : fleet.Told uploaders urls) (hinv : fleet.Inv uploaders urls begun)
    (hbegun : begun.Begun uploaders) {l : Label} {σ : Sys}
    (hstep : (fleet.uploads i).step l = some σ)
    (htrue : l = .upload (.answer (.ok ())) → fleet.HoldsSince uploaders urls i) :
    Fleet.Told uploaders urls { fleet with uploads := Function.update fleet.uploads i σ } := by
  have htaken := taken_update (hinv.sys hbegun i) hstep
  refine ⟨h.early, fun j written hserved hsuccess => ?_, fun j htask => ?_⟩
  · exact (h.served j written hserved hsuccess).mono rfl rfl htaken
  · by_cases hj : j = i
    · subst hj
      simp only [Function.update_self] at htask
      rcases (hinv.sys hbegun j).task_or_upload hstep with hsame | ⟨ul, rfl, hup⟩
      · exact (h.finished j (hsame.symm.trans htask)).mono rfl rfl htaken
      · obtain ⟨rfl, -⟩ := Upload.World.upload_ok hup htask
        exact (htrue rfl).mono rfl rfl htaken
    · simp only [Function.update_of_ne hj] at htask
      exact (h.finished j htask).mono rfl rfl htaken

/-- So does serving a request, of which nothing is told but what the storage says of it. -/
theorem Fleet.Told.exchange (h : fleet.Told uploaders urls) (hF : P.segmentUrl.Faithful)
    (hurl : ∀ i, objectUrl P (uploaders i).s3 (uploaders i).bucketName (uploaders i).key =
      .ok (urls i)) {answer : Option Written}
    (harrives : fleet.Arrives P uploaders i head arrived)
    (htold : ∀ written, answer = some written →
      fleet.state.arm.2.wanted head.contentLength ≤ arrived.length ∧
        (fleet.state.exchange H secretKey head arrived).2 = some written) :
    Fleet.Told uploaders urls { fleet with
      state := (fleet.state.exchange H secretKey head arrived).1
      served := Function.update fleet.served i (some answer)
      order := fleet.order ++ [i] } := by
  have hearly := fleet.state.noEarlySuccess_exchange H secretKey head arrived
  have hkept : ∀ {j}, fleet.HoldsSince uploaders urls j → Fleet.HoldsSince uploaders urls
      { fleet with
        state := (fleet.state.exchange H secretKey head arrived).1
        served := Function.update fleet.served i (some answer)
        order := fleet.order ++ [i] } j :=
    fun hholds => hholds.exchange hF hurl harrives _
  refine ⟨hearly, fun j written hserved hsuccess => ?_, fun j htask => hkept (h.finished j htask)⟩
  by_cases hj : j = i
  · subst hj
    simp only [Function.update_self, Option.some.injEq] at hserved
    obtain ⟨hwaited, hwritten⟩ := htold written hserved
    rcases harrives.lookup_self H secretKey hF (hurl j) _ with hholds | ⟨-, hrefused⟩
    · exact ⟨fleet.order, [], rfl, j, List.mem_singleton_self j, rfl, hholds⟩
    · have hfailed := hrefused h.early hwaited written hwritten
      rw [hsuccess] at hfailed
      cases hfailed
  · simp only [Function.update_of_ne hj] at hserved
    exact hkept (h.served j written hserved hsuccess)

/-- Every step keeps it, where no success is given in front of the body. -/
theorem Fleet.Told.step (h : fleet.Told uploaders urls) (hinv : fleet.Inv uploaders urls begun)
    (hbegun : begun.Begun uploaders) (hF : P.segmentUrl.Faithful)
    (hurl : ∀ i, objectUrl P (uploaders i).s3 (uploaders i).bucketName (uploaders i).key =
      .ok (urls i))
    (hallowed : ∀ reply, allowed reply → isSuccess reply.statusCode = false)
    (hstep : fleet.Step P H secretKey uploaders allowed next) : next.Told uploaders urls := by
  cases hstep with
  | moves hl hstep =>
    apply h.update hinv hbegun hstep
    rintro rfl
    cases hl
  | served harrives hwaited =>
    exact h.exchange hF hurl harrives fun _ hwritten => ⟨hwaited, hwritten⟩
  | cut harrives => exact h.exchange hF hurl harrives nofun
  | answered hresult hstep =>
    apply h.update hinv hbegun hstep
    intro hlabel
    cases hlabel
    generalize hok : (Except.ok () : Except S3Error Unit) = result at hresult
    cases hresult with
    | unsent hrequest => cases hok
    | failed err => cases hok
    | read hserved hreads =>
      apply h.served _ _ hserved
      rw [← hreads.statusCode]
      exact status_of_expectSuccess hok.symm
  | prepared objects replies abortAfter answerAfter hprepared =>
    refine ⟨fun afterBytes reply hreply => ?_, h.served, h.finished⟩
    exact hallowed reply (hprepared afterBytes reply hreply)

/-- It holds in every state of every run. -/
theorem Fleet.Begun.inv (hbegun : begun.Begun uploaders) (hF : P.segmentUrl.Faithful)
    (hurl : ∀ i, objectUrl P (uploaders i).s3 (uploaders i).bucketName (uploaders i).key =
      .ok (urls i))
    (hrun : Relation.ReflTransGen (Fleet.Step P H secretKey uploaders allowed) begun fleet) :
    fleet.Inv uploaders urls begun := by
  induction hrun with
  | refl => exact ⟨fun i => .refl, fun path => .inl rfl⟩
  | tail _ hstep ih => exact ih.step hbegun hF hurl hstep

/-- And so does what is told, of every run that starts without a success that comes too early. -/
theorem Fleet.Begun.told (hbegun : begun.Begun uploaders) (hF : P.segmentUrl.Faithful)
    (hurl : ∀ i, objectUrl P (uploaders i).s3 (uploaders i).bucketName (uploaders i).key =
      .ok (urls i))
    (hallowed : ∀ reply, allowed reply → isSuccess reply.statusCode = false)
    (hearly : begun.state.NoEarlySuccess)
    (hrun : Relation.ReflTransGen (Fleet.Step P H secretKey uploaders allowed) begun fleet) :
    fleet.Told uploaders urls := by
  induction hrun with
  | refl =>
    refine ⟨hearly, fun i written hserved => ?_, fun i htask => ?_⟩
    · rw [hbegun.served i] at hserved
      cases hserved
    · rcases hbegun.started i with hstart | hstart <;> rw [hstart] at htask <;> cases htask
  | tail hrun hstep ih => exact ih.step (hbegun.inv hF hurl hrun) hbegun hF hurl hallowed hstep

/-- Streamed uploads never leave a part of a body behind. In every interleaving of the parties of
all of them with the storage, with requests that are cut off, refused, answered early or left
without an answer, each path holds what it held or the whole body of one upload, byte for byte as
its writer took it. An upload that reports success has reached the storage and has its body there,
or that of one to the same path that came behind it, unless the storage was prepared to report a
success before the body was in. -/
theorem fleet_stores_whole (hF : P.segmentUrl.Faithful)
    (hurl : ∀ i, objectUrl P (uploaders i).s3 (uploaders i).bucketName (uploaders i).key =
      .ok (urls i))
    (hbegun : begun.Begun uploaders)
    (hrun : Relation.ReflTransGen (Fleet.Step P H secretKey uploaders allowed) begun fleet) :
    (∀ path, fleet.state.uploaded.lookup path = begun.state.uploaded.lookup path ∨
      ∃ i content, (urls i).path = path ∧ fleet.state.uploaded.lookup path = some content ∧
        fleet.Stores uploaders i content) ∧
    ((∀ reply, allowed reply → isSuccess reply.statusCode = false) → begun.state.NoEarlySuccess →
      ∀ i, (fleet.uploads i).verdict = some (.ok ()) →
        ∃ before after, fleet.order = before ++ i :: after ∧
          ∃ j ∈ i :: after, (urls j).path = (urls i).path ∧
            ∃ content, fleet.state.uploaded.lookup (urls i).path = some content ∧
              fleet.Stores uploaders j content) := by
  have hinv := hbegun.inv hF hurl hrun
  refine ⟨fun path => ?_, fun hallowed hearly i hverdict => ?_⟩
  · refine (hinv.whole path).imp_right fun ⟨i, hpath, hholds⟩ => ?_
    obtain ⟨content, hstores⟩ := hholds.stores hinv hbegun
    exact ⟨i, content, hpath, hstores⟩
  · have htold := hbegun.told hF hurl hallowed hearly hrun
    obtain ⟨htask, -, -⟩ := Upload.stored_of_verdict (hbegun.started i) (hinv.reached i) hverdict
    obtain ⟨before, after, hserved, j, hj, hpath, hholds⟩ := htold.finished i htask
    exact ⟨before, after, hserved, j, hj, hpath, hholds.stores hinv hbegun⟩

/-- Steps of one upload, none of which gives its request a result. -/
theorem Fleet.moves_of_reaches {σ : Sys}
    (h : Reaches Sys.step (fun _ l => !answers l) (fleet.uploads i) σ) :
    Relation.ReflTransGen (Fleet.Step P H secretKey uploaders allowed) fleet
      { fleet with uploads := Function.update fleet.uploads i σ } := by
  induction h with
  | refl => rw [Function.update_eq_self]
  | tail _ hmove ih =>
    rename_i τ σ _
    obtain ⟨l, hl, hstep⟩ := hmove
    have hthere : (Function.update fleet.uploads i τ i).step l = some σ := by
      rw [Function.update_self]
      exact hstep
    have hmoves : Fleet.Step P H secretKey uploaders allowed
        { fleet with uploads := Function.update fleet.uploads i τ } _ :=
      .moves (by simpa using hl) hthere
    rw [Function.update_idem] at hmoves
    exact ih.tail hmoves

end Steps

/-- One upload of two bytes, which arrive, are answered and are settled. -/
theorem fleet_stores_whole_two :
    let uploaders : Unit → Uploader := fun _ => ⟨plainClient, "b", "k", 2, 5, 1000⟩
    ∃ begun fleet : Fleet Unit, begun.Begun uploaders ∧
      Relation.ReflTransGen (Fleet.Step plainPlatform plainPlatform.hashes "secret" uploaders
        fun _ => False) begun fleet ∧
      (fleet.uploads ()).verdict = some (.ok ()) ∧
      fleet.state.uploaded.lookup plainUrl.path = some [1, 2] := by
  intro uploaders
  let begun : Fleet Unit := ⟨fun _ => .startUpload "b" "k" 2 5, .start, fun _ => none, []⟩
  let taken := runTo Sys.step (fun _ l => !answers l)
    (Upload.writtenAndFlushed ++ [.upload .receive]) (.startUpload "b" "k" 2 5)
  have hbegun : begun.Begun uploaders := ⟨fun _ => .inl rfl, fun _ => rfl, rfl⟩
  have hquiet : Quiet ∅ State.start := ⟨rfl, rfl, rfl, rfl, nofun⟩
  obtain ⟨request, hrequest, hsends, htext⟩ : ∃ request,
      ((uploaders ()).operation plainPlatform (bytesOf "20240701T123456Z")).request = .ok request ∧
      request.body.Sends [1, 2] ∧ IsText request := by
    simp only [Uploader.operation, uploadStreamed, uploaders]
    rw [show objectUrl plainPlatform plainClient "b" "k" = _ from objectUrl_plain]
    exact ⟨_, rfl, rfl, by decide +kernel⟩
  have hcarries : Carries request [1, 2] (headOf request [1, 2]) := carries_headOf (by decide) htext
  let arrived : Fleet Unit := { begun with uploads := Function.update begun.uploads () taken }
  have harrived : Relation.ReflTransGen (Fleet.Step plainPlatform plainPlatform.hashes "secret"
      uploaders fun _ => False) begun arrived :=
    Fleet.moves_of_reaches (reaches_runTo (by decide))
  have harrives : arrived.Arrives plainPlatform uploaders () (headOf request [1, 2]) [1, 2] :=
    ⟨rfl, rfl, ⟨_, request, [1, 2], hrequest, hsends, hcarries⟩, by decide⟩
  let exchanged := State.start.exchange plainPlatform.hashes "secret" (headOf request [1, 2]) [1, 2]
  let served : Fleet Unit :=
    { arrived with
      state := exchanged.1
      served := Function.update begun.served () (some exchanged.2)
      order := [()] }
  have hserved : Fleet.Step plainPlatform plainPlatform.hashes "secret" uploaders (fun _ => False)
      arrived served := .served harrives (Nat.le_of_eq hcarries.contentLength)
  have hwritten : exchanged.2 = _ := hquiet.writes
  rw [serveFromObjects_empty, Option.getD_none] at hwritten
  have hsuccess := expectSuccess_emptyOk plainPlatform.xml
  have hresult : served.Concludes plainPlatform uploaders () (.ok ()) := by
    rw [← hsuccess ((headOf request [1, 2]).isMethod "HEAD")]
    exact .read (congrArg some hwritten) (reads_responseOf _)
  let answered := runTo Sys.step anyLabel [.upload (.answer (.ok ()))] taken
  have hanswered : Fleet.Step plainPlatform plainPlatform.hashes "secret" uploaders (fun _ => False)
      served { served with uploads := Function.update served.uploads () answered } :=
    .answered hresult rfl
  have hsettled : Reaches Sys.step (fun _ l => !answers l) answered
      (runTo Sys.step (fun _ l => !answers l) Upload.finished answered) :=
    reaches_runTo (by decide)
  have hfinished : Relation.ReflTransGen (Fleet.Step plainPlatform plainPlatform.hashes "secret"
      uploaders fun _ => False)
      { served with uploads := Function.update served.uploads () answered } _ :=
    Fleet.moves_of_reaches (i := ()) hsettled
  have hrun := ((harrived.tail hserved).tail hanswered).trans hfinished
  have hverdict : (Sys.verdict (runTo Sys.step (fun _ l => !answers l) Upload.finished answered)) =
      some (.ok ()) := rfl
  obtain ⟨_, _, -, _, -, -, content, hheld, -, -, hall⟩ := (fleet_stores_whole
    encodedSegmentsUrl_faithful (fun _ => objectUrl_plain) hbegun hrun).2 (fun _ h => h.elim)
    nofun () hverdict
  have hcontent : content = [1, 2] := hall rfl
  rw [hcontent] at hheld
  exact ⟨begun, _, hbegun, hrun, hverdict, hheld⟩

end MyS3.Storage
