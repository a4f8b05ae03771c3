import MyS3.Core.Program

/-!
# Rely-guarantee reasoning for interleaved programs

A contract fixes what the environment may do between two operations of a thread
and what every operation of the thread promises in return. The weakest
precondition below quantifies over all interference, so a program is verified
once and its result holds in every interleaving, the one without interference
included.
-/

namespace Interleaving

/-- What a thread relies on and what each of its operations guarantees. The rely
relation is closed under doing nothing and doing more. -/
structure Contract (σ : Type) where
  rely : σ → σ → Prop
  guar : σ → σ → Prop
  rely_refl : ∀ s, rely s s
  rely_trans : ∀ {s t u}, rely s t → rely t u → rely s u

namespace Program

variable {Op : Type} {Res : Op → Type} {σ ι α β : Type}

/-- The weakest precondition under interference: every enabled operation keeps the
guarantee, and the rest is safe wherever the environment goes next. -/
def wp (exec : Semantics Res σ ι) (C : Contract σ) :
    Program Res α → (α → σ → Prop) → σ → Prop
  | .pure a, post, s => post a s
  | .step op next, post, s => ∀ c r t, exec s op c = some (r, t) →
      C.guar s t ∧ ∀ u, C.rely t u → (next r).wp exec C post u

/-- A suspended thread is safe when its weakest precondition survives interference. -/
def Safe (exec : Semantics Res σ ι) (C : Contract σ) (p : Program Res α)
    (post : α → σ → Prop) (s : σ) : Prop :=
  ∀ t, C.rely s t → p.wp exec C post t

variable {exec : Semantics Res σ ι} {C : Contract σ}

/-- Sequencing composes weakest preconditions. -/
theorem wp_bind (p : Program Res α) (f : α → Program Res β)
    (post : β → σ → Prop) (s : σ) :
    (p >>= f).wp exec C post s ↔ p.wp exec C (fun a t => (f a).wp exec C post t) s := by
  change (p.bind f).wp exec C post s ↔ _
  induction p generalizing s with
  | pure a => rfl
  | step op next ih =>
    constructor
    · intro h c r t he
      exact ⟨(h c r t he).1, fun u hu => (ih r u).mp ((h c r t he).2 u hu)⟩
    · intro h c r t he
      exact ⟨(h c r t he).1, fun u hu => (ih r u).mpr ((h c r t he).2 u hu)⟩

/-- A weaker postcondition is easier to reach. -/
theorem wp_mono {p : Program Res α} {post post' : α → σ → Prop} {s : σ}
    (h : p.wp exec C post s) (hpost : ∀ a t, post a t → post' a t) : p.wp exec C post' s := by
  induction p generalizing s with
  | pure a => exact hpost a s h
  | step op next ih =>
    intro c r t he
    exact ⟨(h c r t he).1, fun u hu => ih r ((h c r t he).2 u hu)⟩

/-- A postcondition may also use that everything so far was the program or the
environment. -/
theorem wp_mono_reach {p : Program Res α} {post post' : α → σ → Prop} {s : σ} {R : σ → σ → Prop}
    (hrefl : ∀ s, R s s) (htrans : ∀ {s t u}, R s t → R t u → R s u)
    (hguar : ∀ s t, C.guar s t → R s t) (hrely : ∀ s t, C.rely s t → R s t)
    (h : p.wp exec C post s) (hpost : ∀ a t, R s t → post a t → post' a t) :
    p.wp exec C post' s := by
  induction p generalizing s with
  | pure a => exact hpost a s (hrefl s) h
  | step op next ih =>
    intro c r t he
    refine ⟨(h c r t he).1, fun u hu => ih r ((h c r t he).2 u hu) fun a v huv hv => ?_⟩
    exact hpost a v (htrans (hguar s t (h c r t he).1) (htrans (hrely t u hu) huv)) hv

/-- The proof rule for a sequence: the first part is verified up to a safe rest. -/
theorem wp_seq {p : Program Res α} {f : α → Program Res β} {post : β → σ → Prop} {s : σ}
    (h : p.wp exec C (fun a t => (f a).wp exec C post t) s) : (p >>= f).wp exec C post s :=
  (wp_bind p f post s).mpr h

/-- The proof rule for a call: verify the callee, then the rest from its result. -/
theorem wp_call {p : Program Res α} {f : α → Program Res β} {mid : α → σ → Prop}
    {post : β → σ → Prop} {s : σ} (h : p.wp exec C mid s)
    (hnext : ∀ a t, mid a t → (f a).wp exec C post t) : (p >>= f).wp exec C post s :=
  wp_seq (wp_mono h hnext)

theorem Safe.wp {p : Program Res α} {post : α → σ → Prop} {s : σ}
    (h : p.Safe exec C post s) : p.wp exec C post s := h s (C.rely_refl s)

/-- Interference does not disturb a safe thread. -/
theorem Safe.interfere {p : Program Res α} {post : α → σ → Prop} {s t : σ}
    (h : p.Safe exec C post s) (hst : C.rely s t) : p.Safe exec C post t :=
  fun u htu => h u (C.rely_trans hst htu)

/-- One operation of a safe thread keeps the guarantee and leaves it safe. -/
theorem Safe.advance {p q : Program Res α} {post : α → σ → Prop} {c : ι} {s t : σ}
    (h : p.Safe exec C post s) (hstep : p.advance exec c s = some (q, t)) :
    C.guar s t ∧ q.Safe exec C post t := by
  obtain ⟨op, next, r, rfl, he, rfl⟩ := advance_eq_some hstep
  exact ⟨(h.wp c r t he).1, fun u hu => (h.wp c r t he).2 u hu⟩

/-- A finished safe thread has established its postcondition. -/
theorem Safe.post {a : α} {post : α → σ → Prop} {s : σ}
    (h : (Program.pure a : Program Res α).Safe exec C post s) : post a s := h.wp

/-- The run without interference is one of the interleavings. -/
theorem wp_run {p : Program Res α} {post : α → σ → Prop} {cs : List ι} {s t : σ} {a : α}
    (h : p.wp exec C post s) (hrun : p.run exec cs s = some (a, t)) :
    post a t ∧ Relation.ReflTransGen C.guar s t := by
  induction p generalizing s cs with
  | pure b =>
    obtain ⟨-, rfl, rfl⟩ := run_pure_eq_some hrun
    exact ⟨h, .refl⟩
  | step op next ih =>
    obtain ⟨c, rest, r, u, -, he, hrest⟩ := run_step_eq_some hrun
    obtain ⟨hguar, hnext⟩ := h c r u he
    obtain ⟨hpost, hsteps⟩ := ih r (hnext u (C.rely_refl u)) hrest
    exact ⟨hpost, .head hguar hsteps⟩

end Program

end Interleaving
