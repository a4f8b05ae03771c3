import MyS3.Core.Program

/-!
# Labelled transition functions

A system is a partial step function on labels. A policy restricts which labels a
run may use. Runs are the reflexive transitive closure, so an invariant is proved
by one step lemma, and concrete schedules are evaluated by `schedule`.
-/

namespace Interleaving

variable {S L : Type}

/-- One step under a policy: an admitted label that is enabled. -/
def Moves (step : S → L → Option S) (policy : S → L → Bool) (s t : S) : Prop :=
  ∃ l, policy s l = true ∧ step s l = some t

/-- A run under a policy. -/
abbrev Reaches (step : S → L → Option S) (policy : S → L → Bool) : S → S → Prop :=
  Relation.ReflTransGen (Moves step policy)

/-- The policy that admits every label. -/
def anyLabel : S → L → Bool := fun _ _ => true

/-- Executes a list of labels, refusing one that is not admitted or not enabled. -/
def schedule (step : S → L → Option S) (policy : S → L → Bool) : List L → S → Option S
  | [], s => some s
  | l :: ls, s => if policy s l then (step s l).bind (schedule step policy ls) else none

variable {step : S → L → Option S} {policy : S → L → Bool}

/-- The induction rule: what holds first and survives every step holds in every
state of every run. -/
theorem Reaches.invariant {I : S → Prop} {s t : S} (h : Reaches step policy s t) (hs : I s)
    (hstep : ∀ s l t, I s → policy s l = true → step s l = some t → I t) : I t := by
  induction h with
  | refl => exact hs
  | tail _ hmove ih =>
    obtain ⟨l, hl, he⟩ := hmove
    exact hstep _ l _ ih hl he

/-- A policy that admits more has more runs. -/
theorem Reaches.relax {policy' : S → L → Bool} {s t : S} (h : Reaches step policy s t)
    (hpolicy : ∀ s l, policy s l = true → policy' s l = true) : Reaches step policy' s t := by
  refine Relation.ReflTransGen.mono ?_ s t h
  rintro s _ ⟨l, hl, he⟩
  exact ⟨l, hpolicy s l hl, he⟩

/-- Runs under a policy are runs. -/
theorem Reaches.unrestricted {s t : S} (h : Reaches step policy s t) :
    Reaches step anyLabel s t :=
  h.relax fun _ _ _ => rfl

/-- A schedule that executes is a run. -/
theorem reaches_of_schedule {ls : List L} {s t : S}
    (h : schedule step policy ls s = some t) : Reaches step policy s t := by
  induction ls generalizing s with
  | nil =>
    cases h
    exact .refl
  | cons l ls ih =>
    unfold schedule at h
    split at h
    · rename_i hl
      obtain ⟨u, hu, hrest⟩ := Option.bind_eq_some_iff.mp h
      exact .head ⟨l, hl, hu⟩ (ih hrest)
    · contradiction

/-- The state that a schedule ends in. -/
def runTo (step : S → L → Option S) (policy : S → L → Bool) (ls : List L) (s : S) : S :=
  (schedule step policy ls s).getD s

theorem reaches_runTo {ls : List L} {s : S}
    (h : (schedule step policy ls s).isSome = true) :
    Reaches step policy s (runTo step policy ls s) := by
  obtain ⟨t, ht⟩ := Option.isSome_iff_exists.mp h
  rw [runTo, ht]
  exact reaches_of_schedule ht

/-- A program that runs undisturbed is one run of any system in which each of its
operations is a step. -/
theorem Program.run_reaches {Op : Type} {Res : Op → Type} {σ ι α : Type}
    {exec : Semantics Res σ ι} (embed : Program Res α → σ → S)
    (hstep : ∀ c p q s t, p.advance exec c s = some (q, t) →
      Moves step policy (embed p s) (embed q t))
    {p : Program Res α} {cs : List ι} {s t : σ} {a : α}
    (hrun : p.run exec cs s = some (a, t)) :
    Reaches step policy (embed p s) (embed (.pure a) t) := by
  induction p generalizing s cs with
  | pure b =>
    obtain ⟨-, rfl, rfl⟩ := run_pure_eq_some hrun
    exact .refl
  | step op next ih =>
    obtain ⟨c, rest, r, u, -, he, hrest⟩ := run_step_eq_some hrun
    exact .head (hstep c _ _ _ _ (by simp only [advance, he, Option.map_some])) (ih r hrest)

section Noting

variable {N : Type} {note : S → L → N → N}

/-- A system with a note beside its state, which its steps are not told of. -/
def noting (step : S → L → Option S) (note : S → L → N → N) (noted : S × N) (l : L) :
    Option (S × N) :=
  (step noted.1 l).map fun t => (t, note noted.1 l noted.2)

/-- Notes can be taken of any run. -/
theorem Reaches.noted {s t : S} (h : Reaches step policy s t) (note : S → L → N → N) (n : N) :
    ∃ m, Reaches (noting step note) (fun noted => policy noted.1) (s, n) (t, m) := by
  induction h with
  | refl => exact ⟨n, .refl⟩
  | tail _ hmove ih =>
    obtain ⟨m, hrun⟩ := ih
    obtain ⟨l, hl, he⟩ := hmove
    exact ⟨_, hrun.tail ⟨l, hl, by rw [noting, he, Option.map_some]⟩⟩

end Noting

end Interleaving
