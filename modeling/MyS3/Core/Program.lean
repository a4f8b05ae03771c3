import Mathlib.Logic.Relation

/-!
# Programs over atomic operations

A program is a tree of atomic operations on a shared state, suspended before its
next operation. Interleaving semantics executes one operation at a time; the
atomic semantics runs a whole program without interference. Both read the same
tree, so a function is written once and reasoned about at either granularity.
-/

namespace Interleaving

/-- A result, or one atomic operation followed by what its response selects. -/
inductive Program {Op : Type} (Res : Op → Type) (α : Type) : Type where
  | pure (a : α)
  | step (op : Op) (next : Res op → Program Res α)

/-- How operations act on a shared state. A choice settles what the state leaves
open, and `none` means that the operation is not enabled. -/
abbrev Semantics {Op : Type} (Res : Op → Type) (σ ι : Type) : Type :=
  σ → (op : Op) → ι → Option (Res op × σ)

namespace Program

variable {Op : Type} {Res : Op → Type} {σ ι α β : Type}

/-- Sequencing continues at every result of the first program. -/
def bind (p : Program Res α) (f : α → Program Res β) : Program Res β :=
  match p with
  | .pure a => f a
  | .step op next => .step op fun r => (next r).bind f

instance : Monad (Program Res) where
  pure := .pure
  bind := .bind

/-- The program that performs one operation and returns its response. -/
def perform (op : Op) : Program Res (Res op) := .step op .pure

/-- One operation of a suspended program; a finished program has none left. -/
def advance (exec : Semantics Res σ ι) (p : Program Res α) (c : ι) (s : σ) :
    Option (Program Res α × σ) :=
  match p with
  | .pure _ => none
  | .step op next => (exec s op c).map fun rt => (next rt.1, rt.2)

/-- A whole run without interference, one choice for each operation. -/
def run (exec : Semantics Res σ ι) : Program Res α → List ι → σ → Option (α × σ)
  | .pure a, [], s => some (a, s)
  | .pure _, _ :: _, _ => none
  | .step _ _, [], _ => none
  | .step op next, c :: cs, s => (exec s op c).bind fun rt => (next rt.1).run exec cs rt.2

theorem advance_eq_some {exec : Semantics Res σ ι} {p q : Program Res α} {c : ι} {s t : σ}
    (h : p.advance exec c s = some (q, t)) :
    ∃ op next r, p = .step op next ∧ exec s op c = some (r, t) ∧ q = next r := by
  cases p with
  | pure a => simp [advance] at h
  | step op next =>
    obtain ⟨⟨r, u⟩, hr, he⟩ := Option.map_eq_some_iff.mp h
    cases he
    exact ⟨op, next, r, rfl, hr, rfl⟩

/-- A run without interference peels off one enabled operation at a time. -/
theorem run_step_eq_some {exec : Semantics Res σ ι} {op : Op} {next : Res op → Program Res α}
    {cs : List ι} {s t : σ} {a : α} (h : (Program.step op next).run exec cs s = some (a, t)) :
    ∃ c rest r u, cs = c :: rest ∧ exec s op c = some (r, u) ∧
      (next r).run exec rest u = some (a, t) := by
  cases cs with
  | nil => simp [run] at h
  | cons c rest =>
    obtain ⟨⟨r, u⟩, hr, hrun⟩ := Option.bind_eq_some_iff.mp h
    exact ⟨c, rest, r, u, rfl, hr, hrun⟩

/-- Only a finished program ends without a choice, and it changes nothing. -/
theorem run_pure_eq_some {exec : Semantics Res σ ι} {a b : α} {cs : List ι} {s t : σ}
    (h : (Program.pure a : Program Res α).run exec cs s = some (b, t)) :
    cs = [] ∧ b = a ∧ t = s := by
  cases cs with
  | nil =>
    simp only [run, Option.some.injEq, Prod.mk.injEq] at h
    exact ⟨rfl, h.1.symm, h.2.symm⟩
  | cons c rest => simp [run] at h

/-- Every operation of the program, whatever the responses, is an admitted one. -/
def Uses (admitted : Op → Prop) : Program Res α → Prop
  | .pure _ => True
  | .step op next => admitted op ∧ ∀ r, (next r).Uses admitted

variable {admitted : Op → Prop}

@[simp] theorem uses_perform (op : Op) :
    (perform op : Program Res (Res op)).Uses admitted ↔ admitted op :=
  and_iff_left fun _ => trivial

theorem Uses.mono {admitted' : Op → Prop} {p : Program Res α} (hp : p.Uses admitted)
    (h : ∀ op, admitted op → admitted' op) : p.Uses admitted' := by
  induction p with
  | pure a => exact trivial
  | step op next ih => exact ⟨h op hp.1, fun r => ih r (hp.2 r)⟩

/-- Sequencing performs the operations of both parts. -/
theorem Uses.bind {p : Program Res α} {f : α → Program Res β} (hp : p.Uses admitted)
    (hf : ∀ a, (f a).Uses admitted) : (p >>= f).Uses admitted := by
  change (p.bind f).Uses admitted
  induction p with
  | pure a => exact hf a
  | step op next ih => exact ⟨hp.1, fun r => ih r (hp.2 r)⟩

/-- Every result, whatever the responses, has the property. -/
def Yields (P : α → Prop) : Program Res α → Prop
  | .pure a => P a
  | .step _ next => ∀ r, (next r).Yields P

theorem yields_true (p : Program Res α) : p.Yields fun _ => True := by
  induction p with
  | pure a => exact trivial
  | step op next ih => exact fun r => ih r

theorem Yields.mono {P Q : α → Prop} {p : Program Res α} (hp : p.Yields P)
    (h : ∀ a, P a → Q a) : p.Yields Q := by
  induction p with
  | pure a => exact h a hp
  | step op next ih => exact fun r => ih r (hp r)

/-- The results of a sequence are those of its second part. -/
theorem Yields.bind {P : α → Prop} {Q : β → Prop} {p : Program Res α} {f : α → Program Res β}
    (hp : p.Yields P) (hf : ∀ a, P a → (f a).Yields Q) : (p >>= f).Yields Q := by
  change (p.bind f).Yields Q
  induction p with
  | pure a => exact hf a hp
  | step op next ih => exact fun r => ih r (hp r)

/-- A run ends with one of the results. -/
theorem Yields.run {P : α → Prop} {exec : Semantics Res σ ι} {p : Program Res α} {cs : List ι}
    {s t : σ} {a : α} (hp : p.Yields P) (hrun : p.run exec cs s = some (a, t)) : P a := by
  induction p generalizing s cs with
  | pure b =>
    obtain ⟨-, rfl, -⟩ := run_pure_eq_some hrun
    exact hp
  | step op next ih =>
    obtain ⟨c, rest, r, u, -, -, hrest⟩ := run_step_eq_some hrun
    exact ih r (hp r) hrest

/-- Every result has the property, together with what was noted of the responses on the way. -/
def Leaves {N : Type} (note : (op : Op) → Res op → N → N) (P : N → α → Prop) :
    Program Res α → N → Prop
  | .pure a, n => P n a
  | .step op next, n => ∀ r, (next r).Leaves note P (note op r n)

/-- A sequence notes what its second part does behind its first. -/
theorem Leaves.bind {N : Type} {note : (op : Op) → Res op → N → N} {P : N → α → Prop}
    {Q : N → β → Prop} {p : Program Res α} {f : α → Program Res β} {n : N}
    (hp : p.Leaves note P n) (hf : ∀ m a, P m a → (f a).Leaves note Q m) :
    (p >>= f).Leaves note Q n := by
  change (p.bind f).Leaves note Q n
  induction p generalizing n with
  | pure a => exact hf n a hp
  | step op next ih => exact fun r => ih r (hp r)

/-- The run of such a program in an environment that answers every admitted operation. -/
def answeredBy {E : Type} (answer : (op : Op) → admitted op → E → Res op × E) :
    (p : Program Res α) → p.Uses admitted → E → α × E
  | .pure a, _, e => (a, e)
  | .step op next, h, e =>
    let (r, e) := answer op h.1 e
    (next r).answeredBy answer (h.2 r) e

/-- In an environment a sequence is run part by part. -/
theorem answeredBy_bind {E : Type} {answer : (op : Op) → admitted op → E → Res op × E}
    {p : Program Res α} {f : α → Program Res β} (hp : p.Uses admitted)
    (hf : ∀ a, (f a).Uses admitted) (h : (p >>= f).Uses admitted) (e : E) :
    (p >>= f).answeredBy answer h e =
      (f (p.answeredBy answer hp e).1).answeredBy answer (hf _) (p.answeredBy answer hp e).2 := by
  change (p.bind f).answeredBy answer h e = _
  induction p generalizing e with
  | pure a => rfl
  | step op next ih => exact ih _ (hp.2 _) (h.2 _) _

/-- One operation of such a program is admitted, and so is the rest. -/
theorem Uses.advance {exec : Semantics Res σ ι} {p q : Program Res α} {c : ι} {s t : σ}
    (hp : p.Uses admitted) (h : p.advance exec c s = some (q, t)) :
    (∃ op r, admitted op ∧ exec s op c = some (r, t)) ∧ q.Uses admitted := by
  obtain ⟨op, next, r, rfl, he, rfl⟩ := advance_eq_some h
  exact ⟨⟨op, r, hp.1, he⟩, hp.2 r⟩

/-- A whole run of such a program keeps whatever each admitted operation keeps. -/
theorem Uses.run {exec : Semantics Res σ ι} {p : Program Res α} {cs : List ι} {s t : σ} {a : α}
    {R : σ → σ → Prop} (hp : p.Uses admitted) (hrun : p.run exec cs s = some (a, t))
    (hrefl : ∀ s, R s s) (htrans : ∀ {s t u}, R s t → R t u → R s u)
    (hop : ∀ {op c s r t}, admitted op → exec s op c = some (r, t) → R s t) : R s t := by
  induction p generalizing s cs with
  | pure b =>
    obtain ⟨-, -, rfl⟩ := run_pure_eq_some hrun
    exact hrefl _
  | step op next ih =>
    obtain ⟨c, rest, r, u, -, he, hrest⟩ := run_step_eq_some hrun
    exact htrans (hop hp.1 he) (ih r (hp.2 r) hrest)

end Program

end Interleaving
