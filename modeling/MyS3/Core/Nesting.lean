import Mathlib.Data.List.Basic

/-!
# Nesting

Sequences of opening and closing brackets, read from left to right with a depth counter
that must not fall below zero, and the grammar of the sequences that the counter accepts.
-/

namespace Nesting

/-- What one token does to the depth. -/
inductive Bracket where
  | opening | closing | neutral
  deriving DecidableEq, Repr

/-- The depth behind one bracket; nothing can be closed at depth zero. -/
def Bracket.step (depth : Nat) : Bracket → Option Nat
  | .opening => some (depth + 1)
  | .closing => if depth = 0 then none else some (depth - 1)
  | .neutral => some depth

/-- The depth behind a sequence. -/
def depthAfter (depth : Nat) (bs : List Bracket) : Option Nat := bs.foldlM Bracket.step depth

/-- Everything that is opened is closed again, and nothing else is closed. -/
def WellNested (bs : List Bracket) : Prop := depthAfter 0 bs = some 0

instance (bs : List Bracket) : Decidable (WellNested bs) :=
  inferInstanceAs (Decidable (depthAfter 0 bs = some 0))

variable {d d' : Nat} {b : Bracket} {bs bs' : List Bracket}

@[simp] theorem depthAfter_nil : depthAfter d [] = some d := rfl

@[simp] theorem depthAfter_cons :
    depthAfter d (b :: bs) = (b.step d).bind fun d' => depthAfter d' bs := rfl

theorem depthAfter_append :
    depthAfter d (bs ++ bs') = (depthAfter d bs).bind fun d' => depthAfter d' bs' :=
  List.foldlM_append ..

/-- What is readable at a depth is readable at every greater one. -/
theorem depthAfter_add (h : depthAfter d bs = some d') (k : Nat) :
    depthAfter (d + k) bs = some (d' + k) := by
  induction bs generalizing d with
  | nil =>
    cases h
    rfl
  | cons b bs ih =>
    obtain ⟨m, hm, hrest⟩ := Option.bind_eq_some_iff.mp h
    have hstep : b.step (d + k) = some (m + k) := by
      cases b with
      | opening =>
        cases hm
        exact congrArg some (Nat.add_right_comm d k 1)
      | closing =>
        simp only [Bracket.step] at hm ⊢
        split at hm
        · cases hm
        · cases hm
          rw [if_neg (by omega)]
          exact congrArg some (by omega)
      | neutral =>
        cases hm
        rfl
    rw [depthAfter_cons, hstep]
    exact ih hrest

/-- A readable sequence is readable up to every point. -/
theorem exists_depthAfter_of_append (h : depthAfter d (bs ++ bs') = some d') :
    ∃ m, depthAfter d bs = some m := by
  rw [depthAfter_append] at h
  obtain ⟨m, hm, -⟩ := Option.bind_eq_some_iff.mp h
  exact ⟨m, hm⟩

/-- Inside an open element the depth stays above the one outside. -/
theorem WellNested.above {inside : List Bracket} (h : WellNested (bs ++ inside)) :
    ∃ m, depthAfter d (.opening :: bs) = some m ∧ d < m := by
  obtain ⟨m, hm⟩ := exists_depthAfter_of_append h
  refine ⟨m + (d + 1), ?_, by omega⟩
  have hlifted := depthAfter_add hm (d + 1)
  rwa [Nat.zero_add] at hlifted

/-- What a bracket adds to a counter that may go below zero. -/
def Bracket.delta : Bracket → Int
  | .opening => 1
  | .closing => -1
  | .neutral => 0

/-- What a sequence adds to it. -/
def net : List Bracket → Int
  | [] => 0
  | b :: bs => b.delta + net bs

@[simp] theorem net_nil : net [] = 0 := rfl

@[simp] theorem net_cons : net (b :: bs) = b.delta + net bs := rfl

/-- The depth counter counts. -/
theorem net_of_depthAfter (h : depthAfter d bs = some d') : d + net bs = d' := by
  induction bs generalizing d with
  | nil =>
    cases h
    simp
  | cons b bs ih =>
    obtain ⟨m, hm, hrest⟩ := Option.bind_eq_some_iff.mp h
    have hcount := ih hrest
    have hstep : (d : Int) + b.delta = m := by
      cases b with
      | opening =>
        cases hm
        rfl
      | closing =>
        simp only [Bracket.step] at hm
        split at hm
        · cases hm
        · cases hm
          simp only [Bracket.delta]
          omega
      | neutral =>
        cases hm
        exact Int.add_zero _
    rw [net_cons]
    omega

theorem WellNested.net_eq_zero (h : WellNested bs) : net bs = 0 := by
  have hcount := net_of_depthAfter h
  omega

/-- At no point has more been closed than opened. -/
theorem WellNested.net_nonneg (h : WellNested bs) (hread : bs' <+: bs) : 0 ≤ net bs' := by
  obtain ⟨rest, rfl⟩ := hread
  obtain ⟨m, hm⟩ := exists_depthAfter_of_append h
  have hcount := net_of_depthAfter hm
  omega

section Grammar

variable {α : Type} (kind : α → Bracket)

/-- The grammar of well-nested sequences of tokens. -/
inductive Nested : List α → Prop where
  | nil : Nested []
  | neutral {t : α} (h : kind t = .neutral) : Nested [t]
  | enclosed {o c : α} {inner : List α} (ho : kind o = .opening) (hc : kind c = .closing)
      (h : Nested inner) : Nested (o :: inner ++ [c])
  | append {ts us : List α} (h : Nested ts) (h' : Nested us) : Nested (ts ++ us)

/-- A sequence that closes `d` brackets opened before it, with well-nested sequences between
the closing ones. -/
def Unwinds : Nat → List α → Prop
  | 0, ts => Nested kind ts
  | d + 1, ts => ∃ inner c rest, ts = inner ++ c :: rest ∧ Nested kind inner ∧
      kind c = .closing ∧ Unwinds d rest

variable {kind} {ts us : List α}

/-- A well-nested sequence comes back to the depth it started from. -/
theorem Nested.depthAfter (h : Nested kind ts) (d : Nat) :
    depthAfter d (ts.map kind) = some d := by
  induction h generalizing d with
  | nil => rfl
  | neutral h =>
    simp only [List.map_cons, List.map_nil, depthAfter_cons, h, Bracket.step,
      Option.bind_some, depthAfter_nil]
  | enclosed ho hc _ ih =>
    simp only [List.cons_append, List.map_cons, List.map_append, List.map_nil,
      depthAfter_cons, ho, Bracket.step, Option.bind_some, depthAfter_append, ih, hc]
    rw [if_neg (by omega)]
    rfl
  | append _ _ ih ih' =>
    rw [List.map_append, depthAfter_append, ih, Option.bind_some, ih']

theorem Nested.append_unwinds (h : Nested kind ts) {d : Nat} (h' : Unwinds kind d us) :
    Unwinds kind d (ts ++ us) := by
  cases d with
  | zero => exact .append h h'
  | succ d =>
    obtain ⟨inner, c, rest, rfl, hinner, hc, hrest⟩ := h'
    exact ⟨ts ++ inner, c, rest, (List.append_assoc ..).symm, .append h hinner, hc, hrest⟩

/-- What the counter brings down to zero unwinds. -/
theorem unwinds_of_depthAfter {d : Nat} (h : Nesting.depthAfter d (ts.map kind) = some 0) :
    Unwinds kind d ts := by
  induction ts generalizing d with
  | nil =>
    cases h
    exact .nil
  | cons t ts ih =>
    obtain ⟨m, hm, hrest⟩ := Option.bind_eq_some_iff.mp h
    have hunwinds := ih hrest
    cases hkind : kind t with
    | neutral =>
      rw [hkind] at hm
      cases hm
      exact (Nested.neutral hkind).append_unwinds hunwinds
    | opening =>
      rw [hkind] at hm
      cases hm
      obtain ⟨inner, c, rest, rfl, hinner, hc, hrest⟩ := hunwinds
      have hwhole := (Nested.enclosed hkind hc hinner).append_unwinds hrest
      simpa only [List.cons_append, List.append_assoc, List.nil_append] using hwhole
    | closing =>
      rw [hkind] at hm
      simp only [Bracket.step] at hm
      split at hm
      · cases hm
      · rename_i hpositive
        cases hm
        obtain ⟨d, rfl⟩ := Nat.exists_eq_succ_of_ne_zero hpositive
        exact ⟨[], t, ts, rfl, .nil, hkind, hunwinds⟩

/-- The counter accepts exactly the grammar. -/
theorem wellNested_iff_nested : WellNested (ts.map kind) ↔ Nested kind ts :=
  ⟨unwinds_of_depthAfter, fun h => h.depthAfter 0⟩

end Grammar

end Nesting
