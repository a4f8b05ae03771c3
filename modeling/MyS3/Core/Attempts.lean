import Mathlib.Logic.Basic

/-!
# Repeated attempts

A stateful attempt is repeated while it fails with an error that allows it and the limit is
not reached. Any loop with that equation returns the outcome of one attempt, the last.
-/

namespace Attempts

variable {S T E A : Type}

/-- The state behind the first `n` attempts. -/
def after (attempt : S → Except E A × S) (s : S) : Nat → S
  | 0 => s
  | n + 1 => (attempt (after attempt s n)).2

/-- What attempt `n` comes to, if all of the earlier ones were made. -/
def outcome (attempt : S → Except E A × S) (s : S) (n : Nat) : Except E A :=
  (attempt (after attempt s n)).1

/-- An outcome behind which no further attempt is made, whatever the limit. -/
def Final (again : E → Bool) : Except E A → Prop
  | .ok _ => True
  | .error e => again e = false

/-- The attempt that is returned: the first final one, or the one at the limit. -/
structure Last (again : E → Bool) (outcomes : Nat → Except E A) (limit k : Nat) : Prop where
  within : k ≤ limit
  final : k = limit ∨ Final again (outcomes k)
  earlier : ∀ i < k, ¬ Final again (outcomes i)

/-- The equation of a loop that counts its repetitions. -/
def IsLoop (again : E → Bool) (limit : Nat) (attempt : S → Except E A × S)
    (loop : Nat → S → Except E A × S) : Prop :=
  ∀ retries s, loop retries s =
    match attempt s with
    | (.ok a, s) => (.ok a, s)
    | (.error e, s) =>
      if limit ≤ retries ∨ again e = false then (.error e, s) else loop (retries + 1) s

variable {again : E → Bool} {limit k k' : Nat} {outcomes : Nat → Except E A}
  {attempt : S → Except E A × S} {loop : Nat → S → Except E A × S} {s : S}

/-- Only one attempt is the last. -/
theorem Last.unique (h : Last again outcomes limit k) (h' : Last again outcomes limit k') :
    k = k' := by
  have hnot : ∀ {i j : Nat}, Last again outcomes limit i → Last again outcomes limit j →
      ¬ i < j := by
    intro i j hi hj hlt
    rcases hi.final with hlimit | hfinal
    · have := hj.within
      omega
    · exact hj.earlier i hlt hfinal
  exact Nat.le_antisymm (Nat.le_of_not_lt (hnot h' h)) (Nat.le_of_not_lt (hnot h h'))

/-- A final attempt that is made is the last. -/
theorem Last.eq_of_final (h : Last again outcomes limit k) {j : Nat}
    (hj : Final again (outcomes j)) (hle : j ≤ k) : j = k := by
  rcases Nat.lt_or_eq_of_le hle with hlt | rfl
  · exact absurd hj (h.earlier j hlt)
  · rfl

/-- One turn of a loop: it returns there, or goes on with the next attempt. -/
theorem IsLoop.turn (h : IsLoop again limit attempt loop) (retries : Nat) (s : S) :
    (limit ≤ retries ∨ Final again (attempt s).1) ∧ loop retries s = attempt s ∨
    retries < limit ∧ ¬ Final again (attempt s).1 ∧
      loop retries s = loop (retries + 1) (attempt s).2 := by
  rw [h retries s]
  rcases attempt s with ⟨e | a, t⟩
  · by_cases hstop : limit ≤ retries ∨ again e = false
    · exact .inl ⟨hstop, if_pos hstop⟩
    · rw [not_or] at hstop
      exact .inr ⟨Nat.lt_of_not_le hstop.1, hstop.2, if_neg (not_or.mpr hstop)⟩
  · exact .inl ⟨.inr trivial, rfl⟩

/-- The turns from some attempt on, up to the last. -/
private theorem IsLoop.turns (h : IsLoop again limit attempt loop) (s : S) {n : Nat}
    (hn : n ≤ limit) (hearlier : ∀ i < n, ¬ Final again (outcome attempt s i)) :
    ∃ k, n ≤ k ∧ Last again (outcome attempt s) limit k ∧
      loop n (after attempt s n) = (outcome attempt s k, after attempt s (k + 1)) ∧
      ∀ i, n ≤ i → i ≤ k → loop n (after attempt s n) = loop i (after attempt s i) := by
  induction hd : limit - n generalizing n with
  | zero =>
    have hlimit : n = limit := by omega
    rcases h.turn n (after attempt s n) with ⟨-, hreturn⟩ | ⟨hlt, -⟩
    · refine ⟨n, Nat.le_refl n, ⟨hn, .inl hlimit, hearlier⟩, hreturn, fun i hi hi' => ?_⟩
      rw [Nat.le_antisymm hi hi']
    · omega
  | succ d ih =>
    rcases h.turn n (after attempt s n) with ⟨hstop, hreturn⟩ | ⟨hlt, hgo, hnext⟩
    · refine ⟨n, Nat.le_refl n, ⟨hn, ?_, hearlier⟩, hreturn, fun i hi hi' => ?_⟩
      · exact hstop.imp (fun hlimit => Nat.le_antisymm hn hlimit) id
      · rw [Nat.le_antisymm hi hi']
    · have hearlier' : ∀ i < n + 1, ¬ Final again (outcome attempt s i) := by
        intro i hi
        rcases Nat.lt_succ_iff_lt_or_eq.mp hi with hi | rfl
        · exact hearlier i hi
        · exact hgo
      obtain ⟨k, hk, hlast, hresult, hturns⟩ := ih hlt hearlier' (by omega)
      refine ⟨k, by omega, hlast, hnext.trans hresult, fun i hi hi' => ?_⟩
      rcases Nat.lt_or_eq_of_le hi with hi | rfl
      · exact hnext.trans (hturns i hi hi')
      · rfl

/-- The rule of the loop: it returns the outcome of the last attempt and the state behind it,
and it enters attempt `i` with its counter at `i`. -/
theorem IsLoop.returns (h : IsLoop again limit attempt loop) (s : S) :
    ∃ k, Last again (outcome attempt s) limit k ∧
      loop 0 s = (outcome attempt s k, after attempt s (k + 1)) ∧
      ∀ i ≤ k, loop 0 s = loop i (after attempt s i) := by
  obtain ⟨k, -, hlast, hresult, hturns⟩ := h.turns s (Nat.zero_le limit) nofun
  exact ⟨k, hlast, hresult, fun i hi => hturns i (Nat.zero_le i) hi⟩

/-- Two loops whose attempts come to the same return the same. -/
theorem IsLoop.agree {attempt' : T → Except E A × T} {loop' : Nat → T → Except E A × T} {t : T}
    (h : IsLoop again limit attempt loop) (h' : IsLoop again limit attempt' loop')
    (hsame : outcome attempt s = outcome attempt' t) : (loop 0 s).1 = (loop' 0 t).1 := by
  obtain ⟨k, hlast, hresult, -⟩ := h.returns s
  obtain ⟨k', hlast', hresult', -⟩ := h'.returns t
  rw [← hsame] at hlast' hresult'
  rw [hresult, hresult', hlast.unique hlast']

/-- A log that every attempt extends by one entry. -/
theorem log_after {Entry : Type} {log : S → List Entry} {entry : Entry}
    (h : ∀ s, log (attempt s).2 = log s ++ [entry]) (s : S) (n : Nat) :
    log (after attempt s n) = log s ++ List.replicate n entry := by
  induction n with
  | zero => exact (List.append_nil _).symm
  | succ n ih => rw [after, h, ih, List.append_assoc, List.replicate_succ']

end Attempts
