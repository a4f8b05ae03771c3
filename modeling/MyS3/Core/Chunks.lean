import Mathlib.Data.List.Basic

/-!
# Lists cut at every multiple of a length

All chunks of a cut are full but the last, so the cut depends on the list alone and grows with
the list at its end only.
-/

namespace Chunks

variable {α : Type} {n : Nat} {l front back more : List α}

/-- What is in the last chunk, where there is one. -/
def remainder (l : List α) : List (List α) := if l = [] then [] else [l]

@[simp] theorem remainder_nil : remainder ([] : List α) = [] := rfl

theorem remainder_of_ne_nil (h : l ≠ []) : remainder l = [l] := if_neg h

@[simp] theorem flatten_remainder (l : List α) : (remainder l).flatten = l := by
  unfold remainder
  split
  · rename_i hnil
    rw [hnil, List.flatten_nil]
  · exact List.flatten_singleton

/-- Remainders of one length behind two lists of chunks are told apart from them. -/
theorem remainder_inj {xs ys : List (List α)} {a b : List α}
    (h : xs ++ remainder a = ys ++ remainder b) (hlength : a.length = b.length) :
    xs = ys ∧ a = b := by
  by_cases ha : a = []
  · subst ha
    obtain rfl : b = [] := List.length_eq_zero_iff.mp hlength.symm
    simpa using h
  · have hb : b ≠ [] := by
      rintro rfl
      exact ha (List.length_eq_zero_iff.mp hlength)
    rw [remainder_of_ne_nil ha, remainder_of_ne_nil hb] at h
    simpa using List.append_inj' h rfl

/-- A list cut into chunks of `n`, of which the last may be shorter. -/
def cutAt (n : Nat) (l : List α) : List (List α) :=
  if n = 0 ∨ l.length ≤ n then remainder l
  else l.take n :: cutAt n (l.drop n)
termination_by l.length
decreasing_by
  rw [List.length_drop]
  omega

/-- Up to one chunk is one chunk. -/
theorem cutAt_of_length_le (hl : l.length ≤ n) : cutAt n l = remainder l := by
  rw [cutAt, if_pos (.inr hl)]

@[simp] theorem cutAt_nil : cutAt n ([] : List α) = [] := cutAt_of_length_le (Nat.zero_le n)

/-- The first chunk is the front of the list. -/
theorem cutAt_of_ne_nil (hn : 0 < n) (hl : l ≠ []) :
    cutAt n l = l.take n :: cutAt n (l.drop n) := by
  by_cases hlength : l.length ≤ n
  · rw [cutAt_of_length_le hlength, List.take_of_length_le hlength,
      List.drop_of_length_le hlength, cutAt_nil, remainder_of_ne_nil hl]
  · rw [cutAt, if_neg (by omega)]

/-- Nothing is lost between the chunks. -/
@[simp] theorem flatten_cutAt (n : Nat) (l : List α) : (cutAt n l).flatten = l := by
  fun_induction cutAt n l with
  | case1 l hshort => exact flatten_remainder l
  | case2 l hlong ih => rw [List.flatten_cons, ih, List.take_append_drop]

/-- A list of full chunks is cut as if nothing came behind it. -/
theorem cutAt_append (hn : 0 < n) {k : Nat} (hfront : front.length = k * n) (back : List α) :
    cutAt n (front ++ back) = cutAt n front ++ cutAt n back := by
  induction k generalizing front with
  | zero =>
    rw [Nat.zero_mul, List.length_eq_zero_iff] at hfront
    rw [hfront, cutAt_nil, List.nil_append, List.nil_append]
  | succ k ih =>
    rw [Nat.succ_mul] at hfront
    have hlong : n ≤ front.length := by omega
    have hne : front ≠ [] := by
      rintro rfl
      rw [List.length_nil] at hlong
      omega
    have hrest : (front.drop n).length = k * n := by
      rw [List.length_drop]
      omega
    rw [cutAt_of_ne_nil hn hne, cutAt_of_ne_nil hn (List.append_ne_nil_of_left_ne_nil hne _),
      List.take_append_of_le_length hlong, List.drop_append_of_le_length hlong, ih hrest,
      List.cons_append]

/-- A list is its full chunks and a remainder that is shorter than one. -/
theorem exists_remainder (hn : 0 < n) (l : List α) : ∃ front back : List α,
    l = front ++ back ∧ (∃ k, front.length = k * n) ∧ back.length = l.length % n ∧
      cutAt n l = cutAt n front ++ remainder back := by
  have hdiv := Nat.div_add_mod l.length n
  have hmod := Nat.mod_lt l.length hn
  rw [Nat.mul_comm] at hdiv
  have hfront : (l.take (l.length / n * n)).length = l.length / n * n :=
    List.length_take_of_le (by omega)
  have hback : (l.drop (l.length / n * n)).length = l.length % n := by
    rw [List.length_drop]
    omega
  have hcut := cutAt_append hn hfront (l.drop (l.length / n * n))
  have hshort : (l.drop (l.length / n * n)).length ≤ n := by omega
  rw [List.take_append_drop, cutAt_of_length_le hshort] at hcut
  exact ⟨_, _, (List.take_append_drop _ _).symm, ⟨_, hfront⟩, hback, hcut⟩

/-- Up to the end of its last chunk a list grows in its remainder. -/
theorem cutAt_grow (hn : 0 < n) {k : Nat} (hfront : front.length = k * n)
    (hlength : (back ++ more).length ≤ n) :
    cutAt n (front ++ back ++ more) = cutAt n front ++ remainder (back ++ more) := by
  rw [List.append_assoc, cutAt_append hn hfront, cutAt_of_length_le hlength]

end Chunks
