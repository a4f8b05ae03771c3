import Mathlib.Data.List.Basic

/-!
# Tilings

Spans of positions that follow each other without a gap and without an overlap.
-/

namespace Tiling

/-- The positions from `start` on, `length` of them. -/
structure Span where
  start : Nat
  length : Nat
  deriving DecidableEq, Repr

/-- The position behind a span. -/
def Span.stop (s : Span) : Nat := s.start + s.length

/-- The spans tile `[a, b)`: each one is non-empty and starts where the one before stops. -/
def Tiles : Nat → List Span → Nat → Prop
  | a, [], b => a = b
  | a, s :: ss, b => s.start = a ∧ 0 < s.length ∧ Tiles s.stop ss b

variable {a b : Nat} {s : Span} {ss : List Span}

@[simp] theorem tiles_nil : Tiles a [] b ↔ a = b := Iff.rfl

/-- A tiling grows by a span that starts where it stops. -/
theorem Tiles.snoc (h : Tiles a ss b) (hstart : s.start = b) (hlength : 0 < s.length) :
    Tiles a (ss ++ [s]) s.stop := by
  induction ss generalizing a with
  | nil => exact ⟨hstart.trans h.symm, hlength, rfl⟩
  | cons _ _ ih => exact ⟨h.1, h.2.1, ih h.2.2⟩

theorem Tiles.le (h : Tiles a ss b) : a ≤ b := by
  induction ss generalizing a with
  | nil => exact Nat.le_of_eq h
  | cons s _ ih =>
    have hrest := ih h.2.2
    have hstart := h.1
    unfold Span.stop at hrest
    omega

/-- Every span of a tiling is non-empty and lies inside. -/
theorem Tiles.within (h : Tiles a ss b) (hs : s ∈ ss) :
    a ≤ s.start ∧ 0 < s.length ∧ s.stop ≤ b := by
  induction ss generalizing a with
  | nil => cases hs
  | cons first rest ih =>
    have hstart := h.1
    rcases List.mem_cons.mp hs with rfl | hs
    · exact ⟨Nat.le_of_eq hstart.symm, h.2.1, h.2.2.le⟩
    · have hrest := ih h.2.2 hs
      refine ⟨?_, hrest.2⟩
      unfold Span.stop at hrest
      omega

/-- No position lies in two spans of a tiling. -/
theorem Tiles.pairwise (h : Tiles a ss b) :
    ss.Pairwise fun s t => s.stop ≤ t.start := by
  induction ss generalizing a with
  | nil => exact .nil
  | cons first rest ih =>
    exact .cons (fun t ht => (h.2.2.within ht).1) (ih h.2.2)

end Tiling
