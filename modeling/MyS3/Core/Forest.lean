import Mathlib.Data.List.Basic

/-!
# Forests read as a stream of events

A reader that runs over the events of a forest sees every label at every depth. A search
that passes over what lies too deep finds exactly the trees that stand side by side.
-/

/-- Trees and texts side by side; a tree is a single leaf or a branch around a forest. -/
inductive Forest (α τ : Type) where
  | nil
  | text (t : τ) (rest : Forest α τ)
  | leaf (a : α) (rest : Forest α τ)
  | branch (a : α) (inner rest : Forest α τ)

namespace Forest

/-- What a reader meets, one after the other. -/
inductive Event (α τ : Type) where
  | text (t : τ)
  | leaf (a : α)
  | enter (a : α)
  | leave (a : α)

/-- Where a reader stands: the events ahead, and how many branches it is inside of. -/
structure Position (α τ : Type) where
  ahead : List (Event α τ)
  depth : Nat

/-- What a search comes to: a label at a level, or the end of the branch it is confined to.
A hit says whether the label is a branch's, and where the reader stands behind it. -/
inductive Outcome (α τ : Type) where
  | hit (a : α) (isBranch : Bool) (level : Nat) (next : Position α τ)
  | closed (next : Position α τ)
  | exhausted

/-- A tree among its siblings: a label, and what is inside unless it is a leaf. -/
structure Child (α τ : Type) where
  label : α
  inner : Option (Forest α τ)

variable {α τ : Type} (wanted : α → Bool) (level : Nat)

/-- The first wanted label ahead, at any depth, before the branch at `level` ends. -/
def search : Nat → List (Event α τ) → Outcome α τ
  | _, [] => .exhausted
  | depth, .text _ :: ahead => search depth ahead
  | depth, .leaf a :: ahead =>
    if wanted a then .hit a false (depth + 1) ⟨ahead, depth⟩ else search depth ahead
  | depth, .enter a :: ahead =>
    if wanted a then .hit a true (depth + 1) ⟨ahead, depth + 1⟩ else search (depth + 1) ahead
  | depth, .leave _ :: ahead =>
    if depth = level then .closed ⟨ahead, depth - 1⟩ else search (depth - 1) ahead

/-- The first wanted label ahead that is a child of the branch at `level`. -/
def searchDirect : Nat → List (Event α τ) → Outcome α τ
  | _, [] => .exhausted
  | depth, .text _ :: ahead => searchDirect depth ahead
  | depth, .leaf a :: ahead =>
    if wanted a = true ∧ depth = level then .hit a false (depth + 1) ⟨ahead, depth⟩
    else searchDirect depth ahead
  | depth, .enter a :: ahead =>
    if wanted a = true ∧ depth = level then .hit a true (depth + 1) ⟨ahead, depth + 1⟩
    else searchDirect (depth + 1) ahead
  | depth, .leave _ :: ahead =>
    if depth = level then .closed ⟨ahead, depth - 1⟩ else searchDirect (depth - 1) ahead

/-- The events of a forest. -/
def events : Forest α τ → List (Event α τ)
  | nil => []
  | text t rest => .text t :: rest.events
  | leaf a rest => .leaf a :: rest.events
  | branch a inner rest => .enter a :: (inner.events ++ .leave a :: rest.events)

/-- The trees of a forest, in order. -/
def children : Forest α τ → List (Child α τ)
  | nil => []
  | text _ rest => rest.children
  | leaf a rest => ⟨a, none⟩ :: rest.children
  | branch a inner rest => ⟨a, some inner⟩ :: rest.children

/-- The texts of a forest, in order. -/
def texts : Forest α τ → List τ
  | nil => []
  | text t rest => t :: rest.texts
  | leaf _ rest => rest.texts
  | branch _ _ rest => rest.texts

/-- The first wanted tree and its siblings behind it. -/
def next : Forest α τ → Option (Child α τ × Forest α τ)
  | nil => none
  | text _ rest => rest.next
  | leaf a rest => if wanted a then some (⟨a, none⟩, rest) else rest.next
  | branch a inner rest => if wanted a then some (⟨a, some inner⟩, rest) else rest.next

/-- The events of a tree behind its first one. -/
def Child.pending (child : Child α τ) : List (Event α τ) :=
  match child.inner with
  | none => []
  | some inner => inner.events ++ [.leave child.label]

/-- Where a reader stands that has met the first event of a tree in a branch at `level`. -/
def Child.behind (child : Child α τ) (level : Nat) (ahead : List (Event α τ)) : Position α τ :=
  ⟨child.pending ++ ahead, level + if child.inner.isSome then 1 else 0⟩

variable {wanted level}

/-- The trees that a search is after. -/
def named (wanted : α → Bool) (f : Forest α τ) : List (Child α τ) :=
  f.children.filter fun child => wanted child.label

section Search

variable {depth : Nat} {ahead : List (Event α τ)} {a : α} {b : Bool} {l : Nat}
  {next : Position α τ}

/-- A hit lies one level below where the reader then was, and behind it less is ahead. -/
theorem search_hit (h : search wanted level depth ahead = .hit a b l next)
    (hdepth : level ≤ depth) :
    next.ahead.length < ahead.length ∧ level ≤ next.depth ∧
      searchDirect wanted level depth ahead =
        if l = level + 1 then .hit a b l next
        else searchDirect wanted level next.depth next.ahead := by
  induction ahead generalizing depth with
  | nil => cases h
  | cons event ahead ih =>
    cases event with
    | text t =>
      obtain ⟨hlength, hlevel, hdirect⟩ := ih h hdepth
      exact ⟨by simp only [List.length_cons]; omega, hlevel, hdirect⟩
    | leaf c =>
      simp only [search] at h
      split at h
      · rename_i hwanted
        cases h
        refine ⟨Nat.lt_succ_self _, hdepth, ?_⟩
        simp only [searchDirect, hwanted, true_and, Nat.add_right_cancel_iff]
      · rename_i hwanted
        obtain ⟨hlength, hlevel, hdirect⟩ := ih h hdepth
        refine ⟨by simp only [List.length_cons]; omega, hlevel, ?_⟩
        simpa only [searchDirect, hwanted, false_and, Bool.false_eq_true, if_false] using hdirect
    | enter c =>
      simp only [search] at h
      split at h
      · rename_i hwanted
        cases h
        refine ⟨Nat.lt_succ_self _, Nat.le_succ_of_le hdepth, ?_⟩
        simp only [searchDirect, hwanted, true_and, Nat.add_right_cancel_iff]
      · rename_i hwanted
        obtain ⟨hlength, hlevel, hdirect⟩ := ih h (Nat.le_succ_of_le hdepth)
        refine ⟨by simp only [List.length_cons]; omega, hlevel, ?_⟩
        simpa only [searchDirect, hwanted, false_and, Bool.false_eq_true, if_false] using hdirect
    | leave c =>
      simp only [search] at h
      split at h
      · cases h
      · rename_i hlevel
        obtain ⟨hlength, hnext, hdirect⟩ := ih h (by omega)
        refine ⟨by simp only [List.length_cons]; omega, hnext, ?_⟩
        simpa only [searchDirect, if_neg hlevel] using hdirect

/-- Where no label is found, none is found among the children. -/
theorem search_closed (h : search wanted level depth ahead = .closed next) :
    searchDirect wanted level depth ahead = .closed next := by
  induction ahead generalizing depth with
  | nil => cases h
  | cons event ahead ih =>
    cases event with
    | text t => exact ih h
    | leaf c =>
      simp only [search] at h
      split at h
      · cases h
      · rename_i hwanted
        simpa only [searchDirect, hwanted, false_and, Bool.false_eq_true, if_false] using ih h
    | enter c =>
      simp only [search] at h
      split at h
      · cases h
      · rename_i hwanted
        simpa only [searchDirect, hwanted, false_and, Bool.false_eq_true, if_false] using ih h
    | leave c =>
      simp only [search] at h
      split at h
      · rename_i hlevel
        simpa only [searchDirect, if_pos hlevel] using h
      · rename_i hlevel
        simpa only [searchDirect, if_neg hlevel] using ih h

theorem search_exhausted (h : search wanted level depth ahead = .exhausted) :
    searchDirect wanted level depth ahead = .exhausted := by
  induction ahead generalizing depth with
  | nil => rfl
  | cons event ahead ih =>
    cases event with
    | text t => exact ih h
    | leaf c =>
      simp only [search] at h
      split at h
      · cases h
      · rename_i hwanted
        simpa only [searchDirect, hwanted, false_and, Bool.false_eq_true, if_false] using ih h
    | enter c =>
      simp only [search] at h
      split at h
      · cases h
      · rename_i hwanted
        simpa only [searchDirect, hwanted, false_and, Bool.false_eq_true, if_false] using ih h
    | leave c =>
      simp only [search] at h
      split at h
      · cases h
      · rename_i hlevel
        simpa only [searchDirect, if_neg hlevel] using ih h

/-- What lies too deep is passed over whole. -/
theorem searchDirect_deeper (f : Forest α τ) (tail : List (Event α τ)) (h : level < depth) :
    searchDirect wanted level depth (f.events ++ tail) =
      searchDirect wanted level depth tail := by
  have hne : depth ≠ level := by omega
  induction f generalizing depth tail with
  | nil => rfl
  | text t rest ih => exact ih tail h hne
  | leaf a rest ih =>
    simp only [events, List.cons_append, searchDirect, hne, and_false, if_false]
    exact ih tail h hne
  | branch a inner rest ihInner ihRest =>
    have hne' : depth + 1 ≠ level := by omega
    simp only [events, List.cons_append, List.append_assoc, searchDirect, hne, and_false,
      if_false]
    rw [ihInner _ (by omega) hne']
    simp only [searchDirect, if_neg hne', Nat.add_sub_cancel]
    exact ihRest tail h hne

/-- A reader that stands among the children of a branch finds the next wanted one, or the
end of the branch. -/
theorem searchDirect_events (f : Forest α τ) (c : α) (tail : List (Event α τ)) :
    searchDirect wanted level level (f.events ++ .leave c :: tail) =
      match f.next wanted with
      | none => .closed ⟨tail, level - 1⟩
      | some (child, rest) =>
        .hit child.label child.inner.isSome (level + 1)
          (child.behind level (rest.events ++ .leave c :: tail)) := by
  induction f with
  | nil => simp only [events, List.nil_append, searchDirect, if_true, Forest.next]
  | text t rest ih => exact ih
  | leaf a rest ih =>
    simp only [events, List.cons_append, searchDirect, and_true, Forest.next]
    by_cases hwanted : wanted a = true
    · simp [hwanted, Child.behind, Child.pending]
    · simp only [hwanted, Bool.false_eq_true, if_false]
      exact ih
  | branch a inner rest _ ih =>
    simp only [events, List.cons_append, List.append_assoc, searchDirect, and_true, Forest.next]
    by_cases hwanted : wanted a = true
    · simp [hwanted, Child.behind, Child.pending]
    · have hne : level + 1 ≠ level := by omega
      simp only [hwanted, Bool.false_eq_true, if_false]
      rw [searchDirect_deeper inner _ (Nat.lt_succ_self level)]
      simp only [searchDirect, if_neg hne]
      exact ih

end Search

/-- The first wanted tree is the first of the wanted ones, its siblings hold the others. -/
theorem next_eq_none {f : Forest α τ} (h : f.next wanted = none) : f.named wanted = [] := by
  induction f with
  | nil => rfl
  | text t rest ih => exact ih h
  | leaf a rest ih =>
    simp only [next] at h
    split at h
    · cases h
    · rename_i hwanted
      rw [← ih h]
      exact List.filter_cons_of_neg hwanted
  | branch a inner rest _ ih =>
    simp only [next] at h
    split at h
    · cases h
    · rename_i hwanted
      rw [← ih h]
      exact List.filter_cons_of_neg hwanted

theorem next_eq_some {f rest : Forest α τ} {child : Child α τ}
    (h : f.next wanted = some (child, rest)) :
    f.named wanted = child :: rest.named wanted := by
  induction f with
  | nil => cases h
  | text t _ ih => exact ih h
  | leaf a _ ih =>
    simp only [next] at h
    split at h
    · rename_i hwanted
      cases h
      exact List.filter_cons_of_pos hwanted
    · rename_i hwanted
      rw [← ih h]
      exact List.filter_cons_of_neg hwanted
  | branch a inner _ _ ih =>
    simp only [next] at h
    split at h
    · rename_i hwanted
      cases h
      exact List.filter_cons_of_pos hwanted
    · rename_i hwanted
      rw [← ih h]
      exact List.filter_cons_of_neg hwanted

/-- A forest of texts is nothing but its texts. -/
theorem events_of_texts {f : Forest α τ} (h : f.children = []) :
    f.events = f.texts.map .text := by
  induction f with
  | nil => rfl
  | text t rest ih => exact congrArg (.text t :: ·) (ih h)
  | leaf a rest => cases h
  | branch a inner rest => cases h

end Forest
