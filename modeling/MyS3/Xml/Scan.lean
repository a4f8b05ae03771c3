import Mathlib.Data.List.TakeWhile
import MyS3.Core.Nesting
import MyS3.Xml.Text

/-!
# `is_safe_to_read`

The scan for tags, and the same scan read as a list of tags followed by a depth counter.
-/

namespace MyS3.Xml

open Nesting

/-- `<` -/
def lt : UInt8 := 0x3C

/-- `>` -/
def gt : UInt8 := 0x3E

/-- `/` -/
def slash : UInt8 := 0x2F

/-- How the scan classifies a tag. -/
inductive TagKind where
  | declaration | closing | selfClosing | opening
  deriving DecidableEq, Repr

/-- The kind of a tag, from its second byte and its last but one. -/
def tagKind (tag : Bytes) : TagKind :=
  if tag[1]? = some 0x3F ∨ tag[1]? = some 0x21 then .declaration
  else if tag[1]? = some slash then .closing
  else if tag[tag.length - 2]? = some slash then .selfClosing
  else .opening

/-- The loop of `is_safe_to_read`: skips to the next `<`, takes the tag up to its `>`. -/
def scanFrom (depth : Nat) (rest : Bytes) : Bool :=
  if rest.dropWhile (· != lt) = [] then depth == 0
  else if _h : (rest.dropWhile (· != lt)).dropWhile (· != gt) = [] then false
  else
    let tag := (rest.dropWhile (· != lt)).takeWhile (· != gt) ++ [gt]
    let rest' := ((rest.dropWhile (· != lt)).dropWhile (· != gt)).tail
    match tagKind tag with
    | .declaration => scanFrom depth rest'
    | .closing => if depth = 0 then false else scanFrom (depth - 1) rest'
    | .opening => scanFrom (depth + 1) rest'
    | .selfClosing => scanFrom depth rest'
termination_by rest.length
decreasing_by all_goals
  have h₁ := (List.dropWhile_suffix (l := rest) (· != lt)).length_le
  have h₂ := (List.dropWhile_suffix (l := rest.dropWhile (· != lt)) (· != gt)).length_le
  have h₃ := List.length_pos_iff.mpr _h
  simp only [List.length_tail]
  omega

/-- Whether a body is a complete document that the reader can be driven over. -/
def isSafeToRead (body : Bytes) : Bool := (fromUtf8 body).isSome && scanFrom 0 body

/-- The tags of a document, the one being read included; `none` when it never ends. -/
def tagsFrom : Option Bytes → Bytes → Option (List Bytes)
  | none, [] => some []
  | some _, [] => none
  | none, b :: rest => if b = lt then tagsFrom (some [b]) rest else tagsFrom none rest
  | some tag, b :: rest =>
    if b = gt then (tagsFrom none rest).map fun tags => (tag ++ [b]) :: tags
    else tagsFrom (some (tag ++ [b])) rest

/-- The tags of a document. -/
abbrev tags (body : Bytes) : Option (List Bytes) := tagsFrom none body

/-- What a tag does to the depth. -/
def bracket (tag : Bytes) : Bracket :=
  match tagKind tag with
  | .opening => .opening
  | .closing => .closing
  | .declaration | .selfClosing => .neutral

/-- What is outside of tags is skipped. -/
private theorem tags_dropWhile (rest : Bytes) : tags (rest.dropWhile (· != lt)) = tags rest := by
  induction rest with
  | nil => rfl
  | cons b rest ih =>
    by_cases hb : b = lt
    · rw [List.dropWhile_cons_of_neg (by simp [hb])]
    · rw [List.dropWhile_cons_of_pos (by simp [hb]), ih]
      simp only [tags, tagsFrom, if_neg hb]

/-- A tag that was begun runs up to the next `>`. -/
theorem tagsFrom_some (tag rest : Bytes) : tagsFrom (some tag) rest =
    if rest.dropWhile (· != gt) = [] then none
    else (tags (rest.dropWhile (· != gt)).tail).map fun tags =>
      (tag ++ rest.takeWhile (· != gt) ++ [gt]) :: tags := by
  induction rest generalizing tag with
  | nil => rfl
  | cons b rest ih =>
    by_cases hb : b = gt
    · simp [tagsFrom, hb]
    · have hb' : (b != gt) = true := by simp [hb]
      simp only [tagsFrom, if_neg hb, ih, List.dropWhile_cons_of_pos (p := (· != gt)) hb',
        List.takeWhile_cons_of_pos (p := (· != gt)) hb', List.append_assoc,
        List.cons_append, List.nil_append]

/-- A document that still holds a `<`. -/
private theorem tags_of_lt {rest : Bytes} (h : rest.dropWhile (· != lt) ≠ []) : tags rest =
    if (rest.dropWhile (· != lt)).dropWhile (· != gt) = [] then none
    else (tags ((rest.dropWhile (· != lt)).dropWhile (· != gt)).tail).map fun tags =>
      ((rest.dropWhile (· != lt)).takeWhile (· != gt) ++ [gt]) :: tags := by
  rw [← tags_dropWhile]
  have hhead := List.head_dropWhile_not (· != lt) h
  generalize rest.dropWhile (· != lt) = start at h hhead ⊢
  cases start with
  | nil => exact absurd rfl h
  | cons b start =>
    have hb : b = lt := by simpa using hhead
    subst hb
    have hne : (lt != gt) = true := by decide
    simp only [tags, tagsFrom, if_true, tagsFrom_some,
      List.dropWhile_cons_of_pos (p := (· != gt)) hne,
      List.takeWhile_cons_of_pos (p := (· != gt)) hne, List.singleton_append]

/-- One tag and then the rest. -/
private theorem exists_tags_cons {depth : Nat} {tag : Bytes} {rest : Option (List Bytes)} :
    (∃ ts, rest.map (fun ts => tag :: ts) = some ts ∧
      depthAfter depth (ts.map bracket) = some 0) ↔
    ∃ depth', (bracket tag).step depth = some depth' ∧
      ∃ ts, rest = some ts ∧ depthAfter depth' (ts.map bracket) = some 0 := by
  constructor
  · rintro ⟨_, hts, hdepth⟩
    obtain ⟨ts, rfl, rfl⟩ := Option.map_eq_some_iff.mp hts
    obtain ⟨depth', hstep, hrest⟩ := Option.bind_eq_some_iff.mp hdepth
    exact ⟨depth', hstep, ts, rfl, hrest⟩
  · rintro ⟨depth', hstep, ts, rfl, hrest⟩
    refine ⟨tag :: ts, rfl, ?_⟩
    simp only [List.map_cons, depthAfter_cons, hstep, Option.bind_some, hrest]

/-- One turn of the loop is one step of the depth counter. -/
private theorem scanFrom_tag {depth : Nat} {rest : Bytes} (hsome : rest.dropWhile (· != lt) ≠ [])
    (hend : (rest.dropWhile (· != lt)).dropWhile (· != gt) ≠ []) : scanFrom depth rest =
    ((bracket ((rest.dropWhile (· != lt)).takeWhile (· != gt) ++ [gt])).step depth).any
      fun depth' => scanFrom depth' ((rest.dropWhile (· != lt)).dropWhile (· != gt)).tail := by
  rw [scanFrom, if_neg hsome, dif_neg hend]
  simp only [bracket]
  cases tagKind ((rest.dropWhile (· != lt)).takeWhile (· != gt) ++ [gt]) with
  | declaration | selfClosing | opening => rfl
  | closing =>
    simp only [Bracket.step]
    split <;> rfl

/-- The loop accepts what consists of whole tags that nest and close what they open. -/
theorem scanFrom_iff {depth : Nat} {rest : Bytes} : scanFrom depth rest = true ↔
    ∃ ts, tags rest = some ts ∧ depthAfter depth (ts.map bracket) = some 0 := by
  induction hn : rest.length using Nat.strongRecOn generalizing depth rest with
  | ind n ih =>
    by_cases hnone : rest.dropWhile (· != lt) = []
    · rw [scanFrom, if_pos hnone, ← tags_dropWhile, hnone]
      simp [tagsFrom]
    by_cases hend : (rest.dropWhile (· != lt)).dropWhile (· != gt) = []
    · rw [scanFrom, if_neg hnone, dif_pos hend, tags_of_lt hnone, if_pos hend]
      simp
    rw [scanFrom_tag hnone hend, tags_of_lt hnone, if_neg hend, exists_tags_cons,
      Option.any_eq_true]
    have hshorter :
        ((rest.dropWhile (· != lt)).dropWhile (· != gt)).tail.length < n := by
      have h₁ := (List.dropWhile_suffix (l := rest) (· != lt)).length_le
      have h₂ := (List.dropWhile_suffix (l := rest.dropWhile (· != lt)) (· != gt)).length_le
      have h₃ := List.length_pos_iff.mpr hend
      rw [List.length_tail]
      omega
    simp only [ih _ hshorter rfl]

/-- What `is_safe_to_read` accepts. -/
theorem isSafeToRead_iff {body : Bytes} : isSafeToRead body = true ↔
    (fromUtf8 body).isSome = true ∧ ∃ ts, tags body = some ts ∧ WellNested (ts.map bracket) := by
  rw [isSafeToRead, Bool.and_eq_true, scanFrom_iff]
  rfl

section Prefix

variable {head body : Bytes} {ts : List Bytes}

private theorem tagsFrom_append {begun : Option Bytes} (h : tagsFrom begun head = some ts) :
    tagsFrom begun (head ++ body) = (tags body).map (ts ++ ·) := by
  induction head generalizing begun ts with
  | nil =>
    cases begun with
    | none =>
      cases h
      simp
    | some tag => cases h
  | cons b head ih =>
    cases begun with
    | none =>
      simp only [List.cons_append, tagsFrom] at h ⊢
      split at h
      · rename_i hb
        rw [if_pos hb]
        exact ih h
      · rename_i hb
        rw [if_neg hb]
        exact ih h
    | some tag =>
      simp only [List.cons_append, tagsFrom] at h ⊢
      split at h
      · rename_i hb
        obtain ⟨ts', hts, rfl⟩ := Option.map_eq_some_iff.mp h
        rw [if_pos hb, ih hts, Option.map_map]
        rfl
      · rename_i hb
        rw [if_neg hb]
        exact ih h

/-- Behind whole tags the rest is read on its own. -/
theorem tags_append (h : tags head = some ts) :
    tags (head ++ body) = (tags body).map (ts ++ ·) :=
  tagsFrom_append h

/-- A document cut between two tags has the first ones of them. -/
theorem tags_initial (h : tags (head ++ body) = some ts) {ts' : List Bytes}
    (h' : tags head = some ts') : ts' <+: ts := by
  rw [tags_append h'] at h
  obtain ⟨rest, -, rfl⟩ := Option.map_eq_some_iff.mp h
  exact List.prefix_append _ _

/-- A document cut inside a tag is refused. -/
theorem tags_cut {inner : Bytes} (h : tags head = some ts) (hinner : gt ∉ inner) :
    tags (head ++ lt :: inner) = none := by
  rw [tags_append h]
  have hunended : tagsFrom (some [lt]) inner = none := by
    rw [tagsFrom_some, if_pos]
    apply List.dropWhile_eq_nil_iff.mpr
    intro b hb
    simp only [bne_iff_ne, ne_eq]
    rintro rfl
    exact hinner hb
  simp only [tags, tagsFrom, if_true, hunended, Option.map_none]

/-- Text holds no tag. -/
theorem tags_text {text : Bytes} (htext : lt ∉ text) : tags text = some [] := by
  induction text with
  | nil => rfl
  | cons b text ih =>
    simp only [List.mem_cons, not_or] at htext
    simp only [tags, tagsFrom, if_neg (Ne.symm htext.1)]
    exact ih htext.2

/-- A tag is a document of its own. -/
theorem tags_tag {inner : Bytes} (hinner : gt ∉ inner) :
    tags (lt :: inner ++ [gt]) = some [lt :: inner ++ [gt]] := by
  have hall : ∀ b ∈ inner, (b != gt) = true := by
    intro b hb
    simp only [bne_iff_ne, ne_eq]
    rintro rfl
    exact hinner hb
  have hend : [gt].dropWhile (· != gt) = [gt] := by decide
  have hnone : [gt].takeWhile (· != gt) = [] := by decide
  simp only [tags, List.cons_append, tagsFrom, if_true, tagsFrom_some,
    List.dropWhile_append_of_pos hall, List.takeWhile_append_of_pos hall, hend, hnone,
    List.append_nil, List.nil_append, List.tail_cons, Option.map_some, reduceCtorEq, if_false]

end Prefix

/-- A tag that neither begins nor ends as another kind does opens. -/
theorem tagKind_opening {b : UInt8} {rest : Bytes} (hfirst : b ≠ 0x3F ∧ b ≠ 0x21 ∧ b ≠ slash)
    (hlast : (b :: rest).getLast? ≠ some slash) :
    tagKind (lt :: b :: rest ++ [gt]) = .opening := by
  have hat : (lt :: b :: rest ++ [gt])[(lt :: b :: rest ++ [gt]).length - 2]? =
      (b :: rest).getLast? := by
    have hlen : (lt :: b :: rest ++ [gt]).length - 2 = rest.length + 1 := by simp
    rw [hlen, List.cons_append, List.getElem?_cons_succ, List.getLast?_eq_getElem?,
      List.getElem?_append_left (by simp)]
    rfl
  simp only [tagKind, hat, if_neg hlast]
  simp [hfirst]

end MyS3.Xml
