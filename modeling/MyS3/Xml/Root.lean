import MyS3.Xml.Walker

/-!
# Documents that end inside their root

A body that is cut before the end of its root element is refused, or it is cut before the
root and holds no tag of the root's name.
-/

namespace MyS3.Xml

open Nesting

/-- A whole tag: it runs from `<` to the first `>`. -/
def IsTag (tag : Bytes) : Prop := ∃ inner, tag = lt :: inner ++ [gt] ∧ gt ∉ inner

/-- Behind `head`, the tag closes the root: the first element whose tag begins with the
name, with whole elements in between, or that element itself. -/
inductive ClosesRoot (name : String) (head : Bytes) : Bytes → Prop
  | closing {before inside : List Bytes} {opening tag : Bytes}
      (hhead : tags head = some (before ++ opening :: inside))
      (hfirst : ∀ t ∈ before, ¬ Names name t) (hname : Names name opening)
      (hopening : tagKind opening = .opening) (hinside : WellNested (inside.map bracket))
      (hclosing : tagKind tag = .closing) : ClosesRoot name head tag
  | selfClosing {before : List Bytes} {tag : Bytes} (hhead : tags head = some before)
      (hfirst : ∀ t ∈ before, ¬ Names name t) (hname : Names name tag)
      (hself : tagKind tag = .selfClosing) : ClosesRoot name head tag

/-- A body that is refused, or in which no tag begins with the name. -/
def Lacks (name : String) (body : Bytes) : Prop :=
  isSafeToRead body = true → ∃ ts, tags body = some ts ∧ ∀ t ∈ ts, ¬ Names name t

variable {name : String} {head tag p : Bytes} {ts : List Bytes}

/-- A document that was cut in the middle of a tag is refused. -/
private theorem tags_cut_in_tag {rest : Bytes} (h : tags head = some ts) (htag : IsTag tag)
    (hrest : rest <+: tag) (hsome : rest ≠ []) (hproper : rest.length < tag.length) :
    tags (head ++ rest) = none := by
  obtain ⟨inner, rfl, hinner⟩ := htag
  cases rest with
  | nil => exact absurd rfl hsome
  | cons b rest =>
    rw [List.cons_append, List.cons_prefix_cons] at hrest
    obtain ⟨rfl, hrest⟩ := hrest
    refine tags_cut h fun hmem => hinner ?_
    have hshort : rest <+: inner := by
      apply List.prefix_of_prefix_length_le hrest (List.prefix_append _ _)
      simp only [List.length_cons, List.length_append, List.length_nil] at hproper
      omega
    exact hshort.subset hmem

/-- What was read of the root's inside leaves it open. -/
private theorem not_balanced_inside {before inside read : List Bytes} {opening : Bytes}
    (hopening : tagKind opening = .opening) (hinside : WellNested (inside.map bracket))
    (hread : read <+: inside) : ¬ WellNested ((before ++ opening :: read).map bracket) := by
  intro hbalanced
  obtain ⟨unread, rfl⟩ := hread
  rw [List.map_append] at hinside
  rw [WellNested, List.map_append, depthAfter_append] at hbalanced
  obtain ⟨d, -, hd⟩ := Option.bind_eq_some_iff.mp hbalanced
  obtain ⟨m, hm, hlt⟩ := hinside.above (d := d)
  simp only [List.map_cons, show bracket opening = .opening by simp [bracket, hopening],
    hm] at hd
  cases hd
  exact absurd hlt (Nat.not_lt_zero _)

/-- What was read of a document up to a point inside its root. -/
private theorem prefix_cases {before inside read : List Bytes} {opening : Bytes}
    (h : read <+: before ++ opening :: inside) :
    read <+: before ∨ ∃ read', read = before ++ opening :: read' ∧ read' <+: inside := by
  rcases List.prefix_or_prefix_of_prefix h (List.prefix_append _ _) with hread | ⟨rest, rfl⟩
  · exact .inl hread
  · rw [List.prefix_append_right_inj] at h
    cases rest with
    | nil => exact .inl (by simp only [List.append_nil, List.prefix_refl])
    | cons t rest =>
      obtain ⟨rfl, hrest⟩ := List.cons_prefix_cons.mp h
      exact .inr ⟨rest, rfl, hrest⟩

/-- A cut before the end of the root is refused, or no tag of the root's name was read. -/
theorem cut_before_root (htag : IsTag tag) (hroot : ClosesRoot name head tag)
    (hp : p <+: head ++ tag) (hcut : p.length < (head ++ tag).length) : Lacks name p := by
  intro hsafe
  obtain ⟨-, read, hread, hbalanced⟩ := isSafeToRead_iff.mp hsafe
  refine ⟨read, hread, ?_⟩
  obtain ⟨ts, hhead⟩ : ∃ ts, tags head = some ts := by
    cases hroot with
    | closing hhead => exact ⟨_, hhead⟩
    | selfClosing hhead => exact ⟨_, hhead⟩
  by_cases hbefore : p <+: head
  · obtain ⟨rest, rfl⟩ := hbefore
    cases hroot with
    | closing hhead hfirst hname hopening hinside hclosing =>
      rcases prefix_cases (tags_initial hhead hread) with hbefore | ⟨read', rfl, hinside'⟩
      · exact fun t ht => hfirst t (hbefore.subset ht)
      · exact absurd hbalanced (not_balanced_inside hopening hinside hinside')
    | selfClosing hhead hfirst hname hself =>
      exact fun t ht => hfirst t ((tags_initial hhead hread).subset ht)
  · -- The cut lies in the tag that closes the root.
    obtain ⟨rest, rfl⟩ := (List.prefix_or_prefix_of_prefix hp
      (List.prefix_append _ _)).resolve_left hbefore
    have hsome : rest ≠ [] := by
      rintro rfl
      exact hbefore (by simp only [List.append_nil, List.prefix_refl])
    rw [List.prefix_append_right_inj] at hp
    rw [List.length_append, List.length_append, Nat.add_lt_add_iff_left] at hcut
    rw [tags_cut_in_tag hhead htag hp hsome hcut] at hread
    cases hread

section Reading

variable {R : MyXmlReader} {body : Bytes}

/-- The reader finds no node of the name. -/
private theorem find_ne_some (hR : R.FindsTags name) (h : Lacks name body)
    (hsafe : isSafeToRead body = true) {reader reader' : R.State} {node : XmlTagInfo}
    (hslice : R.fromSlice body = .ok reader) :
    R.findTheOpenNode reader name ≠ .ok (some node, reader') := by
  intro hfind
  obtain ⟨ts, hts, hnone⟩ := h hsafe
  obtain ⟨t, ht, hname⟩ := hR hsafe hts hslice hfind
  exact hnone t ht hname

/-- Such a body is not opened. -/
theorem open_ne_some (hR : R.FindsTags name) (h : Lacks name body) (w : XmlWalker R) :
    XmlWalker.open R body name ≠ .ok (some w) := by
  intro hopen
  unfold XmlWalker.open at hopen
  split at hopen
  · rename_i hsafe
    split at hopen
    · cases hopen
    · rename_i hslice
      split at hopen
      · cases hopen
      · cases hopen
      · rename_i hfind
        exact find_ne_some hR h hsafe hslice hfind
  · cases hopen

/-- And no text is read from it. -/
theorem readNodeText_eq_none (hR : R.FindsTags name) (h : Lacks name body) :
    readNodeText R body name = none := by
  unfold readNodeText
  split
  · rename_i hsafe
    split
    · rfl
    · rename_i hslice
      split
      · rename_i hfind
        exact absurd hfind (find_ne_some hR h hsafe hslice)
      · rfl
  · rfl

end Reading

end MyS3.Xml
