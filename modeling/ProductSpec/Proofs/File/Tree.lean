/-
  What operations do to the entries of a file tree: each changes what is at one place or below one
  place and leaves everything else as it is.
-/
import ProductSpec.File.Tree

namespace ProductSpec.FileTree

variable {t t' : FileTree} {p q : FilePlace} {e : FileEntry}

/-- All entries at a place. A tree that came about by operations has at most one. -/
def entriesAt (t : FileTree) (p : FilePlace) : List FileEntry :=
  (t.entries.filter fun e => e.1 == p).map Prod.snd

theorem mem_entriesAt : e ∈ t.entriesAt p ↔ (p, e) ∈ t.entries := by
  simp [entriesAt]

theorem get?_eq (h : p ≠ []) : t.get? p = (t.entriesAt p).head? := by
  rw [get?, if_neg h, entriesAt]
  induction t.entries with
  | nil => rfl
  | cons e rest ih =>
    obtain ⟨q, e⟩ := e
    by_cases same : q = p
    · simp [same]
    · have unlike : (p == q) = false := beq_false_of_ne (Ne.symm same)
      simp [List.lookup_cons, unlike, same, ih]

theorem get?_eq_none (h : p ≠ []) : t.get? p = none ↔ t.entriesAt p = [] := by
  rw [get?_eq h, List.head?_eq_none_iff]

/-- The root is a directory. -/
theorem ne_nil_of_get? {found : Option FileEntry} (h : t.get? p = found)
    (notDirectory : found ≠ some .directory) : p ≠ [] := by
  rintro rfl
  exact notDirectory h.symm

theorem entriesAt_erase : (t.erase p).entriesAt q = if q = p then [] else t.entriesAt q := by
  rw [entriesAt, erase, List.filter_filter]
  split
  · next same => simp [same]
  · next unlike =>
    rw [entriesAt]
    congr 1
    refine List.filter_congr fun e _ => ?_
    by_cases here : e.1 = q
    · simp [here, unlike]
    · simp [here]

theorem get?_erase_self (filled : p ≠ []) : (t.erase p).get? p = none := by
  rw [get?_eq_none filled, entriesAt_erase, if_pos rfl]

theorem entriesAt_set : (t.set p e).entriesAt q = if q = p then [e] else t.entriesAt q := by
  have others := entriesAt_erase (t := t) (p := p) (q := q)
  rw [entriesAt] at others ⊢
  rw [set, List.filter_cons]
  split at others
  · next same =>
    rw [if_pos (by simp [same]), List.map_cons, others, if_pos same]
  · next unlike =>
    rw [if_neg (by simpa using Ne.symm unlike), others, if_neg unlike]

theorem entriesAt_eraseBelow :
    (t.eraseBelow p).entriesAt q = if p <+: q then [] else t.entriesAt q := by
  rw [entriesAt, eraseBelow, List.filter_filter]
  split
  · next below =>
    rw [List.filter_eq_nil_iff.2, List.map_nil]
    intro e _
    by_cases here : e.1 = q
    · simp [here, below]
    · simp [here]
  · next apart =>
    rw [entriesAt]
    congr 1
    refine List.filter_congr fun e _ => ?_
    by_cases here : e.1 = q
    · have kept : p.isPrefixOf q = false :=
        Bool.eq_false_iff.2 fun below => apart (List.isPrefixOf_iff_prefix.1 below)
      simp [here, kept]
    · simp [here]

section Move

/-- Where an entry is after everything at and below one place has moved to another one. -/
def moved (source target p : FilePlace) : FilePlace :=
  if source.isPrefixOf p then target ++ p.drop source.length else p

theorem moved_below (source target rest : FilePlace) :
    moved source target (source ++ rest) = target ++ rest := by
  rw [moved, if_pos (List.isPrefixOf_iff_prefix.2 (List.prefix_append _ _)), List.drop_left]

theorem moved_apart {source target : FilePlace} (h : ¬ source <+: p) :
    moved source target p = p :=
  if_neg fun below => h (List.isPrefixOf_iff_prefix.1 below)

theorem entriesAt_move (source target : FilePlace) :
    (t.move source target).entriesAt q =
      (t.entries.filter fun e => moved source target e.1 == q).map Prod.snd := by
  rw [entriesAt, move, List.filter_map, List.map_map]
  rfl

variable {source target : FilePlace}

theorem not_below_of_free (free : ∀ rest, t.entriesAt (target ++ rest) = [])
    {e : FilePlace × FileEntry} (h : e ∈ t.entries) : ¬ target <+: e.1 := by
  rintro ⟨rest, below⟩
  have mem : e.2 ∈ t.entriesAt (target ++ rest) := mem_entriesAt.2 (below ▸ h)
  rw [free] at mem
  cases mem

/-- What has moved is found at the new place. -/
theorem entriesAt_move_target (free : ∀ rest, t.entriesAt (target ++ rest) = [])
    (rest : FilePlace) :
    (t.move source target).entriesAt (target ++ rest) = t.entriesAt (source ++ rest) := by
  rw [entriesAt_move, entriesAt]
  congr 1
  refine List.filter_congr fun e mem => ?_
  -- What is found at the target has come from the source, as nothing else was there.
  by_cases below : source <+: e.1
  · obtain ⟨rest', form⟩ := below
    rw [← form, moved_below, Bool.eq_iff_iff, beq_iff_eq, beq_iff_eq, List.append_right_inj,
      List.append_right_inj]
  · have elsewhere : e.1 ≠ source ++ rest := fun same => below ⟨rest, same.symm⟩
    have apart : e.1 ≠ target ++ rest := fun same =>
      not_below_of_free free mem ⟨rest, same.symm⟩
    rw [moved_apart below, beq_false_of_ne elsewhere, beq_false_of_ne apart]

theorem entriesAt_move_other (apart : ¬ target <+: q) :
    (t.move source target).entriesAt q = if source <+: q then [] else t.entriesAt q := by
  rw [entriesAt_move]
  split
  · next below =>
    rw [List.filter_eq_nil_iff.2, List.map_nil]
    intro e mem h
    have same := eq_of_beq h
    by_cases from' : source <+: e.1
    · obtain ⟨rest, form⟩ := from'
      rw [← form, moved_below] at same
      exact apart ⟨rest, same⟩
    · rw [moved_apart from'] at same
      exact from' (same ▸ below)
  · next outside =>
    rw [entriesAt]
    congr 1
    refine List.filter_congr fun e mem => ?_
    by_cases below : source <+: e.1
    · have elsewhere : e.1 ≠ q := fun same => outside (same ▸ below)
      obtain ⟨rest, form⟩ := below
      have gone : moved source target e.1 ≠ q := by
        rw [← form, moved_below]
        exact fun same => apart ⟨rest, same⟩
      rw [beq_false_of_ne gone, beq_false_of_ne elsewhere]
    · rw [moved_apart below]

end Move

/-- The name under which a directory lists an entry, if the entry is right below it. -/
def childOf? (p : FilePlace) (r : FilePlace × FileEntry) : Option (String × FileKind) :=
  match r.1.getLast? with
  | some name => if r.1.dropLast = p then some (name, r.2.kind) else none
  | none => none

theorem children_eq : t.children p = t.entries.filterMap (childOf? p) := rfl

theorem childOf?_eq_some {r : FilePlace × FileEntry} {child : String × FileKind} :
    childOf? p r = some child ↔ r.1 = p ++ [child.1] ∧ r.2.kind = child.2 := by
  obtain ⟨q, e⟩ := r
  obtain ⟨name, kind⟩ := child
  rcases List.eq_nil_or_concat q with rfl | ⟨before, last, rfl⟩
  · simp [childOf?]
  · rw [List.concat_eq_append, childOf?]
    by_cases same : before = p
    · simp [same]
    · simp [same]

/-- The names in a directory are those of the entries right below it. -/
theorem mem_children {name : String} {kind : FileKind} :
    (name, kind) ∈ t.children p ↔ ∃ e ∈ t.entriesAt (p ++ [name]), e.kind = kind := by
  simp only [children_eq, List.mem_filterMap, childOf?_eq_some, mem_entriesAt]
  constructor
  · rintro ⟨⟨place, e⟩, mem, rfl, rfl⟩
    exact ⟨e, mem, rfl⟩
  · rintro ⟨e, mem, rfl⟩
    exact ⟨(p ++ [name], e), mem, rfl, rfl⟩

theorem count_children (name : String) :
    ((t.children p).map Prod.fst).count name = (t.entriesAt (p ++ [name])).length := by
  rw [children_eq, entriesAt, List.length_map]
  induction t.entries with
  | nil => rfl
  | cons r rest ih =>
    cases child : childOf? p r with
    | none =>
      have elsewhere : r.1 ≠ p ++ [name] := by
        intro same
        have listed : childOf? p r = some (name, r.2.kind) := childOf?_eq_some.2 ⟨same, rfl⟩
        rw [child] at listed
        cases listed
      rw [List.filterMap_cons_none child, ih, List.filter_cons_of_neg (by simpa using elsewhere)]
    | some found =>
      have place := (childOf?_eq_some.1 child).1
      rw [List.filterMap_cons_some child, List.map_cons, List.count_cons, ih, List.filter_cons,
        place]
      by_cases same : found.1 = name
      · simp [same]
      · simp [same]

theorem nodup_children (once : ∀ name, (t.entriesAt (p ++ [name])).length ≤ 1) :
    ((t.children p).map Prod.fst).Nodup := by
  rw [List.nodup_iff_count]
  intro name
  rw [count_children]
  exact once name

end ProductSpec.FileTree
