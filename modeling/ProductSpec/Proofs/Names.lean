/-
  Lists of named items: where no name occurs twice, looking for the name of an item finds it, also
  among what is made of the items under their names. Changing an item keeps what is found under
  other names.
-/
import Mathlib.Data.List.Nodup

namespace ProductSpec

variable {α β : Type} {name : α → String} {nameOf : β → String} {items : List α}

/-- Where names differ, an item is found under its name. -/
theorem find?_name (distinct : (items.map name).Nodup) {x : α} (mem : x ∈ items) :
    (items.find? fun y => name y == name x) = some x := by
  induction items with
  | nil => cases mem
  | cons first rest ih =>
    obtain ⟨fresh, distinct⟩ := List.nodup_cons.1 distinct
    rcases List.mem_cons.1 mem with rfl | mem
    · exact List.find?_cons_of_pos (beq_self_eq_true _)
    · have unlike : name first ≠ name x := fun same => fresh (same ▸ List.mem_map_of_mem mem)
      rw [List.find?_cons_of_neg (by simpa using unlike)]
      exact ih distinct mem

theorem find?_name_eq_none {label : String} (h : label ∉ items.map name) :
    (items.find? fun y => name y == label) = none := by
  refine List.find?_eq_none.2 fun x mem same => h ?_
  exact beq_iff_eq.1 same ▸ List.mem_map_of_mem mem

theorem of_find?_name {label : String} {x : α}
    (h : (items.find? fun y => name y == label) = some x) : x ∈ items ∧ name x = label := by
  have same := List.find?_some h
  exact ⟨List.mem_of_find?_eq_some h, beq_iff_eq.1 same⟩

theorem isSome_find?_name {label : String} :
    (items.find? fun y => name y == label).isSome = true ↔ label ∈ items.map name := by
  rw [List.find?_isSome, List.mem_map]
  simp only [beq_iff_eq]

/-- What is made of an item is found under the name of the item. -/
theorem find?_map_name {f : α → β} (same : ∀ x, nameOf (f x) = name x)
    (distinct : (items.map name).Nodup) {x : α} (mem : x ∈ items) :
    ((items.map f).find? fun y => nameOf y == name x) = some (f x) := by
  have looked : ((fun y => nameOf y == name x) ∘ f) = fun y => name y == name x := by
    funext y
    exact congrArg (· == name x) (same y)
  rw [List.find?_map, looked, find?_name distinct mem, Option.map_some]

theorem map_name_map {f : α → β} (same : ∀ x, nameOf (f x) = name x) (items : List α) :
    (items.map f).map nameOf = items.map name := by
  rw [List.map_map]
  exact List.map_congr_left fun x _ => same x

/-- Where names differ, what is found does not depend on the order. -/
theorem find?_name_perm {items' : List α} (distinct : (items.map name).Nodup)
    (perm : items.Perm items') (label : String) :
    (items.find? fun x => name x == label) = items'.find? fun x => name x == label := by
  by_cases known : label ∈ items.map name
  · obtain ⟨x, mem, rfl⟩ := List.mem_map.1 known
    have distinct' : (items'.map name).Nodup := (perm.map name).nodup_iff.1 distinct
    rw [find?_name distinct mem, find?_name distinct' (perm.subset mem)]
  · rw [find?_name_eq_none known,
      find?_name_eq_none fun mem => known ((perm.map name).mem_iff.2 mem)]

/-- Items that are alike in pairs are found in pairs. -/
theorem find?_name_rel {R : α → β → Prop} (same : ∀ x y, R x y → name x = nameOf y)
    {others : List β} (alike : List.Forall₂ R items others) (label : String) :
    (items.find? fun x => name x == label).Rel R (others.find? fun y => nameOf y == label) := by
  induction alike with
  | nil => exact .none
  | @cons x y _ _ pair _ ih =>
    rw [List.find?_cons, List.find?_cons, same x y pair]
    split
    · exact .some pair
    · exact ih

/-- The first item of a name is found. -/
theorem find?_name_append {before after : List α} {x : α} (first : ∀ y ∈ before, name y ≠ name x) :
    ((before ++ x :: after).find? fun y => name y == name x) = some x := by
  have none : (before.find? fun y => name y == name x) = none :=
    List.find?_eq_none.2 fun y mem same => first y mem (beq_iff_eq.1 same)
  rw [List.find?_append, none, Option.none_or]
  exact List.find?_cons_of_pos (beq_self_eq_true _)

/-- What is found under other names does not depend on an item. -/
theorem find?_name_replace {before after : List α} {x x' : α} {label : String}
    (same : name x = name x') (unlike : label ≠ name x) :
    ((before ++ x' :: after).find? fun y => name y == label) =
      (before ++ x :: after).find? fun y => name y == label := by
  have apart : (name x == label) = false := beq_false_of_ne unlike.symm
  rw [List.find?_append, List.find?_append, List.find?_cons, List.find?_cons, ← same, apart]

/-- An item that is replaced by another of its name is what is found under a name, or the same is
found as before. -/
theorem find?_name_replace_cases (before after : List α) {x x' : α} (same : name x = name x')
    (label : String) :
    ((before ++ x' :: after).find? fun y => name y == label) =
        ((before ++ x :: after).find? fun y => name y == label) ∨
      label = name x ∧ ((before ++ x :: after).find? fun y => name y == label) = some x ∧
        ((before ++ x' :: after).find? fun y => name y == label) = some x' := by
  rw [List.find?_append, List.find?_append]
  cases before.find? fun y => name y == label with
  | some y => exact .inl rfl
  | none =>
    rw [Option.none_or, Option.none_or, List.find?_cons, List.find?_cons, ← same]
    cases here : name x == label with
    | true => exact .inr ⟨(beq_iff_eq.1 here).symm, rfl, rfl⟩
    | false => exact .inl rfl

/-- The items with the first one of a name changed. -/
def changeNamed (name : α → String) (label : String) (change : α → α) :
    List α → List α
  | [] => []
  | x :: rest =>
    if name x == label then change x :: rest else x :: changeNamed name label change rest

section

variable {label : String} {change : α → α} (same : ∀ x, name (change x) = name x)

include same

theorem find?_changeNamed (items : List α) :
    ((changeNamed name label change items).find? fun x => name x == label) =
      (items.find? fun x => name x == label).map change := by
  induction items with
  | nil => rfl
  | cons x rest ih =>
    unfold changeNamed
    cases here : name x == label with
    | true => simp [same, here]
    | false => simp [here, ih]

theorem find?_changeNamed_of_ne {other : String} (unlike : other ≠ label) (items : List α) :
    ((changeNamed name label change items).find? fun x => name x == other) =
      items.find? fun x => name x == other := by
  induction items with
  | nil => rfl
  | cons x rest ih =>
    unfold changeNamed
    cases here : name x == label with
    | true =>
      have apart : (name x == other) = false := by
        rw [beq_iff_eq.1 here]
        exact beq_false_of_ne unlike.symm
      simp [same, apart]
    | false => rw [if_neg Bool.false_ne_true, List.find?_cons, List.find?_cons, ih]

theorem map_name_changeNamed (items : List α) :
    (changeNamed name label change items).map name = items.map name := by
  induction items with
  | nil => rfl
  | cons x rest ih =>
    unfold changeNamed
    split
    · rw [List.map_cons, same, List.map_cons]
    · rw [List.map_cons, ih, List.map_cons]

end

end ProductSpec
