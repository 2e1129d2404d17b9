/-
  What a comparison without breaking changes says about two datasets: parts that both have ask for
  the same, and a part that only one of them has is optional.
-/
import ProductSpec.Comparison.Dataset
import ProductSpec.Proofs.Attribute.Equality
import ProductSpec.Proofs.Names
import ProductSpec.Proofs.Validation.Silent

namespace ProductSpec

/-- Changes none of which is breaking. -/
def Harmless (changes : List Change) : Prop := ∀ c ∈ changes, c.isBreaking = false

theorem harmless_append {changes others : List Change} :
    Harmless (changes ++ others) ↔ Harmless changes ∧ Harmless others :=
  List.forall_mem_append

theorem harmless_flatMap {α : Type} {items : List α} {changes : α → List Change} :
    Harmless (items.flatMap changes) ↔ ∀ x ∈ items, Harmless (changes x) := by
  constructor
  · intro harmless x isIn c mem
    exact harmless c (List.mem_flatMap.2 ⟨x, isIn, mem⟩)
  · intro harmless c mem
    obtain ⟨x, isIn, mem⟩ := List.mem_flatMap.1 mem
    exact harmless x isIn c mem

theorem not_harmless {change : Change} (breaking : change.isBreaking = true) :
    ¬ Harmless [change] := by
  intro harmless
  rw [harmless change List.mem_cons_self] at breaking
  cases breaking

/-- A breaking change is absent only if its cause is. -/
theorem of_harmless_ite {c : Prop} [Decidable c] {change : Change}
    (breaking : change.isBreaking = true) (h : Harmless (if c then [change] else [])) : ¬ c := by
  intro cause
  rw [if_pos cause] at h
  exact not_harmless breaking h

theorem harmless_of_isCompatible {changes : List Change}
    (h : (Comparison.ofChanges false changes).isCompatible = true) : Harmless changes := by
  intro c mem
  unfold Comparison.ofChanges at h
  cases breaking : c.isBreaking with
  | false => rfl
  | true =>
    have some : changes.any Change.isBreaking = true := List.any_eq_true.2 ⟨c, mem, breaking⟩
    simp [some] at h

/-- New parts continue old ones: those of one name agree, and a part that only one side has is
optional. -/
structure Continues {α : Type} (name : α → String) (required : α → Bool) (Agree : α → α → Prop)
    (old new : List α) : Prop where
  kept : ∀ o ∈ old, ∀ n ∈ new, name n = name o → Agree o n
  added : ∀ n ∈ new, name n ∉ old.map name → required n = false
  removed : ∀ o ∈ old, name o ∉ new.map name → required o = false

theorem Continues.imp {α : Type} {name : α → String} {required : α → Bool}
    {Agree Agree' : α → α → Prop} {old new : List α} (h : Continues name required Agree old new)
    (weaker : ∀ o n, n ∈ new → Agree o n → Agree' o n) : Continues name required Agree' old new :=
  ⟨fun o isOld n isNew same => weaker o n isNew (h.kept o isOld n isNew same), h.added, h.removed⟩

/-- A new part continues an old one, or it is optional and a file without unknown parts does not
have it. -/
theorem Continues.cases {α β : Type} {name : α → String} {required : α → Bool}
    {Agree : α → α → Prop} {old new : List α} (h : Continues name required Agree old new)
    {find : String → Option β} (known : ∀ label, label ∉ old.map name → find label = none)
    {n : α} (isNew : n ∈ new) :
    (∃ o ∈ old, name o = name n ∧ Agree o n) ∨ required n = false ∧ find (name n) = none := by
  by_cases fresh : name n ∈ old.map name
  · obtain ⟨o, isOld, same⟩ := List.mem_map.1 fresh
    exact .inl ⟨o, isOld, same, h.kept o isOld n isNew same.symm⟩
  · exact .inr ⟨h.added n isNew fresh, known _ fresh⟩

namespace AttributeConstraint

/-- Constraints that ask for the same. -/
structure Agree (old new : AttributeConstraint) : Prop where
  required : old.isRequired = new.isRequired
  meets : ∀ value, old.meets value = new.meets value

theorem Agree.accepts {old new : AttributeConstraint} (agree : old.Agree new)
    {value? : Option AttributeValue} (h : old.Accepts value?) : new.Accepts value? := by
  cases value? with
  | none => exact agree.required.symm.trans h
  | some value => exact (agree.meets value).symm.trans h

theorem agree_of_harmless {path : NodePath} {old new : AttributeConstraint}
    (h : Harmless (old.changes path new)) : old.Agree new := by
  unfold changes at h
  cases oldKind : old.kind with
  | literal a =>
    cases newKind : new.kind with
    | literal b =>
      rw [oldKind, newKind] at h
      have same : (a == b) = true := by
        by_contra differ
        refine of_harmless_ite rfl h ?_
        rw [bne, Bool.eq_false_iff.2 differ]
        rfl
      constructor
      · simp only [isRequired, oldKind, newKind]
      · intro value
        simp only [meets, oldKind, newKind]
        exact Literal.matches_congr same value
    | placeholder q =>
      rw [oldKind, newKind] at h
      exact absurd h (not_harmless rfl)
  | placeholder p =>
    cases newKind : new.kind with
    | literal b =>
      rw [oldKind, newKind] at h
      exact absurd h (not_harmless rfl)
    | placeholder q =>
      rw [oldKind, newKind] at h
      dsimp only at h
      split at h
      · exact absurd h (not_harmless rfl)
      · next sameType =>
        split at h
        · exact absurd h (not_harmless rfl)
        · next sameRequired =>
          simp only [Bool.or_eq_true, bne_iff_ne, ne_eq, not_or, not_not] at sameType sameRequired
          obtain ⟨baseType, isArray⟩ := sameType
          constructor
          · simp only [isRequired, oldKind, newKind, sameRequired]
          · intro value
            simp only [meets, oldKind, newKind, AttributeValue.conformsTo, baseType, isArray]

end AttributeConstraint

section Attributes

variable {path : NodePath} {old new : List AttributeConstraint} {o n : AttributeConstraint}

theorem subset_attributeChanges (distinct : (new.map AttributeConstraint.name).Nodup)
    (isOld : o ∈ old) (isNew : n ∈ new) (same : n.name = o.name) :
    o.changes (path.child "attributes" o.name) n ⊆ attributeChanges path old new := by
  intro c mem
  have found := find?_name distinct isNew
  rw [same] at found
  refine List.mem_append_left _ (List.mem_flatMap.2 ⟨o, isOld, ?_⟩)
  dsimp only
  rw [found]
  exact mem

theorem removed_mem_attributeChanges (isOld : o ∈ old)
    (gone : o.name ∉ new.map AttributeConstraint.name) :
    o.removed (path.child "attributes" o.name) ∈ attributeChanges path old new := by
  refine List.mem_append_left _ (List.mem_flatMap.2 ⟨o, isOld, ?_⟩)
  dsimp only
  rw [find?_name_eq_none gone]
  exact List.mem_cons_self

theorem added_mem_attributeChanges (isNew : n ∈ new)
    (fresh : n.name ∉ old.map AttributeConstraint.name) :
    n.added (path.child "attributes" n.name) ∈ attributeChanges path old new := by
  have unmatched : (!old.any fun o => o.name == n.name) = true := by
    rw [Bool.not_eq_true', List.any_eq_false]
    intro o isOld same
    exact fresh (beq_iff_eq.1 same ▸ List.mem_map_of_mem isOld)
  exact List.mem_append_right _ (List.mem_map_of_mem (List.mem_filter.2 ⟨isNew, unmatched⟩))

theorem continues_attributes (distinct : (new.map AttributeConstraint.name).Nodup)
    (h : Harmless (attributeChanges path old new)) :
    Continues AttributeConstraint.name AttributeConstraint.isRequired AttributeConstraint.Agree
      old new where
  kept _ isOld _ isNew same := AttributeConstraint.agree_of_harmless fun c mem =>
    h c (subset_attributeChanges distinct isOld isNew same mem)
  added _ isNew fresh := h _ (added_mem_attributeChanges isNew fresh)
  removed _ isOld gone := h _ (removed_mem_attributeChanges isOld gone)

end Attributes

namespace NodeKind

variable {α : Type} {name : α → String} (required : α → Bool) {k : NodeKind} {path : NodePath}
  {old new : List α}

/-- A heading has no partner on the other side if its name is not there. -/
theorem unmatched_heading {items : List α} {label : String} (absent : label ∉ items.map name) :
    (!(items.map fun x => (name x, required x)).any fun e => e.1 == label) = true := by
  rw [Bool.not_eq_true', List.any_eq_false]
  intro e mem same
  obtain ⟨x, isIn, rfl⟩ := List.mem_map.1 mem
  exact absent (beq_iff_eq.1 same ▸ List.mem_map_of_mem isIn)

theorem exists_removed {o : α} (isOld : o ∈ old) (gone : name o ∉ new.map name) :
    ∃ c ∈ k.addedRemoved path (old.map fun x => (name x, required x))
        (new.map fun x => (name x, required x)),
      c.kind = .nodeRemoved ∧ c.isBreaking = required o := by
  exact ⟨_, List.mem_append_left _ (List.mem_map_of_mem
    (List.mem_filter.2 ⟨List.mem_map_of_mem isOld, unmatched_heading required gone⟩)), rfl, rfl⟩

theorem exists_added {n : α} (isNew : n ∈ new) (fresh : name n ∉ old.map name) :
    ∃ c ∈ k.addedRemoved path (old.map fun x => (name x, required x))
        (new.map fun x => (name x, required x)),
      c.kind = .nodeAdded ∧ c.isBreaking = required n := by
  exact ⟨_, List.mem_append_right _ (List.mem_map_of_mem
    (List.mem_filter.2 ⟨List.mem_map_of_mem isNew, unmatched_heading required fresh⟩)), rfl, rfl⟩

end NodeKind

/-- The same for the nodes of one kind in a group. -/
theorem continues_nodes {α : Type} {name : α → String} {k : NodeKind} {path : NodePath}
    {old new : List α} (required : α → Bool) (changes : α → α → List Change)
    (distinct : (new.map name).Nodup)
    (differences : Harmless (k.addedRemoved path (old.map fun x => (name x, required x))
      (new.map fun x => (name x, required x))))
    (kept : ∀ o ∈ old, ∀ n, (new.find? fun n => name n == name o) = some n →
      Harmless (changes o n)) :
    Continues name required (fun o n => Harmless (changes o n)) old new := by
  refine ⟨fun o isOld n isNew same => ?_, fun n isNew fresh => ?_, fun o isOld gone => ?_⟩
  · have found := find?_name distinct isNew
    rw [same] at found
    exact kept o isOld n found
  · obtain ⟨c, mem, -, breaking⟩ := NodeKind.exists_added required isNew fresh
    exact breaking.symm.trans (differences c mem)
  · obtain ⟨c, mem, -, breaking⟩ := NodeKind.exists_removed required isOld gone
    exact breaking.symm.trans (differences c mem)

theorem required_of_harmless {path : NodePath} {old new : NodeInfo}
    (h : Harmless (old.changes path new)) : old.required = new.required := by
  have same := of_harmless_ite rfl (harmless_append.1 h).1
  simpa using same

namespace Dimension

/-- Dimensions that ask for the same. -/
structure Agree (old new : Dimension) : Prop where
  size : old.size = new.size
  required : old.info.required = new.info.required

theorem Agree.accepts {old new : Dimension} (agree : old.Agree new)
    {actual? : Option FileDimension} (h : old.Accepts actual?) : new.Accepts actual? := by
  cases actual? with
  | none => exact agree.required.symm.trans h
  | some actual =>
    unfold Accepts
    rw [← agree.size]
    exact h

theorem agree_of_harmless {path : NodePath} {old new : Dimension}
    (h : Harmless (old.changes path new)) : old.Agree new := by
  obtain ⟨sameSize, sameInfo⟩ := harmless_append.1 h
  have size := of_harmless_ite rfl sameSize
  exact ⟨by simpa using size, required_of_harmless sameInfo⟩

end Dimension

namespace Variable

/-- Variables that ask for the same, attributes that only one of them has apart. -/
structure Agree (old new : Variable) : Prop where
  dataType : old.dataType = new.dataType
  dimensions : old.dimensions = new.dimensions
  required : old.info.required = new.info.required
  attributes : Continues AttributeConstraint.name AttributeConstraint.isRequired
    AttributeConstraint.Agree old.attributes new.attributes

theorem agree_of_harmless {path : NodePath} {old new : Variable}
    (distinct : (new.attributes.map AttributeConstraint.name).Nodup)
    (h : Harmless (old.changes path new)) : old.Agree new := by
  unfold changes at h
  rw [harmless_append, harmless_append, harmless_append] at h
  obtain ⟨⟨⟨sameType, sameDimensions⟩, sameInfo⟩, sameAttributes⟩ := h
  have dataType := of_harmless_ite rfl sameType
  have dimensions := of_harmless_ite rfl sameDimensions
  exact ⟨by simpa using dataType, by simpa using dimensions, required_of_harmless sameInfo,
    continues_attributes distinct sameAttributes⟩

end Variable

namespace Group

theorem changesAll_eq (path : NodePath) (new old : List Group) :
    changesAll path new old = old.flatMap fun o =>
      match new.find? fun n => n.name == o.name with
      | some n => o.info.changes (path.child "groups" o.name) n.info ++
          changes (path.child "groups" o.name) n o
      | none => [] := by
  induction old with
  | nil => rfl
  | cons o rest ih =>
    rw [changesAll, ih]
    rfl

theorem changes_eq (path : NodePath) (new old : Group) :
    changes path new old =
      attributeChanges path old.attributes new.attributes ++
        Dimension.changesAll path old.dimensions new.dimensions ++
        Variable.changesAll path old.vars new.vars ++
        NodeKind.groups.addedRemoved path (old.groups.map heading) (new.groups.map heading) ++
        changesAll path new.groups old.groups := by
  obtain ⟨name, info, attributes, dimensions, vars, groups⟩ := old
  rw [changes]

/-- What a group without breaking changes keeps. -/
structure Compatible (path : NodePath) (old new : Group) : Prop where
  attributes : Continues AttributeConstraint.name AttributeConstraint.isRequired
    AttributeConstraint.Agree old.attributes new.attributes
  dimensions : Continues Dimension.name (fun d => d.info.required) Dimension.Agree
    old.dimensions new.dimensions
  vars : Continues Variable.name (fun v => v.info.required) Variable.Agree old.vars new.vars
  groups : Continues Group.name (fun g => g.info.required)
    (fun o n => o.info.required = n.info.required ∧
      Harmless (changes (path.child "groups" o.name) n o)) old.groups new.groups

theorem compatible_of_harmless {outer : List String} {path : NodePath} {old new : Group}
    (wf : new.WellFormed outer) (h : Harmless (changes path new old)) :
    Compatible path old new := by
  rw [changes_eq, harmless_append, harmless_append, harmless_append, harmless_append,
    changesAll_eq] at h
  obtain ⟨⟨⟨⟨attributes, dimensions⟩, vars⟩, groupDifferences⟩, groups⟩ := h
  obtain ⟨dimensionDifferences, dimensions⟩ := harmless_append.1 dimensions
  obtain ⟨varDifferences, vars⟩ := harmless_append.1 vars
  refine ⟨continues_attributes wf.attributes.names.distinct attributes, ?_, ?_, ?_⟩
  · have same := continues_nodes (fun d => d.info.required)
      (fun o n => o.changes (path.child "dimensions" o.name) n)
      wf.dimensions.distinct dimensionDifferences fun o isOld n found => by
        have kept := harmless_flatMap.1 dimensions o isOld
        rw [found] at kept
        exact kept
    exact same.imp fun o n _ => Dimension.agree_of_harmless
  · have same := continues_nodes (fun v => v.info.required)
      (fun o n => o.changes (path.child "variables" o.name) n)
      wf.vars.distinct varDifferences fun o isOld n found => by
        have kept := harmless_flatMap.1 vars o isOld
        rw [found] at kept
        exact kept
    exact same.imp fun o n isNew => Variable.agree_of_harmless (wf.blocks isNew).names.distinct
  · have same := continues_nodes (fun g => g.info.required)
      (fun o n => o.info.changes (path.child "groups" o.name) n.info ++
        changes (path.child "groups" o.name) n o)
      wf.groups.distinct groupDifferences fun o isOld n found => by
        have kept := harmless_flatMap.1 groups o isOld
        rw [found] at kept
        exact kept
    refine same.imp fun o n _ harmless => ?_
    obtain ⟨info, inside⟩ := harmless_append.1 harmless
    exact ⟨required_of_harmless info, inside⟩

end Group

end ProductSpec
