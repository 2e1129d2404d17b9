/-
  Comparing in the other direction. What one comparison finds added the other finds removed, and
  every other change is found by both with its two values exchanged, so both find the same breaking
  changes and ask for the same bump.
-/
import ProductSpec.Proofs.Comparison.Harmless
import ProductSpec.Proofs.Dataset.Walk
import ProductSpec.Proofs.Definition.Shape
import Mathlib.Data.List.Perm.Basic

namespace ProductSpec

namespace ChangeKind

/-- The kind that a change has from the other side. -/
def mirror : ChangeKind → ChangeKind
  | nodeAdded => nodeRemoved
  | nodeRemoved => nodeAdded
  | attributeAdded => attributeRemoved
  | attributeRemoved => attributeAdded
  | kind => kind

end ChangeKind

namespace Change

/-- The change seen from the other side. -/
def mirror (c : Change) : Change := { c with kind := c.kind.mirror, old := c.new, new := c.old }

/-- The change without its wording, which is that of one side. -/
def unworded (c : Change) : Change := { c with description := "" }

end Change

/-- The other changes are the mirrored ones, up to their order and their wording. -/
def Mirrored (changes others : List Change) : Prop :=
  (others.map Change.unworded).Perm (changes.map fun c => c.mirror.unworded)

namespace Mirrored

variable {changes others changes' others' : List Change}

theorem nil : Mirrored [] [] := List.Perm.nil

theorem single {c d : Change} (same : d.unworded = c.mirror.unworded) : Mirrored [c] [d] :=
  List.Perm.of_eq (congrArg (fun e => [e]) same)

theorem append (h : Mirrored changes others) (h' : Mirrored changes' others') :
    Mirrored (changes ++ changes') (others ++ others') := by
  unfold Mirrored
  rw [List.map_append, List.map_append]
  exact List.Perm.append h h'

theorem of_perm (h : Mirrored changes others) (reordered : changes'.Perm changes)
    (reordered' : others'.Perm others) : Mirrored changes' others' :=
  (reordered'.map _).trans (List.Perm.trans h (reordered.map _).symm)

/-- What comes first from one side may come last from the other. -/
theorem exchange (h : Mirrored changes others) (h' : Mirrored changes' others') :
    Mirrored (changes ++ changes') (others' ++ others) :=
  (h.append h').of_perm (.refl _) List.perm_append_comm

theorem map {α : Type} {items : List α} {f g : α → Change}
    (same : ∀ x, (g x).unworded = (f x).mirror.unworded) :
    Mirrored (items.map f) (items.map g) := by
  unfold Mirrored
  rw [List.map_map, List.map_map]
  exact List.Perm.of_eq (List.map_congr_left fun x _ => same x)

theorem ite {c c' : Prop} [Decidable c] [Decidable c'] (same : c ↔ c')
    (h : Mirrored changes others) (h' : Mirrored changes' others') :
    Mirrored (if c then changes else changes') (if c' then others else others') := by
  by_cases holds : c
  · rw [if_pos holds, if_pos (same.1 holds)]
    exact h
  · rw [if_neg holds, if_neg (mt same.2 holds)]
    exact h'

end Mirrored

section Matched

variable {α β : Type} {name : α → String}

/-- What is made of the items that have partners, in the order of the first list. -/
def matched (name : α → String) (f : α → α → List β) (old new : List α) : List β :=
  old.flatMap fun o => (new.find? fun n => name n == name o).elim [] (f o)

/-- One partner at most is made use of. -/
theorem elim_find?_eq {items : List α} (distinct : (items.map name).Nodup) (label : String)
    (f : α → List β) :
    (items.find? fun x => name x == label).elim [] f =
      items.flatMap fun x => if name x = label then f x else [] := by
  induction items with
  | nil => rfl
  | cons x rest ih =>
    obtain ⟨fresh, distinct⟩ := List.nodup_cons.1 distinct
    rw [List.flatMap_cons]
    by_cases here : name x = label
    · have others : (rest.flatMap fun y => if name y = label then f y else []) = [] := by
        rw [List.flatMap_eq_nil_iff]
        intro y mem
        apply if_neg
        intro same
        exact fresh (List.mem_map.2 ⟨y, mem, same.trans here.symm⟩)
      rw [List.find?_cons_of_pos (p := (name · == label)) (beq_iff_eq.2 here), if_pos here, others,
        List.append_nil, Option.elim_some]
    · rw [List.find?_cons_of_neg (by simpa using here), if_neg here, List.nil_append]
      exact ih distinct

theorem perm_flatMap_swap (items others : List α) (f : α → α → List β) :
    (items.flatMap fun x => others.flatMap fun y => f x y).Perm
      (others.flatMap fun y => items.flatMap fun x => f x y) := by
  induction items with
  | nil =>
    rw [List.flatMap_nil, List.flatMap_eq_nil_iff.2 fun y _ => List.flatMap_nil]
  | cons x rest ih =>
    calc (others.flatMap fun y => f x y) ++ rest.flatMap (fun x => others.flatMap fun y => f x y)
      _ |>.Perm ((others.flatMap fun y => f x y) ++
          others.flatMap fun y => rest.flatMap fun x => f x y) := ih.append_left _
      _ |>.Perm (others.flatMap fun y => f x y ++ rest.flatMap fun x => f x y) :=
        List.flatMap_append_perm others _ _

/-- Where names differ on both sides, the pairs are the same from both sides. -/
theorem perm_matched {f g : α → α → List β} {old new : List α} (distinct : (old.map name).Nodup)
    (distinct' : (new.map name).Nodup)
    (same : ∀ o ∈ old, ∀ n ∈ new, name n = name o → (f o n).Perm (g n o)) :
    (matched name f old new).Perm (matched name g new old) := by
  have pairs : ∀ o ∈ old, ∀ n ∈ new, (if name n = name o then f o n else []).Perm
      (if name o = name n then g n o else []) := by
    intro o isOld n isNew
    by_cases named : name n = name o
    · rw [if_pos named, if_pos named.symm]
      exact same o isOld n isNew named
    · rw [if_neg named, if_neg (Ne.symm named)]
  unfold matched
  simp only [elim_find?_eq distinct, elim_find?_eq distinct']
  refine List.Perm.trans ?_ (perm_flatMap_swap old new _)
  exact List.Perm.flatMap_left _ fun o isOld => List.Perm.flatMap_left _ (pairs o isOld)

/-- The items without partners may be told of after those that have one. -/
theorem perm_matched_append (f : α → α → List β) (alone : α → β) (old new : List α) :
    (old.flatMap fun o => (new.find? fun n => name n == name o).elim [alone o] (f o)).Perm
      (matched name f old new ++
        (old.filter fun o => !new.any fun n => name n == name o).map alone) := by
  induction old with
  | nil => exact .nil
  | cons o rest ih =>
    unfold matched at ih ⊢
    have partner : (new.any fun n => name n == name o) =
        (new.find? fun n => name n == name o).isSome := by
      rw [Bool.eq_iff_iff, List.any_eq_true, List.find?_isSome]
    rw [List.flatMap_cons, List.flatMap_cons, List.filter_cons, partner]
    cases new.find? fun n => name n == name o with
    | some n =>
      rw [List.append_assoc]
      exact ih.append_left _
    | none => exact (ih.cons _).trans List.perm_middle.symm

/-- What is found of two partners depends on them and on the name that they share. -/
theorem mirrored_matched (f : String → α → α → List Change) {old new : List α}
    (distinct : (old.map name).Nodup) (distinct' : (new.map name).Nodup)
    (same : ∀ o ∈ old, ∀ n ∈ new, Mirrored (f (name o) o n) (f (name o) n o)) :
    Mirrored (matched name (fun o n => f (name o) o n) old new)
      (matched name (fun o n => f (name o) o n) new old) := by
  have pushed : ∀ (h : Change → Change) (f : α → α → List Change) (old new : List α),
      (matched name f old new).map h =
        matched name (fun o n => (f o n).map h) old new := by
    intro h f old new
    unfold matched
    rw [List.map_flatMap]
    refine List.flatMap_congr fun o _ => ?_
    cases new.find? fun n => name n == name o <;> rfl
  unfold Mirrored
  rw [pushed, pushed]
  apply perm_matched distinct' distinct
  intro n isNew o isOld named
  rw [← named]
  exact same o isOld n isNew

end Matched

theorem Number.Binary.beq_comm {f : Number.BinaryFormat} (x y : Number.Binary f) :
    (x == y) = (y == x) := by
  show x.equals y = y.equals x
  cases x with
  | nan => cases y <;> rfl
  | infinite a =>
    cases y with
    | infinite b => exact BEq.comm
    | nan | finite => rfl
  | finite a m s =>
    cases y with
    | finite b n t =>
      show (m == n && s == t && (m == 0 || a == b)) = (n == m && t == s && (n == 0 || b == a))
      rw [BEq.comm (a := m), BEq.comm (a := s), BEq.comm (a := a)]
      by_cases same : n = m
      · rw [same]
      · rw [beq_false_of_ne same, Bool.false_and, Bool.false_and, Bool.false_and]
    | nan | infinite => rfl

namespace Literal

mutual

theorem equals_comm (l m : Literal) : l.equals m = m.equals l := by
  match l, m with
  | int a, int b =>
    show (a == b) = (b == a)
    exact BEq.comm
  | float x, float y => exact Number.Binary.beq_comm x y
  | text s, text t =>
    show (s == t) = (t == s)
    exact BEq.comm
  | list items, list others => exact equalLists_comm items others
  | int _, float _ | int _, text _ | int _, list _ => rfl
  | float _, int _ | float _, text _ | float _, list _ => rfl
  | text _, int _ | text _, float _ | text _, list _ => rfl
  | list _, int _ | list _, float _ | list _, text _ => rfl

theorem equalLists_comm (items others : List Literal) :
    equalLists items others = equalLists others items := by
  match items, others with
  | [], [] => rfl
  | [], _ :: _ => rfl
  | _ :: _, [] => rfl
  | item :: rest, other :: more =>
    rw [equalLists, equalLists, equals_comm item other, equalLists_comm rest more]

end

theorem bne_comm (l m : Literal) : (l != m) = (m != l) := congrArg (!·) (equals_comm l m)

end Literal

theorem AttributeConstraint.mirrored_changes (path : NodePath) (o n : AttributeConstraint) :
    Mirrored (o.changes path n) (n.changes path o) := by
  unfold changes
  cases o.kind with
  | literal a =>
    cases n.kind with
    | literal b => exact .ite (by rw [Literal.bne_comm]) (.single rfl) .nil
    | placeholder q => exact .single rfl
  | placeholder p =>
    cases n.kind with
    | literal b => exact .single rfl
    | placeholder q =>
      refine .ite ?_ (.single rfl) (.ite ?_ (.single rfl) .nil)
      · rw [bne_comm, bne_comm (a := p.isArray)]
      · rw [bne_comm]

theorem perm_attributeChanges (path : NodePath) (old new : List AttributeConstraint) :
    (attributeChanges path old new).Perm
      (matched AttributeConstraint.name
          (fun o n => o.changes (path.child "attributes" o.name) n) old new ++
        ((old.filter fun o => !new.any fun n => n.name == o.name).map (fun o =>
            o.removed (path.child "attributes" o.name)) ++
          (new.filter fun n => !old.any fun o => o.name == n.name).map fun n =>
            n.added (path.child "attributes" n.name))) := by
  have form : attributeChanges path old new =
      old.flatMap (fun o => (new.find? fun n => n.name == o.name).elim
        [o.removed (path.child "attributes" o.name)]
        (o.changes (path.child "attributes" o.name))) ++
      (new.filter fun n => !old.any fun o => o.name == n.name).map fun n =>
        n.added (path.child "attributes" n.name) := by
    unfold attributeChanges
    congr 2
    funext o
    cases new.find? fun n => n.name == o.name <;> rfl
  rw [form, ← List.append_assoc]
  exact (perm_matched_append _ _ old new).append_right _

theorem mirrored_attributeChanges {path : NodePath} {old new : List AttributeConstraint}
    (distinct : (old.map AttributeConstraint.name).Nodup)
    (distinct' : (new.map AttributeConstraint.name).Nodup) :
    Mirrored (attributeChanges path old new) (attributeChanges path new old) := by
  refine Mirrored.of_perm (.append ?_ (.exchange ?_ ?_)) (perm_attributeChanges path old new)
    (perm_attributeChanges path new old)
  · exact mirrored_matched (fun label o n => o.changes (path.child "attributes" label) n)
      distinct distinct' fun o _ n _ => o.mirrored_changes _ n
  · exact .map fun _ => rfl
  · exact .map fun _ => rfl

theorem NodeInfo.mirrored_changes (path : NodePath) (old new : NodeInfo) :
    Mirrored (old.changes path new) (new.changes path old) := by
  refine .append (.ite ?_ (.single rfl) .nil) (.ite ?_ (.single rfl) .nil)
  · rw [bne_comm]
  · rw [bne_comm]

theorem NodeKind.mirrored_addedRemoved (k : NodeKind) (path : NodePath)
    (old new : List (String × Bool)) :
    Mirrored (k.addedRemoved path old new) (k.addedRemoved path new old) :=
  .exchange (.map fun _ => rfl) (.map fun _ => rfl)

namespace Dimension

theorem mirrored_changes (path : NodePath) (old new : Dimension) :
    Mirrored (old.changes path new) (new.changes path old) := by
  refine .append (.ite ?_ (.single rfl) .nil) (old.info.mirrored_changes path new.info)
  rw [bne_comm]

theorem changesAll_eq (path : NodePath) (old new : List Dimension) :
    changesAll path old new =
      NodeKind.dimensions.addedRemoved path (old.map heading) (new.map heading) ++
        matched name (fun o n => o.changes (path.child "dimensions" o.name) n) old new := by
  unfold changesAll matched
  congr 2
  funext o
  cases new.find? fun n => n.name == o.name <;> rfl

theorem mirrored_changesAll {path : NodePath} {old new : List Dimension}
    (distinct : (old.map name).Nodup) (distinct' : (new.map name).Nodup) :
    Mirrored (changesAll path old new) (changesAll path new old) := by
  rw [changesAll_eq, changesAll_eq]
  refine .append (NodeKind.dimensions.mirrored_addedRemoved path _ _) ?_
  exact mirrored_matched (fun label o n => o.changes (path.child "dimensions" label) n)
    distinct distinct' fun o _ n _ => o.mirrored_changes _ n

end Dimension

namespace Variable

theorem mirrored_changes {path : NodePath} {old new : Variable}
    (block : AttributeBlock old.attributes) (block' : AttributeBlock new.attributes) :
    Mirrored (old.changes path new) (new.changes path old) := by
  refine .append (.append (.append (.ite ?_ (.single rfl) .nil) (.ite ?_ (.single rfl) .nil))
    (old.info.mirrored_changes path new.info))
    (mirrored_attributeChanges block.names.distinct block'.names.distinct)
  · rw [bne_comm]
  · rw [bne_comm]

theorem changesAll_eq (path : NodePath) (old new : List Variable) :
    changesAll path old new =
      NodeKind.vars.addedRemoved path (old.map heading) (new.map heading) ++
        matched name (fun o n => o.changes (path.child "variables" o.name) n) old new := by
  unfold changesAll matched
  congr 2
  funext o
  cases new.find? fun n => n.name == o.name <;> rfl

theorem mirrored_changesAll {path : NodePath} {old new : List Variable}
    (distinct : (old.map name).Nodup) (distinct' : (new.map name).Nodup)
    (blocks : ∀ v ∈ old, AttributeBlock v.attributes)
    (blocks' : ∀ v ∈ new, AttributeBlock v.attributes) :
    Mirrored (changesAll path old new) (changesAll path new old) := by
  rw [changesAll_eq, changesAll_eq]
  refine .append (NodeKind.vars.mirrored_addedRemoved path _ _) ?_
  exact mirrored_matched (fun label o n => o.changes (path.child "variables" label) n)
    distinct distinct' fun o isOld n isNew => mirrored_changes (blocks o isOld) (blocks' n isNew)

end Variable

namespace Group

theorem changesAll_eq_matched (path : NodePath) (old new : List Group) :
    changesAll path new old = matched name (fun o n =>
      o.info.changes (path.child "groups" o.name) n.info ++
        changes (path.child "groups" o.name) n o) old new := by
  rw [changesAll_eq]
  unfold matched
  congr 1
  funext o
  cases new.find? fun n => n.name == o.name <;> rfl

/-- The contents of two groups are compared alike from both sides. -/
theorem mirrored_changes {old new : Group} {outer outer' : List String} (wf : old.WellFormed outer)
    (wf' : new.WellFormed outer') (path : NodePath) :
    Mirrored (changes path new old) (changes path old new) := by
  induction old using induction generalizing new outer outer' path with
  | step old ih =>
    rw [changes_eq, changes_eq, changesAll_eq_matched, changesAll_eq_matched]
    refine .append (.append (.append (.append ?_ ?_) ?_) ?_) ?_
    · exact mirrored_attributeChanges wf.attributes.names.distinct wf'.attributes.names.distinct
    · exact Dimension.mirrored_changesAll wf.dimensions.distinct wf'.dimensions.distinct
    · exact Variable.mirrored_changesAll wf.vars.distinct wf'.vars.distinct
        (fun _ => wf.blocks) fun _ => wf'.blocks
    · exact NodeKind.groups.mirrored_addedRemoved path _ _
    · apply mirrored_matched (fun label o n => o.info.changes (path.child "groups" label) n.info ++
        changes (path.child "groups" label) n o) wf.groups.distinct wf'.groups.distinct
      intro o isOld n isNew
      exact .append (o.info.mirrored_changes _ n.info)
        (ih o isOld (wf.inner isOld) (wf'.inner isNew) _)

end Group

namespace Comparison

theorem changes_ofChanges (strict : Bool) (changes : List Change) :
    (ofChanges strict changes).changes = changes := by
  unfold ofChanges
  cases changes with
  | nil => cases strict <;> rfl
  | cons c rest =>
    dsimp only
    split
    · rfl
    · split <;> rfl

theorem isCompatible_ofChanges (strict : Bool) (changes : List Change) :
    (ofChanges strict changes).isCompatible =
      !(strict && !changes.isEmpty || changes.any Change.isBreaking) := by
  unfold ofChanges
  dsimp only
  split
  · next refused => rw [refused]; rfl
  · next lenient =>
    rw [Bool.eq_false_iff.2 lenient, Bool.false_or]
    split
    · next breaking => rw [breaking]; rfl
    · next harmless =>
      rw [Bool.eq_false_iff.2 harmless]
      split <;> rfl

end Comparison

namespace Mirrored

variable {changes others : List Change}

/-- What does not depend on the side or on the wording is found from both sides. -/
theorem any_eq (h : Mirrored changes others) {p : Change → Bool}
    (wording : ∀ c, p c.unworded = p c) (side : ∀ c, p c.mirror = p c) :
    others.any p = changes.any p := by
  have outcomes : (others.map p).Perm (changes.map p) := by
    simpa only [List.map_map, Function.comp_def, wording, side] using List.Perm.map p h
  rw [Bool.eq_iff_iff, List.any_eq_true, List.any_eq_true, ← List.mem_map, ← List.mem_map]
  exact outcomes.mem_iff

theorem isEmpty_eq (h : Mirrored changes others) : others.isEmpty = changes.isEmpty := by
  have length : others.length = changes.length := by simpa using List.Perm.length_eq h
  rw [Bool.eq_iff_iff, List.isEmpty_iff_length_eq_zero, List.isEmpty_iff_length_eq_zero, length]

theorem isCompatible_eq (h : Mirrored changes others) (strict : Bool) :
    (Comparison.ofChanges strict others).isCompatible =
      (Comparison.ofChanges strict changes).isCompatible := by
  rw [Comparison.isCompatible_ofChanges, Comparison.isCompatible_ofChanges, h.isEmpty_eq,
    h.any_eq (fun _ => rfl) fun _ => rfl]

theorem requiredBump_eq (h : Mirrored changes others) (strict : Bool) :
    (Comparison.ofChanges strict others).requiredBump =
      (Comparison.ofChanges strict changes).requiredBump := by
  have documented : ∀ c : Change,
      (c.mirror.kind != .documentationChanged) = (c.kind != .documentationChanged) := by
    intro c
    unfold Change.mirror
    cases c.kind <;> rfl
  unfold Comparison.requiredBump
  rw [h.isCompatible_eq, Comparison.changes_ofChanges, Comparison.changes_ofChanges,
    h.any_eq (fun _ => rfl) documented]

end Mirrored

namespace Definition

/-- Comparing two compiled datasets in the other direction finds the mirrored changes, so both
directions agree on whether the datasets are compatible and on the bump that is required. -/
theorem compare_mirrored (d d' : Definition) (name name' : String) (defaults defaults' : Defaults)
    {a b : Dataset} (compiled : d.compileNamed name defaults = .ok a)
    (compiled' : d'.compileNamed name' defaults' = .ok b) (strict : Bool) :
    ((b.compare strict a).changes.map Change.unworded).Perm
        ((a.compare strict b).changes.map fun c => c.mirror.unworded) ∧
      (b.compare strict a).isCompatible = (a.compare strict b).isCompatible ∧
      (b.compare strict a).requiredBump = (a.compare strict b).requiredBump := by
  have wf : a.WellFormed [] := (Section.of_compile d.body compiled).2.2
  have wf' : b.WellFormed [] := (Section.of_compile d'.body compiled').2.2
  have mirrored : Mirrored (a.info.changes NodePath.root b.info ++ Group.changes NodePath.root b a)
      (b.info.changes NodePath.root a.info ++ Group.changes NodePath.root a b) :=
    .append (a.info.mirrored_changes NodePath.root b.info) (Group.mirrored_changes wf wf' _)
  unfold Group.compare
  rw [Comparison.changes_ofChanges, Comparison.changes_ofChanges]
  exact ⟨mirrored, mirrored.isCompatible_eq strict, mirrored.requiredBump_eq strict⟩

/-- A fixed attribute, an optional one, and a group. -/
def anchored : Definition where
  shortName := none
  filePattern := none
  description := none
  canonicalName := none
  body :=
    ⟨⟨[(.text "site", .text "north"), (.text "depth", .text "<int32: derived_from_file optional>")],
      by decide⟩, [], [], [(⟨"mooring", true, none⟩, ⟨.empty, [], [], []⟩)]⟩

/-- Another fixed value in the place of the optional attribute, and no group. -/
def drifting : Definition where
  shortName := none
  filePattern := none
  description := none
  canonicalName := none
  body := ⟨⟨[(.text "speed", .float .nan), (.text "site", .text "south")], by decide⟩, [], [], []⟩

theorem compare_mirrored_drifting : ∃ a b, anchored.compileNamed "buoy" .empty = .ok a ∧
    drifting.compileNamed "buoy" .empty = .ok b ∧
      (a.compare false b).changes.map Change.kind =
        [.valueChanged, .attributeRemoved, .attributeAdded, .nodeRemoved] ∧
      ((b.compare false a).changes.map Change.unworded).Perm
        ((a.compare false b).changes.map fun c => c.mirror.unworded) ∧
      (b.compare false a).requiredBump = .major := by
  refine ⟨_, _, rfl, rfl, rfl, ?_⟩
  obtain ⟨changes, -, bump⟩ :=
    compare_mirrored anchored drifting "buoy" "buoy" .empty .empty rfl rfl false
  exact ⟨changes, bump.trans rfl⟩

end Definition

end ProductSpec
