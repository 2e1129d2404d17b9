/-
  Changes that a patch allows. A comparison that asks for a patch only tells of descriptions, so
  the two datasets have the same parts and ask the same of each. No file tells them apart: what is
  found in it and what passes differ in order and wording at most.
-/
import ProductSpec.Proofs.Comparison.Compatible

namespace ProductSpec

/-- Changes of the documentation that break nothing. -/
def Editorial (changes : List Change) : Prop :=
  ∀ c ∈ changes, c.isBreaking = false ∧ c.kind = .documentationChanged

theorem Editorial.harmless {changes : List Change} (h : Editorial changes) : Harmless changes :=
  fun c mem => (h c mem).1

theorem editorial_append {changes others : List Change} :
    Editorial (changes ++ others) ↔ Editorial changes ∧ Editorial others :=
  List.forall_mem_append

theorem editorial_flatMap {α : Type} {items : List α} {changes : α → List Change} :
    Editorial (items.flatMap changes) ↔ ∀ x ∈ items, Editorial (changes x) := by
  constructor
  · intro editorial x isIn c mem
    exact editorial c (List.mem_flatMap.2 ⟨x, isIn, mem⟩)
  · intro editorial c mem
    obtain ⟨x, isIn, mem⟩ := List.mem_flatMap.1 mem
    exact editorial x isIn c mem

theorem Editorial.notMem {changes : List Change} (h : Editorial changes) {c : Change}
    (other : c.kind ≠ .documentationChanged) : c ∉ changes :=
  fun mem => other (h c mem).2

/-- What asks for a patch only is editorial. In strict mode nothing is. -/
theorem editorial_of_requiredBump {strict : Bool} {changes : List Change}
    (h : (Comparison.ofChanges strict changes).requiredBump = .patch) : Editorial changes := by
  unfold Comparison.requiredBump Comparison.ofChanges at h
  split at h
  · cases h
  · split at h
    · cases h
    · next unbroken =>
      split at h
      · next empty =>
        rw [List.isEmpty_iff.1 empty]
        exact nofun
      · rw [Bool.not_true, if_neg Bool.false_ne_true] at h
        split at h
        · cases h
        · next documented =>
          intro c mem
          refine ⟨?_, ?_⟩
          · rw [Bool.not_eq_true, List.any_eq_false] at unbroken
            exact Bool.not_eq_true _ ▸ unbroken c mem
          · rw [Bool.not_eq_true, List.any_eq_false] at documented
            simpa using documented c mem

/-- Old and new parts have the same names, and those of one name agree. -/
structure Corresponds {α : Type} (name : α → String) (Agree : α → α → Prop) (old new : List α) :
    Prop where
  kept : ∀ o ∈ old, ∀ n ∈ new, name n = name o → Agree o n
  names : (old.map name).Perm (new.map name)

namespace Corresponds

variable {α β : Type} {name : α → String} {Agree Agree' : α → α → Prop} {old new : List α}

theorem imp (h : Corresponds name Agree old new)
    (weaker : ∀ o ∈ old, ∀ n ∈ new, Agree o n → Agree' o n) :
    Corresponds name Agree' old new :=
  ⟨fun o isOld n isNew same => weaker o isOld n isNew (h.kept o isOld n isNew same), h.names⟩

theorem of_subset (distinct : (old.map name).Nodup) (distinct' : (new.map name).Nodup)
    (kept : ∀ o ∈ old, ∀ n ∈ new, name n = name o → Agree o n)
    (removed : ∀ o ∈ old, name o ∈ new.map name) (added : ∀ n ∈ new, name n ∈ old.map name) :
    Corresponds name Agree old new := by
  refine ⟨kept, (List.perm_ext_iff_of_nodup distinct distinct').2 fun label => ⟨?_, ?_⟩⟩
  · intro mem
    obtain ⟨o, isOld, rfl⟩ := List.mem_map.1 mem
    exact removed o isOld
  · intro mem
    obtain ⟨n, isNew, rfl⟩ := List.mem_map.1 mem
    exact added n isNew

/-- What is made of agreeing parts is the same up to the order. -/
theorem perm_flatMap (h : Corresponds name Agree old new) {f g : α → List β}
    (same : ∀ o ∈ old, ∀ n ∈ new, name n = name o → Agree o n → (f o).Perm (g n)) :
    (old.flatMap f).Perm (new.flatMap g) := by
  induction old generalizing new with
  | nil =>
    have none : new = [] := List.map_eq_nil_iff.1 h.names.symm.eq_nil
    rw [none]
    exact .nil
  | cons o rest ih =>
    have isNamed : name o ∈ new.map name := h.names.subset List.mem_cons_self
    obtain ⟨n, isNew, named⟩ := List.mem_map.1 isNamed
    obtain ⟨before, after, rfl⟩ := List.append_of_mem isNew
    have others : ∀ m ∈ before ++ after, m ∈ before ++ n :: after := fun m mem => by
      rw [List.mem_append, List.mem_cons]
      exact (List.mem_append.1 mem).imp_right .inr
    have left : Corresponds name Agree rest (before ++ after) := by
      refine ⟨fun o' isOld m mem => h.kept o' (List.mem_cons_of_mem o isOld) m (others m mem), ?_⟩
      have names := h.names.trans (List.perm_middle.map name)
      rw [List.map_cons, List.map_cons, named] at names
      exact names.cons_inv
    have here : (f o).Perm (g n) :=
      same o List.mem_cons_self n isNew named (h.kept o List.mem_cons_self n isNew named)
    have there := ih left fun o' isOld m mem =>
      same o' (List.mem_cons_of_mem o isOld) m (others m mem)
    calc (o :: rest).flatMap f = f o ++ rest.flatMap f := List.flatMap_cons
      _ |>.Perm (g n ++ (before ++ after).flatMap g) := here.append there
      _ = (n :: (before ++ after)).flatMap g := List.flatMap_cons.symm
      _ |>.Perm ((before ++ n :: after).flatMap g) := List.perm_middle.symm.flatMap_right g

end Corresponds

namespace Entry

/-- An outcome without its wording. -/
def mark : Entry → NodePath × Option (Category × Severity)
  | pass p => (p, none)
  | finding d => (d.path, some (d.category, d.severity))

end Entry

/-- The same outcomes up to their order and their wording. -/
def Alike (entries others : List Entry) : Prop :=
  (entries.map Entry.mark).Perm (others.map Entry.mark)

namespace Alike

variable {entries others entries' others' : List Entry}

theorem refl (entries : List Entry) : Alike entries entries := List.Perm.refl _

theorem append (h : Alike entries others) (h' : Alike entries' others') :
    Alike (entries ++ entries') (others ++ others') := by
  unfold Alike
  rw [List.map_append, List.map_append]
  exact List.Perm.append h h'

theorem flatMap {α : Type} {name : α → String} {Agree : α → α → Prop} {old new : List α}
    {checks checks' : α → List Entry} (h : Corresponds name Agree old new)
    (same : ∀ o ∈ old, ∀ n ∈ new, name n = name o → Agree o n → Alike (checks o) (checks' n)) :
    Alike (old.flatMap checks) (new.flatMap checks') := by
  unfold Alike
  rw [List.map_flatMap, List.map_flatMap]
  exact h.perm_flatMap same

/-- The reports hold the same findings and the same passed checks. -/
theorem ofEntries (h : Alike entries others) :
    ((Report.ofEntries entries).diagnostics.map fun d => (d.path, d.category, d.severity)).Perm
        ((Report.ofEntries others).diagnostics.map fun d => (d.path, d.category, d.severity)) ∧
      ((Report.ofEntries entries).passed.map Prod.snd).Perm
        ((Report.ofEntries others).passed.map Prod.snd) := by
  have found : ∀ entries : List Entry,
      (entries.filterMap Entry.diagnostic?).map (fun d => (d.path, d.category, d.severity)) =
        (entries.map Entry.mark).filterMap fun m => m.2.map fun kind => (m.1, kind) := by
    intro entries
    rw [List.map_filterMap, List.filterMap_map]
    congr 1
    funext e
    cases e <;> rfl
  have passed : ∀ entries : List Entry, entries.filterMap Entry.passed? =
      (entries.map Entry.mark).filterMap fun m => if m.2.isNone then some m.1 else none := by
    intro entries
    rw [List.filterMap_map]
    congr 1
    funext e
    cases e <;> rfl
  rw [(Report.ofEntries_eq entries).1, (Report.ofEntries_eq entries).2,
    (Report.ofEntries_eq others).1, (Report.ofEntries_eq others).2, found, found, passed, passed]
  exact ⟨List.Perm.filterMap _ h, List.Perm.filterMap _ h⟩

end Alike

/-- Only which names are declared counts, not their order. -/
theorem ValidationOptions.unknown_congr {o : ValidationOptions} {path : NodePath} {kind : String}
    {names declared declared' : List String} (same : declared.Perm declared') :
    o.unknown path kind names declared = o.unknown path kind names declared' := by
  have undeclared : (fun name => decide (name ∉ declared)) = fun name => decide (name ∉ declared') :=
    funext fun name => decide_eq_decide.2 (not_congr same.mem_iff)
  unfold unknown
  rw [undeclared]

namespace AttributeConstraint

/-- The category of a value that breaks the constraint. -/
def category (c : AttributeConstraint) : Category :=
  match c.kind with
  | .literal _ => .valueMismatch
  | .placeholder _ => .typeMismatch

/-- Constraints that ask for the same, in the same way. -/
structure Same (old new : AttributeConstraint) : Prop where
  agree : old.Agree new
  category : old.category = new.category

theorem same_of_harmless {path : NodePath} {old new : AttributeConstraint}
    (h : Harmless (old.changes path new)) : old.Same new := by
  refine ⟨agree_of_harmless h, ?_⟩
  unfold changes at h
  unfold AttributeConstraint.category
  cases oldKind : old.kind with
  | literal a =>
    cases newKind : new.kind with
    | literal b => rfl
    | placeholder q =>
      rw [oldKind, newKind] at h
      exact absurd h (not_harmless rfl)
  | placeholder p =>
    cases newKind : new.kind with
    | literal b =>
      rw [oldKind, newKind] at h
      exact absurd h (not_harmless rfl)
    | placeholder q => rfl

theorem mark_checkValue (c : AttributeConstraint) (o : ValidationOptions) (path : NodePath)
    (value : AttributeValue) :
    (c.checkValue o path value).mark =
      (path, if c.meets value then none else some (c.category, o.policy.severity c.category)) := by
  unfold checkValue meets AttributeConstraint.category
  cases c.kind with
  | literal l => dsimp only; split <;> rfl
  | placeholder p => dsimp only; split <;> rfl

theorem Same.alike_check {old new : AttributeConstraint} (same : old.Same new)
    (named : new.name = old.name) (o : ValidationOptions) (path : NodePath)
    (actual : NameMap AttributeValue) : Alike (old.check o path actual) (new.check o path actual) := by
  unfold check
  rw [named, same.agree.required]
  cases actual.get? old.name with
  | some value =>
    have marks := old.mark_checkValue o (path.child "attributes" old.name) value
    rw [same.agree.meets, same.category, ← mark_checkValue] at marks
    exact List.Perm.of_eq (congrArg (fun mark => [mark]) marks)
  | none =>
    dsimp only
    split <;> exact List.Perm.refl _

end AttributeConstraint

theorem corresponds_attributes {path : NodePath} {old new : List AttributeConstraint}
    (distinct : (old.map AttributeConstraint.name).Nodup)
    (distinct' : (new.map AttributeConstraint.name).Nodup)
    (h : Editorial (attributeChanges path old new)) :
    Corresponds AttributeConstraint.name AttributeConstraint.Same old new := by
  refine .of_subset distinct distinct' (fun o isOld n isNew same => ?_) (fun o isOld => ?_)
    fun n isNew => ?_
  · exact AttributeConstraint.same_of_harmless fun c mem =>
      h.harmless c (subset_attributeChanges distinct' isOld isNew same mem)
  · by_contra gone
    have other : ChangeKind.attributeRemoved ≠ .documentationChanged := nofun
    exact h.notMem other (removed_mem_attributeChanges isOld gone)
  · by_contra fresh
    have other : ChangeKind.attributeAdded ≠ .documentationChanged := nofun
    exact h.notMem other (added_mem_attributeChanges isNew fresh)

/-- The same for the nodes of one kind in a group. -/
theorem corresponds_nodes {α : Type} {name : α → String} {k : NodeKind} {path : NodePath}
    {old new : List α} (required : α → Bool) (changes : α → α → List Change)
    (distinct : (old.map name).Nodup) (distinct' : (new.map name).Nodup)
    (differences : Editorial (k.addedRemoved path (old.map fun x => (name x, required x))
      (new.map fun x => (name x, required x))))
    (kept : ∀ o ∈ old, ∀ n, (new.find? fun n => name n == name o) = some n →
      Editorial (changes o n)) :
    Corresponds name (fun o n => Editorial (changes o n)) old new := by
  refine .of_subset distinct distinct' (fun o isOld n isNew same => ?_) (fun o isOld => ?_)
    fun n isNew => ?_
  · have found := find?_name distinct' isNew
    rw [same] at found
    exact kept o isOld n found
  · by_contra gone
    obtain ⟨c, mem, isRemoval, -⟩ := NodeKind.exists_removed required isOld gone
    exact differences.notMem (by rw [isRemoval]; exact nofun) mem
  · by_contra fresh
    obtain ⟨c, mem, isAddition, -⟩ := NodeKind.exists_added required isNew fresh
    exact differences.notMem (by rw [isAddition]; exact nofun) mem

namespace Dimension

theorem Agree.alike_check {old new : Dimension} (agree : old.Agree new)
    (named : new.name = old.name) (o : ValidationOptions) (path : NodePath) (file : FileGroup) :
    Alike (old.check o path file) (new.check o path file) := by
  unfold check
  rw [named, agree.size, agree.required]
  exact .refl _

end Dimension

namespace SharedLevel

variable {levels : List SharedLevel}

/-- Both datasets declare dimensions of the same names and sizes in the group. -/
def SameSizes (l : SharedLevel) : Prop :=
  ∀ name, ((l.old.level l.stored).declared? name).map Dimension.size =
    ((l.new.level l.stored).declared? name).map Dimension.size

theorem sameSizes_of_corresponds {old new : Group} (stored : FileGroup)
    (distinct : (old.dimensions.map Dimension.name).Nodup)
    (distinct' : (new.dimensions.map Dimension.name).Nodup)
    (h : Corresponds Dimension.name Dimension.Agree old.dimensions new.dimensions) :
    SameSizes ⟨old, new, stored⟩ := by
  intro name
  show (old.dimensions.find? fun d => d.name == name).map Dimension.size =
    (new.dimensions.find? fun d => d.name == name).map Dimension.size
  by_cases isOld : name ∈ old.dimensions.map Dimension.name
  · obtain ⟨d, mem, rfl⟩ := List.mem_map.1 isOld
    obtain ⟨d', mem', named⟩ := List.mem_map.1 (h.names.subset isOld)
    have found := find?_name distinct' mem'
    rw [named] at found
    rw [find?_name distinct mem, found, Option.map_some, Option.map_some,
      (h.kept d mem d' mem' named).size]
  · have isNew : name ∉ new.dimensions.map Dimension.name := fun mem =>
      isOld (h.names.symm.subset mem)
    rw [find?_name_eq_none isOld, find?_name_eq_none isNew]

theorem declared?_scope (same : ∀ l ∈ levels, l.SameSizes) (name : String) :
    ((scope old levels).declared? name).map Dimension.size =
      ((scope new levels).declared? name).map Dimension.size := by
  induction levels with
  | nil => rfl
  | cons l outer ih =>
    have first := same l List.mem_cons_self name
    have rest := ih fun l' mem => same l' (List.mem_cons_of_mem l mem)
    unfold scope Scope.declared? at *
    rw [List.map_cons, List.map_cons, List.findSome?_cons, List.findSome?_cons]
    cases here : (l.old.level l.stored).declared? name with
    | some d =>
      rw [here] at first
      obtain ⟨d', here', -⟩ := Option.map_eq_some_iff.1 first.symm
      rw [here'] at first ⊢
      exact first
    | none =>
      rw [here] at first
      rw [Option.map_eq_none_iff.1 first.symm]
      exact rest

/-- Each dimension has the same fault, if any. -/
theorem fault?_congr (same : ∀ l ∈ levels, l.SameSizes) (name : String) :
    (scope old levels).fault? name = (scope new levels).fault? name := by
  unfold Scope.fault?
  rw [present?_scope, present?_scope]
  cases held : holder? levels name with
  | none => rfl
  | some h =>
    obtain ⟨l, stored⟩ := h
    have declaredHere := congrArg Option.isSome (same l (of_holder? held).1 name)
    have declared := declared?_scope same name
    rw [Option.isSome_map, Option.isSome_map] at declaredHere
    rw [Option.map_some, Option.map_some]
    dsimp only
    rw [declaredHere]
    split
    · rfl
    · cases found : (scope old levels).declared? name with
      | none =>
        rw [found] at declared
        rw [Option.map_eq_none_iff.1 declared.symm]
      | some d =>
        rw [found] at declared
        obtain ⟨d', found', -⟩ := Option.map_eq_some_iff.1 declared.symm
        rw [found', Option.map_some, Option.map_some, Option.some_inj] at declared
        rw [found']
        dsimp only
        rw [declared]

end SharedLevel

/-- Blocks of attributes that correspond are checked alike. -/
theorem alike_checkAttributes {old new : List AttributeConstraint}
    (h : Corresponds AttributeConstraint.name AttributeConstraint.Same old new)
    (o : ValidationOptions) (path : NodePath) (actual : NameMap AttributeValue) :
    Alike (checkAttributes o path old actual) (checkAttributes o path new actual) := by
  unfold checkAttributes
  rw [ValidationOptions.unknown_congr h.names]
  exact (Alike.flatMap h fun _ _ _ _ named same => same.alike_check named o path actual).append
    (.refl _)

namespace Variable

/-- Variables that ask for the same. -/
structure Same (old new : Variable) : Prop where
  agree : old.Agree new
  attributes : Corresponds AttributeConstraint.name AttributeConstraint.Same old.attributes
    new.attributes

theorem same_of_editorial {path : NodePath} {old new : Variable}
    (distinct : (old.attributes.map AttributeConstraint.name).Nodup)
    (distinct' : (new.attributes.map AttributeConstraint.name).Nodup)
    (h : Editorial (old.changes path new)) : old.Same new :=
  ⟨agree_of_harmless distinct' h.harmless,
    corresponds_attributes distinct distinct' (editorial_append.1 h).2⟩

open SharedLevel in
theorem Same.alike_check {old new : Variable} (same : old.Same new) (named : new.name = old.name)
    {levels : List SharedLevel} (sizes : ∀ l ∈ levels, l.SameSizes) (o : ValidationOptions)
    (path : NodePath) (file : FileGroup) :
    Alike (old.check o (scope SharedLevel.old levels) path file)
      (new.check o (scope SharedLevel.new levels) path file) := by
  unfold check
  rw [named, same.agree.required]
  cases file.variableNamed? old.name with
  | none => exact .refl _
  | some actual =>
    have faults : old.dimensionFaults (scope SharedLevel.old levels) actual =
        new.dimensionFaults (scope SharedLevel.new levels) actual := by
      unfold dimensionFaults
      rw [same.agree.dimensions]
      simp only [fault?_congr sizes]
    have self : old.checkSelf o (scope SharedLevel.old levels)
          (path.child "variables" old.name) actual =
        new.checkSelf o (scope SharedLevel.new levels) (path.child "variables" old.name) actual := by
      unfold checkSelf
      rw [faults, same.agree.dataType, same.agree.dimensions]
    show Alike (old.checkSelf o _ _ actual ++ _) (new.checkSelf o _ _ actual ++ _)
    rw [self]
    exact (Alike.refl _).append (alike_checkAttributes same.attributes o _ actual.attributes)

end Variable

namespace Group

/-- What a group keeps under editorial changes. -/
structure Same (path : NodePath) (old new : Group) : Prop where
  attributes : Corresponds AttributeConstraint.name AttributeConstraint.Same old.attributes
    new.attributes
  dimensions : Corresponds Dimension.name Dimension.Agree old.dimensions new.dimensions
  vars : Corresponds Variable.name Variable.Same old.vars new.vars
  groups : Corresponds Group.name (fun o n => o.info.required = n.info.required ∧
    Editorial (changes (path.child "groups" o.name) n o)) old.groups new.groups

theorem same_of_editorial {outer outer' : List String} {path : NodePath} {old new : Group}
    (wf : old.WellFormed outer) (wf' : new.WellFormed outer')
    (h : Editorial (changes path new old)) : Same path old new := by
  rw [changes_eq, editorial_append, editorial_append, editorial_append, editorial_append,
    changesAll_eq] at h
  obtain ⟨⟨⟨⟨attributes, dimensions⟩, vars⟩, groupDifferences⟩, groups⟩ := h
  obtain ⟨dimensionDifferences, dimensions⟩ := editorial_append.1 dimensions
  obtain ⟨varDifferences, vars⟩ := editorial_append.1 vars
  refine ⟨corresponds_attributes wf.attributes.names.distinct wf'.attributes.names.distinct
    attributes, ?_, ?_, ?_⟩
  · have same := corresponds_nodes (fun d => d.info.required)
      (fun o n => o.changes (path.child "dimensions" o.name) n)
      wf.dimensions.distinct wf'.dimensions.distinct dimensionDifferences fun o isOld n found => by
        have kept := editorial_flatMap.1 dimensions o isOld
        rw [found] at kept
        exact kept
    exact same.imp fun o _ n _ editorial => Dimension.agree_of_harmless editorial.harmless
  · have same := corresponds_nodes (fun v => v.info.required)
      (fun o n => o.changes (path.child "variables" o.name) n)
      wf.vars.distinct wf'.vars.distinct varDifferences fun o isOld n found => by
        have kept := editorial_flatMap.1 vars o isOld
        rw [found] at kept
        exact kept
    exact same.imp fun o isOld n isNew => Variable.same_of_editorial
      (wf.blocks isOld).names.distinct (wf'.blocks isNew).names.distinct
  · have same := corresponds_nodes (fun g => g.info.required)
      (fun o n => o.info.changes (path.child "groups" o.name) n.info ++
        changes (path.child "groups" o.name) n o)
      wf.groups.distinct wf'.groups.distinct groupDifferences fun o isOld n found => by
        have kept := editorial_flatMap.1 groups o isOld
        rw [found] at kept
        exact kept
    refine same.imp fun o _ n _ editorial => ?_
    obtain ⟨info, inside⟩ := editorial_append.1 editorial
    exact ⟨required_of_harmless info.harmless, inside⟩

open SharedLevel in
/-- A group with editorial changes is checked as before. -/
theorem alike_check {outer outer' : List String} {here : NodePath} {old new : Group}
    (wf : old.WellFormed outer) (wf' : new.WellFormed outer')
    (editorial : Editorial (changes here new old)) {levels : List SharedLevel}
    (sizes : ∀ l ∈ levels, l.SameSizes) (o : ValidationOptions) (path : NodePath)
    (file : FileGroup) :
    Alike (old.check o (scope SharedLevel.old levels) path file)
      (new.check o (scope SharedLevel.new levels) path file) := by
  induction old using induction generalizing outer outer' here new levels path file with
  | step old ih =>
    obtain ⟨attributes, dimensions, vars, groups⟩ := same_of_editorial wf wf' editorial
    have sizes' : ∀ l ∈ (⟨old, new, file⟩ :: levels : List SharedLevel), l.SameSizes :=
      List.forall_mem_cons.2 ⟨sameSizes_of_corresponds file wf.dimensions.distinct
        wf'.dimensions.distinct dimensions, sizes⟩
    have ofDimensions : Alike (old.dimensions.flatMap fun d => d.check o path file)
        (new.dimensions.flatMap fun d => d.check o path file) :=
      .flatMap dimensions fun _ _ _ _ named agree => agree.alike_check named o path file
    have ofVars : Alike (old.vars.flatMap fun v =>
          v.check o (scope SharedLevel.old (⟨old, new, file⟩ :: levels)) path file)
        (new.vars.flatMap fun v =>
          v.check o (scope SharedLevel.new (⟨old, new, file⟩ :: levels)) path file) :=
      .flatMap vars fun _ _ _ _ named same => same.alike_check named sizes' o path file
    have ofGroups : Alike (old.groups.flatMap
          (checkInner o (scope SharedLevel.old (⟨old, new, file⟩ :: levels)) path file))
        (new.groups.flatMap
          (checkInner o (scope SharedLevel.new (⟨old, new, file⟩ :: levels)) path file)) := by
      refine .flatMap groups fun g isOld g' isNew named ⟨required, inside⟩ => ?_
      unfold checkInner
      rw [named, required]
      cases file.groupNamed? g.name with
      | none => exact .refl _
      | some actual =>
        have same := ih g isOld (wf.inner isOld) (wf'.inner isNew) inside sizes'
          (path.child "groups" g.name) actual
        exact Alike.append (.refl [.pass (path.child "groups" g.name)]) same
    rw [check_eq, check_eq, ValidationOptions.unknown_congr dimensions.names,
      ValidationOptions.unknown_congr vars.names, ValidationOptions.unknown_congr groups.names]
    exact ((((((alike_checkAttributes attributes o path file.attributes).append ofDimensions).append
      (.refl _)).append ofVars).append (.refl _)).append ofGroups).append (.refl _)

end Group

namespace Definition

/-- Where a comparison asks for a patch only, no file tells the old dataset from the new one: under
any options the reports hold the same findings and the same passed checks, the order and the wording
apart. -/
theorem validate_of_patch (d d' : Definition) (name name' : String)
    (defaults defaults' : Defaults) {old new : Dataset}
    (compiled : d.compileNamed name defaults = .ok old)
    (compiled' : d'.compileNamed name' defaults' = .ok new) (strict : Bool)
    (patch : (old.compare strict new).requiredBump = .patch) (o : ValidationOptions)
    (file : DataFile) :
    ((old.validate o file).diagnostics.map fun x => (x.path, x.category, x.severity)).Perm
        ((new.validate o file).diagnostics.map fun x => (x.path, x.category, x.severity)) ∧
      ((old.validate o file).passed.map Prod.snd).Perm
        ((new.validate o file).passed.map Prod.snd) := by
  have wf : old.WellFormed [] := (Section.of_compile d.body compiled).2.2
  have wf' : new.WellFormed [] := (Section.of_compile d'.body compiled').2.2
  have editorial := (editorial_append.1 (editorial_of_requiredBump patch)).2
  have sizes : ∀ l ∈ ([] : List SharedLevel), l.SameSizes := nofun
  exact (Group.alike_check wf wf' editorial sizes o NodePath.root file).ofEntries

/-- A variable over two dimensions, and two attributes of the root. -/
def gridded : Definition where
  shortName := none
  filePattern := none
  description := some "A grid"
  canonicalName := none
  body :=
    ⟨⟨[(.text "title", .text "grid"), (.text "levels", .sequence [.int 1, .int 2])], by decide⟩,
      [⟨"lat", some 3, true, none⟩, ⟨"lon", some 4, true, some "eastward"⟩],
      [⟨"height", "float32", true, none, ["lat", "lon"], .empty⟩], []⟩

/-- The same with other descriptions and in another order. -/
def reworded : Definition where
  shortName := none
  filePattern := none
  description := some "A regular grid"
  canonicalName := none
  body :=
    ⟨⟨[(.text "levels", .sequence [.int 1, .int 2]), (.text "title", .text "grid")], by decide⟩,
      [⟨"lon", some 4, true, none⟩, ⟨"lat", some 3, true, some "northward"⟩],
      [⟨"height", "float32", true, some "above the geoid", ["lat", "lon"], .empty⟩], []⟩

/-- No attributes, one dimension of another size, and a variable of another type. -/
def coarse : DataFile :=
  ⟨"coarse", ∅, [⟨"lat", 2, false⟩], [⟨"height", .float64, ["lat", "lon"], ∅⟩], []⟩

theorem validate_of_patch_reworded : ∃ old new,
    gridded.compileNamed "grid" .empty = .ok old ∧
      reworded.compileNamed "grid" .empty = .ok new ∧
      (old.compare false new).changes ≠ [] ∧ (old.compare false new).requiredBump = .patch ∧
      (old.validate .standard coarse).diagnostics ≠ (new.validate .standard coarse).diagnostics ∧
      ((old.validate .standard coarse).diagnostics.map
          fun x => (x.path, x.category, x.severity)).Perm
        ((new.validate .standard coarse).diagnostics.map
          fun x => (x.path, x.category, x.severity)) :=
  ⟨_, _, rfl, rfl, nofun, rfl, by decide, (validate_of_patch gridded reworded "grid" "grid" .empty
    .empty rfl rfl false rfl .standard coarse).1⟩

end Definition

end ProductSpec
