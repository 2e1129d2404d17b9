/-
  The exact meaning of a report when unknown parts are allowed. Of a part that the file need not
  have and does not have there is no word, neither at its path nor below it. A required one that is
  absent is missing once, with nothing else there or below. A part that meets its constraint passes
  once, and one that does not has a finding for each violation. Nothing is reported anywhere else.
-/
import ProductSpec.Proofs.Definition.Shape
import ProductSpec.Proofs.Report.Entries
import ProductSpec.Proofs.Validation.Parts
import ProductSpec.Proofs.Validation.Scope

namespace ProductSpec

/-- A group of the dataset that is reached: the root, or one that the file has in a group that is
reached. It comes with its path, what the file has there, and the groups around it. -/
inductive Active (d : Dataset) (file : DataFile) : NodePath → Group → FileGroup → Scope → Prop
  | root : Active d file NodePath.root d file []
  | group {path : NodePath} {g child : Group} {actual inner : FileGroup} {scope : Scope} :
      Active d file path g actual scope → child ∈ g.groups →
      actual.groupNamed? child.name = some inner →
      Active d file (path.child "groups" child.name) child inner (g.level actual :: scope)

/-- A part whose only place is its path. -/
def NodePath.isSelf (here q : NodePath) : Bool := q == here

/-- What a report tells about one part of a dataset. `own` are the places of the part itself, its
path among them. About a part that is absent the report says nothing anywhere below either. -/
structure Report.Tells {α : Type} (r : Report) (here : NodePath)
    (own : NodePath → NodePath → Bool) (required : Bool) (stored? : Option α)
    (Violates : NodePath → α → NodePath → Category → Prop) : Prop where
  optional : stored? = none → required = false →
    r.foundAt here.isPrefixOf = [] ∧ r.passedAt here.isPrefixOf = []
  missing : stored? = none → required = true →
    r.foundAt here.isPrefixOf = [(here, .missing)] ∧ r.passedAt here.isPrefixOf = []
  satisfied : ∀ x, stored? = some x → (∀ p c, ¬ Violates here x p c) →
    r.foundAt (own here) = [] ∧ r.passedAt (own here) = [here]
  violated : ∀ x, stored? = some x → (∃ p c, Violates here x p c) →
    r.passedAt (own here) = [] ∧ ∀ p c, (p, c) ∈ r.foundAt (own here) ↔ Violates here x p c

/-- How a value can break a constraint. -/
inductive AttributeConstraint.Violates (c : AttributeConstraint) (path : NodePath)
    (value : AttributeValue) : NodePath → Category → Prop
  | value {l : Literal} : c.kind = .literal l → l.matches value = false →
      Violates c path value path .valueMismatch
  | type {p : Placeholder} : c.kind = .placeholder p → value.conformsTo p = false →
      Violates c path value path .typeMismatch

inductive Dimension.Violates (d : Dimension) (path : NodePath) (actual : FileDimension) :
    NodePath → Category → Prop
  | size : d.size.accepts actual.size = false → Violates d path actual path .dimensionMismatch

/-- How a stored variable can differ from its declaration. -/
inductive Variable.Violates (v : Variable) (scope : Scope) (path : NodePath)
    (actual : FileVariable) : NodePath → Category → Prop
  | dataType : actual.dataType ≠ v.dataType → Violates v scope path actual path .dataTypeMismatch
  | dimensions : actual.dimensions ≠ v.dimensions →
      Violates v scope path actual (path ++ ["dimensions"]) .dimensionMismatch
  | dimension {name : String} : name ∈ v.dimensions → name ∈ actual.dimensions →
      ¬ scope.Meets name →
      Violates v scope path actual (path.child "dimensions" name) .dimensionMismatch

/-- A group that is there has nothing to violate. -/
def Group.Violates (_ : NodePath) (_ : FileGroup) (_ : NodePath) (_ : Category) : Prop := False

/-- What a report tells about the parts of one group. -/
structure Report.Exact (r : Report) (path : NodePath) (g : Group) (actual : FileGroup)
    (scope : Scope) : Prop where
  attributes : ∀ c ∈ g.attributes,
    r.Tells (path.child "attributes" c.name) NodePath.isSelf c.isRequired
      (actual.attributes.get? c.name) c.Violates
  dimensions : ∀ d ∈ g.dimensions,
    r.Tells (path.child "dimensions" d.name) NodePath.isSelf d.info.required
      (actual.dimensionNamed? d.name) d.Violates
  vars : ∀ v ∈ g.vars,
    r.Tells (path.child "variables" v.name) Variable.isOwnPlace v.info.required
      (actual.variableNamed? v.name) (v.Violates (g.level actual :: scope))
  stored : ∀ v ∈ g.vars, ∀ stored, actual.variableNamed? v.name = some stored →
    ∀ c ∈ v.attributes,
      r.Tells ((path.child "variables" v.name).child "attributes" c.name) NodePath.isSelf
        c.isRequired (stored.attributes.get? c.name) c.Violates
  groups : ∀ h ∈ g.groups,
    r.Tells (path.child "groups" h.name) NodePath.isSelf h.info.required
      (actual.groupNamed? h.name) Group.Violates

/-- A place of a part that is asked for: of one in a group that is reached, or of an attribute of a
variable that the file has there. -/
inductive OwnPlace (d : Dataset) (file : DataFile) : NodePath → Prop
  | attribute {path : NodePath} {g : Group} {actual : FileGroup} {scope : Scope}
      {c : AttributeConstraint} :
      Active d file path g actual scope → c ∈ g.attributes →
      OwnPlace d file (path.child "attributes" c.name)
  | dimension {path : NodePath} {g : Group} {actual : FileGroup} {scope : Scope} {n : Dimension} :
      Active d file path g actual scope → n ∈ g.dimensions →
      OwnPlace d file (path.child "dimensions" n.name)
  | variable {path q : NodePath} {g : Group} {actual : FileGroup} {scope : Scope} {v : Variable} :
      Active d file path g actual scope → v ∈ g.vars →
      Variable.isOwnPlace (path.child "variables" v.name) q = true → OwnPlace d file q
  | stored {path : NodePath} {g : Group} {actual : FileGroup} {scope : Scope} {v : Variable}
      {stored : FileVariable} {c : AttributeConstraint} :
      Active d file path g actual scope → v ∈ g.vars →
      actual.variableNamed? v.name = some stored → c ∈ v.attributes →
      OwnPlace d file ((path.child "variables" v.name).child "attributes" c.name)
  | group {path : NodePath} {g child : Group} {actual : FileGroup} {scope : Scope} :
      Active d file path g actual scope → child ∈ g.groups →
      OwnPlace d file (path.child "groups" child.name)

/-- A report that says nothing but at some places. -/
structure Report.Only (r : Report) (Place : NodePath → Prop) : Prop where
  diagnostics : ∀ x ∈ r.diagnostics, Place x.path
  passed : ∀ x ∈ r.passed, Place x.2

theorem NodePath.prefix_of_isSelf {here q : NodePath} (h : here.isSelf q = true) : here <+: q :=
  (beq_iff_eq.1 h : q = here) ▸ List.prefix_rfl

theorem filter_isSelf {entries : List Entry} {here : NodePath}
    (only : ∀ e ∈ entries, e.path = here) :
    (entries.filter fun e => here.isSelf e.path) = entries :=
  List.filter_eq_self.2 fun e mem => beq_iff_eq.2 (only e mem)

theorem filter_elsewhere {entries : List Entry} {picks : NodePath → Bool}
    (elsewhere : ∀ e ∈ entries, picks e.path = false) :
    (entries.filter fun e => picks e.path) = [] :=
  List.filter_eq_nil_iff.2 fun e mem here => Bool.false_ne_true ((elsewhere e mem).symm.trans here)

section Parts

variable {α : Type} {here : NodePath} {own : NodePath → NodePath → Bool} {required : Bool}
  {Violates : NodePath → α → NodePath → Category → Prop}

/-- A report tells of a part what the checks at and below its path tell. -/
theorem Report.Tells.extend {entries all : List Entry} {stored? : Option α}
    (h : (ofEntries entries).Tells here own required stored? Violates)
    (below : ∀ q, own here q = true → here <+: q)
    (same : ∀ picks : NodePath → Bool, (∀ q, picks q = true → here <+: q) →
      (all.filter fun e => picks e.path) = entries.filter fun e => picks e.path) :
    (ofEntries all).Tells here own required stored? Violates := by
  have found {picks : NodePath → Bool} (h : ∀ q, picks q = true → here <+: q) :
      (ofEntries all).foundAt picks = (ofEntries entries).foundAt picks := by
    rw [foundAt_ofEntries, foundAt_ofEntries, same picks h]
  have passed {picks : NodePath → Bool} (h : ∀ q, picks q = true → here <+: q) :
      (ofEntries all).passedAt picks = (ofEntries entries).passedAt picks := by
    rw [passedAt_ofEntries, passedAt_ofEntries, same picks h]
  have under : ∀ q, here.isPrefixOf q = true → here <+: q := fun _ => List.isPrefixOf_iff_prefix.1
  constructor
  · rw [found under, passed under]
    exact h.optional
  · rw [found under, passed under]
    exact h.missing
  · rw [found below, passed below]
    exact h.satisfied
  · rw [found below, passed below]
    exact h.violated

/-- A part that is absent. -/
theorem tells_absent {d : Diagnostic} (isMissing : d.category = .missing) :
    (Report.ofEntries (if required then [.finding d] else [])).Tells d.path own required none
      Violates := by
  have here : d.path.isPrefixOf d.path = true := List.isPrefixOf_iff_prefix.2 List.prefix_rfl
  cases required with
  | false => exact ⟨fun _ _ => ⟨rfl, rfl⟩, nofun, nofun, nofun⟩
  | true =>
    refine ⟨nofun, fun _ _ => ?_, nofun, nofun⟩
    simp [Report.foundAt_ofEntries, Report.passedAt_ofEntries, Entry.path, Entry.found?,
      Entry.passed?, here, isMissing]

/-- A part that is there is judged by the outcomes at its own places. -/
theorem tells_stored {entries mine : List Entry} {x : α}
    (isMine : (entries.filter fun e => own here e.path) = mine)
    (satisfied : (∀ p c, ¬ Violates here x p c) →
      mine.filterMap Entry.found? = [] ∧ mine.filterMap Entry.passed? = [here])
    (violated : (∃ p c, Violates here x p c) → mine.filterMap Entry.passed? = [] ∧
      ∀ p c, (p, c) ∈ mine.filterMap Entry.found? ↔ Violates here x p c) :
    (Report.ofEntries entries).Tells here own required (some x) Violates := by
  refine ⟨nofun, nofun, fun y same => ?_, fun y same => ?_⟩ <;>
    rw [Report.foundAt_ofEntries, Report.passedAt_ofEntries, isMine, ← Option.some.inj same]
  · exact satisfied
  · exact violated

/-- A part that is there and passes as one check. -/
theorem tells_pass {entries : List Entry} {x : α}
    (isMine : (entries.filter fun e => own here e.path) = [.pass here])
    (met : ∀ p c, ¬ Violates here x p c) :
    (Report.ofEntries entries).Tells here own required (some x) Violates :=
  tells_stored isMine (fun _ => ⟨rfl, rfl⟩) fun ⟨p, c, violation⟩ => absurd violation (met p c)

/-- A part that is there and is checked in one way, at its path. -/
theorem tells_single {x : α} {met : Bool} {category : Category} (o : ValidationOptions)
    (message : String) (constraint : Option String)
    (only : ∀ p c, Violates here x p c ↔ met = false ∧ p = here ∧ c = category) :
    (Report.ofEntries
      [if met then .pass here else o.finding category here message constraint]).Tells
        here NodePath.isSelf required (some x) Violates := by
  cases met with
  | true =>
    refine tells_pass (filter_isSelf fun e mem => List.mem_singleton.1 mem ▸ rfl)
      fun p c violation => ?_
    obtain ⟨unmet, -⟩ := (only p c).1 violation
    cases unmet
  | false =>
    refine tells_stored (filter_isSelf fun e mem => List.mem_singleton.1 mem ▸ rfl)
      (fun none => ?_) fun _ => ⟨rfl, fun p c => ?_⟩
    · exact absurd ((only here category).2 ⟨rfl, rfl, rfl⟩) (none here category)
    · simp [only, ValidationOptions.finding, Entry.found?]

end Parts

section Checks

variable (policy : SeverityPolicy)

namespace AttributeConstraint

theorem tells_check (path : NodePath) (actual : NameMap AttributeValue)
    (c : AttributeConstraint) :
    (Report.ofEntries (c.check (.tolerant policy) path actual)).Tells
      (path.child "attributes" c.name) NodePath.isSelf c.isRequired (actual.get? c.name)
      c.Violates := by
  unfold check
  cases actual.get? c.name with
  | none => exact tells_absent rfl
  | some value =>
    cases kind : c.kind with
    | literal l =>
      simp only [checkValue, kind]
      refine tells_single _ _ _ fun p category => ⟨?_, ?_⟩
      · rintro (⟨isLiteral, unmet⟩ | ⟨isPlaceholder, -⟩)
        · cases kind.symm.trans isLiteral
          exact ⟨unmet, rfl, rfl⟩
        · cases kind.symm.trans isPlaceholder
      · rintro ⟨unmet, rfl, rfl⟩
        exact .value kind unmet
    | placeholder q =>
      simp only [checkValue, kind]
      refine tells_single _ _ _ fun p category => ⟨?_, ?_⟩
      · rintro (⟨isLiteral, -⟩ | ⟨isPlaceholder, unmet⟩)
        · cases kind.symm.trans isLiteral
        · cases kind.symm.trans isPlaceholder
          exact ⟨unmet, rfl, rfl⟩
      · rintro ⟨unmet, rfl, rfl⟩
        exact .type kind unmet

end AttributeConstraint

namespace Dimension

theorem tells_check (path : NodePath) (file : FileGroup) (d : Dimension) :
    (Report.ofEntries (d.check (.tolerant policy) path file)).Tells
      (path.child "dimensions" d.name) NodePath.isSelf d.info.required
      (file.dimensionNamed? d.name) d.Violates := by
  unfold check
  cases file.dimensionNamed? d.name with
  | none => exact tells_absent rfl
  | some actual =>
    simp only [← apply_ite (fun e : Entry => [e])]
    refine tells_single _ _ _ fun p category => ⟨?_, ?_⟩
    · rintro ⟨unmet⟩
      exact ⟨unmet, rfl, rfl⟩
    · rintro ⟨unmet, rfl, rfl⟩
      exact .size unmet

end Dimension

namespace Variable

theorem mem_dimensionFaults {v : Variable} {scope : Scope} {actual : FileVariable}
    {name : String} :
    (∃ fault, (name, fault) ∈ v.dimensionFaults scope actual) ↔
      name ∈ v.dimensions ∧ name ∈ actual.dimensions ∧ ¬ scope.Meets name := by
  simp only [mem_dimensionFaults_iff, exists_and_left, ← Option.ne_none_iff_exists',
    ← Scope.fault?_eq_none_iff, ne_eq]

theorem mem_found_checkSelf {v : Variable} {o : ValidationOptions} {scope : Scope}
    {path p : NodePath} {actual : FileVariable} {c : Category} :
    (p, c) ∈ (v.checkSelf o scope path actual).filterMap Entry.found? ↔
      v.Violates scope path actual p c := by
  simp only [checkSelf, List.filterMap_append, List.mem_append]
  constructor
  · rintro (((h | h) | h) | h)
    · split at h
      · cases h
      · next unlike =>
        obtain ⟨rfl, rfl⟩ := Prod.mk.inj (List.mem_singleton.1 h)
        exact .dataType (by simpa using unlike)
    · split at h
      · cases h
      · next unlike =>
        obtain ⟨rfl, rfl⟩ := Prod.mk.inj (List.mem_singleton.1 h)
        exact .dimensions (by simpa using unlike)
    · rw [List.filterMap_map, List.mem_filterMap] at h
      obtain ⟨⟨name, fault⟩, mem, h⟩ := h
      obtain ⟨rfl, rfl⟩ := Prod.mk.inj (Option.some.inj h)
      obtain ⟨declared, stored, faulty⟩ := mem_dimensionFaults.1 ⟨fault, mem⟩
      exact .dimension declared stored faulty
    · split at h <;> cases h
  · rintro (unlike | unlike | ⟨declared, stored, faulty⟩)
    · rw [if_neg (by simpa using unlike)]
      exact .inl (.inl (.inl (List.mem_singleton.2 rfl)))
    · rw [if_neg (c := (actual.dimensions == v.dimensions) = true) (by simpa using unlike)]
      exact .inl (.inl (.inr (List.mem_singleton.2 rfl)))
    · obtain ⟨fault, mem⟩ := mem_dimensionFaults.2 ⟨declared, stored, faulty⟩
      rw [List.filterMap_map]
      exact .inl (.inr (List.mem_filterMap.2 ⟨_, mem, rfl⟩))

/-- A stored variable passes once if there is no violation, and otherwise not at all. -/
theorem passed_checkSelf (v : Variable) (scope : Scope) (path : NodePath)
    (actual : FileVariable) :
    ((∀ p c, ¬ v.Violates scope path actual p c) →
      (v.checkSelf (.tolerant policy) scope path actual).filterMap Entry.passed? = [path]) ∧
    ((∃ p c, v.Violates scope path actual p c) →
      (v.checkSelf (.tolerant policy) scope path actual).filterMap Entry.passed? = []) := by
  have faults {f : String × DimensionFault → Entry} (found : ∀ e, (f e).passed? = none) :
      ((v.dimensionFaults scope actual).map f).filterMap Entry.passed? = [] := by
    simp [List.filterMap_map, found]
  -- The pass is the last outcome, and it is there only if the three others found nothing.
  have passed : (v.checkSelf (.tolerant policy) scope path actual).filterMap Entry.passed? =
      if actual.dataType == v.dataType && actual.dimensions == v.dimensions &&
        (v.dimensionFaults scope actual).isEmpty then [path] else [] := by
    simp only [checkSelf, List.filterMap_append]
    rw [faults fun _ => rfl, List.append_nil]
    split <;> split <;> split <;> rfl
  constructor
  · intro met
    have sameType : actual.dataType = v.dataType := by
      by_contra unlike
      exact met _ _ (.dataType unlike)
    have sameDimensions : actual.dimensions = v.dimensions := by
      by_contra unlike
      exact met _ _ (.dimensions unlike)
    have none : v.dimensionFaults scope actual = [] := by
      rw [List.eq_nil_iff_forall_not_mem]
      rintro ⟨name, fault⟩ mem
      obtain ⟨declared, stored, faulty⟩ := mem_dimensionFaults.1 ⟨fault, mem⟩
      exact met _ _ (.dimension declared stored faulty)
    rw [passed, if_pos (by simp [sameType, sameDimensions, none])]
  · rintro ⟨p, c, violation⟩
    rw [passed, if_neg]
    simp only [Bool.and_eq_true, beq_iff_eq, List.isEmpty_iff, not_and]
    intro both none
    cases violation with
    | dataType unlike => exact unlike both.1
    | dimensions unlike => exact unlike both.2
    | dimension declared stored faulty =>
      obtain ⟨fault, mem⟩ := mem_dimensionFaults.2 ⟨declared, stored, faulty⟩
      rw [none] at mem
      cases mem

/-- What a stored variable is checked for at its own places is all but its attributes. -/
theorem filter_ownPlace_checkStored (v : Variable) (scope : Scope) (path : NodePath)
    (actual : FileVariable) :
    ((v.checkStored (.tolerant policy) scope path actual).filter
        fun e => isOwnPlace path e.path) =
      v.checkSelf (.tolerant policy) scope path actual := by
  have others : ((checkAttributes (.tolerant policy) path v.attributes actual.attributes).filter
      fun e => isOwnPlace path e.path) = [] := by
    refine filter_elsewhere fun e mem => ?_
    obtain ⟨name, below⟩ := ofKind_checkAttributes _ _ _ _ e mem
    exact not_isOwnPlace below
  rw [checkStored, List.filter_append, others, List.append_nil,
    List.filter_eq_self.2 fun e => isOwnPlace_of_mem_checkSelf]

theorem tells_check (v : Variable) (scope : Scope) (path : NodePath) (file : FileGroup) :
    (Report.ofEntries (v.check (.tolerant policy) scope path file)).Tells
      (path.child "variables" v.name) isOwnPlace v.info.required (file.variableNamed? v.name)
      (v.Violates scope) := by
  unfold check
  cases file.variableNamed? v.name with
  | none => exact tells_absent rfl
  | some stored =>
    obtain ⟨clean, faulty⟩ := v.passed_checkSelf policy scope (path.child "variables" v.name) stored
    refine tells_stored (v.filter_ownPlace_checkStored policy scope _ stored)
      (fun met => ⟨?_, clean met⟩) fun violation => ⟨faulty violation, fun p c =>
        mem_found_checkSelf⟩
    rw [List.eq_nil_iff_forall_not_mem]
    exact fun e mem => met e.1 e.2 (mem_found_checkSelf.1 mem)

/-- What is checked of a variable is at one of its own places, or it is an attribute that the stored
variable should have. -/
theorem place_of_mem_check {v : Variable} {policy : SeverityPolicy} {scope : Scope}
    {path : NodePath} {file : FileGroup} {e : Entry}
    (h : e ∈ v.check (.tolerant policy) scope path file) :
    isOwnPlace (path.child "variables" v.name) e.path = true ∨
      ∃ stored, file.variableNamed? v.name = some stored ∧ ∃ c ∈ v.attributes,
        e.path = (path.child "variables" v.name).child "attributes" c.name := by
  unfold check at h
  split at h
  · exact .inl (isOwnPlace_iff.2 (.inl (mem_absent h)))
  · next stored found =>
    rcases List.mem_append.1 h with own | inner
    · exact .inl (isOwnPlace_of_mem_checkSelf own)
    · rw [checkAttributes_tolerant] at inner
      obtain ⟨p, isPart, mem⟩ := List.mem_flatMap.1 inner
      obtain ⟨c, isIn, rfl⟩ := List.mem_map.1 isPart
      exact .inr ⟨stored, found, c, isIn, AttributeConstraint.path_of_mem_check mem⟩

/-- What is checked at or below an attribute of a stored variable is its constraint. -/
theorem filter_attribute {v : Variable} {c : AttributeConstraint} (mem : c ∈ v.attributes)
    (block : AttributeBlock v.attributes) (scope : Scope) (path : NodePath) {file : FileGroup}
    {stored : FileVariable} (found : file.variableNamed? v.name = some stored)
    {picks : NodePath → Bool}
    (below : ∀ q, picks q = true →
      (path.child "variables" v.name).child "attributes" c.name <+: q) :
    ((v.check (.tolerant policy) scope path file).filter fun e => picks e.path) =
      (c.check (.tolerant policy) (path.child "variables" v.name) stored.attributes).filter
        fun e => picks e.path := by
  have own : ((v.checkSelf (.tolerant policy) scope (path.child "variables" v.name) stored).filter
      fun e => picks e.path) = [] := by
    refine filter_elsewhere fun e mem => Bool.eq_false_iff.2 fun here => ?_
    have place := isOwnPlace_of_mem_checkSelf mem
    rw [not_isOwnPlace (below _ here)] at place
    cases place
  have isPart : c.part policy (path.child "variables" v.name) stored.attributes ∈
      v.attributes.map (AttributeConstraint.part policy (path.child "variables" v.name)
        stored.attributes) :=
    List.mem_map_of_mem mem
  unfold check
  simp only [found, checkStored, List.filter_append]
  rw [own, List.nil_append, checkAttributes_tolerant]
  refine CheckedPart.filter_flatMap (Group.nodup_keys _ "attributes" (fun _ => rfl)
    block.names.distinct) (fun p isPart => ?_) isPart below
  obtain ⟨c, -, rfl⟩ := List.mem_map.1 isPart
  exact c.within_part policy _ _

end Variable

namespace Group

/-- What is checked inside a group is below its path. -/
theorem filter_self_check (scope : Scope) (path : NodePath) (file : FileGroup) (g : Group) :
    ((g.check (.tolerant policy) scope path file).filter fun e => path.isSelf e.path) = [] := by
  refine filter_elsewhere fun e mem => ?_
  obtain ⟨kind, name, below⟩ := below_of_mem_check mem
  exact beq_false_of_ne (NodePath.ne_of_child_prefix below).symm

theorem tells_checkInner (scope : Scope) (path : NodePath) (file : FileGroup) (g : Group) :
    (Report.ofEntries (g.checkInner (.tolerant policy) scope path file)).Tells
      (path.child "groups" g.name) NodePath.isSelf g.info.required (file.groupNamed? g.name)
      Violates := by
  unfold checkInner
  cases file.groupNamed? g.name with
  | none => exact tells_absent rfl
  | some inner =>
    refine tells_pass ?_ fun _ _ => id
    rw [List.filter_cons_of_pos (by simp [NodePath.isSelf, Entry.path]), filter_self_check]

end Group

end Checks

namespace Active

variable {d : Dataset} {file : DataFile} {path : NodePath} {g : Group} {actual : FileGroup}
  {scope : Scope}

/-- The dimensions that a group which is reached may use are those declared around it. -/
theorem wellFormed_names (h : Active d file path g actual scope) (wf : d.WellFormed []) :
    g.WellFormed scope.names := by
  induction h with
  | root => exact wf
  | group _ mem _ ih => exact ih.inner mem

theorem wellFormed (h : Active d file path g actual scope) (wf : d.WellFormed []) :
    ∃ outer, g.WellFormed outer :=
  ⟨_, h.wellFormed_names wf⟩

/-- What is found in a group that is reached is in the whole report. -/
theorem mem_check (h : Active d file path g actual scope) {o : ValidationOptions} {e : Entry}
    (mem : e ∈ g.check o scope path actual) : e ∈ d.check o [] NodePath.root file := by
  induction h with
  | root => exact mem
  | @group path g child actual inner scope _ isIn found ih =>
    refine ih ?_
    rw [Group.check_eq_own, List.mem_append, List.mem_append]
    refine .inl (.inr (List.mem_flatMap.2 ⟨child, isIn, ?_⟩))
    rw [Group.checkInner, found]
    exact List.mem_cons_of_mem _ mem

/-- What is below the path of a group in a whole report comes from the checks of that group. -/
theorem filter_check (h : Active d file path g actual scope) (wf : d.WellFormed [])
    (policy : SeverityPolicy) {own : NodePath → Bool}
    (below : ∀ q, own q = true → path <+: q ∧ path ≠ q) :
    ((d.check (.tolerant policy) [] NodePath.root file).filter fun e => own e.path) =
      (g.check (.tolerant policy) scope path actual).filter fun e => own e.path := by
  induction h generalizing own with
  | root => rfl
  | @group path g child actual inner scope active mem found ih =>
    obtain ⟨outer, wf⟩ := active.wellFormed wf
    have deeper : ∀ q, own q = true → path <+: q ∧ path ≠ q := fun q here =>
      ⟨(NodePath.prefix_child ..).trans (below q here).1,
        NodePath.ne_of_child_prefix (below q here).1⟩
    have isPart : child.part policy (g.level actual :: scope) path actual ∈
        g.parts policy scope path actual :=
      List.mem_append_right _ (List.mem_map_of_mem mem)
    -- What `own` picks is below the child, so the checks of its siblings add nothing to it.
    rw [ih deeper, Group.check_tolerant, CheckedPart.filter_flatMap
      (g.nodup_parts policy wf scope path actual) (g.within_parts policy scope path actual) isPart
      fun q here => (below q here).1]
    simp only [Group.part, Group.checkInner, found]
    rw [List.filter_cons_of_neg]
    exact fun here => (below _ here).2 rfl

/-- What is at or below one part of a group in a whole report comes from the checks of that part. -/
theorem filter_part (h : Active d file path g actual scope) (wf : d.WellFormed [])
    (policy : SeverityPolicy) {p : CheckedPart} (mem : p ∈ g.parts policy scope path actual)
    {own : NodePath → Bool} (below : ∀ q, own q = true → path.child p.kind p.name <+: q) :
    ((d.check (.tolerant policy) [] NodePath.root file).filter fun e => own e.path) =
      p.entries.filter fun e => own e.path := by
  obtain ⟨outer, wfHere⟩ := h.wellFormed wf
  rw [h.filter_check wf policy fun q here => ⟨(NodePath.prefix_child ..).trans (below q here),
    NodePath.ne_of_child_prefix (below q here)⟩, Group.check_tolerant]
  exact CheckedPart.filter_flatMap (g.nodup_parts policy wfHere scope path actual)
    (g.within_parts policy scope path actual) mem below

/-- A report tells of a part of a group what the checks of that part tell. -/
theorem tells {α : Type} (h : Active d file path g actual scope) (wf : d.WellFormed [])
    {policy : SeverityPolicy} {p : CheckedPart} (mem : p ∈ g.parts policy scope path actual)
    {own : NodePath → NodePath → Bool} {required : Bool} {stored? : Option α}
    {Violates : NodePath → α → NodePath → Category → Prop}
    (below : ∀ q, own (path.child p.kind p.name) q = true → path.child p.kind p.name <+: q)
    (part : (Report.ofEntries p.entries).Tells (path.child p.kind p.name) own required stored?
      Violates) :
    (d.validate (.tolerant policy) file).Tells (path.child p.kind p.name) own required stored?
      Violates :=
  part.extend below fun _ => h.filter_part wf policy mem

/-- Everything that is checked in a group is at a place of a part that is asked for. -/
theorem ownPlace_of_mem_check (h : Active d file path g actual scope) {policy : SeverityPolicy}
    {e : Entry} (mem : e ∈ g.check (.tolerant policy) scope path actual) :
    OwnPlace d file e.path := by
  induction g using Group.induction generalizing path actual scope with
  | step g ih =>
    rw [Group.check_tolerant] at mem
    obtain ⟨p, isPart, mem⟩ := List.mem_flatMap.1 mem
    simp only [Group.parts, List.mem_append, List.mem_map] at isPart
    -- Only a group that the file has leads further in, and then that group is reached too.
    rcases isPart with ((⟨c, isIn, rfl⟩ | ⟨n, isIn, rfl⟩) | ⟨v, isIn, rfl⟩) | ⟨child, isIn, rfl⟩
    · exact AttributeConstraint.path_of_mem_check mem ▸ .attribute h isIn
    · exact Dimension.path_of_mem_check mem ▸ .dimension h isIn
    · rcases Variable.place_of_mem_check mem with own | ⟨stored, found, c, isAttribute, here⟩
      · exact .variable h isIn own
      · exact here ▸ .stored h isIn found isAttribute
    · change e ∈ child.checkInner _ _ _ _ at mem
      unfold Group.checkInner at mem
      split at mem
      · exact mem_absent mem ▸ .group h isIn
      · next inner found =>
        rcases List.mem_cons.1 mem with rfl | mem
        · exact .group h isIn
        · exact ih child isIn (.group h isIn found) mem

end Active

theorem Group.mem_parts_of_mem_vars (policy : SeverityPolicy) {g : Group} {v : Variable}
    (h : v ∈ g.vars) {scope : Scope} {path : NodePath} {actual : FileGroup} :
    v.part policy (g.level actual :: scope) path actual ∈ g.parts policy scope path actual := by
  simp only [parts, List.mem_append, List.mem_map]
  exact .inl (.inr ⟨v, h, rfl⟩)

namespace Group.WellFormed

variable {d : Dataset} (wf : d.WellFormed []) (policy : SeverityPolicy) (file : DataFile)

include wf in
/-- A report tells exactly what became of every part of every active group. -/
theorem validate_exact {path : NodePath} {g : Group} {actual : FileGroup} {scope : Scope}
    (active : Active d file path g actual scope) :
    (d.validate (.tolerant policy) file).Exact path g actual scope where
  attributes c mem := by
    have isPart : c.part policy path actual.attributes ∈ g.parts policy scope path actual := by
      simp only [parts, List.mem_append, List.mem_map]
      exact .inl (.inl (.inl ⟨c, mem, rfl⟩))
    exact active.tells wf isPart (fun _ => NodePath.prefix_of_isSelf)
      (c.tells_check policy path actual.attributes)
  dimensions d mem := by
    have isPart : d.part policy path actual ∈ g.parts policy scope path actual := by
      simp only [parts, List.mem_append, List.mem_map]
      exact .inl (.inl (.inr ⟨d, mem, rfl⟩))
    exact active.tells wf isPart (fun _ => NodePath.prefix_of_isSelf)
      (d.tells_check policy path actual)
  vars v mem :=
    active.tells wf (mem_parts_of_mem_vars policy mem) (fun _ => Variable.prefix_of_isOwnPlace)
      (v.tells_check policy _ path actual)
  stored v mem stored found c isIn := by
    obtain ⟨outer, wfHere⟩ := active.wellFormed wf
    refine (c.tells_check policy (path.child "variables" v.name) stored.attributes).extend
      (fun _ => NodePath.prefix_of_isSelf) fun _ below => ?_
    rw [active.filter_part wf policy (mem_parts_of_mem_vars policy mem) fun q here =>
      (NodePath.prefix_child ..).trans (below q here)]
    exact Variable.filter_attribute policy isIn (wfHere.blocks mem) _ path found below
  groups h mem := by
    have isPart : h.part policy (g.level actual :: scope) path actual ∈
        g.parts policy scope path actual :=
      List.mem_append_right _ (List.mem_map_of_mem mem)
    exact active.tells wf isPart (fun _ => NodePath.prefix_of_isSelf)
      (h.tells_checkInner policy _ path actual)

end Group.WellFormed

/-- A report says nothing but at the places of the parts that are asked for. -/
theorem Group.validate_only (d : Dataset) (policy : SeverityPolicy) (file : DataFile) :
    (d.validate (.tolerant policy) file).Only (OwnPlace d file) where
  diagnostics _ mem := Active.root.ownPlace_of_mem_check (Report.mem_diagnostics.1 mem)
  passed _ mem :=
    Active.root.ownPlace_of_mem_check (Report.mem_passed.1 (List.mem_map_of_mem mem))

namespace Definition

/-- For a compiled definition every report is exact on every active group of every file, and it
says nothing about anything else. -/
theorem report_exact (d : Definition) (name : String) (defaults : Defaults) {dataset : Dataset}
    (h : d.compileNamed name defaults = .ok dataset) (policy : SeverityPolicy) (file : DataFile) :
    (∀ path g actual scope, Active dataset file path g actual scope →
      (dataset.validate ⟨true, policy⟩ file).Exact path g actual scope) ∧
    (dataset.validate ⟨true, policy⟩ file).Only (OwnPlace dataset file) :=
  ⟨fun _ _ _ _ active => (Section.of_compile d.body h).2.2.validate_exact policy file active,
    dataset.validate_only policy file⟩

/-- A file with the group of the nested definition, whose only dimension has another size. -/
def shallow : DataFile :=
  ⟨"shallow", ∅, [⟨"time", 4, true⟩], [], [⟨"profile", ∅, [⟨"level", 2, false⟩], [], []⟩]⟩

theorem report_exact_nested : ∃ dataset path profile inner scope,
    nested.compileNamed "sounding" .empty = .ok dataset ∧ profile.name = "profile" ∧
      Active dataset shallow path profile inner scope ∧
      (dataset.validate ⟨true, .standard⟩ shallow).Exact path profile inner scope ∧
      (dataset.validate ⟨true, .standard⟩ shallow).Only (OwnPlace dataset shallow) :=
  have active := .group .root List.mem_cons_self rfl
  have report := report_exact nested "sounding" .empty rfl .standard shallow
  ⟨_, _, _, _, _, rfl, rfl, active, report.1 _ _ _ _ active, report.2⟩

end Definition

end ProductSpec
