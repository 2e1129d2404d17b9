/-
  Checks that find nothing. For each kind of part this says what the file has to hold, whatever
  the severities; only where unknown parts are not allowed must every part be declared.
-/
import ProductSpec.Proofs.Report.Entries
import ProductSpec.Proofs.Validation.Parts

namespace ProductSpec

/-- Checks that find nothing. -/
def Silent (entries : List Entry) : Prop := ∀ d, Entry.finding d ∉ entries

theorem silent_nil : Silent [] := fun _ => List.not_mem_nil

theorem silent_pass (path : NodePath) : Silent [.pass path] := by
  intro d mem
  cases List.mem_singleton.1 mem

theorem not_silent_finding (o : ValidationOptions) (category : Category) (path : NodePath)
    (message : String) (constraint : Option String) :
    ¬ Silent [o.finding category path message constraint] :=
  fun silent => silent _ List.mem_cons_self

theorem silent_append {entries others : List Entry} :
    Silent (entries ++ others) ↔ Silent entries ∧ Silent others := by
  constructor
  · intro silent
    exact ⟨fun d mem => silent d (List.mem_append_left _ mem),
      fun d mem => silent d (List.mem_append_right _ mem)⟩
  · rintro ⟨first, second⟩ d mem
    rcases List.mem_append.1 mem with mem | mem
    · exact first d mem
    · exact second d mem

theorem silent_flatMap {α : Type} {items : List α} {checks : α → List Entry} :
    Silent (items.flatMap checks) ↔ ∀ x ∈ items, Silent (checks x) := by
  constructor
  · intro silent x isIn d mem
    exact silent d (List.mem_flatMap.2 ⟨x, isIn, mem⟩)
  · intro silent d mem
    obtain ⟨x, isIn, mem⟩ := List.mem_flatMap.1 mem
    exact silent x isIn d mem

/-- A check that passes or finds one thing. -/
theorem silent_ite {c : Prop} [Decidable c] (o : ValidationOptions) (category : Category)
    (path : NodePath) (message : String) (constraint : Option String) {entries : List Entry}
    (silent : Silent entries) :
    Silent (if c then entries else [o.finding category path message constraint]) ↔ c := by
  by_cases holds : c
  · rw [if_pos holds]
    exact ⟨fun _ => holds, fun _ => silent⟩
  · rw [if_neg holds]
    exact ⟨fun h => absurd h (not_silent_finding o category path message constraint),
      fun h => absurd h holds⟩

theorem silent_singleton_ite {c : Prop} [Decidable c] (o : ValidationOptions)
    (category : Category) (path : NodePath) (message : String) (constraint : Option String) :
    Silent [if c then .pass path else o.finding category path message constraint] ↔ c := by
  refine Iff.trans ?_ (silent_ite o category path message constraint (silent_pass path))
  split <;> rfl

theorem silent_absent {o : ValidationOptions} {isRequired : Bool} {path : NodePath} :
    Silent (o.absent isRequired path) ↔ isRequired = false := by
  cases isRequired with
  | false => exact ⟨fun _ => rfl, fun _ => silent_nil⟩
  | true => exact ⟨fun h => absurd h (not_silent_finding o _ path _ _), nofun⟩

theorem silent_unknown {o : ValidationOptions} {path : NodePath} {kind : String}
    {names declared : List String} :
    Silent (o.unknown path kind names declared) ↔ o.allowUnknown = true ∨ names ⊆ declared := by
  unfold ValidationOptions.unknown
  split
  · next allowed => exact ⟨fun _ => .inl allowed, fun _ => silent_nil⟩
  · next strict =>
    constructor
    · intro silent
      refine .inr fun name mem => ?_
      by_contra undeclared
      exact silent _ (List.mem_map.2
        ⟨name, List.mem_filter.2 ⟨mem, decide_eq_true undeclared⟩, rfl⟩)
    · rintro (allowed | known) d mem
      · exact strict allowed
      · obtain ⟨name, mem, -⟩ := List.mem_map.1 mem
        obtain ⟨mem, undeclared⟩ := List.mem_filter.1 mem
        exact of_decide_eq_true undeclared (known mem)

namespace AttributeConstraint

/-- Whether a value satisfies the constraint. -/
def meets (c : AttributeConstraint) (value : AttributeValue) : Bool :=
  match c.kind with
  | .literal l => l.matches value
  | .placeholder p => value.conformsTo p

/-- What an attribute may be, if it is there at all. -/
def Accepts (c : AttributeConstraint) : Option AttributeValue → Prop
  | none => c.isRequired = false
  | some value => c.meets value = true

theorem silent_check {c : AttributeConstraint} {o : ValidationOptions} {path : NodePath}
    {actual : NameMap AttributeValue} :
    Silent (c.check o path actual) ↔ c.Accepts (actual.get? c.name) := by
  unfold check
  cases actual.get? c.name with
  | none =>
    cases required : c.isRequired with
    | false => exact ⟨fun _ => required, fun _ => silent_nil⟩
    | true =>
      refine ⟨fun h => absurd h (not_silent_finding o _ _ _ _), fun h => ?_⟩
      rw [show c.isRequired = false from h] at required
      cases required
  | some value =>
    show Silent [c.checkValue o _ value] ↔ c.meets value = true
    unfold checkValue meets
    cases c.kind with
    | literal l => exact silent_singleton_ite o _ _ _ _
    | placeholder p => exact silent_singleton_ite o _ _ _ _

end AttributeConstraint

theorem silent_checkAttributes {o : ValidationOptions} {path : NodePath}
    {constraints : List AttributeConstraint} {actual : NameMap AttributeValue} :
    Silent (checkAttributes o path constraints actual) ↔
      (∀ c ∈ constraints, c.Accepts (actual.get? c.name)) ∧
        (o.allowUnknown = true ∨ actual.names ⊆ constraints.map AttributeConstraint.name) := by
  unfold checkAttributes
  rw [silent_append, silent_flatMap, silent_unknown]
  refine and_congr_left' (forall₂_congr fun c _ => ?_)
  exact AttributeConstraint.silent_check

namespace Dimension

/-- What a dimension may be, if it is there at all. -/
def Accepts (d : Dimension) : Option FileDimension → Prop
  | none => d.info.required = false
  | some actual => d.size.accepts actual.size = true

theorem silent_check {d : Dimension} {o : ValidationOptions} {path : NodePath}
    {file : FileGroup} :
    Silent (d.check o path file) ↔ d.Accepts (file.dimensionNamed? d.name) := by
  unfold check
  cases file.dimensionNamed? d.name with
  | none => exact silent_absent
  | some actual => exact silent_ite o _ _ _ _ (silent_pass _)

end Dimension

namespace Variable

/-- What a stored variable may be among the dimensions in scope, its attributes apart. -/
structure AcceptsSelf (v : Variable) (scope : Scope) (actual : FileVariable) : Prop where
  dataType : actual.dataType = v.dataType
  dimensions : actual.dimensions = v.dimensions
  faultless : ∀ name ∈ v.dimensions, scope.fault? name = none

theorem silent_checkSelf {v : Variable} {o : ValidationOptions} {scope : Scope} {path : NodePath}
    {actual : FileVariable} :
    Silent (v.checkSelf o scope path actual) ↔ v.AcceptsSelf scope actual := by
  have sameType : Silent (if actual.dataType == v.dataType then []
      else [o.finding .dataTypeMismatch path
        ("type mismatch: expected " ++ v.dataType.token ++ ", got " ++ actual.dataType.token)
        v.dataType.token]) ↔ actual.dataType = v.dataType :=
    (silent_ite o _ _ _ _ silent_nil).trans beq_iff_eq
  have sameDimensions : Silent (if actual.dimensions == v.dimensions then []
      else [o.finding .dimensionMismatch (path ++ ["dimensions"])
        ("dimension mismatch: expected " ++ bracketed v.dimensions ++ ", got " ++
          bracketed actual.dimensions) none]) ↔ actual.dimensions = v.dimensions :=
    (silent_ite o _ _ _ _ silent_nil).trans beq_iff_eq
  have passes : ∀ (b : Bool), Silent (if b then [.pass path] else []) := by
    rintro (_ | _)
    · exact silent_nil
    · exact silent_pass path
  unfold checkSelf
  rw [silent_append, silent_append, silent_append, sameType, sameDimensions]
  constructor
  · rintro ⟨⟨⟨typeEq, dimensionsEq⟩, faultless⟩, -⟩
    refine ⟨typeEq, dimensionsEq, fun name used => ?_⟩
    cases fault : scope.fault? name with
    | none => rfl
    | some f =>
      have isFault := mem_dimensionFaults_iff.2 ⟨used, dimensionsEq ▸ used, fault⟩
      exact absurd (List.mem_map_of_mem isFault) (faultless _)
  · rintro ⟨typeEq, dimensionsEq, faultless⟩
    refine ⟨⟨⟨typeEq, dimensionsEq⟩, fun d mem => ?_⟩, passes _⟩
    obtain ⟨⟨name, fault⟩, isFault, -⟩ := List.mem_map.1 mem
    obtain ⟨used, -, found⟩ := mem_dimensionFaults_iff.1 isFault
    rw [faultless name used] at found
    cases found

end Variable

namespace Group

/-- What a group has to hold for its checks to find nothing. -/
theorem silent_check {g : Group} {o : ValidationOptions} {scope : Scope} {path : NodePath}
    {file : FileGroup} :
    Silent (g.check o scope path file) ↔
      Silent (checkAttributes o path g.attributes file.attributes) ∧
      (∀ d ∈ g.dimensions, d.Accepts (file.dimensionNamed? d.name)) ∧
      (∀ v ∈ g.vars, Silent (v.check o (g.level file :: scope) path file)) ∧
      (∀ h ∈ g.groups, Silent (h.checkInner o (g.level file :: scope) path file)) ∧
      (o.allowUnknown = true ∨
        file.dimensions.map FileDimension.name ⊆ g.dimensions.map Dimension.name ∧
        file.vars.map FileVariable.name ⊆ g.vars.map Variable.name ∧
        file.groups.map FileGroup.name ⊆ g.groups.map Group.name) := by
  rw [check_eq]
  simp only [silent_append, silent_flatMap, silent_unknown, Dimension.silent_check]
  tauto

/-- A report without a finding comes from checks that find nothing. -/
theorem silent_of_validate {d : Dataset} {o : ValidationOptions} {file : DataFile}
    (valid : (d.validate o file).diagnostics = []) :
    Silent (d.check o [] NodePath.root file) := by
  intro x mem
  have found := Report.mem_diagnostics.2 mem
  rw [show (Report.ofEntries _).diagnostics = [] from valid] at found
  cases found

end Group

end ProductSpec
