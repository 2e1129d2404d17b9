/-
  The standard of a project beside the datasets of its definitions. A default that a definition
  leaves alone is a constraint of both; what the definition puts in the place of the others need
  not satisfy the standard.
-/
import ProductSpec.Proofs.DataFile.Example
import ProductSpec.Proofs.Validation.Silent

namespace ProductSpec

namespace AttributeLayer

theorem merged_empty (defaults : AttributeLayer) :
    merged defaults .empty = defaults.namedEntries.filter fun e => !isNull e.2 := by
  have same : (defaults.namedEntries.map fun e =>
      (e.1, ((namedEntries .empty).lookup e.1).getD e.2)) = defaults.namedEntries :=
    List.map_id _
  rw [merged, same]
  exact congrArg _ (List.append_nil _)

theorem mem_names_of_merged_empty {defaults : AttributeLayer} {e : String × Yaml.Value}
    (h : e ∈ merged defaults .empty) : e.1 ∈ defaults.names := by
  rw [merged_empty] at h
  exact List.mem_map_of_mem (List.mem_of_mem_filter h)

/-- What a product leaves alone counts as it did without the product. -/
theorem mem_merged_of_untouched {defaults product : AttributeLayer} {e : String × Yaml.Value}
    (h : e ∈ merged defaults .empty) (untouched : e.1 ∉ product.names) :
    e ∈ merged defaults product := by
  rw [merged_empty] at h
  obtain ⟨mem, filled⟩ := List.mem_filter.1 h
  refine List.mem_filter.2 ⟨List.mem_append_left _ (List.mem_map.2 ⟨e, mem, ?_⟩), filled⟩
  rw [lookup_eq_none_of_notMem untouched, Option.getD_none]

end AttributeLayer

/-- What the compiled block of attributes holds. -/
theorem compileAttributes_eq_ok {path : NodePath} {defaults product : AttributeLayer}
    {constraints : List AttributeConstraint} :
    compileAttributes path defaults product = .ok constraints ↔
      defaults.strangeKeys = [] ∧ product.strangeKeys = [] ∧
        List.Forall₂ (fun e c => c.name = e.1 ∧ ConstraintKind.compile e.2 = .ok c.kind)
          (AttributeLayer.merged defaults product) constraints := by
  have each (e : String × Yaml.Value) (c : AttributeConstraint) :
      (do return ⟨e.1, ← Compiled.at (path ++ ["attributes", e.1]) (ConstraintKind.compile e.2)⟩ :
        Compiled AttributeConstraint) = .ok c ↔
        c.name = e.1 ∧ ConstraintKind.compile e.2 = .ok c.kind := by
    constructor
    · intro h
      obtain ⟨kind, compiled, made⟩ := bind_eq_ok.1 h
      cases made
      exact ⟨rfl, Compiled.at_eq_ok.1 compiled⟩
    · rintro ⟨named, compiled⟩
      refine bind_eq_ok.2 ⟨c.kind, Compiled.at_eq_ok.2 compiled, ?_⟩
      rw [← named]
      rfl
  unfold compileAttributes
  rw [bind_eq_ok]
  simp only [mapM_eq_ok, each, AttributeLayer.merge_eq, ← and_assoc, ← List.append_eq_nil_iff]
  cases defaults.strangeKeys ++ product.strangeKeys with
  | nil => simp
  | cons k rest => simp

theorem mem_names_of_compileAttributes {path : NodePath} {defaults : AttributeLayer}
    {standard : List AttributeConstraint}
    (alone : compileAttributes path defaults .empty = .ok standard) {c : AttributeConstraint}
    (mem : c ∈ standard) : c.name ∈ defaults.names := by
  obtain ⟨-, -, each⟩ := compileAttributes_eq_ok.1 alone
  obtain ⟨e, isDefault, named, -⟩ := mem_of_forall₂ each.flip mem
  rw [named]
  exact AttributeLayer.mem_names_of_merged_empty isDefault

section Layers

variable {path : NodePath} {defaults product : AttributeLayer}
  {standard constraints : List AttributeConstraint}
  (compiled : compileAttributes path defaults product = .ok constraints)

include compiled

/-- A constraint of the defaults that the product leaves alone is one of the product. -/
theorem mem_of_untouched (alone : compileAttributes path defaults .empty = .ok standard)
    {c : AttributeConstraint} (mem : c ∈ standard) (untouched : c.name ∉ product.names) :
    c ∈ constraints := by
  obtain ⟨-, -, each⟩ := compileAttributes_eq_ok.1 compiled
  obtain ⟨-, -, eachAlone⟩ := compileAttributes_eq_ok.1 alone
  obtain ⟨e, isDefault, named, kind⟩ := mem_of_forall₂ eachAlone.flip mem
  have counts := AttributeLayer.mem_merged_of_untouched isDefault (named ▸ untouched)
  obtain ⟨c', isIn, named', kind'⟩ := mem_of_forall₂ each counts
  have same : c' = c := by
    cases c
    cases c'
    cases named.trans named'.symm
    cases kind.symm.trans kind'
    rfl
  exact same ▸ isIn

/-- Defaults that a product leaves alone compile without it. -/
theorem exists_of_untouched (untouched : ∀ name ∈ defaults.names, name ∉ product.names) :
    ∃ standard, compileAttributes path defaults .empty = .ok standard := by
  obtain ⟨known, -, each⟩ := compileAttributes_eq_ok.1 compiled
  have compiles : ∀ e ∈ AttributeLayer.merged defaults .empty, ∃ c : AttributeConstraint,
      c.name = e.1 ∧ ConstraintKind.compile e.2 = .ok c.kind := by
    intro e mem
    have left := untouched e.1 (AttributeLayer.mem_names_of_merged_empty mem)
    obtain ⟨c, -, made⟩ := mem_of_forall₂ each (AttributeLayer.mem_merged_of_untouched mem left)
    exact ⟨c, made⟩
  obtain ⟨standard, all⟩ := exists_forall₂ compiles
  exact ⟨standard, compileAttributes_eq_ok.2 ⟨known, rfl, all⟩⟩

end Layers

theorem Section.attributes_of_compile {s : Section} {defaults : Defaults} {layer : AttributeLayer}
    {scope : List String} {path : NodePath} {name : String} {info : NodeInfo} {g : Group}
    (h : s.compile defaults layer scope path name info = .ok g) :
    compileAttributes path layer s.attributes = .ok g.attributes := by
  obtain ⟨attributes, dimensions, vars, groups⟩ := s
  rw [Section.compile] at h
  obtain ⟨constraints, made, h⟩ := bind_eq_ok.1 h
  obtain ⟨_, -, h⟩ := bind_eq_ok.1 h
  obtain ⟨_, -, h⟩ := bind_eq_ok.1 h
  obtain ⟨_, -, h⟩ := bind_eq_ok.1 h
  cases h
  exact made

/-- A standard says nothing but what attributes the root has to have. -/
theorem Defaults.standard_eq_ok {defaults : Defaults} {name : String} {s : Dataset} :
    defaults.standard name = .ok s ↔
      ∃ constraints, compileAttributes NodePath.root defaults.globalAttributes .empty =
        .ok constraints ∧ s = ⟨name, .plain, constraints, [], [], []⟩ := by
  unfold standard Definition.compileNamed Definition.empty Section.empty
  rw [Section.compile]
  constructor
  · intro h
    obtain ⟨constraints, made, h⟩ := bind_eq_ok.1 h
    exact ⟨constraints, made, (Except.ok.inj h).symm⟩
  · rintro ⟨constraints, made, rfl⟩
    exact bind_eq_ok.2 ⟨constraints, made, rfl⟩

/-- If all that the checks find are errors, a file is compliant just if they find nothing. -/
theorem Report.isCompliant_iff_silent {entries : List Entry}
    (grave : ∀ d, Entry.finding d ∈ entries → d.severity = .error) :
    (Report.ofEntries entries).isCompliant = true ↔ Silent entries := by
  unfold isCompliant errors
  rw [List.isEmpty_iff, List.filter_eq_nil_iff]
  constructor
  · intro none d mem
    exact none d (mem_diagnostics.2 mem) (beq_iff_eq.2 (grave d mem))
  · intro silent d mem
    exact absurd (mem_diagnostics.1 mem) (silent d)

/-- By the standard policy whatever is wrong with an attribute is an error. -/
theorem AttributeConstraint.severity_of_mem_check {c : AttributeConstraint} {allowUnknown : Bool}
    {path : NodePath} {actual : NameMap AttributeValue} {d : Diagnostic}
    (h : .finding d ∈ c.check ⟨allowUnknown, .standard⟩ path actual) : d.severity = .error := by
  unfold check at h
  split at h
  · next value found =>
    rw [List.mem_singleton, checkValue] at h
    split at h <;> split at h <;> cases h <;> rfl
  · split at h
    · rw [List.mem_singleton] at h
      cases h
      rfl
    · cases h

/-- A file meets the standard of a project just if its own attributes do. -/
theorem Defaults.isCompliant_standard {defaults : Defaults} {name : String} {s : Dataset}
    (h : defaults.standard name = .ok s) (file : DataFile) :
    (s.validate ⟨true, .standard⟩ file).isCompliant = true ↔
      ∀ c ∈ s.attributes, c.Accepts (file.attributes.get? c.name) := by
  obtain ⟨constraints, -, rfl⟩ := standard_eq_ok.1 h
  have checks : Group.check ⟨true, .standard⟩ [] NodePath.root file
      ⟨name, .plain, constraints, [], [], []⟩ =
        constraints.flatMap fun c => c.check ⟨true, .standard⟩ NodePath.root file.attributes := by
    rw [Group.check_eq]
    simp [checkAttributes, ValidationOptions.unknown]
  rw [Group.validate, checks, Report.isCompliant_iff_silent, silent_flatMap]
  · exact forall₂_congr fun c _ => AttributeConstraint.silent_check
  · intro d mem
    obtain ⟨c, -, found⟩ := List.mem_flatMap.1 mem
    exact c.severity_of_mem_check found

/-- What is made up for a constraint satisfies it, a NaN apart. -/
theorem AttributeConstraint.meets_exampleValue {c : AttributeConstraint}
    (flat : ∀ l, c.kind = .literal l → l.IsFlat) (plain : c.holdsNaN = false) :
    c.meets c.exampleValue = true := by
  unfold meets exampleValue
  unfold holdsNaN at plain
  cases kind : c.kind with
  | literal l =>
    rw [kind] at plain
    dsimp only at plain ⊢
    rw [Literal.matches_toValue (flat l kind), plain]
    rfl
  | placeholder p => exact conformsTo_sample p

namespace Definition

variable {d : Definition} {defaults : Defaults} {name : String} {dataset : Dataset}
  {file : DataFile}

/-- The defaults of a project make a standard by themselves, and a file meets what that says about
the attributes that a definition sets or removes. -/
def RespectsStandard (d : Definition) (defaults : Defaults) (file : DataFile) : Prop :=
  ∃ name s, defaults.standard name = .ok s ∧
    ∀ c ∈ s.attributes, c.name ∈ d.body.attributes.names → c.Accepts (file.attributes.get? c.name)

/-- What a standard is called does not matter. -/
theorem respectsStandard_iff : d.RespectsStandard defaults file ↔
    ∃ standard ∈ (compileAttributes NodePath.root defaults.globalAttributes .empty).toOption,
      ∀ c ∈ standard, c.name ∈ d.body.attributes.names →
        c.Accepts (file.attributes.get? c.name) := by
  constructor
  · rintro ⟨name, s, alone, met⟩
    obtain ⟨standard, compiled, rfl⟩ := Defaults.standard_eq_ok.1 alone
    exact ⟨standard, toOption_eq_some.2 compiled, met⟩
  · rintro ⟨standard, compiled, met⟩
    exact ⟨"", _, Defaults.standard_eq_ok.2 ⟨standard, toOption_eq_some.1 compiled, rfl⟩, met⟩

instance (c : AttributeConstraint) : DecidablePred c.Accepts
  | none => inferInstanceAs (Decidable (c.isRequired = false))
  | some value => inferInstanceAs (Decidable (c.meets value = true))

instance : Decidable (d.RespectsStandard defaults file) :=
  decidable_of_iff _ respectsStandard_iff.symm

/-- The standard says the same as a definition about the defaults that this leaves alone. So only
the others matter to an example for the definition. -/
theorem respectsStandard_exampleFile_iff (compiled : d.compileNamed name defaults = .ok dataset)
    {unlimitedLength : Nat} (plain : ∀ c ∈ dataset.attributes, c.holdsNaN = false) (own : String) :
    d.RespectsStandard defaults (dataset.exampleFile unlimitedLength) ↔
      ∃ s, defaults.standard own = .ok s ∧
        (s.validate .standard (dataset.exampleFile unlimitedLength)).isCompliant = true := by
  constructor
  · rintro ⟨name, s, alone, met⟩
    obtain ⟨standard, compiledAlone, rfl⟩ := Defaults.standard_eq_ok.1 alone
    have named : defaults.standard own = .ok ⟨own, .plain, standard, [], [], []⟩ :=
      Defaults.standard_eq_ok.2 ⟨standard, compiledAlone, rfl⟩
    refine ⟨_, named, (Defaults.isCompliant_standard named _).2 fun c mem => ?_⟩
    by_cases isTouched : c.name ∈ d.body.attributes.names
    · exact met c mem isTouched
    · have isIn : c ∈ dataset.attributes :=
        mem_of_untouched (Section.attributes_of_compile compiled) compiledAlone mem isTouched
      have block := (Section.of_compile d.body compiled).2.2.attributes
      have found : (dataset.exampleFile unlimitedLength).attributes.get? c.name =
          some c.exampleValue := by
        rw [Group.exampleFile_eq]
        exact get?_exampleAttributes isIn block.names.distinct
      rw [found]
      exact c.meets_exampleValue (block.flat c isIn) (plain c isIn)
  · rintro ⟨s, alone, met⟩
    exact ⟨own, s, alone, fun c mem _ => (Defaults.isCompliant_standard alone _).1 met c mem⟩

/-- A definition that leaves the defaults alone respects them. -/
theorem respectsStandard_of_untouched (compiled : d.compileNamed name defaults = .ok dataset)
    (untouched : ∀ name ∈ defaults.globalAttributes.names, name ∉ d.body.attributes.names)
    (file : DataFile) : d.RespectsStandard defaults file := by
  obtain ⟨standard, alone⟩ :=
    exists_of_untouched (Section.attributes_of_compile compiled) untouched
  refine ⟨"", _, Defaults.standard_eq_ok.2 ⟨standard, alone, rfl⟩, fun c mem isTouched => ?_⟩
  exact absurd isTouched (untouched c.name (mem_names_of_compileAttributes alone mem))

end Definition

end ProductSpec
