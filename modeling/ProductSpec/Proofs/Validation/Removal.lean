/-
  Removing a required attribute from a file. The attribute is missed at the place where it was
  checked before, and nothing else changes: not a check of another part, not its wording, and not
  the order of the checks, whatever else is wrong with the file.
-/
import ProductSpec.Proofs.Definition.Shape
import ProductSpec.Proofs.NameMap
import ProductSpec.Proofs.Names
import ProductSpec.Proofs.Report.Entries
import ProductSpec.Proofs.Validation.Places

namespace ProductSpec

def FileVariable.withoutAttribute (name : String) (v : FileVariable) : FileVariable :=
  { v with attributes := v.attributes.erase name }

theorem FileVariable.name_withoutAttribute (name : String) (v : FileVariable) :
    (v.withoutAttribute name).name = v.name := rfl

/-- A group without the attribute at a path that begins in the group. Of the parts with one name
the first is meant. -/
def FileGroup.withoutAttribute : NodePath → FileGroup → FileGroup
  | ["attributes", name], g => { g with attributes := g.attributes.erase name }
  | ["variables", v, "attributes", name], g =>
    { g with vars := changeNamed FileVariable.name v (FileVariable.withoutAttribute name) g.vars }
  | "groups" :: h :: rest, g =>
    { g with groups := changeNamed FileGroup.name h (withoutAttribute rest) g.groups }
  | _, g => g

theorem FileGroup.name_withoutAttribute (path : NodePath) (g : FileGroup) :
    (g.withoutAttribute path).name = g.name := by
  unfold withoutAttribute
  split <;> rfl

/-- A block of attributes that the checks of a group reach, with its path from the group and what
the file has there: the block of the group itself, of a variable that the file has, or one inside a
group that it has. -/
inductive BlockAt : Group → FileGroup → NodePath → List AttributeConstraint →
    NameMap AttributeValue → Prop
  | own {g : Group} {file : FileGroup} : BlockAt g file [] g.attributes file.attributes
  | var {g : Group} {file : FileGroup} {v : Variable} {stored : FileVariable} :
      v ∈ g.vars → file.variableNamed? v.name = some stored →
      BlockAt g file ["variables", v.name] v.attributes stored.attributes
  | inside {g child : Group} {file inner : FileGroup} {path : NodePath}
      {constraints : List AttributeConstraint} {stored : NameMap AttributeValue} :
      child ∈ g.groups → file.groupNamed? child.name = some inner →
      BlockAt child inner path constraints stored →
      BlockAt g file ("groups" :: child.name :: path) constraints stored

/-- The single outcome at the place of a new one is replaced by it, and all others are as before. -/
def ReplacedBy (new : Entry) (entries entries' : List Entry) : Prop :=
  ∃ before old after, entries = before ++ old :: after ∧ entries' = before ++ new :: after ∧
    old.path = new.path ∧ ∀ e ∈ before ++ after, e.path ≠ new.path

namespace ReplacedBy

variable {new : Entry} {entries entries' others : List Entry}

theorem append_left (h : ReplacedBy new entries entries')
    (apart : ∀ e ∈ others, e.path ≠ new.path) :
    ReplacedBy new (others ++ entries) (others ++ entries') := by
  obtain ⟨before, old, after, rfl, rfl, here, single⟩ := h
  refine ⟨others ++ before, old, after, ?_, ?_, here, ?_⟩
  · rw [List.append_assoc]
  · rw [List.append_assoc]
  · rw [List.append_assoc]
    exact List.forall_mem_append.2 ⟨apart, single⟩

theorem cons (h : ReplacedBy new entries entries') {e : Entry} (apart : e.path ≠ new.path) :
    ReplacedBy new (e :: entries) (e :: entries') :=
  h.append_left (List.forall_mem_singleton.2 apart)

theorem append_right (h : ReplacedBy new entries entries')
    (apart : ∀ e ∈ others, e.path ≠ new.path) :
    ReplacedBy new (entries ++ others) (entries' ++ others) := by
  obtain ⟨before, old, after, rfl, rfl, here, single⟩ := h
  refine ⟨before, old, after ++ others, ?_, ?_, here, ?_⟩
  · rw [List.append_assoc, List.cons_append]
  · rw [List.append_assoc, List.cons_append]
  · rw [← List.append_assoc]
    exact List.forall_mem_append.2 ⟨single, apart⟩

/-- Of items with different names the checks of one change at the place, and those of the others
neither change nor are there. -/
theorem flatMap {α : Type} {name : α → String} {items : List α} {checks checks' : α → List Entry}
    {x : α} (distinct : (items.map name).Nodup) (mem : x ∈ items)
    (changed : ReplacedBy new (checks x) (checks' x))
    (same : ∀ y ∈ items, name y ≠ name x → checks' y = checks y)
    (apart : ∀ y ∈ items, name y ≠ name x → ∀ e ∈ checks y, e.path ≠ new.path) :
    ReplacedBy new (items.flatMap checks) (items.flatMap checks') := by
  induction items with
  | nil => cases mem
  | cons first rest ih =>
    obtain ⟨fresh, distinct⟩ := List.nodup_cons.1 distinct
    rw [List.forall_mem_cons] at same apart
    rw [List.flatMap_cons, List.flatMap_cons]
    rcases List.mem_cons.1 mem with rfl | mem
    · have unlike : ∀ y ∈ rest, name y ≠ name x := fun y isIn named =>
        fresh (named ▸ List.mem_map_of_mem isIn)
      rw [List.flatMap_congr fun y isIn => same.2 y isIn (unlike y isIn)]
      apply changed.append_right
      intro e isIn
      obtain ⟨y, isItem, isIn⟩ := List.mem_flatMap.1 isIn
      exact apart.2 y isItem (unlike y isItem) e isIn
    · have unlike : name first ≠ name x := fun named => fresh (named ▸ List.mem_map_of_mem mem)
      rw [same.1 unlike]
      exact (ih distinct mem same.2 apart.2).append_left (apart.1 unlike)

end ReplacedBy

/-- What is found where a block has no attribute that it should have. -/
def ValidationOptions.missingAttribute (o : ValidationOptions) (block : NodePath)
    (c : AttributeConstraint) : Entry :=
  o.finding .missing (block.child "attributes" c.name) "field required" c.describe

theorem path_missingAttribute (o : ValidationOptions) (block : NodePath) (c : AttributeConstraint) :
    (o.missingAttribute block c).path = block.child "attributes" c.name := rfl

section Checks

variable (o : ValidationOptions) (scope : Scope) (path : NodePath) {c : AttributeConstraint}

theorem AttributeConstraint.replaced_check {actual : NameMap AttributeValue}
    (required : c.isRequired = true) (present : c.name ∈ actual.names) :
    ReplacedBy (o.missingAttribute path c) (c.check o path actual)
      (c.check o path (actual.erase c.name)) := by
  obtain ⟨value, found⟩ := NameMap.exists_get? present
  have before : c.check o path actual =
      [c.checkValue o (path.child "attributes" c.name) value] := by
    rw [check, found]
  have after : c.check o path (actual.erase c.name) = [o.missingAttribute path c] := by
    rw [check, NameMap.get?_erase, if_pos rfl]
    exact if_pos required
  have here := path_of_mem_check (before ▸ List.mem_singleton_self _)
  exact ⟨[], _, [], before, after, here, nofun⟩

/-- Erasing a declared name leaves the unknown names as they are. -/
theorem unknown_erase {actual : NameMap AttributeValue} {name : String} (kind : String)
    {declared : List String} (known : name ∈ declared) :
    o.unknown path kind (actual.erase name).names declared =
      o.unknown path kind actual.names declared := by
  unfold ValidationOptions.unknown
  rw [NameMap.names_erase, List.filter_filter]
  congr 2
  apply List.filter_congr
  intro other _
  by_cases same : other = name
  · simp [same, known]
  · simp [same]

theorem replaced_checkAttributes {constraints : List AttributeConstraint}
    {actual : NameMap AttributeValue} (block : AttributeBlock constraints) (mem : c ∈ constraints)
    (required : c.isRequired = true) (present : c.name ∈ actual.names) :
    ReplacedBy (o.missingAttribute path c) (checkAttributes o path constraints actual)
      (checkAttributes o path constraints (actual.erase c.name)) := by
  unfold checkAttributes
  rw [unknown_erase o path "attributes" (List.mem_map_of_mem mem)]
  have changed := c.replaced_check o path required present
  refine .append_right (.flatMap block.names.distinct mem changed ?_ ?_) ?_
  · intro c' _ unlike
    rw [AttributeConstraint.check, NameMap.get?_erase, if_neg unlike]
    rfl
  · intro c' _ unlike e isIn here
    rw [AttributeConstraint.path_of_mem_check isIn] at here
    exact unlike (NodePath.child_inj.1 here).2
  · exact unknown_apart (List.mem_map_of_mem mem) List.prefix_rfl

namespace Variable

variable {v : Variable} {file : FileGroup}

theorem check_withoutAttribute_of_ne {other label : String} (unlike : v.name ≠ other) :
    v.check o scope path (file.withoutAttribute ["variables", other, "attributes", label]) =
      v.check o scope path file := by
  have same : (file.withoutAttribute ["variables", other, "attributes", label]).variableNamed?
      v.name = file.variableNamed? v.name :=
    find?_changeNamed_of_ne (FileVariable.name_withoutAttribute label) unlike file.vars
  unfold check
  rw [same]

theorem replaced_check {stored : FileVariable} (block : AttributeBlock v.attributes)
    (found : file.variableNamed? v.name = some stored) (mem : c ∈ v.attributes)
    (required : c.isRequired = true) (present : c.name ∈ stored.attributes.names) :
    ReplacedBy (o.missingAttribute (path.child "variables" v.name) c) (v.check o scope path file)
      (v.check o scope path
        (file.withoutAttribute ["variables", v.name, "attributes", c.name])) := by
  have changed : (file.withoutAttribute
      ["variables", v.name, "attributes", c.name]).variableNamed? v.name =
        (file.variableNamed? v.name).map (FileVariable.withoutAttribute c.name) :=
    find?_changeNamed (FileVariable.name_withoutAttribute c.name) file.vars
  rw [found] at changed
  unfold check
  rw [found, changed]
  have attributes := replaced_checkAttributes o (path.child "variables" v.name) block mem
    required present
  apply attributes.append_left
  intro e isIn here
  have below : (path.child "variables" v.name).child "attributes" c.name <+: e.path :=
    here ▸ List.prefix_rfl
  have own := isOwnPlace_of_mem_checkSelf isIn
  rw [not_isOwnPlace below] at own
  cases own

end Variable

namespace Group

variable {g : Group} {file : FileGroup}

theorem replaced_check_own (block : AttributeBlock g.attributes) (mem : c ∈ g.attributes)
    (required : c.isRequired = true) (present : c.name ∈ file.attributes.names) :
    ReplacedBy (o.missingAttribute path c) (g.check o scope path file)
      (g.check o scope path (file.withoutAttribute ["attributes", c.name])) := by
  have apart : ∀ {kind entries}, kind ≠ "attributes" → OfKind path kind entries →
      ∀ e ∈ entries, e.path ≠ path.child "attributes" c.name :=
    fun unlike h => h.apart unlike List.prefix_rfl
  rw [check_eq, check_eq]
  have attributes := replaced_checkAttributes o path block mem required present
  refine .append_right (.append_right (.append_right (.append_right (.append_right (.append_right
    attributes ?_) ?_) ?_) ?_) ?_) ?_
  · exact apart (by decide) (ofKind_dimensions o path file g)
  · exact apart (by decide) (ofKind_unknown o path _ _ _)
  · exact apart (by decide) (ofKind_vars o _ path file g)
  · exact apart (by decide) (ofKind_unknown o path _ _ _)
  · exact apart (by decide) (ofKind_groups o _ path file g)
  · exact apart (by decide) (ofKind_unknown o path _ _ _)

theorem replaced_check_var {outer : List String} (wf : g.WellFormed outer) {v : Variable}
    (isVar : v ∈ g.vars) {stored : FileVariable}
    (found : file.variableNamed? v.name = some stored) (mem : c ∈ v.attributes)
    (required : c.isRequired = true) (present : c.name ∈ stored.attributes.names) :
    ReplacedBy (o.missingAttribute (path.child "variables" v.name) c) (g.check o scope path file)
      (g.check o scope path
        (file.withoutAttribute ["variables", v.name, "attributes", c.name])) := by
  have below := NodePath.prefix_child (path.child "variables" v.name) "attributes" c.name
  have apart : ∀ {kind entries}, kind ≠ "variables" → OfKind path kind entries →
      ∀ e ∈ entries, e.path ≠ (path.child "variables" v.name).child "attributes" c.name :=
    fun unlike h => h.apart unlike below
  have names : (file.withoutAttribute ["variables", v.name, "attributes", c.name]).vars.map
      FileVariable.name = file.vars.map FileVariable.name :=
    map_name_changeNamed (FileVariable.name_withoutAttribute c.name) file.vars
  rw [check_eq, check_eq, names]
  have changed := v.replaced_check o (g.level file :: scope) path (wf.blocks isVar) found mem
    required present
  refine .append_right (.append_right (.append_right (.append_left
    (.flatMap wf.vars.distinct isVar changed ?_ ?_) ?_) ?_) ?_) ?_
  · exact fun other _ unlike => other.check_withoutAttribute_of_ne o _ path unlike
  · intro other _ unlike e isIn here
    have there := Variable.prefix_of_mem_check isIn
    rw [here] at there
    exact unlike (NodePath.child_unique there below).2
  · refine List.forall_mem_append.2 ⟨List.forall_mem_append.2 ⟨?_, ?_⟩, ?_⟩
    · exact apart (by decide) (ofKind_checkAttributes o path _ _)
    · exact apart (by decide) (ofKind_dimensions o path file g)
    · exact apart (by decide) (ofKind_unknown o path _ _ _)
  · exact unknown_apart (List.mem_map_of_mem isVar) below
  · exact apart (by decide) (ofKind_groups o _ path file g)
  · exact apart (by decide) (ofKind_unknown o path _ _ _)

theorem checkInner_withoutAttribute_of_ne {other : String} {rest : NodePath}
    (unlike : g.name ≠ other) :
    g.checkInner o scope path (file.withoutAttribute ("groups" :: other :: rest)) =
      g.checkInner o scope path file := by
  have same : (file.withoutAttribute ("groups" :: other :: rest)).groupNamed? g.name =
      file.groupNamed? g.name :=
    find?_changeNamed_of_ne (FileGroup.name_withoutAttribute rest) unlike file.groups
  unfold checkInner
  rw [same]

theorem replaced_checkInner {inner : FileGroup} (found : file.groupNamed? g.name = some inner)
    {rest rel : NodePath}
    (replaced : ReplacedBy (o.missingAttribute (path.child "groups" g.name ++ rel) c)
      (g.check o scope (path.child "groups" g.name) inner)
      (g.check o scope (path.child "groups" g.name) (inner.withoutAttribute rest))) :
    ReplacedBy (o.missingAttribute (path.child "groups" g.name ++ rel) c)
      (g.checkInner o scope path file)
      (g.checkInner o scope path (file.withoutAttribute ("groups" :: g.name :: rest))) := by
  have changed : (file.withoutAttribute ("groups" :: g.name :: rest)).groupNamed? g.name =
      (file.groupNamed? g.name).map (FileGroup.withoutAttribute rest) :=
    find?_changeNamed (FileGroup.name_withoutAttribute _) file.groups
  rw [found] at changed
  unfold checkInner
  rw [found, changed]
  refine replaced.cons ?_
  intro same
  have lengths := congrArg List.length same
  rw [path_missingAttribute] at lengths
  simp [Entry.path, NodePath.child] at lengths

/-- A required attribute that is removed from a block is missed there, and no other outcome of the
group changes. -/
theorem replaced_check {rel : NodePath} {constraints : List AttributeConstraint}
    {stored : NameMap AttributeValue} (block : BlockAt g file rel constraints stored)
    {outer : List String} (wf : g.WellFormed outer) (mem : c ∈ constraints)
    (required : c.isRequired = true) (present : c.name ∈ stored.names) :
    ReplacedBy (o.missingAttribute (path ++ rel) c) (g.check o scope path file)
      (g.check o scope path (file.withoutAttribute (rel.child "attributes" c.name))) := by
  -- Along the groups to the block the path grows as the scope does, so both are general.
  induction block generalizing scope path outer with
  | own =>
    rw [List.append_nil]
    exact replaced_check_own o scope path wf.attributes mem required present
  | var isVar found => exact replaced_check_var o scope path wf isVar found mem required present
  | @inside g child file inner rel _ _ isChild found block ih =>
    have here : path ++ "groups" :: child.name :: rel = path.child "groups" child.name ++ rel :=
      (List.append_assoc path ["groups", child.name] rel).symm
    rw [here]
    have below : path.child "groups" child.name <+:
        (path.child "groups" child.name ++ rel).child "attributes" c.name :=
      (List.prefix_append _ rel).trans (NodePath.prefix_child ..)
    have changed := replaced_checkInner o (g.level file :: scope) path found
      (ih _ _ (wf.inner isChild) mem present)
    have names : (file.withoutAttribute
        ("groups" :: child.name :: rel.child "attributes" c.name)).groups.map FileGroup.name =
          file.groups.map FileGroup.name :=
      map_name_changeNamed (FileGroup.name_withoutAttribute _) file.groups
    rw [check_eq_own, check_eq_own, show NodePath.child ("groups" :: child.name :: rel) _ _ =
      "groups" :: child.name :: rel.child "attributes" c.name from rfl, names]
    -- What is checked before and after the group is at paths that do not lead into it.
    refine .append_right (.append_left (.flatMap wf.groups.distinct isChild changed ?_ ?_) ?_) ?_
    · exact fun other _ unlike => other.checkInner_withoutAttribute_of_ne o _ path unlike
    · intro other _ unlike e isIn here
      have there := prefix_of_mem_checkInner isIn
      rw [here] at there
      exact unlike (NodePath.child_unique there below).2
    · intro e isIn here
      obtain ⟨kind, name, unlike, there⟩ := kind_of_mem_checkOwn isIn
      rw [here] at there
      exact unlike (NodePath.child_unique there below).1
    · exact unknown_apart (List.mem_map_of_mem isChild) below

end Group

end Checks

namespace Definition

/-- Without a required attribute of a block that is reached, a file has the report that it had
before, but for the attribute: in the place of what was told about it, it is missed. -/
theorem validate_withoutAttribute (definition : Definition) (name : String) (defaults : Defaults)
    {d : Dataset} (compiled : definition.compileNamed name defaults = .ok d)
    (o : ValidationOptions) (file : DataFile) {place : NodePath}
    {constraints : List AttributeConstraint} {stored : NameMap AttributeValue}
    (block : BlockAt d file place constraints stored) {c : AttributeConstraint}
    (mem : c ∈ constraints) (required : c.isRequired = true) (present : c.name ∈ stored.names) :
    ReplacedBy (o.missingAttribute (NodePath.root ++ place) c) (d.validate o file).entries
      (d.validate o (file.withoutAttribute (place.child "attributes" c.name))).entries := by
  have wf : d.WellFormed [] := (Section.of_compile definition.body compiled).2.2
  unfold Group.validate
  rw [Report.entries_ofEntries, Report.entries_ofEntries]
  exact d.replaced_check o [] NodePath.root block wf mem required present

/-- A variable in a group is measured in a fixed unit. -/
def measured : Definition where
  shortName := none
  filePattern := none
  description := none
  canonicalName := none
  body :=
    ⟨.empty, [], [], [(⟨"profile", true, none⟩, ⟨.empty, [],
      [⟨"wind", "float32", true, none, [], ⟨[(.text "units", .text "m/s")], by decide⟩⟩], []⟩)]⟩

/-- A file for `measured` with another type, another unit and an attribute that is not declared. -/
def otherUnits : DataFile :=
  ⟨"other", ∅, [], [], [⟨"profile", .ofList [("source", .scalar (.str "model"))], [],
    [⟨"wind", .int8, [], .ofList [("units", .scalar (.str "knots"))]⟩], []⟩]⟩

/-- The unit of the variable is one of the required attributes that are reached. -/
theorem blockAt_otherUnits : ∃ d constraints stored c, ∃ place : NodePath,
    measured.compileNamed "sounding" .empty = .ok d ∧
      BlockAt d otherUnits place constraints stored ∧ c ∈ constraints ∧ c.isRequired = true ∧
      c.name ∈ stored.names ∧
      place.child "attributes" c.name =
        ["groups", "profile", "variables", "wind", "attributes", "units"] :=
  ⟨_, _, _, _, _, rfl, .inside List.mem_cons_self rfl (.var List.mem_cons_self rfl),
    List.mem_cons_self, rfl, by decide, rfl⟩

theorem validate_withoutAttribute_otherUnits : ∃ d c, ∃ place : NodePath,
    measured.compileNamed "sounding" .empty = .ok d ∧ place.child "attributes" c.name =
        ["groups", "profile", "variables", "wind", "attributes", "units"] ∧
      ReplacedBy (ValidationOptions.missingAttribute ⟨false, .standard⟩ (NodePath.root ++ place) c)
        (d.validate ⟨false, .standard⟩ otherUnits).entries
        (d.validate ⟨false, .standard⟩
          (otherUnits.withoutAttribute (place.child "attributes" c.name))).entries := by
  obtain ⟨d, _, _, c, place, compiled, block, mem, required, present, here⟩ := blockAt_otherUnits
  exact ⟨d, c, place, compiled, here,
    validate_withoutAttribute measured "sounding" .empty compiled _ otherUnits block mem required
      present⟩

end Definition

end ProductSpec
