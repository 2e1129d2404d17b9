/-
  Everything that is wrong with a definition, as one list. Compilation succeeds if and only if the
  list is empty, and otherwise its error is the first violation of the list.
-/
import ProductSpec.Definition.Compile
import ProductSpec.Proofs.Definition.Merge
import ProductSpec.Proofs.Outcome

namespace ProductSpec

open Yaml

namespace DefinitionFault

/-- What is wrong with an item of a list. -/
def ofItem? : Value → Option DefinitionFault
  | .text s => if Placeholder.isShaped s then some (.placeholderInList s) else none
  | .int _ | .float _ => none
  | .bool _ => some .booleanValue
  | .sequence _ => some .nestedList
  | .null | .mapping _ | .tagged .. => some .unsupportedValue

def isText : Value → Bool
  | .text _ => true
  | _ => false

def isNumber : Value → Bool
  | .int _ | .float _ => true
  | _ => false

/-- What is wrong with the value of an attribute. -/
def ofValue? : Value → Option DefinitionFault
  | .text s =>
    if Placeholder.isShaped s then
      match Placeholder.parse s with
      | .ok _ => none
      | .error reason => some (.malformedPlaceholder s reason)
    else none
  | .int _ | .float _ => none
  | .bool _ => some .booleanValue
  | .sequence items =>
    match items.filterMap ofItem? with
    | fault :: _ => some fault
    | [] => if items.any isText && items.any isNumber then some .mixedList else none
  | .null | .mapping _ | .tagged .. => some .unsupportedValue

end DefinitionFault

/-- The violations of a block of attributes: the keys that are no names, then the values. -/
def attributeViolations (path : NodePath) (defaults product : AttributeLayer) : List Violation :=
  ((defaults.strangeKeys ++ product.strangeKeys).map fun k =>
    ⟨path ++ ["attributes"], .attributeName k⟩) ++
  (AttributeLayer.merged defaults product).flatMap fun e =>
    ((DefinitionFault.ofValue? e.2).map fun fault =>
      (⟨path ++ ["attributes", e.1], fault⟩ : Violation)).toList

/-- The violations of the name of a child that comes after others of its kind. -/
def nameViolations (path : NodePath) (kind : String) (earlier : List String) (name : String) :
    List Violation :=
  if name = "" then [⟨path ++ [kind], .emptyName⟩]
  else if name ∈ earlier then [⟨path.child kind name, .duplicateName name⟩]
  else []

def DimensionEntry.violations (path : NodePath) :
    (earlier : List String) → List DimensionEntry → List Violation
  | _, [] => []
  | earlier, d :: rest =>
    nameViolations path "dimensions" earlier d.name ++ violations path (d.name :: earlier) rest

namespace VariableEntry

/-- The violations of a variable at its own path, its name apart. -/
def violations (defaults : Defaults) (scope : List String) (path : NodePath) (v : VariableEntry) :
    List Violation :=
  (match BaseType.parse v.dataType with
    | .ok _ => []
    | .error reason => [⟨path, .dataType reason⟩]) ++
  (v.dimensions.filter (· ∉ scope)).map (fun d =>
    ⟨path.child "dimensions" d, .undeclaredDimension d⟩) ++
  attributeViolations path defaults.variableAttributes v.attributes

def violationsAll (defaults : Defaults) (scope : List String) (path : NodePath) :
    (earlier : List String) → List VariableEntry → List Violation
  | _, [] => []
  | earlier, v :: rest =>
    nameViolations path "variables" earlier v.name ++
      v.violations defaults scope (path.child "variables" v.name) ++
      violationsAll defaults scope path (v.name :: earlier) rest

end VariableEntry

namespace Section

mutual

/-- The violations of the root or of a group; `scope` holds the dimensions declared around it. -/
def violations (defaults : Defaults) (layer : AttributeLayer) (scope : List String)
    (path : NodePath) : Section → List Violation
  | ⟨attributes, dimensions, vars, groups⟩ =>
    let scope := dimensions.map DimensionEntry.name ++ scope
    attributeViolations path layer attributes ++ DimensionEntry.violations path [] dimensions ++
      VariableEntry.violationsAll defaults scope path [] vars ++
      violationsOfGroups defaults scope path [] groups

def violationsOfGroups (defaults : Defaults) (scope : List String) (path : NodePath)
    (earlier : List String) : List (GroupHeading × Section) → List Violation
  | [] => []
  | (h, contents) :: rest =>
    nameViolations path "groups" earlier h.name ++
      violations defaults defaults.groupAttributes scope (path.child "groups" h.name) contents ++
      violationsOfGroups defaults scope path (h.name :: earlier) rest

end

end Section

/-- The violations of a definition over the defaults of a project. -/
def Definition.violations (d : Definition) (defaults : Defaults) : List Violation :=
  d.body.violations defaults defaults.globalAttributes [] NodePath.root

theorem Reports.located {α : Type} {c : Except DefinitionFault α}
    {fault? : Option DefinitionFault} (path : NodePath) (h : Reports c fault?.toList) :
    Reports (Compiled.at path c) (fault?.map fun fault => (⟨path, fault⟩ : Violation)).toList := by
  cases c with
  | ok x =>
    have empty : fault?.toList = [] := h
    rw [Option.toList_eq_nil_iff.1 empty]
    rfl
  | error e =>
    cases fault? with
    | none => cases h
    | some fault =>
      obtain rfl : fault = e := by simpa [Reports] using h
      rfl

namespace ConstraintKind

theorem reports_compileItem (v : Value) :
    Reports (compileItem v) (DefinitionFault.ofItem? v).toList := by
  cases v with
  | text s =>
    by_cases shaped : Placeholder.isShaped s <;>
      simp [Reports, compileItem, DefinitionFault.ofItem?, shaped]
  | _ => rfl

/-- An item that compiles is a text or a number, and so is its literal. -/
theorem isText_of_compileItem {v : Value} {l : Literal} (h : compileItem v = .ok l) :
    DefinitionFault.isText v = l.isText ∧ DefinitionFault.isNumber v = !l.isText := by
  cases v with
  | text s =>
    by_cases shaped : Placeholder.isShaped s
    · simp [compileItem, shaped] at h
    · rw [compileItem, if_neg shaped] at h
      cases h
      exact ⟨rfl, rfl⟩
  | int n =>
    have made := Except.ok.inj h
    rw [← made]
    split <;> exact ⟨rfl, rfl⟩
  | float x =>
    cases h
    exact ⟨rfl, rfl⟩
  | _ => cases h

/-- A list mixes texts and numbers in the definition if and only if its literals do. -/
theorem mixed_iff {items : List Value} {literals : List Literal}
    (h : List.Forall₂ (fun v l => compileItem v = .ok l) items literals) :
    items.any DefinitionFault.isText = literals.any Literal.isText ∧
      items.any DefinitionFault.isNumber = !literals.all Literal.isText := by
  induction h with
  | nil => exact ⟨rfl, rfl⟩
  | cons first _ ih =>
    obtain ⟨text, number⟩ := isText_of_compileItem first
    simp only [List.any_cons, List.all_cons, text, number, ih.1, ih.2, Bool.not_and, and_self]

theorem reports_compileList (items : List Value) :
    Reports (compileList items) (DefinitionFault.ofValue? (.sequence items)).toList := by
  have each := Reports.mapM reports_compileItem items
  have faults : items.flatMap (fun v => (DefinitionFault.ofItem? v).toList) =
      items.filterMap DefinitionFault.ofItem? := by
    induction items with
    | nil => rfl
    | cons v rest ih =>
      rw [List.flatMap_cons, List.filterMap_cons, ih (Reports.mapM reports_compileItem rest)]
      cases DefinitionFault.ofItem? v <;> rfl
  rw [faults] at each
  simp only [compileList, DefinitionFault.ofValue?]
  -- Texts and numbers are told apart only after all items have compiled.
  cases compiled : items.mapM compileItem with
  | error e =>
    rw [compiled] at each
    cases found : items.filterMap DefinitionFault.ofItem? with
    | nil => simp [Reports, found] at each
    | cons fault others =>
      rw [found] at each
      exact each
  | ok literals =>
    rw [compiled] at each
    have none : items.filterMap DefinitionFault.ofItem? = [] := each
    obtain ⟨texts, numbers⟩ := mixed_iff (mapM_eq_ok.1 compiled)
    simp only [none, texts, numbers]
    change Reports (if _ then _ else _) _
    split <;> rfl

theorem reports_compile (v : Value) :
    Reports (compile v) (DefinitionFault.ofValue? v).toList := by
  cases v with
  | text s =>
    by_cases shaped : Placeholder.isShaped s
    · simp only [compile, DefinitionFault.ofValue?, shaped, if_true]
      cases Placeholder.parse s <;> rfl
    · simp only [compile, DefinitionFault.ofValue?, if_neg shaped]
      rfl
  | sequence items => exact (reports_compileList items).map literal
  | _ => rfl

end ConstraintKind

theorem reports_compileAttributes (path : NodePath) (defaults product : AttributeLayer) :
    Reports (compileAttributes path defaults product)
      (attributeViolations path defaults product) := by
  refine Reports.bind (c := AttributeLayer.merge path defaults product) ?_ fun merged found => ?_
  · rw [AttributeLayer.merge_eq]
    cases defaults.strangeKeys ++ product.strangeKeys <;> rfl
  · rw [AttributeLayer.merge_eq] at found
    split at found
    · cases found
      refine Reports.mapM (fun e => ?_) _
      have value := Reports.located (path ++ ["attributes", e.1])
        (ConstraintKind.reports_compile e.2)
      exact value.bind_pure _
    · cases found

theorem reports_checkName (path : NodePath) (kind : String) (earlier : List String)
    (name : String) :
    Reports (checkName path kind earlier name) (nameViolations path kind earlier name) := by
  unfold checkName nameViolations
  split
  · rfl
  · split <;> rfl

namespace DimensionEntry

theorem reports_compileAll (path : NodePath) (earlier : List String) (ds : List DimensionEntry) :
    Reports (compileAll path earlier ds) (violations path earlier ds) := by
  induction ds generalizing earlier with
  | nil => rfl
  | cons d rest ih =>
    exact (reports_checkName ..).bind fun _ _ => (ih (d.name :: earlier)).bind_pure _

/-- Compiled dimensions are those of the definition, one by one. -/
theorem eq_of_compileAll {path : NodePath} {earlier : List String} {ds : List DimensionEntry}
    {compiled : List Dimension} (h : compileAll path earlier ds = .ok compiled) :
    compiled = ds.map compile := by
  induction ds generalizing earlier compiled with
  | nil =>
    cases h
    rfl
  | cons d rest ih =>
    obtain ⟨_, -, h⟩ := bind_eq_ok.1 h
    obtain ⟨others, found, made⟩ := bind_eq_ok.1 h
    rw [← Except.ok.inj made, ih found, List.map_cons]

end DimensionEntry

namespace VariableEntry

theorem reports_compile (defaults : Defaults) (scope : List String) (path : NodePath)
    (v : VariableEntry) :
    Reports (v.compile defaults scope path) (v.violations defaults scope path) := by
  unfold compile violations
  rw [List.append_assoc]
  cases BaseType.parse v.dataType with
  | error reason => rfl
  | ok t =>
    -- The compiler stops at the first undeclared dimension, which is the head of all of them.
    dsimp only
    have head : (v.dimensions.filter (· ∉ scope)).head? = v.dimensions.find? (· ∉ scope) :=
      List.head?_filter
    cases found : v.dimensions.find? (· ∉ scope) with
    | some d =>
      rw [found] at head
      obtain ⟨others, undeclared⟩ := List.head?_eq_some_iff.1 head
      rw [undeclared]
      rfl
    | none =>
      rw [found, List.head?_eq_none_iff] at head
      rw [head]
      exact (reports_compileAttributes path defaults.variableAttributes v.attributes).bind_pure _

theorem reports_compileAll (defaults : Defaults) (scope : List String) (path : NodePath)
    (earlier : List String) (vs : List VariableEntry) :
    Reports (compileAll defaults scope path earlier vs)
      (violationsAll defaults scope path earlier vs) := by
  induction vs generalizing earlier with
  | nil => rfl
  | cons v rest ih =>
    rw [violationsAll, List.append_assoc]
    refine (reports_checkName ..).bind fun _ _ => (reports_compile ..).bind fun w _ => ?_
    exact (ih (v.name :: earlier)).bind_pure _

end VariableEntry

namespace Section

mutual

theorem reports_compile (defaults : Defaults) (layer : AttributeLayer) (scope : List String)
    (path : NodePath) (name : String) (info : NodeInfo) :
    (s : Section) → Reports (s.compile defaults layer scope path name info)
      (s.violations defaults layer scope path)
  | ⟨attributes, dimensions, vars, groups⟩ => by
    rw [compile, violations, List.append_assoc, List.append_assoc]
    refine (reports_compileAttributes path layer attributes).bind fun attributes _ => ?_
    refine (DimensionEntry.reports_compileAll path [] dimensions).bind fun compiled found => ?_
    -- The compiler takes the scope from compiled dimensions, the violations take it from entries.
    have names : compiled.map Dimension.name = dimensions.map DimensionEntry.name := by
      rw [DimensionEntry.eq_of_compileAll found, List.map_map]
      rfl
    rw [names]
    refine (VariableEntry.reports_compileAll ..).bind fun vars _ => ?_
    exact (reports_compileGroups defaults _ path [] groups).bind_pure _

theorem reports_compileGroups (defaults : Defaults) (scope : List String) (path : NodePath)
    (earlier : List String) :
    (groups : List (GroupHeading × Section)) →
      Reports (compileGroups defaults scope path earlier groups)
        (violationsOfGroups defaults scope path earlier groups)
  | [] => rfl
  | (h, contents) :: rest => by
    rw [compileGroups, violationsOfGroups, List.append_assoc]
    refine (reports_checkName ..).bind fun _ _ => ?_
    refine (reports_compile defaults defaults.groupAttributes scope _ _ _ contents).bind
      fun group _ => ?_
    exact (reports_compileGroups defaults scope path (h.name :: earlier) rest).bind_pure _

end

end Section

/-- A definition compiles if and only if it has no violation; otherwise the first one is the
error. -/
theorem Definition.compileNamed_reports_first_violation (name : String) (d : Definition)
    (defaults : Defaults) :
    ((∃ dataset, d.compileNamed name defaults = .ok dataset) ↔ d.violations defaults = []) ∧
      ∀ v, d.compileNamed name defaults = .error v ↔ (d.violations defaults).head? = some v := by
  have reports : Reports (d.compileNamed name defaults) (d.violations defaults) :=
    Section.reports_compile ..
  exact reports.iff

end ProductSpec
