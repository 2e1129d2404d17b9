/-
  A dataset has the shape of its definition: the same nodes under the same names in the same order.
  Whatever compiles is well-formed.
-/
import ProductSpec.Proofs.Dataset.Walk
import ProductSpec.Proofs.Definition.Violations

namespace ProductSpec

open Yaml

namespace Section

mutual

/-- The entries of a section in document order: the path, the kind and the name of each. -/
def outline (path : NodePath) : Section → List (NodePath × String × String)
  | ⟨_, dimensions, vars, groups⟩ =>
    dimensions.map (fun d => (path.child "dimensions" d.name, "dimension", d.name)) ++
      vars.map (fun v => (path.child "variables" v.name, "variable", v.name)) ++
      outlineOfGroups path groups

def outlineOfGroups (path : NodePath) :
    List (GroupHeading × Section) → List (NodePath × String × String)
  | [] => []
  | (h, contents) :: rest =>
    let here := path.child "groups" h.name
    (here, "group", h.name) :: contents.outline here ++ outlineOfGroups path rest

end

mutual

/-- The number of the dimensions, variables and groups in a section, at all depths. -/
def entryCount : Section → Nat
  | ⟨_, dimensions, vars, groups⟩ => dimensions.length + vars.length + entryCountOfGroups groups

def entryCountOfGroups : List (GroupHeading × Section) → Nat
  | [] => 0
  | (_, contents) :: rest => 1 + contents.entryCount + entryCountOfGroups rest

end

mutual

theorem length_outline (path : NodePath) :
    (s : Section) → (s.outline path).length = s.entryCount
  | ⟨_, dimensions, vars, groups⟩ => by
    rw [outline, entryCount, List.length_append, List.length_append, List.length_map,
      List.length_map, length_outlineOfGroups path groups]

theorem length_outlineOfGroups (path : NodePath) :
    (groups : List (GroupHeading × Section)) →
      (outlineOfGroups path groups).length = entryCountOfGroups groups
  | [] => rfl
  | (h, contents) :: rest => by
    rw [outlineOfGroups, entryCountOfGroups, List.cons_append, List.length_cons,
      List.length_append, length_outline _ contents, length_outlineOfGroups path rest]
    omega

end

end Section

/-- The names of siblings that come after others of their kind. -/
structure FreshNames (earlier names : List String) : Prop where
  siblings : SiblingNames names
  fresh : ∀ name ∈ names, name ∉ earlier

namespace FreshNames

theorem nil (earlier : List String) : FreshNames earlier [] :=
  ⟨⟨List.not_mem_nil, List.nodup_nil⟩, fun _ mem => absurd mem List.not_mem_nil⟩

theorem cons {earlier names : List String} {name : String} (filled : name ≠ "")
    (new : name ∉ earlier) (rest : FreshNames (name :: earlier) names) :
    FreshNames earlier (name :: names) := by
  refine ⟨⟨?_, List.nodup_cons.2 ⟨?_, rest.siblings.distinct⟩⟩, ?_⟩
  · rw [List.mem_cons, not_or]
    exact ⟨filled.symm, rest.siblings.filled⟩
  · exact fun mem => rest.fresh name mem List.mem_cons_self
  · intro other mem
    rcases List.mem_cons.1 mem with rfl | mem
    · exact new
    · exact fun old => rest.fresh other mem (List.mem_cons_of_mem name old)

end FreshNames

theorem checkName_eq_ok {path : NodePath} {kind : String} {earlier : List String} {name : String}
    {done : Unit} : checkName path kind earlier name = .ok done ↔ name ≠ "" ∧ name ∉ earlier := by
  unfold checkName
  split
  · next empty => simp [empty]
  · next filled =>
    split
    · next known => simp [known]
    · next new => simp [filled, new]

theorem FreshNames.cons_of_checkName {path : NodePath} {kind : String} {earlier names : List String}
    {name : String} {done : Unit} (named : checkName path kind earlier name = .ok done)
    (rest : FreshNames (name :: earlier) names) : FreshNames earlier (name :: names) := by
  obtain ⟨filled, new⟩ := checkName_eq_ok.1 named
  exact .cons filled new rest

namespace ConstraintKind

theorem isPlain_of_compileItem {v : Value} {l : Literal} (h : compileItem v = .ok l) :
    l.IsPlain := by
  cases v with
  | text s =>
    rw [compileItem] at h
    split at h
    · cases h
    · next unlike =>
      cases h
      exact Bool.eq_false_iff.2 unlike
  | int n =>
    rw [← Except.ok.inj h]
    split <;> trivial
  | float x =>
    cases h
    trivial
  | _ => cases h

theorem isFlat_of_compileList {items : List Value} {l : Literal} (h : compileList items = .ok l) :
    l.IsFlat := by
  obtain ⟨literals, found, h⟩ := bind_eq_ok.1 h
  split at h
  · cases h
  · next uniform =>
    cases h
    refine ⟨fun l mem => ?_, ?_⟩
    · obtain ⟨v, -, compiled⟩ := exists_of_mem_mapM found mem
      exact isPlain_of_compileItem compiled
    · simp only [Bool.and_eq_true, List.any_eq_true, Bool.not_eq_true', List.all_eq_false,
        not_and, not_exists] at uniform
      -- If one item is a text, a number among the others would have been refused.
      by_cases someText : ∃ l ∈ literals, l.isText = true
      · refine .inl fun l mem => ?_
        by_contra number
        exact uniform someText l mem number
      · refine .inr fun l mem => ?_
        by_contra text
        exact someText ⟨l, mem, Bool.not_eq_false _ ▸ text⟩

/-- Literals of a definition are flat. -/
theorem isFlat_of_compile {v : Value} {l : Literal} (h : compile v = .ok (.literal l)) :
    l.IsFlat := by
  cases v with
  | text s =>
    rw [compile] at h
    split at h
    · cases parsed : Placeholder.parse s <;> simp [parsed] at h
    · next unlike =>
      cases h
      exact Bool.eq_false_iff.2 unlike
  | sequence items =>
    obtain ⟨literal, found, same⟩ := map_eq_ok.1 h
    cases same
    exact isFlat_of_compileList found
  | int n =>
    rw [← (ConstraintKind.literal.inj (Except.ok.inj h))]
    split <;> trivial
  | float x =>
    cases h
    trivial
  | _ => cases h

end ConstraintKind

theorem Compiled.at_eq_ok {α : Type} {path : NodePath} {c : Except DefinitionFault α} {x : α} :
    Compiled.at path c = .ok x ↔ c = .ok x := by
  cases c with
  | ok y => exact ⟨fun h => congrArg Except.ok (Except.ok.inj h),
      fun h => congrArg Except.ok (Except.ok.inj h)⟩
  | error fault => exact ⟨nofun, nofun⟩

theorem attributeBlock_of_compileAttributes {path : NodePath} {defaults product : AttributeLayer}
    {attributes : List AttributeConstraint}
    (h : compileAttributes path defaults product = .ok attributes) : AttributeBlock attributes := by
  obtain ⟨merged, found, h⟩ := bind_eq_ok.1 h
  rw [AttributeLayer.merge_eq] at found
  split at found
  · cases found
    refine ⟨?_, fun c mem l isLiteral => ?_⟩
    · have names : attributes.map AttributeConstraint.name =
          (AttributeLayer.merged defaults product).map Prod.fst := by
        refine map_eq_of_mapM h fun e c made => ?_
        obtain ⟨kind, -, made⟩ := bind_eq_ok.1 made
        exact congrArg AttributeConstraint.name (Except.ok.inj made).symm
      rw [names]
      refine ⟨fun mem => ?_, AttributeLayer.nodup_map_fst_merged ..⟩
      rcases AttributeLayer.mem_names_of_mem_merged mem with mem | mem <;>
        exact AttributeLayer.ne_empty_of_mem_names mem rfl
    · obtain ⟨e, -, made⟩ := exists_of_mem_mapM h mem
      obtain ⟨kind, compiled, made⟩ := bind_eq_ok.1 made
      obtain rfl := Except.ok.inj made
      obtain rfl : kind = .literal l := isLiteral
      exact ConstraintKind.isFlat_of_compile (Compiled.at_eq_ok.1 compiled)
  · cases found

namespace DimensionEntry

theorem freshNames_of_compileAll {path : NodePath} {earlier : List String}
    {ds : List DimensionEntry} {compiled : List Dimension}
    (h : compileAll path earlier ds = .ok compiled) :
    FreshNames earlier (compiled.map Dimension.name) := by
  induction ds generalizing earlier compiled with
  | nil =>
    cases h
    exact .nil earlier
  | cons d rest ih =>
    obtain ⟨_, named, h⟩ := bind_eq_ok.1 h
    obtain ⟨others, found, h⟩ := bind_eq_ok.1 h
    obtain rfl := Except.ok.inj h
    exact .cons_of_checkName named (ih found)

end DimensionEntry

namespace VariableEntry

theorem of_compile {defaults : Defaults} {scope : List String} {path : NodePath}
    {v : VariableEntry} {w : Variable} (h : v.compile defaults scope path = .ok w) :
    w.name = v.name ∧ AttributeBlock w.attributes ∧ ∀ d ∈ w.dimensions, d ∈ scope := by
  unfold compile at h
  cases typed : BaseType.parse v.dataType with
  | error reason =>
    rw [typed] at h
    cases h
  | ok t =>
    rw [typed] at h
    obtain ⟨_, same, h⟩ := bind_eq_ok.1 h
    cases same
    cases found : v.dimensions.find? (· ∉ scope) with
    | some d =>
      rw [found] at h
      cases h
    | none =>
      rw [found] at h
      obtain ⟨attributes, block, h⟩ := bind_eq_ok.1 h
      obtain rfl := Except.ok.inj h
      refine ⟨rfl, attributeBlock_of_compileAttributes block, fun d used => ?_⟩
      simpa using List.find?_eq_none.1 found d used

theorem of_compileAll {defaults : Defaults} {scope : List String} {path : NodePath}
    {earlier : List String} {vs : List VariableEntry} {ws : List Variable}
    (h : compileAll defaults scope path earlier vs = .ok ws) :
    ws.map Variable.name = vs.map VariableEntry.name ∧ FreshNames earlier (ws.map Variable.name) ∧
      ∀ w ∈ ws, AttributeBlock w.attributes ∧ ∀ d ∈ w.dimensions, d ∈ scope := by
  induction vs generalizing earlier ws with
  | nil =>
    cases h
    exact ⟨rfl, .nil earlier, nofun⟩
  | cons v rest ih =>
    obtain ⟨_, named, h⟩ := bind_eq_ok.1 h
    obtain ⟨w, compiled, h⟩ := bind_eq_ok.1 h
    obtain ⟨others, found, h⟩ := bind_eq_ok.1 h
    obtain rfl := Except.ok.inj h
    obtain ⟨sameName, sound⟩ := of_compile compiled
    obtain ⟨sameNames, fresh, sounds⟩ := ih found
    refine ⟨?_, ?_, List.forall_mem_cons.2 ⟨sound, sounds⟩⟩
    · rw [List.map_cons, List.map_cons, sameName, sameNames]
    · rw [List.map_cons, sameName]
      exact .cons_of_checkName named fresh

end VariableEntry

namespace NodeRef

/-- A node as the outline of a definition shows it. -/
def listed (e : NodePath × NodeRef) : NodePath × String × String := (e.1, e.2.kind, e.2.name)

end NodeRef

namespace Section

mutual

/-- What compiles has the outline of its definition and is well-formed. -/
theorem of_compile {defaults : Defaults} {layer : AttributeLayer} {scope : List String}
    {path : NodePath} {name : String} {info : NodeInfo} {g : Group} :
    (s : Section) → s.compile defaults layer scope path name info = .ok g →
      g.name = name ∧ (g.inside path).map NodeRef.listed = s.outline path ∧ g.WellFormed scope
  | ⟨attributes, dimensions, vars, groups⟩, h => by
    obtain ⟨block, attributesMade, h⟩ := bind_eq_ok.1 h
    obtain ⟨compiled, dimensionsMade, h⟩ := bind_eq_ok.1 h
    obtain ⟨ws, varsMade, h⟩ := bind_eq_ok.1 h
    obtain ⟨gs, groupsMade, h⟩ := bind_eq_ok.1 h
    obtain rfl := Except.ok.inj h
    obtain ⟨varNames, freshVars, sounds⟩ := VariableEntry.of_compileAll varsMade
    obtain ⟨same, freshGroups, inner⟩ := of_compileGroups groups groupsMade
    refine ⟨rfl, ?_, ?_⟩
    · have dimensionsSame := DimensionEntry.eq_of_compileAll dimensionsMade
      have varsSame : ws.map (fun w => (path.child "variables" w.name, "variable", w.name)) =
          vars.map fun v => (path.child "variables" v.name, "variable", v.name) := by
        have both := congrArg
          (List.map fun n => (path.child "variables" n, "variable", n)) varNames
        rwa [List.map_map, List.map_map] at both
      rw [Group.inside, List.map_append, List.map_append, same, outline, ← varsSame,
        dimensionsSame, List.map_map, List.map_map, List.map_map]
      rfl
    · exact .intro (attributeBlock_of_compileAttributes attributesMade)
        (DimensionEntry.freshNames_of_compileAll dimensionsMade).siblings freshVars.siblings
        freshGroups.siblings (fun w mem => (sounds w mem).1) (fun w mem => (sounds w mem).2) inner

theorem of_compileGroups {defaults : Defaults} {scope : List String} {path : NodePath}
    {earlier : List String} {gs : List Group} :
    (groups : List (GroupHeading × Section)) →
      compileGroups defaults scope path earlier groups = .ok gs →
      (Group.insideAll path gs).map NodeRef.listed = outlineOfGroups path groups ∧
        FreshNames earlier (gs.map Group.name) ∧ ∀ g ∈ gs, g.WellFormed scope
  | [], h => by
    cases h
    exact ⟨rfl, .nil earlier, nofun⟩
  | (heading, contents) :: rest, h => by
    obtain ⟨_, named, h⟩ := bind_eq_ok.1 h
    obtain ⟨g, compiled, h⟩ := bind_eq_ok.1 h
    obtain ⟨others, found, h⟩ := bind_eq_ok.1 h
    obtain rfl := Except.ok.inj h
    obtain ⟨sameName, same, sound⟩ := of_compile contents compiled
    obtain ⟨sames, fresh, sounds⟩ := of_compileGroups rest found
    refine ⟨?_, ?_, List.forall_mem_cons.2 ⟨sound, sounds⟩⟩
    · rw [Group.insideAll, outlineOfGroups, sameName, ← same, ← sames, List.map_append,
        List.map_cons, NodeRef.listed, NodeRef.kind, NodeRef.name, sameName]
    · rw [List.map_cons, sameName]
      exact .cons_of_checkName named fresh

end

end Section

namespace Definition

/-- A dataset has the nodes of a definition. No two have the same path, each comes after its
parent, and the dataset is well-formed. -/
structure Shapes (d : Definition) (name : String) (dataset : Dataset) : Prop where
  nodes : dataset.walk.map NodeRef.listed =
    (NodePath.root, "dataset", name) :: d.body.outline NodePath.root
  count : dataset.nodeCount = 1 + d.body.entryCount
  distinct : (dataset.walk.map Prod.fst).Nodup
  parents : ∀ before e after, dataset.walk = before ++ e :: after →
    before = [] ∧ e = (NodePath.root, .dataset dataset) ∨
      ∃ parent ∈ before, ∃ kind, e.1 = parent.1.child kind e.2.name
  wellFormed : dataset.WellFormed []

/-- Compilation keeps the shape of a definition. -/
theorem shapes_of_compileNamed (d : Definition) (name : String) (defaults : Defaults)
    {dataset : Dataset} (h : d.compileNamed name defaults = .ok dataset) :
    d.Shapes name dataset := by
  obtain ⟨sameName, same, sound⟩ := Section.of_compile d.body h
  have listed : dataset.walk.map NodeRef.listed =
      (NodePath.root, "dataset", name) :: d.body.outline NodePath.root := by
    rw [Group.walk, List.map_cons, same, NodeRef.listed, NodeRef.kind, NodeRef.name, sameName]
  have lengths := congrArg List.length listed
  rw [List.length_map, List.length_cons, Section.length_outline] at lengths
  refine ⟨listed, ?_, Group.nodup_walk sound, fun _ _ _ => Group.parent_before, sound⟩
  rw [Group.nodeCount, lengths, Nat.add_comm]

/-- A definition with a group whose variable uses a dimension of the root. -/
def nested : Definition where
  shortName := none
  filePattern := none
  description := none
  canonicalName := none
  body :=
    ⟨⟨[(.text "title", .text "<str:derived_from_file>"),
        (.text "levels", .sequence [.int 1, .int 2])],
      by decide⟩,
      [⟨"time", none, true, none⟩], [⟨"pressure", "float32", true, none, ["time"], .empty⟩],
      [(⟨"profile", true, none⟩, ⟨.empty, [⟨"level", some 3, true, none⟩],
        [⟨"wind", "int8", false, none, ["time", "level"], .empty⟩], []⟩)]⟩

theorem shapes_nested : ∃ dataset, nested.compileNamed "sounding" .empty = .ok dataset ∧
    nested.Shapes "sounding" dataset :=
  ⟨_, rfl, shapes_of_compileNamed nested "sounding" .empty rfl⟩

/-- Ten times in the root, and five in a group that has a dimension of that name of its own. -/
def localTime : Definition where
  shortName := none
  filePattern := none
  description := none
  canonicalName := none
  body :=
    ⟨.empty, [⟨"time", some 10, true, none⟩], [],
      [(⟨"profile", true, none⟩, ⟨.empty, [⟨"time", some 5, false, none⟩],
        [⟨"wind", "float32", true, none, ["time"], .empty⟩], []⟩)]⟩

end Definition

end ProductSpec
