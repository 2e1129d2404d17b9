/-
  The walk over a dataset: no path occurs twice, and every node comes after the group it is in.
-/
import ProductSpec.Proofs.Dataset.WellFormed

namespace ProductSpec

namespace NodePath

theorem child_inj {p : NodePath} {kind kind' name name' : String} :
    p.child kind name = p.child kind' name' ↔ kind = kind' ∧ name = name' := by
  simp [child]

end NodePath

namespace Group

/-- What holds of a group if it holds of the groups in it holds of every group. -/
theorem induction {motive : Group → Prop} (step : ∀ g, (∀ h ∈ g.groups, motive h) → motive g)
    (g : Group) : motive g :=
  step g fun h _ => induction step h
termination_by g
decreasing_by
  obtain ⟨name, info, attributes, dimensions, vars, groups⟩ := g
  have smaller : sizeOf h < sizeOf groups := List.sizeOf_lt_of_mem ‹_›
  simp only [mk.sizeOf_spec]
  omega

/-- A group that is inside another one, with what is inside it. -/
def branch (path : NodePath) (g : Group) : List (NodePath × NodeRef) :=
  (path.child "groups" g.name, .group g) :: g.inside (path.child "groups" g.name)

theorem insideAll_eq (path : NodePath) (groups : List Group) :
    insideAll path groups = groups.flatMap (branch path) := by
  induction groups with
  | nil => rfl
  | cons g rest ih => rw [insideAll, ih, List.flatMap_cons, branch]

theorem inside_eq (path : NodePath) (g : Group) :
    g.inside path =
      g.dimensions.map (fun d => (path.child "dimensions" d.name, NodeRef.dim d)) ++
        g.vars.map (fun v => (path.child "variables" v.name, NodeRef.var v)) ++
        g.groups.flatMap (branch path) := by
  obtain ⟨name, info, attributes, dimensions, vars, groups⟩ := g
  rw [inside, insideAll_eq]

/-- What is inside a group has a longer path. -/
theorem path_of_mem_inside {g : Group} {path : NodePath} {e : NodePath × NodeRef}
    (h : e ∈ g.inside path) : ∃ kind name rest, e.1 = path.child kind name ++ rest := by
  induction g using induction generalizing path with
  | step g ih =>
    rw [inside_eq, List.mem_append, List.mem_append] at h
    rcases h with (h | h) | h
    · obtain ⟨d, -, rfl⟩ := List.mem_map.1 h
      exact ⟨"dimensions", d.name, [], (List.append_nil _).symm⟩
    · obtain ⟨v, -, rfl⟩ := List.mem_map.1 h
      exact ⟨"variables", v.name, [], (List.append_nil _).symm⟩
    · obtain ⟨inner, mem, h⟩ := List.mem_flatMap.1 h
      rcases List.mem_cons.1 h with rfl | h
      · exact ⟨"groups", inner.name, [], (List.append_nil _).symm⟩
      · obtain ⟨kind, name, rest, same⟩ := ih inner mem h
        refine ⟨"groups", inner.name, kind :: name :: rest, ?_⟩
        rw [same]
        simp [NodePath.child]

theorem path_of_mem_branch {g : Group} {path : NodePath} {e : NodePath × NodeRef}
    (h : e ∈ g.branch path) : ∃ rest, e.1 = path.child "groups" g.name ++ rest := by
  rcases List.mem_cons.1 h with rfl | h
  · exact ⟨[], (List.append_nil _).symm⟩
  · obtain ⟨kind, name, rest, same⟩ := path_of_mem_inside h
    exact ⟨kind :: name :: rest, by rw [same]; simp [NodePath.child]⟩

theorem notMem_inside (g : Group) (path : NodePath) : path ∉ (g.inside path).map Prod.fst := by
  intro h
  obtain ⟨e, mem, same⟩ := List.mem_map.1 h
  obtain ⟨kind, name, rest, longer⟩ := path_of_mem_inside mem
  rw [same] at longer
  have lengths := congrArg List.length longer
  simp [NodePath.child] at lengths

theorem nodup_children {α : Type} {name : α → String} {items : List α} (path : NodePath)
    (kind : String) (h : (items.map name).Nodup) :
    (items.map fun x => path.child kind (name x)).Nodup := by
  have mapped : items.map (fun x => path.child kind (name x)) =
      (items.map name).map (path.child kind) := by rw [List.map_map]; rfl
  rw [mapped]
  exact h.map fun _ _ same => (NodePath.child_inj.1 same).2

/-- Inside a group no path occurs twice. -/
theorem nodup_inside {outer : List String} {g : Group} (h : g.WellFormed outer)
    (path : NodePath) : ((g.inside path).map Prod.fst).Nodup := by
  induction g using induction generalizing path outer with
  | step g ih =>
    rw [inside_eq, List.map_append, List.map_append, List.map_map, List.map_map,
      List.map_flatMap]
    -- Paths of two kinds differ in the kind, paths of one kind in the name of the child.
    refine List.nodup_append.2 ⟨List.nodup_append.2 ⟨?_, ?_, ?_⟩, List.nodup_flatMap.2 ⟨?_, ?_⟩, ?_⟩
    · exact nodup_children path "dimensions" h.dimensions.distinct
    · exact nodup_children path "variables" h.vars.distinct
    · rintro p mem q mem' rfl
      obtain ⟨d, -, rfl⟩ := List.mem_map.1 mem
      obtain ⟨v, -, same⟩ := List.mem_map.1 mem'
      exact absurd (NodePath.child_inj.1 same).1 (by decide)
    · intro inner mem
      exact List.nodup_cons.2 ⟨notMem_inside _ _, ih inner mem (h.inner mem) _⟩
    · refine (List.pairwise_map.1 h.groups.distinct).imp fun {a b} unlike p mem mem' => ?_
      obtain ⟨e, inA, rfl⟩ := List.mem_map.1 mem
      obtain ⟨e', inB, same⟩ := List.mem_map.1 mem'
      obtain ⟨rest, below⟩ := path_of_mem_branch inA
      obtain ⟨rest', below'⟩ := path_of_mem_branch inB
      rw [same, below] at below'
      simp [NodePath.child] at below'
      exact unlike below'.1
    · rintro p mem q mem' rfl
      obtain ⟨inner, -, mem'⟩ := List.mem_flatMap.1 mem'
      obtain ⟨e, inBranch, rfl⟩ := List.mem_map.1 mem'
      obtain ⟨rest, below⟩ := path_of_mem_branch inBranch
      rcases List.mem_append.1 mem with mem | mem
      · obtain ⟨d, -, same⟩ := List.mem_map.1 mem
        simp [← same, NodePath.child] at below
      · obtain ⟨v, -, same⟩ := List.mem_map.1 mem
        simp [← same, NodePath.child] at below

/-- In a dataset no path occurs twice. -/
theorem nodup_walk {d : Dataset} {outer : List String} (h : d.WellFormed outer) :
    (d.walk.map Prod.fst).Nodup :=
  List.nodup_cons.2 ⟨notMem_inside _ _, nodup_inside h _⟩

/-- Every node is a child of something already seen. -/
def ParentsFirst : (seen : List NodePath) → List (NodePath × NodeRef) → Prop
  | _, [] => True
  | seen, e :: rest =>
    (∃ parent ∈ seen, ∃ kind, e.1 = parent.child kind e.2.name) ∧ ParentsFirst (e.1 :: seen) rest

namespace ParentsFirst

variable {seen more : List NodePath} {nodes others : List (NodePath × NodeRef)}

theorem mono (h : ParentsFirst seen nodes) (sub : seen ⊆ more) : ParentsFirst more nodes := by
  induction nodes generalizing seen more with
  | nil => trivial
  | cons e rest ih =>
    obtain ⟨⟨parent, mem, kind, same⟩, h⟩ := h
    exact ⟨⟨parent, sub mem, kind, same⟩, ih h (List.cons_subset_cons _ sub)⟩

theorem append (h : ParentsFirst seen nodes) (h' : ParentsFirst seen others) :
    ParentsFirst seen (nodes ++ others) := by
  induction nodes generalizing seen with
  | nil => exact h'
  | cons e rest ih => exact ⟨h.1, ih h.2 (h'.mono (List.subset_cons_self ..))⟩

theorem flatMap {α : Type} {items : List α} {f : α → List (NodePath × NodeRef)}
    (h : ∀ x ∈ items, ParentsFirst seen (f x)) : ParentsFirst seen (items.flatMap f) := by
  induction items with
  | nil => trivial
  | cons x rest ih =>
    rw [List.flatMap_cons]
    exact (h x List.mem_cons_self).append (ih fun y mem => h y (List.mem_cons_of_mem x mem))

theorem children {α : Type} (items : List α) (node : α → NodeRef) {path : NodePath}
    (mem : path ∈ seen) (kind : String) :
    ParentsFirst seen (items.map fun x => (path.child kind (node x).name, node x)) := by
  rw [List.map_eq_flatMap]
  exact flatMap fun x _ => ⟨⟨path, mem, kind, rfl⟩, trivial⟩

/-- The parent of a node is before it. -/
theorem parent_of_split {before after : List (NodePath × NodeRef)} {e : NodePath × NodeRef}
    (h : ParentsFirst seen (before ++ e :: after)) :
    ∃ parent, (parent ∈ seen ∨ parent ∈ before.map Prod.fst) ∧
      ∃ kind, e.1 = parent.child kind e.2.name := by
  induction before generalizing seen with
  | nil =>
    obtain ⟨parent, mem, kind, same⟩ := h.1
    exact ⟨parent, .inl mem, kind, same⟩
  | cons first rest ih =>
    obtain ⟨parent, mem, kind, same⟩ := ih h.2
    refine ⟨parent, ?_, kind, same⟩
    simp only [List.mem_cons] at mem
    simp only [List.map_cons, List.mem_cons]
    tauto

end ParentsFirst

theorem parentsFirst_inside (g : Group) {path : NodePath} {seen : List NodePath}
    (mem : path ∈ seen) : ParentsFirst seen (g.inside path) := by
  induction g using induction generalizing path seen with
  | step g ih =>
    rw [inside_eq]
    refine ((ParentsFirst.children g.dimensions NodeRef.dim mem "dimensions").append
      (ParentsFirst.children g.vars NodeRef.var mem "variables")).append
      (ParentsFirst.flatMap fun inner isIn => ?_)
    exact ⟨⟨path, mem, "groups", rfl⟩, ih inner isIn List.mem_cons_self⟩

/-- Every node but the first comes after its parent. -/
theorem parent_before {d : Dataset} {before after : List (NodePath × NodeRef)}
    {e : NodePath × NodeRef} (h : d.walk = before ++ e :: after) :
    before = [] ∧ e = (NodePath.root, .dataset d) ∨
      ∃ parent ∈ before, ∃ kind, e.1 = parent.1.child kind e.2.name := by
  cases before with
  | nil => exact .inl ⟨rfl, (List.cons.inj h).1.symm⟩
  | cons first rest =>
    obtain ⟨rfl, tail⟩ := List.cons.inj h
    have ordered : ParentsFirst [NodePath.root] (d.inside NodePath.root) :=
      parentsFirst_inside d List.mem_cons_self
    rw [tail] at ordered
    obtain ⟨parent, mem, kind, same⟩ := ordered.parent_of_split
    refine .inr ?_
    rcases mem with mem | mem
    · exact ⟨_, List.mem_cons_self, kind, List.mem_singleton.1 mem ▸ same⟩
    · obtain ⟨e', earlier, rfl⟩ := List.mem_map.1 mem
      exact ⟨e', List.mem_cons_of_mem _ earlier, kind, same⟩

end Group

end ProductSpec
