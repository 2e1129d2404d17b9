/-
  Storing an array with one element as that element. A file format may do so, and a file does not
  lose by it: what passes still passes, nothing else in the report changes, and a finding about the
  attribute goes away at most where a single value is asked for.
-/
import ProductSpec.Proofs.NameMap
import ProductSpec.Proofs.Names
import ProductSpec.Proofs.Report.Entries
import ProductSpec.Proofs.Validation.Places
import ProductSpec.Definition.Compile
import Mathlib.Data.List.Forall2

namespace ProductSpec

namespace AttributeValue

/-- No literal tells the two forms apart. -/
theorem matches_unwrapped (l : Literal) (s : Scalar) :
    l.matches (array s.baseType [s]) = l.matches (scalar s) := by
  cases l with
  | int | float | text => rfl
  | list items =>
    cases items with
    | nil => rfl
    | cons item rest =>
      cases rest with
      | nil => exact Bool.and_true _
      | cons => rfl

theorem conformsTo_unwrapped (p : Placeholder) (s : Scalar) :
    conformsTo p (array s.baseType [s]) = (p.isArray && conformsTo p (scalar s)) := by
  show (p.isArray && s.baseType == p.baseType && (s.baseType == p.baseType && true)) = _
  rw [Bool.and_true, Bool.and_assoc, Bool.and_self]
  rfl

end AttributeValue

namespace FileGroup

/-- The attribute of a name is an array with one element, and it becomes that element. -/
def UnwrappedIn (s : Scalar) (name : String) (attributes attributes' : NameMap AttributeValue) :
    Prop :=
  attributes.get? name = some (.array s.baseType [s]) ∧
    attributes' = attributes.insert name (.scalar s)

/-- Two groups that differ in how one attribute is stored, at a path that begins in the group. It
may be any attribute in the group, also one of a part that stands behind another of its name. -/
inductive Unwrapped (s : Scalar) : NodePath → FileGroup → FileGroup → Prop
  | own {g : FileGroup} {name : String} {attributes : NameMap AttributeValue} :
      UnwrappedIn s name g.attributes attributes →
      Unwrapped s ["attributes", name] g { g with attributes }
  | var {g : FileGroup} {name : String} (before after : List FileVariable) (v : FileVariable)
      {attributes : NameMap AttributeValue} :
      g.vars = before ++ v :: after → UnwrappedIn s name v.attributes attributes →
      Unwrapped s ["variables", v.name, "attributes", name] g
        { g with vars := before ++ { v with attributes } :: after }
  | inside {g h h' : FileGroup} {place : NodePath} (before after : List FileGroup) :
      g.groups = before ++ h :: after → Unwrapped s place h h' →
      Unwrapped s ("groups" :: h.name :: place) g { g with groups := before ++ h' :: after }

theorem Unwrapped.name_eq {s : Scalar} {place : NodePath} {g g' : FileGroup}
    (h : Unwrapped s place g g') : g.name = g'.name := by
  cases h <;> rfl

end FileGroup

/-- How an outcome may change with what is stored at a path: not at all, unless it is a finding
there. That may be worded in another way, or it may go away if that is allowed. -/
inductive Entry.Kept (p : NodePath) (allowed : Prop) : Entry → Entry → Prop
  | same (e : Entry) : Kept p allowed e e
  | reworded {d : Diagnostic} (message : String) :
      d.path = p → Kept p allowed (.finding d) (.finding { d with message })
  | gone {d : Diagnostic} : d.path = p → allowed → Kept p allowed (.finding d) (.pass p)

/-- The outcomes of the same checks, none of which changed in another way. -/
def KeptAll (p : NodePath) (allowed : Prop) (entries entries' : List Entry) : Prop :=
  List.Forall₂ (Entry.Kept p allowed) entries entries'

namespace KeptAll

variable {p : NodePath} {allowed : Prop} {entries entries' others others' : List Entry}

theorem refl (entries : List Entry) : KeptAll p allowed entries entries :=
  List.forall₂_same.2 fun e _ => .same e

theorem of_eq (same : entries = entries') : KeptAll p allowed entries entries' :=
  same ▸ refl entries

theorem cons (e : Entry) (h : KeptAll p allowed entries entries') :
    KeptAll p allowed (e :: entries) (e :: entries') :=
  List.Forall₂.cons (.same e) h

theorem append (h : KeptAll p allowed entries entries') (h' : KeptAll p allowed others others') :
    KeptAll p allowed (entries ++ others) (entries' ++ others') :=
  List.rel_append h h'

theorem flatMap {α : Type} {items : List α} {checks checks' : α → List Entry}
    (h : ∀ x ∈ items, KeptAll p allowed (checks x) (checks' x)) :
    KeptAll p allowed (items.flatMap checks) (items.flatMap checks') := by
  induction items with
  | nil => exact refl []
  | cons x rest ih =>
    obtain ⟨first, others⟩ := List.forall_mem_cons.1 h
    exact first.append (ih others)

end KeptAll

/-- Whether a single value of the type is asked for. -/
def AttributeConstraint.IsSingle (t : BaseType) (c : AttributeConstraint) : Prop :=
  ∃ p : Placeholder, c.kind = .placeholder p ∧ p.isArray = false ∧ p.baseType = t

/-- One of the nodes asks for a single value of the type, for the attribute at the path. -/
def SingleAt (nodes : List (NodePath × NodeRef)) (t : BaseType) (path : NodePath) : Prop :=
  ∃ e ∈ nodes, ∃ c ∈ e.2.attributes, c.IsSingle t ∧ e.1.child "attributes" c.name = path

namespace SingleAt

variable {g : Group} {t : BaseType} {path : NodePath}

/-- What a variable of a group asks for is asked for in the group. -/
theorem of_var {v : Variable} (mem : v ∈ g.vars) {c : AttributeConstraint} (isIn : c ∈ v.attributes)
    (single : c.IsSingle t) :
    SingleAt ((path, .group g) :: g.inside path) t
      ((path.child "variables" v.name).child "attributes" c.name) := by
  have inside : (path.child "variables" v.name, NodeRef.var v) ∈ g.inside path := by
    rw [Group.inside_eq]
    exact List.mem_append_left _ (List.mem_append_right _ (List.mem_map_of_mem mem))
  exact ⟨_, List.mem_cons_of_mem _ inside, c, isIn, single, rfl⟩

/-- What is asked for in one of its groups is asked for in a group. -/
theorem of_branch {child : Group} (mem : child ∈ g.groups) {place : NodePath}
    (h : SingleAt (child.branch path) t place) :
    SingleAt ((path, .group g) :: g.inside path) t place := by
  obtain ⟨e, isIn, single⟩ := h
  have inside : e ∈ g.inside path := by
    rw [Group.inside_eq]
    exact List.mem_append_right _ (List.mem_flatMap.2 ⟨child, mem, isIn⟩)
  exact ⟨e, List.mem_cons_of_mem _ inside, single⟩

end SingleAt

section Checks

variable {s : Scalar} {o : ValidationOptions} {allowed : Prop}

theorem AttributeConstraint.kept_checkValue {c : AttributeConstraint}
    (h : c.IsSingle s.baseType → allowed) (path : NodePath) :
    (c.checkValue o path (.array s.baseType [s])).Kept path allowed
      (c.checkValue o path (.scalar s)) := by
  unfold checkValue
  cases kind : c.kind with
  | literal l =>
    dsimp only
    rw [AttributeValue.matches_unwrapped]
    split
    · exact .same _
    · exact .reworded _ rfl
  | placeholder p =>
    dsimp only
    rw [AttributeValue.conformsTo_unwrapped]
    cases isArray : p.isArray with
    | true =>
      rw [Bool.true_and]
      split
      · exact .same _
      · exact .reworded _ rfl
    | false =>
      rw [Bool.false_and, if_neg Bool.false_ne_true]
      split
      · next conforms => exact .gone rfl (h ⟨p, kind, isArray, (beq_iff_eq.1 conforms).symm⟩)
      · exact .reworded _ rfl

/-- The checks of a block in which one attribute is stored in the other form. -/
theorem kept_checkAttributes {name : String} {attributes attributes' : NameMap AttributeValue}
    (unwrapped : FileGroup.UnwrappedIn s name attributes attributes')
    {constraints : List AttributeConstraint}
    (h : ∀ c ∈ constraints, c.name = name → c.IsSingle s.baseType → allowed) (path : NodePath) :
    KeptAll (path.child "attributes" name) allowed (checkAttributes o path constraints attributes)
      (checkAttributes o path constraints attributes') := by
  obtain ⟨stored, rfl⟩ := unwrapped
  have each : ∀ c ∈ constraints, KeptAll (path.child "attributes" name) allowed
      (c.check o path attributes) (c.check o path (attributes.insert name (.scalar s))) := by
    intro c mem
    unfold AttributeConstraint.check
    rw [NameMap.get?_insert]
    by_cases named : c.name = name
    · rw [if_pos named, named, stored]
      exact List.Forall₂.cons (c.kept_checkValue (h c mem named) _) .nil
    · rw [if_neg named]
      exact .refl _
  unfold checkAttributes
  rw [NameMap.names_insert (NameMap.mem_names_of_get? stored)]
  exact .append (.flatMap each) (.refl _)

theorem Variable.kept_check {v : Variable} {file : FileGroup} {before after : List FileVariable}
    {stored : FileVariable} (parts : file.vars = before ++ stored :: after) {name : String}
    {attributes : NameMap AttributeValue}
    (unwrapped : FileGroup.UnwrappedIn s name stored.attributes attributes)
    (h : v.name = stored.name →
      ∀ c ∈ v.attributes, c.name = name → c.IsSingle s.baseType → allowed)
    (scope : Scope) (path : NodePath) :
    KeptAll ((path.child "variables" stored.name).child "attributes" name) allowed
      (v.check o scope path file)
      (v.check o scope path
        { file with vars := before ++ { stored with attributes } :: after }) := by
  have sameName : stored.name = { stored with attributes }.name := rfl
  have found := find?_name_replace_cases before after sameName v.name
  unfold check FileGroup.variableNamed?
  rw [parts]
  rcases found with same | ⟨named, found, found'⟩
  · exact .of_eq (by rw [same])
  · rw [found, found', named]
    exact .append (.refl _) (kept_checkAttributes unwrapped (h named) _)

end Checks

namespace Group

variable {s : Scalar} {o : ValidationOptions} {allowed : Prop}

theorem kept_checkInner {g : Group} {file inner inner' : FileGroup}
    {before after : List FileGroup} (parts : file.groups = before ++ inner :: after)
    (sameName : inner.name = inner'.name) {p : NodePath} (scope : Scope) (path : NodePath)
    (h : g.name = inner.name → KeptAll p allowed
      (g.check o scope (path.child "groups" g.name) inner)
      (g.check o scope (path.child "groups" g.name) inner')) :
    KeptAll p allowed (g.checkInner o scope path file)
      (g.checkInner o scope path { file with groups := before ++ inner' :: after }) := by
  have found := find?_name_replace_cases before after sameName g.name
  unfold checkInner FileGroup.groupNamed?
  rw [parts]
  rcases found with same | ⟨named, found, found'⟩
  · exact .of_eq (by rw [same])
  · rw [found, found']
    exact .cons _ (h named)

/-- The checks of a group of a file in which one attribute is stored in the other form. -/
theorem kept_check {place : NodePath} {file file' : FileGroup}
    (unwrapped : file.Unwrapped s place file') (g : Group) (scope : Scope) (path : NodePath)
    (h : SingleAt ((path, .group g) :: g.inside path) s.baseType (path ++ place) → allowed) :
    KeptAll (path ++ place) allowed (g.check o scope path file) (g.check o scope path file') := by
  -- The induction follows the groups of the file to the attribute.
  induction unwrapped generalizing g scope path with
  | own unwrapped =>
    have attributes := kept_checkAttributes (o := o) unwrapped
      (fun c mem named single => h ⟨_, List.mem_cons_self, c, mem, single, by rw [named]; rfl⟩) path
    rw [check_eq, check_eq]
    exact .append (.append (.append (.append (.append (.append attributes (.refl _)) (.refl _))
      (.refl _)) (.refl _)) (.refl _)) (.refl _)
  | @var file name before after stored attributes parts unwrapped =>
    have here : path ++ ["variables", stored.name, "attributes", name] =
        (path.child "variables" stored.name).child "attributes" name :=
      (List.append_assoc path ["variables", stored.name] ["attributes", name]).symm
    have names : (before ++ { stored with attributes } :: after).map FileVariable.name =
        file.vars.map FileVariable.name := by
      rw [parts, List.map_append, List.map_append]
      rfl
    rw [here] at h ⊢
    have vars : ∀ v ∈ g.vars, KeptAll ((path.child "variables" stored.name).child "attributes" name)
        allowed (v.check o (g.level file :: scope) path file)
        (v.check o (g.level file :: scope) path
          { file with vars := before ++ { stored with attributes } :: after }) := by
      intro v mem
      apply v.kept_check parts unwrapped
      intro named c isIn label single
      rw [← named, ← label] at h
      exact h (.of_var mem isIn single)
    rw [check_eq, check_eq, names]
    exact .append (.append (.append (.append (.refl _) (.flatMap vars)) (.refl _)) (.refl _))
      (.refl _)
  | @inside file inner inner' place before after parts unwrapped ih =>
    have here : path ++ "groups" :: inner.name :: place =
        path.child "groups" inner.name ++ place :=
      (List.append_assoc path ["groups", inner.name] place).symm
    have names : (before ++ inner' :: after).map FileGroup.name =
        file.groups.map FileGroup.name := by
      rw [parts, List.map_append, List.map_append, List.map_cons, List.map_cons,
        unwrapped.name_eq]
    rw [here] at h ⊢
    have groups : ∀ child ∈ g.groups, KeptAll (path.child "groups" inner.name ++ place) allowed
        (child.checkInner o (g.level file :: scope) path file)
        (child.checkInner o (g.level file :: scope) path
          { file with groups := before ++ inner' :: after }) := by
      intro child mem
      apply child.kept_checkInner parts unwrapped.name_eq
      intro named
      have known : SingleAt (child.branch path) s.baseType _ → allowed :=
        fun single => h (single.of_branch mem)
      rw [branch, named] at known
      rw [named]
      exact ih child _ _ known
    rw [check_eq_own, check_eq_own, names]
    exact .append (.append (.refl _) (.flatMap groups)) (.refl _)

/-- If an array with one element is stored as its element, each check of the file has the outcome
that it had. Only a finding about the attribute may be worded in another way, and it goes away only
if the dataset asks for a single value there; no literal and no placeholder of arrays tells the two
forms apart. -/
theorem validate_unwrapped (d : Dataset) (o : ValidationOptions) {s : Scalar} {place : NodePath}
    {file file' : DataFile} (unwrapped : file.Unwrapped s place file') :
    List.Forall₂ (Entry.Kept (NodePath.root ++ place)
        (SingleAt d.walk s.baseType (NodePath.root ++ place)))
        (d.validate o file).entries (d.validate o file').entries ∧
      (∀ l : Literal, l.matches (.array s.baseType [s]) = l.matches (.scalar s)) ∧
      ∀ p : Placeholder, p.isArray = true →
        AttributeValue.conformsTo p (.array s.baseType [s]) =
          AttributeValue.conformsTo p (.scalar s) := by
  refine ⟨?_, fun l => AttributeValue.matches_unwrapped l s, ?_⟩
  · unfold validate
    rw [Report.entries_ofEntries, Report.entries_ofEntries]
    apply kept_check unwrapped d [] NodePath.root
    rintro ⟨e, mem, c, single⟩
    rcases List.mem_cons.1 mem with rfl | inside
    · exact ⟨_, List.mem_cons_self, c, single⟩
    · exact ⟨e, List.mem_cons_of_mem _ inside, c, single⟩
  · intro p isArray
    rw [AttributeValue.conformsTo_unwrapped, isArray, Bool.true_and]

/-- A variable in a group that tells one number, for which a single value is asked. -/
def counted : Definition where
  shortName := none
  filePattern := none
  description := none
  canonicalName := none
  body :=
    ⟨.empty, [], [], [(⟨"profile", true, none⟩, ⟨.empty, [],
      [⟨"wind", "int8", true, none, [],
        ⟨[(.text "levels", .text "<int32: derived_from_file>")], by decide⟩⟩], []⟩)]⟩

def wind (levels : AttributeValue) : FileVariable :=
  ⟨"wind", .int8, [], .ofList [("levels", levels)]⟩

def windProfile (levels : AttributeValue) : FileGroup := ⟨"profile", ∅, [], [wind levels], []⟩

/-- A file for `counted`, with another group of the same name behind the profile. -/
def countedFile (levels : AttributeValue) : DataFile :=
  ⟨"counted", ∅, [], [], [windProfile levels, ⟨"profile", ∅, [], [], []⟩]⟩

def seven : Scalar := .integer .int32 7 (by decide)

theorem unwrapped_countedFile :
    (countedFile (.array .int32 [seven])).Unwrapped seven
      ["groups", "profile", "variables", "wind", "attributes", "levels"]
      (countedFile (.scalar seven)) := by
  have inner : (windProfile (.array .int32 [seven])).Unwrapped seven
      ["variables", "wind", "attributes", "levels"] (windProfile (.scalar seven)) :=
    .var [] [] (wind (.array .int32 [seven])) rfl ⟨rfl, rfl⟩
  exact .inside [] _ rfl inner

/-- The array is found to be of another type, and the value alone is not. -/
theorem validate_unwrapped_countedFile : ∃ d, counted.compileNamed "sounding" .empty = .ok d ∧
    (d.validate .standard (countedFile (.array .int32 [seven]))).isCompliant = false ∧
      (d.validate .standard (countedFile (.scalar seven))).isCompliant = true ∧
      List.Forall₂ (Entry.Kept
          ["root", "groups", "profile", "variables", "wind", "attributes", "levels"]
          (SingleAt d.walk .int32
            ["root", "groups", "profile", "variables", "wind", "attributes", "levels"]))
        (d.validate .standard (countedFile (.array .int32 [seven]))).entries
        (d.validate .standard (countedFile (.scalar seven))).entries :=
  ⟨_, rfl, rfl, rfl, (validate_unwrapped _ .standard unwrapped_countedFile).1⟩

end Group

end ProductSpec
