/-
  What the options of a validation change. The checks that are made do not depend on them: the
  policy only sets the severity of each finding, and allowing unknown parts only leaves out what
  is found about these.
-/
import ProductSpec.Proofs.Report.Entries
import ProductSpec.Proofs.Validation.Parts

namespace ProductSpec

/-- The diagnostic with the severity that a policy gives to its category. -/
def Diagnostic.judged (policy : SeverityPolicy) (d : Diagnostic) : Diagnostic :=
  { d with severity := policy.severity d.category }

namespace Entry

def judged (policy : SeverityPolicy) : Entry → Entry
  | pass path => pass path
  | finding d => finding (d.judged policy)

/-- Whether the outcome is a part that the dataset does not name. -/
def isUnknown : Entry → Bool
  | pass _ => false
  | finding d => d.category == .unknownElement

theorem judged_judged (policy other : SeverityPolicy) (e : Entry) :
    (e.judged other).judged policy = e.judged policy := by
  cases e <;> rfl

theorem isUnknown_judged (policy : SeverityPolicy) (e : Entry) :
    (e.judged policy).isUnknown = e.isUnknown := by
  cases e <;> rfl

end Entry

namespace Report

/-- The report with the severities of a policy. -/
def judged (policy : SeverityPolicy) (r : Report) : Report :=
  { r with diagnostics := r.diagnostics.map (Diagnostic.judged policy) }

/-- The report of the outcomes without those about unknown parts. -/
def known (r : Report) : Report := .ofEntries (r.entries.filter fun e => !e.isUnknown)

theorem ofEntries_map_judged (policy : SeverityPolicy) (entries : List Entry) :
    ofEntries (entries.map (Entry.judged policy)) = (ofEntries entries).judged policy := by
  induction entries using List.reverseRecOn with
  | nil => rfl
  | append_singleton entries e ih =>
    rw [List.map_append, List.map_singleton, ofEntries_concat, ofEntries_concat, ih]
    cases e with
    | pass path => simp [Entry.judged, add, pass, judged]
    | finding d => simp [Entry.judged, add, push, judged]

end Report

/-- The paths of the names that are not declared, one for each time that a name occurs. -/
def NodePath.undeclared (path : NodePath) (kind : String) (names declared : List String) :
    List NodePath :=
  (names.filter fun name => name ∉ declared).map (path.child kind)

namespace ValidationOptions

/-- What is found about a part that a dataset does not name. -/
def notInDefinition (o : ValidationOptions) (path : NodePath) : Entry :=
  o.finding .unknownElement path "not in definition" none

/-- The options that report every part that a dataset does not name. -/
def strict (policy : SeverityPolicy) : ValidationOptions := ⟨false, policy⟩

/-- What is shown of the outcomes of checks. -/
def present (o : ValidationOptions) (entries : List Entry) : List Entry :=
  (entries.filter fun e => !(o.allowUnknown && e.isUnknown)).map (Entry.judged o.policy)

variable {o : ValidationOptions} {p : SeverityPolicy}

@[simp] theorem present_nil : o.present [] = [] := rfl

@[simp] theorem present_append (entries others : List Entry) :
    o.present (entries ++ others) = o.present entries ++ o.present others := by
  rw [present, List.filter_append, List.map_append]
  rfl

theorem present_flatMap {α : Type} (items : List α) (checks : α → List Entry) :
    o.present (items.flatMap checks) = items.flatMap fun x => o.present (checks x) := by
  induction items with
  | nil => rfl
  | cons x rest ih => rw [List.flatMap_cons, present_append, ih, List.flatMap_cons]

@[simp] theorem present_pass (path : NodePath) (entries : List Entry) :
    o.present (.pass path :: entries) = .pass path :: o.present entries := by
  simp [present, Entry.isUnknown, Entry.judged]

/-- A finding about a part that the dataset names is always shown. -/
theorem present_finding (category : Category) (declared : category ≠ .unknownElement)
    (path : NodePath) (message : String) (constraint : Option String) :
    o.present [(strict p).finding category path message constraint] =
      [o.finding category path message constraint] := by
  simp [present, finding, Entry.isUnknown, declared, Entry.judged, Diagnostic.judged]

/-- A check of a part that the dataset names, which passes or finds one thing. -/
theorem present_check {met : Prop} [Decidable met] (entries : List Entry) (category : Category)
    (declared : category ≠ .unknownElement) (path : NodePath) (message : String)
    (constraint : Option String) :
    o.present (if met then entries
        else [(strict p).finding category path message constraint]) =
      if met then o.present entries else [o.finding category path message constraint] := by
  rw [apply_ite o.present, present_finding category declared]

theorem present_single {met : Prop} [Decidable met] (category : Category)
    (declared : category ≠ .unknownElement) (path : NodePath) (message : String)
    (constraint : Option String) :
    o.present [if met then .pass path
        else (strict p).finding category path message constraint] =
      [if met then .pass path else o.finding category path message constraint] := by
  split
  · exact present_pass path []
  · exact present_finding category declared path message constraint

theorem present_absent (isRequired : Bool) (path : NodePath) :
    o.present ((strict p).absent isRequired path) = o.absent isRequired path := by
  unfold absent
  split
  · exact present_finding .missing nofun path _ _
  · rfl

theorem unknown_eq (reported : o.allowUnknown = false) (path : NodePath) (kind : String)
    (names declared : List String) :
    o.unknown path kind names declared =
      (path.undeclared kind names declared).map o.notInDefinition := by
  rw [unknown, if_neg (by simp [reported]), NodePath.undeclared, List.map_map]
  rfl

theorem isUnknown_of_mem_unknown {path : NodePath} {kind : String} {names declared : List String}
    {e : Entry} (h : e ∈ o.unknown path kind names declared) : e.isUnknown = true := by
  unfold unknown at h
  split at h
  · cases h
  · obtain ⟨name, -, rfl⟩ := List.mem_map.1 h
    rfl

/-- Parts that the dataset does not name are shown unless they are allowed. -/
theorem present_unknown (path : NodePath) (kind : String) (names declared : List String) :
    o.present ((strict p).unknown path kind names declared) =
      o.unknown path kind names declared := by
  unfold present
  cases allowed : o.allowUnknown with
  | true =>
    rw [List.filter_eq_nil_iff.2 fun e mem => by simp [isUnknown_of_mem_unknown mem], unknown,
      if_pos allowed]
    rfl
  | false =>
    simp only [Bool.false_and, Bool.not_false, List.filter_true]
    rw [unknown_eq allowed, unknown_eq rfl, List.map_map]
    rfl

end ValidationOptions

open ValidationOptions

section

variable (o : ValidationOptions) (p : SeverityPolicy)

theorem AttributeConstraint.check_eq_present (c : AttributeConstraint) (path : NodePath)
    (actual : NameMap AttributeValue) :
    c.check o path actual = o.present (c.check (strict p) path actual) := by
  unfold check checkValue
  cases actual.get? c.name with
  | none =>
    dsimp only
    split
    · exact (present_finding .missing nofun _ _ _).symm
    · rfl
  | some value =>
    cases c.kind with
    | literal l => exact (present_single .valueMismatch nofun _ _ _).symm
    | placeholder q => exact (present_single .typeMismatch nofun _ _ _).symm

theorem checkAttributes_eq_present (path : NodePath) (constraints : List AttributeConstraint)
    (actual : NameMap AttributeValue) :
    checkAttributes o path constraints actual =
      o.present (checkAttributes (strict p) path constraints actual) := by
  unfold checkAttributes
  rw [present_append, present_flatMap, present_unknown]
  congr 2
  funext c
  exact c.check_eq_present o p path actual

theorem Dimension.check_eq_present (d : Dimension) (path : NodePath) (file : FileGroup) :
    d.check o path file = o.present (d.check (strict p) path file) := by
  unfold check
  cases file.dimensionNamed? d.name with
  | none => exact (present_absent _ _).symm
  | some actual =>
    dsimp only
    rw [present_check _ .dimensionMismatch nofun, present_pass, present_nil]

namespace Variable

theorem checkSelf_eq_present (v : Variable) (scope : Scope) (path : NodePath)
    (actual : FileVariable) :
    v.checkSelf o scope path actual = o.present (v.checkSelf (strict p) scope path actual) := by
  unfold checkSelf
  dsimp only
  rw [present_append, present_append, present_append, present_check _ .dataTypeMismatch nofun,
    present_check _ .dimensionMismatch nofun, apply_ite o.present, present_pass, present_nil,
    List.map_eq_flatMap, List.map_eq_flatMap, present_flatMap]
  refine congrArg (· ++ _) (congrArg (_ ++ ·) (List.flatMap_congr fun fault _ => ?_))
  exact (present_finding .dimensionMismatch nofun _ _ _).symm

theorem check_eq_present (v : Variable) (scope : Scope) (path : NodePath) (file : FileGroup) :
    v.check o scope path file = o.present (v.check (strict p) scope path file) := by
  unfold check
  cases file.variableNamed? v.name with
  | none => exact (present_absent _ _).symm
  | some actual =>
    dsimp only
    rw [checkStored, checkStored, present_append, ← checkSelf_eq_present,
      ← checkAttributes_eq_present]

end Variable

/-- Whatever the options are, the same checks are made. -/
theorem Group.check_eq_present (g : Group) (scope : Scope) (path : NodePath) (file : FileGroup) :
    g.check o scope path file = o.present (g.check (strict p) scope path file) := by
  induction g using induction generalizing scope path file with
  | step g ih =>
    have inner : ∀ h ∈ g.groups, h.checkInner o (g.level file :: scope) path file =
        o.present (h.checkInner (strict p) (g.level file :: scope) path file) := by
      intro h mem
      unfold checkInner
      cases file.groupNamed? h.name with
      | none => exact (present_absent _ _).symm
      | some actual =>
        dsimp only
        rw [present_pass, ← ih h mem]
    have groups := List.flatMap_congr inner
    rw [check_eq, check_eq]
    simp only [present_append, present_flatMap, present_unknown, groups,
      ← checkAttributes_eq_present o p, ← Dimension.check_eq_present o p,
      ← Variable.check_eq_present o p]

end

namespace Group

variable (d : Dataset) (file : DataFile)

theorem check_judged (allowed : Bool) (policy other : SeverityPolicy) :
    d.check ⟨allowed, policy⟩ [] NodePath.root file =
      (d.check ⟨allowed, other⟩ [] NodePath.root file).map (Entry.judged policy) := by
  rw [d.check_eq_present ⟨allowed, policy⟩ policy, d.check_eq_present ⟨allowed, other⟩ policy]
  unfold present
  rw [List.map_map]
  congr 1
  funext e
  exact (e.judged_judged policy other).symm

/-- Each finding has the severity of its category. -/
theorem severity_of_mem_validate {o : ValidationOptions} {f : Diagnostic}
    (h : f ∈ (d.validate o file).diagnostics) : f.severity = o.policy.severity f.category := by
  rw [validate, Report.mem_diagnostics, d.check_eq_present o o.policy] at h
  obtain ⟨e, -, same⟩ := List.mem_map.1 h
  cases e with
  | pass path => cases same
  | finding f' =>
    cases same
    rfl

/-- Another policy changes nothing but severities. -/
theorem validate_judged (allowed : Bool) (policy other : SeverityPolicy) :
    d.validate ⟨allowed, policy⟩ file = (d.validate ⟨allowed, other⟩ file).judged policy := by
  rw [validate, check_judged d file allowed policy other, Report.ofEntries_map_judged]
  rfl

/-- Allowing unknown parts leaves out what is found about them, and nothing else. -/
theorem validate_known (policy : SeverityPolicy) :
    d.validate ⟨true, policy⟩ file = (d.validate ⟨false, policy⟩ file).known := by
  have kept : d.check ⟨true, policy⟩ [] NodePath.root file =
      (d.check ⟨false, policy⟩ [] NodePath.root file).filter fun e => !e.isUnknown := by
    rw [d.check_eq_present ⟨true, policy⟩ policy, d.check_eq_present ⟨false, policy⟩ policy]
    unfold present
    simp only [Bool.true_and, Bool.false_and, Bool.not_false, List.filter_true, List.filter_map,
      Function.comp_def, Entry.isUnknown_judged]
  rw [validate, kept, Report.known, validate, Report.entries_ofEntries]

end Group

end ProductSpec
