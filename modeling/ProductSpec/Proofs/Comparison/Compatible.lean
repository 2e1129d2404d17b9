/-
  Files under compatible changes. A file that fits an old dataset in every part need not fit a new
  one, although no change is breaking: an optional dimension may be gone from the group in which
  the file has it, and then the declaration of that name in a group around counts, whose size may
  be another one. Nothing else can be found.
-/
import ProductSpec.Proofs.Comparison.Harmless
import ProductSpec.Proofs.Definition.Shape
import ProductSpec.Proofs.NameMap
import ProductSpec.Proofs.Report.Entries

namespace ProductSpec

/-- A group that both datasets and the file have. -/
structure SharedLevel where
  old : Group
  new : Group
  stored : FileGroup

namespace SharedLevel

variable {levels : List SharedLevel} {name : String}

/-- The dimensions in scope for one of the datasets. -/
def scope (side : SharedLevel → Group) (levels : List SharedLevel) : Scope :=
  levels.map fun l => (side l).level l.stored

/-- The innermost group in which the file has a dimension. -/
def holder? (levels : List SharedLevel) (name : String) : Option (SharedLevel × FileDimension) :=
  levels.findSome? fun l => (l.stored.dimensionNamed? name).map fun d => (l, d)

/-- The dimension was optional where the file has it and is gone from there, and the nearest
declaration that is left wants another size. -/
def Displaced (levels : List SharedLevel) (name : String) : Prop :=
  ∃ l stored removed left, holder? levels name = some (l, stored) ∧
    removed ∈ l.old.dimensions ∧ removed.name = name ∧ removed.info.required = false ∧
    name ∉ l.new.dimensions.map Dimension.name ∧
    (scope new levels).declared? name = some left ∧ left.size.accepts stored.size = false

/-- What is known of a group once the file fits its old form and no change to it is breaking. -/
structure Sound (l : SharedLevel) : Prop where
  declared : l.stored.dimensions.map FileDimension.name ⊆ l.old.dimensions.map Dimension.name
  dimensions : Continues Dimension.name (fun d => d.info.required) Dimension.Agree
    l.old.dimensions l.new.dimensions

theorem present?_scope (side : SharedLevel → Group) (levels : List SharedLevel) (name : String) :
    (scope side levels).present? name =
      (holder? levels name).map fun h => ((side h.1).level h.1.stored, h.2) := by
  induction levels with
  | nil => rfl
  | cons l outer ih =>
    unfold scope holder? Scope.present? at *
    rw [List.map_cons, List.findSome?_cons, List.findSome?_cons, ih]
    have here : ((side l).level l.stored).present? name = l.stored.dimensionNamed? name := rfl
    rw [here]
    cases l.stored.dimensionNamed? name <;> rfl

/-- The dimension is one of the group that holds it. -/
theorem of_holder? {l : SharedLevel} {stored : FileDimension}
    (h : holder? levels name = some (l, stored)) :
    l ∈ levels ∧ name ∈ l.stored.dimensions.map FileDimension.name := by
  obtain ⟨l', mem, found⟩ := List.exists_of_findSome?_eq_some h
  obtain ⟨d, isStored, made⟩ := Option.map_eq_some_iff.1 found
  cases made
  obtain ⟨isIn, rfl⟩ := of_find?_name isStored
  exact ⟨mem, List.mem_map_of_mem isIn⟩

/-- Where the old dataset finds no fault in a dimension, the new one does only if the dimension is
displaced. -/
theorem fault?_iff (sound : ∀ l ∈ levels, l.Sound)
    (faultless : (scope old levels).fault? name = none) :
    (∃ fault, (scope new levels).fault? name = some fault) ↔ Displaced levels name := by
  unfold Scope.fault? at *
  rw [present?_scope] at *
  unfold Displaced
  cases held : holder? levels name with
  | none =>
    rw [held] at faultless
    cases faultless
  | some h =>
    obtain ⟨l, stored⟩ := h
    obtain ⟨mem, isStored⟩ := of_holder? held
    obtain ⟨declared, dimensions⟩ := sound l mem
    obtain ⟨d, isOld, same⟩ := List.mem_map.1 (declared isStored)
    rw [Option.map_some]
    dsimp only
    have isDeclared : ((l.new.level l.stored).declared? name).isSome = true ↔
        name ∈ l.new.dimensions.map Dimension.name := isSome_find?_name
    split
    · next kept =>
      refine ⟨nofun, ?_⟩
      rintro ⟨l', stored', removed, left, isHeld, -, -, -, gone, -⟩
      cases isHeld
      exact absurd (isDeclared.1 kept) gone
    · next gone =>
      rw [isDeclared] at gone
      have optional : d.info.required = false := dimensions.removed d isOld (same ▸ gone)
      cases found : (scope new levels).declared? name with
      | none =>
        refine ⟨nofun, ?_⟩
        rintro ⟨l', stored', removed, left, -, -, -, -, -, isLeft, -⟩
        cases isLeft
      | some left =>
        dsimp only
        cases accepts : left.size.accepts stored.size with
        | true =>
          refine ⟨nofun, ?_⟩
          rintro ⟨l', stored', removed, left', isHeld, -, -, -, -, isLeft, rejects⟩
          cases isHeld
          cases isLeft
          rw [rejects] at accepts
          cases accepts
        | false =>
          exact ⟨fun _ => ⟨l, stored, d, left, rfl, isOld, same, optional, gone, rfl, accepts⟩,
            fun _ => ⟨_, rfl⟩⟩

end SharedLevel

/-- From a group that is shared, the uses of displaced dimensions in it and in the groups inside it
that are shared as well. -/
inductive UsesDisplaced : NodePath → List SharedLevel → NodePath → Prop
  | here {path : NodePath} {l : SharedLevel} {outer : List SharedLevel} {v : Variable}
      {stored : FileVariable} {name : String} :
      v ∈ l.new.vars → l.stored.variableNamed? v.name = some stored → name ∈ v.dimensions →
      SharedLevel.Displaced (l :: outer) name →
      UsesDisplaced path (l :: outer) ((path.child "variables" v.name).child "dimensions" name)
  | inside {path p : NodePath} {l : SharedLevel} {outer : List SharedLevel} {o n : Group}
      {stored : FileGroup} :
      o ∈ l.old.groups → n ∈ l.new.groups → n.name = o.name →
      l.stored.groupNamed? n.name = some stored →
      UsesDisplaced (path.child "groups" n.name) (⟨o, n, stored⟩ :: l :: outer) p →
      UsesDisplaced path (l :: outer) p

/-- The checks find a dimension that differs at each of the places, and nothing else. -/
structure FindsAt (entries : List Entry) (Place : NodePath → Prop) : Prop where
  only : ∀ d, .finding d ∈ entries →
    d.severity = .error ∧ d.category = .dimensionMismatch ∧ Place d.path
  each : ∀ p, Place p → ∃ d, .finding d ∈ entries ∧ d.path = p

namespace FindsAt

variable {entries others : List Entry} {Place Other : NodePath → Prop}

theorem of_silent (h : Silent entries) : FindsAt entries fun _ => False :=
  ⟨fun d mem => absurd mem (h d), nofun⟩

theorem congr (h : FindsAt entries Place) (same : ∀ p, Place p ↔ Other p) :
    FindsAt entries Other :=
  funext (fun p => propext (same p)) ▸ h

theorem append (h : FindsAt entries Place) (h' : FindsAt others Other) :
    FindsAt (entries ++ others) fun p => Place p ∨ Other p := by
  constructor
  · intro d mem
    rcases List.mem_append.1 mem with mem | mem
    · exact (h.only d mem).imp_right fun ⟨category, here⟩ => ⟨category, .inl here⟩
    · exact (h'.only d mem).imp_right fun ⟨category, here⟩ => ⟨category, .inr here⟩
  · rintro p (here | here)
    · obtain ⟨d, mem, same⟩ := h.each p here
      exact ⟨d, List.mem_append_left _ mem, same⟩
    · obtain ⟨d, mem, same⟩ := h'.each p here
      exact ⟨d, List.mem_append_right _ mem, same⟩

theorem append_silent (h : FindsAt entries Place) (silent : Silent others) :
    FindsAt (entries ++ others) Place :=
  (h.append (of_silent silent)).congr fun p => iff_of_eq (or_false (Place p))

theorem silent_append (silent : Silent entries) (h : FindsAt others Place) :
    FindsAt (entries ++ others) Place :=
  ((of_silent silent).append h).congr fun p => iff_of_eq (false_or (Place p))

theorem flatMap {α : Type} {items : List α} {checks : α → List Entry}
    {places : α → NodePath → Prop} (h : ∀ x ∈ items, FindsAt (checks x) (places x)) :
    FindsAt (items.flatMap checks) fun p => ∃ x ∈ items, places x p := by
  constructor
  · intro d mem
    obtain ⟨x, isIn, mem⟩ := List.mem_flatMap.1 mem
    exact ((h x isIn).only d mem).imp_right fun ⟨category, here⟩ => ⟨category, x, isIn, here⟩
  · rintro p ⟨x, isIn, here⟩
    obtain ⟨d, mem, same⟩ := (h x isIn).each p here
    exact ⟨d, List.mem_flatMap.2 ⟨x, isIn, mem⟩, same⟩

end FindsAt

section Parts

open SharedLevel

variable {levels : List SharedLevel}

/-- What is found in a variable that both datasets and the file have. -/
theorem Variable.finds_checkSelf {old new : Variable} (agree : old.Agree new)
    (sound : ∀ l ∈ levels, l.Sound) {actual : FileVariable}
    (fits : old.AcceptsSelf (scope SharedLevel.old levels) actual) (path : NodePath) :
    FindsAt (new.checkSelf .standard (scope SharedLevel.new levels) path actual) fun p =>
      ∃ name ∈ new.dimensions, Displaced levels name ∧ p = path.child "dimensions" name := by
  have sameType : actual.dataType = new.dataType := fits.dataType.trans agree.dataType
  have sameDimensions : actual.dimensions = new.dimensions := fits.dimensions.trans agree.dimensions
  have displaced : ∀ name ∈ new.dimensions,
      ((∃ fault, (scope SharedLevel.new levels).fault? name = some fault) ↔
        Displaced levels name) := fun name used =>
    fault?_iff sound (fits.faultless name (agree.dimensions ▸ used))
  unfold checkSelf
  rw [beq_iff_eq.2 sameType, beq_iff_eq.2 sameDimensions]
  refine FindsAt.append_silent ⟨?_, ?_⟩ ?_
  · intro d mem
    obtain ⟨⟨name, fault⟩, isFault, made⟩ := List.mem_map.1 mem
    cases made
    obtain ⟨used, -, found⟩ := mem_dimensionFaults_iff.1 isFault
    exact ⟨rfl, rfl, name, used, (displaced name used).1 ⟨fault, found⟩, rfl⟩
  · rintro p ⟨name, used, isDisplaced, rfl⟩
    obtain ⟨fault, found⟩ := (displaced name used).2 isDisplaced
    have isFault := mem_dimensionFaults_iff.2 ⟨used, sameDimensions ▸ used, found⟩
    exact ⟨_, List.mem_map_of_mem isFault, rfl⟩
  · split
    · exact silent_pass path
    · exact silent_nil

/-- Attributes that fit the old constraints fit the new ones. -/
theorem silent_attributes {old new : List AttributeConstraint}
    (continues : Continues AttributeConstraint.name AttributeConstraint.isRequired
      AttributeConstraint.Agree old new)
    {o : ValidationOptions} (strict : o.allowUnknown = false) {path : NodePath}
    {actual : NameMap AttributeValue} (fits : Silent (checkAttributes o path old actual)) :
    Silent (checkAttributes .standard path new actual) := by
  rw [silent_checkAttributes, strict] at *
  obtain ⟨accepted, known⟩ := fits
  replace known := known.resolve_left Bool.false_ne_true
  refine ⟨fun n isNew => ?_, .inl rfl⟩
  have absent : ∀ label, label ∉ old.map AttributeConstraint.name → actual.get? label = none :=
    fun label fresh => NameMap.get?_eq_none fun stored => fresh (known stored)
  rcases continues.cases absent isNew with ⟨o', isOld, same, agree⟩ | ⟨optional, absent⟩
  · exact same ▸ agree.accepts (accepted o' isOld)
  · rw [absent]
    exact optional

/-- Dimensions that fit the old declarations fit the new ones. -/
theorem accepts_dimensions {old new : List Dimension}
    (continues : Continues Dimension.name (fun d => d.info.required) Dimension.Agree old new)
    {file : FileGroup}
    (known : file.dimensions.map FileDimension.name ⊆ old.map Dimension.name)
    (accepted : ∀ d ∈ old, d.Accepts (file.dimensionNamed? d.name)) :
    ∀ d ∈ new, d.Accepts (file.dimensionNamed? d.name) := by
  intro n isNew
  have absent : ∀ label, label ∉ old.map Dimension.name → file.dimensionNamed? label = none :=
    fun label fresh => find?_name_eq_none fun stored => fresh (known stored)
  rcases continues.cases absent isNew with ⟨d, isOld, same, agree⟩ | ⟨optional, absent⟩
  · exact same ▸ agree.accepts (accepted d isOld)
  · rw [absent]
    exact optional

/-- What is found in a variable of the new dataset. -/
theorem Variable.finds_check {old new : List Variable} {l : SharedLevel}
    {outer : List SharedLevel}
    (continues : Continues Variable.name (fun v => v.info.required) Variable.Agree old new)
    (sound : ∀ l' ∈ l :: outer, l'.Sound) {o : ValidationOptions} (strict : o.allowUnknown = false)
    (known : l.stored.vars.map FileVariable.name ⊆ old.map Variable.name) {path : NodePath}
    (fits : ∀ v ∈ old, Silent (v.check o (scope SharedLevel.old (l :: outer)) path l.stored))
    {v : Variable} (isNew : v ∈ new) :
    FindsAt (v.check .standard (scope SharedLevel.new (l :: outer)) path l.stored) fun p =>
      ∃ stored name, l.stored.variableNamed? v.name = some stored ∧ name ∈ v.dimensions ∧
        Displaced (l :: outer) name ∧
        p = (path.child "variables" v.name).child "dimensions" name := by
  have absent : ∀ label, label ∉ old.map Variable.name → l.stored.variableNamed? label = none :=
    fun label fresh => find?_name_eq_none fun stored => fresh (known stored)
  unfold check at *
  rcases continues.cases absent isNew with ⟨v', isOld, same, agree⟩ | ⟨optional, absent⟩
  · have silent := fits v' isOld
    rw [same] at silent
    cases stored : l.stored.variableNamed? v.name with
    | none =>
      rw [stored] at silent
      have optional := agree.required.symm.trans (silent_absent.1 silent)
      exact (FindsAt.of_silent (silent_absent.2 optional)).congr fun p =>
        ⟨nofun, by rintro ⟨_, _, found, -⟩; cases found⟩
    | some actual =>
      rw [stored] at silent
      obtain ⟨self, attributes⟩ := silent_append.1 silent
      have found := (finds_checkSelf agree sound (silent_checkSelf.1 self)
        (path.child "variables" v.name)).append_silent
          (silent_attributes agree.attributes strict attributes)
      refine found.congr fun p => ⟨?_, ?_⟩
      · rintro ⟨name, used, displaced, here⟩
        exact ⟨actual, name, rfl, used, displaced, here⟩
      · rintro ⟨-, name, -, used, displaced, here⟩
        exact ⟨name, used, displaced, here⟩
  · rw [absent]
    exact (FindsAt.of_silent (silent_absent.2 optional)).congr fun p =>
      ⟨nofun, by rintro ⟨_, _, found, -⟩; cases found⟩

namespace Group

/-- What is found in a group of the new dataset inside a shared one, given what is found in those
that are shared. -/
theorem finds_checkInner {l : SharedLevel} {outer : List SharedLevel} {names : List String}
    {path : NodePath} (wf : l.old.WellFormed names)
    (compatible : Compatible path l.old l.new) {o : ValidationOptions}
    (known : l.stored.groups.map FileGroup.name ⊆ l.old.groups.map Group.name)
    (fits : ∀ g ∈ l.old.groups,
      Silent (g.checkInner o (scope SharedLevel.old (l :: outer)) path l.stored))
    {n : Group} (isNew : n ∈ l.new.groups)
    (inside : ∀ old ∈ l.old.groups, ∀ inner, old.name = n.name →
      Harmless (changes (path.child "groups" n.name) n old) →
      Silent (old.check o (scope SharedLevel.old (l :: outer)) (path.child "groups" n.name) inner) →
      FindsAt (n.check .standard (scope SharedLevel.new (l :: outer)) (path.child "groups" n.name)
        inner) (UsesDisplaced (path.child "groups" n.name) (⟨old, n, inner⟩ :: l :: outer))) :
    FindsAt (n.checkInner .standard (scope SharedLevel.new (l :: outer)) path l.stored) fun p =>
      ∃ old ∈ l.old.groups, n.name = old.name ∧ ∃ inner, l.stored.groupNamed? n.name = some inner ∧
        UsesDisplaced (path.child "groups" n.name) (⟨old, n, inner⟩ :: l :: outer) p := by
  have absent : ∀ label, label ∉ l.old.groups.map Group.name →
      l.stored.groupNamed? label = none :=
    fun label fresh => find?_name_eq_none fun stored => fresh (known stored)
  unfold checkInner at *
  rcases compatible.groups.cases absent isNew with
    ⟨old, isOld, same, required, harmless⟩ | ⟨optional, absent⟩
  · have silent := fits old isOld
    rw [same] at silent harmless
    cases stored : l.stored.groupNamed? n.name with
    | none =>
      rw [stored] at silent
      have optional := required.symm.trans (silent_absent.1 silent)
      exact (FindsAt.of_silent (silent_absent.2 optional)).congr fun p =>
        ⟨nofun, by rintro ⟨_, _, _, _, found, -⟩; cases found⟩
    | some inner =>
      rw [stored] at silent
      have below : Silent (old.check o _ (path.child "groups" n.name) inner) :=
        fun d mem => silent d (List.mem_cons_of_mem _ mem)
      have found := inside old isOld inner same harmless below
      refine (found.silent_append (silent_pass (path.child "groups" n.name))).congr
        fun p => ⟨?_, ?_⟩
      · intro here
        exact ⟨old, isOld, same.symm, inner, rfl, here⟩
      · rintro ⟨old', isOld', same', inner', isInner, here⟩
        cases isInner
        obtain rfl : old' = old :=
          List.inj_on_of_nodup_map wf.groups.distinct isOld' isOld (same'.symm.trans same.symm)
        exact here
  · rw [absent]
    exact (FindsAt.of_silent (silent_absent.2 optional)).congr fun p =>
      ⟨nofun, by rintro ⟨_, _, _, _, found, -⟩; cases found⟩

/-- What is found in a group that both datasets and the file have. -/
theorem finds_check {old new : Group} {names names' : List String} (wf : old.WellFormed names)
    (wf' : new.WellFormed names') {path : NodePath} (harmless : Harmless (changes path new old))
    (sound : ∀ l ∈ levels, l.Sound) {o : ValidationOptions} (strict : o.allowUnknown = false)
    {stored : FileGroup}
    (fits : Silent (old.check o (scope SharedLevel.old levels) path stored)) :
    FindsAt (new.check .standard (scope SharedLevel.new levels) path stored)
      (UsesDisplaced path (⟨old, new, stored⟩ :: levels)) := by
  induction new using induction generalizing old names names' path levels stored with
  | step new ih =>
    have compatible := compatible_of_harmless wf' harmless
    obtain ⟨attributes, dimensions, vars, groups, known⟩ := silent_check.1 fits
    rw [strict] at known
    obtain ⟨dimensionsKnown, varsKnown, groupsKnown⟩ := known.resolve_left Bool.false_ne_true
    have soundHere : ∀ l ∈ (⟨old, new, stored⟩ : SharedLevel) :: levels, l.Sound :=
      List.forall_mem_cons.2 ⟨⟨dimensionsKnown, compatible.dimensions⟩, sound⟩
    have quietAttributes := silent_attributes compatible.attributes strict attributes
    have quietDimensions : Silent (new.dimensions.flatMap fun d =>
        d.check .standard path stored) := by
      rw [silent_flatMap]
      intro d isNew
      exact Dimension.silent_check.2
        (accepts_dimensions compatible.dimensions dimensionsKnown dimensions d isNew)
    have foundVars := FindsAt.flatMap fun v isNew =>
      Variable.finds_check (l := ⟨old, new, stored⟩) compatible.vars soundHere strict varsKnown vars
        isNew
    have foundGroups := FindsAt.flatMap fun n isNew =>
      finds_checkInner (l := ⟨old, new, stored⟩) wf compatible groupsKnown groups isNew
        fun old' isOld inner _ harmless fits =>
          ih n isNew (wf.inner isOld) (wf'.inner isNew) harmless soundHere fits
    have allowed : ∀ kind names declared,
        ValidationOptions.standard.unknown path kind names declared = [] := fun _ _ _ => rfl
    have found := (((FindsAt.of_silent quietAttributes).append_silent quietDimensions).append
      foundVars).append foundGroups
    rw [check_eq, allowed, allowed, allowed, List.append_nil, List.append_nil, List.append_nil]
    refine found.congr fun p => ⟨?_, fun here => ?_⟩
    · rintro ((never | ⟨v, isNew, actual, name, found, used, displaced, rfl⟩) |
        ⟨n, isNew, old', isOld, same, inner, found, here⟩)
      · exact never.elim
      · exact .here isNew found used displaced
      · exact .inside isOld isNew same found here
    · cases here with
      | here isNew found used displaced =>
        exact .inl (.inr ⟨_, isNew, _, _, found, used, displaced, rfl⟩)
      | inside isOld isNew same found here =>
        exact .inr ⟨_, isNew, _, isOld, same, _, found, here⟩

end Group

end Parts

namespace Group

/-- The uses of displaced dimensions in a file. -/
def DisplacedIn (old new : Dataset) (file : DataFile) : NodePath → Prop :=
  UsesDisplaced NodePath.root [⟨old, new, file⟩]

end Group

namespace Definition

/-- A file that fits an old dataset is checked against a new one without breaking changes. What is
found is the use of each displaced dimension, and the file is compliant if there is none. -/
theorem validate_of_compatible (d d' : Definition) (name name' : String)
    (defaults defaults' : Defaults) {old new : Dataset}
    (compiled : d.compileNamed name defaults = .ok old)
    (compiled' : d'.compileNamed name' defaults' = .ok new)
    (compatible : (old.compare false new).isCompatible = true) (file : DataFile)
    (fits : (old.validate ⟨false, .standard⟩ file).diagnostics = []) :
    ((new.validate .standard file).isCompliant = true ↔ ∀ p, ¬ old.DisplacedIn new file p) ∧
      (∀ x ∈ (new.validate .standard file).diagnostics,
        x.category = .dimensionMismatch ∧ old.DisplacedIn new file x.path) ∧
      ∀ p, old.DisplacedIn new file p →
        ∃ x ∈ (new.validate .standard file).diagnostics, x.path = p := by
  have wf : old.WellFormed [] := (Section.of_compile d.body compiled).2.2
  have wf' : new.WellFormed [] := (Section.of_compile d'.body compiled').2.2
  have harmless := (harmless_append.1 (harmless_of_isCompatible compatible)).2
  have sound : ∀ l ∈ ([] : List SharedLevel), l.Sound := nofun
  have finds : FindsAt (new.check .standard [] NodePath.root file) (old.DisplacedIn new file) :=
    Group.finds_check wf wf' harmless sound rfl (Group.silent_of_validate fits)
  have only : ∀ x ∈ (new.validate .standard file).diagnostics, x.severity = .error ∧
      x.category = .dimensionMismatch ∧ old.DisplacedIn new file x.path :=
    fun x mem => finds.only x (Report.mem_diagnostics.1 mem)
  have each : ∀ p, old.DisplacedIn new file p →
      ∃ x ∈ (new.validate .standard file).diagnostics, x.path = p := by
    intro p here
    obtain ⟨x, mem, same⟩ := finds.each p here
    exact ⟨x, Report.mem_diagnostics.2 mem, same⟩
  refine ⟨?_, fun x mem => (only x mem).2, each⟩
  unfold Report.isCompliant Report.errors
  rw [List.isEmpty_iff, List.filter_eq_nil_iff]
  constructor
  · intro noError p here
    obtain ⟨x, mem, -⟩ := each p here
    exact noError x mem (beq_iff_eq.2 (only x mem).1)
  · intro nowhere x mem _
    exact nowhere x.path (only x mem).2.2

/-- `localTime` without the optional dimension of the group. -/
def sharedTime : Definition where
  shortName := none
  filePattern := none
  description := none
  canonicalName := none
  body :=
    ⟨.empty, [⟨"time", some 10, true, none⟩], [],
      [(⟨"profile", true, none⟩, ⟨.empty, [],
        [⟨"wind", "float32", true, none, ["time"], .empty⟩], []⟩)]⟩

def fiveTimes : DataFile :=
  ⟨"five", ∅, [⟨"time", 10, false⟩], [],
    [⟨"profile", ∅, [⟨"time", 5, false⟩], [⟨"wind", .float32, ["time"], ∅⟩], []⟩]⟩

theorem validate_of_compatible_fiveTimes : ∃ old new,
    localTime.compileNamed "sounding" .empty = .ok old ∧
      sharedTime.compileNamed "sounding" .empty = .ok new ∧
      (old.compare false new).isCompatible = true ∧
      (old.validate ⟨false, .standard⟩ fiveTimes).diagnostics = [] ∧
      (new.validate .standard fiveTimes).isCompliant = false ∧
      old.DisplacedIn new fiveTimes
        ["root", "groups", "profile", "variables", "wind", "dimensions", "time"] :=
  ⟨_, _, rfl, rfl, rfl, rfl, rfl,
    ((validate_of_compatible localTime sharedTime "sounding" "sounding" .empty .empty rfl rfl rfl
      fiveTimes rfl).2.1 _ List.mem_cons_self).2⟩

end Definition

end ProductSpec
