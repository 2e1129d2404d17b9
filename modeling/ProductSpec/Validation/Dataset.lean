/-
  Checking a file against a dataset. The dataset leads: each of its groups that the file has is
  checked attributes first, then dimensions, variables and groups, each in declaration order, and
  after each kind come the parts of the file that are not declared. Nothing here fails: what is
  wrong becomes part of the report.
-/
import ProductSpec.Validation.Attribute
import ProductSpec.Validation.Scope

namespace ProductSpec

namespace Dimension

def check (d : Dimension) (o : ValidationOptions) (path : NodePath) (file : FileGroup) :
    List Entry :=
  let here := path.child "dimensions" d.name
  match file.dimensionNamed? d.name with
  | none => o.absent d.info.required here
  | some actual =>
    if d.size.accepts actual.size then [.pass here]
    else [o.finding .dimensionMismatch here (d.size.mismatch actual.size) d.size.text]

end Dimension

namespace Variable

/-- The faults of the dimensions that a stored variable has and should have. -/
def dimensionFaults (v : Variable) (scope : Scope) (actual : FileVariable) :
    List (String × DimensionFault) :=
  (v.dimensions.filter fun name => name ∈ actual.dimensions).filterMap fun name =>
    (scope.fault? name).map fun fault => (name, fault)

/-- The checks of a stored variable, its attributes apart. It passes as one check. -/
def checkSelf (v : Variable) (o : ValidationOptions) (scope : Scope) (path : NodePath)
    (actual : FileVariable) : List Entry :=
  let sameType := actual.dataType == v.dataType
  let sameDimensions := actual.dimensions == v.dimensions
  let faults := v.dimensionFaults scope actual
  (if sameType then []
    else [o.finding .dataTypeMismatch path
      ("type mismatch: expected " ++ v.dataType.token ++ ", got " ++ actual.dataType.token)
      v.dataType.token]) ++
  (if sameDimensions then []
    else [o.finding .dimensionMismatch (path ++ ["dimensions"])
      ("dimension mismatch: expected " ++ bracketed v.dimensions ++ ", got " ++
        bracketed actual.dimensions) none]) ++
  faults.map (fun (name, fault) =>
    o.finding .dimensionMismatch (path.child "dimensions" name) fault.message
      fault.constraint?) ++
  (if sameType && sameDimensions && faults.isEmpty then [.pass path] else [])

def checkStored (v : Variable) (o : ValidationOptions) (scope : Scope) (path : NodePath)
    (actual : FileVariable) : List Entry :=
  v.checkSelf o scope path actual ++ checkAttributes o path v.attributes actual.attributes

def check (v : Variable) (o : ValidationOptions) (scope : Scope) (path : NodePath)
    (file : FileGroup) : List Entry :=
  let here := path.child "variables" v.name
  match file.variableNamed? v.name with
  | none => o.absent v.info.required here
  | some actual => v.checkStored o scope here actual

end Variable

namespace Group

mutual

/-- The checks of a group that the file has; `scope` is around it. -/
def check (o : ValidationOptions) (scope : Scope) (path : NodePath) (file : FileGroup) :
    Group → List Entry
  | ⟨_, _, attributes, dimensions, vars, groups⟩ =>
    let scope := ⟨dimensions, file.dimensions⟩ :: scope
    checkAttributes o path attributes file.attributes ++
      dimensions.flatMap (fun d => d.check o path file) ++
      o.unknown path "dimensions" (file.dimensions.map FileDimension.name)
        (dimensions.map Dimension.name) ++
      vars.flatMap (fun v => v.check o scope path file) ++
      o.unknown path "variables" (file.vars.map FileVariable.name)
        (vars.map Variable.name) ++
      checkAll o scope path file groups ++
      o.unknown path "groups" (file.groups.map FileGroup.name) (groups.map Group.name)

def checkAll (o : ValidationOptions) (scope : Scope) (path : NodePath) (file : FileGroup) :
    List Group → List Entry
  | [] => []
  | g :: rest =>
    let here := path.child "groups" g.name
    (match file.groupNamed? g.name with
      | none => o.absent g.info.required here
      | some actual => .pass here :: check o scope here actual g) ++
    checkAll o scope path file rest

end

/-- The report on a file. -/
def validate (d : Dataset) (o : ValidationOptions) (file : DataFile) : Report :=
  .ofEntries (d.check o [] NodePath.root file)

end Group

end ProductSpec
