/-
  The vocabulary of checks: a part passes, is missing, breaks its constraint, or is not in the
  definition at all.
-/
import ProductSpec.Report.Basic

namespace ProductSpec

structure ValidationOptions where
  /-- Whether a file may have parts that the definition does not name. -/
  allowUnknown : Bool
  policy : SeverityPolicy
deriving DecidableEq, Repr, Inhabited

namespace ValidationOptions

def standard : ValidationOptions := ⟨true, .standard⟩

/-- A finding with the severity of its category. -/
def finding (o : ValidationOptions) (category : Category) (path : NodePath) (message : String)
    (constraint : Option String) : Entry :=
  .finding ⟨path, o.policy.severity category, category, message, constraint⟩

/-- A part that is not there. -/
def absent (o : ValidationOptions) (isRequired : Bool) (path : NodePath) : List Entry :=
  if isRequired then [o.finding .missing path "missing" none] else []

/-- The parts of one kind that the definition does not name. -/
def unknown (o : ValidationOptions) (path : NodePath) (kind : String) (names declared : List String) :
    List Entry :=
  if o.allowUnknown then []
  else (names.filter fun name => name ∉ declared).map fun name =>
    o.finding .unknownElement (path.child kind name) "not in definition" none

end ValidationOptions

end ProductSpec
