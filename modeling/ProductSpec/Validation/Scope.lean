/-
  Finding a dimension by name. A variable may use the dimensions of its own group and of the
  groups around it, in the file as in the definition, and the nearest one counts.
-/
import ProductSpec.DataFile.Basic
import ProductSpec.Dataset.Basic

namespace ProductSpec

/-- The dimensions of one group, as declared and as present in the file. -/
structure ScopeLevel where
  declared : List Dimension
  present : List FileDimension
deriving Repr, Inhabited

namespace ScopeLevel

def declared? (l : ScopeLevel) (name : String) : Option Dimension :=
  l.declared.find? fun d => d.name == name

def present? (l : ScopeLevel) (name : String) : Option FileDimension :=
  l.present.find? fun d => d.name == name

end ScopeLevel

/-- A group and the groups around it, the innermost first. -/
abbrev Scope := List ScopeLevel

/-- What is wrong with a dimension that a variable uses. -/
inductive DimensionFault
  | unresolved
  | size (expected : DimensionSize) (actual : UInt64)
deriving DecidableEq, Repr, Inhabited

namespace Scope

/-- The nearest group of the file that has the dimension. -/
def present? (scope : Scope) (name : String) : Option (ScopeLevel × FileDimension) :=
  scope.findSome? fun l => (l.present? name).map fun d => (l, d)

/-- The nearest declaration of the dimension. -/
def declared? (scope : Scope) (name : String) : Option Dimension :=
  scope.findSome? fun l => l.declared? name

/-- What is wrong with the dimension of a name, if anything. A dimension that is declared in the
group where the file has it was checked there. -/
def fault? (scope : Scope) (name : String) : Option DimensionFault :=
  match scope.present? name with
  | none => some .unresolved
  | some (level, actual) =>
    if (level.declared? name).isSome then none
    else
      match scope.declared? name with
      | some d => if d.size.accepts actual.size then none else some (.size d.size actual.size)
      | none => none

end Scope

def DimensionSize.mismatch (expected : DimensionSize) (actual : UInt64) : String :=
  "size mismatch: expected " ++ expected.text ++ ", got " ++ toString actual

namespace DimensionFault

def message : DimensionFault → String
  | unresolved => "unresolved dimension: not defined in this group or any parent"
  | size expected actual => expected.mismatch actual

/-- The declaration that is not met. -/
def constraint? : DimensionFault → Option String
  | unresolved => none
  | size expected _ => some expected.text

end DimensionFault

end ProductSpec
