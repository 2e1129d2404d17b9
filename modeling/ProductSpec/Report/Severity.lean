/-
  How bad a finding is, what kind of check made it, and which kind has which severity.
-/
import ProductSpec.Json.Decode

namespace ProductSpec

open Json

inductive Severity
  | warning
  | error
deriving DecidableEq, Repr, Inhabited

namespace Severity

/-- The word in reports. -/
def label : Severity → String
  | warning => "WARNING"
  | error => "ERROR"

/-- The word in documents and in the configuration. -/
def code : Severity → String
  | warning => "warning"
  | error => "error"

def ofCode? : String → Option Severity
  | "warning" => some warning
  | "error" => some error
  | _ => none

theorem ofCode?_code (s : Severity) : ofCode? s.code = some s := by cases s <;> rfl

def toJson (s : Severity) : Json := .text s.code

def decode : Json → Decoded Severity := decodeName ofCode?

end Severity

/-- What kind of check made a finding. -/
inductive Category
  /-- A required part is absent. -/
  | missing
  /-- An attribute differs from its fixed value. -/
  | valueMismatch
  /-- The value of an attribute has the wrong type. -/
  | typeMismatch
  /-- The size of a dimension or the dimensions of a variable differ. -/
  | dimensionMismatch
  /-- A variable is stored with another data type. -/
  | dataTypeMismatch
  /-- A part of the file is not in the definition. -/
  | unknownElement
deriving DecidableEq, Repr, Inhabited

namespace Category

def code : Category → String
  | missing => "missing"
  | valueMismatch => "value_mismatch"
  | typeMismatch => "type_mismatch"
  | dimensionMismatch => "dimension_mismatch"
  | dataTypeMismatch => "data_type_mismatch"
  | unknownElement => "unknown_element"

def all : List Category :=
  [missing, valueMismatch, typeMismatch, dimensionMismatch, dataTypeMismatch, unknownElement]

def ofCode? (s : String) : Option Category := all.find? fun c => c.code == s

theorem ofCode?_code (c : Category) : ofCode? c.code = some c := by cases c <;> rfl

def toJson (c : Category) : Json := .text c.code

def decode : Json → Decoded Category := decodeName ofCode?

end Category

/-- The severity of each category. -/
structure SeverityPolicy where
  missing : Severity
  valueMismatch : Severity
  typeMismatch : Severity
  dimensionMismatch : Severity
  dataTypeMismatch : Severity
  unknownElement : Severity
deriving DecidableEq, Repr, Inhabited

namespace SeverityPolicy

/-- Everything is an error but what the definition does not know. -/
def standard : SeverityPolicy := ⟨.error, .error, .error, .error, .error, .warning⟩

def severity (p : SeverityPolicy) : Category → Severity
  | .missing => p.missing
  | .valueMismatch => p.valueMismatch
  | .typeMismatch => p.typeMismatch
  | .dimensionMismatch => p.dimensionMismatch
  | .dataTypeMismatch => p.dataTypeMismatch
  | .unknownElement => p.unknownElement

/-- The policy that gives a category the severity of a function. -/
def ofFunction (f : Category → Severity) : SeverityPolicy :=
  ⟨f .missing, f .valueMismatch, f .typeMismatch, f .dimensionMismatch, f .dataTypeMismatch,
    f .unknownElement⟩

@[simp] theorem severity_ofFunction (f : Category → Severity) (c : Category) :
    (ofFunction f).severity c = f c := by cases c <;> rfl

def toJson (p : SeverityPolicy) : Json :=
  .object (Category.all.map fun c => (c.code, (p.severity c).toJson))

/-- A category that is left out keeps its standard severity. -/
def decode (j : Json) : Decoded SeverityPolicy := do
  let r ← record (Category.all.map Category.code) j
  let read (c : Category) := r.withDefault c.code (standard.severity c) Severity.decode
  let policy := ⟨← read .missing, ← read .valueMismatch, ← read .typeMismatch,
    ← read .dimensionMismatch, ← read .dataTypeMismatch, ← read .unknownElement⟩
  r.finish
  return policy

end SeverityPolicy

end ProductSpec
