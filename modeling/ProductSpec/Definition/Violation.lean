/-
  What may be wrong with a definition, and where.
-/
import ProductSpec.Dataset.Basic
import ProductSpec.Yaml.Describe

namespace ProductSpec

/-- Why a definition does not compile. -/
inductive DefinitionFault
  | attributeName (found : Yaml.Value)
  | malformedPlaceholder (token : String) (reason : TokenError)
  | booleanValue
  | unsupportedValue
  | placeholderInList (token : String)
  | nestedList
  | mixedList
  | emptyName
  | duplicateName (name : String)
  | dataType (reason : TokenError)
  | undeclaredDimension (name : String)

/-- A fault and the path of what has it. -/
structure Violation where
  path : NodePath
  fault : DefinitionFault

namespace DefinitionFault

def reason : DefinitionFault → String
  | attributeName found =>
    "attribute names must be non-empty strings, found " ++ found.describe
  | malformedPlaceholder _ reason => reason.message
  | booleanValue => "boolean attribute values are not supported"
  | unsupportedValue => "attribute values must be strings, numbers, lists or placeholders"
  | placeholderInList token =>
    "placeholder '" ++ token ++ "' inside a list; use <Array[TYPE]: derived_from_file> instead"
  | nestedList => "nested lists are not supported"
  | mixedList => "list mixes text and numbers; attribute arrays hold a single type"
  | emptyName => "names must not be empty"
  | duplicateName name => "duplicate name '" ++ name ++ "'"
  | dataType reason => "data type: " ++ reason.message
  | undeclaredDimension name =>
    "dimension '" ++ name ++ "' is not declared in this group or any parent"

end DefinitionFault

def Violation.message (v : Violation) : String :=
  match v.fault with
  | .malformedPlaceholder token reason =>
    "Malformed placeholder '" ++ token ++ "' at " ++ v.path.text ++ ": " ++ reason.message
  | fault => "Cannot compile definition at " ++ v.path.text ++ ": " ++ fault.reason

end ProductSpec
