/-
  Which documents are schemas. A keyword that this library does not know may have any value.
-/
import ProductSpec.JsonSchema.Reference

namespace ProductSpec.JsonSchema

/-- The types that a schema can name. -/
def typeNames : List String :=
  ["array", "boolean", "integer", "null", "number", "object", "string"]

def isTypeName : Json → Bool
  | .text t => t ∈ typeNames
  | _ => false

/-- The texts of a list that holds nothing else. -/
def texts? : Json → Option (List String)
  | .array items => items.mapM Json.asText?
  | _ => none

/-- A type, or a list of different types. -/
def isTypes : Json → Bool
  | .text t => t ∈ typeNames
  | .array items =>
    match items.mapM Json.asText? with
    | some names => !names.isEmpty && names.all (· ∈ typeNames) && decide names.Nodup
    | none => false
  | _ => false

def isNameList (j : Json) : Bool :=
  match texts? j with
  | some names => decide names.Nodup
  | none => false

def isNumber : Json → Bool
  | .int _ | .float _ => true
  | _ => false

def isText : Json → Bool
  | .text _ => true
  | _ => false

def isArray : Json → Bool
  | .array _ => true
  | _ => false

def isReferenceText : Json → Bool
  | .text t => isReference t
  | _ => false

mutual

def isValid : Json → Bool
  | .bool _ => true
  | .object members => areValidMembers members
  | _ => false

def areValidMembers : List (String × Json) → Bool
  | [] => true
  | (keyword, value) :: rest => isValidMember keyword value && areValidMembers rest

def isValidMember (keyword : String) (value : Json) : Bool :=
  match keyword with
  | "$schema" | "$ref" => isReferenceText value
  | "title" | "description" => isText value
  | "type" => isTypes value
  | "required" => isNameList value
  | "enum" => isArray value
  | "minimum" => isNumber value
  | "properties" | "definitions" => areValidProperties value
  | "anyOf" => areAlternatives value
  | "items" => isValidItems value
  | _ => true

/-- An object of schemas. -/
def areValidProperties : Json → Bool
  | .object members => areSchemas members
  | _ => false

def areSchemas : List (String × Json) → Bool
  | [] => true
  | (_, value) :: rest => isValid value && areSchemas rest

/-- A list of schemas that is not empty. -/
def areAlternatives : Json → Bool
  | .array (item :: rest) => isValid item && areValidAll rest
  | _ => false

def areValidAll : List Json → Bool
  | [] => true
  | item :: rest => isValid item && areValidAll rest

/-- A schema, or a list of them that is not empty. -/
def isValidItems : Json → Bool
  | .bool _ => true
  | .object members => areValidMembers members
  | .array (item :: rest) => isValid item && areValidAll rest
  | _ => false

end

end ProductSpec.JsonSchema
