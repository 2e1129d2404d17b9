/-
  Checking a document against a JSON Schema. All violations are reported, keyword by keyword. A
  keyword for one kind of value says nothing about values of other kinds.
-/
import ProductSpec.Json.Writer
import ProductSpec.JsonSchema.Valid

namespace ProductSpec.JsonSchema

/-- A step down to a part of a document. -/
inductive Step
  | name (s : String)
  | index (i : Nat)
deriving DecidableEq, Repr, Inhabited

def Step.text : Step → String
  | name s => String.ofList (escape s.toList)
  | index i => toString i

/-- Why a value violates a schema. -/
inductive Fault
  | wrongType (value : Json) (types : List String)
  | missing (name : String)
  | notListed (value : Json) (options : List Json)
  | below (value limit : Json)
  | noAlternative (value : Json)
  | never (value : Json)
  | unresolved (reference : String)
deriving Inhabited

namespace Fault

def quoted (s : String) : String := (Json.text s).compact

def message : Fault → String
  | wrongType value [t] => value.compact ++ " is not of type \"" ++ t ++ "\""
  | wrongType value types =>
    value.compact ++ " is not of types " ++
      Text.join ", " ((types.mergeSort (· ≤ ·)).map fun t => "\"" ++ t ++ "\"")
  | missing name => quoted name ++ " is a required property"
  | notListed value options => value.compact ++ " is not one of " ++ (Json.array options).compact
  | below value limit => value.compact ++ " is less than the minimum of " ++ limit.compact
  | noAlternative value =>
    value.compact ++ " is not valid under any of the schemas listed in the 'anyOf' keyword"
  | never value => "False schema does not allow " ++ value.compact
  | unresolved reference => "Invalid reference: " ++ reference

end Fault

/-- A fault and the place of the value that has it. -/
structure Violation where
  location : List Step
  fault : Fault
deriving Inhabited

def Violation.message (v : Violation) : String :=
  String.join (v.location.map fun s => "/" ++ s.text) ++ ": " ++ v.fault.message

/-- A number without a fraction counts as an integer however it is written. -/
def hasType (value : Json) (type : String) : Bool :=
  match value with
  | .null => type == "null"
  | .bool _ => type == "boolean"
  | .int _ => type == "integer" || type == "number"
  | .float x => type == "number" || (type == "integer" && x.isWhole)
  | .text _ => type == "string"
  | .array _ => type == "array"
  | .object _ => type == "object"

mutual

/-- Equality of documents. Numbers are equal if their values are. -/
def same : Json → Json → Bool
  | .null, .null => true
  | .bool a, .bool b => a == b
  | .int m, .int n => m == n
  | .int m, .float y => Number.Binary.ofInt m == y
  | .float x, .int n => x == Number.Binary.ofInt n
  | .float x, .float y => x == y
  | .text s, .text t => s == t
  | .array items, .array others => sameItems items others
  | .object members, .object others => sameMembers members others
  | _, _ => false

def sameItems : List Json → List Json → Bool
  | [], [] => true
  | a :: as, b :: bs => same a b && sameItems as bs
  | _, _ => false

/-- The members of both objects in the order of their names. -/
def sameMembers : List (String × Json) → List (String × Json) → Bool
  | [], [] => true
  | (m, a) :: as, (n, b) :: bs => m == n && same a b && sameMembers as bs
  | _, _ => false

end

def typeFaults (value : Json) (types : List String) : List Fault :=
  if types.any (hasType value) then [] else [.wrongType value types]

def requiredFaults (value : Json) (names : List String) : List Fault :=
  match value with
  | .object members => (names.filter fun n => (members.lookup n).isNone).map .missing
  | _ => []

def enumFaults (value : Json) (options : List Json) : List Fault :=
  if options.any (same value) then [] else [.notListed value options]

def isBelow : Json → Json → Bool
  | .int m, .int n => m < n
  | a, b =>
    match a.asDouble?, b.asDouble? with
    | some x, some y => x.isLess y
    | _, _ => false

/-- The faults that a keyword finds in a value without looking into it. -/
def plainFaults (keyword : String) (argument value : Json) : List Fault :=
  match keyword, argument with
  | "type", .text t => typeFaults value [t]
  | "type", types => typeFaults value ((texts? types).getD [])
  | "required", names => requiredFaults value ((texts? names).getD [])
  | "enum", .array options => enumFaults value options
  | "minimum", limit => if isBelow value limit then [.below value limit] else []
  | _, _ => []

/-- How references are followed: what the schema of a reference says of a value. -/
abbrev Follow := String → List Step → Json → List Violation

mutual

/-- The violations of a schema by a value. A reference stands alone: the other members of its
schema do not count. -/
def violationsWith (follow : Follow) (location : List Step) (value : Json) :
    (schema : Json) → List Violation
  | .bool allowed => if allowed then [] else [⟨location, .never value⟩]
  | .object members =>
    match members.lookup "$ref" with
    | some (.text reference) => follow reference location value
    | _ => keywordViolations follow location value members
  | _ => []

def keywordViolations (follow : Follow) (location : List Step) (value : Json) :
    List (String × Json) → List Violation
  | [] => []
  | (keyword, argument) :: rest =>
    (match keyword with
      | "properties" => propertyViolations follow location value argument
      | "items" => itemViolations follow location value argument
      | "anyOf" =>
        if isAnyOf follow location value argument then [] else [⟨location, .noAlternative value⟩]
      | _ => (plainFaults keyword argument value).map fun f => ⟨location, f⟩) ++
    keywordViolations follow location value rest

def propertyViolations (follow : Follow) (location : List Step) (value : Json) :
    Json → List Violation
  | .object properties =>
    match value with
    | .object members => memberViolations follow location members properties
    | _ => []
  | _ => []

def memberViolations (follow : Follow) (location : List Step) (members : List (String × Json)) :
    List (String × Json) → List Violation
  | [] => []
  | (name, schema) :: rest =>
    (match members.lookup name with
      | some value => violationsWith follow (location ++ [.name name]) value schema
      | none => []) ++
    memberViolations follow location members rest

def itemViolations (follow : Follow) (location : List Step) (value : Json) :
    (schema : Json) → List Violation
  | .object schema =>
    match value with
    | .array items => items.zipIdx.flatMap fun (item, i) =>
      violationsWith follow (location ++ [.index i]) item (.object schema)
    | _ => []
  | _ => []

/-- Whether one of the schemas finds nothing wrong. -/
def isAnyOf (follow : Follow) (location : List Step) (value : Json) : Json → Bool
  | .array schemas => isAnyOfAll follow location value schemas
  | _ => false

def isAnyOfAll (follow : Follow) (location : List Step) (value : Json) : List Json → Bool
  | [] => false
  | schema :: rest =>
    (violationsWith follow location value schema).isEmpty ||
      isAnyOfAll follow location value rest

end

/-- The violations of a schema by a value, following at most so many references in a row. -/
def violations (root : Json) : Nat → (schema : Json) → List Step → Json → List Violation
  | 0, schema, location, value =>
    violationsWith (fun r l _ => [⟨l, .unresolved r⟩]) location value schema
  | fuel + 1, schema, location, value =>
    violationsWith (fun r l v =>
      match resolve? root r with
      | some target => violations root fuel target l v
      | none => [⟨l, .unresolved r⟩]) location value schema

mutual

/-- The number of values in a document. -/
def size : Json → Nat
  | .array items => sizeItems items + 1
  | .object members => sizeMembers members + 1
  | _ => 1

def sizeItems : List Json → Nat
  | [] => 0
  | item :: rest => size item + sizeItems rest

def sizeMembers : List (String × Json) → Nat
  | [] => 0
  | (_, value) :: rest => size value + sizeMembers rest

end

/-- The violations of a schema by a document, or nothing if it is no schema. A row of references
that is longer than the two documents allow turns in a circle. -/
def check? (schema document : Json) : Option (List Violation) :=
  if isValid schema then
    some (violations schema (size schema * size document) schema [] document)
  else none

end ProductSpec.JsonSchema
