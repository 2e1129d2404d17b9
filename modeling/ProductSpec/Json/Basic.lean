/-
  Documents: values with text, numbers, lists and named members. An object keeps its members in
  the order in which they were written; `sorted` is its form as a map from names.
-/
import ProductSpec.NameMap
import ProductSpec.Number.Binary

namespace ProductSpec

open Number

/-- A document value. Numbers written without fraction and exponent are integers. -/
inductive Json
  | null
  | bool (b : Bool)
  | int (n : Int)
  | float (x : Double)
  | text (s : String)
  | array (items : List Json)
  | object (members : List (String × Json))
deriving Inhabited

namespace Json

mutual

/-- The same document with the members of each object in the order of their names; of two members
with one name the later one stays. -/
def sorted : Json → Json
  | .array items => .array (sortedItems items)
  | .object members => .object (sortedMembers members [])
  | other => other

def sortedItems : List Json → List Json
  | [] => []
  | item :: rest => sorted item :: sortedItems rest

def sortedMembers : List (String × Json) → List (String × Json) → List (String × Json)
  | [], done => done
  | (name, value) :: rest, done => sortedMembers rest (insertEntry name (sorted value) done)

end

/-- An object whose members are given in any order. -/
def ofMembers (members : List (String × Json)) : Json :=
  .object (NameMap.ofList members).toList

def ofMap {α : Type} (encode : α → Json) (m : NameMap α) : Json :=
  .object (m.mapValues encode).toList

def ofNat (n : Nat) : Json := .int n

/-- A float without a written form becomes null. -/
def ofDouble (x : Double) : Json := if x.isFinite then .float x else .null

/-- A member that is written only if it is there. -/
def optional (name : String) (value : Option Json) : List (String × Json) :=
  match value with
  | some v => [(name, v)]
  | none => []

/-- The value of an integer that fits into 64 bits with sign. -/
def asInt64? : Json → Option Int
  | .int n => if fitsInt64 n then some n else none
  | _ => none

/-- The value of a number, an integer being rounded. -/
def asDouble? : Json → Option Double
  | .int n => some (Binary.ofInt n)
  | .float x => some x
  | _ => none

def asText? : Json → Option String
  | .text s => some s
  | _ => none

def member? (name : String) : Json → Option Json
  | .object members => members.lookup name
  | _ => none

end Json

end ProductSpec
