/-
  Literals: the fixed values of a definition. A literal keeps the family it was written with.
  Text never equals a number; an integer literal also equals a float that holds its value.
-/
import ProductSpec.Attribute.Value

namespace ProductSpec

open Number

/-- A fixed value from a definition. -/
inductive Literal
  | int (n : Int64)
  | float (x : Double)
  | text (s : String)
  | list (items : List Literal)
deriving Repr, Inhabited

namespace Literal

/-- The comparison with one stored value. -/
def matchesScalar (l : Literal) (actual : Scalar) : Bool :=
  match l with
  | text s => actual.asText? == some s
  | int n =>
    match actual with
    | .float32 x => x.widen == Binary.ofInt n.toInt
    | .float64 x => x == Binary.ofInt n.toInt
    | other => other.asInt? == some n.toInt
  | float x =>
    match actual with
    | .float32 y => y == x.narrow
    | .float64 y => y == x
    | _ => false
  | list _ => false

/-- The exact comparison with a stored value. An array with one element and its element are not
told apart. -/
def «matches» (l : Literal) (actual : AttributeValue) : Bool :=
  match l, actual with
  | list items, .scalar s =>
    match items with
    | [item] => item.matchesScalar s
    | _ => false
  | list items, .array _ elements =>
    items.length == elements.length &&
      (items.zip elements).all fun (item, s) => item.matchesScalar s
  | l, .scalar s => l.matchesScalar s
  | l, .array _ elements =>
    match elements with
    | [s] => l.matchesScalar s
    | _ => false

/-- The type of the literal in a JSON document. -/
def jsonType : Literal → String
  | text _ => "string"
  | int _ => "integer"
  | float _ => "number"
  | list _ => "array"

def isText : Literal → Bool
  | text _ => true
  | _ => false

def isInt : Literal → Bool
  | int _ => true
  | _ => false

def text? : Literal → Option String
  | text s => some s
  | _ => none

def int? : Literal → Option Int64
  | int n => some n
  | _ => none

/-- The value as a double, for the numbers. -/
def double? : Literal → Option Double
  | int n => some (Binary.ofInt n.toInt)
  | float x => some x
  | _ => none

theorem int64_holds (n : Int64) : BaseType.int64.Holds n.toInt :=
  ⟨rfl, n.le_toInt, n.toInt_lt⟩

/-- An integer as a stored value of 64 bits. -/
def storeInt64 (n : Int64) : Scalar := .integer .int64 n.toInt (int64_holds n)

/-- An integer as a stored value of 32 bits, if it fits. -/
def storeInt32? (n : Int64) : Option Scalar :=
  if h : BaseType.int32.Holds n.toInt then some (.integer .int32 n.toInt h) else none

/-- A stored value that satisfies the literal: integers take 32 bits if they all fit, and a list
that mixes integers and floats is one of doubles. -/
def toValue : Literal → AttributeValue
  | text s => .scalar (.str s)
  | int n => .scalar ((storeInt32? n).getD (storeInt64 n))
  | float x => .scalar (.float64 x)
  | list items =>
    if items.all isText then .array .str (items.filterMap fun i => i.text?.map .str)
    else if items.all isInt then
      let numbers := items.filterMap int?
      match numbers.mapM storeInt32? with
      | some small => .array .int32 small
      | none => .array .int64 (numbers.map storeInt64)
    else .array .float64 (items.filterMap fun i => i.double?.map .float64)

mutual

/-- The text shown to a reader. -/
def display : Literal → String
  | text s => s
  | int n => toString n.toInt
  | float x => x.display
  | list items => bracketed (displays items)

def displays : List Literal → List String
  | [] => []
  | item :: rest => display item :: displays rest

end

mutual

/-- Equality of values: no number equals a NaN, not even itself. -/
def equals : Literal → Literal → Bool
  | int m, int n => m == n
  | float x, float y => x == y
  | text s, text t => s == t
  | list items, list others => equalLists items others
  | _, _ => false

def equalLists : List Literal → List Literal → Bool
  | [], [] => true
  | item :: rest, other :: others => equals item other && equalLists rest others
  | _, _ => false

end

instance : BEq Literal := ⟨equals⟩

end Literal

/-- What a definition asks of an attribute: a fixed value, or a value of a type. -/
inductive ConstraintKind
  | literal (l : Literal)
  | placeholder (p : Placeholder)
deriving Repr, Inhabited

namespace ConstraintKind

/-- Equality of values. -/
def equals : ConstraintKind → ConstraintKind → Bool
  | literal l, literal m => l == m
  | placeholder p, placeholder q => p == q
  | _, _ => false

instance : BEq ConstraintKind := ⟨equals⟩

end ConstraintKind

/-- The constraint on one named attribute. -/
structure AttributeConstraint where
  name : String
  kind : ConstraintKind
deriving Repr, Inhabited

namespace AttributeConstraint

instance : BEq AttributeConstraint := ⟨fun a b => a.name == b.name && a.kind == b.kind⟩

/-- Fixed values are always required; a placeholder says so itself. -/
def isRequired (c : AttributeConstraint) : Bool :=
  match c.kind with
  | .literal _ => true
  | .placeholder p => p.required

/-- The short form used in reports. -/
def describe (c : AttributeConstraint) : String :=
  match c.kind with
  | .literal l => l.display
  | .placeholder p => p.token

end AttributeConstraint

end ProductSpec
