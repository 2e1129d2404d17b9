/-
  The values that files carry: scalars of a base type and arrays of them.
-/
import ProductSpec.Json.Basic
import ProductSpec.Number.Shortest
import ProductSpec.Placeholder

namespace ProductSpec

open Number

/-- The integers that a kind can hold. -/
def BaseType.Holds (t : BaseType) (n : Int) : Prop :=
  t.isInteger ∧ -(t.limit : Int) ≤ n ∧ n < t.limit

instance (t : BaseType) (n : Int) : Decidable (t.Holds n) := by
  unfold BaseType.Holds
  infer_instance

/-- A single stored value. -/
inductive Scalar
  | str (s : String)
  | char (s : String)
  | integer (type : BaseType) (n : Int) (fits : type.Holds n)
  | float32 (x : Single)
  | float64 (x : Double)
deriving DecidableEq, Repr

namespace Scalar

def baseType : Scalar → BaseType
  | str _ => .str
  | char _ => .char
  | integer t _ _ => t
  | float32 _ => .float32
  | float64 _ => .float64

def asText? : Scalar → Option String
  | str s | char s => some s
  | _ => none

def asInt? : Scalar → Option Int
  | integer _ n _ => some n
  | _ => none

/-- A value of the kind, for files that only show a definition. -/
def sample : BaseType → Scalar
  | .str => str "derived_from_file"
  | .char => char "derived_from_file"
  | .int8 => integer .int8 0 (by decide)
  | .int16 => integer .int16 0 (by decide)
  | .int32 => integer .int32 0 (by decide)
  | .int64 => integer .int64 0 (by decide)
  | .byte => integer .byte 0 (by decide)
  | .float32 => float32 (Binary.ofNat 0)
  | .float64 => float64 (Binary.ofNat 0)

theorem baseType_sample (t : BaseType) : (sample t).baseType = t := by cases t <;> rfl

/-- The text shown to a reader. -/
def display : Scalar → String
  | str s | char s => s
  | integer _ n _ => toString n
  | float32 x => x.display
  | float64 x => x.display

/-- The value in a document, without its kind. A float that is not finite becomes null. -/
def toPlain : Scalar → Json
  | str s | char s => .text s
  | integer _ n _ => .int n
  | float32 x => .ofDouble x.widen
  | float64 x => .ofDouble x

end Scalar

/-- The value of an attribute, with its storage type. -/
inductive AttributeValue
  | scalar (s : Scalar)
  | array (type : BaseType) (elements : List Scalar)
deriving DecidableEq, Repr

def bracketed (parts : List String) : String := "[" ++ Text.join ", " parts ++ "]"

namespace AttributeValue

def baseType : AttributeValue → BaseType
  | scalar s => s.baseType
  | array t _ => t

/-- `float32` for a scalar and `Array[float32]` for an array. -/
def typeLabel : AttributeValue → String
  | scalar s => s.baseType.token
  | array t _ => "Array[" ++ t.token ++ "]"

/-- A scalar of the base type conforms to the array placeholder too, since arrays with one
element read back as scalars. -/
def conformsTo (p : Placeholder) : AttributeValue → Bool
  | scalar s => s.baseType == p.baseType
  | array t elements =>
    p.isArray && t == p.baseType && elements.all fun s => s.baseType == p.baseType

def display : AttributeValue → String
  | scalar s => s.display
  | array _ elements => bracketed (elements.map Scalar.display)

def toPlain : AttributeValue → Json
  | scalar s => s.toPlain
  | array _ elements => .array (elements.map Scalar.toPlain)

end AttributeValue

end ProductSpec
