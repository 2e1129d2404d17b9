/-
  The scalar kinds an attribute or a variable may carry, and the tokens that name them.
-/
import ProductSpec.Text.Blank
import ProductSpec.Text.Split

namespace ProductSpec

/-- The kind of a stored value. -/
inductive BaseType
  | str
  | int8
  | int16
  | int32
  | int64
  | float32
  | float64
  | byte
  | char
deriving DecidableEq, Repr, Inhabited

namespace BaseType

def all : List BaseType := [str, int8, int16, int32, int64, float32, float64, byte, char]

theorem mem_all (t : BaseType) : t ∈ all := by cases t <;> decide

/-- The token that names the kind. -/
def token : BaseType → String
  | str => "str"
  | int8 => "int8"
  | int16 => "int16"
  | int32 => "int32"
  | int64 => "int64"
  | float32 => "float32"
  | float64 => "float64"
  | byte => "byte"
  | char => "char"

/-- The kind that a token names; case matters. -/
def ofToken? (token : String) : Option BaseType := all.find? (·.token == token)

theorem ofToken?_token (t : BaseType) : ofToken? t.token = some t := by cases t <;> decide

def isInteger : BaseType → Bool
  | int8 | int16 | int32 | int64 | byte => true
  | _ => false

def isFloat : BaseType → Bool
  | float32 | float64 => true
  | _ => false

def isText : BaseType → Bool
  | str | char => true
  | _ => false

/-- The primitive type of such values in a JSON document. -/
def jsonType (t : BaseType) : String :=
  if t.isText then "string" else if t.isInteger then "integer" else "number"

/-- The least natural number that is too great for an integer kind. -/
def limit : BaseType → Nat
  | int8 | byte => 0x80
  | int16 => 0x8000
  | int32 => 0x80000000
  | _ => 0x8000000000000000

/-- A variable's data type may be written bare or between `<` and `>`; the token itself is what
remains. -/
def bareToken (written : String) : String :=
  let cs := Text.trim written.toList
  match Text.dropStart? ['<'] cs with
  | some rest => String.ofList ((Text.dropLast? '>' rest).getD cs)
  | none => String.ofList cs

end BaseType

end ProductSpec
