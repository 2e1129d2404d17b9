/-
  Placeholders: typed constraints on attributes whose value differs from file to file.
  The token of a placeholder is `<TYPE: derived_from_file>` or, for one that may be absent,
  `<TYPE: derived_from_file optional>`; TYPE is a base type or `Array[` base type `]`.
-/
import ProductSpec.BaseType

namespace ProductSpec

/-- What a placeholder asks of an attribute. -/
structure Placeholder where
  baseType : BaseType
  isArray : Bool
  required : Bool
  derivedFromFile : Bool
deriving DecidableEq, Repr

/-- Why a token names no placeholder or no data type. -/
inductive TokenError
  | notDelimited
  | unknownBaseType (name : String)
  | malformedBrackets (part : String)
  | missingMarker
  | unexpectedToken (word : String)
deriving DecidableEq, Repr

def TokenError.message : TokenError → String
  | notDelimited => "expected a token of the form <TYPE: derived_from_file>"
  | unknownBaseType name => "unknown base type '" ++ name ++ "'"
  | malformedBrackets part => "malformed brackets in '" ++ part ++ "'"
  | missingMarker => "missing 'derived_from_file' marker"
  | unexpectedToken word => "unexpected token '" ++ word ++ "'"

/-- Reads a data type written bare or between `<` and `>`. -/
def BaseType.parse (written : String) : Except TokenError BaseType :=
  match BaseType.ofToken? (BaseType.bareToken written) with
  | some t => .ok t
  | none => .error (.unknownBaseType (BaseType.bareToken written))

namespace Placeholder

def marker : List Char := "derived_from_file".toList

def optionalWord : List Char := "optional".toList

/-- The canonical token. -/
def token (p : Placeholder) : String :=
  "<" ++ (if p.isArray then "Array[" ++ p.baseType.token ++ "]" else p.baseType.token) ++
    ": derived_from_file" ++ (if p.required then "" else " optional") ++ ">"

def isBracket (c : Char) : Bool := c == '[' || c == ']'

/-- The name inside `Array[` and `]`, if the text is of that form. -/
def arrayElement? (part : List Char) : Option (List Char) := do
  let name ← Text.dropLast? ']' (← Text.dropStart? "Array[".toList part)
  if name.any isBracket then none else some name

/-- The name of the type and whether it is that of the elements of an array. -/
def typeName? (part : List Char) : Option (List Char × Bool) :=
  match arrayElement? part with
  | some name => some (name, true)
  | none => if part.any isBracket then none else some (part, false)

/-- The text between `<` and `>`. -/
def inner? (cs : List Char) : Option (List Char) := do Text.dropLast? '>' (← Text.dropStart? ['<'] cs)

/-- Whether a text is to be read as a placeholder rather than as a value of its own. -/
def isShaped (text : String) : Bool := (inner? text.toList).isSome

/-- Reads the words after the colon: the marker, then at most the word `optional`. -/
def parseMarker : List (List Char) → Except TokenError Bool
  | [] => .error .missingMarker
  | first :: rest =>
    if first ≠ marker then .error .missingMarker
    else
      match rest with
      | [] => .ok true
      | second :: more =>
        if second ≠ optionalWord then .error (.unexpectedToken (String.ofList second))
        else
          match more with
          | [] => .ok false
          | extra :: _ => .error (.unexpectedToken (String.ofList extra))

def parseChars (cs : List Char) : Except TokenError Placeholder := do
  let some inner := inner? cs | .error .notDelimited
  let some (typePart, rest) := Text.splitFirst ':' inner | .error .missingMarker
  let part := Text.trim typePart
  let some (name, isArray) := typeName? part | .error (.malformedBrackets (String.ofList part))
  let some baseType := BaseType.ofToken? (String.ofList name)
    | .error (.unknownBaseType (String.ofList name))
  let required ← parseMarker (Text.words rest)
  return ⟨baseType, isArray, required, true⟩

/-- Reads a placeholder; nothing is returned unless the whole token is valid. -/
def parse (text : String) : Except TokenError Placeholder := parseChars text.toList

end Placeholder

end ProductSpec
