/-
  YAML values as messages name them. Texts stand between quotation marks, and nothing in them is
  invisible.
-/
import ProductSpec.Text.Invisible
import ProductSpec.Text.Split
import ProductSpec.Yaml.Value

namespace ProductSpec.Text

/-- A character inside the quotation marks. -/
def quoteChar (c : Char) : List Char :=
  match c with
  | '"' => ['\\', '"']
  | '\\' => ['\\', '\\']
  | '\n' => ['\\', 'n']
  | '\r' => ['\\', 'r']
  | '\t' => ['\\', 't']
  | '\x00' => ['\\', '0']
  | c =>
    if c.toNat < 0x20 || (0x7E < c.toNat && isInvisible c) then
      '\\' :: 'u' :: '\x7b' :: Nat.toDigits 16 c.toNat ++ ['\x7d']
    else [c]

/-- A text as it is shown in messages. -/
def quote (s : String) : String := String.ofList ('"' :: s.toList.flatMap quoteChar ++ ['"'])

end ProductSpec.Text

namespace ProductSpec.Yaml.Value

open Number

/-- Numbers keep a fraction or an exponent if they are floats. -/
def numberStyle : DecimalStyle := { DecimalStyle.document with plus := "" }

def numberText (x : Double) : String := numberStyle.write ".nan" ".inf" x

mutual

/-- The value as it is named in messages. -/
def describe : Value → String
  | null => "Null"
  | bool b => "Bool(" ++ (if b then "true" else "false") ++ ")"
  | int n => "Number(" ++ toString n ++ ")"
  | float x => "Number(" ++ numberText x ++ ")"
  | text s => "String(" ++ Text.quote s ++ ")"
  | sequence items => "Sequence [" ++ Text.join ", " (describeItems items) ++ "]"
  | mapping entries => "Mapping \x7b" ++ Text.join ", " (describeEntries entries) ++ "\x7d"
  | tagged tag v => "TaggedValue \x7b tag: !" ++ tag ++ ", value: " ++ describe v ++ " \x7d"

def describeItems : List Value → List String
  | [] => []
  | v :: rest => describe v :: describeItems rest

def describeEntries : List (Value × Value) → List String
  | [] => []
  | (k, v) :: rest => (describe k ++ ": " ++ describe v) :: describeEntries rest

end

end ProductSpec.Yaml.Value
