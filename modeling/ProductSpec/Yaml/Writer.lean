/-
  Writing a document as YAML: a line for each member, the members of an object inside it indented
  by two. A text is written plainly if it can only be read as that text.
-/
import ProductSpec.Json.Writer
import ProductSpec.Text.Digit
import ProductSpec.Text.Split
import ProductSpec.Yaml.Value

namespace ProductSpec.Yaml.Writer

/-- Whether a plain scalar with the text would be something else than that text. -/
def isAmbiguous (s : String) : Bool :=
  hasLeadingZero s.toList ||
    match plainScalar? s with
    | some .text => false
    | _ => true

/-- The characters that need no escape. -/
def isShown (c : Char) : Bool := isPrintable c && c != '\t' && c != '\r' && c != '\u0085' && c != '\ufeff'

/-- The characters that begin something else than a plain scalar. -/
def indicators : List Char :=
  ['#', ',', '[', ']', '\x7b', '\x7d', '&', '*', '!', '|', '>', '\'', '"', '%', '@', '\x60']

/-- Whether a colon or a comment stands in the rest of a text; `before` is what precedes it. -/
def hasInnerMark (before : Char) : List Char → Bool
  | [] => false
  | c :: rest =>
    (c == ':' && isBlankOrEnd rest.head?) || (c == '#' && isBlankOrEnd (some before)) ||
      hasInnerMark c rest

/-- Whether a text begins or contains something else than a plain scalar. -/
def hasMark : List Char → Bool
  | [] => false
  | c :: rest =>
    indicators.contains c || (['?', ':', '-'].contains c && isBlankOrEnd rest.head?) ||
      (c :: rest.take 2) == ['-', '-', '-'] || (c :: rest.take 2) == ['.', '.', '.'] ||
      hasInnerMark c rest

/-- Whether two characters follow each other in a text. -/
def hasPair (p q : Char → Bool) : List Char → Bool
  | c :: d :: rest => (p c && q d) || hasPair p q (d :: rest)
  | _ => false

def isEdge (c : Option Char) : Bool := c.any fun c => c == ' ' || isBreak c

def isPlain (cs : List Char) : Bool :=
  !hasMark cs && !isEdge cs.head? && !isEdge cs.getLast? && !cs.any isBreak

/-- Whether only double marks will do. -/
def needsEscapes (cs : List Char) : Bool :=
  cs.any (!isShown ·) || hasPair (· == ' ') isBreak cs

def escapeChar (c : Char) : List Char :=
  if c = '"' ∨ c = '\\' then ['\\', c]
  else if isShown c && !isBreak c then [c]
  else
    match [('\x00', '0'), ('\x07', 'a'), ('\x08', 'b'), ('\t', 't'), ('\n', 'n'), ('\x0b', 'v'),
        ('\x0c', 'f'), ('\r', 'r'), ('\x1b', 'e'), ('\u0085', 'N'), ('\u2028', 'L'),
        ('\u2029', 'P')].lookup c with
    | some e => ['\\', e]
    | none =>
      if c.toNat < 0x100 then '\\' :: 'x' :: Text.hexDigits 2 c.toNat
      else if c.toNat < 0x10000 then '\\' :: 'u' :: Text.hexDigits 4 c.toNat
      else '\\' :: 'U' :: Text.hexDigits 8 c.toNat

def inDoubleMarks (cs : List Char) : String := "\"" ++ String.ofList (cs.flatMap escapeChar) ++ "\""

def inSingleMarks (cs : List Char) : String :=
  "'" ++ String.ofList (cs.flatMap fun c => if c = '\'' then [c, c] else [c]) ++ "'"

/-- A text on one line. -/
def quote (s : String) : String :=
  let cs := s.toList
  if needsEscapes cs || cs.contains '\n' || hasPair isBreak (· == ' ') cs then inDoubleMarks cs
  else if isPlain cs && !isAmbiguous s then s
  else inSingleMarks cs

def blanks (n : Nat) : String := String.ofList (List.replicate n ' ')

/-- What becomes of the line breaks at the end of a text over whole lines. -/
def chompingMark (cs : List Char) : String :=
  match cs.reverse with
  | '\n' :: '\n' :: _ | ['\n'] => "+"
  | '\n' :: _ => ""
  | _ => "-"

/-- A text over whole lines with an indentation. -/
def wholeLines (indent : Nat) (cs : List Char) : String :=
  let lines := (Text.split '\n' cs).map fun line =>
    if line.isEmpty then "" else blanks indent ++ String.ofList line
  "|" ++ (if isEdge cs.head? then "2" else "") ++ chompingMark cs ++ "\n" ++
    "\n".intercalate lines ++ (if cs.getLast? = some '\n' then "" else "\n")

/-- A text behind its name and the line break after it. -/
def textValue (indent : Nat) (s : String) : String :=
  let cs := s.toList
  if cs.contains '\n' && !needsEscapes cs && cs.getLast? != some ' ' then
    wholeLines indent cs
  else quote s ++ "\n"

/-- Whether a name may stand on one line with what it names. -/
def isShortName (name : String) : Bool := name.utf8ByteSize ≤ 128 && !name.toList.any isBreak

mutual

/-- What follows a name: a value on the same line or the members of an object below it. -/
def value (indent : Nat) : Json → String
  | .object [] => " \x7b\x7d\n"
  | .object (member :: rest) => "\n" ++ members (indent + 2) (member :: rest)
  | .text s => " " ++ textValue (indent + 2) s
  | other => " " ++ other.compact ++ "\n"

/-- What follows a name that has a line of its own. -/
def separateValue (indent : Nat) : Json → String
  | .object (member :: rest) =>
    " " ++ String.ofList ((members (indent + 2) (member :: rest)).toList.drop (indent + 2))
  | other => value indent other

def members (indent : Nat) : List (String × Json) → String
  | [] => ""
  | (name, j) :: rest =>
    blanks indent ++
      (if isShortName name then quote name ++ ":" ++ value indent j
       else "? " ++ quote name ++ "\n" ++ blanks indent ++ ":" ++ separateValue indent j) ++
      members indent rest

end

/-- A document of named members. -/
def render (entries : List (String × Json)) : String :=
  if entries.isEmpty then "\x7b\x7d\n" else members 0 entries

example : quote "yes" = "yes" ∧ quote "1" = "'1'" ∧ quote "" = "''" ∧ quote "a b" = "a b" ∧
    quote "é: x" = "'é: x'" ∧ quote "a\tb" = "\"a\\tb\"" := by decide +kernel

end ProductSpec.Yaml.Writer
