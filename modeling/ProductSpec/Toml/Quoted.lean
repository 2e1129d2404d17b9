/-
  Texts in TOML. Between double quotation marks a backslash escapes; between single ones every
  character stands for itself. Three marks open a text over several lines.
-/
import ProductSpec.Json.Token

namespace ProductSpec.Toml

/-- Control characters other than the tab; a text holds none of them. -/
def isControl (c : Char) : Bool := c != '\t' && (c.toNat < 0x20 || c.toNat == 0x7F)

def isSpace (c : Char) : Bool := c == ' ' || c == '\t'

/-- What one character behind a backslash stands for. -/
def escapes : List (Char × Char) :=
  [('b', '\x08'), ('t', '\t'), ('n', '\n'), ('f', '\x0c'), ('r', '\r'), ('"', '"'), ('\\', '\\')]

def hexChar? (digits : List Char) : Option Char := do Json.charOf? (← Json.hexNumber? digits)

/-- What follows an opening double mark: the text and what is behind its closing mark. -/
def readQuoted : List Char → Option (List Char × List Char)
  | [] => none
  | '"' :: rest => some ([], rest)
  | '\\' :: 'u' :: a :: b :: c :: d :: rest => do
    let e ← hexChar? [a, b, c, d]
    let (text, after) ← readQuoted rest
    return (e :: text, after)
  | '\\' :: 'U' :: a :: b :: c :: d :: e :: f :: g :: h :: rest => do
    let x ← hexChar? [a, b, c, d, e, f, g, h]
    let (text, after) ← readQuoted rest
    return (x :: text, after)
  | '\\' :: c :: rest => do
    let e ← escapes.lookup c
    let (text, after) ← readQuoted rest
    return (e :: text, after)
  | c :: rest => do
    if isControl c ∨ c = '\\' then none
    let (text, after) ← readQuoted rest
    return (c :: text, after)

/-- What follows an opening single mark. -/
def readLiteral : List Char → Option (List Char × List Char)
  | [] => none
  | '\'' :: rest => some ([], rest)
  | c :: rest => do
    if isControl c then none
    let (text, after) ← readLiteral rest
    return (c :: text, after)

/-- One line break in front of a text does not count where the text is opened. -/
def dropBreak : List Char → List Char
  | '\n' :: rest => rest
  | '\r' :: '\n' :: rest => rest
  | rest => rest

/-- A run of marks that closes a text of several lines: up to two of them belong to the text. -/
def closing? (mark : Char) (cs : List Char) : Option (List Char × List Char) :=
  let marks := (cs.take 5).takeWhile (· == mark)
  if marks.length < 3 then none
  else some (marks.drop 3, cs.drop marks.length)

/-- The blanks and line breaks that a backslash at the end of a line takes away, if there is a
line break among them. -/
def joinedLines? (cs : List Char) : Option (List Char) :=
  match cs.dropWhile isSpace with
  | '\n' :: rest => some (rest.dropWhile fun c => isSpace c || c == '\n' || c == '\r')
  | '\r' :: '\n' :: rest => some (rest.dropWhile fun c => isSpace c || c == '\n' || c == '\r')
  | _ => none

/-- A text over several lines behind its opening marks, in at most so many steps. -/
def readLines (escaping : Bool) (mark : Char) : Nat → List Char → Option (List Char × List Char)
  | 0, _ => none
  | fuel + 1, cs =>
    match closing? mark cs with
    | some result => some result
    | none =>
      match cs with
      | [] => none
      | '\r' :: '\n' :: rest => (readLines escaping mark fuel rest).map fun (t, a) => ('\n' :: t, a)
      | '\n' :: rest => (readLines escaping mark fuel rest).map fun (t, a) => ('\n' :: t, a)
      | '\\' :: rest =>
        if !escaping then
          (readLines escaping mark fuel rest).map fun (t, a) => ('\\' :: t, a)
        else
          match joinedLines? rest with
          | some rest => readLines escaping mark fuel rest
          | none => do
            let (kind, width) ← match rest with
              | 'u' :: _ => some ((rest.drop 1).take 4, 5)
              | 'U' :: _ => some ((rest.drop 1).take 8, 9)
              | _ => some (rest.take 1, 1)
            let e ← if width = 1 then kind.head?.bind fun c => escapes.lookup c
              else if kind.length + 1 = width then hexChar? kind else none
            let (text, after) ← readLines escaping mark fuel (rest.drop width)
            return (e :: text, after)
      | c :: rest => do
        if isControl c then none
        let (text, after) ← readLines escaping mark fuel rest
        return (c :: text, after)

/-- A text in marks of any kind and what is behind it. -/
def readText? (cs : List Char) : Option (String × List Char) := do
  let (text, after) ← match cs with
    | '"' :: '"' :: '"' :: rest => readLines true '"' (rest.length + 1) (dropBreak rest)
    | '\'' :: '\'' :: '\'' :: rest => readLines false '\'' (rest.length + 1) (dropBreak rest)
    | '"' :: rest => readQuoted rest
    | '\'' :: rest => readLiteral rest
    | _ => none
  return (String.ofList text, after)

example : readText? "\"a\\u00e9\\n\" x".toList = some ("aé\n", " x".toList) := rfl
example : readText? "'''\na\\b''''''".toList = some ("a\\b''", "'".toList) := rfl
example : readText? "\"\"\"a \\\n  b\"\"\"".toList = some ("a b", []) := rfl

end ProductSpec.Toml
