/-
  The values in TOML that are single words: truth values, numbers, dates and times. A date or a
  time stands for its text in normal form.
-/
import ProductSpec.Text.Blank
import ProductSpec.Text.Split
import ProductSpec.Timestamp
import ProductSpec.Yaml.Value

namespace ProductSpec.Toml

open Number

def isWordChar (c : Char) : Bool := c.isAlphanum || ['+', '-', '.', ':', '_'].contains c

/-- The digits of a number; single underscores may stand between them. -/
def digits? (isDigit : Char → Bool) (cs : List Char) : Option (List Char) :=
  let parts := Text.split '_' cs
  if parts.all fun part => !part.isEmpty && part.all isDigit then some parts.flatten else none

/-- Splits a sign off. -/
def splitSign : List Char → Bool × List Char
  | '-' :: rest => (true, rest)
  | '+' :: rest => (false, rest)
  | rest => (false, rest)

/-- Digits without leading zeros. -/
def wholeDigits? (cs : List Char) : Option (List Char) := do
  let ds ← digits? Char.isDigit cs
  if 1 < ds.length ∧ ds.head? = some '0' then none else some ds

def radixNumber? : List Char → Option Nat
  | '0' :: 'x' :: rest => do Yaml.digits? 16 (← digits? (fun c => (Yaml.digitValue? 16 c).isSome) rest)
  | '0' :: 'o' :: rest => do Yaml.digits? 8 (← digits? (fun c => (Yaml.digitValue? 8 c).isSome) rest)
  | '0' :: 'b' :: rest => do Yaml.digits? 2 (← digits? (fun c => (Yaml.digitValue? 2 c).isSome) rest)
  | _ => none

/-- An integer of 64 bits with sign. -/
def integer? (cs : List Char) : Option Int := do
  let n : Int ← match radixNumber? cs with
    | some n => some (n : Int)
    | none => do
      let (negative, body) := splitSign cs
      let n ← Yaml.digits? 10 (← wholeDigits? body)
      pure (if negative then -(n : Int) else n)
  if fitsInt64 n then some n else none

/-- Digits, and then a fraction, an exponent or both. -/
def decimal? (negative : Bool) (cs : List Char) : Option Double := do
  let isMark := fun (c : Char) => c == 'e' || c == 'E'
  let mantissa := cs.takeWhile (!isMark ·)
  let exponent := cs.dropWhile (!isMark ·)
  let (whole, fraction) ← match Text.split '.' mantissa with
    | [whole] => if exponent.isEmpty then none else some (whole, none)
    | [whole, fraction] => some (whole, some fraction)
    | _ => none
  let whole ← wholeDigits? whole
  let fraction ← match fraction with
    | some ds => digits? Char.isDigit ds
    | none => some []
  let exponent ← match exponent with
    | [] => some []
    | e :: rest => do
      let sign := rest.takeWhile fun c => c == '+' || c == '-'
      pure (e :: sign ++ (← digits? Char.isDigit (rest.drop sign.length)))
  Yaml.decimal? negative (whole ++ ('.' :: fraction) ++ exponent)

/-- A float. One that is too great is refused. -/
def float? (cs : List Char) : Option Double := do
  let (negative, body) := splitSign cs
  if body = "inf".toList then return .infinite negative
  if body = "nan".toList then return .nan
  let x ← decimal? negative body
  if x = .infinite false then none else some x

def readDate? (cs : List Char) : Option (Timestamp × List Char) := do
  let (year, rest) ← Timestamp.readDigits 4 cs
  let (month, rest) ← Timestamp.readDigits 2 (← Timestamp.readMark ['-'] rest)
  let (day, rest) ← Timestamp.readDigits 2 (← Timestamp.readMark ['-'] rest)
  let t : Timestamp := ⟨year, month, day, 0, 0, 0, 0⟩
  if t.isValid then some (t, rest) else none

/-- A fraction of a second without zeros at its end. -/
def fractionText (nanosecond : Nat) : List Char :=
  if nanosecond = 0 then []
  else '.' :: Text.dropEndWhile (· == '0') (Timestamp.digits 9 nanosecond)

/-- The text of a time of the day in normal form. -/
def readTime? (cs : List Char) : Option (List Char × List Char) := do
  let (hour, rest) ← Timestamp.readDigits 2 cs
  let (minute, rest) ← Timestamp.readDigits 2 (← Timestamp.readMark [':'] rest)
  let (second, rest) ← Timestamp.readDigits 2 (← Timestamp.readMark [':'] rest)
  let (nanosecond, rest) ← Timestamp.readFraction rest
  let t : Timestamp := ⟨1970, 1, 1, hour, minute, second, nanosecond⟩
  if t.isValid then some (t.timeText ++ fractionText nanosecond, rest) else none

/-- The text of a time zone in normal form; there may be none. -/
def readZone? : List Char → Option (List Char)
  | [] => some []
  | ['Z'] | ['z'] => some ['Z']
  | sign :: rest => do
    let (hours, rest) ← Timestamp.readDigits 2 rest
    let (minutes, rest) ← Timestamp.readDigits 2 (← Timestamp.readMark [':'] rest)
    if !(sign = '+' ∨ sign = '-') ∨ rest ≠ [] ∨ 24 ≤ hours ∨ 60 ≤ minutes then none
    let sign := if hours + minutes = 0 then '+' else sign
    return sign :: Timestamp.digits 2 hours ++ ':' :: Timestamp.digits 2 minutes

/-- A date, a time of the day, or both with or without a time zone. -/
def moment? (cs : List Char) : Option String :=
  match readDate? cs with
  | some (date, []) => some (String.ofList date.dateText)
  | some (date, mark :: rest) => do
    if mark ∉ ['T', 't', ' '] then none
    let (time, rest) ← readTime? rest
    return String.ofList (date.dateText ++ 'T' :: (time ++ (← readZone? rest)))
  | none =>
    match readTime? cs with
    | some (time, []) => some (String.ofList time)
    | _ => none

/-- The value of a word. -/
def wordValue? (cs : List Char) : Option Json :=
  if cs = "true".toList then some (.bool true)
  else if cs = "false".toList then some (.bool false)
  else ((integer? cs).map Json.int).or (((float? cs).map .float).or ((moment? cs).map .text))

/-- The word in front of a text. A date and a time may have a blank between them. -/
def splitWord (cs : List Char) : List Char × List Char :=
  let word := cs.takeWhile isWordChar
  let rest := cs.dropWhile isWordChar
  match readDate? word, rest with
  | some (_, []), ' ' :: c :: more =>
    if c.isDigit then (word ++ ' ' :: (c :: more).takeWhile isWordChar, (c :: more).dropWhile isWordChar)
    else (word, rest)
  | _, _ => (word, rest)

def readWord? (cs : List Char) : Option (Json × List Char) := do
  let (word, rest) := splitWord cs
  return (← wordValue? word, rest)

example : integer? "-1_000".toList = some (-1000) ∧ integer? "007".toList = none ∧
    integer? "0xFF".toList = some 255 := by decide +kernel
example : moment? "1979-05-27 07:32:00.50-07:00".toList = some "1979-05-27T07:32:00.5-07:00" :=
  rfl
example : (float? "1e400".toList).isNone ∧ (float? "1.".toList).isNone ∧
    (float? "5e-1".toList).isSome := by decide +kernel

end ProductSpec.Toml
