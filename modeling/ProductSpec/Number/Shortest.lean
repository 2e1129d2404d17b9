/-
  The decimal text of a finite binary number. The digits are the fewest that read back to the
  same number, of those the nearest; a style says how they are laid out.
-/
import ProductSpec.Number.Binary

namespace ProductSpec.Number

/-- Which of two equally near candidates is taken. -/
inductive Tie
  | toEven
  | up
deriving DecidableEq, Repr

/-- The value `digits * 10^exponent`. -/
structure Decimal where
  digits : Nat
  exponent : Int
deriving DecidableEq, Repr

namespace Decimal

/-- The same value without zeros at the end of the digits, at most `count` of them. -/
def trimZeros : (count : Nat) → Decimal → Decimal
  | 0, d => d
  | count + 1, d =>
    if d.digits ≠ 0 ∧ d.digits % 10 = 0 then trimZeros count ⟨d.digits / 10, d.exponent + 1⟩ else d

end Decimal

namespace Binary

variable {f : BinaryFormat}

/-- The least `k` with `units / 2^scale < 10^k`, for a positive number of units: the quotient by
three is below it and each step adds one. -/
def decimalPoint (f : BinaryFormat) (units : Nat) : Int :=
  let below := fun (k : Int) =>
    if 0 ≤ k then units < powerOfTen k.toNat <<< f.scale
    else units * powerOfTen (-k).toNat < 1 <<< f.scale
  let estimate := (((units.log2 : Int) - f.scale) * 30103) / 100000
  if below (estimate - 1) then estimate - 1
  else if below estimate then estimate
  else if below (estimate + 1) then estimate + 1
  else estimate + 2

/-- The candidate with the given number of digits that reads back to the finite number of that
many units, if there is one. -/
def candidate? (f : BinaryFormat) (tie : Tie) (units : Nat) (count : Nat) : Option Decimal :=
  let exponent : Int := decimalPoint f units - count
  let num := if exponent < 0 then units * powerOfTen (-exponent).toNat else units
  let den := if exponent < 0 then 1 <<< f.scale else powerOfTen exponent.toNat <<< f.scale
  let lower : Decimal := ⟨num / den, exponent⟩
  let upper : Decimal := ⟨num / den + 1, exponent⟩
  let readsBack := fun (d : Decimal) => (ofDecimal false d.digits d.exponent : Binary f).units == units
  let twice := 2 * (num % den)
  let upperFirst := den < twice || (twice == den && (tie == .up || lower.digits % 2 == 1))
  if num % den = 0 then if readsBack lower then some lower else none
  else if readsBack upper && (upperFirst || !readsBack lower) then some upper
  else if readsBack lower then some lower
  else none

/-- All digits of the exact value. -/
def exactDecimal (f : BinaryFormat) (units : Nat) : Decimal :=
  Decimal.trimZeros f.scale ⟨units * Nat.pow 5 f.scale, -f.scale⟩

/-- The fewest digits that read back. A double never needs more than seventeen; whatever the
format, the exact value reads back. -/
def shortest (tie : Tie) (x : Binary f) : Decimal :=
  if x.units = 0 then ⟨0, 0⟩
  else
    match (List.range' 1 17).findSome? (candidate? f tie x.units) with
    | some d => d.trimZeros 17
    | none => exactDecimal f x.units

end Binary

/-- How a finite number is written. -/
structure DecimalStyle where
  /-- Which of two equally near candidates is taken. -/
  tie : Tie
  /-- Written after a number without a fraction. -/
  wholeMark : String
  /-- The least and the greatest position of the point written without an exponent; `none` when
  there is never one. -/
  positional : Option (Int × Int)
  /-- Written before an exponent that is not negative. -/
  plus : String
deriving Repr

namespace DecimalStyle

def digitsText (n : Nat) : String := String.ofList (Nat.toDigits 10 n)

def zeros (n : Nat) : String := String.ofList (List.replicate n '0')

/-- The digits with the point where it belongs. -/
def layoutPlain (n : DecimalStyle) (d : Decimal) : String :=
  let digits := Nat.toDigits 10 d.digits
  let point : Int := digits.length + d.exponent
  if 0 ≤ d.exponent then String.ofList digits ++ zeros d.exponent.toNat ++ n.wholeMark
  else if 0 < point then
    String.ofList (digits.take point.toNat) ++ "." ++ String.ofList (digits.drop point.toNat)
  else "0." ++ zeros (-point).toNat ++ String.ofList digits

/-- One digit, the point, the other digits and the exponent. -/
def layoutScientific (n : DecimalStyle) (d : Decimal) : String :=
  let digits := Nat.toDigits 10 d.digits
  let exponent : Int := digits.length + d.exponent - 1
  let fraction := if digits.length = 1 then "" else "." ++ String.ofList (digits.drop 1)
  String.ofList (digits.take 1) ++ fraction ++ "e" ++
    (if exponent < 0 then "-" else n.plus) ++ digitsText exponent.natAbs

def layout (n : DecimalStyle) (d : Decimal) : String :=
  let point : Int := (Nat.toDigits 10 d.digits).length + d.exponent
  match n.positional with
  | none => n.layoutPlain d
  | some (least, greatest) =>
    if d.digits = 0 ∨ (least ≤ point ∧ point ≤ greatest) then n.layoutPlain d
    else n.layoutScientific d

/-- The text of a finite number; `nan` and `infinite` name the others. -/
def write {f : BinaryFormat} (n : DecimalStyle) (nan infinite : String) (x : Binary f) : String :=
  match x with
  | .nan => nan
  | .infinite negative => (if negative then "-" else "") ++ infinite
  | .finite negative .. => (if negative then "-" else "") ++ n.layout (x.shortest n.tie)

/-- Values shown to a reader: never an exponent, no fraction on a whole number. -/
def display : DecimalStyle := ⟨.up, "", none, "+"⟩

/-- Values in a document: a fraction or an exponent always shows that the number is no integer,
and the point may stand from five zeros before the digits to sixteen digits after the start. -/
def document : DecimalStyle := ⟨.toEven, ".0", some (-4, 16), "+"⟩

end DecimalStyle

/-- The text of a number shown to a reader. -/
def Binary.display {f : BinaryFormat} (x : Binary f) : String :=
  DecimalStyle.display.write "NaN" "inf" x

end ProductSpec.Number
