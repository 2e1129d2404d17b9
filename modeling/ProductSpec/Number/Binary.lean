/-
  Binary floating-point numbers, exactly. A finite number is a sign, a significand and a shift
  and stands for significand * 2^shift units, one unit being the least positive number of the
  format. Every operation rounds its exact result to nearest, a tie to the even significand.
-/
import ProductSpec.Number.Word

namespace ProductSpec.Number

/-- A format fixes the bits of a significand, the unit `2^-scale` and the greatest shift. -/
structure BinaryFormat where
  precision : Nat
  scale : Nat
  maxShift : Nat
deriving DecidableEq, Repr

/-- The format with 64 bits. -/
def double : BinaryFormat := ⟨53, 1074, 2045⟩

/-- The format with 32 bits. -/
def single : BinaryFormat := ⟨24, 149, 253⟩

namespace BinaryFormat

/-- Each magnitude has one form: the leading bit is set unless the unit is already the least. -/
def Canonical (f : BinaryFormat) (significand shift : Nat) : Prop :=
  significand < 1 <<< f.precision ∧ (1 <<< (f.precision - 1) ≤ significand ∨ shift = 0) ∧
    shift ≤ f.maxShift

instance (f : BinaryFormat) (significand shift : Nat) :
    Decidable (f.Canonical significand shift) := by
  unfold Canonical
  infer_instance

end BinaryFormat

/-- The numbers of a format. Zero has a sign, and so have the infinities. -/
inductive Binary (f : BinaryFormat)
  | nan
  | infinite (negative : Bool)
  | finite (negative : Bool) (significand shift : Nat)
      (canonical : f.Canonical significand shift)
deriving DecidableEq, Repr

abbrev Double := Binary double
abbrev Single := Binary single

/-- The nearest integer to a quotient, a tie going to the even one. -/
def roundDiv (num den : Nat) : Nat :=
  if 2 * (num % den) < den then num / den
  else if den < 2 * (num % den) then num / den + 1
  else num / den + num / den % 2

namespace Binary

variable {f : BinaryFormat}

def isNaN : Binary f → Bool
  | .nan => true
  | _ => false

def isFinite : Binary f → Bool
  | .finite .. => true
  | _ => false

/-- Equality of values: the two zeros are equal and a NaN equals nothing. -/
def equals : Binary f → Binary f → Bool
  | .infinite a, .infinite b => a == b
  | .finite a m s _, .finite b n t _ => m == n && s == t && (m == 0 || a == b)
  | _, _ => false

instance : BEq (Binary f) := ⟨equals⟩

theorem equals_self (x : Binary f) : x.equals x = !x.isNaN := by
  cases x <;> simp [equals, isNaN]

/-- The significand and shift nearest to `num / den` units. -/
def roundUnits (f : BinaryFormat) (num den : Nat) : Nat × Nat :=
  let shift := (num / den).log2 + 1 - f.precision
  let significand := roundDiv num (den <<< shift)
  if significand = 1 <<< f.precision then (1 <<< (f.precision - 1), shift + 1)
  else (significand, shift)

/-- The number nearest to `± num / den`; beyond the greatest one it is infinite. -/
def ofRatio (negative : Bool) (num den : Nat) : Binary f :=
  let (significand, shift) := roundUnits f (num <<< f.scale) den
  if h : f.Canonical significand shift then .finite negative significand shift h
  else .infinite negative

def ofNat (n : Nat) : Binary f := ofRatio false n 1

def ofInt (n : Int) : Binary f := ofRatio (n < 0) n.natAbs 1

/-- The number of units a finite number is away from zero. -/
def units : Binary f → Nat
  | .finite _ significand shift _ => significand <<< shift
  | _ => 0

def isNegative : Binary f → Bool
  | .nan => false
  | .infinite negative => negative
  | .finite negative .. => negative

def negate : Binary f → Binary f
  | .nan => .nan
  | .infinite negative => .infinite (!negative)
  | .finite negative significand shift h => .finite (!negative) significand shift h

/-- Whether a number has no fraction. -/
def isWhole (x : Binary f) : Bool := x.isFinite && x.units % (1 <<< f.scale) == 0

/-- The distance of a finite number from zero, with its sign. -/
def signedUnits (x : Binary f) : Int := if x.isNegative then -x.units else x.units

/-- The order of the finite numbers. -/
def isLess (x y : Binary f) : Bool :=
  x.isFinite && y.isFinite && x.signedUnits < y.signedUnits

/-- The number of another format that is nearest. -/
def convert (g : BinaryFormat) : Binary f → Binary g
  | .nan => .nan
  | .infinite negative => .infinite negative
  | .finite negative significand shift _ =>
    ofRatio negative (significand <<< shift) (1 <<< f.scale)

/-- A double rounded to a single. -/
abbrev narrow (x : Double) : Single := x.convert single

/-- A single as a double, which loses nothing. -/
abbrev widen (x : Single) : Double := x.convert double

/-- The nearest number to `± digits * 10^exponent`. Beyond the `limit` the power need not be
formed: ten to the limit exceeds every number and its inverse is below half a unit. -/
def ofDecimal (negative : Bool) (digits : Nat) (exponent : Int) : Binary f :=
  let limit : Int := f.scale + f.maxShift + f.precision
  let point : Int := exponent + (Nat.toDigits 10 digits).length
  if digits = 0 ∨ point < -limit then ofRatio negative 0 1
  else if limit < point then .infinite negative
  else if 0 ≤ exponent then ofRatio negative (digits * powerOfTen exponent.toNat) 1
  else ofRatio negative digits (powerOfTen (-exponent).toNat)

/-- The rounded product of two finite magnitudes. -/
def times (x y : Binary f) : Binary f := ofRatio false (x.units * y.units) (1 <<< (2 * f.scale))

/-- The rounded quotient of two finite magnitudes. -/
def dividedBy (x y : Binary f) : Binary f := ofRatio false x.units y.units

example : (ofDecimal false 1 (-1) : Double) = .finite false 7205759403792794 1018 (by decide) := by
  decide +kernel
example : (ofDecimal false 1 400 : Double) = .infinite false := by decide +kernel
example : ((ofDecimal false 1 (-1) : Double).narrow.widen == ofDecimal false 1 (-1)) = false := by
  decide +kernel

end Binary

end ProductSpec.Number
