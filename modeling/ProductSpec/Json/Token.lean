/-
  The words of a document text: brackets, separators, and the values without parts.
-/
import ProductSpec.Json.Basic

namespace ProductSpec.Json

open Number

/-- A word of a document. -/
inductive Token
  | openArray
  | closeArray
  | openObject
  | closeObject
  | comma
  | colon
  | text (s : String)
  | atom (value : Json)

/-- Splits what follows an opening quotation mark at the closing one. A backslash takes the next
character with it. -/
def splitQuoted : List Char → Option (List Char × List Char)
  | [] => none
  | '"' :: rest => some ([], rest)
  | '\\' :: c :: rest => (splitQuoted rest).map fun (body, after) => ('\\' :: c :: body, after)
  | c :: rest => (splitQuoted rest).map fun (body, after) => (c :: body, after)

theorem length_splitQuoted {cs body after : List Char}
    (h : splitQuoted cs = some (body, after)) : after.length < cs.length := by
  fun_induction splitQuoted cs generalizing body after with
  | case1 => simp at h
  | case2 rest => simp_all
  | case3 c rest ih =>
    obtain ⟨⟨b, a⟩, found, same⟩ := Option.map_eq_some_iff.1 h
    obtain ⟨-, rfl⟩ := Prod.mk.inj same
    have := ih found
    simp only [List.length_cons]
    omega
  | case4 c rest _ _ ih =>
    obtain ⟨⟨b, a⟩, found, same⟩ := Option.map_eq_some_iff.1 h
    obtain ⟨-, rfl⟩ := Prod.mk.inj same
    have := ih found
    simp only [List.length_cons]
    omega

def hexValue? (c : Char) : Option Nat :=
  if '0' ≤ c ∧ c ≤ '9' then some (c.toNat - 48)
  else if 'a' ≤ c ∧ c ≤ 'f' then some (c.toNat - 87)
  else if 'A' ≤ c ∧ c ≤ 'F' then some (c.toNat - 55)
  else none

/-- The value of hexadecimal digits. -/
def hexNumber? (digits : List Char) : Option Nat :=
  digits.foldlM (fun n c => (hexValue? c).map (16 * n + ·)) 0

def charOf? (n : Nat) : Option Char :=
  if h : n.isValidChar then some (Char.ofNatAux n h) else none

/-- The text between quotation marks. A code point beyond the first 65536 is written as two
surrogates; a surrogate alone, an unknown escape and a bare control character are refused. -/
def unescape : List Char → Option (List Char)
  | [] => some []
  | '\\' :: 'u' :: a :: b :: c :: d :: rest => do
    let high ← hexNumber? [a, b, c, d]
    if 0xD800 ≤ high ∧ high < 0xDC00 then
      match rest with
      | '\\' :: 'u' :: e :: f :: g :: h :: rest' =>
        let low ← hexNumber? [e, f, g, h]
        if 0xDC00 ≤ low ∧ low < 0xE000 then
          let c ← charOf? (0x10000 + (high - 0xD800) * 0x400 + (low - 0xDC00))
          return c :: (← unescape rest')
        else none
      | _ => none
    else
      let c ← charOf? high
      return c :: (← unescape rest)
  | '\\' :: c :: rest => do
    let plain ← [('"', '"'), ('\\', '\\'), ('/', '/'), ('b', '\x08'), ('f', '\x0c'),
      ('n', '\n'), ('r', '\r'), ('t', '\t')].lookup c
    return plain :: (← unescape rest)
  | ['\\'] => none
  | c :: rest => do
    if c.toNat < 0x20 then none
    return c :: (← unescape rest)

def digitValue (c : Char) : Nat := c.toNat - 48

/-- The leading digits whose value fits into a word, and the others. -/
def takeWord (acc : Nat) : List Char → Nat × List Char
  | [] => (acc, [])
  | c :: rest =>
    let next := 10 * acc + digitValue c
    if fitsNat64 next then takeWord next rest else (acc, c :: rest)

/-- Scales a number by a power of ten, rounding after each step. Powers beyond the 308th are
divided out in parts and are too great to multiply with. -/
def scaleByTen (x : Double) (exponent : Int) : Option Double :=
  let power := fun (k : Nat) => (Binary.ofDecimal false 1 k : Double)
  let finite := fun (y : Double) => if y.isFinite then some y else none
  if exponent.natAbs ≤ 308 then
    if 0 ≤ exponent then finite (x.times (power exponent.natAbs))
    else some (x.dividedBy (power exponent.natAbs))
  else if x.units = 0 then some x
  else if 0 ≤ exponent then none
  else
    let once := x.dividedBy (power 308)
    let rest := exponent.natAbs - 308
    if rest ≤ 308 then some (once.dividedBy (power rest))
    else some ((once.dividedBy (power 308)).dividedBy (power (min (rest - 308) 308)))

/-- The double that a decimal is read as: its leading digits are rounded to a number, which is
then scaled. Digits that no longer fit into 64 bits count by their place only. -/
def readDecimal (negative : Bool) (whole fraction : List Char) (exponent : Int) :
    Option Double := do
  let (head, dropped) := takeWord 0 whole
  let (significand, unread) := takeWord head fraction
  let x ← scaleByTen (Binary.ofNat significand)
    (exponent + dropped.length - (fraction.length - unread.length : Nat))
  return if negative then x.negate else x

/-- Splits the exponent off: an `e`, a sign and digits. -/
def readExponent : List Char → Option Int
  | [] => some 0
  | e :: rest =>
    if e = 'e' ∨ e = 'E' then
      let (negative, digits) := match rest with
        | '+' :: ds => (false, ds)
        | '-' :: ds => (true, ds)
        | ds => (false, ds)
      if digits.isEmpty ∨ digits.any (!·.isDigit) then none
      else
        let n : Int := (digits.foldl (fun n c => min (10 * n + digitValue c) 1000000000) 0 : Nat)
        some (if negative then -n else n)
    else none

/-- A number of digits only. Beyond 64 bits it becomes a float, and so does minus zero. -/
def readWhole (negative : Bool) (whole : List Char) : Option Json :=
  let n := whole.foldl (fun n c => 10 * n + digitValue c) 0
  if !negative && fitsNat64 n then some (.int n)
  else if negative && 0 < n && fitsInt64 (-n) then some (.int (-n))
  else (readDecimal negative whole [] 0).map .float

/-- A number whose digits are followed by a fraction, an exponent, or both. -/
def readScaled (negative : Bool) (whole : List Char) : List Char → Option Double
  | '.' :: rest => do
    let fraction := rest.takeWhile Char.isDigit
    if fraction.isEmpty then none
    readDecimal negative whole fraction (← readExponent (rest.dropWhile Char.isDigit))
  | rest => do readDecimal negative whole [] (← readExponent rest)

/-- A number without its sign. It has no leading zeros. -/
def readUnsigned (negative : Bool) (cs : List Char) : Option Json :=
  let whole := cs.takeWhile Char.isDigit
  if whole.isEmpty ∨ (whole.length > 1 ∧ whole.head? = some '0') then none
  else
    match cs.dropWhile Char.isDigit with
    | [] => readWhole negative whole
    | rest => (readScaled negative whole rest).map .float

/-- Reads a number: an optional minus sign, digits, an optional fraction, an optional exponent. -/
def readNumber : List Char → Option Json
  | '-' :: rest => readUnsigned true rest
  | cs => readUnsigned false cs

def isNumberChar (c : Char) : Bool :=
  c.isDigit || c == '-' || c == '+' || c == '.' || c == 'e' || c == 'E'

/-- The words of a text, blanks, tabs and line ends between them being skipped. -/
def tokens : List Char → Option (List Token)
  | [] => some []
  | c :: rest =>
    if c = ' ' ∨ c = '\n' ∨ c = '\r' ∨ c = '\t' then tokens rest
    else if c = '"' then
      match h : splitQuoted rest with
      | none => none
      | some (body, after) => do
        have := length_splitQuoted h
        return .text (String.ofList (← unescape body)) :: (← tokens after)
    else if c = '-' ∨ c.isDigit then do
      have := (List.dropWhile_sublist (l := rest) isNumberChar).length_le
      let number ← readNumber (c :: rest.takeWhile isNumberChar)
      return .atom number :: (← tokens (rest.dropWhile isNumberChar))
    else if c.isLower then do
      have := (List.dropWhile_sublist (l := rest) Char.isLower).length_le
      let word ← [("null", Json.null), ("true", .bool true), ("false", .bool false)].lookup
        (String.ofList (c :: rest.takeWhile Char.isLower))
      return .atom word :: (← tokens (rest.dropWhile Char.isLower))
    else do
      let mark ← [('[', Token.openArray), (']', .closeArray), ('\x7b', .openObject),
        ('\x7d', .closeObject), (',', .comma), (':', .colon)].lookup c
      return mark :: (← tokens rest)
termination_by cs => cs.length

end ProductSpec.Json
