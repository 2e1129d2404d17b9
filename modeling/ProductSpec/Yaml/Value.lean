/-
  YAML values without a given type. A plain scalar is null, a truth value, an integer, a float or
  a text, by the way it is written; a tag may say so, and a tag of the document's own is kept.
-/
import ProductSpec.Number.Shortest
import ProductSpec.Yaml.Node

namespace ProductSpec.Yaml

open Number

/-- A value of any type. Mappings keep the order in which they are written. -/
inductive Value
  | null
  | bool (b : Bool)
  | int (n : Int)
  | float (x : Double)
  | text (s : String)
  | sequence (items : List Value)
  | mapping (entries : List (Value × Value))
  | tagged (tag : String) (value : Value)
deriving Inhabited

/-- What a plain scalar is read as. -/
inductive PlainScalar
  | null
  | bool (b : Bool)
  | int (n : Int)
  | float (x : Double)
  | text

def isNull (s : String) : Bool := ["null", "Null", "NULL", "~"].contains s

def bool? (s : String) : Option Bool :=
  if ["true", "True", "TRUE"].contains s then some true
  else if ["false", "False", "FALSE"].contains s then some false
  else none

/-- Digits after a leading zero make no number. -/
def hasLeadingZero (cs : List Char) : Bool :=
  let digits := match cs with
    | '+' :: rest | '-' :: rest => rest
    | rest => rest
  match digits with
  | '0' :: d :: rest => (d :: rest).all Char.isDigit
  | _ => false

def digitValue? (base : Nat) (c : Char) : Option Nat :=
  (Json.hexValue? c).bind fun n => if n < base then some n else none

def digits? (base : Nat) (cs : List Char) : Option Nat :=
  if cs.isEmpty then none
  else cs.foldlM (fun n c => (digitValue? base c).map (base * n + ·)) 0

/-- The digits of an integer with `0x`, `0o` or `0b` in front. -/
def radixDigits? (cs : List Char) : Option Nat :=
  match cs with
  | '0' :: 'x' :: rest => digits? 16 rest
  | '0' :: 'o' :: rest => digits? 8 rest
  | '0' :: 'b' :: rest => digits? 2 rest
  | _ => none

/-- An integer: an optional sign and digits, decimal ones without leading zeros. -/
def integer? (cs : List Char) : Option Int :=
  let magnitude? := fun (digits : List Char) =>
    match radixDigits? digits with
    | some n => some n
    | none => if hasLeadingZero cs then none else digits? 10 digits
  match cs with
  | '-' :: rest => (magnitude? rest).map fun n => -(n : Int)
  | '+' :: rest => (magnitude? rest).map Int.ofNat
  | rest => (magnitude? rest).map Int.ofNat

/-- The integers that are read as integers at all. Those in it beyond 64 bits are refused, and
those outside may still be floats. -/
def isWide (n : Int) : Bool :=
  -0x80000000000000000000000000000000 ≤ n && n ≤ 0xFFFFFFFFFFFFFFFFFFFFFFFFFFFFFFFF

/-- The integers that a value can hold. -/
def isWord (n : Int) : Bool := -0x8000000000000000 ≤ n && n ≤ 0xFFFFFFFFFFFFFFFF

/-- An exponent: `e`, an optional sign, digits. -/
def exponent? (cs : List Char) : Option Int :=
  match cs with
  | [] => some 0
  | e :: rest =>
    if e == 'e' || e == 'E' then
      let (negative, digits) := match rest with
        | '+' :: ds => (false, ds)
        | '-' :: ds => (true, ds)
        | ds => (false, ds)
      if digits.isEmpty || digits.any (!·.isDigit) then none
      else
        let n : Int :=
          (digits.foldl (fun n c => min (10 * n + (c.toNat - 48)) 1000000000) 0 : Nat)
        some (if negative then -n else n)
    else none

/-- A decimal without a sign: digits, an optional point between or beside them, an optional
exponent. -/
def decimal? (negative : Bool) (cs : List Char) : Option Double := do
  let whole := cs.takeWhile Char.isDigit
  let rest := cs.dropWhile Char.isDigit
  let (fraction, rest) := match rest with
    | '.' :: after => (after.takeWhile Char.isDigit, after.dropWhile Char.isDigit)
    | _ => ([], rest)
  if whole.isEmpty && fraction.isEmpty then none
  let exponent ← exponent? rest
  let digits ← digits? 10 (whole ++ fraction)
  return .ofDecimal negative digits (exponent - fraction.length)

/-- A float: one of the names of the infinities and of NaN, or a decimal that is not too great. -/
def float? (cs : List Char) : Option Double :=
  let named := fun (names : List String) (x : Double) (s : List Char) =>
    if names.contains (String.ofList s) then some x else none
  let infinities := [".inf", ".Inf", ".INF"]
  let finite := fun (x? : Option Double) => x?.bind fun x => if x.isFinite then some x else none
  match cs with
  | '+' :: rest => (named infinities (.infinite false) rest).or (finite (decimal? false rest))
  | '-' :: rest => (named infinities (.infinite true) rest).or (finite (decimal? true rest))
  | rest =>
    (named infinities (.infinite false) rest).or <|
      (named [".nan", ".NaN", ".NAN"] .nan rest).or (finite (decimal? false rest))

/-- Reads a plain scalar; an integer that no value can hold is refused. -/
def plainScalar? (s : String) : Option PlainScalar :=
  let cs := s.toList
  if cs.isEmpty || isNull s then some .null
  else
    match bool? s with
    | some b => some (.bool b)
    | none =>
      match (integer? cs).filter isWide with
      | some n => if isWord n then some (.int n) else none
      | none =>
        if hasLeadingZero cs then some .text
        else some (((float? cs).map .float).getD .text)

namespace Value

def ofPlain? (s : String) : Option Value :=
  (plainScalar? s).map fun
    | .null => null
    | .bool b => bool b
    | .int n => int n
    | .float x => float x
    | .text => text s

/-- The name of a tag of the document's own, which begins with `!`; alone this mark is a name. -/
def localTag? (tag : Option String) : Option String :=
  tag.bind fun t => match t.toList with
    | ['!'] => some "!"
    | '!' :: name => some (String.ofList name)
    | _ => none

/-- A scalar whose tag is not the document's own. -/
def ofScalar? (tag : Option String) (style : Style) (s : String) : Option Value :=
  match tag with
  | some "tag:yaml.org,2002:bool" => (bool? s).map bool
  | some "tag:yaml.org,2002:int" =>
    (integer? s.toList).bind fun n => if isWord n then some (int n) else none
  | some "tag:yaml.org,2002:float" => (float? s.toList).map float
  | some "tag:yaml.org,2002:null" => if isNull s then some null else none
  | some _ => some (text s)
  | none => if style = .plain then ofPlain? s else some (text s)

/-- Puts a tag of the document's own around a value. -/
def withTag? (tag : Option String) (value : Option Value) : Option Value :=
  match localTag? tag with
  | some name => value.map (tagged name)
  | none => value

/-- Text, sequence and mapping keys are told apart by their whole content, floats by their value,
a NaN being one key. -/
def sameFloat (x y : Double) : Bool := x == y || (x.isNaN && y.isNaN)

mutual

/-- Whether two values are the same key. Of mappings the order does not count. -/
def same : Value → Value → Bool
  | null, null => true
  | bool a, bool b => a == b
  | int m, int n => m == n
  | float x, float y => sameFloat x y
  | text s, text t => s == t
  | sequence items, sequence others => sameItems items others
  | mapping entries, mapping others =>
    entries.length == others.length && sameEntries entries others
  | tagged t v, tagged u w => t == u && same v w
  | _, _ => false

def sameItems : List Value → List Value → Bool
  | [], [] => true
  | v :: vs, w :: ws => same v w && sameItems vs ws
  | _, _ => false

/-- Whether each entry is among the others. -/
def sameEntries : List (Value × Value) → List (Value × Value) → Bool
  | [], _ => true
  | (k, v) :: rest, others =>
    others.any (fun (l, w) => same k l && same v w) && sameEntries rest others

end

mutual

/-- The value of a node. A key that occurs twice in a mapping is refused. -/
def ofNode? : Node → Option Value
  | .scalar tag style s =>
    match localTag? tag with
    | some _ => withTag? tag (if style = .plain then ofPlain? s else some (text s))
    | none => ofScalar? tag style s
  | .sequence tag items => withTag? tag ((ofItems? items).map sequence)
  | .mapping tag entries => withTag? tag ((ofEntries? [] entries).map mapping)

def ofItems? : List Node → Option (List Value)
  | [] => some []
  | item :: rest => do return (← ofNode? item) :: (← ofItems? rest)

/-- The entries after those with the given keys. -/
def ofEntries? (keys : List Value) : List (Node × Node) → Option (List (Value × Value))
  | [] => some []
  | (k, v) :: rest => do
    let key ← ofNode? k
    if keys.any (same key) then none
    return (key, ← ofNode? v) :: (← ofEntries? (key :: keys) rest)

end

theorem distinct_of_ofEntries? {keys : List Value} {nodes : List (Node × Node)}
    {entries : List (Value × Value)} (h : ofEntries? keys nodes = some entries) :
    (entries.Pairwise fun a b => same b.1 a.1 = false) ∧
      ∀ e ∈ entries, ∀ k ∈ keys, same e.1 k = false := by
  induction nodes generalizing keys entries with
  | nil => simp_all [ofEntries?]
  | cons node rest ih =>
    obtain ⟨k, v⟩ := node
    simp only [ofEntries?, Option.bind_eq_bind, Option.bind_eq_some_iff, Option.pure_def] at h
    obtain ⟨key, -, h⟩ := h
    split at h
    · simp at h
    · next fresh =>
      simp only [List.any_eq_true, not_exists, not_and, Bool.not_eq_true] at fresh
      simp only [Option.bind_eq_some_iff, Option.some.injEq] at h
      obtain ⟨value, -, others, found, rfl⟩ := h
      obtain ⟨distinct, unlike⟩ := ih found
      refine ⟨List.pairwise_cons.2 ⟨fun e he => unlike e he key List.mem_cons_self, distinct⟩, ?_⟩
      rintro e he other hOther
      rcases List.mem_cons.1 he with rfl | he
      · exact fresh other hOther
      · exact unlike e he other (List.mem_cons_of_mem _ hOther)

end Value

/-- A mapping with any keys and values. No key occurs twice. -/
structure Mapping where
  entries : List (Value × Value)
  distinct : entries.Pairwise fun a b => Value.same b.1 a.1 = false

namespace Mapping

def empty : Mapping := ⟨[], .nil⟩

instance : Inhabited Mapping := ⟨empty⟩

end Mapping

end ProductSpec.Yaml
