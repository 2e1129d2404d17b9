/-
  References inside a document: a fragment that holds a pointer, which names a way down from the
  root. In a pointer a tilde is written `~0` and a slash `~1`; the fragment may hold characters as
  `%` and the hexadecimal digits of their bytes.
-/
import ProductSpec.Json.Token
import ProductSpec.Text.Blank
import ProductSpec.Text.Split

namespace ProductSpec.JsonSchema

/-- A name as it is written in a pointer. -/
def escape : List Char → List Char
  | [] => []
  | '~' :: rest => '~' :: '0' :: escape rest
  | '/' :: rest => '~' :: '1' :: escape rest
  | c :: rest => c :: escape rest

/-- The name that a part of a pointer stands for. -/
def unescape : List Char → List Char
  | [] => []
  | '~' :: '0' :: rest => '~' :: unescape rest
  | '~' :: '1' :: rest => '/' :: unescape rest
  | c :: rest => c :: unescape rest

theorem unescape_escape (cs : List Char) : unescape (escape cs) = cs := by
  fun_induction escape cs with
  | case1 => rfl
  | case2 rest ih => simp [unescape, ih]
  | case3 rest ih => simp [unescape, ih]
  | case4 rest c notTilde notSlash ih =>
    rw [unescape.eq_4] <;> simp_all

/-- The reference to the definition of a name. -/
def referenceTo (name : String) : String :=
  "#/definitions/" ++ String.ofList (escape name.toList)

/-- A reference has no blank and no backslash in it. -/
def isReference (reference : String) : Bool :=
  reference.toList.all fun c => !Text.isBlank c && c != '\\'

def hexByte? (high low : UInt8) : Option UInt8 := do
  let h ← Json.hexValue? (Char.ofNat high.toNat)
  let l ← Json.hexValue? (Char.ofNat low.toNat)
  return UInt8.ofNat (16 * h + l)

/-- The bytes that a fragment stands for. A percent sign without two hexadecimal digits after it
stands for itself. -/
def percentDecoded : List UInt8 → List UInt8
  | 0x25 :: high :: low :: rest =>
    match hexByte? high low with
    | some byte => byte :: percentDecoded rest
    | none => 0x25 :: percentDecoded (high :: low :: rest)
  | b :: rest => b :: percentDecoded rest
  | [] => []

/-- Control characters at the end of a reference are not part of it. -/
def trimControls (cs : List Char) : List Char :=
  (cs.reverse.dropWhile fun c => c.toNat ≤ 0x20).reverse

/-- The names on the way that a reference describes. -/
def steps? (reference : String) : Option (List String) := do
  let fragment ← Text.dropStart? ['#'] (trimControls reference.toList)
  let bytes := percentDecoded (String.ofList fragment).toUTF8.toList
  let pointer ← String.fromUTF8? ⟨bytes.toArray⟩
  match Text.split '/' pointer.toList with
  | [] :: steps => return steps.map fun s => String.ofList (unescape s)
  | _ => none

/-- A place in a list, counted from zero and written without leading zeros. -/
def index? (name : String) : Option Nat :=
  let cs := name.toList
  if cs.isEmpty ∨ ¬ cs.all Char.isDigit ∨ (1 < cs.length ∧ cs.head? = some '0') then none
  else some (cs.foldl (fun n c => 10 * n + (c.toNat - 48)) 0)

/-- What is found on a way down from a document. -/
def descend? (document : Json) : List String → Option Json
  | [] => some document
  | name :: rest =>
    match document with
    | .object members =>
      match members.lookup name with
      | some value => descend? value rest
      | none => none
    | .array items =>
      match (index? name).bind fun i => items[i]? with
      | some value => descend? value rest
      | none => none
    | _ => none

def resolve? (root : Json) (reference : String) : Option Json := do
  descend? root (← steps? reference)

end ProductSpec.JsonSchema
