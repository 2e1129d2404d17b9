/-
  Reading values of other types out of documents. A record is an object with its members in any
  order, or an array with the members' values in the order of their declaration; members that
  the record does not have are passed over.
-/
import ProductSpec.BaseType
import ProductSpec.Json.Writer

namespace ProductSpec.Json

open Number

/-- Why a document does not stand for a value. -/
inductive DecodeError
  | shape
  | notOfType (value : Json) (type : BaseType)
deriving Inhabited

/-- The text of the failures that have one. -/
def DecodeError.message? : DecodeError → Option String
  | shape => none
  | notOfType value type =>
    some ("value " ++ value.compact ++ " is not a valid " ++ type.token)

abbrev Decoded := Except DecodeError

/-- The members of a record. -/
structure Record where
  members : List (String × Json)
  /-- Whether an array had more values than the record has members. -/
  surplus : Bool

def countName (name : String) (members : List (String × Json)) : Nat :=
  members.countP fun m => m.1 == name

/-- The members of a record that has the given names; none of them may occur twice. -/
def record (names : List String) : Json → Decoded Record
  | .object members =>
    if names.any fun name => 1 < countName name members then .error .shape
    else .ok ⟨members, false⟩
  | .array items => .ok ⟨names.zip items, names.length < items.length⟩
  | _ => .error .shape

/-- A value that may be null. -/
def decodeNullable {α : Type} (decode : Json → Decoded α) : Json → Decoded (Option α)
  | .null => .ok none
  | value => (decode value).map some

namespace Record

def finish (r : Record) : Decoded Unit := if r.surplus then .error .shape else .ok ()

variable {α : Type}

/-- A member that has to be there. -/
def required (r : Record) (name : String) (decode : Json → Decoded α) : Decoded α :=
  match r.members.lookup name with
  | some value => decode value
  | none => .error .shape

/-- A member with a default. -/
def withDefault (r : Record) (name : String) (default : α) (decode : Json → Decoded α) :
    Decoded α :=
  match r.members.lookup name with
  | some value => decode value
  | none => .ok default

/-- A member that may be absent or null. -/
def optional (r : Record) (name : String) (decode : Json → Decoded α) : Decoded (Option α) :=
  match r.members.lookup name with
  | some value => decodeNullable decode value
  | none => .ok none

end Record

def decodeText : Json → Decoded String
  | .text s => .ok s
  | _ => .error .shape

def decodeBool : Json → Decoded Bool
  | .bool b => .ok b
  | _ => .error .shape

/-- A natural number of at most 64 bits. -/
def decodeNat : Json → Decoded Nat
  | .int (.ofNat n) => if fitsNat64 n then .ok n else .error .shape
  | _ => .error .shape

def decodeWord (j : Json) : Decoded UInt64 := (decodeNat j).map .ofNat

def decodeList {α : Type} (decode : Json → Decoded α) : Json → Decoded (List α)
  | .array items => items.mapM decode
  | _ => .error .shape

/-- A name out of a fixed choice, written as a text or as the only member of an object. -/
def decodeName {α : Type} (ofName? : String → Option α) (j : Json) : Decoded α :=
  let name? := match j with
    | .text s => some s
    | .object [(s, .null)] => some s
    | _ => none
  match name?.bind ofName? with
  | some value => .ok value
  | none => .error .shape

/-- The only member of an object. -/
def decodeOnly : Json → Decoded (String × Json)
  | .object [member] => .ok member
  | _ => .error .shape

end ProductSpec.Json
