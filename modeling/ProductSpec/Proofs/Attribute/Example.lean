/-
  Values that are made up for constraints. The value stored for a literal matches it unless there
  is a NaN in the literal, which equals nothing; a sample of a type conforms to every placeholder
  for that type.
-/
import ProductSpec.DataFile.Example
import ProductSpec.Proofs.Dataset.WellFormed
import ProductSpec.Validation.Attribute
import Mathlib.Data.List.Forall2

namespace ProductSpec

open Number

namespace Number.Binary

variable {f : BinaryFormat}

theorem isNaN_ofRatio (negative : Bool) (num den : Nat) :
    (ofRatio negative num den : Binary f).isNaN = false := by
  unfold ofRatio
  dsimp only
  split <;> rfl

theorem isNaN_ofInt (n : Int) : (ofInt n : Binary f).isNaN = false := isNaN_ofRatio ..

theorem isNaN_of_isFinite {x : Binary f} (h : x.isFinite = true) : x.isNaN = false := by
  cases x with
  | finite => rfl
  | nan | infinite => cases h

theorem beq_self (x : Binary f) : (x == x) = !x.isNaN := equals_self x

end Number.Binary

namespace Literal

def isNaN : Literal → Bool
  | float x => x.isNaN
  | _ => false

/-- Whether a literal is a NaN or a list with one in it. -/
def holdsNaN : Literal → Bool
  | list items => items.any isNaN
  | l => l.isNaN

theorem isNaN_of_isText {l : Literal} (h : l.isText = true) : l.isNaN = false := by
  cases l with
  | text s => rfl
  | int n => rfl
  | list items => rfl
  | float x => cases h

theorem isNaN_of_isInt {l : Literal} (h : l.isInt = true) : l.isNaN = false := by
  cases l with
  | int n => rfl
  | text s => rfl
  | list items => rfl
  | float x => cases h

theorem matchesScalar_text (s : String) : (text s).matchesScalar (.str s) = true := by
  show (some s == some s) = true
  exact beq_self_eq_true _

theorem matchesScalar_storeInt64 (n : Int64) : (int n).matchesScalar (storeInt64 n) = true := by
  show (some n.toInt == some n.toInt) = true
  exact beq_self_eq_true _

theorem matchesScalar_of_storeInt32? {n : Int64} {s : Scalar} (h : storeInt32? n = some s) :
    (int n).matchesScalar s = true := by
  unfold storeInt32? at h
  split at h
  · cases h
    show (some n.toInt == some n.toInt) = true
    exact beq_self_eq_true _
  · cases h

/-- A number as a double matches what it was made of unless it is a NaN. -/
theorem matchesScalar_of_double? {l : Literal} {x : Double} (h : l.double? = some x) :
    l.matchesScalar (.float64 x) = !l.isNaN := by
  cases l with
  | int n =>
    cases h
    show (Binary.ofInt n.toInt == (Binary.ofInt n.toInt : Double)) = true
    rw [Binary.beq_self, Binary.isNaN_ofInt]
    rfl
  | float y =>
    cases h
    exact Binary.beq_self x
  | text s => cases h
  | list items => cases h

/-- A list is matched by an array whose elements match its items one by one. -/
theorem matches_array {items : List Literal} {elements : List Scalar} {t : BaseType}
    (each : List.Forall₂ (fun l s => l.matchesScalar s = !l.isNaN) items elements) :
    (list items).matches (.array t elements) = !(list items).holdsNaN := by
  show (items.length == elements.length &&
    (items.zip elements).all fun e => e.1.matchesScalar e.2) = !items.any isNaN
  rw [each.length_eq, beq_self_eq_true, Bool.true_and]
  induction each with
  | nil => rfl
  | @cons item s _ _ first _ ih =>
    rw [List.zip_cons_cons, List.all_cons, List.any_cons, Bool.not_or, ← ih, ← first]

theorem forall₂_filterMap {α β : Type} {R : α → β → Prop} {f : α → Option β} {items : List α}
    (h : ∀ x ∈ items, ∃ y, f x = some y ∧ R x y) : List.Forall₂ R items (items.filterMap f) := by
  induction items with
  | nil => exact .nil
  | cons x rest ih =>
    obtain ⟨first, others⟩ := List.forall_mem_cons.1 h
    obtain ⟨y, made, related⟩ := first
    rw [List.filterMap_cons_some made]
    exact .cons related (ih others)

/-- Integers that all fit are stored one by one. -/
theorem forall₂_of_mapM_storeInt32? {items : List Literal} {small : List Scalar}
    (ints : ∀ l ∈ items, l.isInt = true)
    (h : (items.filterMap int?).mapM storeInt32? = some small) :
    List.Forall₂ (fun l s => l.matchesScalar s = !l.isNaN) items small := by
  induction items generalizing small with
  | nil =>
    cases h
    exact .nil
  | cons l rest ih =>
    obtain ⟨isInt, intsRest⟩ := List.forall_mem_cons.1 ints
    cases l with
    | int n =>
      rw [List.filterMap_cons_some (show int? (int n) = some n from rfl), List.mapM_cons] at h
      obtain ⟨s, stored, h⟩ := Option.bind_eq_some_iff.1 h
      obtain ⟨others, storedOthers, h⟩ := Option.bind_eq_some_iff.1 h
      cases h
      exact .cons (matchesScalar_of_storeInt32? stored) (ih intsRest storedOthers)
    | float x => cases isInt
    | text s => cases isInt
    | list items => cases isInt

/-- The stored list is matched as well: all texts, all integers, or numbers as doubles. -/
theorem matches_toValue_list {items : List Literal} (flat : (list items).IsFlat) :
    (list items).matches (list items).toValue = !(list items).holdsNaN := by
  obtain ⟨plain, oneFamily⟩ := flat
  rw [toValue]
  split
  · next texts =>
    refine matches_array (forall₂_filterMap fun l mem => ?_)
    have isText : l.isText = true := List.all_eq_true.1 texts l mem
    rw [isNaN_of_isText isText]
    cases l with
    | text s => exact ⟨.str s, rfl, matchesScalar_text s⟩
    | int n => cases isText
    | float x => cases isText
    | list items => cases isText
  · next mixed =>
    split
    · next ints =>
      have isInt : ∀ l ∈ items, l.isInt = true := List.all_eq_true.1 ints
      dsimp only
      split
      · next small stored => exact matches_array (forall₂_of_mapM_storeInt32? isInt stored)
      · rw [List.map_filterMap]
        refine matches_array (forall₂_filterMap fun l mem => ?_)
        rw [isNaN_of_isInt (isInt l mem)]
        cases l with
        | int n => exact ⟨storeInt64 n, rfl, matchesScalar_storeInt64 n⟩
        | float x => cases isInt _ mem
        | text s => cases isInt _ mem
        | list items => cases isInt _ mem
    · -- Not all are texts, so none is, and what is left has a value as a double.
      have numbers : ∀ l ∈ items, l.isText = false :=
        oneFamily.resolve_left fun texts => mixed (List.all_eq_true.2 texts)
      refine matches_array (forall₂_filterMap fun l mem => ?_)
      cases l with
      | int n => exact ⟨_, rfl, matchesScalar_of_double? (l := int n) rfl⟩
      | float x => exact ⟨_, rfl, matchesScalar_of_double? (l := float x) rfl⟩
      | text s => cases numbers _ mem
      | list items => cases plain _ mem

/-- A literal is matched by the value stored for it just when there is no NaN in it. -/
theorem matches_toValue {l : Literal} (flat : l.IsFlat) : l.matches l.toValue = !l.holdsNaN := by
  cases l with
  | text s => exact matchesScalar_text s
  | float x => exact Binary.beq_self x
  | list items => exact matches_toValue_list flat
  | int n =>
    show (int n).matchesScalar ((storeInt32? n).getD (storeInt64 n)) = true
    cases stored : storeInt32? n with
    | none => exact matchesScalar_storeInt64 n
    | some s => exact matchesScalar_of_storeInt32? stored

end Literal

namespace AttributeConstraint

/-- Whether a constraint is a literal with a NaN in it, which no value satisfies. -/
def holdsNaN (c : AttributeConstraint) : Bool :=
  match c.kind with
  | .literal l => l.holdsNaN
  | .placeholder _ => false

theorem conformsTo_sample (p : Placeholder) :
    AttributeValue.conformsTo p
      (if p.isArray then .array p.baseType [Scalar.sample p.baseType]
      else .scalar (Scalar.sample p.baseType)) = true := by
  cases isArray : p.isArray with
  | true => simp [AttributeValue.conformsTo, isArray, Scalar.baseType_sample]
  | false => simp [AttributeValue.conformsTo, Scalar.baseType_sample]

/-- The value made up for a constraint satisfies it, a NaN apart. -/
theorem checkValue_exampleValue {c : AttributeConstraint}
    (flat : ∀ l, c.kind = .literal l → l.IsFlat) (o : ValidationOptions) (path : NodePath) :
    c.checkValue o path c.exampleValue = .pass path ∧ c.holdsNaN = false ∨
      c.holdsNaN = true ∧ ∃ message constraint,
        c.checkValue o path c.exampleValue =
          o.finding .valueMismatch path message constraint := by
  unfold checkValue exampleValue holdsNaN
  cases kind : c.kind with
  | literal l =>
    dsimp only
    rw [Literal.matches_toValue (flat l kind)]
    cases l.holdsNaN with
    | true => exact .inr ⟨rfl, _, _, rfl⟩
    | false => exact .inl ⟨rfl, rfl⟩
  | placeholder p =>
    dsimp only
    rw [conformsTo_sample, if_pos rfl]
    exact .inl ⟨rfl, rfl⟩

end AttributeConstraint

end ProductSpec
