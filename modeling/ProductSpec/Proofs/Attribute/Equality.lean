/-
  Equal literals ask for the same values. Equality is that of values, so a zero may change its
  sign, and a literal with a NaN in it is not even equal to itself.
-/
import ProductSpec.Proofs.Attribute.Example

namespace ProductSpec

open Number

namespace Number.Binary

variable {f : BinaryFormat}

/-- Equal numbers are the same number or two zeros. -/
theorem beq_cases {x y : Binary f} (same : (x == y) = true) :
    x = y ∨ ∃ a b s h h', x = .finite a 0 s h ∧ y = .finite b 0 s h' := by
  replace same : equals x y = true := same
  cases x with
  | nan => cases same
  | infinite a =>
    cases y with
    | infinite b => exact .inl (congrArg infinite (beq_iff_eq.1 same))
    | nan => cases same
    | finite => cases same
  | finite a m s h =>
    cases y with
    | nan => cases same
    | infinite => cases same
    | finite b n t h' =>
      simp only [equals, Bool.and_eq_true, Bool.or_eq_true, beq_iff_eq] at same
      obtain ⟨⟨rfl, rfl⟩, rfl | rfl⟩ := same
      · exact .inr ⟨a, b, s, h, h', rfl, rfl⟩
      · exact .inl rfl

/-- Equal numbers are equal to the same numbers. -/
theorem beq_congr {x y : Binary f} (same : (x == y) = true) (z : Binary f) :
    (z == x) = (z == y) := by
  rcases beq_cases same with rfl | ⟨a, b, s, h, h', rfl, rfl⟩
  · rfl
  · cases z with
    | nan => rfl
    | infinite => rfl
    | finite c k r =>
      show (k == 0 && r == s && (k == 0 || c == a)) = (k == 0 && r == s && (k == 0 || c == b))
      cases k == 0 <;> rfl

theorem roundDiv_zero (den : Nat) : roundDiv 0 den = 0 := by
  unfold roundDiv
  rw [Nat.zero_mod, Nat.zero_div]
  split
  · rfl
  · rw [if_neg (Nat.not_lt_zero den)]

/-- A zero keeps its sign when it is rounded. -/
theorem narrow_zero (negative : Bool) {s : Nat} (h : double.Canonical 0 s) :
    (finite negative 0 s h : Double).narrow = .finite negative 0 0 (by decide) := by
  have units : roundUnits single 0 (1 <<< double.scale) = (0, 0) := by
    unfold roundUnits
    dsimp only
    rw [Nat.zero_div, roundDiv_zero]
    rfl
  show ofRatio negative (0 <<< s) (1 <<< double.scale) = _
  unfold ofRatio
  rw [Nat.zero_shiftLeft, Nat.zero_shiftLeft, units]
  rfl

theorem isNaN_narrow {x : Double} (h : x.isNaN = false) : x.narrow.isNaN = false := by
  cases x with
  | nan => cases h
  | infinite => rfl
  | finite => exact isNaN_ofRatio ..

/-- Equal doubles round to equal singles. -/
theorem narrow_beq {x y : Double} (same : (x == y) = true) : (x.narrow == y.narrow) = true := by
  rcases beq_cases same with rfl | ⟨a, b, s, h, h', rfl, rfl⟩
  · rw [beq_self, Bool.not_eq_true'] at same ⊢
    exact isNaN_narrow same
  · rw [narrow_zero, narrow_zero]
    rfl

end Number.Binary

namespace Literal

/-- The items of equal lists are equal one by one. -/
theorem forall₂_of_equalLists {items others : List Literal}
    (same : equalLists items others = true) :
    List.Forall₂ (fun l m => (l == m) = true) items others := by
  induction items generalizing others with
  | nil =>
    cases others with
    | nil => exact .nil
    | cons => simp [equalLists] at same
  | cons item rest ih =>
    cases others with
    | nil => simp [equalLists] at same
    | cons other more =>
      rw [equalLists, Bool.and_eq_true] at same
      exact .cons same.1 (ih same.2)

/-- Equal literals are the same, equal floats, or lists of equal items. -/
theorem beq_cases {l m : Literal} (same : (l == m) = true) :
    l = m ∨ (∃ x y, l = float x ∧ m = float y ∧ (x == y) = true) ∨
      ∃ items others, l = list items ∧ m = list others ∧
        List.Forall₂ (fun l m => (l == m) = true) items others := by
  replace same : l.equals m = true := same
  cases l with
  | int n =>
    cases m with
    | int k => exact .inl (congrArg int (beq_iff_eq.1 (show (n == k) = true from same)))
    | float | text | list => simp [equals] at same
  | text t =>
    cases m with
    | text u => exact .inl (congrArg text (beq_iff_eq.1 (show (t == u) = true from same)))
    | float | int | list => simp [equals] at same
  | float x =>
    cases m with
    | float y => exact .inr (.inl ⟨x, y, rfl, rfl, same⟩)
    | int | text | list => simp [equals] at same
  | list items =>
    cases m with
    | list others => exact .inr (.inr ⟨items, others, rfl, rfl, forall₂_of_equalLists same⟩)
    | int | float | text => simp [equals] at same

/-- Equal literals are matched by the same single values. -/
theorem matchesScalar_congr {l m : Literal} (same : (l == m) = true) (s : Scalar) :
    l.matchesScalar s = m.matchesScalar s := by
  rcases beq_cases same with rfl | ⟨x, y, rfl, rfl, same⟩ | ⟨items, others, rfl, rfl, -⟩
  · rfl
  · cases s with
    | float32 z => exact Number.Binary.beq_congr (Number.Binary.narrow_beq same) z
    | float64 z => exact Number.Binary.beq_congr same z
    | str | char | integer => rfl
  · rfl

theorem all_matchesScalar_congr {items others : List Literal}
    (each : List.Forall₂ (fun l m => (l == m) = true) items others) (elements : List Scalar) :
    ((items.zip elements).all fun (item, s) => item.matchesScalar s) =
      (others.zip elements).all fun (item, s) => item.matchesScalar s := by
  induction each generalizing elements with
  | nil => rfl
  | cons first _ ih =>
    cases elements with
    | nil => rfl
    | cons s rest =>
      rw [List.zip_cons_cons, List.zip_cons_cons, List.all_cons, List.all_cons, ih]
      dsimp only
      rw [matchesScalar_congr first]

/-- Equal literals are matched by the same values. -/
theorem matches_congr {l m : Literal} (same : (l == m) = true) (value : AttributeValue) :
    l.matches value = m.matches value := by
  have scalar := matchesScalar_congr same
  rcases beq_cases same with rfl | ⟨x, y, rfl, rfl, -⟩ | ⟨items, others, rfl, rfl, each⟩
  · rfl
  · cases value with
    | scalar s => exact scalar s
    | array t elements =>
      cases elements with
      | nil => rfl
      | cons s rest =>
        cases rest with
        | nil => exact scalar s
        | cons => rfl
  · cases value with
    | scalar s =>
      cases each with
      | nil => rfl
      | cons first rest =>
        cases rest with
        | nil => exact matchesScalar_congr first s
        | cons => rfl
    | array t elements =>
      show (items.length == elements.length && _) = (others.length == elements.length && _)
      rw [each.length_eq, all_matchesScalar_congr each]

end Literal

end ProductSpec
