/-
  The order of versions is transitive, and swapping two versions swaps how they compare. A bump is
  declared to those versions that are above the old one in their numbers, and only to them.
-/
import ProductSpec.Comparison.Release

namespace ProductSpec.Version

open Std

variable {α β : Type} {numbers one : String → String → Ordering}

theorem transCmp_on (cmp : β → β → Ordering) [TransCmp cmp] (f : α → β) :
    TransCmp fun a b => cmp (f a) (f b) where
  eq_swap {a b} := @OrientedCmp.eq_swap β cmp _ (f a) (f b)
  isLE_trans {a b c} := @TransCmp.isLE_trans β cmp _ (f a) (f b) (f c)

instance : TransCmp compareNumbers :=
  inferInstanceAs (TransCmp (compareLex (compareOn String.length) compare))

instance : TransCmp compareBuildNumbers :=
  have := transCmp_on compareNumbers withoutZeros
  inferInstanceAs (TransCmp (compareLex
    (fun a b => compareNumbers (withoutZeros a) (withoutZeros b)) (compareOn String.length)))

instance [TransCmp numbers] : TransCmp (compareIdentifiers numbers) where
  eq_swap {a b} := by
    unfold compareIdentifiers
    cases isNumeric a <;> cases isNumeric b
    case false.false => exact OrientedOrd.eq_swap
    case true.true => exact @OrientedCmp.eq_swap String numbers _ a b
    all_goals rfl
  isLE_trans {a b c} := by
    unfold compareIdentifiers
    cases isNumeric a <;> cases isNumeric b <;> cases isNumeric c <;> intro below below'
    case false.false.false => exact TransOrd.isLE_trans below below'
    case true.true.true => exact @TransCmp.isLE_trans String numbers _ a b c below below'
    all_goals first
      | rfl
      | exact (Bool.false_ne_true below).elim
      | exact (Bool.false_ne_true below').elim

theorem compareAll_eq (one : String → String → Ordering) :
    compareAll one = List.compareLex one := by
  funext as bs
  induction as generalizing bs with
  | nil => cases bs <;> rfl
  | cons a as ih =>
    cases bs with
    | nil => rfl
    | cons b bs => rw [compareAll, List.compareLex_cons_cons, ih]

instance [TransCmp one] : TransCmp (compareAll one) := by
  rw [compareAll_eq]
  infer_instance

instance : TransCmp comparePre where
  eq_swap {a b} := by
    cases a <;> cases b
    case cons.cons a as b bs =>
      exact @OrientedCmp.eq_swap (List String) (compareAll (compareIdentifiers compareNumbers)) _
        (a :: as) (b :: bs)
    all_goals rfl
  isLE_trans {a b c} := by
    cases a <;> cases b <;> cases c <;> intro below below'
    case cons.cons.cons a as b bs c cs =>
      exact @TransCmp.isLE_trans (List String) (compareAll (compareIdentifiers compareNumbers)) _
        (a :: as) (b :: bs) (c :: cs) below below'
    all_goals first
      | rfl
      | exact (Bool.false_ne_true below).elim
      | exact (Bool.false_ne_true below').elim

instance : TransCmp compareBuild :=
  inferInstanceAs (TransCmp (compareAll (compareIdentifiers compareBuildNumbers)))

instance : TransCmp order :=
  have := transCmp_on comparePre pre
  have := transCmp_on compareBuild build
  inferInstanceAs (TransCmp (compareLex (compareOn major) (compareLex (compareOn minor)
    (compareLex (compareOn patch) (compareLex (fun a b => comparePre a.pre b.pre)
      fun a b => compareBuild a.build b.build)))))

instance : TransOrd Version := inferInstanceAs (TransCmp order)

/-- A version without its identifiers. -/
def plain (v : Version) : Version := { v with pre := [], build := [] }

/-- The most significant number in which two versions differ. -/
def difference? (a b : Version) : Option Bump :=
  if a.major ≠ b.major then some .major
  else if a.minor ≠ b.minor then some .minor
  else if a.patch ≠ b.patch then some .patch
  else none

variable {a b old new : Version}

/-- The numbers come first, then the identifiers. -/
theorem order_eq_then (a b : Version) : order a b =
    (order a.plain b.plain).then ((comparePre a.pre b.pre).then (compareBuild a.build b.build)) := by
  have none : (comparePre [] []).then (compareBuild [] []) = .eq := rfl
  simp only [order, plain, none, Ordering.then_assoc, Ordering.eq_then]

theorem order_plain_eq_eq : order a.plain b.plain = .eq ↔ a.plain = b.plain := by
  simp [order, plain, Ordering.then_eq_eq, comparePre, compareBuild, compareAll]

theorem order_plain_eq_gt : order a.plain b.plain = .gt ↔ b.major < a.major ∨
    a.major = b.major ∧ (b.minor < a.minor ∨ a.minor = b.minor ∧ b.patch < a.patch) := by
  simp [order, plain, Ordering.then_eq_gt, comparePre, compareBuild, compareAll, Nat.compare_eq_gt]

/-- The bump is that of the most significant number in which the versions differ, if the new one is
the greater in it. -/
theorem bumpFrom?_eq :
    new.bumpFrom? old = if order new.plain old.plain = .gt then difference? new old else none := by
  simp only [bumpFrom?, isMajorBumpFrom, isMinorBumpFrom, isPatchBumpFrom, difference?,
    order_plain_eq_gt, decide_eq_true_eq, Bool.and_eq_true, beq_iff_eq]
  rcases Nat.lt_trichotomy old.major new.major with above | major | below
  · simp [above, Nat.ne_of_gt above]
  · rcases Nat.lt_trichotomy old.minor new.minor with above | minor | below
    · simp [major, above, Nat.ne_of_gt above]
    · rcases Nat.lt_trichotomy old.patch new.patch with above | patch | below
      · simp [major, minor, above, Nat.ne_of_gt above]
      · simp [major, minor, patch]
      · simp [major, minor, Nat.lt_asymm below]
    · simp [major, Nat.lt_asymm below, Nat.ne_of_lt below]
  · simp [Nat.lt_asymm below, Nat.ne_of_lt below]

/-- There is no bump to a version that is not above the old one, nor to one with the same numbers. -/
theorem bumpFrom?_eq_none_iff :
    new.bumpFrom? old = none ↔ order new old ≠ .gt ∨ new.plain = old.plain := by
  have differ : order new.plain old.plain = .gt → difference? new old ≠ none := by
    rw [order_plain_eq_gt]
    rintro (major | ⟨major, minor | ⟨minor, patch⟩⟩)
    · simp [difference?, Nat.ne_of_gt major]
    · simp [difference?, major, Nat.ne_of_gt minor]
    · simp [difference?, major, minor, Nat.ne_of_gt patch]
  have noBump : new.bumpFrom? old = none ↔ order new.plain old.plain ≠ .gt := by
    rw [bumpFrom?_eq]
    split
    · next above => exact iff_of_false (differ above) fun notAbove => notAbove above
    · next notAbove => exact iff_of_true rfl notAbove
  rw [noBump, order_eq_then new old, Ne, Ne, Ordering.then_eq_gt, order_plain_eq_eq]
  -- Between equal numbers the order goes on to the identifiers, and the bump does not.
  constructor
  · intro notAbove
    by_cases same : new.plain = old.plain
    · exact .inr same
    · exact .inl fun above => above.elim notAbove fun rest => same rest.1
  · rintro (notAbove | same) above
    · exact notAbove (.inl above)
    · rw [order_plain_eq_eq.2 same] at above
      cases above

theorem count_bumps_le (new old : Version) :
    [new.isMajorBumpFrom old, new.isMinorBumpFrom old, new.isPatchBumpFrom old].count true ≤ 1 := by
  have noOther : new.isMajorBumpFrom old = true →
      new.isMinorBumpFrom old = false ∧ new.isPatchBumpFrom old = false := by
    intro above
    have differ := Nat.ne_of_gt (of_decide_eq_true above)
    simp [isMinorBumpFrom, isPatchBumpFrom, differ]
  have noPatch : new.isMinorBumpFrom old = true → new.isPatchBumpFrom old = false := by
    intro above
    have differ := Nat.ne_of_gt (of_decide_eq_true (Bool.and_eq_true_iff.1 above).2)
    simp [isPatchBumpFrom, differ]
  cases major : new.isMajorBumpFrom old with
  | true =>
    obtain ⟨minor, patch⟩ := noOther major
    rw [minor, patch]
    decide
  | false =>
    cases minor : new.isMinorBumpFrom old with
    | true =>
      rw [noPatch minor]
      decide
    | false => cases new.isPatchBumpFrom old <;> decide

/-- A bump is declared to the versions above the old one, but for those that only their identifiers
put there. It is one bump, that of the most significant number in which the versions differ. -/
theorem bumpFrom?_exactly (old new : Version) :
    (new.bumpFrom? old = none ↔ order new old ≠ .gt ∨ new.plain = old.plain) ∧
      [new.isMajorBumpFrom old, new.isMinorBumpFrom old, new.isPatchBumpFrom old].count true ≤ 1 ∧
      new.bumpFrom? old =
        if order new.plain old.plain = .gt then difference? new old else none :=
  ⟨bumpFrom?_eq_none_iff, count_bumps_le new old, bumpFrom?_eq⟩

/-- A version is above its candidates, and no bump is declared from them to it. -/
theorem bumpFrom?_candidate :
    ofCheckedTag? "1.0.0-rc.1" = some ⟨1, 0, 0, ["rc", "1"], []⟩ ∧
      ofCheckedTag? "1.0.0" = some ⟨1, 0, 0, [], []⟩ ∧
      order ⟨1, 0, 0, [], []⟩ ⟨1, 0, 0, ["rc", "1"], []⟩ = .gt ∧
      bumpFrom? ⟨1, 0, 0, [], []⟩ ⟨1, 0, 0, ["rc", "1"], []⟩ = none := by
  decide +kernel

end ProductSpec.Version
