/-
  What the text of a number is read as: integers of a machine word read as themselves, and floats
  read as floats, though not always as the same ones.
-/
import ProductSpec.Proofs.Json.Words
import Mathlib.Data.List.TakeWhile

namespace ProductSpec.Json

open Number

/-- Whether a signed or an unsigned word holds an integer. -/
def FitsWord (n : Int) : Prop := -0x8000000000000000 ≤ n ∧ n ≤ 0xFFFFFFFFFFFFFFFF

/-- The float that the text of a finite one is read as. -/
def rereadFloat? (x : Double) : Option Double :=
  match readNumber (numberText x).toList with
  | some (.float y) => some y
  | _ => none

/-- The form of a number's text: a sign or a digit, then what numbers are made of. -/
def IsNumberText (cs : List Char) : Prop :=
  ∃ c others, cs = c :: others ∧ (c = '-' ∨ c.isDigit = true) ∧ ∀ d ∈ others, isNumberChar d = true

theorem isNumberChar_of_isDigit {c : Char} (h : c.isDigit = true) : isNumberChar c = true := by
  simp [isNumberChar, h]

theorem isNumberText_of_all {cs : List Char} {c : Char} {others : List Char}
    (split : cs = c :: others) (first : c = '-' ∨ c.isDigit = true)
    (all : ∀ d ∈ cs, isNumberChar d = true) : IsNumberText cs :=
  ⟨c, others, split, first, fun d mem => all d (split ▸ List.mem_cons_of_mem c mem)⟩

theorem toList_toString (n : Int) :
    (toString n).toList =
      if 0 ≤ n then Nat.toDigits 10 n.toNat else '-' :: Nat.toDigits 10 (-n).toNat := by
  rw [Int.toString_eq_repr, Int.repr_eq_if]
  split <;> simp

theorem isNumberText_toString (n : Int) : IsNumberText (toString n).toList := by
  rw [toList_toString]
  split
  · obtain ⟨c, others, split⟩ := List.exists_cons_of_ne_nil (l := Nat.toDigits 10 n.toNat)
      Nat.toDigits_ne_nil
    have digits : ∀ d ∈ Nat.toDigits 10 n.toNat, d.isDigit = true := fun _ =>
      isDigit_of_mem_toDigits
    refine isNumberText_of_all split (.inr (digits c (split ▸ List.mem_cons_self))) ?_
    exact fun d mem => isNumberChar_of_isDigit (digits d mem)
  · exact ⟨'-', _, rfl, .inl rfl, fun d mem =>
      isNumberChar_of_isDigit (isDigit_of_mem_toDigits mem)⟩

theorem readNumber_unsigned {cs : List Char} (h : cs.head? ≠ some '-') :
    readNumber cs = readUnsigned false cs := by
  unfold readNumber
  split
  · exact absurd rfl h
  · rfl

theorem readUnsigned_digits (negative : Bool) (n : Nat) :
    readUnsigned negative (Nat.toDigits 10 n) = readWhole negative (Nat.toDigits 10 n) := by
  have stop : ∀ c ∈ ([] : List Char).head?, c.isDigit = false := nofun
  obtain ⟨taken, dropped⟩ := takeWhile_toDigits n stop
  rw [List.append_nil] at taken dropped
  rw [readUnsigned, taken, dropped, if_neg]
  rintro (empty | zero)
  · exact Nat.toDigits_ne_nil (List.isEmpty_iff.1 empty)
  · exact not_leading_zero n zero

/-- An integer of a word is read as itself. -/
theorem readNumber_toString {n : Int} (fits : FitsWord n) :
    readNumber (toString n).toList = some (.int n) := by
  have value : ∀ k, (Nat.toDigits 10 k).foldl (fun n c => 10 * n + digitValue c) 0 = k :=
    foldl_toDigits
  rw [toList_toString]
  split
  · next positive =>
    have unsigned : (Nat.toDigits 10 n.toNat).head? ≠ some '-' := by
      intro h
      have digit := isDigit_of_mem_toDigits (List.mem_of_mem_head? h)
      cases digit
    have fits : fitsNat64 n.toNat = true := by
      have below := fits.2
      exact decide_eq_true (show n.toNat ≤ 0xFFFFFFFFFFFFFFFF by omega)
    rw [readNumber_unsigned unsigned, readUnsigned_digits, readWhole, value]
    simp only [fits, Bool.not_false, Bool.and_true, if_true]
    rw [Int.toNat_of_nonneg positive]
  · next negative =>
    have fits : fitsInt64 n = true := by
      simp only [fitsInt64, Bool.and_eq_true, decide_eq_true_eq]
      have := fits.1
      omega
    have positive : 0 < (-n).toNat := by omega
    have back : -((-n).toNat : Int) = n := by omega
    rw [readNumber, readUnsigned_digits, readWhole, value, back]
    simp [fits, positive]

/-- A text with a point or an exponent in it reads as a float, if as anything. -/
theorem readNumber_float {cs : List Char} (mark : ∃ c ∈ cs, c = '.' ∨ c = 'e') :
    readNumber cs = none ∨ ∃ y, readNumber cs = some (.float y) := by
  have unsigned : ∀ negative (cs : List Char), (∃ c ∈ cs, c = '.' ∨ c = 'e') →
      readUnsigned negative cs = none ∨ ∃ y, readUnsigned negative cs = some (.float y) := by
    rintro negative cs ⟨c, mem, isMark⟩
    rw [readUnsigned]
    split
    · exact .inl rfl
    · split
      · next none =>
        have digit := List.dropWhile_eq_nil_iff.1 none c mem
        rcases isMark with rfl | rfl <;> cases digit
      · cases readScaled negative _ _ with
        | none => exact .inl rfl
        | some y => exact .inr ⟨y, rfl⟩
  unfold readNumber
  split
  · next rest =>
    refine unsigned true rest ?_
    obtain ⟨c, mem, isMark⟩ := mark
    rcases List.mem_cons.1 mem with rfl | mem
    · rcases isMark with same | same <;> cases same
    · exact ⟨c, mem, isMark⟩
  · exact unsigned false _ mark

section Floats

theorem isDigit_of_mem_zeros {n : Nat} {c : Char} (h : c ∈ (DecimalStyle.zeros n).toList) :
    c.isDigit = true := by
  rw [DecimalStyle.zeros, String.toList_ofList] at h
  rw [List.eq_of_mem_replicate h]
  rfl

/-- A text that begins with digits, one of which is followed by a point or an exponent. -/
def IsFloatText (cs : List Char) : Prop :=
  ∃ front mark back, cs = front ++ mark :: back ∧ front ≠ [] ∧ (∀ c ∈ front, c.isDigit = true) ∧
    (mark = '.' ∨ mark = 'e') ∧ ∀ c ∈ back, isNumberChar c = true

variable (d : Decimal)

theorem isDigit_of_mem_digits {c : Char} (h : c ∈ Nat.toDigits 10 d.digits) :
    isNumberChar c = true :=
  isNumberChar_of_isDigit (isDigit_of_mem_toDigits h)

theorem isFloatText_plain : IsFloatText (DecimalStyle.document.layoutPlain d).toList := by
  have digits : ∀ c ∈ Nat.toDigits 10 d.digits, c.isDigit = true := fun _ => isDigit_of_mem_toDigits
  unfold DecimalStyle.layoutPlain
  simp only
  generalize ((Nat.toDigits 10 d.digits).length : Int) + d.exponent = point
  -- The point stands behind all digits, between two of them, or before the first one.
  split
  · refine ⟨Nat.toDigits 10 d.digits ++ (DecimalStyle.zeros d.exponent.toNat).toList, '.', ['0'],
      ?_, ?_, ?_, .inl rfl, List.forall_mem_singleton.2 rfl⟩
    · simp [DecimalStyle.document]
    · simp
    · intro c mem
      rcases List.mem_append.1 mem with mem | mem
      · exact digits c mem
      · exact isDigit_of_mem_zeros mem
  · split
    · refine ⟨(Nat.toDigits 10 d.digits).take point.toNat, '.',
        (Nat.toDigits 10 d.digits).drop point.toNat, ?_, ?_, ?_, .inl rfl, ?_⟩
      · simp
      · rw [ne_eq, List.take_eq_nil_iff, not_or]
        exact ⟨by omega, Nat.toDigits_ne_nil⟩
      · exact fun c mem => digits c (List.mem_of_mem_take mem)
      · exact fun c mem => isDigit_of_mem_digits d (List.mem_of_mem_drop mem)
    · refine ⟨['0'], '.', (DecimalStyle.zeros (-point).toNat).toList ++ Nat.toDigits 10 d.digits,
        ?_, List.cons_ne_nil _ _, List.forall_mem_singleton.2 rfl, .inl rfl, ?_⟩
      · simp
      · intro c mem
        rcases List.mem_append.1 mem with mem | mem
        · exact isNumberChar_of_isDigit (isDigit_of_mem_zeros mem)
        · exact isDigit_of_mem_digits d mem

/-- What stands behind the `e` of a number. -/
theorem isNumberChar_of_mem_exponent {e : Int} {c : Char}
    (h : c ∈ (if e < 0 then "-" else DecimalStyle.document.plus).toList ++
      Nat.toDigits 10 e.natAbs) : isNumberChar c = true := by
  rcases List.mem_append.1 h with h | h
  · have sign : (if e < 0 then "-" else DecimalStyle.document.plus).toList.all isNumberChar =
        true := by
      split <;> rfl
    exact List.all_eq_true.1 sign c h
  · exact isNumberChar_of_isDigit (isDigit_of_mem_toDigits h)

theorem isFloatText_scientific : IsFloatText (DecimalStyle.document.layoutScientific d).toList := by
  have front : (Nat.toDigits 10 d.digits).take 1 ≠ [] := by
    rw [ne_eq, List.take_eq_nil_iff, not_or]
    exact ⟨by decide, Nat.toDigits_ne_nil⟩
  have digits : ∀ c ∈ (Nat.toDigits 10 d.digits).take 1, c.isDigit = true := fun c mem =>
    isDigit_of_mem_toDigits (List.mem_of_mem_take mem)
  unfold DecimalStyle.layoutScientific
  simp only
  generalize ((Nat.toDigits 10 d.digits).length : Int) + d.exponent - 1 = e
  split
  · refine ⟨_, 'e', (if e < 0 then "-" else DecimalStyle.document.plus).toList ++
      Nat.toDigits 10 e.natAbs, ?_, front, digits, .inr rfl,
      fun c => isNumberChar_of_mem_exponent⟩
    simp [DecimalStyle.digitsText]
  · refine ⟨_, '.', (Nat.toDigits 10 d.digits).drop 1 ++ 'e' ::
      ((if e < 0 then "-" else DecimalStyle.document.plus).toList ++ Nat.toDigits 10 e.natAbs),
      ?_, front, digits, .inl rfl, fun c mem => ?_⟩
    · simp [DecimalStyle.digitsText]
    · rcases List.mem_append.1 mem with mem | mem
      · exact isDigit_of_mem_digits d (List.mem_of_mem_drop mem)
      · rcases List.mem_cons.1 mem with rfl | mem
        · rfl
        · exact isNumberChar_of_mem_exponent mem

theorem isFloatText_layout : IsFloatText (DecimalStyle.document.layout d).toList := by
  unfold DecimalStyle.layout
  simp only [DecimalStyle.document]
  split
  · exact isFloatText_plain d
  · exact isFloatText_scientific d

end Floats

/-- The text of a finite float. -/
theorem numberText_finite {x : Double} (finite : x.isFinite = true) :
    IsNumberText (numberText x).toList ∧ ∃ c ∈ (numberText x).toList, c = '.' ∨ c = 'e' := by
  cases x with
  | nan => cases finite
  | infinite negative => cases finite
  | finite negative significand shift canonical =>
    rw [numberText, DecimalStyle.write, String.toList_append]
    obtain ⟨front, mark, back, form, filled, digits, isMark, others⟩ := isFloatText_layout
      ((Binary.finite negative significand shift canonical).shortest DecimalStyle.document.tie)
    obtain ⟨c, more, rfl⟩ := List.exists_cons_of_ne_nil filled
    have all : ∀ d ∈ more ++ mark :: back, isNumberChar d = true := by
      intro d mem
      rcases List.mem_append.1 mem with mem | mem
      · exact isNumberChar_of_isDigit (digits d (List.mem_cons_of_mem c mem))
      · rcases List.mem_cons.1 mem with rfl | mem
        · rcases isMark with rfl | rfl <;> rfl
        · exact others d mem
    have first : c.isDigit = true := digits c List.mem_cons_self
    rw [form]
    refine ⟨?_, mark, by simp, isMark⟩
    cases negative with
    | false => exact ⟨c, more ++ mark :: back, rfl, .inr first, all⟩
    | true =>
      refine ⟨'-', c :: (more ++ mark :: back), rfl, .inl rfl, fun d mem => ?_⟩
      rcases List.mem_cons.1 mem with rfl | mem
      · exact isNumberChar_of_isDigit first
      · exact all d mem

/-- The text of a finite float reads as a float, if as anything. -/
theorem readNumber_numberText {x : Double} (finite : x.isFinite = true) :
    readNumber (numberText x).toList = (rereadFloat? x).map .float := by
  unfold rereadFloat?
  rcases readNumber_float (numberText_finite finite).2 with none | ⟨y, some⟩
  · rw [none]
    rfl
  · rw [some]
    rfl

/-- The text of a number is one word. -/
theorem tokens_numberText {cs rest : List Char} (h : IsNumberText cs) (stops : Stops rest) :
    tokens (cs ++ rest) = (readNumber cs).bind fun n => (tokens rest).map (.atom n :: ·) := by
  obtain ⟨c, others, rfl, first, all⟩ := h
  exact tokens_number first all stops

end ProductSpec.Json
