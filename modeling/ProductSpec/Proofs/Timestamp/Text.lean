/-
  Times as texts: a date of the calendar is read back out of its text.
-/
import ProductSpec.Proofs.Number.Digits
import ProductSpec.Proofs.Text.Cut
import ProductSpec.Proofs.Timestamp.Calendar
import Mathlib.Algebra.Group.Nat.Defs

namespace ProductSpec.Timestamp

open Number

theorem length_digits {width n : Nat} (pos : 0 < width) (h : n < 10 ^ width) :
    (digits width n).length = width := by
  have short := (Nat.length_toDigits_le_iff (by decide) pos).2 h
  simp only [digits, List.length_append, List.length_replicate]
  omega

theorem isDigit_of_mem_digits {width n : Nat} {c : Char} (h : c ∈ digits width n) :
    c.isDigit = true := by
  rcases List.mem_append.1 h with h | h
  · rw [List.eq_of_mem_replicate h]
    rfl
  · exact isDigit_of_mem_toDigits h

/-- Every further zero multiplies by ten. -/
theorem foldl_zeros (k n : Nat) :
    (List.replicate k '0').foldl (fun n c => 10 * n + digitValue c) n = n * 10 ^ k := by
  induction k generalizing n with
  | zero => rw [Nat.pow_zero, Nat.mul_one]; rfl
  | succ k ih =>
    have step : 10 * n + digitValue '0' = n * 10 := Nat.mul_comm 10 n
    rw [List.replicate_succ, List.foldl_cons, step, ih, Nat.mul_assoc, Nat.pow_succ']

theorem foldl_digits (width n : Nat) :
    (digits width n).foldl (fun n c => 10 * n + digitValue c) 0 = n := by
  rw [digits, List.foldl_append, foldl_zeros, Nat.zero_mul]
  exact foldl_toDigits n

theorem readDigits_digits {width n : Nat} (pos : 0 < width) (h : n < 10 ^ width)
    (rest : List Char) : readDigits width (digits width n ++ rest) = some (n, rest) := by
  have long := length_digits pos h
  rw [readDigits, List.take_left' long, List.drop_left' long, if_pos, foldl_digits]
  exact ⟨long, List.all_eq_true.2 fun c => isDigit_of_mem_digits⟩

/-- A fraction of a second in at most nine digits. -/
theorem readFraction_digits {width n : Nat} (pos : 0 < width) (most : width ≤ 9)
    (h : n < 10 ^ width) :
    readFraction ('.' :: (digits width n ++ ['Z'])) = some (n * 10 ^ (9 - width), ['Z']) := by
  have long := length_digits pos h
  have stop : ∀ c ∈ ['Z'].head?, c.isDigit = false := by
    intro c mem
    cases mem
    rfl
  have all : ∀ c ∈ digits width n, c.isDigit = true := fun c => isDigit_of_mem_digits
  obtain ⟨taken, dropped⟩ := Text.takeWhile_append_of_stop all stop
  have filled : (digits width n).isEmpty = false := by
    rw [List.isEmpty_eq_false_iff, ← List.length_pos_iff, long]
    exact pos
  have nine : (digits width n ++ List.replicate 9 '0').take 9 =
      digits width n ++ List.replicate (9 - width) '0' := by
    rw [List.take_append, List.take_of_length_le (by omega), long, List.take_replicate]
    congr 2
    omega
  simp only [readFraction, taken, dropped, filled, nine, List.foldl_append, foldl_digits,
    foldl_zeros]
  rfl

theorem readFraction_fraction {nanosecond : Nat} (h : nanosecond < perSecond) :
    readFraction (fraction nanosecond ++ ['Z']) = some (nanosecond, ['Z']) := by
  unfold perSecond at h
  unfold fraction
  split
  · next none =>
    rw [none]
    rfl
  · split
    · next millions =>
      rw [List.cons_append, readFraction_digits (by decide) (by decide) (by omega)]
      congr 2
      omega
    · split
      · next thousands =>
        rw [List.cons_append, readFraction_digits (by decide) (by decide) (by omega)]
        congr 2
        omega
      · rw [List.cons_append, readFraction_digits (by decide) (by decide) (by omega)]
        congr 2
        omega

theorem readMark_cons (mark : Char) (others rest : List Char) :
    readMark (mark :: others) (mark :: rest) = some rest :=
  if_pos List.mem_cons_self

/-- A date is read back out of its text. -/
theorem read?_text {t : Timestamp} (h : t.isValid = true) : read? t.text = some t := by
  have form : t.text.toList = digits 4 t.year ++ '-' :: (digits 2 t.month ++
      '-' :: (digits 2 t.day ++ 'T' :: (digits 2 t.hour ++ ':' :: (digits 2 t.minute ++
        ':' :: (digits 2 t.second ++ (fraction t.nanosecond ++ ['Z'])))))) := by
    simp [text, dateText, timeText]
  have rules := h
  simp only [isValid, decide_eq_true_eq] at rules
  obtain ⟨inYear, -, inMonth, -, inDay, inHour, inMinute, inSecond, inNanosecond⟩ := rules
  have days := daysInMonth_le t.year t.month
  have two : 0 < 2 := by decide
  have year := readDigits_digits (by decide) (show t.year < 10 ^ 4 from inYear)
  have month := readDigits_digits two (show t.month < 10 ^ 2 by omega)
  have day := readDigits_digits two (show t.day < 10 ^ 2 by omega)
  have hour := readDigits_digits two (show t.hour < 10 ^ 2 by omega)
  have minute := readDigits_digits two (show t.minute < 10 ^ 2 by omega)
  have second := readDigits_digits two (show t.second < 10 ^ 2 by omega)
  rw [read?, form]
  refine Option.bind_eq_some_iff.2 ⟨_, year _, ?_⟩
  refine Option.bind_eq_some_iff.2 ⟨_, readMark_cons _ _ _, ?_⟩
  refine Option.bind_eq_some_iff.2 ⟨_, month _, ?_⟩
  refine Option.bind_eq_some_iff.2 ⟨_, readMark_cons _ _ _, ?_⟩
  refine Option.bind_eq_some_iff.2 ⟨_, day _, ?_⟩
  refine Option.bind_eq_some_iff.2 ⟨_, readMark_cons _ _ _, ?_⟩
  refine Option.bind_eq_some_iff.2 ⟨_, hour _, ?_⟩
  refine Option.bind_eq_some_iff.2 ⟨_, readMark_cons _ _ _, ?_⟩
  refine Option.bind_eq_some_iff.2 ⟨_, minute _, ?_⟩
  refine Option.bind_eq_some_iff.2 ⟨_, readMark_cons _ _ _, ?_⟩
  refine Option.bind_eq_some_iff.2 ⟨_, second _, ?_⟩
  refine Option.bind_eq_some_iff.2 ⟨_, readFraction_fraction inNanosecond, ?_⟩
  refine Option.bind_eq_some_iff.2 ⟨0, rfl, ?_⟩
  simp [h]

end ProductSpec.Timestamp
