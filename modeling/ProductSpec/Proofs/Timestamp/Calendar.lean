/-
  The calendar: the year and the month of a day are those that begin on or before it and end after
  it, so the time that a clock shows is a date of the calendar.
-/
import ProductSpec.Timestamp
import Mathlib.Tactic.SplitIfs

namespace ProductSpec.Timestamp

section Counting

variable {p : Nat → Bool} (down : ∀ i, p (i + 1) = true → p i = true)

include down

theorem holds_of_le {i n : Nat} (h : i ≤ n) (holds : p n = true) : p i = true := by
  induction h with
  | refl => exact holds
  | step _ ih => exact ih (down _ holds)

/-- A condition that holds of smaller numbers if it holds of greater ones holds below the number
of those of which it holds, and not there. -/
theorem countP_range_spec (n : Nat) :
    (∀ i < (List.range n).countP p, p i = true) ∧ (List.range n).countP p ≤ n ∧
      ((List.range n).countP p < n → p ((List.range n).countP p) = false) := by
  induction n with
  | zero => exact ⟨nofun, Nat.le_refl 0, nofun⟩
  | succ n ih =>
    obtain ⟨below, le, above⟩ := ih
    rw [List.range_succ, List.countP_append, List.countP_singleton]
    cases last : p n with
    | true =>
      have all : (List.range n).countP p = n := by
        refine Nat.le_antisymm le (Nat.not_lt.1 fun short => ?_)
        have holds := holds_of_le down le last
        rw [above short] at holds
        cases holds
      rw [all, if_pos rfl]
      refine ⟨fun i within => ?_, Nat.le_refl _, fun h => absurd h (Nat.lt_irrefl _)⟩
      exact holds_of_le down (Nat.le_of_lt_succ within) last
    | false =>
      rw [if_neg nofun, Nat.add_zero]
      refine ⟨below, Nat.le_succ_of_le le, fun _ => ?_⟩
      rcases Nat.lt_or_eq_of_le le with short | all
      · exact above short
      · rw [all]
        exact last

end Counting

/-- The first day of a year. -/
theorem dayNumber_newYear (year : Nat) :
    dayNumber year 1 1 = 365 * year + (year + 3) / 4 - (year + 99) / 100 + (year + 399) / 400 := rfl

theorem isLeapYear_iff (year : Nat) :
    isLeapYear year = true ↔ year % 4 = 0 ∧ (year % 100 ≠ 0 ∨ year % 400 = 0) := by
  simp [isLeapYear]

/-- A period that is counted from its first year begins anew in the years it divides. -/
theorem periods_succ (year period : Nat) (h : 0 < period) :
    (year + 1 + (period - 1)) / period =
      (year + (period - 1)) / period + if year % period = 0 then 1 else 0 := by
  have form : year + 1 + (period - 1) = year + period := by omega
  have form' : year + (period - 1) + 1 = year + period := by omega
  rw [form, ← form', Nat.succ_div, form']
  simp only [Nat.dvd_iff_mod_eq_zero, Nat.add_mod_right]

theorem dayNumber_newYear_succ (year : Nat) :
    dayNumber (year + 1) 1 1 = dayNumber year 1 1 + if isLeapYear year then 366 else 365 := by
  have centuries : (year + 99) / 100 ≤ 365 * year + (year + 3) / 4 := by omega
  have nested : (year % 400 = 0 → year % 100 = 0) ∧ (year % 100 = 0 → year % 4 = 0) := by omega
  rw [dayNumber_newYear, dayNumber_newYear, periods_succ year 4 (by decide),
    periods_succ year 100 (by decide), periods_succ year 400 (by decide)]
  simp only [isLeapYear_iff, Nat.reduceSub]
  -- Only the order of the counts matters now, not what they count.
  generalize (year + 3) / 4 = a at centuries ⊢
  generalize (year + 99) / 100 = b at centuries ⊢
  generalize (year + 399) / 400 = c
  split_ifs <;> omega

theorem newYear_le_succ (year : Nat) : dayNumber year 1 1 ≤ dayNumber (year + 1) 1 1 := by
  rw [dayNumber_newYear_succ]
  exact Nat.le_add_right _ _

theorem newYear_mono {year year' : Nat} (h : year ≤ year') :
    dayNumber year 1 1 ≤ dayNumber year' 1 1 := by
  induction h with
  | refl => exact Nat.le_refl _
  | step _ ih => exact Nat.le_trans ih (newYear_le_succ _)

/-- A day lies in its year. -/
theorem yearOfDay_spec (day : Nat) :
    dayNumber (yearOfDay day) 1 1 ≤ day ∧ day < dayNumber (yearOfDay day + 1) 1 1 := by
  -- The years that begin by the day are counted from a lower bound on the year.
  have down : ∀ i, decide (dayNumber (day / 366 + (i + 1) + 1) 1 1 ≤ day) = true →
      decide (dayNumber (day / 366 + i + 1) 1 1 ≤ day) = true := by
    intro i h
    exact decide_eq_true (Nat.le_trans (newYear_le_succ _) (of_decide_eq_true h))
  obtain ⟨below, le, above⟩ := countP_range_spec (p := fun i =>
    decide (dayNumber (day / 366 + i + 1) 1 1 ≤ day)) down (day / 365 - day / 366)
  rw [yearOfDay]
  generalize (List.range (day / 365 - day / 366)).countP
    (fun i => decide (dayNumber (day / 366 + i + 1) 1 1 ≤ day)) = later at below le above ⊢
  constructor
  · cases later with
    | zero =>
      rw [Nat.add_zero, dayNumber_newYear]
      omega
    | succ later => exact of_decide_eq_true (below later (Nat.lt_succ_self later))
  · rcases Nat.lt_or_eq_of_le le with short | all
    · exact Nat.not_le.1 (of_decide_eq_false (above short))
    · rw [dayNumber_newYear]
      omega

/-- The first day of a month. -/
theorem dayNumber_month_succ (year month : Nat) :
    dayNumber year (month + 2) 1 = dayNumber year (month + 1) 1 + daysInMonth year (month + 1) := by
  have months : month + 2 - 1 = month + 1 := rfl
  unfold dayNumber
  rw [months, List.range_succ, List.foldl_append]
  simp only [List.foldl_cons, List.foldl_nil, Nat.add_sub_cancel]
  omega

theorem dayNumber_december (year : Nat) :
    dayNumber (year + 1) 1 1 = dayNumber year 12 1 + 31 := by
  rw [dayNumber_newYear_succ]
  simp only [dayNumber_month_succ year 10, dayNumber_month_succ year 9,
    dayNumber_month_succ year 8, dayNumber_month_succ year 7, dayNumber_month_succ year 6,
    dayNumber_month_succ year 5, dayNumber_month_succ year 4, dayNumber_month_succ year 3,
    dayNumber_month_succ year 2, dayNumber_month_succ year 1, dayNumber_month_succ year 0,
    daysInMonth, Nat.zero_add]
  split <;> omega

theorem daysInMonth_le (year month : Nat) : daysInMonth year month ≤ 31 := by
  fun_cases daysInMonth year month <;> omega

/-- A day of a year lies in its month. -/
theorem monthOfDay_spec {year day : Nat} (first : dayNumber year 1 1 ≤ day)
    (last : day < dayNumber (year + 1) 1 1) :
    1 ≤ monthOfDay year day ∧ monthOfDay year day ≤ 12 ∧
      dayNumber year (monthOfDay year day) 1 ≤ day ∧
      day < dayNumber year (monthOfDay year day) 1 + daysInMonth year (monthOfDay year day) := by
  have down : ∀ i, decide (dayNumber year (i + 1 + 2) 1 ≤ day) = true →
      decide (dayNumber year (i + 2) 1 ≤ day) = true := by
    intro i h
    refine decide_eq_true (Nat.le_trans ?_ (of_decide_eq_true h))
    rw [dayNumber_month_succ year (i + 1)]
    exact Nat.le_add_right _ _
  obtain ⟨below, le, above⟩ := countP_range_spec (p := fun i =>
    decide (dayNumber year (i + 2) 1 ≤ day)) down 11
  rw [monthOfDay, Nat.add_comm 1]
  generalize (List.range 11).countP (fun i => decide (dayNumber year (i + 2) 1 ≤ day)) = later
    at below le above ⊢
  refine ⟨Nat.le_add_left 1 later, Nat.succ_le_succ le, ?_, ?_⟩
  · cases later with
    | zero => exact first
    | succ later => exact of_decide_eq_true (below later (Nat.lt_succ_self later))
  · rw [← dayNumber_month_succ]
    rcases Nat.lt_or_eq_of_le le with short | rfl
    · exact Nat.not_le.1 (of_decide_eq_false (above short))
    · rw [dayNumber_month_succ]
      exact Nat.lt_of_lt_of_eq last (dayNumber_december year)

theorem newYear_lt {year year' : Nat} (h : dayNumber year 1 1 < dayNumber year' 1 1) :
    year < year' :=
  Nat.not_le.1 fun le => absurd h (Nat.not_lt.2 (newYear_mono le))

/-- What a clock shows is a date of the calendar and a time of the day. -/
theorem isValid_ofClock (n : Int) : (ofClock n).isValid = true := by
  -- Later instants are shown as the last one that has a year of four digits.
  have early : (min n lastInstant + dayNumber 1970 1 1 * 86400 * perSecond).toNat / perSecond /
      86400 < dayNumber 10000 1 1 := by
    have limit : min n lastInstant ≤ lastInstant := Int.min_le_right _ _
    have first : dayNumber 1970 1 1 = 719528 := by decide
    have last : dayNumber 10000 1 1 = 3652425 := by decide
    simp only [lastInstant, first, last, perSecond] at limit ⊢
    omega
  unfold ofClock ofInstant
  dsimp only
  generalize (min n lastInstant + dayNumber 1970 1 1 * 86400 * perSecond).toNat = time at early ⊢
  obtain ⟨first, last⟩ := yearOfDay_spec (time / perSecond / 86400)
  obtain ⟨january, december, begun, running⟩ := monthOfDay_spec first last
  have century := newYear_lt (Nat.lt_of_le_of_lt first early)
  have nanoseconds : time % perSecond < perSecond := Nat.mod_lt _ (by decide)
  simp only [isValid, decide_eq_true_eq]
  omega

end ProductSpec.Timestamp
