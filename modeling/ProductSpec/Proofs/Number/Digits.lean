/-
  The decimal digits of a number: what they are and what they are read as.
-/
import ProductSpec.Number.Word
import ProductSpec.Proofs.Text.Cut
import Mathlib.Data.List.Induction

namespace ProductSpec.Number

theorem isDigit_of_mem_toDigits {n : Nat} {c : Char} (h : c ∈ Nat.toDigits 10 n) :
    c.isDigit = true :=
  Nat.isDigit_of_mem_toDigits (by decide) (by decide) h

theorem all_isDigit_toDigits (n : Nat) : (Nat.toDigits 10 n).all Char.isDigit = true :=
  List.all_eq_true.2 fun _ => isDigit_of_mem_toDigits

theorem foldl_toDigits (n : Nat) :
    (Nat.toDigits 10 n).foldl (fun n c => 10 * n + (c.toNat - 48)) 0 = n :=
  Nat.ofDigitChars_ten_toDigits

/-- Only zero begins with a zero. -/
theorem head?_toDigits {n : Nat} (h : (Nat.toDigits 10 n).head? = some '0') : n = 0 := by
  induction n using Nat.strongRecOn with
  | ind n ih =>
    rw [Nat.toDigits_eq_if (by decide)] at h
    split at h
    · next small =>
      rw [List.head?_cons, Option.some.injEq] at h
      have value := Nat.toNat_digitChar_of_lt_ten small
      rw [h] at value
      exact (Nat.add_left_cancel value).symm
    · next large =>
      obtain ⟨first, others, split⟩ := List.exists_cons_of_ne_nil (l := Nat.toDigits 10 (n / 10))
        Nat.toDigits_ne_nil
      rw [split] at h
      have zero := ih (n / 10) (Nat.div_lt_self (by omega) (by decide)) (by rw [split]; exact h)
      omega

/-- A number is written without leading zeros. -/
theorem not_leading_zero (n : Nat) :
    ¬ ((Nat.toDigits 10 n).length > 1 ∧ (Nat.toDigits 10 n).head? = some '0') := by
  rintro ⟨long, zero⟩
  rw [head?_toDigits zero] at long
  exact absurd long (by decide)

theorem toDigits_of_isDigit {c : Char} (h : c.isDigit = true) :
    Nat.toDigits 10 (c.toNat - 48) = [c] := by
  obtain ⟨low, high⟩ := Char.isDigit_iff_toNat.1 h
  have low : 48 ≤ c.toNat := low
  have high : c.toNat ≤ 57 := high
  have small : c.toNat - 48 < 10 := by omega
  rw [Nat.toDigits_of_lt_base small, List.cons.injEq, and_iff_left rfl, ← Char.toNat_inj,
    Nat.toNat_digitChar_of_lt_ten small, Nat.add_sub_cancel' low]

/-- Digits without a leading zero are those of the number that they are read as. -/
theorem toDigits_foldl {cs : List Char} (filled : cs ≠ []) (digits : cs.all Char.isDigit = true)
    (canonical : ¬ (1 < cs.length ∧ cs.head? = some '0')) :
    Nat.toDigits 10 (cs.foldl (fun n c => 10 * n + (c.toNat - 48)) 0) = cs := by
  induction cs using List.reverseRecOn with
  | nil => exact absurd rfl filled
  | append_singleton before c ih =>
    rw [List.all_append, Bool.and_eq_true, List.all_cons, List.all_nil, Bool.and_true] at digits
    obtain ⟨earlier, last⟩ := digits
    by_cases empty : before = []
    · rw [empty]
      simpa using toDigits_of_isDigit last
    · obtain ⟨first, others, form⟩ := List.exists_cons_of_ne_nil empty
      have noZero : before.head? ≠ some '0' := by
        intro zero
        refine canonical ⟨by simp [form], ?_⟩
        rw [List.head?_append, zero]
        rfl
      have value := ih empty earlier fun zero => noZero zero.2
      -- Were the earlier digits those of zero, the first of them would be a leading zero.
      have positive : 0 < before.foldl (fun n c => 10 * n + (c.toNat - 48)) 0 := by
        refine Nat.pos_of_ne_zero fun zero => noZero ?_
        rw [zero] at value
        rw [← value]
        rfl
      have digit : c.toNat - 48 < 10 := by
        have high : c.toNat ≤ 57 := (Char.isDigit_iff_toNat.1 last).2
        omega
      rw [List.foldl_append, List.foldl_cons, List.foldl_nil,
        ← Nat.toDigits_append_toDigits (by decide) positive digit, value, toDigits_of_isDigit last]

theorem takeWhile_toDigits (n : Nat) {rest : List Char}
    (stop : ∀ c ∈ rest.head?, c.isDigit = false) :
    (Nat.toDigits 10 n ++ rest).takeWhile Char.isDigit = Nat.toDigits 10 n ∧
      (Nat.toDigits 10 n ++ rest).dropWhile Char.isDigit = rest :=
  Text.takeWhile_append_of_stop (fun _ => isDigit_of_mem_toDigits) stop

end ProductSpec.Number
