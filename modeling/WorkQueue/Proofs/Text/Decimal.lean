import WorkQueue.Text.Layout

/-!
# Decimal digits

A number written in decimal consists of digits, starts with a zero only when it is zero, and has
the number as its value, with or without zeros in front.
-/

namespace WorkQueue.Text

theorem isDigit_of_mem_toDigits {n : Nat} {c : Char} (h : c ∈ Nat.toDigits 10 n) :
    c.isDigit = true :=
  Nat.isDigit_of_mem_toDigits (by decide) (by decide) h

theorem head?_toDigits_ne_zero {n : Nat} (h : n ≠ 0) : (Nat.toDigits 10 n).head? ≠ some '0' := by
  induction n using Nat.strongRecOn with
  | ind n ih =>
    by_cases hn : n < 10
    · rw [Nat.toDigits_of_lt_base hn]
      simp [h]
    · have hd := ih (n / 10) (by omega) (by omega)
      rw [Nat.toDigits_of_base_le (by decide) (by omega)]
      cases hc : Nat.toDigits 10 (n / 10) with
      | nil => exact absurd hc Nat.toDigits_ne_nil
      | cons c r => simpa [hc] using hd

theorem zeroPadded_toList (width n : Nat) : (zeroPadded width n).toList =
    List.replicate (width - (Nat.toDigits 10 n).length) '0' ++ Nat.toDigits 10 n := by
  simp [zeroPadded]

theorem isDigit_of_mem_zeroPadded {width n : Nat} {c : Char} (h : c ∈ (zeroPadded width n).toList) :
    c.isDigit = true := by
  rw [zeroPadded_toList, List.mem_append] at h
  rcases h with h | h
  · rw [List.eq_of_mem_replicate h]
    decide
  · exact isDigit_of_mem_toDigits h

theorem length_zeroPadded_eq {width n : Nat} (hw : 0 < width) (h : n < Nat.pow 10 width) :
    (zeroPadded width n).toList.length = width := by
  have hl := (Nat.length_toDigits_le_iff (b := 10) (n := n) (by decide) hw).2 h
  rw [zeroPadded_toList, List.length_append, List.length_replicate]
  omega

theorem le_length_zeroPadded (width n : Nat) : width ≤ (zeroPadded width n).toList.length := by
  rw [zeroPadded_toList, List.length_append, List.length_replicate]
  omega

theorem ofDigitChars_zeroPadded (width n : Nat) :
    Nat.ofDigitChars 10 (zeroPadded width n).toList 0 = n := by
  rw [zeroPadded_toList, Nat.ofDigitChars_append, Nat.ofDigitChars_replicate_zero, Nat.mul_zero,
    Nat.ofDigitChars_ten_toDigits]

end WorkQueue.Text
