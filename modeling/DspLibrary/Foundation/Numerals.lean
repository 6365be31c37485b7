import Mathlib.Data.Nat.Digits.Defs
import Mathlib.Data.Nat.Log
import Mathlib.Tactic

/-! Numerals with a given number of digits, most significant digit first. -/
namespace DspLibrary.Foundation

/-- The last `k` digits of `n`. -/
def numeral (radix : ℕ) : ℕ → ℕ → List ℕ
  | 0,_ => []
  | k+1,n => numeral radix k (n/radix)++[n%radix]

/-- The number that digits stand for. -/
def numeralValue (radix : ℕ) (ds : List ℕ) : ℕ := Nat.ofDigits radix ds.reverse

lemma numeralValue_append (radix : ℕ) (ds es : List ℕ) :
    numeralValue radix (ds++es) =
      numeralValue radix ds*radix^es.length+numeralValue radix es := by
  simp only [numeralValue,List.reverse_append,Nat.ofDigits_append,List.length_reverse]
  ring

@[simp] lemma numeral_length (radix k n : ℕ) : (numeral radix k n).length = k := by
  induction k generalizing n with
  | zero => rfl
  | succ k ih => simp [numeral,ih]

lemma numeral_lt {radix : ℕ} (hr : 0 < radix) (k n : ℕ) : ∀ d ∈ numeral radix k n, d < radix := by
  induction k generalizing n with
  | zero => simp [numeral]
  | succ k ih =>
    intro d hd
    obtain hd | rfl : d ∈ numeral radix k (n/radix) ∨ d = n%radix := by simpa [numeral] using hd
    · exact ih _ d hd
    · exact Nat.mod_lt _ hr

/-- The last digits of a number give its remainder. -/
theorem numeralValue_numeral (radix k n : ℕ) :
    numeralValue radix (numeral radix k n) = n%radix^k := by
  induction k generalizing n with
  | zero => simp [numeral,numeralValue,Nat.mod_one]
  | succ k ih =>
    rw [numeral,numeralValue_append,ih,pow_succ',Nat.mod_mul]
    simp [numeralValue,Nat.ofDigits_singleton]
    ring

/-- The number of digits of a number. -/
def digitCount (radix n : ℕ) : ℕ := Nat.log radix n+1

lemma lt_pow_digitCount {radix : ℕ} (hr : 1 < radix) (n : ℕ) : n < radix^digitCount radix n :=
  Nat.lt_pow_succ_log_self hr n

lemma digitCount_le {radix k n : ℕ} (hk : k ≠ 0) (hn : n < radix^k) : digitCount radix n ≤ k := by
  have := Nat.log_lt_of_lt_pow' hk hn
  simp only [digitCount]
  omega

lemma digitCount_of_div_eq_zero {radix n : ℕ} (hr : 1 < radix) (h : n/radix = 0) :
    digitCount radix n = 1 := by
  have hlt : n < radix := by
    by_contra hn
    exact absurd h (Nat.div_pos (not_lt.mp hn) (by omega)).ne'
  rw [digitCount,Nat.log_of_lt hlt]

lemma digitCount_of_div_ne_zero {radix n : ℕ} (hr : 1 < radix) (h : n/radix ≠ 0) :
    digitCount radix n = digitCount radix (n/radix)+1 := by
  have hle : radix ≤ n := by
    by_contra hn
    exact h (Nat.div_eq_of_lt (not_le.mp hn))
  rw [digitCount,digitCount,Nat.log_of_one_lt_of_le hr hle]

/-- A number with all its digits does not begin with a zero. -/
theorem numeral_head_ne_zero {radix n : ℕ} (hr : 1 < radix) (hn : n ≠ 0) :
    ∃ d ds, numeral radix (digitCount radix n) n = d::ds ∧ d ≠ 0 := by
  induction n using Nat.strong_induction_on with
  | _ n ih =>
    by_cases h : n/radix = 0
    · refine ⟨n%radix,[],by simp [digitCount_of_div_eq_zero hr h,numeral],?_⟩
      have := Nat.mod_add_div n radix
      rw [h,mul_zero,add_zero] at this
      omega
    · obtain ⟨d,ds,hd,h0⟩ := ih (n/radix) (Nat.div_lt_self (Nat.pos_of_ne_zero hn) hr) h
      exact ⟨d,ds++[n%radix],by simp [digitCount_of_div_ne_zero hr h,numeral,hd],h0⟩

end DspLibrary.Foundation
