import DspLibrary.Foundation.LinearSignal

/-! Polynomials in the delay act on signals, and a convolution is the action of its weights. Two
recursive filters that start from rest are therefore compared by the products of polynomials that
compare their transfer functions, and the response to one impulse tells two of them apart. -/
namespace DspLibrary.Foundation
open Polynomial
open scoped BigOperators
variable {R : Type*} [CommRing R]

/-- The signal, one sample later. -/
def delay : Module.End R (ℤ → R) where
  toFun x n := x (n-1)
  map_add' _ _ := rfl
  map_smul' _ _ := rfl

@[simp] lemma delay_apply (x : ℤ → R) (n : ℤ) : delay x n = x (n-1) := rfl

@[simp] lemma delay_pow_apply (k : ℕ) (x : ℤ → R) (n : ℤ) :
    (delay^k : Module.End R (ℤ → R)) x n = x (n-k) := by
  induction k generalizing n with
  | zero => simp
  | succ k ih =>
    rw [pow_succ',Module.End.mul_apply,delay_apply,ih]
    congr 1
    push_cast
    ring

/-- `b 0 + b 1 * X + ... + b N * X^N`, where `X` is the delay. -/
noncomputable def weights (N : ℕ) (b : ℕ → R) : R[X] :=
  ∑ k ∈ Finset.range (N+1), monomial k (b k)

lemma coeff_weights {N k : ℕ} (hk : k ≤ N) (b : ℕ → R) : (weights N b).coeff k = b k := by
  rw [weights,finsetSum_coeff,Finset.sum_eq_single_of_mem k (by simpa using hk)]
  · simp
  · intro j _ hj
    exact coeff_monomial_of_ne _ hj.symm

lemma weights_eq_zero_iff (N : ℕ) (b : ℕ → R) : weights N b = 0 ↔ ∀ k ≤ N, b k = 0 := by
  constructor
  · intro h k hk
    rw [← coeff_weights hk b,h,coeff_zero]
  · intro h
    apply Finset.sum_eq_zero
    intro k hk
    rw [h k (by simpa using hk),map_zero]

lemma weights_smul (N : ℕ) (c : R) (b : ℕ → R) : weights N (c • b) = C c*weights N b := by
  simp [weights,Finset.mul_sum,C_mul_monomial]

/-- Scaling the poles leaves the leading weight, which is taken as one, as it is. -/
lemma weights_leadingOne_smul (N : ℕ) (c : R) (a : ℕ → R) :
    weights N (leadingOne (c • a)) = C c*weights N (leadingOne a)+(1-C c) := by
  simp only [weights,Finset.sum_range_succ',leadingOne,mul_add,Finset.mul_sum,C_mul_monomial]
  simp

/-- A convolution is the action of its weights. -/
theorem convolve_eq_aeval (N : ℕ) (b : ℕ → R) (x : ℤ → R) :
    convolve N b x = aeval delay (weights N b) x := by
  funext n
  rw [convolve_eq_sum]
  simp [weights,aeval_monomial]

/-- Acting on an impulse, a polynomial shows its coefficients. -/
lemma aeval_impulse (p : R[X]) (n : ℕ) : aeval delay p (Pi.single 0 1) (n : ℤ) = p.coeff n := by
  induction p using Polynomial.induction_on' with
  | add p q hp hq => simp [hp,hq]
  | monomial k c =>
    simp [aeval_monomial,coeff_monomial,Pi.single_apply,sub_eq_zero,eq_comm]

/-- The quotients `b/a` and `b'/a'` agree, with the leading weights of `a` and `a'` taken as
one. -/
def SameTransfer (N : ℕ) (b a b' a' : ℕ → R) : Prop :=
  weights N b*weights N (leadingOne a') = weights N b'*weights N (leadingOne a)

variable {N : ℕ} {b a b' a' : ℕ → R} {x v v' : ℤ → R}

/-- Both poles and the zeros, applied to a signal whose poles are known: the factors commute. -/
lemma convolve_crossed (b a' : ℕ → R) (hpoles : convolve N (leadingOne a) v = x) :
    convolve N (leadingOne a) (convolve N (leadingOne a') (convolve N b v)) =
      aeval delay (weights N b*weights N (leadingOne a')) x := by
  rw [← hpoles]
  simp only [convolve_eq_aeval,← Module.End.mul_apply,← map_mul]
  congr 2
  ring

/-- Filters with one transfer function have one output from rest, on every input. -/
theorem SameTransfer.convolve_eq (h : SameTransfer N b a b' a') (t₀ : ℤ)
    (hv : ∀ t < t₀, v t = 0) (hv' : ∀ t < t₀, v' t = 0)
    (hpoles : convolve N (leadingOne a) v = x) (hpoles' : convolve N (leadingOne a') v' = x) :
    convolve N b v = convolve N b' v' := by
  have hcrossed := convolve_crossed b a' hpoles
  have hcrossed' := convolve_crossed b' a hpoles'
  have hpast : ∀ t < t₀, convolve N b v t = 0 := fun t ht => convolve_of_zero_past hv ht
  have hpast' : ∀ t < t₀, convolve N b' v' t = 0 := fun t ht => convolve_of_zero_past hv' ht
  -- the two monic factors are cancelled one after the other
  have hinner : convolve N (leadingOne a') (convolve N b v) =
      convolve N (leadingOne a') (convolve N b' v') := by
    apply convolve_leadingOne_cancel (N := N) (a := a) t₀
    · intro t ht
      rw [convolve_of_zero_past hpast ht,convolve_of_zero_past hpast' ht]
    · intro m _
      rw [hcrossed,h,← hcrossed']
      exact convolve_comm N N _ _ _ _
  apply convolve_leadingOne_cancel (N := N) (a := a') t₀
  · intro t ht
    rw [hpast t ht,hpast' t ht]
  · intro m _
    rw [hinner]

/-- The response to an impulse determines the transfer function. -/
theorem sameTransfer_of_impulse (hpoles : convolve N (leadingOne a) v = Pi.single 0 1)
    (hpoles' : convolve N (leadingOne a') v' = Pi.single 0 1)
    (h : convolve N b v = convolve N b' v') : SameTransfer N b a b' a' := by
  have hcrossed := convolve_crossed b a' hpoles
  have hcrossed' := convolve_crossed b' a hpoles'
  ext n
  rw [← aeval_impulse,← aeval_impulse,← hcrossed,← hcrossed',h]
  exact convolve_comm N N _ _ _ _

lemma sameTransfer_smul_iff [NoZeroDivisors R] (c : R) :
    SameTransfer N (c • b) (c • a) b a ↔ c = 1 ∨ ∀ k ≤ N, b k = 0 := by
  rw [← weights_eq_zero_iff N b,SameTransfer,weights_smul,weights_leadingOne_smul]
  have hdifference : C c*weights N b*weights N (leadingOne a)-
      weights N b*(C c*weights N (leadingOne a)+(1-C c)) = (C c-1)*weights N b := by ring
  rw [← sub_eq_zero,hdifference,mul_eq_zero,sub_eq_zero,← C_1,C_inj]

end DspLibrary.Foundation
