import Mathlib

/-! Two-sided signals and the weighted sums over their past. The sums are accumulated from
zero in ascending order and nothing is assumed of the three operations, so a statement about
them fixes the order of every rounding. Causal equations have exactly one solution for each
past. -/
namespace DspLibrary.Foundation
variable {α : Type*}

section Accumulate
variable [Zero α] [Add α]

/-- `((0 + f 0) + f 1) + ... + f (n-1)`. -/
def accumulate (f : ℕ → α) : ℕ → α
  | 0 => 0
  | n+1 => accumulate f n + f n

lemma accumulate_congr {f g : ℕ → α} {n : ℕ} (h : ∀ k < n, f k = g k) :
    accumulate f n = accumulate g n := by
  induction n with
  | zero => rfl
  | succ n ih =>
    rw [accumulate,accumulate,ih (fun k hk => h k (by omega)),h n (by omega)]

variable [Mul α]

/-- `b 0 * x n + b 1 * x (n-1) + ... + b N * x (n-N)`. -/
def convolve (N : ℕ) (b : ℕ → α) (x : ℤ → α) (n : ℤ) : α :=
  accumulate (fun k => b k*x (n-k)) (N+1)

/-- `a 1 * y (n-1) + ... + a N * y (n-N)`. -/
def feedback (N : ℕ) (a : ℕ → α) (y : ℤ → α) (n : ℤ) : α :=
  accumulate (fun k => a (k+1)*y (n-(k+1))) N

lemma convolve_congr {N : ℕ} {b : ℕ → α} {x y : ℤ → α} {n : ℤ}
    (h : ∀ t, n-N ≤ t → t ≤ n → x t = y t) : convolve N b x n = convolve N b y n := by
  apply accumulate_congr
  intro k hk
  rw [h (n-k) (by omega) (by omega)]

lemma feedback_congr {N : ℕ} {a : ℕ → α} {x y : ℤ → α} {n : ℤ}
    (h : ∀ t, n-N ≤ t → t < n → x t = y t) : feedback N a x n = feedback N a y n := by
  apply accumulate_congr
  intro k hk
  rw [h (n-(k+1)) (by omega) (by omega)]

end Accumulate

section Causal

/-- Two signals with one past are equal if each sample is determined by the samples before. -/
theorem causal_ext {s s' : ℤ → α} (t₀ : ℤ) (hpast : ∀ t < t₀, s t = s' t)
    (hstep : ∀ m, t₀ ≤ m → (∀ t < m, s t = s' t) → s m = s' m) : s = s' := by
  have hupto : ∀ n : ℕ, ∀ t < t₀+n, s t = s' t := by
    intro n
    induction n with
    | zero => intro t ht; exact hpast t (by simpa using ht)
    | succ n ih =>
      intro t ht
      by_cases hlast : t < t₀+n
      · exact ih t hlast
      · have he : t = t₀+n := by push_cast at ht; omega
        subst he
        exact hstep _ (by omega) ih
  funext t
  exact hupto (t-t₀+1).toNat t (by omega)

/-- The signal with `n` samples from `t₀` on filled in by the equation `F`. -/
def filled (F : (ℤ → α) → ℤ → α) (past : ℤ → α) (t₀ : ℤ) : ℕ → ℤ → α
  | 0 => past
  | n+1 => Function.update (filled F past t₀ n) (t₀+n) (F (filled F past t₀ n) (t₀+n))

lemma filled_past (F : (ℤ → α) → ℤ → α) (past : ℤ → α) (t₀ : ℤ) (n : ℕ) {t : ℤ} (ht : t < t₀) :
    filled F past t₀ n t = past t := by
  induction n with
  | zero => rfl
  | succ n ih => rw [filled,Function.update_of_ne (by omega),ih]

lemma filled_stable (F : (ℤ → α) → ℤ → α) (past : ℤ → α) (t₀ : ℤ) {m n : ℕ} (hmn : m ≤ n)
    {t : ℤ} (ht : t < t₀+m) : filled F past t₀ n t = filled F past t₀ m t := by
  induction n, hmn using Nat.le_induction with
  | base => rfl
  | succ n hn ih => rw [filled,Function.update_of_ne (by omega),ih]

/-- A causal equation can be solved forward from every past. -/
theorem exists_causal (F : (ℤ → α) → ℤ → α)
    (hF : ∀ s s' m, (∀ t < m, s t = s' t) → F s m = F s' m) (past : ℤ → α) (t₀ : ℤ) :
    ∃ s : ℤ → α, (∀ t < t₀, s t = past t) ∧ ∀ m, t₀ ≤ m → s m = F s m := by
  refine ⟨fun t => filled F past t₀ (t-t₀+1).toNat t,?_,?_⟩
  · intro t ht
    exact filled_past F past t₀ _ ht
  · intro m hm
    obtain ⟨n,rfl⟩ : ∃ n : ℕ, m = t₀+n := ⟨(m-t₀).toNat,by omega⟩
    have hcount : (t₀+n-t₀+1).toNat = n+1 := by omega
    simp only [hcount,filled,Function.update_self]
    apply hF
    intro t ht
    by_cases hpast : t < t₀
    · rw [filled_past _ _ _ _ hpast,filled_past _ _ _ _ hpast]
    · exact filled_stable F past t₀ (by omega) (by omega)

end Causal
end DspLibrary.Foundation
