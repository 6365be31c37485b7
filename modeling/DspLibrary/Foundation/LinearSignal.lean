import DspLibrary.Foundation.Signal

/-! Exact arithmetic: over a commutative ring two convolutions commute, and a convolution with
leading weight one can be cancelled from a common past on. Both direct forms of a recursive
filter started from rest therefore produce one output. -/
namespace DspLibrary.Foundation
open scoped BigOperators
variable {R : Type*} [CommRing R]

lemma accumulate_eq_sum (f : ℕ → R) (n : ℕ) : accumulate f n = ∑ k ∈ Finset.range n, f k := by
  induction n with
  | zero => rfl
  | succ n ih => rw [accumulate,ih,Finset.sum_range_succ]

lemma convolve_eq_sum (N : ℕ) (b : ℕ → R) (x : ℤ → R) (n : ℤ) :
    convolve N b x n = ∑ k ∈ Finset.range (N+1), b k*x (n-k) := accumulate_eq_sum _ _

lemma feedback_eq_sum (N : ℕ) (a : ℕ → R) (y : ℤ → R) (n : ℤ) :
    feedback N a y n = ∑ k ∈ Finset.range N, a (k+1)*y (n-(k+1)) := accumulate_eq_sum _ _

/-- The exchange of the pole and the zero sums. -/
theorem convolve_comm (M N : ℕ) (a b : ℕ → R) (x : ℤ → R) (n : ℤ) :
    convolve M a (convolve N b x) n = convolve N b (convolve M a x) n := by
  simp only [convolve_eq_sum,Finset.mul_sum]
  rw [Finset.sum_comm]
  apply Finset.sum_congr rfl
  intro j _
  apply Finset.sum_congr rfl
  intro k _
  have ht : n-(k : ℤ)-j = n-j-k := by ring
  rw [ht]
  ring

lemma convolve_of_zero_past {N : ℕ} {b : ℕ → R} {x : ℤ → R} {t₀ n : ℤ}
    (hx : ∀ t < t₀, x t = 0) (hn : n < t₀) : convolve N b x n = 0 := by
  rw [convolve_eq_sum]
  apply Finset.sum_eq_zero
  intro k _
  rw [hx _ (by omega),mul_zero]

/-- The signal that is silent before time `t₀`. -/
def startedAt (t₀ : ℤ) (x : ℤ → R) : ℤ → R := fun t => if t < t₀ then 0 else x t

lemma startedAt_of_lt {t₀ t : ℤ} (x : ℤ → R) (h : t < t₀) : startedAt t₀ x t = 0 := by
  simp [startedAt,h]

lemma startedAt_of_le {t₀ t : ℤ} (x : ℤ → R) (h : t₀ ≤ t) : startedAt t₀ x t = x t := by
  simp [startedAt,not_lt.mpr h]

/-- Terms that reach back behind the start of a signal can be added freely. -/
lemma convolve_extend {M N : ℕ} (hMN : M ≤ N) {b : ℕ → R} {x : ℤ → R} {n : ℤ}
    (hx : ∀ t < n-M, x t = 0) : convolve M b x n = convolve N b x n := by
  rw [convolve_eq_sum,convolve_eq_sum]
  apply Finset.sum_subset (Finset.range_mono (by omega))
  intro k _ hk
  rw [Finset.mem_range] at hk
  rw [hx _ (by omega),mul_zero]

lemma feedback_extend {M N : ℕ} (hMN : M ≤ N) {a : ℕ → R} {y : ℤ → R} {n : ℤ}
    (hy : ∀ t < n-M, y t = 0) : feedback M a y n = feedback N a y n := by
  rw [feedback_eq_sum,feedback_eq_sum]
  apply Finset.sum_subset (Finset.range_mono hMN)
  intro k _ hk
  rw [Finset.mem_range] at hk
  rw [hy _ (by omega),mul_zero]

/-- A sum that reaches back to the start of the signal exactly, or one that reaches further
over the silence before it. -/
lemma convolve_startedAt {M N : ℕ} (hMN : M ≤ N) {b : ℕ → R} (x : ℤ → R) {t₀ n : ℤ}
    (hn : n-M = t₀) : convolve M b x n = convolve N b (startedAt t₀ x) n := by
  have hcongr : convolve M b x n = convolve M b (startedAt t₀ x) n :=
    convolve_congr (fun t ht _ => (startedAt_of_le x (by omega)).symm)
  rw [hcongr]
  exact convolve_extend hMN (fun t ht => startedAt_of_lt x (by omega))

lemma feedback_of_zero_past {N : ℕ} {a : ℕ → R} {y : ℤ → R} {n : ℤ} (hy : ∀ t < n, y t = 0) :
    feedback N a y n = 0 := by
  rw [feedback_eq_sum]
  apply Finset.sum_eq_zero
  intro k _
  rw [hy _ (by omega),mul_zero]

/-- The weights `1, 0, 0, ...`. -/
def unitWeights (k : ℕ) : R := if k = 0 then 1 else 0

lemma convolve_unitWeights (N : ℕ) (x : ℤ → R) (n : ℤ) : convolve N unitWeights x n = x n := by
  rw [convolve_eq_sum,Finset.sum_range_succ']
  simp [unitWeights]

/-- A single weight reads a single sample. -/
lemma convolve_single {N i : ℕ} (hi : i ≤ N) (x : ℤ → R) (n : ℤ) :
    convolve N (Pi.single i 1) x n = x (n-i) := by
  rw [convolve_eq_sum,Finset.sum_eq_single_of_mem i (by simpa using hi)]
  · simp
  · intro k _ hk
    simp [Pi.single_eq_of_ne hk]

/-- An impulse shows a single weight. -/
lemma convolve_impulse {N i : ℕ} (hi : i ≤ N) (b : ℕ → R) (n : ℤ) :
    convolve N b (Pi.single (n-i) 1) n = b i := by
  rw [convolve_eq_sum,Finset.sum_eq_single_of_mem i (by simpa using hi)]
  · simp
  · intro k _ hk
    have hne : n-(k : ℤ) ≠ n-i := by omega
    rw [Pi.single_eq_of_ne hne,mul_zero]

lemma feedback_impulse {N i : ℕ} (hl : 1 ≤ i) (hu : i ≤ N) (a : ℕ → R) (n : ℤ) :
    feedback N a (Pi.single (n-i) 1) n = a i := by
  obtain ⟨j,rfl⟩ : ∃ j, i = j+1 := ⟨i-1,by omega⟩
  rw [feedback_eq_sum,Finset.sum_eq_single_of_mem j (by simpa using hu)]
  · simp
  · intro k _ hk
    have hne : n-((k : ℤ)+1) ≠ n-((j+1 : ℕ) : ℤ) := by omega
    rw [Pi.single_eq_of_ne hne,mul_zero]

lemma feedback_zero (N : ℕ) (y : ℤ → R) (n : ℤ) : feedback N 0 y n = 0 := by
  rw [feedback_eq_sum]
  simp

/-- The weights of a recursion, with the leading one it divides by. -/
def leadingOne (a : ℕ → R) (k : ℕ) : R := if k = 0 then 1 else a k

lemma leadingOne_eq_self {a : ℕ → R} (h : a 0 = 1) : leadingOne a = a := by
  funext k
  by_cases hk : k = 0 <;> simp [leadingOne,hk,h]

/-- Moving the recursion's sum to the other side turns it into a convolution. -/
lemma convolve_leadingOne (N : ℕ) (a : ℕ → R) (y : ℤ → R) (n : ℤ) :
    convolve N (leadingOne a) y n = y n+feedback N a y n := by
  rw [convolve_eq_sum,feedback_eq_sum,Finset.sum_range_succ',add_comm]
  simp [leadingOne]

lemma recursion_iff (N : ℕ) (a : ℕ → R) (y : ℤ → R) (n : ℤ) (u : R) :
    y n = u-feedback N a y n ↔ convolve N (leadingOne a) y n = u := by
  rw [convolve_leadingOne]
  exact eq_sub_iff_add_eq

/-- A convolution with leading weight one is injective on signals with a common past. -/
theorem convolve_leadingOne_cancel {N : ℕ} {a : ℕ → R} {s s' : ℤ → R} (t₀ : ℤ)
    (hpast : ∀ t < t₀, s t = s' t)
    (h : ∀ m, t₀ ≤ m → convolve N (leadingOne a) s m = convolve N (leadingOne a) s' m) :
    s = s' := by
  apply causal_ext t₀ hpast
  intro m hm hbefore
  have hfeedback : feedback N a s m = feedback N a s' m :=
    feedback_congr (fun t _ ht => hbefore t ht)
  have hsum := h m hm
  rw [convolve_leadingOne,convolve_leadingOne,hfeedback] at hsum
  exact add_right_cancel hsum

/-- Direct forms I and II from rest: filtering the auxiliary signal by the zeros solves the
difference equation of the whole filter. -/
theorem direct_forms_agree {N : ℕ} {a b : ℕ → R} {x v y : ℤ → R} (t₀ : ℤ)
    (hx : ∀ t < t₀, x t = 0) (hv : ∀ t < t₀, v t = 0) (hy : ∀ t < t₀, y t = 0)
    (hvstep : ∀ m, t₀ ≤ m → v m = x m-feedback N a v m)
    (hystep : ∀ m, t₀ ≤ m → y m = convolve N b x m-feedback N a y m) :
    y = convolve N b v := by
  have hpoles : convolve N (leadingOne a) v = x := by
    funext m
    by_cases hm : m < t₀
    · rw [convolve_of_zero_past hv hm,hx m hm]
    · exact (recursion_iff N a v m _).mp (hvstep m (by omega))
  apply convolve_leadingOne_cancel (N := N) (a := a) t₀
  · intro t ht
    rw [hy t ht,convolve_of_zero_past hv ht]
  · intro m hm
    rw [(recursion_iff N a y m _).mp (hystep m hm),convolve_comm,hpoles]

end DspLibrary.Foundation
