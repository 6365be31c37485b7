import DspLibrary.Foundation.Signal

/-! What the filters are for, stated on two-sided signals: time 0 is the first sample fed to
the filter, and the times from `-N` to `-1` are its history. -/
namespace DspLibrary
open Foundation
variable {α : Type*} [Zero α] [Add α] [Sub α] [Mul α]

/-- The equation of direct form I, at every time from 0 on. -/
def DifferenceEquation (N : ℕ) (b a : ℕ → α) (x y : ℤ → α) : Prop :=
  ∀ n, 0 ≤ n → y n = convolve N b x n-feedback N a y n

/-- The auxiliary signal of direct form II, started from rest at time `-N`: up to time 0 the
feedback reaches back to time `-N` only. -/
structure IsAuxiliary (N : ℕ) (a : ℕ → α) (x v : ℤ → α) : Prop where
  start : v (-N) = x (-N)
  step : ∀ m : ℤ, -N < m → v m = x m-feedback (min N (m+N).toNat) a v m

/-- The outputs from time `-N` to `-1` of a filter that is at rest before time `-N`. -/
def RestHistory (N : ℕ) (b a : ℕ → α) (x y : ℤ → α) : Prop :=
  ∀ m : ℤ, -N ≤ m → m < 0 → y m = convolve (m+N).toNat b x m-feedback (m+N).toNat a y m

theorem exists_differenceEquation (N : ℕ) (b a : ℕ → α) (x past : ℤ → α) :
    ∃ y, (∀ t < 0, y t = past t) ∧ DifferenceEquation N b a x y := by
  apply exists_causal (fun y n => convolve N b x n-feedback N a y n)
  intro s s' m h
  simp only [feedback_congr (N := N) (a := a) (fun t _ ht => h t ht)]

/-- The recursion of direct form II can be continued from every past. -/
theorem exists_recursion (N : ℕ) (a : ℕ → α) (x past : ℤ → α) :
    ∃ v, (∀ t < 0, v t = past t) ∧ ∀ n, 0 ≤ n → v n = x n-feedback N a v n := by
  apply exists_causal (fun v n => x n-feedback N a v n)
  intro s s' m h
  simp only [feedback_congr (N := N) (a := a) (fun t _ ht => h t ht)]

theorem exists_isAuxiliary (N : ℕ) (a : ℕ → α) (x past : ℤ → α) :
    ∃ v, (∀ t < (-N : ℤ), v t = past t) ∧ IsAuxiliary N a x v := by
  obtain ⟨v,hpast,hstep⟩ := exists_causal
    (fun v m => if m = (-N : ℤ) then x m else x m-feedback (min N (m+N).toNat) a v m)
    (by
      intro s s' m h
      simp only [feedback_congr (N := min N (m+N).toNat) (a := a) (fun t _ ht => h t ht)])
    past (-N)
  refine ⟨v,hpast,?_,?_⟩
  · rw [hstep _ le_rfl,if_pos rfl]
  · intro m hm
    conv_lhs => rw [hstep m (by omega),if_neg (by omega)]

/-- From time 0 on the feedback of the auxiliary signal has all its terms. -/
lemma IsAuxiliary.step_full {N : ℕ} {a : ℕ → α} {x v : ℤ → α} (h : IsAuxiliary N a x v)
    (hN : 1 ≤ N) {n : ℤ} (hn : 0 ≤ n) : v n = x n-feedback N a v n := by
  have hm := h.step n (by omega)
  rwa [show min N (n+N).toNat = N by omega] at hm

end DspLibrary
