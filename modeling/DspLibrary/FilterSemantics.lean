import DspLibrary.Filter
import DspLibrary.Tracking

/-! One sample through a filter, and whole streams of samples. Each direct form needs its
history arrays to reach one cell behind the window it reads, keeps the tracking relation while
time goes on by one, and answers with the value of the specification. -/
namespace DspLibrary
open Foundation
variable {α : Type*}

/-- The position a sample is processed at: a full buffer is moved back to its start first. -/
def nextPosition (c : ℤ) : ℤ := if c = bufferSize then 0 else c

lemma nextPosition_nonneg {c : ℤ} (h : 0 ≤ c) : 0 ≤ nextPosition c := by
  unfold nextPosition
  split <;> omega

lemma nextPosition_lt {c : ℤ} (h : c ≤ bufferSize) : nextPosition c < bufferSize := by
  have hpos := bufferSize_pos
  unfold nextPosition
  split <;> omega

lemma nextPosition_of_lt {c : ℤ} (h : c < bufferSize) : nextPosition c = c := by
  unfold nextPosition
  rw [if_neg (by omega)]

/-- The window slides by one sample when the next one has been stored behind it. -/
lemma window_slides {b : FloatBlock α} {c n : ℤ} {N : ℕ} {s : ℤ → α}
    (h : b.Stores c (N+1) (fun j => s (n-N+j))) :
    b.Stores (c+1) N (fun j => s (n+1-N+j)) := by
  refine h.tail.congr ?_
  intro j _
  congr 1
  push_cast
  ring

lemma window_extends {b b' : FloatBlock α} {c n : ℤ} {N : ℕ} {s : ℤ → α} {v : α}
    (h : b.Stores c N (fun j => s (n-N+j))) (hw : Block.Written b (N+c) v b') (hv : v = s n) :
    b'.Stores c (N+1) (fun j => s (n-N+j)) := by
  rw [add_comm] at hw
  refine h.snoc hw ?_
  simpa using hv

/-- The arrays stay in place and the position advances by one. -/
structure Advanced (f f' : Filter α) : Prop where
  position : f'.contBuffer = nextPosition f.contBuffer+1
  regionX : f.initialDataFilter.arrayInputsX.SameRegion f'.initialDataFilter.arrayInputsX
  regionY : f.initialDataFilter.arrayInputsY.SameRegion f'.initialDataFilter.arrayInputsY

namespace FIR

lemma moveIfFull_yields {f : Filter α} {N : ℕ} {w : ℕ → α}
    (horder : f.initialDataFilter.filterOrder = N)
    (hX : f.initialDataFilter.arrayInputsX.Stores f.contBuffer N w) :
    Yields (moveIfFull f) (fun r => f.initialDataFilter.arrayInputsX.SameRegion r.1 ∧
      r.1.Stores r.2 N w ∧ r.2 = nextPosition f.contBuffer) := by
  unfold moveIfFull nextPosition
  by_cases hfull : f.contBuffer = bufferSize
  · rw [hfull] at hX
    simp only [hfull,if_true]
    refine (DataFilter.moveArray_yields horder hX).bind ?_
    rintro x ⟨hregion,hmoved,-⟩
    exact Yields.ret ⟨hregion,hmoved,rfl⟩
  · simp only [hfull,if_false]
    exact Yields.ret ⟨.refl _,hX,rfl⟩

variable [Zero α] [Add α] [Mul α]

/-- One sample through either direct form of an FIR filter. -/
theorem directForm_yields {f : Filter α} {N : ℕ} {b : ℕ → α} {x : ℤ → α} {n : ℤ}
    (hX : TracksX N b x n f.contBuffer f.initialDataFilter) (hpos : 0 ≤ f.contBuffer)
    (hfit : N+nextPosition f.contBuffer < f.initialDataFilter.arrayInputsX.size) :
    Yields (directForm f (x n)) (fun r => r.1 = convolve N b x n ∧ Advanced f r.2 ∧
      TracksX N b x (n+1) r.2.contBuffer r.2.initialDataFilter) := by
  have hpos' := nextPosition_nonneg hpos
  unfold directForm
  refine (moveIfFull_yields hX.order hX.window).bind ?_
  rintro ⟨x₁,c⟩ ⟨hregion,hwindow,rfl⟩
  have hsize : x₁.size = f.initialDataFilter.arrayInputsX.size := hregion.size
  simp only [hX.order]
  refine (Block.write_yields x₁ _ (x n) (by omega) (by omega)).bind ?_
  intro x₂ hw
  have hwindow₂ := window_extends hwindow hw rfl
  simp only [FuntionsMath.sum_convolve hX.coefficients hwindow₂,ok_bind]
  refine Yields.ret ⟨rfl,⟨rfl,hregion.trans hw.toSameRegion,.refl _⟩,?_⟩
  exact ⟨rfl,hX.coefficients,window_slides hwindow₂⟩

end FIR

namespace IIR

lemma moveIfFull_yields {f : Filter α} {N : ℕ} {w z : ℕ → α}
    (horder : f.initialDataFilter.filterOrder = N)
    (hX : f.initialDataFilter.arrayInputsX.Stores f.contBuffer N w)
    (hY : f.initialDataFilter.arrayInputsY.Stores f.contBuffer N z) :
    Yields (moveIfFull f) (fun r => f.initialDataFilter.arrayInputsX.SameRegion r.1 ∧
      f.initialDataFilter.arrayInputsY.SameRegion r.2.1 ∧ r.1.Stores r.2.2 N w ∧
      r.2.1.Stores r.2.2 N z ∧ r.2.2 = nextPosition f.contBuffer) := by
  unfold moveIfFull nextPosition
  by_cases hfull : f.contBuffer = bufferSize
  · rw [hfull] at hX hY
    simp only [hfull,if_true]
    refine (DataFilter.moveArray_yields horder hX).bind ?_
    rintro x ⟨hregionX,hmovedX,-⟩
    refine (DataFilter.moveArray_yields horder hY).bind ?_
    rintro y ⟨hregionY,hmovedY,-⟩
    exact Yields.ret ⟨hregionX,hregionY,hmovedX,hmovedY,rfl⟩
  · simp only [hfull,if_false]
    exact Yields.ret ⟨.refl _,.refl _,hX,hY,rfl⟩

variable [Zero α] [Add α] [Sub α] [Mul α]

section Step
variable {f : Filter α} {N : ℕ} {b a : ℕ → α} {x y : ℤ → α} {n : ℤ}
  (hX : TracksX N b x n f.contBuffer f.initialDataFilter)
  (hY : TracksY N a y n f.contBuffer f.initialDataFilter) (hpos : 0 ≤ f.contBuffer)
  (hfitX : N+nextPosition f.contBuffer < f.initialDataFilter.arrayInputsX.size)
  (hfitY : N+nextPosition f.contBuffer < f.initialDataFilter.arrayInputsY.size)
include hX hY hpos hfitX hfitY

/-- One sample through direct form I: the next output is stored behind the window. -/
theorem directFormI_yields (hy : y n = convolve N b x n-feedback N a y n) :
    Yields (directFormI f (x n)) (fun r => r.1 = y n ∧ Advanced f r.2 ∧
      TracksX N b x (n+1) r.2.contBuffer r.2.initialDataFilter ∧
      TracksY N a y (n+1) r.2.contBuffer r.2.initialDataFilter) := by
  have hpos' := nextPosition_nonneg hpos
  unfold directFormI
  refine (moveIfFull_yields hX.order hX.window hY.window).bind ?_
  rintro ⟨x₁,y₁,c⟩ ⟨hregionX,hregionY,hwindowX,hwindowY,rfl⟩
  have hsizeX : x₁.size = f.initialDataFilter.arrayInputsX.size := hregionX.size
  have hsizeY : y₁.size = f.initialDataFilter.arrayInputsY.size := hregionY.size
  simp only [hX.order]
  refine (Block.write_yields x₁ _ (x n) (by omega) (by omega)).bind ?_
  intro x₂ hwX
  have hwindowX₂ := window_extends hwindowX hwX rfl
  simp only [FuntionsMath.sum_convolve hX.coefficients hwindowX₂,
    FuntionsMath.sum_feedback hY.coefficients hwindowY,ok_bind]
  refine (Block.write_yields y₁ _ _ (by omega) (by omega)).bind ?_
  intro y₂ hwY
  have hwindowY₂ := window_extends hwindowY hwY hy.symm
  refine Yields.ret ⟨hy.symm,⟨rfl,hregionX.trans hwX.toSameRegion,
    hregionY.trans hwY.toSameRegion⟩,?_,?_⟩
  · exact ⟨rfl,hX.coefficients,window_slides hwindowX₂⟩
  · exact ⟨hY.coefficients,window_slides hwindowY₂⟩

/-- One sample through direct form II: the zeros are applied to the auxiliary signal after its
current value has been stored. The window on the inputs is moved along but not used. -/
theorem directFormII_yields (hv : y n = x n-feedback N a y n) :
    Yields (directFormII f (x n)) (fun r => r.1 = convolve N b y n ∧ Advanced f r.2 ∧
      TracksX N b x (n+1) r.2.contBuffer r.2.initialDataFilter ∧
      TracksY N a y (n+1) r.2.contBuffer r.2.initialDataFilter) := by
  have hpos' := nextPosition_nonneg hpos
  unfold directFormII
  refine (moveIfFull_yields hX.order hX.window hY.window).bind ?_
  rintro ⟨x₁,y₁,c⟩ ⟨hregionX,hregionY,hwindowX,hwindowY,rfl⟩
  have hsizeX : x₁.size = f.initialDataFilter.arrayInputsX.size := hregionX.size
  have hsizeY : y₁.size = f.initialDataFilter.arrayInputsY.size := hregionY.size
  simp only [hX.order]
  refine (Block.write_yields x₁ _ (x n) (by omega) (by omega)).bind ?_
  intro x₂ hwX
  have hwindowX₂ := window_extends hwindowX hwX rfl
  simp only [FuntionsMath.sum_feedback hY.coefficients hwindowY,ok_bind]
  refine (Block.write_yields y₁ _ _ (by omega) (by omega)).bind ?_
  intro y₂ hwY
  have hwindowY₂ := window_extends hwindowY hwY hv.symm
  simp only [FuntionsMath.sum_convolve hX.coefficients hwindowY₂,ok_bind]
  refine Yields.ret ⟨rfl,⟨rfl,hregionX.trans hwX.toSameRegion,
    hregionY.trans hwY.toSameRegion⟩,?_,?_⟩
  · exact ⟨rfl,hX.coefficients,window_slides hwindowX₂⟩
  · exact ⟨hY.coefficients,window_slides hwindowY₂⟩

end Step
end IIR
end DspLibrary
