import DspLibrary.Kinds

/-! Two runs from two states: only the windows matter. The states may be at different positions
of their buffers, so that they move their data at different samples, and may differ in every
cell outside the windows. -/
namespace DspLibrary
open Foundation
variable {α : Type*}

/-- A state of an FIR filter: the counter is anywhere in the buffer, and the cells of the window hold
some values. -/
structure FIR.State (N : ℕ) (b : ℕ → α) (f : Filter α) : Prop where
  position_nonneg : 0 ≤ f.contBuffer
  position_le : f.contBuffer ≤ bufferSize
  order : f.initialDataFilter.filterOrder = N
  coefficients : f.initialDataFilter.arrayCoefficientsB.Stores 0 (N+1) b
  room : N+bufferSize ≤ f.initialDataFilter.arrayInputsX.size
  window : ∃ w, f.initialDataFilter.arrayInputsX.Stores f.contBuffer N w

structure IIR.State (N : ℕ) (b a : ℕ → α) (f : Filter α) : Prop extends FIR.State N b f where
  coefficientsA : f.initialDataFilter.arrayCoefficientsA.Stores 0 N (fun k => a (k+1))
  roomY : N+bufferSize ≤ f.initialDataFilter.arrayInputsY.size
  windowY : ∃ z, f.initialDataFilter.arrayInputsY.Stores f.contBuffer N z

lemma FIR.State.running {N : ℕ} {b : ℕ → α} {f : Filter α} (h : FIR.State N b f) {w : ℕ → α}
    (hw : f.initialDataFilter.arrayInputsX.Stores f.contBuffer N w) :
    FIR.Running N b (ofHistory N w) 0 f := by
  refine ⟨h.position_nonneg,h.position_le,h.room,h.order,h.coefficients,hw.congr ?_⟩
  intro j _
  simp [ofHistory]

lemma IIR.State.running {N : ℕ} {b a : ℕ → α} {f : Filter α} (h : IIR.State N b a f) {w z : ℕ → α}
    (hw : f.initialDataFilter.arrayInputsX.Stores f.contBuffer N w)
    (hz : f.initialDataFilter.arrayInputsY.Stores f.contBuffer N z) :
    IIR.Running N b a (ofHistory N w) (ofHistory N z) 0 f := by
  refine ⟨h.toState.running hw,h.roomY,h.coefficientsA,hz.congr ?_⟩
  intro j _
  simp [ofHistory]

/-- Every filter that is running is in such a state, also one that has just been started. -/
theorem FIR.Running.state {N : ℕ} {b : ℕ → α} {x : ℤ → α} {n : ℤ} {f : Filter α}
    (h : FIR.Running N b x n f) : FIR.State N b f :=
  ⟨h.position_nonneg,h.position_le,h.tracks.order,h.tracks.coefficients,h.room,_,h.tracks.window⟩

theorem IIR.Running.state {N : ℕ} {b a : ℕ → α} {x y : ℤ → α} {n : ℤ} {f : Filter α}
    (h : IIR.Running N b a x y n f) : IIR.State N b a f :=
  ⟨h.toRunning.state,h.tracksY.coefficients,h.roomY,_,h.tracksY.window⟩

namespace FilterKind

/-- The states of a kind of filter with given order and coefficients. An FIR filter has no
feedback side. -/
def State (kind : FilterKind) (N : ℕ) (b a : ℕ → α) (f : Filter α) : Prop :=
  match kind with
  | .fir _ => FIR.State N b f
  | .iirFormI => IIR.State N b a f
  | .iirFormII => IIR.State N b a f

/-- Some signals are in the windows of every state. -/
lemma State.exists_running {kind : FilterKind} {N : ℕ} {b a : ℕ → α} {f : Filter α}
    (h : kind.State N b a f) : ∃ x s, kind.Running N b a x s 0 f := by
  cases kind with
  | fir form =>
    obtain ⟨w,hw⟩ := FIR.State.window h
    exact ⟨_,ofHistory N w,running_of_FIR (FIR.State.running h hw)⟩
  | iirFormI =>
    obtain ⟨w,hw⟩ := (IIR.State.toState h).window
    obtain ⟨z,hz⟩ := IIR.State.windowY h
    exact ⟨_,_,running_of_IIR (IIR.State.running h hw hz)⟩
  | iirFormII =>
    obtain ⟨w,hw⟩ := (IIR.State.toState h).window
    obtain ⟨z,hz⟩ := IIR.State.windowY h
    exact ⟨_,_,running_of_IIR (IIR.State.running h hw hz)⟩

variable [Zero α] [Add α] [Sub α] [Mul α]

/-- Two states whose used windows agree return the same values on every input sequence. For
direct form II this holds whatever the two input arrays contain. -/
theorem windows_determine_outputs (kind : FilterKind) (N : ℕ) (b a : ℕ → α) (f₁ f₂ : Filter α)
    (h₁ : kind.State N b a f₁) (h₂ : kind.State N b a f₂)
    (hX : kind.UsesX → ∀ j : ℕ, j < N →
      f₁.initialDataFilter.arrayInputsX.read (f₁.contBuffer+j) =
        f₂.initialDataFilter.arrayInputsX.read (f₂.contBuffer+j))
    (hY : kind.UsesY → ∀ j : ℕ, j < N →
      f₁.initialDataFilter.arrayInputsY.read (f₁.contBuffer+j) =
        f₂.initialDataFilter.arrayInputsY.read (f₂.contBuffer+j))
    (inputs : List α) :
    ∃ outputs : List α, Yields (feed kind.process f₁ inputs) (fun r => r.1 = outputs) ∧
      Yields (feed kind.process f₂ inputs) (fun r => r.1 = outputs) := by
  obtain ⟨x₁,s₁,hrun₁⟩ := State.exists_running h₁
  obtain ⟨x₂,s₂,hrun₂⟩ := State.exists_running h₂
  apply hrun₁.sameOutputs hrun₂
  · intro huse
    exact hrun₁.tracks.window.values_eq hrun₂.tracks.window (hX huse)
  · intro huse
    exact (hrun₁.tracksY huse).window.values_eq (hrun₂.tracksY huse).window (hY huse)

end FilterKind

/-- A state of order 1 at the given position, with the given cells. -/
def IIR.stateOfCells (c : ℤ) (x y : ℕ → ℤ) : Filter ℤ :=
  ⟨⟨0⟩,⟨0,1,argument 2 (fun k => (k : ℤ)+2),Block.ofSeq .inputsX 0 11 x,argument 1 (fun k => (k : ℤ)+4),
    Block.ofSeq .inputsY 0 11 y,⟨0⟩⟩,c⟩

lemma IIR.stateOfCells_state (c : ℕ) (h : c ≤ 10) (x y : ℕ → ℤ) :
    IIR.State 1 (fun k => (k : ℤ)+2) (fun k => (k : ℤ)+3) (IIR.stateOfCells c x y) where
  position_nonneg := Int.natCast_nonneg c
  position_le := Int.ofNat_le.mpr h
  order := rfl
  coefficients := DataFilter.stores_argument 2 _
  room := le_rfl
  window := ⟨_,Block.stores_ofSeq_from ArrayName.inputsX 0 11 x (show c+1 ≤ 11 by omega)⟩
  coefficientsA := by
    refine (DataFilter.stores_argument 1 (fun k => (k : ℤ)+4)).congr ?_
    intro k _
    push_cast
    ring
  roomY := le_rfl
  windowY := ⟨_,Block.stores_ofSeq_from ArrayName.inputsY 0 11 y (show c+1 ≤ 11 by omega)⟩

theorem FilterKind.windows_determine_outputs_across_a_move :
    ∃ outputs : List ℤ,
      Yields (feed FilterKind.iirFormII.process (IIR.stateOfCells 0 (fun i => i) (fun i => 5+i))
        [1,2,3,4,5,6,7,8,9,10,11,12]) (fun r => r.1 = outputs) ∧
      Yields (feed FilterKind.iirFormII.process (IIR.stateOfCells 10 (fun i => 7*i) (fun i => i-5))
        [1,2,3,4,5,6,7,8,9,10,11,12]) (fun r => r.1 = outputs) :=
  FilterKind.windows_determine_outputs .iirFormII 1 (fun k => (k : ℤ)+2) (fun k => (k : ℤ)+3) _ _
    (IIR.stateOfCells_state 0 (by decide) _ _) (IIR.stateOfCells_state 10 (by decide) _ _) False.elim
    (by
      intro _ j hj
      obtain rfl : j = 0 := by omega
      rfl) _

end DspLibrary
