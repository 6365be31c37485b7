import DspLibrary.DataFilterSemantics
import DspLibrary.Specification

/-! The relation between the arrays of a `DataFilter` and the signals of the specification: at
time `n` and position `c`, the `N` cells from `c` on hold the last `N` samples. The three
overloads of `newDataFilter` establish it at time 0 and position 0. -/
namespace DspLibrary
open Foundation
variable {α : Type*}

/-- The input side: order, zeros and the window on the input signal. -/
structure TracksX (N : ℕ) (b : ℕ → α) (x : ℤ → α) (n c : ℤ) (d : DataFilter α) : Prop where
  order : d.filterOrder = N
  coefficients : d.arrayCoefficientsB.Stores 0 (N+1) b
  window : d.arrayInputsX.Stores c N (fun j => x (n-N+j))

/-- The feedback side: poles and the window on the output signal, or on the auxiliary one. -/
structure TracksY (N : ℕ) (a : ℕ → α) (y : ℤ → α) (n c : ℤ) (d : DataFilter α) : Prop where
  coefficients : d.arrayCoefficientsA.Stores 0 N (fun k => a (k+1))
  window : d.arrayInputsY.Stores c N (fun j => y (n-N+j))

/-- The block is the array of that name, with that number of cells. -/
def Allocated (name : ArrayName) (room : ℕ) (b : FloatBlock α) : Prop :=
  b.label = name ∧ b.size = room

/-- An array of the caller. -/
def argument (n : ℕ) (f : ℕ → α) : FloatBlock α := Block.ofSeq .argument 0 n f

/-- The history of a signal, oldest sample first. -/
def history (N : ℕ) (x : ℤ → α) : ℕ → α := fun j => x (j-N)

namespace DataFilter

lemma stores_argument (n : ℕ) (f : ℕ → α) : (argument n f).Stores 0 n f :=
  Block.stores_ofSeq _ _ n f

lemma stores_argument_tail (n : ℕ) (f : ℕ → α) :
    (argument (n+1) f).Stores 1 n (fun k => f (k+1)) := by
  simpa using (stores_argument (n+1) f).tail

/-- A setter: the copy, followed by the assignment of the array it filled. -/
lemma copyThen_yields {dst src : FloatBlock α} {offset : ℤ} {n : ℕ} {f : ℕ → α}
    (assign : FloatBlock α → DataFilter α) (hsrc : src.Stores offset n f) (hroom : n ≤ dst.size) :
    Yields (copyLoop n offset dst src >>= fun q => pure (assign q))
      (fun d => ∃ q, dst.SameRegion q ∧ q.Stores 0 n f ∧ d = assign q) := by
  refine (copyLoop_yields hsrc hroom).bind ?_
  rintro q ⟨hregion,hstored⟩
  exact Yields.ret ⟨q,hregion,hstored,rfl⟩

lemma setArrayCoefficientsB_yields {d : DataFilter α} {p : FloatBlock α} {N : ℕ} {b : ℕ → α}
    (horder : d.filterOrder = N) (hp : p.Stores 0 (N+1) b)
    (hroom : N+1 ≤ d.arrayCoefficientsB.size) :
    Yields (d.setArrayCoefficientsB p) (fun d' => ∃ q, d.arrayCoefficientsB.SameRegion q ∧
      q.Stores 0 (N+1) b ∧ d' = { d with arrayCoefficientsB := q }) := by
  unfold setArrayCoefficientsB
  rw [horder]
  exact copyThen_yields _ hp hroom

lemma setArrayInitialConditionsX_yields {d : DataFilter α} {p : FloatBlock α} {N : ℕ}
    {x : ℕ → α} (horder : d.filterOrder = N) (hp : p.Stores 0 N x)
    (hroom : N ≤ d.arrayInputsX.size) :
    Yields (d.setArrayInitialConditionsX p) (fun d' => ∃ q, d.arrayInputsX.SameRegion q ∧
      q.Stores 0 N x ∧ d' = { d with arrayInputsX := q }) := by
  unfold setArrayInitialConditionsX
  rw [horder]
  exact copyThen_yields _ hp hroom

lemma setArrayCoefficientsA_yields {d : DataFilter α} {p : FloatBlock α} {N : ℕ} {a : ℕ → α}
    (horder : d.filterOrder = N) (hp : p.Stores 1 N (fun k => a (k+1)))
    (hroom : N ≤ d.arrayCoefficientsA.size) :
    Yields (d.setArrayCoefficientsA p) (fun d' => ∃ q, d.arrayCoefficientsA.SameRegion q ∧
      q.Stores 0 N (fun k => a (k+1)) ∧ d' = { d with arrayCoefficientsA := q }) := by
  unfold setArrayCoefficientsA
  rw [horder]
  exact copyThen_yields _ hp hroom

lemma setArrayInitialConditionsY_yields {d : DataFilter α} {p : FloatBlock α} {N : ℕ}
    {y : ℕ → α} (horder : d.filterOrder = N) (hp : p.Stores 0 N y)
    (hroom : N ≤ d.arrayInputsY.size) :
    Yields (d.setArrayInitialConditionsY p) (fun d' => ∃ q, d.arrayInputsY.SameRegion q ∧
      q.Stores 0 N y ∧ d' = { d with arrayInputsY := q }) := by
  unfold setArrayInitialConditionsY
  rw [horder]
  exact copyThen_yields _ hp hroom

/-- What an overload leaves behind on the input side. -/
structure ReadyX (N : ℕ) (b : ℕ → α) (x : ℤ → α) (room : ℕ) (d : DataFilter α) : Prop where
  tracks : TracksX N b x 0 0 d
  allocated : Allocated .inputsX room d.arrayInputsX

/-- What an overload leaves behind on the feedback side. -/
structure ReadyY (N : ℕ) (a : ℕ → α) (y : ℤ → α) (room : ℕ) (d : DataFilter α) : Prop where
  tracks : TracksY N a y 0 0 d
  allocated : Allocated .inputsY room d.arrayInputsY

lemma history_window (N : ℕ) (x : ℤ → α) : history N x = fun j : ℕ => x (0-N+j) := by
  funext j
  simp only [history]
  congr 1
  ring

/-- The requests for the coefficient arrays of order `N` are granted in full. -/
structure GrantsCoefficients (sys : Supply) (N : ℕ) : Prop where
  b : N+1 ≤ sys.room (N+1)
  a : N ≤ sys.room N

lemma grantsCoefficients (sys : Allocator) (N : ℕ) : GrantsCoefficients sys N :=
  ⟨by simpa using sys.le_room (N+1),sys.le_room N⟩

theorem newDataFilterFIR_yields (sys : Supply) (h : Heap) (d : DataFilter α) (N : ℕ)
    (b : ℕ → α) (x : ℤ → α) (hgrants : GrantsCoefficients sys N)
    (hroom : N ≤ sys.room (d.filterOrder+bufferSize)) :
    Yields (newDataFilterFIR sys h d N (argument N (history N x)) (argument (N+1) b))
      (fun r => ReadyX N b x (sys.room (d.filterOrder+bufferSize)) r.1) := by
  simp only [newDataFilterFIR,allocateFIR,Supply.allocBlock,setFilterOrder]
  refine (setArrayInitialConditionsX_yields rfl (stores_argument N _) (by simpa using hroom)).bind ?_
  rintro _ ⟨qx,hregionX,hX,rfl⟩
  refine (setArrayCoefficientsB_yields rfl (stores_argument (N+1) b) (by simpa using hgrants.b)).bind ?_
  rintro _ ⟨qb,-,hB,rfl⟩
  rw [history_window] at hX
  exact Yields.ret ⟨⟨rfl,hB,hX⟩,hregionX.label,by simpa using hregionX.size⟩

theorem newDataFilterIIRFormI_yields (sys : Supply) (h : Heap) (d : DataFilter α) (N : ℕ)
    (b a : ℕ → α) (x y : ℤ → α) (hgrants : GrantsCoefficients sys N)
    (hroom : N ≤ sys.room (d.filterOrder+bufferSize)) :
    Yields (newDataFilterIIRFormI sys h d N (argument N (history N x)) (argument (N+1) b)
        (argument N (history N y)) (argument (N+1) a))
      (fun r => ReadyX N b x (sys.room (d.filterOrder+bufferSize)) r.1 ∧
        ReadyY N a y (sys.room (d.filterOrder+bufferSize)) r.1) := by
  simp only [newDataFilterIIRFormI,allocateIIR,Supply.allocBlock,setFilterOrder]
  refine (setArrayInitialConditionsX_yields rfl (stores_argument N _) (by simpa using hroom)).bind ?_
  rintro _ ⟨qx,hregionX,hX,rfl⟩
  refine (setArrayCoefficientsB_yields rfl (stores_argument (N+1) b) (by simpa using hgrants.b)).bind ?_
  rintro _ ⟨qb,-,hB,rfl⟩
  refine (setArrayInitialConditionsY_yields rfl (stores_argument N _) (by simpa using hroom)).bind ?_
  rintro _ ⟨qy,hregionY,hY,rfl⟩
  refine (setArrayCoefficientsA_yields rfl (stores_argument_tail N a) (by simpa using hgrants.a)).bind ?_
  rintro _ ⟨qa,-,hA,rfl⟩
  rw [history_window] at hX hY
  exact Yields.ret ⟨⟨⟨rfl,hB,hX⟩,hregionX.label,by simpa using hregionX.size⟩,
    ⟨⟨hA,hY⟩,hregionY.label,by simpa using hregionY.size⟩⟩

variable [Zero α] [Add α] [Sub α] [Mul α]

/-- `createArrayAux` fills the history of the auxiliary signal. The invariant of its loop is
that the first `i+1` cells are final; each iteration sums over all of them. -/
theorem createArrayAux_yields (sys : Supply) (h : Heap) {d : DataFilter α} {N : ℕ}
    {a : ℕ → α} {x v : ℤ → α} (hN : 1 ≤ N) (haux : IsAuxiliary N a x v)
    (horder : d.filterOrder = N) (hx : d.arrayInputsX.Stores 0 N (history N x))
    (ha : d.arrayCoefficientsA.Stores 0 N (fun k => a (k+1))) (hroom : N ≤ d.arrayInputsY.size) :
    Yields (createArrayAux sys h d) (fun r => ∃ q, d.arrayInputsY.SameRegion q ∧
      q.Stores 0 N (history N v) ∧
      r.1 = { d with arrayInputsY := q, mathOperation := ⟨(sys.alloc h).1⟩ }) := by
  have hfirst : d.arrayInputsX.read 0 = .ok (x (-N)) := by
    simpa [history] using hx 0 (by omega)
  simp only [createArrayAux,allocateMathOperation,hfirst,ok_bind]
  refine (Block.write_yields d.arrayInputsY 0 _ le_rfl (by omega)).bind ?_
  intro y₀ hw₀
  have hstored₀ : y₀.Stores 0 1 (history N v) := by
    refine (Block.stores_zero d.arrayInputsY 0 (history N v)).snoc hw₀ ?_
    simpa [history] using haux.start.symm
  have hloop : Yields (forUpTo 0 (d.filterOrder-1)
      (createArrayAuxBody { d with mathOperation := ⟨(sys.alloc h).1⟩ }) y₀)
      (fun q => d.arrayInputsY.SameRegion q ∧ q.Stores 0 (N-1+1) (history N v)) := by
    rw [horder]
    refine forUpTo_yields (n := N-1)
      (fun i q => d.arrayInputsY.SameRegion q ∧ q.Stores 0 (i+1) (history N v)) (by omega)
      ⟨hw₀.toSameRegion,hstored₀⟩ ?_
    rintro i hi q ⟨hregion,hstored⟩
    have hwindow : q.Stores 0 (i+1) (fun j => v ((i+1-N : ℤ)-(i+1 : ℕ)+j)) := by
      refine hstored.congr ?_
      intro j _
      simp only [history]
      congr 1
      push_cast
      ring
    have hsum := FuntionsMath.sum_feedback (ha.mono (by omega)) hwindow
    rw [show ((i+1 : ℕ) : ℤ)-1 = 0+i by push_cast; ring] at hsum
    have hread : d.arrayInputsX.read (0+i+1) = .ok (x (i+1-N)) := by
      have hcell := hx (i+1) (by omega)
      simp only [history] at hcell
      push_cast at hcell
      rwa [← add_assoc] at hcell
    have hvalue : x (i+1-N)-feedback (i+1) a v (i+1-N) = history N v (i+1) := by
      have hstep := haux.step (i+1-N) (by omega)
      rw [show min N ((i : ℤ)+1-N+N).toNat = i+1 by omega] at hstep
      simp only [history]
      push_cast
      exact hstep.symm
    have hsize := hregion.size
    simp only [createArrayAuxBody,hsum,hread,ok_bind]
    refine (Block.write_yields q (0+i+1) _ (by omega) (by omega)).mono ?_
    intro q' hw
    rw [show (0 : ℤ)+i+1 = 0+(i+1 : ℕ) by push_cast; ring] at hw
    exact ⟨hregion.trans hw.toSameRegion,hstored.snoc hw hvalue⟩
  refine hloop.bind ?_
  rintro q ⟨hregion,hstored⟩
  rw [Nat.sub_add_cancel hN] at hstored
  exact Yields.ret ⟨q,hregion,hstored,rfl⟩

theorem newDataFilterIIRFormII_yields (sys : Supply) (h : Heap) (d : DataFilter α) (N : ℕ)
    (b a : ℕ → α) (x v : ℤ → α) (hN : 1 ≤ N) (haux : IsAuxiliary N a x v)
    (hgrants : GrantsCoefficients sys N) (hroom : N ≤ sys.room (d.filterOrder+bufferSize)) :
    Yields (newDataFilterIIRFormII sys h d N (argument N (history N x)) (argument (N+1) b)
        (argument (N+1) a))
      (fun r => ReadyX N b x (sys.room (d.filterOrder+bufferSize)) r.1 ∧
        ReadyY N a v (sys.room (d.filterOrder+bufferSize)) r.1) := by
  simp only [newDataFilterIIRFormII,allocateIIR,Supply.allocBlock,setFilterOrder]
  refine (setArrayInitialConditionsX_yields rfl (stores_argument N _) (by simpa using hroom)).bind ?_
  rintro _ ⟨qx,hregionX,hX,rfl⟩
  refine (setArrayCoefficientsB_yields rfl (stores_argument (N+1) b) (by simpa using hgrants.b)).bind ?_
  rintro _ ⟨qb,-,hB,rfl⟩
  refine (setArrayCoefficientsA_yields rfl (stores_argument_tail N a) (by simpa using hgrants.a)).bind ?_
  rintro _ ⟨qa,-,hA,rfl⟩
  refine (createArrayAux_yields sys _ hN haux rfl hX hA (by simpa using hroom)).mono ?_
  rintro ⟨_,h'⟩ ⟨qv,hregionV,hV,rfl⟩
  rw [history_window] at hX hV
  exact ⟨⟨⟨rfl,hB,hX⟩,hregionX.label,by simpa using hregionX.size⟩,
    ⟨⟨hA,hV⟩,hregionV.label,by simpa using hregionV.size⟩⟩

end DataFilter
end DspLibrary
