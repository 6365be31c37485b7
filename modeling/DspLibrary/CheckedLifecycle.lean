import DspLibrary.Lifecycle

/-! The ledger of a lifecycle is the one of the program: a checked run of the same calls, with
every access to a cell, ends with the pointers and the heap of the ledger whenever it returns. -/
namespace DspLibrary
open Foundation
variable {α : Type*}

namespace DataFilter

/-- The address of the object and the pointers it holds. -/
def pointers (d : DataFilter α) : List ℕ :=
  [d.addr,d.arrayCoefficientsB.addr,d.arrayInputsX.addr,d.arrayCoefficientsA.addr,
    d.arrayInputsY.addr,d.mathOperation.addr]

lemma allocateMathOperation_congr (sys : Allocator) (h : Heap) {d e : DataFilter α}
    (hpointers : d.pointers = e.pointers) :
    (allocateMathOperation sys h d).1.pointers = (allocateMathOperation sys h e).1.pointers := by
  simp only [pointers,List.cons.injEq] at hpointers
  simp [pointers,allocateMathOperation,hpointers]

lemma copyLoop_region (count offset : ℤ) (dst src : FloatBlock α) :
    Returning (copyLoop count offset dst src) dst.SameRegion :=
  Block.writeLoop_region (fun i _ => src.read (i+offset)) dst

lemma moveArray_region (d : DataFilter α) (b : FloatBlock α) :
    Returning (d.moveArray b) b.SameRegion :=
  Block.writeLoop_region (fun i b => b.read (i+bufferSize)) b

lemma copyThen_pointers {dst src : FloatBlock α} {count offset : ℤ} {ps : List ℕ}
    (assign : FloatBlock α → DataFilter α)
    (hassign : ∀ q, dst.SameRegion q → (assign q).pointers = ps) :
    Returning (copyLoop count offset dst src >>= fun q => pure (assign q))
      (fun d => d.pointers = ps) := by
  refine (copyLoop_region count offset dst src).bind ?_
  intro q hq
  exact Returning.ok (hassign q hq)

section Setters
variable (d : DataFilter α) (p : FloatBlock α)

lemma setArrayCoefficientsB_pointers :
    Returning (d.setArrayCoefficientsB p) (fun d' => d'.pointers = d.pointers) := by
  refine copyThen_pointers _ ?_
  intro q hq
  simp [pointers,hq.addr]

lemma setArrayInitialConditionsX_pointers :
    Returning (d.setArrayInitialConditionsX p) (fun d' => d'.pointers = d.pointers) := by
  refine copyThen_pointers _ ?_
  intro q hq
  simp [pointers,hq.addr]

lemma setArrayCoefficientsA_pointers :
    Returning (d.setArrayCoefficientsA p) (fun d' => d'.pointers = d.pointers) := by
  refine copyThen_pointers _ ?_
  intro q hq
  simp [pointers,hq.addr]

lemma setArrayInitialConditionsY_pointers :
    Returning (d.setArrayInitialConditionsY p) (fun d' => d'.pointers = d.pointers) := by
  refine copyThen_pointers _ ?_
  intro q hq
  simp [pointers,hq.addr]

end Setters

variable [Zero α] [Add α] [Sub α] [Mul α]

lemma createArrayAux_pointers (sys : Allocator) (h : Heap) (d : DataFilter α) :
    Returning (createArrayAux sys h d) (fun r =>
      r.1.pointers = (allocateMathOperation sys h d).1.pointers ∧
      r.2 = (allocateMathOperation sys h d).2) := by
  unfold createArrayAux
  refine (Returning.any _).bind ?_
  intro first _
  refine (Block.write_region _ _ _).bind ?_
  intro y₀ hy₀
  refine (Returning.forUpTo (P := y₀.SameRegion) ?_ (.refl y₀)).bind ?_
  · intro i y hy
    refine (Returning.any _).bind ?_
    intro numSum _
    refine (Returning.any _).bind ?_
    intro numX _
    exact (y.write_region _ _).mono (fun _ hw => hy.trans hw)
  · intro y hy
    have haddr := (hy₀.trans hy).addr
    refine Returning.ok ⟨?_,rfl⟩
    simp only [pointers,haddr]
    rfl

end DataFilter

/-- Every overload ends with the pointers and the heap of its allocations. -/
theorem Overload.newDataFilter_pointers [Zero α] [Add α] [Sub α] [Mul α] (overload : Overload)
    (sys : Allocator) (h : Heap) (d : DataFilter α) (N : ℤ) (x b y a : FloatBlock α) :
    Returning (overload.newDataFilter sys h d N x b y a) (fun r =>
      r.1.pointers = (overload.allocate sys h d N).1.pointers ∧
      r.2 = (overload.allocate sys h d N).2) := by
  cases overload with
  | fir =>
    refine (DataFilter.setArrayInitialConditionsX_pointers _ x).bind ?_
    intro d₁ h₁
    refine (DataFilter.setArrayCoefficientsB_pointers d₁ b).bind ?_
    intro d₂ h₂
    exact Returning.ok ⟨h₂.trans h₁,rfl⟩
  | iirFormI =>
    refine (DataFilter.setArrayInitialConditionsX_pointers _ x).bind ?_
    intro d₁ h₁
    refine (DataFilter.setArrayCoefficientsB_pointers d₁ b).bind ?_
    intro d₂ h₂
    refine (DataFilter.setArrayInitialConditionsY_pointers d₂ y).bind ?_
    intro d₃ h₃
    refine (DataFilter.setArrayCoefficientsA_pointers d₃ a).bind ?_
    intro d₄ h₄
    exact Returning.ok ⟨h₄.trans (h₃.trans (h₂.trans h₁)),rfl⟩
  | iirFormII =>
    refine (DataFilter.setArrayInitialConditionsX_pointers _ x).bind ?_
    intro d₁ h₁
    refine (DataFilter.setArrayCoefficientsB_pointers d₁ b).bind ?_
    intro d₂ h₂
    refine (DataFilter.setArrayCoefficientsA_pointers d₂ a).bind ?_
    intro d₃ h₃
    refine (DataFilter.createArrayAux_pointers sys _ d₃).mono ?_
    intro r hr
    have hpointers := h₃.trans (h₂.trans h₁)
    exact ⟨hr.1.trans (DataFilter.allocateMathOperation_congr sys _ hpointers),hr.2⟩

lemma Overload.allocate_congr (overload : Overload) (sys : Allocator) (h : Heap)
    {d e : DataFilter α} (N : ℤ) (hpointers : d.pointers = e.pointers) :
    (overload.allocate sys h d N).1.pointers = (overload.allocate sys h e N).1.pointers ∧
      (overload.allocate sys h d N).2 = (overload.allocate sys h e N).2 := by
  simp only [DataFilter.pointers,List.cons.injEq] at hpointers
  cases overload <;>
    simp [allocate,DataFilter.pointers,DataFilter.allocateFIR,DataFilter.allocateIIR,
      DataFilter.allocateMathOperation,Supply.allocBlock,hpointers]

def Filter.pointers (f : Filter α) : List ℕ :=
  f.mathOperation.addr::f.initialDataFilter.pointers

section Samples

lemma FIR.moveIfFull_region (f : Filter α) :
    Returning (moveIfFull f) (fun r => f.initialDataFilter.arrayInputsX.SameRegion r.1) := by
  unfold moveIfFull
  split
  · refine (DataFilter.moveArray_region _ _).bind ?_
    intro x hx
    exact Returning.ok hx
  · exact Returning.ok (.refl _)

lemma IIR.moveIfFull_region (f : Filter α) :
    Returning (moveIfFull f) (fun r => f.initialDataFilter.arrayInputsX.SameRegion r.1 ∧
      f.initialDataFilter.arrayInputsY.SameRegion r.2.1) := by
  unfold moveIfFull
  split
  · refine (DataFilter.moveArray_region _ _).bind ?_
    intro x hx
    refine (DataFilter.moveArray_region _ _).bind ?_
    intro y hy
    exact Returning.ok ⟨hx,hy⟩
  · exact Returning.ok ⟨.refl _,.refl _⟩

variable [Zero α] [Add α] [Sub α] [Mul α]

omit [Sub α] in
lemma FIR.directForm_pointers (f : Filter α) (pData : α) :
    Returning (directForm f pData) (fun r => r.2.pointers = f.pointers) := by
  refine (FIR.moveIfFull_region f).bind ?_
  intro r hr
  refine (Block.write_region _ _ _).bind ?_
  intro x hx
  refine (Returning.any _).bind ?_
  intro result _
  have haddr := (hr.trans hx).addr
  exact Returning.ok (by simp [Filter.pointers,DataFilter.pointers,haddr])

lemma IIR.directFormI_pointers (f : Filter α) (pData : α) :
    Returning (directFormI f pData) (fun r => r.2.pointers = f.pointers) := by
  refine (IIR.moveIfFull_region f).bind ?_
  intro r hr
  refine (Block.write_region _ _ _).bind ?_
  intro x hx
  refine (Returning.any _).bind ?_
  intro resultX _
  refine (Returning.any _).bind ?_
  intro resultY _
  refine (Block.write_region _ _ _).bind ?_
  intro y hy
  have haddrX := (hr.1.trans hx).addr
  have haddrY := (hr.2.trans hy).addr
  exact Returning.ok (by simp [Filter.pointers,DataFilter.pointers,haddrX,haddrY])

lemma IIR.directFormII_pointers (f : Filter α) (pData : α) :
    Returning (directFormII f pData) (fun r => r.2.pointers = f.pointers) := by
  refine (IIR.moveIfFull_region f).bind ?_
  intro r hr
  refine (Block.write_region _ _ _).bind ?_
  intro x hx
  refine (Returning.any _).bind ?_
  intro sumV _
  refine (Block.write_region _ _ _).bind ?_
  intro v hv
  refine (Returning.any _).bind ?_
  intro result _
  have haddrX := (hr.1.trans hx).addr
  have haddrV := (hr.2.trans hv).addr
  exact Returning.ok (by simp [Filter.pointers,DataFilter.pointers,haddrX,haddrV])

/-- A sample changes cells only. -/
theorem FilterClass.sample_pointers (object : FilterClass) (f : Filter α)
    (s : DirectForm × α) :
    Returning (object.sample f s) (fun r => r.2.pointers = f.pointers) := by
  obtain ⟨form,v⟩ := s
  cases object with
  | fir =>
    simp only [FilterClass.sample,FIR.sample_eq]
    exact FIR.directForm_pointers f v
  | iir =>
    cases form with
    | formI => exact IIR.directFormI_pointers f v
    | formII => exact IIR.directFormII_pointers f v

end Samples

/-- The call itself, with every access to a cell. -/
def Call.run [Zero α] [Add α] [Sub α] [Mul α] (sys : Supply) (object : FilterClass) :
    Call α → Filter α × Heap → Checked (Filter α × Heap)
  | .newDataFilter overload pFilterOrder pX pB pY pA,(f,h) => do
    let (d,h) ← overload.newDataFilter sys h f.initialDataFilter pFilterOrder pX pB pY pA
    return ({ f with initialDataFilter := d },h)
  | .setInitialDataFilter,(f,h) => return Filter.setInitialDataFilter sys h f.initialDataFilter
  | .sample form pData,(f,h) => do
    let (_,f) ← object.sample f (form,pData)
    return (f,h)

/-- Equal pointers in equal heaps. -/
def SamePointers (s t : Filter α × Heap) : Prop := s.1.pointers = t.1.pointers ∧ s.2 = t.2

lemma Call.ledger_congr (sys : Allocator) (call : Call α) {s t : Filter α × Heap}
    (h : SamePointers s t) : SamePointers (call.ledger sys s) (call.ledger sys t) := by
  obtain ⟨f,g⟩ := s
  obtain ⟨f',g'⟩ := t
  obtain ⟨hpointers,hheap⟩ := h
  cases hheap
  simp only [Filter.pointers,List.cons.injEq] at hpointers
  cases call with
  | newDataFilter overload N =>
    obtain ⟨hp,hh⟩ := overload.allocate_congr sys g N hpointers.2
    refine ⟨?_,hh⟩
    simp only [Call.ledger,Filter.pointers,hp,hpointers.1]
  | setInitialDataFilter =>
    refine ⟨?_,rfl⟩
    simp only [Call.ledger,Filter.setInitialDataFilter,Filter.pointers,hpointers.2]
  | sample => exact ⟨by simp only [Call.ledger,Filter.pointers,hpointers],rfl⟩

section Runs
variable [Zero α] [Add α] [Sub α] [Mul α] (sys : Allocator) (object : FilterClass)

theorem Call.run_ledger (call : Call α) (s : Filter α × Heap) :
    Returning (call.run sys object s) (fun r => SamePointers r (call.ledger sys s)) := by
  obtain ⟨f,h⟩ := s
  cases call with
  | newDataFilter overload N x b y a =>
    refine (overload.newDataFilter_pointers sys h f.initialDataFilter N x b y a).bind ?_
    intro r hr
    refine Returning.ok ⟨?_,hr.2⟩
    simp only [Call.ledger,Filter.pointers,hr.1]
  | setInitialDataFilter => exact Returning.ok ⟨rfl,rfl⟩
  | sample form v =>
    refine (object.sample_pointers f (form,v)).bind ?_
    intro r hr
    exact Returning.ok ⟨hr,rfl⟩

/-- A list of calls, with every access to a cell. -/
def runCalls : List (Call α) → Filter α × Heap → Checked (Filter α × Heap)
  | [],s => .ok s
  | call::calls,s => call.run sys object s >>= runCalls calls

/-- A run of checked calls that returns ends with the pointers and the heap of the ledger. -/
theorem runCalls_ledger (calls : List (Call α)) {s t : Filter α × Heap} (h : SamePointers s t) :
    Returning (runCalls sys object calls s) (fun r => SamePointers r (runLedger sys calls t)) := by
  induction calls generalizing s t with
  | nil => exact Returning.ok h
  | cons call calls ih =>
    refine (call.run_ledger sys object s).bind ?_
    intro r hr
    obtain ⟨hp,hh⟩ := call.ledger_congr sys h
    exact ih ⟨hr.1.trans hp,hr.2.trans hh⟩

/-- The destructors of the program release what the ledger says, in the heap of the ledger. -/
theorem Lifecycle.run_releases (l : Lifecycle α) (h : Heap) (memory : Filter α) :
    Returning (runCalls sys l.object l.calls (allocateDataFilter sys h memory)) (fun r =>
      l.object.destructor r.1 = l.releases sys h memory false ∧
      r.2 = (l.final sys h memory).2) := by
  refine (runCalls_ledger sys l.object l.calls ⟨rfl,rfl⟩).mono ?_
  intro r hr
  obtain ⟨hpointers,hheap⟩ := hr
  simp only [Filter.pointers,DataFilter.pointers,List.cons.injEq] at hpointers
  refine ⟨?_,hheap⟩
  simp only [Lifecycle.releases,FilterClass.destructor_eq,Lifecycle.final,hpointers]
  rfl

end Runs
end DspLibrary
