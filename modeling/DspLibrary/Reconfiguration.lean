import DspLibrary.Capacity
import DspLibrary.Response

/-! Chains of configurations of one `DataFilter`: each `newDataFilter` call is followed by
`setInitialDataFilter` and by samples. The history arrays of a call are requested with the order
that the object held before the call, so whether a chain stays inside them depends on two orders
and on the number of samples; the exact condition is proved for every chain. -/
namespace DspLibrary
open Foundation
variable {α : Type*}

/-- The overloads of `newDataFilter`, with three, five and four arguments. -/
inductive Overload
  | fir
  | iirFormI
  | iirFormII
  deriving DecidableEq, Repr

/-- The class of the object that processes the samples. -/
inductive FilterClass
  | fir
  | iir
  deriving DecidableEq, Repr

namespace Overload
variable [Zero α] [Add α] [Sub α] [Mul α]

/-- The call with the arguments it takes; the others are ignored. -/
def newDataFilter (overload : Overload) (sys : Supply) (h : Heap) (d : DataFilter α)
    (pFilterOrder : ℤ) (pArrayInputsX pArrayCoefficientsB pArrayInputsY pArrayCoefficientsA :
      FloatBlock α) : Checked (DataFilter α × Heap) :=
  match overload with
  | .fir => DataFilter.newDataFilterFIR sys h d pFilterOrder pArrayInputsX pArrayCoefficientsB
  | .iirFormI => DataFilter.newDataFilterIIRFormI sys h d pFilterOrder pArrayInputsX pArrayCoefficientsB
      pArrayInputsY pArrayCoefficientsA
  | .iirFormII => DataFilter.newDataFilterIIRFormII sys h d pFilterOrder pArrayInputsX pArrayCoefficientsB
      pArrayCoefficientsA

theorem newDataFilter_yields (overload : Overload) (sys : Supply) (h : Heap)
    (d : DataFilter α) {N : ℕ} (hN : 1 ≤ N) (x b y a : ℕ → α)
    (hgrants : DataFilter.GrantsCoefficients sys N)
    (hroom : N ≤ sys.room (d.filterOrder+bufferSize)) :
    Yields (overload.newDataFilter sys h d N (argument N x) (argument (N+1) b) (argument N y)
        (argument (N+1) a)) (fun r =>
      (∃ b x, DataFilter.ReadyX N b x (sys.room (d.filterOrder+bufferSize)) r.1) ∧
      (overload ≠ .fir →
        ∃ a y, DataFilter.ReadyY N a y (sys.room (d.filterOrder+bufferSize)) r.1)) := by
  have hx : ∀ j < N, x j = history N (ofHistory N x) j := history_of_agree (fun _ _ => rfl)
  have hy : ∀ j < N, y j = history N (ofHistory N y) j := history_of_agree (fun _ _ => rfl)
  cases overload with
  | fir =>
    simp only [newDataFilter,argument_congr hx]
    refine (DataFilter.newDataFilterFIR_yields sys h d N b _ hgrants hroom).mono ?_
    intro r hr
    exact ⟨⟨_,_,hr⟩,fun hne => absurd rfl hne⟩
  | iirFormI =>
    simp only [newDataFilter,argument_congr hx,argument_congr hy]
    refine (DataFilter.newDataFilterIIRFormI_yields sys h d N b a _ _ hgrants hroom).mono ?_
    intro r hr
    exact ⟨⟨_,_,hr.1⟩,fun _ => ⟨_,_,hr.2⟩⟩
  | iirFormII =>
    obtain ⟨v,-,haux⟩ := exists_isAuxiliary N a (ofHistory N x) (ofHistory N x)
    simp only [newDataFilter,argument_congr hx]
    refine (DataFilter.newDataFilterIIRFormII_yields sys h d N b a _ v hN haux hgrants hroom).mono ?_
    intro r hr
    exact ⟨⟨_,_,hr.1⟩,fun _ => ⟨_,_,hr.2⟩⟩

/-- All overloads copy the input history first, so this copy is the one that fails. -/
theorem newDataFilter_overrun (overload : Overload) (sys : Supply) (h : Heap)
    (d : DataFilter α) {N : ℕ} (x b y a : ℕ → α)
    (hroom : sys.room (d.filterOrder+bufferSize) < N) :
    overload.newDataFilter sys h d N (argument N x) (argument (N+1) b) (argument N y)
        (argument (N+1) a) =
      .error (.outOfBounds .inputsX (sys.room (d.filterOrder+bufferSize))) := by
  have hcopy : ∀ addr, DataFilter.copyLoop N 0
      (Block.raw .inputsX addr (sys.room (d.filterOrder+bufferSize))) (argument N x) =
      .error (.outOfBounds .inputsX (sys.room (d.filterOrder+bufferSize))) := by
    intro addr
    rw [DataFilter.copyLoop_overrun (DataFilter.stores_argument N x) (by simpa using hroom)]
    simp [Block.raw,Block.size]
  cases overload with
  | fir =>
    simp only [newDataFilter,DataFilter.newDataFilterFIR,DataFilter.allocateFIR,
      Supply.allocBlock,DataFilter.setFilterOrder,DataFilter.setArrayInitialConditionsX,hcopy,
      error_bind]
  | iirFormI =>
    simp only [newDataFilter,DataFilter.newDataFilterIIRFormI,DataFilter.allocateIIR,
      Supply.allocBlock,DataFilter.setFilterOrder,DataFilter.setArrayInitialConditionsX,hcopy,
      error_bind]
  | iirFormII =>
    simp only [newDataFilter,DataFilter.newDataFilterIIRFormII,DataFilter.allocateIIR,
      Supply.allocBlock,DataFilter.setFilterOrder,DataFilter.setArrayInitialConditionsX,hcopy,
      error_bind]

/-- The overload for FIR filters leaves the pointer to the outputs alone. -/
lemma newDataFilter_fir_arrayInputsY {sys : Supply} {h : Heap} {d : DataFilter α} {order : ℤ}
    {x b y a : FloatBlock α} {r : DataFilter α × Heap}
    (hr : Overload.fir.newDataFilter sys h d order x b y a = .ok r) :
    r.1.arrayInputsY = d.arrayInputsY := by
  obtain ⟨dx,hx,hr⟩ := exists_of_bind_eq_ok hr
  obtain ⟨db,hb,hr⟩ := exists_of_bind_eq_ok hr
  obtain ⟨qx,-,hx⟩ := exists_of_bind_eq_ok hx
  obtain ⟨qb,-,hb⟩ := exists_of_bind_eq_ok hb
  cases hr
  cases hb
  cases hx
  rfl

end Overload

namespace FilterClass
variable [Zero α] [Add α] [Sub α] [Mul α]

def sample : FilterClass → Filter α → DirectForm × α → Checked (α × Filter α)
  | .fir => FIR.sample
  | .iir => IIR.sample

omit [Zero α] [Add α] [Sub α] [Mul α] in
/-- The state that the samples of the class rely on. -/
def Live : FilterClass → ℕ → ℕ → Filter α → Prop
  | .fir => FIR.Live
  | .iir => IIR.Live

omit [Zero α] [Add α] [Sub α] [Mul α] in
lemma Live.base {object : FilterClass} {N room : ℕ} {f : Filter α}
    (h : object.Live N room f) : FIR.Live N room f := by
  cases object with
  | fir => exact h
  | iir => exact h.toLive

omit [Zero α] [Add α] [Sub α] [Mul α] in
/-- What an overload leaves behind, attached to a filter of a matching class. -/
lemma live_of_ready (sys : Supply) (h : Heap) (object : FilterClass) {overload : Overload}
    (matched : object = .iir → overload ≠ .fir) {N room : ℕ} {d : DataFilter α}
    (hready : (∃ b x, DataFilter.ReadyX N b x room d) ∧
      (overload ≠ .fir → ∃ a y, DataFilter.ReadyY N a y room d)) :
    object.Live N room (Filter.setInitialDataFilter sys h d).1 := by
  obtain ⟨⟨b,x,hX⟩,hY⟩ := hready
  have hbase : FIR.Live N room (Filter.setInitialDataFilter sys h d).1 :=
    ⟨le_rfl,by simp [Filter.setInitialDataFilter],hX.allocated,b,x,hX.tracks⟩
  cases object with
  | fir => exact hbase
  | iir =>
    obtain ⟨a,y,hready⟩ := hY (matched rfl)
    exact ⟨hbase,hready.allocated,a,y,hready.tracks⟩

lemma Live.step {object : FilterClass} {N room : ℕ} {f : Filter α} (h : object.Live N room f)
    (s : DirectForm × α) (hfit : N+nextPosition f.contBuffer < room) :
    Yields (object.sample f s) (fun r => object.Live N room r.2 ∧
      r.2.contBuffer = nextPosition f.contBuffer+1) := by
  cases object with
  | fir => exact FIR.Live.step h s hfit
  | iir => exact IIR.Live.step h s hfit

lemma sample_overrun {object : FilterClass} {N room : ℕ} {f : Filter α}
    (h : FIR.Live N room f) (s : DirectForm × α) (hlt : f.contBuffer < bufferSize)
    (hroom : room ≤ N+f.contBuffer) :
    object.sample f s = .error (.outOfBounds .inputsX (N+f.contBuffer)) := by
  cases object with
  | fir => exact FIR.Live.overrun h s hlt hroom
  | iir => exact IIR.sample_overrun h s hlt hroom

end FilterClass

/-- A filter that was built without a fault has written windows in its arrays. -/
lemma IIR.live_of_startFormII [Zero α] [Add α] [Sub α] [Mul α] {sys : Allocator} {h : Heap}
    {d : DataFilter α} {N : ℕ} (hN : 1 ≤ N)
    {x b a : ℕ → α} {f : Filter α} (hf : startFormII sys h d N x b a = .ok f) :
    Live N (sys.room (d.filterOrder+bufferSize)) f ∧
      N+f.contBuffer ≤ sys.room (d.filterOrder+bufferSize) := by
  have hposition := startFormII_position hf
  unfold startFormII at hf
  by_cases hroom : N ≤ sys.room (d.filterOrder+bufferSize)
  · obtain ⟨r,hr,hready⟩ := Overload.iirFormII.newDataFilter_yields sys h d hN x b x a
      (DataFilter.grantsCoefficients sys N) hroom
    simp only [Overload.newDataFilter] at hr
    simp only [hr,ok_bind,pure_eq_ok] at hf
    cases hf
    refine ⟨FilterClass.live_of_ready sys r.2 .iir (by simp) hready,?_⟩
    omega
  · have hstop := Overload.iirFormII.newDataFilter_overrun sys h d x b x a (N := N) (by omega)
    simp only [Overload.newDataFilter] at hstop
    simp [hstop] at hf

/-- The number of floats in the `sizeof(float)*n` bytes of a request, where `size_t` has 32 bits. -/
def floatsRequested (n : ℤ) : ℕ := (4*n%2^32).toNat/4

lemma floatsRequested_of_lt {n : ℕ} (h : 4*n < 2^32) : floatsRequested n = n := by
  unfold floatsRequested
  omega

/-- An allocator that refuses nothing and hands out exactly the floats that are requested. -/
structure ExactAllocator extends Supply where
  exact_room : ∀ n, room n = floatsRequested n

instance : Coe ExactAllocator Supply := ⟨ExactAllocator.toSupply⟩

def ExactAllocator.bump : ExactAllocator := ⟨.inOrder floatsRequested,fun _ => rfl⟩

/-- One configuration of the object and the samples that follow it. The caller passes an array of
`order+1` floats, and no object has `2^32` bytes. -/
structure Stage (α : Type*) where
  overload : Overload
  object : FilterClass
  order : ℕ
  order_pos : 1 ≤ order
  addressable : 4*(order+1) < 2^32
  x : ℕ → α
  b : ℕ → α
  y : ℕ → α
  a : ℕ → α
  inputs : List (DirectForm × α)

namespace Stage

/-- The samples use no array that the call does not request: an IIR object uses the second history
array, which only the overloads for IIR filters request. -/
def UsesRequested (s : Stage α) : Prop :=
  s.object = .iir → s.overload = .fir → s.inputs = []

/-- The room that a stage needs is there, when the object holds the order `held` before the call. -/
structure Fits (held : ℤ) (s : Stage α) : Prop where
  room : s.order+min s.inputs.length bufferSize ≤ floatsRequested (held+bufferSize)
  requested : s.UsesRequested

end Stage

/-- Every stage fits, each after the one before. -/
def StagesFit : ℤ → List (Stage α) → Prop
  | _,[] => True
  | held,s::stages => s.Fits held ∧ StagesFit s.order stages

/-- No index used on the history arrays is outside the array. -/
def InBounds (c : Checked (DataFilter α × Heap)) : Prop :=
  ∀ i, c ≠ .error (.outOfBounds .inputsX i) ∧ c ≠ .error (.outOfBounds .inputsY i)

/-- Only what the next call requests will count as a history array of the object. -/
def DataFilter.retire (d : DataFilter α) : DataFilter α :=
  { d with arrayInputsX := .raw .inputsX d.arrayInputsX.addr 0
           arrayInputsY := .raw .inputsY d.arrayInputsY.addr 0 }

section Stages
variable [Zero α] [Add α] [Sub α] [Mul α]

namespace Stage

def newDataFilter (sys : Supply) (h : Heap) (d : DataFilter α) (s : Stage α) :
    Checked (DataFilter α × Heap) :=
  s.overload.newDataFilter sys h d.retire s.order (argument s.order s.x) (argument (s.order+1) s.b)
    (argument s.order s.y) (argument (s.order+1) s.a)

def run (sys : Supply) (h : Heap) (d : DataFilter α) (s : Stage α) :
    Checked (DataFilter α × Heap) := do
  let (d,h) ← s.newDataFilter sys h d
  let (f,h) := Filter.setInitialDataFilter sys h d
  let (_,f) ← feed s.object.sample f s.inputs
  return (f.initialDataFilter,h)

end Stage

def runStages (sys : Supply) (h : Heap) (d : DataFilter α) :
    List (Stage α) → Checked (DataFilter α × Heap)
  | [] => return (d,h)
  | s::stages => do
    let (d,h) ← s.run sys h d
    runStages sys h d stages

namespace Stage
variable (sys : ExactAllocator) (h : Heap) (d : DataFilter α) (s : Stage α)

omit [Zero α] [Add α] [Sub α] [Mul α] in
lemma grants : DataFilter.GrantsCoefficients sys s.order := by
  have haddr := s.addressable
  constructor
  · rw [sys.exact_room]
    exact (floatsRequested_of_lt haddr).ge
  · rw [sys.exact_room,floatsRequested_of_lt (by omega)]

/-- After the call and `setInitialDataFilter` the filter can take samples, unless it needs the array
that was not requested. -/
lemma configured (hroom : s.order ≤ floatsRequested (d.filterOrder+bufferSize)) :
    Yields (s.newDataFilter sys h d) (fun r =>
      FIR.Live s.order (floatsRequested (d.filterOrder+bufferSize))
        (Filter.setInitialDataFilter sys r.2 r.1).1 ∧
      ((s.object = .iir → s.overload ≠ .fir) →
        s.object.Live s.order (floatsRequested (d.filterOrder+bufferSize))
          (Filter.setInitialDataFilter sys r.2 r.1).1) ∧
      (s.overload = .fir → r.1.arrayInputsY = .raw .inputsY d.arrayInputsY.addr 0)) := by
  rw [← sys.exact_room] at hroom ⊢
  obtain ⟨r,hr,hready⟩ := s.overload.newDataFilter_yields sys h d.retire s.order_pos s.x s.b s.y s.a
    (s.grants sys) hroom
  refine ⟨r,hr,FilterClass.live_of_ready sys r.2 .fir (by simp) hready,
    fun hmatched => FilterClass.live_of_ready sys r.2 s.object hmatched hready,fun hfir => ?_⟩
  rw [hfir] at hr
  exact Overload.newDataFilter_fir_arrayInputsY hr

theorem run_of_fits (hfits : s.Fits d.filterOrder) :
    Yields (s.run sys h d) (fun r => r.1.filterOrder = s.order) := by
  have hroom := hfits.room
  refine (s.configured sys h d (by omega)).bind ?_
  rintro r ⟨hbase,hlive,-⟩
  have hstream : Yields (feed s.object.sample (Filter.setInitialDataFilter sys r.2 r.1).1 s.inputs)
      (fun q => FIR.Live s.order (floatsRequested (d.filterOrder+bufferSize)) q.2) := by
    by_cases hmissing : s.object = .iir ∧ s.overload = .fir
    · rw [hfits.requested hmissing.1 hmissing.2]
      exact Yields.ok hbase
    · refine (feed_fits (fun _ input hf hfit => FilterClass.Live.step hf input hfit)
        (fun _ hf => ⟨hf.base.position_nonneg,hf.base.position_le⟩) s.inputs
        (hlive (not_and.mp hmissing)) (by
          simp only [Filter.setInitialDataFilter]
          omega)).mono fun q hq => hq.base
  refine hstream.bind ?_
  intro q hq
  obtain ⟨b,x,htracks⟩ := hq.tracks
  exact Yields.ret htracks.order

theorem run_of_not_fits (hfits : ¬ s.Fits d.filterOrder) : ∃ i,
    s.run sys h d = .error (.outOfBounds .inputsX i) ∨
      s.run sys h d = .error (.outOfBounds .inputsY i) := by
  by_cases hroom : s.order ≤ floatsRequested (d.filterOrder+bufferSize)
  · obtain ⟨r,hr,hbase,hlive,hY⟩ := s.configured sys h d hroom
    by_cases hmissing : s.object = .iir ∧ s.overload = .fir
    · -- the first sample goes wrong, in the array of the inputs or in the one not requested
      obtain ⟨hiir,hfir⟩ := hmissing
      have hpos := bufferSize_pos
      cases hinputs : s.inputs with
      | nil => exact absurd ⟨by simpa [hinputs] using hroom,fun _ _ => hinputs⟩ hfits
      | cons input inputs =>
        have hrun : ∀ e, IIR.sample (Filter.setInitialDataFilter sys r.2 r.1).1 input = .error e →
            s.run sys h d = .error e := by
          intro e he
          simp only [run,hr,ok_bind,hiir,hinputs,FilterClass.sample,feed,he,error_bind]
        by_cases hlast : floatsRequested (d.filterOrder+bufferSize) ≤ s.order
        · exact ⟨_,.inl (hrun _ (IIR.sample_overrun hbase input
            (by simpa [Filter.setInitialDataFilter])
            (by simpa [Filter.setInitialDataFilter] using hlast)))⟩
        · exact ⟨_,.inr (hrun _ (IIR.sample_unrequested hbase input s.order_pos
            (by simpa [Filter.setInitialDataFilter])
            (by simp only [Filter.setInitialDataFilter]; omega) (hY hfir)))⟩
    · -- the array of the inputs is too short
      have hshort : ¬ s.order+min s.inputs.length bufferSize ≤
          floatsRequested (d.filterOrder+bufferSize) :=
        fun hle => hfits ⟨hle,fun hiir hfir => absurd ⟨hiir,hfir⟩ hmissing⟩
      obtain ⟨i,hi⟩ := feed_overruns (fun _ input hf hfit => FilterClass.Live.step hf input hfit)
        (fun _ input hf hlt hle => FilterClass.sample_overrun hf.base input hlt hle) s.inputs
        (hlive (not_and.mp hmissing)) (by simp only [Filter.setInitialDataFilter]; omega)
        (by simp only [Filter.setInitialDataFilter]; omega)
      exact ⟨i,.inl (by simp only [run,hr,ok_bind,hi,error_bind])⟩
  · refine ⟨floatsRequested (d.filterOrder+bufferSize),.inl ?_⟩
    have hstop := s.overload.newDataFilter_overrun sys h d.retire s.x s.b s.y s.a (N := s.order)
      (by rw [sys.exact_room]; simp only [DataFilter.retire]; omega)
    rw [run,newDataFilter,hstop,sys.exact_room]
    rfl

end Stage

/-- A chain of configurations stays inside its history arrays exactly when every configuration
fits the room requested with the order of the one before, and uses only what it has requested. -/
theorem runStages_inBounds_iff (sys : ExactAllocator) (h : Heap) (d : DataFilter α)
    (stages : List (Stage α)) :
    InBounds (runStages sys h d stages) ↔ StagesFit d.filterOrder stages := by
  induction stages generalizing h d with
  | nil =>
    constructor
    · intro _
      trivial
    · intro _ i
      simp [runStages,pure_eq_ok]
  | cons s stages ih =>
    by_cases hfits : s.Fits d.filterOrder
    · obtain ⟨r,hr,horder⟩ := s.run_of_fits sys h d hfits
      have hrest := ih r.2 r.1
      rw [horder] at hrest
      simp only [runStages,hr,ok_bind,StagesFit,hfits,true_and]
      exact hrest
    · constructor
      · intro hin
        obtain ⟨i,hi | hi⟩ := s.run_of_not_fits sys h d hfits
        · exact absurd (by simp only [runStages,hi,error_bind]) (hin i).1
        · exact absurd (by simp only [runStages,hi,error_bind]) (hin i).2
      · intro hfit
        exact absurd hfit.1 hfits

end Stages

/-- A filter of the order that `main` uses, in direct form I, with as many samples as in
`Thread1`. -/
def Stage.ofMain : Stage ℤ where
  overload := .iirFormI
  object := .iir
  order := 3
  order_pos := by decide
  addressable := by decide
  x _ := 0
  b k := k+1
  y _ := 0
  a k := k-1
  inputs := (List.range 50).map fun i => (.formI,(i : ℤ))

/-- With a block whose raw contents hold 0 in place of the order, the eighth sample is written
behind the array. -/
theorem runStages_outOfBounds_ofMain :
    ¬ InBounds (runStages ExactAllocator.bump ⟨∅,0⟩ (DataFilter.blank ℤ 0) [Stage.ofMain]) := by
  intro hin
  exact (hin 10).1 (by decide)

end DspLibrary
