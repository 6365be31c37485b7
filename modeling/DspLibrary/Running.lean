import DspLibrary.FilterSemantics

/-! The representation invariant of a running filter, from its construction through streams of
any length. `start` builds a filter as `main` and `Thread1` do: `newDataFilter` on an existing
object, then `setInitialDataFilter`. -/
namespace DspLibrary
open Foundation
variable {α : Type*}

lemma argument_congr {n : ℕ} {f g : ℕ → α} (h : ∀ j < n, f j = g j) :
    argument n f = argument n g := by
  unfold argument Block.ofSeq
  congr 2
  funext j
  rw [h j.val j.isLt]

/-- Every history and every input sequence are parts of one two-sided signal. -/
lemma exists_signal (past : ℤ → α) (inputs : List α) :
    ∃ x : ℤ → α, (∀ t < 0, x t = past t) ∧ samples x 0 inputs.length = inputs := by
  have hlist : ∀ (past : ℤ → α) (t : ℤ), ∃ x : ℤ → α, (∀ u < t, x u = past u) ∧
      samples x t inputs.length = inputs := by
    induction inputs with
    | nil => intro past t; exact ⟨past,fun _ _ => rfl,rfl⟩
    | cons i is ih =>
      intro past t
      obtain ⟨x,hx,hs⟩ := ih (Function.update past t i) (t+1)
      refine ⟨x,?_,?_⟩
      · intro u hu
        rw [hx u (by omega),Function.update_of_ne (by omega)]
      · simp only [List.length_cons,samples,hs]
        rw [hx t (by omega),Function.update_self]
  exact hlist past 0

/-- The past of a signal whose last `N` samples are given as an array, oldest first. -/
def ofHistory (N : ℕ) (past : ℕ → α) : ℤ → α := fun t => past (t+N).toNat

lemma history_of_agree {N : ℕ} {past : ℕ → α} {y : ℤ → α}
    (h : ∀ t < 0, y t = ofHistory N past t) : ∀ j < N, past j = history N y j := by
  intro j hj
  simp only [history]
  rw [h _ (by omega),ofHistory]
  congr 1
  omega

namespace FIR

/-- A new FIR filter with `newDataFilter(N, x, b)`. -/
def start (sys : Supply) (h : Heap) (d : DataFilter α) (N : ℕ) (x b : ℕ → α) :
    Checked (Filter α) := do
  let (d,h) ← DataFilter.newDataFilterFIR sys h d N (argument N x) (argument (N+1) b)
  return (Filter.setInitialDataFilter sys h d).1

structure Running (N : ℕ) (b : ℕ → α) (x : ℤ → α) (n : ℤ) (f : Filter α) : Prop where
  position_nonneg : 0 ≤ f.contBuffer
  position_le : f.contBuffer ≤ bufferSize
  room : N+bufferSize ≤ f.initialDataFilter.arrayInputsX.size
  tracks : TracksX N b x n f.contBuffer f.initialDataFilter

lemma running_of_ready (sys : Allocator) (h : Heap) {d : DataFilter α} {N room : ℕ} {b : ℕ → α}
    {x : ℤ → α} (hready : DataFilter.ReadyX N b x room d) (hroom : N+bufferSize ≤ room) :
    Running N b x 0 (Filter.setInitialDataFilter sys h d).1 := by
  have hsize : d.arrayInputsX.size = room := hready.allocated.2
  exact ⟨le_rfl,by simp [Filter.setInitialDataFilter],
    by simpa only [Filter.setInitialDataFilter,hsize] using hroom,hready.tracks⟩

theorem start_yields (sys : Allocator) (h : Heap) (d : DataFilter α) (N : ℕ) (b : ℕ → α)
    {xPast : ℕ → α} {x : ℤ → α} (hx : ∀ j < N, xPast j = history N x j)
    (hroom : N+bufferSize ≤ sys.room (d.filterOrder+bufferSize)) :
    Yields (start sys h d N xPast b) (Running N b x 0) := by
  unfold start
  rw [argument_congr hx]
  refine (DataFilter.newDataFilterFIR_yields sys h d N b x (DataFilter.grantsCoefficients sys N)
    (by omega)).bind ?_
  intro r hready
  exact Yields.ret (running_of_ready sys r.2 hready hroom)

variable [Zero α] [Add α] [Mul α]

theorem Running.step {N : ℕ} {b : ℕ → α} {x : ℤ → α} {n : ℤ} {f : Filter α}
    (h : Running N b x n f) :
    Yields (directForm f (x n)) (fun r => r.1 = convolve N b x n ∧ Running N b x (n+1) r.2) := by
  have hlt := nextPosition_lt h.position_le
  have hnonneg := nextPosition_nonneg h.position_nonneg
  have hroom := h.room
  refine (directForm_yields h.tracks h.position_nonneg (by omega)).mono ?_
  rintro ⟨o,f'⟩ ⟨ho,hadv,htracks⟩
  have hpos := hadv.position
  have hsize := hadv.regionX.size
  exact ⟨ho,by omega,by omega,by omega,htracks⟩

end FIR

namespace IIR

/-- A new IIR filter with `newDataFilter(N, x, b, y, a)`. -/
def startFormI (sys : Supply) (h : Heap) (d : DataFilter α) (N : ℕ) (x b y a : ℕ → α) :
    Checked (Filter α) := do
  let (d,h) ← DataFilter.newDataFilterIIRFormI sys h d N (argument N x) (argument (N+1) b)
    (argument N y) (argument (N+1) a)
  return (Filter.setInitialDataFilter sys h d).1

/-- The windows of both history arrays; `y` is the output signal for direct form I and the
auxiliary signal for direct form II. -/
structure Running (N : ℕ) (b a : ℕ → α) (x y : ℤ → α) (n : ℤ) (f : Filter α) : Prop extends
    FIR.Running N b x n f where
  roomY : N+bufferSize ≤ f.initialDataFilter.arrayInputsY.size
  tracksY : TracksY N a y n f.contBuffer f.initialDataFilter

lemma running_of_ready (sys : Allocator) (h : Heap) {d : DataFilter α} {N room : ℕ}
    {b a : ℕ → α} {x y : ℤ → α} (hready : DataFilter.ReadyX N b x room d)
    (hreadyY : DataFilter.ReadyY N a y room d) (hroom : N+bufferSize ≤ room) :
    Running N b a x y 0 (Filter.setInitialDataFilter sys h d).1 := by
  have hsize : d.arrayInputsY.size = room := hreadyY.allocated.2
  exact ⟨FIR.running_of_ready sys h hready hroom,
    by simpa only [Filter.setInitialDataFilter,hsize] using hroom,hreadyY.tracks⟩

theorem startFormI_yields (sys : Allocator) (h : Heap) (d : DataFilter α) (N : ℕ) (b a : ℕ → α)
    {xPast yPast : ℕ → α} {x y : ℤ → α} (hx : ∀ j < N, xPast j = history N x j)
    (hy : ∀ j < N, yPast j = history N y j)
    (hroom : N+bufferSize ≤ sys.room (d.filterOrder+bufferSize)) :
    Yields (startFormI sys h d N xPast b yPast a) (Running N b a x y 0) := by
  unfold startFormI
  rw [argument_congr hx,argument_congr hy]
  refine (DataFilter.newDataFilterIIRFormI_yields sys h d N b a x y
    (DataFilter.grantsCoefficients sys N) (by omega)).bind ?_
  intro r hr
  exact Yields.ret (running_of_ready sys r.2 hr.1 hr.2 hroom)

variable [Zero α] [Add α] [Sub α] [Mul α]

/-- A new IIR filter with `newDataFilter(N, x, b, a)`. -/
def startFormII (sys : Supply) (h : Heap) (d : DataFilter α) (N : ℕ) (x b a : ℕ → α) :
    Checked (Filter α) := do
  let (d,h) ← DataFilter.newDataFilterIIRFormII sys h d N (argument N x) (argument (N+1) b)
    (argument (N+1) a)
  return (Filter.setInitialDataFilter sys h d).1

lemma startFormII_position {sys : Allocator} {h : Heap} {d : DataFilter α} {N : ℕ}
    {x b a : ℕ → α} {f : Filter α} (hf : startFormII sys h d N x b a = .ok f) :
    f.contBuffer = 0 := by
  obtain ⟨r,-,hr⟩ := exists_of_bind_eq_ok hf
  cases hr
  rfl

theorem startFormII_yields (sys : Allocator) (h : Heap) (d : DataFilter α) (N : ℕ)
    (b a : ℕ → α) {xPast : ℕ → α} {x v : ℤ → α} (hx : ∀ j < N, xPast j = history N x j)
    (hN : 1 ≤ N) (haux : IsAuxiliary N a x v)
    (hroom : N+bufferSize ≤ sys.room (d.filterOrder+bufferSize)) :
    Yields (startFormII sys h d N xPast b a) (Running N b a x v 0) := by
  unfold startFormII
  rw [argument_congr hx]
  refine (DataFilter.newDataFilterIIRFormII_yields sys h d N b a x v hN haux
    (DataFilter.grantsCoefficients sys N) (by omega)).bind ?_
  intro r hr
  exact Yields.ret (running_of_ready sys r.2 hr.1 hr.2 hroom)

section Step
variable {N : ℕ} {b a : ℕ → α} {x y : ℤ → α} {n : ℤ} {f : Filter α}

omit [Zero α] [Add α] [Sub α] [Mul α] in
lemma Running.advance {f' : Filter α} (h : Running N b a x y n f) (hadv : Advanced f f')
    (hX : TracksX N b x (n+1) f'.contBuffer f'.initialDataFilter)
    (hY : TracksY N a y (n+1) f'.contBuffer f'.initialDataFilter) :
    Running N b a x y (n+1) f' := by
  have hlt := nextPosition_lt h.position_le
  have hnonneg := nextPosition_nonneg h.position_nonneg
  have hroom := h.room
  have hroomY := h.roomY
  have hpos := hadv.position
  have hsize := hadv.regionX.size
  have hsizeY := hadv.regionY.size
  exact ⟨⟨by omega,by omega,by omega,hX⟩,by omega,hY⟩

theorem Running.stepFormI (h : Running N b a x y n f)
    (hy : y n = convolve N b x n-feedback N a y n) :
    Yields (directFormI f (x n)) (fun r => r.1 = y n ∧ Running N b a x y (n+1) r.2) := by
  have hlt := nextPosition_lt h.position_le
  have hroom := h.room
  have hroomY := h.roomY
  refine (directFormI_yields h.tracks h.tracksY h.position_nonneg (by omega) (by omega) hy).mono ?_
  rintro ⟨o,f'⟩ ⟨ho,hadv,hX,hY⟩
  exact ⟨ho,h.advance hadv hX hY⟩

theorem Running.stepFormII (h : Running N b a x y n f) (hv : y n = x n-feedback N a y n) :
    Yields (directFormII f (x n))
      (fun r => r.1 = convolve N b y n ∧ Running N b a x y (n+1) r.2) := by
  have hlt := nextPosition_lt h.position_le
  have hroom := h.room
  have hroomY := h.roomY
  refine (directFormII_yields h.tracks h.tracksY h.position_nonneg (by omega) (by omega) hv).mono ?_
  rintro ⟨o,f'⟩ ⟨ho,hadv,hX,hY⟩
  exact ⟨ho,h.advance hadv hX hY⟩

/-- Direct form I on a whole stream. -/
theorem Running.feedFormI (h : Running N b a x y n f) (hn : 0 ≤ n)
    (hy : DifferenceEquation N b a x y) (L : ℕ) :
    Yields (feed directFormI f (samples x n L))
      (fun r => r.1 = samples y n L ∧ Running N b a x y (n+L) r.2) :=
  feed_yields (Running N b a x y) x y (fun t _ ht hr => hr.stepFormI (hy t ht)) hn h L

/-- Direct form II on a whole stream. -/
theorem Running.feedFormII (h : Running N b a x y n f) (hn : 0 ≤ n)
    (hv : ∀ t, 0 ≤ t → y t = x t-feedback N a y t) (L : ℕ) :
    Yields (feed directFormII f (samples x n L))
      (fun r => r.1 = samples (convolve N b y) n L ∧ Running N b a x y (n+L) r.2) :=
  feed_yields (Running N b a x y) x (convolve N b y)
    (fun t _ ht hr => hr.stepFormII (hv t ht)) hn h L

end Step
end IIR

/-- The two processing functions of each class. -/
inductive DirectForm
  | formI
  | formII
  deriving DecidableEq, Repr

namespace FIR
variable [Zero α] [Add α] [Mul α]

/-- A sample through the chosen function of the class. -/
def sample (f : Filter α) (s : DirectForm × α) : Checked (α × Filter α) :=
  match s.1 with
  | .formI => directFormI f s.2
  | .formII => directFormII f s.2

lemma sample_eq (f : Filter α) (s : DirectForm × α) : sample f s = directForm f s.2 := by
  rcases s with ⟨form,v⟩
  cases form <;> rfl

/-- An FIR filter on a whole stream, each sample through either function. -/
theorem Running.feed {N : ℕ} {b : ℕ → α} {x : ℤ → α} {n : ℤ} {f : Filter α}
    (h : Running N b x n f) (hn : 0 ≤ n) (form : ℤ → DirectForm) (L : ℕ) :
    Yields (Foundation.feed sample f (samples (fun t => (form t,x t)) n L))
      (fun r => r.1 = samples (convolve N b x) n L ∧ Running N b x (n+L) r.2) := by
  refine feed_yields (Running N b x) (fun t => (form t,x t)) (convolve N b x) ?_ hn h L
  intro t f' _ hr
  rw [sample_eq]
  exact hr.step

theorem Running.feedFormI {N : ℕ} {b : ℕ → α} {x : ℤ → α} {n : ℤ} {f : Filter α}
    (h : Running N b x n f) (hn : 0 ≤ n) (L : ℕ) :
    Yields (Foundation.feed directFormI f (samples x n L))
      (fun r => r.1 = samples (convolve N b x) n L ∧ Running N b x (n+L) r.2) :=
  feed_yields (Running N b x) x (convolve N b x) (fun _ _ _ hr => hr.step) hn h L

end FIR

section Responses
variable [Zero α] [Add α] [Sub α] [Mul α] (sys : Allocator) (h : Heap) (d : DataFilter α)
  {N : ℕ} {b a : ℕ → α} {xPast yPast : ℕ → α} {x y : ℤ → α} (hx : ∀ j < N, xPast j = history N x j)
  (hroom : N+bufferSize ≤ sys.room (d.filterOrder+bufferSize)) (L : ℕ)
include hx hroom

omit [Sub α] in
/-- The outputs of a new filter, for each of the three structures. -/
theorem FIR.response_yields :
    Yields (start sys h d N xPast b >>= fun f => Foundation.feed directFormI f (samples x 0 L))
      (fun r => r.1 = samples (convolve N b x) 0 L) := by
  refine (start_yields sys h d N b hx hroom).bind ?_
  intro f hf
  exact (hf.feedFormI le_rfl L).mono (fun _ hr => hr.1)

theorem IIR.responseFormI_yields (hpast : ∀ j < N, yPast j = history N y j)
    (hy : DifferenceEquation N b a x y) :
    Yields (startFormI sys h d N xPast b yPast a >>= fun f =>
        Foundation.feed directFormI f (samples x 0 L))
      (fun r => r.1 = samples y 0 L) := by
  refine (startFormI_yields sys h d N b a hx hpast hroom).bind ?_
  intro f hf
  exact (hf.feedFormI le_rfl hy L).mono (fun _ hr => hr.1)

theorem IIR.responseFormII_yields (hN : 1 ≤ N) (haux : IsAuxiliary N a x y) :
    Yields (startFormII sys h d N xPast b a >>= fun f =>
        Foundation.feed directFormII f (samples x 0 L))
      (fun r => r.1 = samples (convolve N b y) 0 L) := by
  refine (startFormII_yields sys h d N b a hx hN haux hroom).bind ?_
  intro f hf
  exact (hf.feedFormII le_rfl (fun t ht => haux.step_full hN ht) L).mono (fun _ hr => hr.1)

end Responses
end DspLibrary
