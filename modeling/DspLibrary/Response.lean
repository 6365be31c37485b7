import DspLibrary.Running

/-! The response of every filter of the library to every stream: functional correctness of the
three structures, and the contents of the history arrays at every moment of a run. The sample
type and its operations are arbitrary, so the equations hold for the roundings of `float` too.
A two-sided signal `x` stands for the history (before time 0) and for the inputs (from 0 on). -/
namespace DspLibrary
open Foundation
variable {α : Type*}

/-- An object in raw memory that happens to hold the given order. -/
def DataFilter.blank (α : Type*) (order : ℤ) : DataFilter α :=
  let empty : FloatBlock α := Block.raw .argument 0 0
  ⟨0,order,empty,empty,empty,empty,⟨0⟩⟩

/-- Memory that happens to hold the right order gives a filter of this order its room. -/
lemma DataFilter.room_blank (α : Type*) (N : ℕ) :
    N+bufferSize ≤ Allocator.bump.room ((DataFilter.blank α N).filterOrder+bufferSize) := by
  change N+bufferSize ≤ ((N : ℤ)+bufferSize).toNat
  omega

section FIR
variable [Zero α] [Add α] [Mul α]

/-- An FIR filter returns the convolution of its coefficients with the last `N+1` inputs, at
every sample, whichever of its two functions processes the sample. -/
theorem FIR.directForms_convolve (sys : Allocator) (h : Heap) (d : DataFilter α) (N : ℕ)
    (b : ℕ → α) (x : ℤ → α) (form : ℤ → DirectForm) (L : ℕ)
    (hroom : N+bufferSize ≤ sys.room (d.filterOrder+bufferSize)) :
    Yields (FIR.start sys h d N (history N x) b >>= fun f =>
        feed FIR.sample f (samples (fun t => (form t,x t)) 0 L))
      (fun r => r.1 = samples (convolve N b x) 0 L) := by
  refine (FIR.start_yields sys h d N b (fun _ _ => rfl) hroom).bind ?_
  intro f hf
  exact (hf.feed le_rfl form L).mono (fun _ hr => hr.1)

end FIR

theorem FIR.directForms_convolve_order_three :
    Yields (FIR.start Allocator.bump ⟨∅,0⟩ (DataFilter.blank ℤ 3) 3 (history 3 fun t => t)
        (fun k => (k : ℤ)+1) >>= fun f =>
        feed FIR.sample f (samples (fun t => (if t%2 = 0 then .formI else .formII,t)) 0 25))
      (fun r => r.1 = samples (convolve 3 (fun k => (k : ℤ)+1) fun t => t) 0 25) :=
  FIR.directForms_convolve Allocator.bump ⟨∅,0⟩ (DataFilter.blank ℤ 3) 3 (fun k => (k : ℤ)+1)
    (fun t => t) (fun t => if t%2 = 0 then .formI else .formII) 25 (by decide)

section IIR
variable [Zero α] [Add α] [Sub α] [Mul α]

/-- A filter in direct form I tracks the one solution of its difference equation that
continues the given outputs. -/
theorem IIR.exists_runningFormI (sys : Allocator) (h : Heap) (d : DataFilter α) (N : ℕ)
    (b a : ℕ → α) (x : ℤ → α) (yPast : ℕ → α)
    (hroom : N+bufferSize ≤ sys.room (d.filterOrder+bufferSize)) :
    ∃ y : ℤ → α, (∀ j < N, y (j-N) = yPast j) ∧ DifferenceEquation N b a x y ∧
      Yields (IIR.startFormI sys h d N (history N x) b yPast a) (IIR.Running N b a x y 0) := by
  obtain ⟨y,hpast,hy⟩ := exists_differenceEquation N b a x (ofHistory N yPast)
  have hhistory := history_of_agree hpast
  exact ⟨y,fun j hj => (hhistory j hj).symm,hy,
    IIR.startFormI_yields sys h d N b a (fun _ _ => rfl) hhistory hroom⟩

/-- Direct form I solves the filter's difference equation with the given past outputs. -/
theorem IIR.directFormI_solves_differenceEquation (sys : Allocator) (h : Heap)
    (d : DataFilter α) (N : ℕ) (b a : ℕ → α) (x : ℤ → α) (yPast : ℕ → α)
    (hroom : N+bufferSize ≤ sys.room (d.filterOrder+bufferSize)) :
    ∃ y : ℤ → α, (∀ j < N, y (j-N) = yPast j) ∧
      (∀ n, 0 ≤ n → y n = convolve N b x n-feedback N a y n) ∧
      ∀ L : ℕ, Yields (IIR.startFormI sys h d N (history N x) b yPast a >>= fun f =>
          feed IIR.directFormI f (samples x 0 L))
        (fun r => r.1 = samples y 0 L) := by
  obtain ⟨y,hhistory,hy,hstart⟩ := IIR.exists_runningFormI sys h d N b a x yPast hroom
  refine ⟨y,hhistory,hy,fun L => hstart.bind ?_⟩
  intro f hf
  exact (hf.feedFormI le_rfl hy L).mono (fun _ hr => hr.1)

/-- Direct form II applies the zeros to the auxiliary signal that starts from rest at the
oldest sample of the history. -/
theorem IIR.directFormII_follows_auxiliary (sys : Allocator) (h : Heap) (d : DataFilter α)
    (N : ℕ) (hN : 1 ≤ N) (b a : ℕ → α) (x : ℤ → α)
    (hroom : N+bufferSize ≤ sys.room (d.filterOrder+bufferSize)) :
    ∃ v : ℤ → α, v (-N) = x (-N) ∧
      (∀ m : ℤ, -N < m → v m = x m-feedback (min N (m+N).toNat) a v m) ∧
      ∀ L : ℕ, Yields (IIR.startFormII sys h d N (history N x) b a >>= fun f =>
          feed IIR.directFormII f (samples x 0 L))
        (fun r => r.1 = samples (convolve N b v) 0 L) := by
  obtain ⟨v,-,hv⟩ := exists_isAuxiliary N a x x
  refine ⟨v,hv.start,hv.step,fun L => ?_⟩
  exact IIR.responseFormII_yields sys h d (fun _ _ => rfl) hroom L hN hv

end IIR

theorem IIR.directFormI_solves_differenceEquation_order_three :
    ∃ y : ℤ → ℤ, (∀ j : ℕ, j < 3 → y (j-(3 : ℕ)) = 7-j) ∧
      (∀ n, 0 ≤ n → y n = convolve 3 (fun k => (k : ℤ)+1) (fun t => t) n-
        feedback 3 (fun k => (k : ℤ)-1) y n) ∧
      ∀ L : ℕ, Yields (IIR.startFormI Allocator.bump ⟨∅,0⟩ (DataFilter.blank ℤ 3) 3 (history 3 fun t => t)
          (fun k => (k : ℤ)+1) (fun j => 7-(j : ℤ)) (fun k => (k : ℤ)-1) >>= fun f =>
          feed IIR.directFormI f (samples (fun t => t) 0 L))
        (fun r => r.1 = samples y 0 L) :=
  IIR.directFormI_solves_differenceEquation Allocator.bump ⟨∅,0⟩ (DataFilter.blank ℤ 3) 3
    (fun k => (k : ℤ)+1) (fun k => (k : ℤ)-1) (fun t => t) (fun j => 7-(j : ℤ)) (by decide)

theorem IIR.directFormII_follows_auxiliary_order_twelve :
    ∃ v : ℤ → ℤ, v (-(12 : ℕ)) = -(12 : ℕ) ∧
      (∀ m : ℤ, -(12 : ℕ) < m →
        v m = m-feedback (min 12 (m+(12 : ℕ)).toNat) (fun k => (k : ℤ)-1) v m) ∧
      ∀ L : ℕ, Yields (IIR.startFormII Allocator.bump ⟨∅,0⟩ (DataFilter.blank ℤ 12) 12
          (history 12 fun t => t) (fun k => (k : ℤ)+1) (fun k => (k : ℤ)-1) >>= fun f =>
          feed IIR.directFormII f (samples (fun t => t) 0 L))
        (fun r => r.1 = samples (convolve 12 (fun k => (k : ℤ)+1) v) 0 L) :=
  IIR.directFormII_follows_auxiliary Allocator.bump ⟨∅,0⟩ (DataFilter.blank ℤ 12) 12 (by decide)
    (fun k => (k : ℤ)+1) (fun k => (k : ℤ)-1) (fun t => t) (by decide)

/-- The overloads of `newDataFilter` with the functions that match them. -/
inductive FilterKind
  | fir (form : DirectForm)
  | iirFormI
  | iirFormII
  deriving DecidableEq, Repr

namespace FilterKind
variable [Zero α] [Add α] [Sub α] [Mul α]

def start (kind : FilterKind) (sys : Supply) (h : Heap) (d : DataFilter α) (N : ℕ)
    (x b y a : ℕ → α) : Checked (Filter α) :=
  match kind with
  | .fir _ => FIR.start sys h d N x b
  | .iirFormI => IIR.startFormI sys h d N x b y a
  | .iirFormII => IIR.startFormII sys h d N x b a

def process (kind : FilterKind) (f : Filter α) (pData : α) : Checked (α × Filter α) :=
  match kind with
  | .fir form => FIR.sample f (form,pData)
  | .iirFormI => IIR.directFormI f pData
  | .iirFormII => IIR.directFormII f pData

/-- What the second history array is about: nothing for an FIR filter, the outputs with the
given past for direct form I, the auxiliary signal for direct form II. -/
def SecondSignal (kind : FilterKind) (N : ℕ) (a : ℕ → α) (x : ℤ → α) (yPast : ℕ → α)
    (n : ℕ) (outputs : List α) (s : ℤ → α) : Prop :=
  match kind with
  | .fir _ => True
  | .iirFormI => (∀ j < N, s (j-N) = yPast j) ∧ outputs = samples s 0 n
  | .iirFormII => IsAuxiliary N a x s

/-- The second array is used by the IIR filters only. -/
def UsesY : FilterKind → Prop
  | .fir _ => False
  | .iirFormI => True
  | .iirFormII => True

/-- After every number `n` of samples: the position is inside the buffer and both windows hold
exactly the last `N` samples of their signals. That the run returns means that every cell it
read lies inside its array and was written before. -/
theorem history_arrays_hold_last_samples (kind : FilterKind) (sys : Allocator) (h : Heap)
    (d : DataFilter α) (N : ℕ) (hN : 1 ≤ N) (b a : ℕ → α) (x : ℤ → α) (yPast : ℕ → α)
    (hroom : sys.room (d.filterOrder+bufferSize) = N+bufferSize) :
    ∃ s : ℤ → α, ∀ n : ℕ, Yields (kind.start sys h d N (history N x) b yPast a >>= fun f =>
        feed kind.process f (samples x 0 n))
      (fun r => kind.SecondSignal N a x yPast n r.1 s ∧
        0 ≤ r.2.contBuffer ∧ r.2.contBuffer ≤ bufferSize ∧
        (∀ j < N, r.2.initialDataFilter.arrayInputsX.read (r.2.contBuffer+j) = .ok (x (n-N+j))) ∧
        (kind.UsesY → ∀ j < N,
          r.2.initialDataFilter.arrayInputsY.read (r.2.contBuffer+j) = .ok (s (n-N+j)))) := by
  have hroom' : N+bufferSize ≤ sys.room (d.filterOrder+bufferSize) := hroom.ge
  cases kind with
  | fir form =>
    refine ⟨x,fun n => (FIR.start_yields sys h d N b (fun _ _ => rfl) hroom').bind ?_⟩
    intro f hf
    refine (feed_yields (FIR.Running N b x) x (convolve N b x) ?_ le_rfl hf n).mono ?_
    · intro t f' _ hr
      simp only [process,FIR.sample_eq]
      exact hr.step
    · intro r hr
      obtain ⟨-,hrun⟩ := hr
      rw [zero_add] at hrun
      exact ⟨trivial,hrun.position_nonneg,hrun.position_le,hrun.tracks.window,False.elim⟩
  | iirFormI =>
    obtain ⟨y,hhistory,hy,hstart⟩ := IIR.exists_runningFormI sys h d N b a x yPast hroom'
    refine ⟨y,fun n => hstart.bind ?_⟩
    intro f hf
    refine (hf.feedFormI le_rfl hy n).mono ?_
    intro r hr
    obtain ⟨houtputs,hrun⟩ := hr
    rw [zero_add] at hrun
    exact ⟨⟨hhistory,houtputs⟩,hrun.position_nonneg,hrun.position_le,hrun.tracks.window,
      fun _ => hrun.tracksY.window⟩
  | iirFormII =>
    obtain ⟨v,-,hv⟩ := exists_isAuxiliary N a x x
    refine ⟨v,fun n => (IIR.startFormII_yields sys h d N b a (fun _ _ => rfl) hN hv hroom').bind ?_⟩
    intro f hf
    refine (hf.feedFormII le_rfl (fun t ht => hv.step_full hN ht) n).mono ?_
    intro r hr
    obtain ⟨-,hrun⟩ := hr
    rw [zero_add] at hrun
    exact ⟨hv,hrun.position_nonneg,hrun.position_le,hrun.tracks.window,
      fun _ => hrun.tracksY.window⟩

end FilterKind

theorem FilterKind.history_arrays_hold_last_samples_order_twelve :
    ∃ s : ℤ → ℤ, ∀ n : ℕ, Yields (FilterKind.iirFormII.start Allocator.bump ⟨∅,0⟩
        (DataFilter.blank ℤ 12) 12 (history 12 fun t => t) (fun k => (k : ℤ)+1) (fun _ => 0)
        (fun k => (k : ℤ)-1) >>= fun f => feed FilterKind.iirFormII.process f (samples (fun t => t) 0 n))
      (fun r => FilterKind.iirFormII.SecondSignal 12 (fun k => (k : ℤ)-1) (fun t => t)
          (fun _ => 0) n r.1 s ∧
        0 ≤ r.2.contBuffer ∧ r.2.contBuffer ≤ bufferSize ∧
        (∀ j : ℕ, j < 12 → r.2.initialDataFilter.arrayInputsX.read (r.2.contBuffer+j) =
          .ok (n-(12 : ℕ)+j)) ∧
        (FilterKind.iirFormII.UsesY → ∀ j : ℕ, j < 12 →
          r.2.initialDataFilter.arrayInputsY.read (r.2.contBuffer+j) = .ok (s (n-(12 : ℕ)+j)))) :=
  FilterKind.history_arrays_hold_last_samples .iirFormII Allocator.bump ⟨∅,0⟩
    (DataFilter.blank ℤ 12) 12 (by decide) (fun k => (k : ℤ)+1) (fun k => (k : ℤ)-1) (fun t => t)
    (fun _ => 0) (by decide)

end DspLibrary
