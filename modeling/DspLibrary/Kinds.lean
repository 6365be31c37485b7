import DspLibrary.Response

/-! The three structures as one machine: what its states store, the equation of its second
signal and its answers, for a filter of any kind. -/
namespace DspLibrary
open Foundation
variable {α : Type*}

/-- The signal with the given past and future. -/
def splice (past future : ℤ → α) : ℤ → α := fun t => if t < 0 then past t else future t

lemma splice_of_nonneg (past future : ℤ → α) {t : ℤ} (h : 0 ≤ t) :
    splice past future t = future t := by simp [splice,not_lt.mpr h]

lemma splice_of_neg (past future : ℤ → α) {t : ℤ} (h : t < 0) :
    splice past future t = past t := by simp [splice,h]

lemma samples_splice (past future : ℤ → α) (L : ℕ) :
    samples (splice past future) 0 L = samples future 0 L := by
  apply samples_congr
  intro u hu _
  exact splice_of_nonneg past future hu

/-- A signal with the past of `x₁` at time `n₁` has the window of `x₁` at time `n₁`. -/
lemma window_of_past {x x₁ : ℤ → α} {n₁ : ℤ} (hpast : ∀ t < 0, x t = x₁ (n₁+t)) (N : ℕ) :
    ∀ j : ℕ, j < N → x₁ (n₁-N+j) = x (0-N+j) := by
  intro j hj
  rw [hpast _ (by omega)]
  congr 1
  ring

/-- On these inputs the two filters return the same values. -/
def SameOutputs (step : Filter α → α → Checked (α × Filter α)) (f₁ f₂ : Filter α)
    (inputs : List α) : Prop :=
  ∃ outputs, Yields (feed step f₁ inputs) (fun r => r.1 = outputs) ∧
    Yields (feed step f₂ inputs) (fun r => r.1 = outputs)

/-- A running filter does not know the time, only its window. -/
lemma FIR.Running.retime {N : ℕ} {b : ℕ → α} {x x' : ℤ → α} {n n' : ℤ} {f : Filter α}
    (h : Running N b x n f) (hx : ∀ j : ℕ, j < N → x (n-N+j) = x' (n'-N+j)) :
    Running N b x' n' f :=
  ⟨h.position_nonneg,h.position_le,h.room,h.tracks.order,h.tracks.coefficients,
    h.tracks.window.congr hx⟩

namespace FilterKind

/-- The input array is read by all filters but direct form II. -/
def UsesX : FilterKind → Prop
  | .fir _ => True
  | .iirFormI => True
  | .iirFormII => False

/-- The representation invariant of any kind of filter. The second signal `s` is the output for
direct form I and the auxiliary signal for direct form II; an FIR filter has none. -/
structure Running (kind : FilterKind) (N : ℕ) (b a : ℕ → α) (x s : ℤ → α) (n : ℤ)
    (f : Filter α) : Prop extends FIR.Running N b x n f where
  roomY : kind.UsesY → N+bufferSize ≤ f.initialDataFilter.arrayInputsY.size
  tracksY : kind.UsesY → TracksY N a s n f.contBuffer f.initialDataFilter

section State
variable {kind : FilterKind} {N : ℕ} {b a : ℕ → α} {x s : ℤ → α} {n : ℤ} {f : Filter α}

lemma Running.toIIR (h : kind.Running N b a x s n f) (hy : kind.UsesY) :
    IIR.Running N b a x s n f :=
  ⟨h.toRunning,h.roomY hy,h.tracksY hy⟩

lemma running_of_FIR {form : DirectForm} (h : FIR.Running N b x n f) :
    (FilterKind.fir form).Running N b a x s n f :=
  ⟨h,False.elim,False.elim⟩

lemma running_of_IIR (h : IIR.Running N b a x s n f) : kind.Running N b a x s n f :=
  ⟨h.toRunning,fun _ => h.roomY,fun _ => h.tracksY⟩

lemma Running.retime {x' s' : ℤ → α} {n' : ℤ} (h : kind.Running N b a x s n f)
    (hx : ∀ j : ℕ, j < N → x (n-N+j) = x' (n'-N+j))
    (hs : kind.UsesY → ∀ j : ℕ, j < N → s (n-N+j) = s' (n'-N+j)) :
    kind.Running N b a x' s' n' f :=
  ⟨h.toRunning.retime hx,h.roomY,
    fun hy => ⟨(h.tracksY hy).coefficients,(h.tracksY hy).window.congr (hs hy)⟩⟩

/-- Nor does a filter know the leading pole, or coefficients beyond its order. -/
lemma Running.of_coefficients {b' a' : ℕ → α} (h : kind.Running N b a x s n f)
    (hb : ∀ k ≤ N, b k = b' k) (ha : ∀ k, 1 ≤ k → k ≤ N → a k = a' k) :
    kind.Running N b' a' x s n f where
  position_nonneg := h.position_nonneg
  position_le := h.position_le
  room := h.room
  tracks := ⟨h.tracks.order,h.tracks.coefficients.congr (fun k hk => hb k (by omega)),
    h.tracks.window⟩
  roomY := h.roomY
  tracksY hy := ⟨(h.tracksY hy).coefficients.congr (fun k hk => ha (k+1) (by omega) (by omega)),
    (h.tracksY hy).window⟩

end State

variable [Zero α] [Add α] [Sub α] [Mul α]

/-- The equation of the second signal at time `n`. -/
def SolvesAt (kind : FilterKind) (N : ℕ) (b a : ℕ → α) (x s : ℤ → α) (n : ℤ) : Prop :=
  match kind with
  | .fir _ => True
  | .iirFormI => s n = convolve N b x n-feedback N a s n
  | .iirFormII => s n = x n-feedback N a s n

/-- What the filter returns at time `n`. -/
def answer (kind : FilterKind) (N : ℕ) (b : ℕ → α) (x s : ℤ → α) (n : ℤ) : α :=
  match kind with
  | .fir _ => convolve N b x n
  | .iirFormI => s n
  | .iirFormII => convolve N b s n

/-- A filter built from the two histories, and its outputs on a list of inputs. -/
def response (kind : FilterKind) (sys : Supply) (h : Heap) (d : DataFilter α) (N : ℕ)
    (x b y a : ℕ → α) (inputs : List α) : Checked (List α × Filter α) := do
  let f ← kind.start sys h d N x b y a
  feed kind.process f inputs

section Runs
variable {kind : FilterKind} {N : ℕ} {b a : ℕ → α} {x s : ℤ → α} {n : ℤ} {f : Filter α}

theorem Running.step (h : kind.Running N b a x s n f) (hs : kind.SolvesAt N b a x s n) :
    Yields (kind.process f (x n))
      (fun r => r.1 = kind.answer N b x s n ∧ kind.Running N b a x s (n+1) r.2) := by
  cases kind with
  | fir form =>
    simp only [process,FIR.sample_eq]
    exact h.toRunning.step.mono (fun _ hr => ⟨hr.1,running_of_FIR hr.2⟩)
  | iirFormI =>
    exact ((h.toIIR trivial).stepFormI hs).mono (fun _ hr => ⟨hr.1,running_of_IIR hr.2⟩)
  | iirFormII =>
    exact ((h.toIIR trivial).stepFormII hs).mono (fun _ hr => ⟨hr.1,running_of_IIR hr.2⟩)

theorem Running.feed (h : kind.Running N b a x s n f) (hn : 0 ≤ n)
    (hs : ∀ t, 0 ≤ t → kind.SolvesAt N b a x s t) (L : ℕ) :
    Yields (Foundation.feed kind.process f (samples x n L))
      (fun r => r.1 = samples (kind.answer N b x s) n L ∧ kind.Running N b a x s (n+L) r.2) :=
  feed_yields (kind.Running N b a x s) x (kind.answer N b x s)
    (fun t _ ht hr => hr.step (hs t ht)) hn h L

/-- The signals can be continued from time `n` on by any inputs. -/
lemma exists_future (kind : FilterKind) (N : ℕ) (b a : ℕ → α) (x s : ℤ → α) (n : ℤ)
    (inputs : List α) :
    ∃ x' s' : ℤ → α, (∀ t < 0, x' t = x (n+t)) ∧ (∀ t < 0, s' t = s (n+t)) ∧
      (∀ t, 0 ≤ t → kind.SolvesAt N b a x' s' t) ∧ samples x' 0 inputs.length = inputs := by
  obtain ⟨x',hpast,hinputs⟩ := exists_signal (fun t => x (n+t)) inputs
  cases kind with
  | fir form => exact ⟨x',fun t => s (n+t),hpast,fun _ _ => rfl,fun _ _ => trivial,hinputs⟩
  | iirFormI =>
    obtain ⟨y,hpastY,hy⟩ := exists_differenceEquation N b a x' (fun t => s (n+t))
    exact ⟨x',y,hpast,hpastY,hy,hinputs⟩
  | iirFormII =>
    obtain ⟨v,hpastV,hv⟩ := exists_recursion N a x' (fun t => s (n+t))
    exact ⟨x',v,hpast,hpastV,hv,hinputs⟩

/-- Past inputs that a filter does not read have no part in its equation. -/
lemma SolvesAt.congr {x' : ℤ → α} (h : kind.SolvesAt N b a x s n) (hn : 0 ≤ n)
    (hfuture : ∀ t, 0 ≤ t → x t = x' t) (hpast : kind.UsesX → ∀ t : ℤ, -N ≤ t → x t = x' t) :
    kind.SolvesAt N b a x' s n := by
  cases kind with
  | fir form => trivial
  | iirFormI =>
    have hsum : convolve N b x n = convolve N b x' n :=
      convolve_congr (fun t ht _ => hpast trivial t (by omega))
    rw [SolvesAt,← hsum]
    exact h
  | iirFormII =>
    rw [SolvesAt,← hfuture n hn]
    exact h

omit [Sub α] in
lemma answer_congr {x' : ℤ → α} (hn : 0 ≤ n)
    (hpast : kind.UsesX → ∀ t : ℤ, -N ≤ t → x t = x' t) :
    kind.answer N b x s n = kind.answer N b x' s n := by
  cases kind with
  | fir form => exact convolve_congr (fun t ht _ => hpast trivial t (by omega))
  | iirFormI => rfl
  | iirFormII => rfl

/-- Two filters that agree on the windows they use return the same values from then on, also
when they move their data at different samples. -/
theorem Running.sameOutputs {x₁ x₂ s₁ s₂ : ℤ → α} {n₁ n₂ : ℤ} {f₁ f₂ : Filter α}
    (h₁ : kind.Running N b a x₁ s₁ n₁ f₁) (h₂ : kind.Running N b a x₂ s₂ n₂ f₂)
    (hx : kind.UsesX → ∀ j : ℕ, j < N → x₁ (n₁-N+j) = x₂ (n₂-N+j))
    (hs : kind.UsesY → ∀ j : ℕ, j < N → s₁ (n₁-N+j) = s₂ (n₂-N+j)) (inputs : List α) :
    SameOutputs kind.process f₁ f₂ inputs := by
  obtain ⟨x,s,hpast,hpastS,hsolves,hinputs⟩ := exists_future kind N b a x₁ s₁ n₁ inputs
  -- the second filter keeps its own past inputs
  let x' := splice (fun t => x₂ (n₂+t)) x
  have hpast' : ∀ t < 0, x' t = x₂ (n₂+t) := fun t ht => splice_of_neg _ _ ht
  have hfuture : ∀ t, 0 ≤ t → x t = x' t := fun t ht => (splice_of_nonneg _ _ ht).symm
  have hagree : kind.UsesX → ∀ t : ℤ, -N ≤ t → x t = x' t := by
    intro huse t ht
    by_cases hneg : t < 0
    · have hwindow := hx huse (t+N).toNat (by omega)
      rw [show n₁-N+((t+N).toNat : ℤ) = n₁+t by omega,
        show n₂-N+((t+N).toNat : ℤ) = n₂+t by omega] at hwindow
      rw [hpast t hneg,hpast' t hneg,hwindow]
    · exact hfuture t (by omega)
  have hr₁ : kind.Running N b a x s 0 f₁ :=
    h₁.retime (window_of_past hpast N) (fun _ => window_of_past hpastS N)
  have hr₂ : kind.Running N b a x' s 0 f₂ := h₂.retime (window_of_past hpast' N)
    (fun hy j hj => (hs hy j hj).symm.trans (window_of_past hpastS N j hj))
  have hout₁ := (hr₁.feed le_rfl hsolves inputs.length).mono (fun _ hr => hr.1)
  have hout₂ := (hr₂.feed le_rfl (fun t ht => (hsolves t ht).congr ht hfuture hagree)
    inputs.length).mono (fun _ hr => hr.1)
  have hanswers : samples (kind.answer N b x s) 0 inputs.length =
      samples (kind.answer N b x' s) 0 inputs.length :=
    samples_congr (fun t ht _ => answer_congr ht hagree)
  rw [hinputs] at hout₁
  rw [samples_splice,hinputs,← hanswers] at hout₂
  exact ⟨_,hout₁,hout₂⟩

/-- Two histories have a second signal that every filter built from them follows. -/
theorem exists_running (kind : FilterKind) (N : ℕ) (hN : 1 ≤ N) (b a : ℕ → α) (x : ℤ → α)
    (yPast : ℕ → α) {xPast : ℕ → α} (hx : ∀ j < N, xPast j = history N x j) :
    ∃ s : ℤ → α, (∀ t, 0 ≤ t → kind.SolvesAt N b a x s t) ∧
      ∀ (sys : Allocator) (h : Heap) (d : DataFilter α),
        N+bufferSize ≤ sys.room (d.filterOrder+bufferSize) →
        Yields (kind.start sys h d N xPast b yPast a) (kind.Running N b a x s 0) := by
  cases kind with
  | fir form =>
    refine ⟨x,fun _ _ => trivial,fun sys h d hroom => ?_⟩
    exact (FIR.start_yields sys h d N b hx hroom).mono (fun _ hf => running_of_FIR hf)
  | iirFormI =>
    obtain ⟨y,hpast,hy⟩ := exists_differenceEquation N b a x (ofHistory N yPast)
    refine ⟨y,hy,fun sys h d hroom => ?_⟩
    exact (IIR.startFormI_yields sys h d N b a hx (history_of_agree hpast) hroom).mono
      (fun _ hf => running_of_IIR hf)
  | iirFormII =>
    obtain ⟨v,-,hv⟩ := exists_isAuxiliary N a x x
    refine ⟨v,fun t ht => hv.step_full hN ht,fun sys h d hroom => ?_⟩
    exact (IIR.startFormII_yields sys h d N b a hx hN hv hroom).mono
      (fun _ hf => running_of_IIR hf)

end Runs

end FilterKind
end DspLibrary
