import DspLibrary.Equivalence
import DspLibrary.Foundation.Transfer

/-! What the outputs of a filter know of its coefficients. No function reads the leading pole
`A0`, so the poles are taken as monic: direct form I knows the zeros and the poles from `A1` on,
and direct form II only their quotient. -/
namespace DspLibrary
open Foundation

namespace FilterKind

section Any
variable {α : Type*} [Zero α] [Add α] [Sub α] [Mul α]

/-- With the two sets of coefficients the filters return the same values, on all histories and
inputs. -/
def SameFilter (kind : FilterKind) (N : ℕ) (b a b' a' : ℕ → α) : Prop :=
  ∀ (sys : Allocator) (h₁ h₂ : Heap) (d₁ d₂ : DataFilter α) (x y : ℕ → α) (inputs : List α),
    SameResponse (N+bufferSize ≤ sys.room (d₁.filterOrder+bufferSize) ∧
        N+bufferSize ≤ sys.room (d₂.filterOrder+bufferSize))
      (kind.response sys h₁ d₁ N x b y a inputs) (kind.response sys h₂ d₂ N x b' y a' inputs)

variable {kind : FilterKind} {N : ℕ} {b a b' a' : ℕ → α}

/-- It is enough to compare filters that have their room. -/
lemma sameFilter_of_room (h : ∀ (sys : Allocator) (h₁ h₂ : Heap) (d₁ d₂ : DataFilter α)
    (x y : ℕ → α) (inputs : List α), N+bufferSize ≤ sys.room (d₁.filterOrder+bufferSize) →
    N+bufferSize ≤ sys.room (d₂.filterOrder+bufferSize) →
    ∃ outputs, Yields (kind.response sys h₁ d₁ N x b y a inputs) (fun r => r.1 = outputs) ∧
      Yields (kind.response sys h₂ d₂ N x b' y a' inputs) (fun r => r.1 = outputs)) :
    kind.SameFilter N b a b' a' := by
  intro sys h₁ h₂ d₁ d₂ x y inputs
  have hmore := sys.room_le_atLeast (N+bufferSize)
  apply sameResponse_of_follows ?_ (kind.response_follows hmore h₁ d₁ N x b y a inputs)
    (kind.response_follows hmore h₂ d₂ N x b' y a' inputs)
  · exact h _ h₁ h₂ d₁ d₂ x y inputs (sys.le_room_atLeast _ _) (sys.le_room_atLeast _ _)
  · intro hroom
    exact h sys h₁ h₂ d₁ d₂ x y inputs hroom.1 hroom.2

lemma SameFilter.outputs_eq (h : kind.SameFilter N b a b' a') (x y : ℕ → α) {inputs o o' : List α}
    (ho : Yields (kind.response Allocator.bump ⟨∅,0⟩ (DataFilter.blank α N) N x b y a inputs)
      (fun r => r.1 = o))
    (ho' : Yields (kind.response Allocator.bump ⟨∅,0⟩ (DataFilter.blank α N) N x b' y a' inputs)
      (fun r => r.1 = o')) : o = o' := by
  obtain ⟨r,hr,rfl⟩ := ho
  obtain ⟨r',hr',rfl⟩ := ho'
  exact (h Allocator.bump _ _ _ _ x y inputs).2 r r' hr hr'

end Any

section FormI
variable {α : Type*} [Zero α] [Add α] [Sub α] [Mul α] {N : ℕ} {b a b' a' : ℕ → α}

/-- The leading pole is not used. -/
lemma sameFilter_formI_of_coefficients (hb : ∀ k ≤ N, b k = b' k)
    (ha : ∀ k, 1 ≤ k → k ≤ N → a k = a' k) : FilterKind.iirFormI.SameFilter N b a b' a' := by
  apply sameFilter_of_room
  intro sys h₁ h₂ d₁ d₂ x y inputs hroom₁ hroom₂
  have hx : ∀ j < N, x j = history N (ofHistory N x) j := history_of_agree (fun _ _ => rfl)
  have hy : ∀ j < N, y j = history N (ofHistory N y) j := history_of_agree (fun _ _ => rfl)
  obtain ⟨f₁,hf₁,hrun₁⟩ := IIR.startFormI_yields sys h₁ d₁ N b a hx hy hroom₁
  obtain ⟨f₂,hf₂,hrun₂⟩ := IIR.startFormI_yields sys h₂ d₂ N b' a' hx hy hroom₂
  have hsame : FilterKind.iirFormI.Running N b a (ofHistory N x) (ofHistory N y) 0 f₂ :=
    (running_of_IIR hrun₂).of_coefficients (fun k hk => (hb k hk).symm)
      (fun k hl hu => (ha k hl hu).symm)
  simp only [response,start,hf₁,hf₂,ok_bind]
  exact (running_of_IIR hrun₁).sameOutputs hsame (fun _ _ _ => rfl) (fun _ _ _ => rfl) inputs

/-- The first output shows both sums over the histories. -/
lemma firstOutput_formI (N : ℕ) (b a : ℕ → α) (x y : ℤ → α) :
    Yields (FilterKind.iirFormI.response Allocator.bump ⟨∅,0⟩ (DataFilter.blank α N) N
        (history N x) b (history N y) a [x 0])
      (fun r => r.1 = [convolve N b x 0-feedback N a y 0]) := by
  obtain ⟨y',hpast,hy⟩ := exists_differenceEquation N b a x y
  have hhistory : ∀ j < N, history N y j = history N y' j :=
    fun j hj => (hpast (j-N) (by omega)).symm
  have hfirst : y' 0 = convolve N b x 0-feedback N a y 0 := by
    rw [hy 0 le_rfl,feedback_congr (fun t _ ht => hpast t ht)]
  have hout := IIR.responseFormI_yields Allocator.bump ⟨∅,0⟩ (DataFilter.blank α N)
    (fun _ _ => rfl) (DataFilter.room_blank α N) 1 hhistory hy
  simp only [samples,hfirst] at hout
  exact hout

end FormI

section Exact
variable {R : Type*} [CommRing R] {N : ℕ} {b a b' a' : ℕ → R}

/-- Direct form I knows the zeros and the poles from `A1` on. -/
theorem sameFilter_formI_iff : FilterKind.iirFormI.SameFilter N b a b' a' ↔
    (∀ k ≤ N, b k = b' k) ∧ ∀ k, 1 ≤ k → k ≤ N → a k = a' k := by
  constructor
  · intro h
    have hprobe : ∀ x y : ℤ → R, convolve N b x 0-feedback N a y 0 =
        convolve N b' x 0-feedback N a' y 0 := by
      intro x y
      have heq := h.outputs_eq _ _ (firstOutput_formI N b a x y) (firstOutput_formI N b' a' x y)
      simpa using heq
    constructor
    · intro k hk
      have heq := hprobe (Pi.single (0-k) 1) 0
      rw [convolve_impulse hk,convolve_impulse hk] at heq
      simpa [feedback_eq_sum] using heq
    · intro k hl hu
      have heq := hprobe 0 (Pi.single (0-k) 1)
      rw [feedback_impulse hl hu,feedback_impulse hl hu] at heq
      simpa [convolve_eq_sum] using heq
  · intro h
    exact sameFilter_formI_of_coefficients h.1 h.2

/-- With a history that starts from rest, the poles turn the auxiliary signal into the inputs. -/
lemma convolve_poles {x v : ℤ → R} (haux : IsAuxiliary N a x v)
    (hrest : ∀ t < (-N : ℤ), v t = 0) :
    convolve N (leadingOne a) v = startedAt (-N) x := by
  funext m
  by_cases hm : m < -N
  · rw [convolve_of_zero_past hrest hm,startedAt_of_lt x hm]
  · rw [startedAt_of_le x (by omega)]
    exact (recursion_iff N a v m _).mp (haux.step_from_rest hrest (by omega))

/-- The auxiliary signal of an impulse. -/
lemma exists_impulseResponse (hN : 1 ≤ N) (a : ℕ → R) :
    ∃ v, (∀ t < 0, v t = 0) ∧ IsAuxiliary N a (Pi.single 0 1) v ∧
      convolve N (leadingOne a) v = Pi.single 0 1 := by
  obtain ⟨v,hpast,hstep⟩ := exists_recursion N a (Pi.single 0 1) (fun _ => (0 : R))
  have hsilent : ∀ t < 0, (Pi.single 0 1 : ℤ → R) t = 0 :=
    fun t ht => Pi.single_eq_of_ne (by omega) _
  refine ⟨v,hpast,⟨?_,?_⟩,?_⟩
  · rw [hpast _ (by omega),hsilent _ (by omega)]
  · intro m _
    by_cases hm : m < 0
    · rw [hpast m hm,hsilent m hm,feedback_of_zero_past (fun t ht => hpast t (by omega)),sub_zero]
    · rw [show min N (m+N).toNat = N by omega]
      exact hstep m (by omega)
  · funext m
    by_cases hm : m < 0
    · rw [convolve_of_zero_past hpast hm,hsilent m hm]
    · exact (recursion_iff N a v m _).mp (hstep m (by omega))

/-- Direct form II knows the quotient of the zeros and the monic poles. -/
theorem sameFilter_formII_iff (hN : 1 ≤ N) : FilterKind.iirFormII.SameFilter N b a b' a' ↔
    SameTransfer N b a b' a' := by
  constructor
  · intro h
    obtain ⟨v,hv,haux,hpoles⟩ := exists_impulseResponse hN a
    obtain ⟨v',hv',haux',hpoles'⟩ := exists_impulseResponse hN a'
    apply sameTransfer_of_impulse hpoles hpoles'
    have hsamples : ∀ L, samples (convolve N b v) 0 L = samples (convolve N b' v') 0 L := by
      intro L
      exact h.outputs_eq _ 0
        (IIR.responseFormII_yields _ _ _ (fun _ _ => rfl) (DataFilter.room_blank R N) L hN haux)
        (IIR.responseFormII_yields _ _ _ (fun _ _ => rfl) (DataFilter.room_blank R N) L hN haux')
    funext t
    by_cases ht : t < 0
    · rw [convolve_of_zero_past hv ht,convolve_of_zero_past hv' ht]
    · exact eq_of_samples_eq hsamples (by omega)
  · intro h
    apply sameFilter_of_room
    intro sys h₁ h₂ d₁ d₂ x y inputs hroom₁ hroom₂
    obtain ⟨x',hpast,hinputs⟩ := exists_signal (ofHistory N x) inputs
    have hx := history_of_agree hpast
    obtain ⟨v,hv,haux⟩ := exists_isAuxiliary N a x' (fun _ => 0)
    obtain ⟨v',hv',haux'⟩ := exists_isAuxiliary N a' x' (fun _ => 0)
    have hout := IIR.responseFormII_yields sys h₁ d₁ (b := b) hx hroom₁ inputs.length hN haux
    have hout' := IIR.responseFormII_yields sys h₂ d₂ (b := b') hx hroom₂ inputs.length hN haux'
    have houtputs : convolve N b v = convolve N b' v' :=
      h.convolve_eq (-N) hv hv' (convolve_poles haux hv) (convolve_poles haux' hv')
    rw [hinputs] at hout hout'
    rw [← houtputs] at hout'
    exact ⟨_,hout,hout'⟩

end Exact

/-- Over a field: the outputs of an IIR filter depend on its transfer function with the leading
pole taken as one, and in direct form I on the zeros and the other poles themselves. Scaling all
coefficients is therefore seen, unless there is nothing to scale. -/
theorem outputs_take_poles_as_monic {K : Type*} [Field K] (N : ℕ) (hN : 1 ≤ N) :
    (∀ b a b' a' : ℕ → K, FilterKind.iirFormI.SameFilter N b a b' a' ↔
      (∀ k ≤ N, b k = b' k) ∧ ∀ k, 1 ≤ k → k ≤ N → a k = a' k) ∧
    (∀ b a b' a' : ℕ → K, FilterKind.iirFormII.SameFilter N b a b' a' ↔
      SameTransfer N b a b' a') ∧
    ∀ (b a : ℕ → K) (c : K),
      (FilterKind.iirFormI.SameFilter N (c • b) (c • a) b a ↔
        c = 1 ∨ (∀ k ≤ N, b k = 0) ∧ ∀ k, 1 ≤ k → k ≤ N → a k = 0) ∧
      (FilterKind.iirFormII.SameFilter N (c • b) (c • a) b a ↔ c = 1 ∨ ∀ k ≤ N, b k = 0) := by
  refine ⟨fun b a b' a' => sameFilter_formI_iff,fun b a b' a' => sameFilter_formII_iff hN,?_⟩
  intro b a c
  constructor
  · rw [sameFilter_formI_iff]
    by_cases hc : c = 1 <;> simp [hc,mul_left_eq_self₀]
  · rw [sameFilter_formII_iff hN]
    exact sameTransfer_smul_iff c

end FilterKind

/-- A zero and a pole that cancel: direct form II returns its inputs, direct form I still knows
the pole. The leading poles 7 and 5 play no role. -/
theorem FilterKind.outputs_take_poles_as_monic_order_one :
    FilterKind.iirFormII.SameFilter 1 (fun k => if k = 0 then (1 : ℚ) else 3)
      (fun k => if k = 0 then 7 else 3) unitWeights (fun k => if k = 0 then 5 else 0) ∧
    ¬ FilterKind.iirFormI.SameFilter 1 (fun k => if k = 0 then (1 : ℚ) else 3)
      (fun k => if k = 0 then 7 else 3) unitWeights (fun k => if k = 0 then 5 else 0) := by
  obtain ⟨hformI,hformII,-⟩ := FilterKind.outputs_take_poles_as_monic (K := ℚ) 1 le_rfl
  constructor
  · rw [hformII]
    simp [SameTransfer,weights,leadingOne,unitWeights,Finset.sum_range_succ]
  · rw [hformI]
    intro h
    have hzero := h.1 1 le_rfl
    simp [unitWeights] at hzero

/-- The coefficients `B = A = 1, 0`, all of them doubled: the answer to the first sample 1 is 2
instead of 1, in both forms. -/
theorem FilterKind.scaling_changes_outputs :
    (unitWeights 0 : ℚ) ≠ 0 ∧ (2 : ℚ) ≠ 0 ∧
    ¬ FilterKind.iirFormI.SameFilter 1 ((2 : ℚ) • unitWeights) ((2 : ℚ) • unitWeights)
      (unitWeights : ℕ → ℚ) unitWeights ∧
    ¬ FilterKind.iirFormII.SameFilter 1 ((2 : ℚ) • unitWeights) ((2 : ℚ) • unitWeights)
      (unitWeights : ℕ → ℚ) unitWeights := by
  refine ⟨by simp [unitWeights],by norm_num,?_,?_⟩
  · intro h
    have hscaled : Except.map Prod.fst (FilterKind.iirFormI.response Allocator.bump ⟨∅,0⟩
        (DataFilter.blank ℚ 1) 1 (fun _ => 0) ((2 : ℚ) • unitWeights) (fun _ => 0)
        ((2 : ℚ) • unitWeights) [1]) = .ok [2] := by decide +kernel
    have hplain : Except.map Prod.fst (FilterKind.iirFormI.response Allocator.bump ⟨∅,0⟩
        (DataFilter.blank ℚ 1) 1 (fun _ => 0) unitWeights (fun _ => 0) unitWeights [1]) =
        .ok [1] := by decide +kernel
    exact not_sameResponse hscaled hplain (by decide) (h _ _ _ _ _ _ _ _)
  · intro h
    have hscaled : Except.map Prod.fst (FilterKind.iirFormII.response Allocator.bump ⟨∅,0⟩
        (DataFilter.blank ℚ 1) 1 (fun _ => 0) ((2 : ℚ) • unitWeights) (fun _ => 0)
        ((2 : ℚ) • unitWeights) [1]) = .ok [2] := by decide +kernel
    have hplain : Except.map Prod.fst (FilterKind.iirFormII.response Allocator.bump ⟨∅,0⟩
        (DataFilter.blank ℚ 1) 1 (fun _ => 0) unitWeights (fun _ => 0) unitWeights [1]) =
        .ok [1] := by decide +kernel
    exact not_sameResponse hscaled hplain (by decide) (h _ _ _ _ _ _ _ _)

end DspLibrary
