import DspLibrary.Foundation.LinearSignal
import DspLibrary.Reconfiguration
import DspLibrary.Room

/-! Exact arithmetic: over a commutative ring the two IIR structures are one filter, the
start-up computed by `createArrayAux` is a replay of the history, and the FIR filter with the
coefficients of an all-pole IIR filter undoes it. -/
namespace DspLibrary
open Foundation
variable {R : Type*} [CommRing R]

/-- From rest, the auxiliary signal satisfies its recursion with all terms from time `-N` on. -/
lemma IsAuxiliary.step_from_rest {N : ℕ} {a : ℕ → R} {x v : ℤ → R} (h : IsAuxiliary N a x v)
    (hrest : ∀ t < (-N : ℤ), v t = 0) {m : ℤ} (hm : -N ≤ m) : v m = x m-feedback N a v m := by
  by_cases hfirst : m = -N
  · subst hfirst
    rw [feedback_of_zero_past hrest,sub_zero]
    exact h.start
  · have hshort : feedback (min N (m+N).toNat) a v m = feedback N a v m := by
      by_cases hstartup : m ≤ 0
      · rw [min_eq_right (by omega)]
        apply feedback_extend (by omega)
        intro t ht
        exact hrest t (by omega)
      · rw [min_eq_left (by omega)]
    rw [← hshort]
    exact h.step m (by omega)

/-- The outputs from rest satisfy the difference equation with all its terms, once the signals
are continued by silence. -/
lemma RestHistory.step_from_rest {N : ℕ} {b a : ℕ → R} {x yh y : ℤ → R}
    (h : RestHistory N b a x yh) (hrest : ∀ t < (-N : ℤ), y t = 0)
    (hyh : ∀ t : ℤ, -N ≤ t → t < 0 → y t = yh t) {m : ℤ} (hm : -N ≤ m) (hneg : m < 0) :
    y m = convolve N b (startedAt (-N) x) m-feedback N a y m := by
  have hconv : convolve (m+N).toNat b x m = convolve N b (startedAt (-N) x) m :=
    convolve_startedAt (by omega) x (by omega)
  have hcongr : feedback (m+N).toNat a yh m = feedback (m+N).toNat a y m :=
    feedback_congr (fun t ht hu => (hyh t (by omega) (by omega)).symm)
  have hfeed : feedback (m+N).toNat a y m = feedback N a y m :=
    feedback_extend (by omega) (fun t ht => hrest t (by omega))
  rw [hyh m hm hneg,h m hm hneg,hconv,hcongr,hfeed]

/-- With outputs from rest as its history, direct form I continues what direct form II does. -/
theorem exists_common_response (N : ℕ) (b a : ℕ → R) {x yh : ℤ → R}
    (hrest : RestHistory N b a x yh) :
    ∃ v, IsAuxiliary N a x v ∧ (∀ j < N, history N yh j = history N (convolve N b v) j) ∧
      DifferenceEquation N b a x (convolve N b v) := by
  obtain ⟨v,hvzero,haux⟩ := exists_isAuxiliary N a x (fun _ => 0)
  obtain ⟨y,hypast,hy⟩ := exists_differenceEquation N b a x (startedAt (-N) yh)
  have hyzero : ∀ t < (-N : ℤ), y t = 0 := by
    intro t ht
    rw [hypast t (by omega),startedAt_of_lt yh ht]
  have hyh : ∀ t : ℤ, -N ≤ t → t < 0 → y t = yh t := by
    intro t hl hu
    rw [hypast t hu,startedAt_of_le yh hl]
  have hvstep : ∀ m : ℤ, -N ≤ m → v m = startedAt (-N) x m-feedback N a v m := by
    intro m hm
    rw [startedAt_of_le x hm]
    exact haux.step_from_rest hvzero hm
  have hystep : ∀ m : ℤ, -N ≤ m → y m = convolve N b (startedAt (-N) x) m-feedback N a y m := by
    intro m hm
    by_cases hneg : m < 0
    · exact hrest.step_from_rest hyzero hyh hm hneg
    · have hconv : convolve N b x m = convolve N b (startedAt (-N) x) m :=
        convolve_congr (fun t ht _ => (startedAt_of_le x (by omega)).symm)
      rw [← hconv]
      exact hy m (by omega)
  have hagree : y = convolve N b v :=
    direct_forms_agree (-N) (fun t ht => startedAt_of_lt x ht) hvzero hyzero hvstep hystep
  subst hagree
  exact ⟨v,haux,fun j hj => (hyh (j-N) (by omega) (by omega)).symm,hy⟩

namespace IIR

/-- The two forms on one stream, with the histories given as arrays. -/
lemma directForms_common_outputs (sys : Allocator) (h₁ h₂ : Heap) (d₁ d₂ : DataFilter R) (N : ℕ)
    (hN : 1 ≤ N) (b a : ℕ → R) (hroom₁ : N+bufferSize ≤ sys.room (d₁.filterOrder+bufferSize))
    (hroom₂ : N+bufferSize ≤ sys.room (d₂.filterOrder+bufferSize)) {xPast yPast : ℕ → R}
    {x yh : ℤ → R} (hx : ∀ j < N, xPast j = history N x j) (hy : ∀ j < N, yPast j = history N yh j)
    (hrest : RestHistory N b a x yh) (L : ℕ) :
    ∃ outputs, Yields (startFormII sys h₂ d₂ N xPast b a >>= fun f =>
        feed directFormII f (samples x 0 L)) (fun r => r.1 = outputs) ∧
      Yields (startFormI sys h₁ d₁ N xPast b yPast a >>= fun f =>
        feed directFormI f (samples x 0 L)) (fun r => r.1 = outputs) := by
  obtain ⟨v,haux,hhistory,heq⟩ := exists_common_response N b a hrest
  refine ⟨samples (convolve N b v) 0 L,?_,?_⟩
  · exact responseFormII_yields sys h₂ d₂ hx hroom₂ L hN haux
  · have hpast : ∀ j < N, yPast j = history N (convolve N b v) j :=
      fun j hj => (hy j hj).trans (hhistory j hj)
    exact responseFormI_yields sys h₁ d₁ hx hroom₁ L hpast heq

lemma restHistory_zero (N : ℕ) (b a : ℕ → R) {x : ℤ → R} (hx : ∀ t < 0, x t = 0) :
    RestHistory N b a x (fun _ => 0) := by
  intro m _ hm
  rw [convolve_of_zero_past hx hm,feedback_of_zero_past (fun _ _ => rfl),sub_zero]

/-- The two forms on one stream, whatever the room. -/
lemma directForms_sameResponse (sys : Allocator) (h₁ h₂ : Heap) (d₁ d₂ : DataFilter R) (N : ℕ)
    (hN : 1 ≤ N) (b a : ℕ → R) {xPast yPast : ℕ → R} {x yh : ℤ → R}
    (hx : ∀ j < N, xPast j = history N x j) (hy : ∀ j < N, yPast j = history N yh j)
    (hrest : RestHistory N b a x yh) (L : ℕ) :
    SameResponse (N+bufferSize ≤ sys.room (d₁.filterOrder+bufferSize) ∧
        N+bufferSize ≤ sys.room (d₂.filterOrder+bufferSize))
      (startFormII sys h₂ d₂ N xPast b a >>= fun f => feed directFormII f (samples x 0 L))
      (startFormI sys h₁ d₁ N xPast b yPast a >>= fun f =>
        feed directFormI f (samples x 0 L)) := by
  have hmore := sys.room_le_atLeast (N+bufferSize)
  apply sameResponse_of_follows ?_ (responseFormII_follows hmore h₂ d₂ N xPast b a _)
    (responseFormI_follows hmore h₁ d₁ N xPast b yPast a _)
  · exact directForms_common_outputs _ h₁ h₂ d₁ d₂ N hN b a (sys.le_room_atLeast _ _)
      (sys.le_room_atLeast _ _) hx hy hrest L
  · intro hroom
    exact directForms_common_outputs sys h₁ h₂ d₁ d₂ N hN b a hroom.1 hroom.2 hx hy hrest L

/-- Direct form I with the outputs from rest as history returns the same values as direct form
II with the same inputs, for ever; in particular when all histories are zero. -/
theorem directForms_are_one_filter (sys : Allocator) (h₁ h₂ : Heap) (d₁ d₂ : DataFilter R)
    (N : ℕ) (hN : 1 ≤ N) (b a : ℕ → R) :
    (∀ x yh : ℤ → R, RestHistory N b a x yh → ∀ L : ℕ,
      SameResponse (N+bufferSize ≤ sys.room (d₁.filterOrder+bufferSize) ∧
          N+bufferSize ≤ sys.room (d₂.filterOrder+bufferSize))
        (startFormII sys h₂ d₂ N (history N x) b a >>= fun f =>
          feed directFormII f (samples x 0 L))
        (startFormI sys h₁ d₁ N (history N x) b (history N yh) a >>= fun f =>
          feed directFormI f (samples x 0 L))) ∧
    ∀ inputs : List R,
      SameResponse (N+bufferSize ≤ sys.room (d₁.filterOrder+bufferSize) ∧
          N+bufferSize ≤ sys.room (d₂.filterOrder+bufferSize))
        (startFormII sys h₂ d₂ N (fun _ => 0) b a >>= fun f => feed directFormII f inputs)
        (startFormI sys h₁ d₁ N (fun _ => 0) b (fun _ => 0) a >>= fun f =>
          feed directFormI f inputs) := by
  constructor
  · intro x yh hrest L
    exact directForms_sameResponse sys h₁ h₂ d₁ d₂ N hN b a (fun _ _ => rfl) (fun _ _ => rfl)
      hrest L
  · intro inputs
    obtain ⟨x,hpast,hinputs⟩ := exists_signal (fun _ => (0 : R)) inputs
    have hzero : ∀ j < N, (0 : R) = history N x j :=
      fun j hj => (hpast (j-N) (by omega)).symm
    rw [← hinputs]
    exact directForms_sameResponse sys h₁ h₂ d₁ d₂ N hN b a hzero (fun _ _ => rfl)
      (restHistory_zero N b a hpast) inputs.length

theorem directForms_are_one_filter_order_one : ∃ outputs,
    Yields (startFormII Allocator.bump ⟨∅,0⟩ (DataFilter.blank ℤ 1) 1 (history 1 fun t => t)
      (fun k => (k : ℤ)+1) (fun k => (k : ℤ)+2) >>= fun f =>
      feed directFormII f (samples (fun t => t) 0 25)) (fun r => r.1 = outputs) ∧
    Yields (startFormI Allocator.bump ⟨∅,0⟩ (DataFilter.blank ℤ 1) 1 (history 1 fun t => t)
      (fun k => (k : ℤ)+1) (history 1 fun _ => -1) (fun k => (k : ℤ)+2) >>= fun f =>
      feed directFormI f (samples (fun t => t) 0 25)) (fun r => r.1 = outputs) := by
  have hrest : RestHistory 1 (fun k => (k : ℤ)+1) (fun k => (k : ℤ)+2) (fun t => t)
      (fun _ => -1) := by
    intro m hl hu
    have hm : m = -1 := by omega
    subst hm
    decide
  have hsame := (directForms_are_one_filter Allocator.bump ⟨∅,0⟩ ⟨∅,0⟩ (DataFilter.blank ℤ 1)
    (DataFilter.blank ℤ 1) 1 (by decide) (fun k => (k : ℤ)+1) (fun k => (k : ℤ)+2)).1
    (fun t => t) (fun _ => -1) hrest 25
  exact hsame.1 (by decide)

/-- From a silent history, the auxiliary signal of the same input fed `N` samples later is the
same one `N` samples later. -/
lemma isAuxiliary_delayed {N : ℕ} {a : ℕ → R} {x v : ℤ → R} (hN : 1 ≤ N)
    (haux : IsAuxiliary N a x v) (hrest : ∀ t < (-N : ℤ), v t = 0) :
    IsAuxiliary N a (startedAt 0 fun t => x (t-N)) (fun t => v (t-N)) where
  start := by
    rw [startedAt_of_lt _ (by omega)]
    exact hrest _ (by omega)
  step m hm := by
    by_cases hneg : m < 0
    · have hsilent : ∀ t < m, v (t-N) = 0 := fun t ht => hrest _ (by omega)
      rw [startedAt_of_lt _ hneg,feedback_of_zero_past hsilent,hrest _ (by omega),sub_zero]
    · rw [startedAt_of_le _ (by omega),min_eq_left (by omega),
        haux.step_from_rest hrest (by omega)]
      congr 1
      apply accumulate_congr
      intro k _
      congr 2
      ring

/-- A filter built with a history, and one built with zeros that was fed this history, once
both have enough room. -/
lemma exists_replayed (sys : Allocator) (h₁ h₂ : Heap) (d₁ d₂ : DataFilter R) (N : ℕ)
    (hN : 1 ≤ N) (b a : ℕ → R) (hist : ℕ → R)
    (hroom₁ : N+bufferSize ≤ sys.room (d₁.filterOrder+bufferSize))
    (hroom₂ : N+bufferSize ≤ sys.room (d₂.filterOrder+bufferSize)) :
    ∃ (f g : Filter R) (os : List R) (v : ℤ → R) (x x' : ℤ → R),
      startFormII sys h₁ d₁ N hist b a = .ok f ∧
      (startFormII sys h₂ d₂ N (fun _ => 0) b a >>= fun f =>
        feed directFormII f ((List.range N).map hist)) = .ok (os,g) ∧
      Running N b a x v 0 f ∧ Running N b a x' (fun t => v (t-N)) N g := by
  let x : ℤ → R := ofHistory N hist
  have hx : ∀ j < N, hist j = history N x j := history_of_agree (fun _ _ => rfl)
  obtain ⟨v,hvzero,haux⟩ := exists_isAuxiliary N a x (fun _ => 0)
  obtain ⟨f,hf,hrunF⟩ := startFormII_yields sys h₁ d₁ N b a hx hN haux hroom₁
  have hdelayed := isAuxiliary_delayed hN haux hvzero
  have hzero : ∀ j < N, (0 : R) = history N (startedAt 0 fun t => x (t-N)) j :=
    fun j hj => (startedAt_of_lt _ (by omega)).symm
  obtain ⟨f₀,hf₀,hrun₀⟩ := startFormII_yields sys h₂ d₂ N b a hzero hN hdelayed hroom₂
  obtain ⟨⟨os,g⟩,hg,-,hrunG⟩ :=
    hrun₀.feedFormII le_rfl (fun t ht => hdelayed.step_full hN ht) N
  have hinputs : samples (startedAt 0 fun t => x (t-N)) 0 N = (List.range N).map hist := by
    rw [samples_eq_map]
    apply List.map_congr_left
    intro i hi
    rw [startedAt_of_le _ (by omega)]
    simp [x,ofHistory]
  rw [hinputs] at hg
  rw [zero_add] at hrunG
  exact ⟨f,g,os,v,x,_,hf,by simp only [hf₀,ok_bind,hg],hrunF,hrunG⟩

/-- The two auxiliary windows are the same, so the outputs are. -/
lemma sameOutputs_of_replayed {N : ℕ} {b a : ℕ → R} {x x' v : ℤ → R} {f g : Filter R}
    (hf : Running N b a x v 0 f) (hg : Running N b a x' (fun t => v (t-N)) N g)
    (inputs : List R) : SameOutputs directFormII f g inputs := by
  have hf' : FilterKind.iirFormII.Running N b a x v 0 f := FilterKind.running_of_IIR hf
  apply hf'.sameOutputs (FilterKind.running_of_IIR hg) False.elim
  intro _ j _
  congr 1
  ring

/-- `createArrayAux` does what replaying the history from rest does: a filter built with a
history `hist`, and a filter built with zeros that was fed `hist`, keep the same auxiliary values
and return the same outputs from then on. -/
theorem createArrayAux_replays_history (sys : Allocator) (h₁ h₂ : Heap) (d₁ d₂ : DataFilter R)
    (N : ℕ) (hN : 1 ≤ N) (b a : ℕ → R) (hist : ℕ → R) :
    (N+bufferSize ≤ sys.room (d₁.filterOrder+bufferSize) ∧
        N+bufferSize ≤ sys.room (d₂.filterOrder+bufferSize) →
      ∃ f r, startFormII sys h₁ d₁ N hist b a = .ok f ∧
        (startFormII sys h₂ d₂ N (fun _ => 0) b a >>= fun f =>
          feed directFormII f ((List.range N).map hist)) = .ok r) ∧
    ∀ f r, startFormII sys h₁ d₁ N hist b a = .ok f →
      (startFormII sys h₂ d₂ N (fun _ => 0) b a >>= fun f =>
        feed directFormII f ((List.range N).map hist)) = .ok r →
      (∃ v : ℕ → R, f.initialDataFilter.arrayInputsY.Stores 0 N v ∧
        r.2.initialDataFilter.arrayInputsY.Stores r.2.contBuffer N v) ∧
      ∀ inputs : List R, SameResponse (N+bufferSize ≤ sys.room (d₁.filterOrder+bufferSize) ∧
          N+bufferSize ≤ sys.room (d₂.filterOrder+bufferSize))
        (feed directFormII f inputs) (feed directFormII r.2 inputs) := by
  constructor
  · intro hroom
    obtain ⟨f,g,os,v,x,x',hf,hg,-,-⟩ :=
      exists_replayed sys h₁ h₂ d₁ d₂ N hN b a hist hroom.1 hroom.2
    exact ⟨f,(os,g),hf,hg⟩
  · intro f r hf hr
    -- the same calls with enough room determine what the given ones have stored and return
    obtain ⟨f',g',os',v,x,x',hf',hg',hrunF,hrunG⟩ :=
      exists_replayed (sys.atLeast (N+bufferSize)) h₁ h₂ d₁ d₂ N hN b a hist
        (sys.le_room_atLeast _ _) (sys.le_room_atLeast _ _)
    obtain ⟨p,hp,hF⟩ := startFormII_follows (sys.room_le_atLeast _) h₁ h₁ d₁ N hist b a f hf
    cases hp.symm.trans hf'
    obtain ⟨q,hq,hG⟩ :=
      responseFormII_follows (sys.room_le_atLeast _) h₂ d₂ N (fun _ => 0) b a _ r hr
    cases hq.symm.trans hg'
    constructor
    · obtain ⟨f₀,hf₀,hfeed⟩ := exists_of_bind_eq_ok hr
      obtain ⟨hlive,-⟩ := live_of_startFormII hN hf
      obtain ⟨hlive₀,hroom₀⟩ := live_of_startFormII hN hf₀
      have hwindow := hlive.window_of_roomier hF hrunF.tracksY.window
      rw [startFormII_position hf] at hwindow
      refine ⟨_,hwindow,(hlive₀.of_feedFormII hroom₀ hfeed).window_of_roomier hG.2 ?_⟩
      refine hrunG.tracksY.window.congr ?_
      intro j _
      congr 1
      ring
    · intro inputs
      constructor
      · intro hroom
        obtain ⟨f₁,g₁,os₁,v₁,x₁,x₁',hf₁,hg₁,hrunF₁,hrunG₁⟩ :=
          exists_replayed sys h₁ h₂ d₁ d₂ N hN b a hist hroom.1 hroom.2
        cases hf.symm.trans hf₁
        cases hr.symm.trans hg₁
        exact sameOutputs_of_replayed hrunF₁ hrunG₁ inputs
      · intro r₁ r₂ hr₁ hr₂
        obtain ⟨outputs,ho₁,ho₂⟩ := sameOutputs_of_replayed hrunF hrunG inputs
        exact outputs_eq_of_follows (feedFormII_follows hF inputs)
          (feedFormII_follows hG.2 inputs) ho₁ ho₂ hr₁ hr₂

theorem createArrayAux_replays_history_order_twelve :
    ∃ (f : Filter ℤ) (r : List ℤ × Filter ℤ),
      startFormII Allocator.bump ⟨∅,0⟩ (DataFilter.blank ℤ 12) 12
        (fun j => (j : ℤ)) (fun k => (k : ℤ)+1) (fun k => (k : ℤ)-1) = .ok f ∧
      (startFormII Allocator.bump ⟨∅,0⟩ (DataFilter.blank ℤ 12) 12 (fun _ => 0)
        (fun k => (k : ℤ)+1) (fun k => (k : ℤ)-1) >>= fun f =>
        feed directFormII f ((List.range 12).map fun j => (j : ℤ))) = .ok r ∧
      (∃ v : ℕ → ℤ, f.initialDataFilter.arrayInputsY.Stores 0 12 v ∧
        r.2.initialDataFilter.arrayInputsY.Stores r.2.contBuffer 12 v) ∧
      ∀ inputs : List ℤ, ∃ outputs,
        Yields (feed directFormII f inputs) (fun r => r.1 = outputs) ∧
        Yields (feed directFormII r.2 inputs) (fun r => r.1 = outputs) := by
  have hreplay := createArrayAux_replays_history Allocator.bump ⟨∅,0⟩ ⟨∅,0⟩
    (DataFilter.blank ℤ 12) (DataFilter.blank ℤ 12) 12 (by decide) (fun k => (k : ℤ)+1)
    (fun k => (k : ℤ)-1) (fun j => (j : ℤ))
  obtain ⟨f,r,hf,hr⟩ := hreplay.1 (by decide)
  obtain ⟨hwindow,hsame⟩ := hreplay.2 f r hf hr
  exact ⟨f,r,hf,hr,hwindow,fun inputs => (hsame inputs).1 (by decide)⟩

end IIR

section Inverse
variable (sys : Allocator) (h₁ h₂ : Heap) (d₁ d₂ : DataFilter R) (N : ℕ) {C : ℕ → R} (hC : C 0 = 1)
  (hist g : ℕ → R)
include hC

lemma allPole_undoes_FIR (hroom₁ : N+bufferSize ≤ sys.room (d₁.filterOrder+bufferSize))
    (hroom₂ : N+bufferSize ≤ sys.room (d₂.filterOrder+bufferSize)) (inputs : List R) :
    ∃ u, Yields (FIR.start sys h₁ d₁ N hist C >>= fun f => feed FIR.directFormI f inputs)
        (fun r => r.1 = u) ∧
      Yields (IIR.startFormI sys h₂ d₂ N g unitWeights hist C >>= fun f =>
        feed IIR.directFormI f u) (fun r => r.1 = inputs) := by
  obtain ⟨x,hpast,hinputs⟩ := exists_signal (ofHistory N hist) inputs
  have hx := history_of_agree hpast
  let u : ℤ → R := splice (ofHistory N g) (convolve N C x)
  have hu : ∀ j < N, g j = history N u j :=
    history_of_agree (fun t ht => splice_of_neg _ _ ht)
  have hsolves : DifferenceEquation N unitWeights C u x := by
    intro n hn
    rw [recursion_iff,leadingOne_eq_self hC,convolve_unitWeights]
    exact (splice_of_nonneg _ _ hn).symm
  refine ⟨samples u 0 inputs.length,?_,?_⟩
  · have hrun := FIR.response_yields sys h₁ d₁ (b := C) hx hroom₁ inputs.length
    rw [hinputs] at hrun
    rwa [samples_splice]
  · have hrun := IIR.responseFormI_yields sys h₂ d₂ hu hroom₂ inputs.length hx hsolves
    rwa [hinputs] at hrun

lemma FIR_undoes_allPole (hroom₁ : N+bufferSize ≤ sys.room (d₁.filterOrder+bufferSize))
    (hroom₂ : N+bufferSize ≤ sys.room (d₂.filterOrder+bufferSize)) (inputs : List R) :
    ∃ w, Yields (IIR.startFormI sys h₂ d₂ N g unitWeights hist C >>= fun f =>
        feed IIR.directFormI f inputs) (fun r => r.1 = w) ∧
      Yields (FIR.start sys h₁ d₁ N hist C >>= fun f => feed FIR.directFormI f w)
        (fun r => r.1 = inputs) := by
  obtain ⟨u,hpast,hinputs⟩ := exists_signal (ofHistory N g) inputs
  have hu := history_of_agree hpast
  obtain ⟨w,hwpast,hw⟩ := exists_differenceEquation N unitWeights C u (ofHistory N hist)
  have hhist := history_of_agree hwpast
  refine ⟨samples w 0 inputs.length,?_,?_⟩
  · have hrun := IIR.responseFormI_yields sys h₂ d₂ hu hroom₂ inputs.length hhist hw
    rwa [hinputs] at hrun
  · have hback : samples (convolve N C w) 0 inputs.length = inputs := by
      rw [← hinputs,samples_length]
      apply samples_congr
      intro t ht _
      have hsum := (recursion_iff N C w t _).mp (hw t ht)
      rwa [leadingOne_eq_self hC,convolve_unitWeights] at hsum
    have hrun := FIR.response_yields sys h₁ d₁ (b := C) hhist hroom₁ inputs.length
    rwa [hback] at hrun

end Inverse

/-- An all-pole IIR filter and the FIR filter with its coefficients undo each other, in both
orders. The FIR filter's past inputs are the IIR filter's past outputs. -/
theorem allPole_and_FIR_are_inverse (sys : Allocator) (h₁ h₂ : Heap) (d₁ d₂ : DataFilter R)
    (N : ℕ) (C : ℕ → R) (hC : C 0 = 1) (hist g : ℕ → R) (inputs : List R) :
    Undone (N+bufferSize ≤ sys.room (d₁.filterOrder+bufferSize) ∧
        N+bufferSize ≤ sys.room (d₂.filterOrder+bufferSize))
      (fun is => FIR.start sys h₁ d₁ N hist C >>= fun f => feed FIR.directFormI f is)
      (fun is => IIR.startFormI sys h₂ d₂ N g unitWeights hist C >>= fun f =>
        feed IIR.directFormI f is) inputs ∧
    Undone (N+bufferSize ≤ sys.room (d₁.filterOrder+bufferSize) ∧
        N+bufferSize ≤ sys.room (d₂.filterOrder+bufferSize))
      (fun is => IIR.startFormI sys h₂ d₂ N g unitWeights hist C >>= fun f =>
        feed IIR.directFormI f is)
      (fun is => FIR.start sys h₁ d₁ N hist C >>= fun f => feed FIR.directFormI f is) inputs := by
  have hmore := sys.room_le_atLeast (N+bufferSize)
  have hfir := fun is => FIR.response_follows hmore h₁ d₁ N hist C is
  have hiir := fun is => IIR.responseFormI_follows hmore h₂ d₂ N g unitWeights hist C is
  constructor
  · apply undone_of_follows ?_ hfir hiir
    · exact allPole_undoes_FIR (sys.atLeast (N+bufferSize)) h₁ h₂ d₁ d₂ N hC hist g
        (sys.le_room_atLeast _ _) (sys.le_room_atLeast _ _) inputs
    · intro hroom
      exact allPole_undoes_FIR sys h₁ h₂ d₁ d₂ N hC hist g hroom.1 hroom.2 inputs
  · apply undone_of_follows ?_ hiir hfir
    · exact FIR_undoes_allPole (sys.atLeast (N+bufferSize)) h₁ h₂ d₁ d₂ N hC hist g
        (sys.le_room_atLeast _ _) (sys.le_room_atLeast _ _) inputs
    · intro hroom
      exact FIR_undoes_allPole sys h₁ h₂ d₁ d₂ N hC hist g hroom.1 hroom.2 inputs

theorem allPole_and_FIR_are_inverse_order_two :
    (∃ u, Yields (FIR.start Allocator.bump ⟨∅,0⟩ (DataFilter.blank ℤ 2) 2 (fun j => (j : ℤ)-1)
        (fun k => (k : ℤ)+1) >>= fun f =>
        feed FIR.directFormI f (samples (fun t => t*t) 0 25)) (fun r => r.1 = u) ∧
      Yields (IIR.startFormI Allocator.bump ⟨∅,0⟩ (DataFilter.blank ℤ 2) 2 (fun _ => 5)
        unitWeights (fun j => (j : ℤ)-1) (fun k => (k : ℤ)+1) >>= fun f =>
        feed IIR.directFormI f u) (fun r => r.1 = samples (fun t => t*t) 0 25)) ∧
    ∃ w, Yields (IIR.startFormI Allocator.bump ⟨∅,0⟩ (DataFilter.blank ℤ 2) 2 (fun _ => 5)
        unitWeights (fun j => (j : ℤ)-1) (fun k => (k : ℤ)+1) >>= fun f =>
        feed IIR.directFormI f (samples (fun t => t*t) 0 25)) (fun r => r.1 = w) ∧
      Yields (FIR.start Allocator.bump ⟨∅,0⟩ (DataFilter.blank ℤ 2) 2 (fun j => (j : ℤ)-1)
        (fun k => (k : ℤ)+1) >>= fun f => feed FIR.directFormI f w)
        (fun r => r.1 = samples (fun t => t*t) 0 25) := by
  have hinverse := allPole_and_FIR_are_inverse Allocator.bump ⟨∅,0⟩ ⟨∅,0⟩ (DataFilter.blank ℤ 2)
    (DataFilter.blank ℤ 2) 2 (fun k => (k : ℤ)+1) (by decide) (fun j => (j : ℤ)-1) (fun _ => 5)
    (samples (fun t => t*t) 0 25)
  exact ⟨hinverse.1.1 (by decide),hinverse.2.1 (by decide)⟩

end DspLibrary
