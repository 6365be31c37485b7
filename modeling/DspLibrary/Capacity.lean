import DspLibrary.Running

/-! Streams over history arrays of any size. The position runs up to `BUFFER_SIZE` and back to 0,
so the largest index of a stream depends on its length only up to the first move: a stream
returns exactly when the cells up to that index are there. -/
namespace DspLibrary
open Foundation
variable {α : Type*}

lemma Allocated.same {name : ArrayName} {room : ℕ} {b b' : FloatBlock α}
    (h : Allocated name room b) (hs : b.SameRegion b') : Allocated name room b' :=
  ⟨hs.label.trans h.1,hs.size.trans h.2⟩

/-- The window at time 0 says nothing about the sample of time 0. -/
lemma window_update {N : ℕ} {x : ℤ → α} {c : ℤ} {b : FloatBlock α}
    (h : b.Stores c N (fun j => x (0-N+j))) (v : α) :
    b.Stores c N (fun j => Function.update x 0 v (0-N+j)) := by
  apply h.congr
  intro j hj
  rw [Function.update_of_ne (by omega)]

/-- The window at time 1 is the one at time 0 of the signal read one sample later. -/
lemma window_rebase {N : ℕ} {x : ℤ → α} {c : ℤ} {b : FloatBlock α}
    (h : b.Stores c N (fun j => x (0+1-N+j))) :
    b.Stores c N (fun j => (fun t => x (t+1)) (0-N+j)) := by
  apply h.congr
  intro j _
  congr 1
  ring

lemma TracksX.update {N : ℕ} {b : ℕ → α} {x : ℤ → α} {c : ℤ} {d : DataFilter α}
    (h : TracksX N b x 0 c d) (v : α) : TracksX N b (Function.update x 0 v) 0 c d :=
  ⟨h.order,h.coefficients,window_update h.window v⟩

lemma TracksY.update {N : ℕ} {a : ℕ → α} {y : ℤ → α} {c : ℤ} {d : DataFilter α}
    (h : TracksY N a y 0 c d) (v : α) : TracksY N a (Function.update y 0 v) 0 c d :=
  ⟨h.coefficients,window_update h.window v⟩

lemma TracksX.rebase {N : ℕ} {b : ℕ → α} {x : ℤ → α} {c : ℤ} {d : DataFilter α}
    (h : TracksX N b x (0+1) c d) : TracksX N b (fun t => x (t+1)) 0 c d :=
  ⟨h.order,h.coefficients,window_rebase h.window⟩

lemma TracksY.rebase {N : ℕ} {a : ℕ → α} {y : ℤ → α} {c : ℤ} {d : DataFilter α}
    (h : TracksY N a y (0+1) c d) : TracksY N a (fun t => y (t+1)) 0 c d :=
  ⟨h.coefficients,window_rebase h.window⟩

/-- A state with written windows in history arrays of `room` cells, which may be too few. -/
structure FIR.Live (N room : ℕ) (f : Filter α) : Prop where
  position_nonneg : 0 ≤ f.contBuffer
  position_le : f.contBuffer ≤ bufferSize
  allocated : Allocated .inputsX room f.initialDataFilter.arrayInputsX
  tracks : ∃ b x, TracksX N b x 0 f.contBuffer f.initialDataFilter

structure IIR.Live (N room : ℕ) (f : Filter α) : Prop extends FIR.Live N room f where
  allocatedY : Allocated .inputsY room f.initialDataFilter.arrayInputsY
  tracksY : ∃ a y, TracksY N a y 0 f.contBuffer f.initialDataFilter

namespace FIR
variable [Zero α] [Add α] [Mul α]

lemma Live.step {N room : ℕ} {f : Filter α} (h : Live N room f) (s : DirectForm × α)
    (hfit : N+nextPosition f.contBuffer < room) :
    Yields (sample f s) (fun r => Live N room r.2 ∧
      r.2.contBuffer = nextPosition f.contBuffer+1) := by
  obtain ⟨b,x,htracks⟩ := h.tracks
  have hle := nextPosition_lt h.position_le
  have hnonneg := nextPosition_nonneg h.position_nonneg
  have hroom := h.allocated.2
  have hstep := directForm_yields (htracks.update s.2) h.position_nonneg (by rw [hroom]; exact hfit)
  rw [Function.update_self] at hstep
  rw [sample_eq]
  refine hstep.mono ?_
  intro r hr
  obtain ⟨-,hadv,hX⟩ := hr
  have hpos := hadv.position
  exact ⟨⟨by omega,by omega,h.allocated.same hadv.regionX,b,_,hX.rebase⟩,hpos⟩

lemma Live.overrun {N room : ℕ} {f : Filter α} (h : Live N room f) (s : DirectForm × α)
    (hlt : f.contBuffer < bufferSize) (hroom : room ≤ N+f.contBuffer) :
    sample f s = .error (.outOfBounds .inputsX (N+f.contBuffer)) := by
  obtain ⟨b,x,htracks⟩ := h.tracks
  have hnot : f.contBuffer ≠ bufferSize := by omega
  obtain ⟨hlabel,hsize⟩ := h.allocated
  rw [sample_eq]
  simp only [directForm,moveIfFull,hnot,if_false,pure_eq_ok,ok_bind,htracks.order]
  rw [Block.write_of_size_le _ _ _ (by omega),hlabel]
  rfl

end FIR

namespace IIR
variable [Zero α] [Add α] [Sub α] [Mul α]

/-- A sample through the chosen function of the class. -/
def sample (f : Filter α) (s : DirectForm × α) : Checked (α × Filter α) :=
  match s.1 with
  | .formI => directFormI f s.2
  | .formII => directFormII f s.2

lemma Live.step {N room : ℕ} {f : Filter α} (h : Live N room f) (s : DirectForm × α)
    (hfit : N+nextPosition f.contBuffer < room) :
    Yields (sample f s) (fun r => Live N room r.2 ∧
      r.2.contBuffer = nextPosition f.contBuffer+1) := by
  obtain ⟨b,x,hX⟩ := h.tracks
  obtain ⟨a,y,hY⟩ := h.tracksY
  have hle := nextPosition_lt h.position_le
  have hnonneg := nextPosition_nonneg h.position_nonneg
  have hfitX : N+nextPosition f.contBuffer < f.initialDataFilter.arrayInputsX.size := by
    rw [h.allocated.2]
    exact hfit
  have hfitY : N+nextPosition f.contBuffer < f.initialDataFilter.arrayInputsY.size := by
    rw [h.allocatedY.2]
    exact hfit
  have hfeedback : ∀ v, feedback N a (Function.update y 0 v) 0 = feedback N a y 0 := by
    intro v
    apply feedback_congr
    intro t _ ht
    rw [Function.update_of_ne (by omega)]
  have hlive : ∀ (x' y' : ℤ → α) (f' : Filter α), Advanced f f' →
      TracksX N b x' (0+1) f'.contBuffer f'.initialDataFilter →
      TracksY N a y' (0+1) f'.contBuffer f'.initialDataFilter →
      Live N room f' ∧ f'.contBuffer = nextPosition f.contBuffer+1 := by
    intro x' y' f' hadv hX' hY'
    have hpos := hadv.position
    exact ⟨⟨⟨by omega,by omega,h.allocated.same hadv.regionX,b,_,hX'.rebase⟩,
      h.allocatedY.same hadv.regionY,a,_,hY'.rebase⟩,hpos⟩
  obtain ⟨form,v⟩ := s
  cases form with
  | formI =>
    have hstep := directFormI_yields (hX.update v)
      (hY.update (convolve N b (Function.update x 0 v) 0-feedback N a y 0)) h.position_nonneg
      hfitX hfitY (by rw [Function.update_self,hfeedback])
    rw [Function.update_self] at hstep
    refine hstep.mono ?_
    intro r hr
    exact hlive _ _ _ hr.2.1 hr.2.2.1 hr.2.2.2
  | formII =>
    have hstep := directFormII_yields (hX.update v) (hY.update (v-feedback N a y 0))
      h.position_nonneg hfitX hfitY (by rw [Function.update_self,Function.update_self,hfeedback])
    rw [Function.update_self] at hstep
    refine hstep.mono ?_
    intro r hr
    exact hlive _ _ _ hr.2.1 hr.2.2.1 hr.2.2.2

/-- Both forms store the input first. -/
lemma sample_overrun {N room : ℕ} {f : Filter α} (h : FIR.Live N room f) (s : DirectForm × α)
    (hlt : f.contBuffer < bufferSize) (hroom : room ≤ N+f.contBuffer) :
    sample f s = .error (.outOfBounds .inputsX (N+f.contBuffer)) := by
  obtain ⟨b,x,hX⟩ := h.tracks
  have hnot : f.contBuffer ≠ bufferSize := by omega
  obtain ⟨hlabel,hsize⟩ := h.allocated
  have hwrite : ∀ v, f.initialDataFilter.arrayInputsX.write (N+f.contBuffer) v =
      .error (.outOfBounds .inputsX (N+f.contBuffer)) := by
    intro v
    rw [Block.write_of_size_le _ _ _ (by omega),hlabel]
  obtain ⟨form,v⟩ := s
  cases form with
  | formI =>
    simp only [sample,directFormI,moveIfFull,hnot,if_false,pure_eq_ok,ok_bind,hX.order,hwrite,
      error_bind]
  | formII =>
    simp only [sample,directFormII,moveIfFull,hnot,if_false,pure_eq_ok,ok_bind,hX.order,hwrite,
      error_bind]

/-- Without an array for the outputs no sample can be processed: its first read goes wrong. -/
lemma sample_unrequested {N room addr : ℕ} {f : Filter α} (h : FIR.Live N room f)
    (s : DirectForm × α) (hN : 1 ≤ N) (hlt : f.contBuffer < bufferSize)
    (hroom : N+f.contBuffer < room)
    (hY : f.initialDataFilter.arrayInputsY = Block.raw .inputsY addr 0) :
    sample f s = .error (.outOfBounds .inputsY (f.contBuffer+(N-1))) := by
  obtain ⟨b,x,hX⟩ := h.tracks
  have hX := hX.update s.2
  have hpos := h.position_nonneg
  have hnot : f.contBuffer ≠ bufferSize := by omega
  have hsize := h.allocated.2
  obtain ⟨x',hwrite,hw⟩ := Block.write_yields f.initialDataFilter.arrayInputsX (N+f.contBuffer) s.2
    (by omega) (by omega)
  have hsumX := FuntionsMath.sum_convolve hX.coefficients
    (window_extends hX.window hw (by rw [Function.update_self]))
  have hread : (Block.raw .inputsY addr 0 : FloatBlock α).read (f.contBuffer+((N : ℤ)-1)) =
      .error (.outOfBounds .inputsY (f.contBuffer+((N : ℤ)-1))) :=
    Block.read_of_size_le _ _ (by simp [Block.raw,Block.size]; omega)
  have hsumY : FuntionsMath.sum (N-1) 0 f.initialDataFilter.arrayCoefficientsA
      (Block.raw .inputsY addr 0) f.contBuffer =
      .error (.outOfBounds .inputsY (f.contBuffer+((N : ℤ)-1))) := by
    rw [FuntionsMath.sum,forUpTo_error (k := 0) (fun i r => i = 0 ∧ r = (0,f.contBuffer)) (by omega)
      ⟨rfl,rfl⟩ (by omega)]
    · rfl
    · rintro _ ⟨-,rfl⟩
      simp only [FuntionsMath.sumBody,hread,error_bind]
  obtain ⟨form,v⟩ := s
  cases form with
  | formI =>
    simp only [sample,directFormI,moveIfFull,hnot,if_false,pure_eq_ok,ok_bind,hX.order,hwrite,hsumX,
      hY,hsumY,error_bind]
  | formII =>
    simp only [sample,directFormII,moveIfFull,hnot,if_false,pure_eq_ok,ok_bind,hX.order,hwrite,hY,
      hsumY,error_bind]

end IIR

section Streams
variable {σ : Type*} {step : Filter α → σ → Checked (α × Filter α)} {P : Filter α → Prop}
  {N room : ℕ}
  (hstep : ∀ f s, P f → N+nextPosition f.contBuffer < room →
    Yields (step f s) (fun r => P r.2 ∧ r.2.contBuffer = nextPosition f.contBuffer+1))
include hstep

/-- A stream fits if the cells up to its last sample, or up to the end of the buffer, do. -/
theorem feed_fits (hpos : ∀ f, P f → 0 ≤ f.contBuffer ∧ f.contBuffer ≤ bufferSize)
    (inputs : List σ) {f : Filter α} (hf : P f)
    (hfit : N+min (f.contBuffer+inputs.length) bufferSize ≤ room) :
    Yields (feed step f inputs) (fun r => P r.2) := by
  induction inputs generalizing f with
  | nil => exact Yields.ok hf
  | cons s inputs ih =>
    obtain ⟨hnonneg,hle⟩ := hpos f hf
    have hK := bufferSize_pos
    have hnext : N+nextPosition f.contBuffer < room ∧
        N+min (nextPosition f.contBuffer+1+inputs.length) bufferSize ≤ room := by
      simp only [List.length_cons] at hfit
      push_cast at hfit
      unfold nextPosition
      split <;> omega
    refine (hstep f s hf hnext.1).bind ?_
    intro r hr
    obtain ⟨hP,hposition⟩ := hr
    refine (ih hP (by rw [hposition]; exact hnext.2)).bind ?_
    intro q hq
    exact Yields.ret hq

theorem feed_overruns
    (hstop : ∀ f s, P f → f.contBuffer < bufferSize → room ≤ N+f.contBuffer →
      step f s = .error (.outOfBounds .inputsX (N+f.contBuffer)))
    (inputs : List σ) {f : Filter α} (hf : P f) (hroom : N+f.contBuffer ≤ room)
    (hover : room < N+min (f.contBuffer+inputs.length) bufferSize) :
    ∃ i, feed step f inputs = .error (.outOfBounds .inputsX i) := by
  induction inputs generalizing f with
  | nil =>
    simp only [List.length_nil] at hover
    omega
  | cons s inputs ih =>
    simp only [List.length_cons] at hover
    push_cast at hover
    have hlt : f.contBuffer < bufferSize := by omega
    by_cases hlast : room ≤ N+f.contBuffer
    · exact ⟨N+f.contBuffer,by simp [feed,hstop f s hf hlt hlast]⟩
    · have hposition := nextPosition_of_lt hlt
      obtain ⟨r,hr,hP,hnext⟩ := hstep f s hf (by omega)
      rw [hposition] at hnext
      obtain ⟨i,hi⟩ := ih hP (by omega) (by rw [hnext]; omega)
      exact ⟨i,by simp [feed,hr,hi]⟩

end Streams

/-- A stream that was answered without a fault has stayed inside the arrays. -/
lemma IIR.Live.of_feedFormII [Zero α] [Add α] [Sub α] [Mul α] {N room : ℕ} {f : Filter α} (h : Live N room f)
    (hroom : N+f.contBuffer ≤ room) {inputs : List α} {r : List α × Filter α}
    (hr : feed directFormII f inputs = .ok r) : Live N room r.2 := by
  have hstep : ∀ (f : Filter α) (v : α), Live N room f → N+nextPosition f.contBuffer < room →
      Yields (directFormII f v) (fun r => Live N room r.2 ∧
        r.2.contBuffer = nextPosition f.contBuffer+1) :=
    fun f v hf hfit => hf.step (.formII,v) hfit
  by_cases hfit : N+min (f.contBuffer+inputs.length) bufferSize ≤ room
  · obtain ⟨q,hq,hlive⟩ := feed_fits hstep
      (fun f hf => ⟨hf.position_nonneg,hf.position_le⟩) inputs h hfit
    cases hr.symm.trans hq
    exact hlive
  · obtain ⟨i,hi⟩ := feed_overruns hstep (fun f v hf hlt hle => sample_overrun hf.toLive (.formII,v) hlt hle)
      inputs h hroom (by omega)
    cases hr.symm.trans hi

end DspLibrary
