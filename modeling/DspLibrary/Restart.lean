import DspLibrary.Foundation.LinearSignal
import DspLibrary.Room

/-! Calling `setInitialDataFilter` again. The position goes back to the start of the arrays, but
the cells keep what they hold: the window of the last move. So the filter goes back in time to
its last move, and this is the initial data only as long as nothing has been moved. -/
namespace DspLibrary
open Foundation
variable {α : Type*}

/-- The first `N` cells hold the window of the last move, which was `ContBuffer` samples ago. -/
structure FilterKind.Head (kind : FilterKind) (N : ℕ) (x s : ℤ → α) (n : ℤ) (f : Filter α) :
    Prop where
  position : n ≤ bufferSize → f.contBuffer = n
  inputs : f.initialDataFilter.arrayInputsX.Stores 0 N (fun j => x (n-f.contBuffer-N+j))
  second : kind.UsesY →
    f.initialDataFilter.arrayInputsY.Stores 0 N (fun j => s (n-f.contBuffer-N+j))

namespace FIR
variable {N : ℕ} {b : ℕ → α} {x : ℤ → α} {n : ℤ} {f : Filter α}

lemma Running.moveIfFull_head (h : Running N b x n f)
    (hhead : f.initialDataFilter.arrayInputsX.Stores 0 N (fun j => x (n-f.contBuffer-N+j))) :
    Returning (moveIfFull f) (fun r => r.2 = nextPosition f.contBuffer ∧
      r.1.Stores 0 N (fun j => x (n-nextPosition f.contBuffer-N+j))) := by
  unfold moveIfFull nextPosition
  by_cases hfull : f.contBuffer = bufferSize
  · have hwindow := h.tracks.window
    rw [hfull] at hwindow
    simp only [hfull,if_true,sub_zero]
    refine (DataFilter.moveArray_yields h.tracks.order hwindow).returning.bind ?_
    intro x' hx'
    exact Returning.ok ⟨rfl,hx'.2.1⟩
  · simp only [hfull,if_false]
    exact Returning.ok ⟨rfl,hhead⟩

variable [Zero α] [Add α] [Mul α]

/-- A sample is written behind the first `N` cells. -/
lemma Running.directForm_head (h : Running N b x n f)
    (hhead : f.initialDataFilter.arrayInputsX.Stores 0 N (fun j => x (n-f.contBuffer-N+j)))
    (v : α) :
    Returning (directForm f v) (fun r => r.2.contBuffer = nextPosition f.contBuffer+1 ∧
      r.2.initialDataFilter.arrayInputsX.Stores 0 N
        (fun j => x (n-nextPosition f.contBuffer-N+j))) := by
  have hnonneg := nextPosition_nonneg h.position_nonneg
  unfold directForm
  refine (h.moveIfFull_head hhead).bind ?_
  rintro ⟨x',c⟩ ⟨rfl,hx'⟩
  simp only [h.tracks.order]
  refine (hx'.write_behind (by omega) v).bind ?_
  intro x'' hx''
  refine (Returning.any _).bind ?_
  intro _ _
  exact Returning.ok ⟨rfl,hx''⟩

end FIR

namespace IIR
variable {N : ℕ} {b a : ℕ → α} {x y : ℤ → α} {n : ℤ} {f : Filter α}

/-- Both arrays hold the window of a move that was `c` samples ago. -/
def HeldAt (N : ℕ) (x y : ℤ → α) (n c : ℤ) (X Y : FloatBlock α) : Prop :=
  X.Stores 0 N (fun j => x (n-c-N+j)) ∧ Y.Stores 0 N (fun j => y (n-c-N+j))

lemma HeldAt.write_behind {c i : ℤ} {X Y : FloatBlock α} (h : HeldAt N x y n c X Y) (hi : N ≤ i)
    (v : α) : Returning (X.write i v) (fun X' => HeldAt N x y n c X' Y) :=
  (h.1.write_behind (by omega) v).mono (fun _ hX => ⟨hX,h.2⟩)

lemma HeldAt.write_behindY {c i : ℤ} {X Y : FloatBlock α} (h : HeldAt N x y n c X Y) (hi : N ≤ i)
    (v : α) : Returning (Y.write i v) (fun Y' => HeldAt N x y n c X Y') :=
  (h.2.write_behind (by omega) v).mono (fun _ hY => ⟨h.1,hY⟩)

lemma Running.moveIfFull_head (h : Running N b a x y n f)
    (hhead : HeldAt N x y n f.contBuffer f.initialDataFilter.arrayInputsX
      f.initialDataFilter.arrayInputsY) :
    Returning (moveIfFull f) (fun r => r.2.2 = nextPosition f.contBuffer ∧
      HeldAt N x y n (nextPosition f.contBuffer) r.1 r.2.1) := by
  unfold moveIfFull nextPosition
  by_cases hfull : f.contBuffer = bufferSize
  · have hwindow := h.tracks.window
    have hwindowY := h.tracksY.window
    rw [hfull] at hwindow hwindowY
    simp only [hfull,if_true,HeldAt,sub_zero]
    refine (DataFilter.moveArray_yields h.tracks.order hwindow).returning.bind ?_
    intro x' hx'
    refine (DataFilter.moveArray_yields h.tracks.order hwindowY).returning.bind ?_
    intro y' hy'
    exact Returning.ok ⟨rfl,hx'.2.1,hy'.2.1⟩
  · simp only [hfull,if_false]
    exact Returning.ok ⟨rfl,hhead⟩

variable [Zero α] [Add α] [Sub α] [Mul α]

section Sample
variable (h : Running N b a x y n f) (hhead : HeldAt N x y n f.contBuffer
  f.initialDataFilter.arrayInputsX f.initialDataFilter.arrayInputsY) (v : α)
include h hhead

lemma Running.directFormI_head :
    Returning (directFormI f v) (fun r => r.2.contBuffer = nextPosition f.contBuffer+1 ∧
      HeldAt N x y n (nextPosition f.contBuffer) r.2.initialDataFilter.arrayInputsX
        r.2.initialDataFilter.arrayInputsY) := by
  have hnonneg := nextPosition_nonneg h.position_nonneg
  unfold directFormI
  refine (h.moveIfFull_head hhead).bind ?_
  rintro ⟨x',y',c⟩ ⟨rfl,hheld⟩
  simp only [h.tracks.order]
  refine (hheld.write_behind (by omega) v).bind ?_
  intro x'' hheld'
  refine (Returning.any _).bind ?_
  intro _ _
  refine (Returning.any _).bind ?_
  intro _ _
  refine (hheld'.write_behindY (by omega) _).bind ?_
  intro y'' hheld''
  exact Returning.ok ⟨rfl,hheld''⟩

lemma Running.directFormII_head :
    Returning (directFormII f v) (fun r => r.2.contBuffer = nextPosition f.contBuffer+1 ∧
      HeldAt N x y n (nextPosition f.contBuffer) r.2.initialDataFilter.arrayInputsX
        r.2.initialDataFilter.arrayInputsY) := by
  have hnonneg := nextPosition_nonneg h.position_nonneg
  unfold directFormII
  refine (h.moveIfFull_head hhead).bind ?_
  rintro ⟨x',y',c⟩ ⟨rfl,hheld⟩
  simp only [h.tracks.order]
  refine (hheld.write_behind (by omega) v).bind ?_
  intro x'' hheld'
  refine (Returning.any _).bind ?_
  intro _ _
  refine (hheld'.write_behindY (by omega) _).bind ?_
  intro y'' hheld''
  refine (Returning.any _).bind ?_
  intro _ _
  exact Returning.ok ⟨rfl,hheld''⟩

end Sample
end IIR

namespace FilterKind
section Head
variable {kind : FilterKind} {N : ℕ} {b a : ℕ → α} {x s : ℤ → α} {n : ℤ} {f f' : Filter α}

/-- The position counts the samples since the last move. -/
lemma Head.advance (hhead : kind.Head N x s n f)
    (hposition : f'.contBuffer = nextPosition f.contBuffer+1)
    (hinputs : f'.initialDataFilter.arrayInputsX.Stores 0 N
      (fun j => x (n-nextPosition f.contBuffer-N+j)))
    (hsecond : kind.UsesY → f'.initialDataFilter.arrayInputsY.Stores 0 N
      (fun j => s (n-nextPosition f.contBuffer-N+j))) : kind.Head N x s (n+1) f' := by
  have hshift : n+1-f'.contBuffer = n-nextPosition f.contBuffer := by
    rw [hposition]
    ring
  refine ⟨?_,?_,?_⟩
  · intro hn
    have hcount := hhead.position (by omega)
    rw [hposition,hcount,nextPosition_of_lt (by omega)]
  · rw [hshift]
    exact hinputs
  · rw [hshift]
    exact hsecond

/-- Without its position, a filter is back at its last move. -/
theorem Head.rewind (hhead : kind.Head N x s n f) (h : kind.Running N b a x s n f)
    (sys : Allocator) (heap : Heap) :
    kind.Running N b a x s (n-f.contBuffer)
      (Filter.setInitialDataFilter sys heap f.initialDataFilter).1 where
  position_nonneg := le_rfl
  position_le := Int.natCast_nonneg bufferSize
  room := h.room
  tracks := ⟨h.tracks.order,h.tracks.coefficients,hhead.inputs⟩
  roomY := h.roomY
  tracksY hy := ⟨(h.tracksY hy).coefficients,hhead.second hy⟩

/-- At its first sample a filter has not moved anything. -/
lemma Running.head (h : kind.Running N b a x s 0 f) (h0 : f.contBuffer = 0) :
    kind.Head N x s 0 f := by
  have hwindow := h.tracks.window
  rw [h0] at hwindow
  refine ⟨fun _ => h0,by simpa only [h0,sub_zero] using hwindow,fun hy => ?_⟩
  have hwindowY := (h.tracksY hy).window
  rw [h0] at hwindowY
  simpa only [h0,sub_zero] using hwindowY

variable [Zero α] [Add α] [Sub α] [Mul α]

theorem Head.step (hhead : kind.Head N x s n f) (h : kind.Running N b a x s n f) (v : α) :
    Returning (kind.process f v) (fun r => kind.Head N x s (n+1) r.2) := by
  cases kind with
  | fir form =>
    simp only [process,FIR.sample_eq]
    refine (h.toRunning.directForm_head hhead.inputs v).mono ?_
    intro r hr
    exact hhead.advance hr.1 hr.2 False.elim
  | iirFormI =>
    have hheld := And.intro hhead.inputs (hhead.second trivial)
    refine ((h.toIIR trivial).directFormI_head hheld v).mono ?_
    intro r hr
    exact hhead.advance hr.1 hr.2.1 (fun _ => hr.2.2)
  | iirFormII =>
    have hheld := And.intro hhead.inputs (hhead.second trivial)
    refine ((h.toIIR trivial).directFormII_head hheld v).mono ?_
    intro r hr
    exact hhead.advance hr.1 hr.2.1 (fun _ => hr.2.2)

theorem Head.feed (hhead : kind.Head N x s n f) (h : kind.Running N b a x s n f) (hn : 0 ≤ n)
    (hs : ∀ t, 0 ≤ t → kind.SolvesAt N b a x s t) (L : ℕ) :
    Yields (Foundation.feed kind.process f (samples x n L))
      (fun r => kind.Running N b a x s (n+L) r.2 ∧ kind.Head N x s (n+L) r.2) := by
  refine (feed_yields (fun t f => kind.Running N b a x s t f ∧ kind.Head N x s t f) x
    (kind.answer N b x s) ?_ hn ⟨h,hhead⟩ L).mono (fun _ hr => hr.2)
  intro t f' ht hf
  refine ((hf.1.step (hs t ht)).and_returning (hf.2.step hf.1 (x t))).mono ?_
  intro r hr
  exact ⟨hr.1.1,hr.1.2,hr.2⟩

/-- A new filter stands at the start of its arrays. -/
lemma start_position (kind : FilterKind) (sys : Allocator) (h : Heap) (d : DataFilter α) (N : ℕ)
    (x b y a : ℕ → α) :
    Returning (kind.start sys h d N x b y a) (fun f => f.contBuffer = 0) := by
  cases kind <;>
    exact (Returning.any _).bind (fun _ _ => Returning.ok rfl)

end Head

section Restart
variable [Zero α] [Add α] [Sub α] [Mul α]

/-- A filter that has processed `before`, is attached to its `DataFilter` again and goes on with
`inputs`. -/
def restarted (kind : FilterKind) (sys : Supply) (h h' : Heap) (d : DataFilter α) (N : ℕ)
    (x b y a : ℕ → α) (before inputs : List α) : Checked (List α × Filter α) := do
  let f ← kind.start sys h d N x b y a
  let (_,f) ← feed kind.process f before
  feed kind.process (Filter.setInitialDataFilter sys h' f.initialDataFilter).1 inputs

/-- After `n` samples, whatever they are, a second `setInitialDataFilter` restarts the filter:
from then on it returns what a new filter with the same coefficients and histories returns. -/
def RestartsAfter (α : Type*) [Zero α] [Add α] [Sub α] [Mul α] (kind : FilterKind) (N n : ℕ) :
    Prop :=
  ∀ (sys : Allocator) (h₁ h₁' h₂ : Heap) (d₁ d₂ : DataFilter α) (x b y a : ℕ → α)
    (before inputs : List α), before.length = n →
    SameResponse (N+bufferSize ≤ sys.room (d₁.filterOrder+bufferSize) ∧
        N+bufferSize ≤ sys.room (d₂.filterOrder+bufferSize))
      (kind.restarted sys h₁ h₁' d₁ N x b y a before inputs)
      (kind.response sys h₂ d₂ N x b y a inputs)

lemma restarted_follows (kind : FilterKind) {sys sys' : Allocator}
    (hroom : ∀ n, sys.room n ≤ sys'.room n) (h h' : Heap) (d : DataFilter α) (N : ℕ)
    (x b y a : ℕ → α) (before inputs : List α) :
    Follows SameOutputsSoFar (kind.restarted sys h h' d N x b y a before inputs)
      (kind.restarted sys' h h' d N x b y a before inputs) := by
  refine (kind.start_follows hroom h h d N x b y a).bind ?_
  intro f f' hf
  refine (kind.feed_follows hf before).bind ?_
  intro r r' hr
  exact kind.feed_follows (Filter.setInitialDataFilter_roomier _ _ _ _ hr.2.data) inputs

/-- The restarted filter goes on from its last move, at most `BUFFER_SIZE` samples ago: up to
that number of samples this is time 0. -/
theorem restarted_rewinds (kind : FilterKind) {sys : Allocator} (h h' : Heap) {d : DataFilter α}
    {N : ℕ} {xPast b yPast a : ℕ → α} {x s : ℤ → α} (before : List α)
    (hstart : Yields (kind.start sys h d N xPast b yPast a) (kind.Running N b a x s 0))
    (hsolves : ∀ t, 0 ≤ t → kind.SolvesAt N b a x s t)
    (hbefore : samples x 0 before.length = before) :
    ∃ (f : Filter α) (m : ℤ), kind.Running N b a x s m f ∧ before.length-bufferSize ≤ m ∧
      (before.length ≤ bufferSize → m = 0) ∧
      ∀ inputs, kind.restarted sys h h' d N xPast b yPast a before inputs =
        feed kind.process f inputs := by
  obtain ⟨f₀,hf₀,hrun₀,hposition₀⟩ :=
    hstart.and_returning (kind.start_position sys h d N xPast b yPast a)
  have hfeed := (hrun₀.head hposition₀).feed hrun₀ le_rfl hsolves before.length
  rw [hbefore,zero_add] at hfeed
  obtain ⟨⟨os,f⟩,hf,hrun,hhead⟩ := hfeed
  refine ⟨_,_,hhead.rewind hrun sys h',?_,?_,?_⟩
  · have hle := hrun.position_le
    omega
  · intro hfew
    have hposition := hhead.position (by omega)
    omega
  · intro inputs
    simp only [restarted,hf₀,ok_bind,hf]

/-- As long as nothing has been moved, the restarted filter is a new one. -/
lemma restarted_sameOutputs (kind : FilterKind) (sys : Allocator) (h₁ h₁' h₂ : Heap)
    (d₁ d₂ : DataFilter α) (N : ℕ) (hN : 1 ≤ N) (x b y a : ℕ → α) (before inputs : List α)
    (hfew : before.length ≤ bufferSize)
    (hroom₁ : N+bufferSize ≤ sys.room (d₁.filterOrder+bufferSize))
    (hroom₂ : N+bufferSize ≤ sys.room (d₂.filterOrder+bufferSize)) :
    ∃ outputs,
      Yields (kind.restarted sys h₁ h₁' d₁ N x b y a before inputs) (fun r => r.1 = outputs) ∧
      Yields (kind.response sys h₂ d₂ N x b y a inputs) (fun r => r.1 = outputs) := by
  obtain ⟨x',hpast,hbefore⟩ := exists_signal (ofHistory N x) before
  obtain ⟨s,hsolves,hstart⟩ := exists_running kind N hN b a x' y (history_of_agree hpast)
  obtain ⟨f₁,m,hrun₁,-,hzero,hrestarted⟩ :=
    kind.restarted_rewinds h₁ h₁' before (hstart sys h₁ d₁ hroom₁) hsolves hbefore
  obtain ⟨f₂,hf₂,hrun₂⟩ := hstart sys h₂ d₂ hroom₂
  rw [hzero hfew] at hrun₁
  simp only [hrestarted,response,hf₂,ok_bind]
  exact hrun₁.sameOutputs hrun₂ (fun _ _ _ => rfl) (fun _ _ _ => rfl) inputs

theorem restartsAfter_of_le (kind : FilterKind) {N n : ℕ} (hN : 1 ≤ N) (hn : n ≤ bufferSize) :
    RestartsAfter α kind N n := by
  intro sys h₁ h₁' h₂ d₁ d₂ x b y a before inputs hlength
  have hmore := sys.room_le_atLeast (N+bufferSize)
  apply sameResponse_of_follows ?_ (kind.restarted_follows hmore h₁ h₁' d₁ N x b y a before inputs)
    (kind.response_follows hmore h₂ d₂ N x b y a inputs)
  · exact kind.restarted_sameOutputs _ h₁ h₁' h₂ d₁ d₂ N hN x b y a before inputs (by omega)
      (sys.le_room_atLeast _ _) (sys.le_room_atLeast _ _)
  · intro hroom
    exact kind.restarted_sameOutputs sys h₁ h₁' h₂ d₁ d₂ N hN x b y a before inputs (by omega)
      hroom.1 hroom.2

end Restart

section Poleless
universe u
variable {R : Type u} [CommRing R]

/-- The second signal of a filter whose poles are all zero: direct form I keeps its outputs,
direct form II its inputs. -/
def poleless (kind : FilterKind) (N : ℕ) (b : ℕ → R) (x : ℤ → R) : ℤ → R :=
  match kind with
  | .fir _ => x
  | .iirFormI => convolve N b x
  | .iirFormII => x

lemma solvesAt_poleless (kind : FilterKind) (N : ℕ) (b : ℕ → R) (x : ℤ → R) (n : ℤ) :
    kind.SolvesAt N b 0 x (kind.poleless N b x) n := by
  cases kind <;> simp [SolvesAt,poleless,feedback_zero]

lemma answer_poleless (kind : FilterKind) (N : ℕ) (b : ℕ → R) (x : ℤ → R) (n : ℤ) :
    kind.answer N b x (kind.poleless N b x) n = convolve N b x n := by
  cases kind <;> rfl

lemma poleless_congr (kind : FilterKind) (N : ℕ) (b : ℕ → R) {x x' : ℤ → R} {n : ℤ}
    (h : ∀ t < n, x t = x' t) {t : ℤ} (ht : t < n) :
    kind.poleless N b x t = kind.poleless N b x' t := by
  cases kind with
  | fir form => exact h t ht
  | iirFormI => exact convolve_congr (fun u _ hu => h u (by omega))
  | iirFormII => exact h t ht

lemma isAuxiliary_poleless (N : ℕ) (x : ℤ → R) : IsAuxiliary N 0 x x where
  start := rfl
  step m _ := by simp [feedback_zero]

lemma start_poleless (kind : FilterKind) (sys : Allocator) (h : Heap) (d : DataFilter R) (N : ℕ)
    (hN : 1 ≤ N) (b : ℕ → R) {x : ℤ → R} (hx : ∀ t < 0, x t = 0)
    (hroom : N+bufferSize ≤ sys.room (d.filterOrder+bufferSize)) :
    Yields (kind.start sys h d N 0 b 0 0) (kind.Running N b 0 x (kind.poleless N b x) 0) := by
  have hpast : ∀ j < N, (0 : ℕ → R) j = history N x j := fun j hj => (hx (j-N) (by omega)).symm
  cases kind with
  | fir form =>
    exact (FIR.start_yields sys h d N b hpast hroom).mono (fun _ hf => running_of_FIR hf)
  | iirFormI =>
    have hpastY : ∀ j < N, (0 : ℕ → R) j = history N (convolve N b x) j :=
      fun j hj => (convolve_of_zero_past hx (n := j-N) (by omega)).symm
    exact (IIR.startFormI_yields sys h d N b 0 hpast hpastY hroom).mono
      (fun _ hf => running_of_IIR hf)
  | iirFormII =>
    exact (IIR.startFormII_yields sys h d N b 0 hpast hN (isAuxiliary_poleless N x) hroom).mono
      (fun _ hf => running_of_IIR hf)

/-- The next output of a delay by one sample is the last input. -/
lemma Running.delay {kind : FilterKind} {N : ℕ} (hN : 1 ≤ N) {x : ℤ → R} {n : ℤ} (hn : 0 ≤ n)
    {f : Filter R}
    (h : kind.Running N (Pi.single 1 1) 0 x (kind.poleless N (Pi.single 1 1) x) n f) (v : R) :
    Yields (Foundation.feed kind.process f [v]) (fun r => r.1 = [x (n-1)]) := by
  let x' := Function.update x n v
  have hbefore : ∀ t < n, x t = x' t := fun t ht => (Function.update_of_ne (by omega) _ _).symm
  have hrun : kind.Running N (Pi.single 1 1) 0 x' (kind.poleless N (Pi.single 1 1) x') n f :=
    h.retime (fun j hj => hbefore _ (by omega))
      (fun _ j hj => kind.poleless_congr N _ hbefore (by omega))
  have hfeed := (hrun.feed hn (fun t _ => kind.solvesAt_poleless N _ x' t) 1).mono
    (fun _ hr => hr.1)
  simp only [samples,answer_poleless,convolve_single hN] at hfeed
  rw [show x' n = v from Function.update_self _ _ _] at hfeed
  rwa [show x (n-1) = x' (n-(1 : ℕ)) from hbefore _ (by omega)]

/-- A delay by one sample that is restarted after a move returns an old input where a new filter
returns its history. -/
theorem not_restartsAfter [Nontrivial R] (kind : FilterKind) {N n : ℕ} (hN : 1 ≤ N)
    (hn : bufferSize < n) : ¬ RestartsAfter R kind N n := by
  intro hall
  let x : ℤ → R := startedAt 0 (fun _ => 1)
  have hx : ∀ t < 0, x t = 0 := fun t ht => startedAt_of_lt _ ht
  have hroom := DataFilter.room_blank R N
  have hstart := kind.start_poleless Allocator.bump ⟨∅,0⟩ (DataFilter.blank R N) N hN
    (Pi.single 1 1) hx hroom
  obtain ⟨f,m,hrun,hm,-,hrestarted⟩ := kind.restarted_rewinds ⟨∅,0⟩ ⟨∅,0⟩ (samples x 0 n) hstart
    (fun t _ => kind.solvesAt_poleless N _ x t) (by simp)
  obtain ⟨f₀,hf₀,hrun₀⟩ := hstart
  rw [samples_length] at hm
  obtain ⟨outputs,hout,hout₀⟩ := (hall Allocator.bump ⟨∅,0⟩ ⟨∅,0⟩ ⟨∅,0⟩ (DataFilter.blank R N)
    (DataFilter.blank R N) 0 (Pi.single 1 1) 0 0 (samples x 0 n) [0] (by simp)).1 ⟨hroom,hroom⟩
  simp only [response,hf₀,ok_bind] at hout₀
  rw [hrestarted] at hout
  obtain ⟨r,hr,hlast⟩ := hrun.delay hN (by omega) 0
  obtain ⟨r₀,hr₀,hfirst⟩ := hrun₀.delay hN le_rfl 0
  have hvalue := hout.returning r hr
  have hvalue₀ := hout₀.returning r₀ hr₀
  rw [← hvalue₀,hlast,hfirst] at hvalue
  have hone : x (m-1) = 1 := startedAt_of_le _ (by omega)
  have hzero : x (0-1) = 0 := hx _ (by omega)
  rw [hone,hzero] at hvalue
  simp at hvalue

/-- A second `setInitialDataFilter` restarts a filter exactly as long as at most `BUFFER_SIZE`
samples have been processed. Up to there it does so in every arithmetic. -/
theorem restarts_iff_nothing_moved (kind : FilterKind) (N : ℕ) (hN : 1 ≤ N) (n : ℕ) :
    (n ≤ bufferSize → ∀ (α : Type u) [Zero α] [Add α] [Sub α] [Mul α],
      RestartsAfter α kind N n) ∧
    ∀ (R : Type u) [CommRing R] [Nontrivial R], RestartsAfter R kind N n ↔ n ≤ bufferSize := by
  constructor
  · intro hn α _ _ _ _
    exact kind.restartsAfter_of_le hN hn
  · intro R _ _
    constructor
    · intro h
      by_contra hn
      exact kind.not_restartsAfter hN (not_le.mp hn) h
    · exact kind.restartsAfter_of_le hN

end Poleless
end FilterKind

theorem FilterKind.restarts_iff_nothing_moved_order_three :
    RestartsAfter ℤ .iirFormII 3 10 ∧ ¬ RestartsAfter ℤ .iirFormII 3 11 :=
  ⟨((FilterKind.restarts_iff_nothing_moved .iirFormII 3 (by decide) 10).2 ℤ).mpr (by decide),
    fun h => absurd (((FilterKind.restarts_iff_nothing_moved .iirFormII 3 (by decide) 11).2 ℤ).mp h)
      (by decide)⟩

/-- The FIR filter `y[n] = x[n-1]` with history 0: restarted after eleven samples of value 1, it
answers 1 to the next sample, and a new filter answers 0. -/
theorem FilterKind.restarted_after_a_move :
    ¬ SameResponse (1+bufferSize ≤ Allocator.bump.room ((DataFilter.blank ℤ 1).filterOrder+bufferSize) ∧
        1+bufferSize ≤ Allocator.bump.room ((DataFilter.blank ℤ 1).filterOrder+bufferSize))
      ((FilterKind.fir .formI).restarted Allocator.bump ⟨∅,0⟩ ⟨∅,0⟩ (DataFilter.blank ℤ 1) 1
        (fun _ => 0) (fun k => (k : ℤ)) (fun _ => 0) (fun _ => 0) (List.replicate 11 1) [0])
      ((FilterKind.fir .formI).response Allocator.bump ⟨∅,0⟩ (DataFilter.blank ℤ 1) 1
        (fun _ => 0) (fun k => (k : ℤ)) (fun _ => 0) (fun _ => 0) [0]) := by
  have hold : Except.map Prod.fst ((FilterKind.fir .formI).restarted Allocator.bump ⟨∅,0⟩ ⟨∅,0⟩
      (DataFilter.blank ℤ 1) 1 (fun _ => 0) (fun k => (k : ℤ)) (fun _ => 0) (fun _ => 0)
      (List.replicate 11 1) [0]) = .ok [1] := by decide +kernel
  have hnew : Except.map Prod.fst ((FilterKind.fir .formI).response Allocator.bump ⟨∅,0⟩
      (DataFilter.blank ℤ 1) 1 (fun _ => 0) (fun k => (k : ℤ)) (fun _ => 0) (fun _ => 0) [0]) =
      .ok [0] := by decide +kernel
  exact not_sameResponse hold hnew (by decide)

end DspLibrary
