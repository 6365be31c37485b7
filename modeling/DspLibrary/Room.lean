import DspLibrary.Capacity
import DspLibrary.Foundation.Simulation
import DspLibrary.Kinds

/-! A run that returns does not depend on the room of its arrays: with larger blocks the same
calls return too, with the same outputs. So what holds of the outputs of filters with enough
room holds of all outputs that a filter ever returns. -/
namespace DspLibrary
open Foundation
variable {α : Type*}

/-- The same object in larger arrays. -/
structure DataFilter.Roomier (d d' : DataFilter α) : Prop where
  order : d.filterOrder = d'.filterOrder
  coefficientsB : d.arrayCoefficientsB.Extends d'.arrayCoefficientsB
  inputsX : d.arrayInputsX.Extends d'.arrayInputsX
  coefficientsA : d.arrayCoefficientsA.Extends d'.arrayCoefficientsA
  inputsY : d.arrayInputsY.Extends d'.arrayInputsY

structure Filter.Roomier (f f' : Filter α) : Prop where
  position : f.contBuffer = f'.contBuffer
  data : f.initialDataFilter.Roomier f'.initialDataFilter

lemma FuntionsMath.sum_follows [Zero α] [Add α] [Mul α] {B B' X X' : FloatBlock α}
    (hB : B.Extends B') (hX : X.Extends X') (upper lower c : ℤ) :
    Follows (fun v v' => v = v') (sum upper lower B X c) (sum upper lower B' X' c) := by
  have hbody : ∀ i (s s' : α × ℤ), s = s' →
      Follows (fun s s' => s = s') (sumBody upper B X i s) (sumBody upper B' X' i s') := by
    intro i s s' hs
    cases hs
    refine (hX.follows_read _).bind ?_
    intro w w' hw
    refine (hB.follows_read i).bind ?_
    intro v v' hv
    rw [hv,hw]
    exact Follows.ret rfl
  refine (Follows.forUpTo hbody rfl).bind ?_
  intro s s' hs
  rw [hs]
  exact Follows.ret rfl

namespace DataFilter

lemma copyLoop_follows {dst dst' : FloatBlock α} (h : dst.Extends dst') (count offset : ℤ)
    (src : FloatBlock α) :
    Follows Block.Extends (copyLoop count offset dst src) (copyLoop count offset dst' src) := by
  refine Follows.forUpTo ?_ h
  intro i b b' hb
  refine ((Block.Extends.refl src).follows_read _).bind ?_
  intro v v' hv
  rw [hv]
  exact hb.follows_write i v'

lemma moveArray_follows {d d' : DataFilter α} (hd : d.Roomier d') {b b' : FloatBlock α}
    (h : b.Extends b') : Follows Block.Extends (d.moveArray b) (d'.moveArray b') := by
  unfold moveArray
  rw [hd.order]
  refine Follows.forUpTo ?_ h
  intro i b b' hb
  refine (hb.follows_read _).bind ?_
  intro v v' hv
  rw [hv]
  exact hb.follows_write i v'

lemma copyThen_follows {dst dst' src : FloatBlock α} {count count' offset : ℤ}
    {assign assign' : FloatBlock α → DataFilter α} (hcount : count = count')
    (h : dst.Extends dst')
    (hassign : ∀ q q', q.Extends q' → (assign q).Roomier (assign' q')) :
    Follows Roomier (copyLoop count offset dst src >>= fun q => pure (assign q))
      (copyLoop count' offset dst' src >>= fun q => pure (assign' q)) := by
  subst hcount
  refine (copyLoop_follows h count offset src).bind ?_
  intro q q' hq
  exact Follows.ret (hassign q q' hq)

section Setters
variable {d d' : DataFilter α} (hd : d.Roomier d') (p : FloatBlock α)
include hd

lemma setArrayCoefficientsB_follows :
    Follows Roomier (d.setArrayCoefficientsB p) (d'.setArrayCoefficientsB p) :=
  copyThen_follows (by rw [hd.order]) hd.coefficientsB
    (fun _ _ hq => { hd with coefficientsB := hq })

lemma setArrayInitialConditionsX_follows :
    Follows Roomier (d.setArrayInitialConditionsX p) (d'.setArrayInitialConditionsX p) :=
  copyThen_follows hd.order hd.inputsX (fun _ _ hq => { hd with inputsX := hq })

lemma setArrayCoefficientsA_follows :
    Follows Roomier (d.setArrayCoefficientsA p) (d'.setArrayCoefficientsA p) :=
  copyThen_follows hd.order hd.coefficientsA (fun _ _ hq => { hd with coefficientsA := hq })

lemma setArrayInitialConditionsY_follows :
    Follows Roomier (d.setArrayInitialConditionsY p) (d'.setArrayInitialConditionsY p) :=
  copyThen_follows hd.order hd.inputsY (fun _ _ hq => { hd with inputsY := hq })

lemma createArrayAux_follows [Zero α] [Add α] [Sub α] [Mul α] (sys sys' : Allocator)
    (h h' : Heap) :
    Follows (fun r r' => Roomier r.1 r'.1) (createArrayAux sys h d)
      (createArrayAux sys' h' d') := by
  simp only [createArrayAux,allocateMathOperation,hd.order]
  refine (hd.inputsX.follows_read 0).bind ?_
  intro v v' hv
  rw [hv]
  refine (hd.inputsY.follows_write 0 v').bind ?_
  intro y₀ y₀' hy₀
  refine (Follows.forUpTo (R := Block.Extends) ?_ hy₀).bind ?_
  · intro i y y' hy
    refine (FuntionsMath.sum_follows hd.coefficientsA hy i 0 0).bind ?_
    intro s s' hs
    refine (hd.inputsX.follows_read (i+1)).bind ?_
    intro w w' hw
    rw [hs,hw]
    exact hy.follows_write (i+1) _
  · intro y y' hy
    exact Follows.ret ⟨rfl,hd.coefficientsB,hd.inputsX,hd.coefficientsA,hy⟩

end Setters

section Overloads
variable {sys sys' : Allocator} (hroom : ∀ n, sys.room n ≤ sys'.room n) (h h' : Heap)
  (d : DataFilter α) (N : ℤ) (x b y a : FloatBlock α)
include hroom

lemma newDataFilterFIR_follows :
    Follows (fun r r' => Roomier r.1 r'.1) (newDataFilterFIR sys h d N x b)
      (newDataFilterFIR sys' h' d N x b) := by
  have hstart : (setFilterOrder (allocateFIR sys h d N).1 N).Roomier
      (setFilterOrder (allocateFIR sys' h' d N).1 N) :=
    ⟨rfl,Block.extends_raw _ _ _ (hroom _),Block.extends_raw _ _ _ (hroom _),.refl _,.refl _⟩
  refine (setArrayInitialConditionsX_follows hstart x).bind ?_
  intro d₁ d₁' h₁
  refine (setArrayCoefficientsB_follows h₁ b).bind ?_
  intro d₂ d₂' h₂
  exact Follows.ret h₂

lemma allocateIIR_roomier :
    (setFilterOrder (allocateIIR sys h d N).1 N).Roomier
      (setFilterOrder (allocateIIR sys' h' d N).1 N) :=
  ⟨rfl,Block.extends_raw _ _ _ (hroom _),Block.extends_raw _ _ _ (hroom _),
    Block.extends_raw _ _ _ (hroom _),Block.extends_raw _ _ _ (hroom _)⟩

lemma newDataFilterIIRFormI_follows :
    Follows (fun r r' => Roomier r.1 r'.1) (newDataFilterIIRFormI sys h d N x b y a)
      (newDataFilterIIRFormI sys' h' d N x b y a) := by
  have hstart := allocateIIR_roomier hroom h h' d N
  refine (setArrayInitialConditionsX_follows hstart x).bind ?_
  intro d₁ d₁' h₁
  refine (setArrayCoefficientsB_follows h₁ b).bind ?_
  intro d₂ d₂' h₂
  refine (setArrayInitialConditionsY_follows h₂ y).bind ?_
  intro d₃ d₃' h₃
  refine (setArrayCoefficientsA_follows h₃ a).bind ?_
  intro d₄ d₄' h₄
  exact Follows.ret h₄

lemma newDataFilterIIRFormII_follows [Zero α] [Add α] [Sub α] [Mul α] :
    Follows (fun r r' => Roomier r.1 r'.1) (newDataFilterIIRFormII sys h d N x b a)
      (newDataFilterIIRFormII sys' h' d N x b a) := by
  have hstart := allocateIIR_roomier hroom h h' d N
  refine (setArrayInitialConditionsX_follows hstart x).bind ?_
  intro d₁ d₁' h₁
  refine (setArrayCoefficientsB_follows h₁ b).bind ?_
  intro d₂ d₂' h₂
  refine (setArrayCoefficientsA_follows h₂ a).bind ?_
  intro d₃ d₃' h₃
  exact createArrayAux_follows h₃ sys sys' _ _

end Overloads
end DataFilter

lemma Filter.setInitialDataFilter_roomier (sys sys' : Allocator) (h h' : Heap)
    {d d' : DataFilter α} (hd : d.Roomier d') :
    (setInitialDataFilter sys h d).1.Roomier (setInitialDataFilter sys' h' d').1 :=
  ⟨rfl,hd⟩

section Samples

lemma FIR.moveIfFull_follows {f f' : Filter α} (hf : f.Roomier f') :
    Follows (fun r r' => r.1.Extends r'.1 ∧ r.2 = r'.2) (moveIfFull f) (moveIfFull f') := by
  unfold moveIfFull
  rw [hf.position]
  split
  · refine (DataFilter.moveArray_follows hf.data hf.data.inputsX).bind ?_
    intro x x' hx
    exact Follows.ret ⟨hx,rfl⟩
  · exact Follows.ret ⟨hf.data.inputsX,rfl⟩

lemma IIR.moveIfFull_follows {f f' : Filter α} (hf : f.Roomier f') :
    Follows (fun r r' => r.1.Extends r'.1 ∧ r.2.1.Extends r'.2.1 ∧ r.2.2 = r'.2.2)
      (moveIfFull f) (moveIfFull f') := by
  unfold moveIfFull
  rw [hf.position]
  split
  · refine (DataFilter.moveArray_follows hf.data hf.data.inputsX).bind ?_
    intro x x' hx
    refine (DataFilter.moveArray_follows hf.data hf.data.inputsY).bind ?_
    intro y y' hy
    exact Follows.ret ⟨hx,hy,rfl⟩
  · exact Follows.ret ⟨hf.data.inputsX,hf.data.inputsY,rfl⟩

/-- The same answer, and states that stay related. -/
def SameAnswer (r r' : α × Filter α) : Prop := r.1 = r'.1 ∧ r.2.Roomier r'.2

variable [Zero α] [Add α] [Sub α] [Mul α]

omit [Sub α] in
lemma FIR.directForm_follows {f f' : Filter α} (hf : f.Roomier f') (pData : α) :
    Follows SameAnswer (directForm f pData) (directForm f' pData) := by
  have hd := hf.data
  simp only [directForm,hd.order]
  refine (FIR.moveIfFull_follows hf).bind ?_
  intro r r' hr
  obtain ⟨x,c⟩ := r
  obtain ⟨x',c'⟩ := r'
  obtain ⟨hx,hc⟩ := hr
  cases hc
  refine (hx.follows_write _ pData).bind ?_
  intro z z' hz
  refine (FuntionsMath.sum_follows hd.coefficientsB hz _ _ c).bind ?_
  intro v v' hv
  exact Follows.ret ⟨hv,rfl,rfl,hd.coefficientsB,hz,hd.coefficientsA,hd.inputsY⟩

lemma IIR.directFormI_follows {f f' : Filter α} (hf : f.Roomier f') (pData : α) :
    Follows SameAnswer (directFormI f pData) (directFormI f' pData) := by
  have hd := hf.data
  simp only [directFormI,hd.order]
  refine (IIR.moveIfFull_follows hf).bind ?_
  intro r r' hr
  obtain ⟨x,y,c⟩ := r
  obtain ⟨x',y',c'⟩ := r'
  obtain ⟨hx,hy,hc⟩ := hr
  cases hc
  refine (hx.follows_write _ pData).bind ?_
  intro z z' hz
  refine (FuntionsMath.sum_follows hd.coefficientsB hz _ _ c).bind ?_
  intro v v' hv
  refine (FuntionsMath.sum_follows hd.coefficientsA hy _ _ c).bind ?_
  intro w w' hw
  rw [hv,hw]
  refine (hy.follows_write _ _).bind ?_
  intro q q' hq
  exact Follows.ret ⟨rfl,rfl,rfl,hd.coefficientsB,hz,hd.coefficientsA,hq⟩

lemma IIR.directFormII_follows {f f' : Filter α} (hf : f.Roomier f') (pData : α) :
    Follows SameAnswer (directFormII f pData) (directFormII f' pData) := by
  have hd := hf.data
  simp only [directFormII,hd.order]
  refine (IIR.moveIfFull_follows hf).bind ?_
  intro r r' hr
  obtain ⟨x,v,c⟩ := r
  obtain ⟨x',v',c'⟩ := r'
  obtain ⟨hx,hv,hc⟩ := hr
  cases hc
  refine (hx.follows_write _ pData).bind ?_
  intro z z' hz
  refine (FuntionsMath.sum_follows hd.coefficientsA hv _ _ c).bind ?_
  intro w w' hw
  rw [hw]
  refine (hv.follows_write _ _).bind ?_
  intro q q' hq
  refine (FuntionsMath.sum_follows hd.coefficientsB hq _ _ c).bind ?_
  intro s s' hs
  exact Follows.ret ⟨hs,rfl,rfl,hd.coefficientsB,hz,hd.coefficientsA,hq⟩

end Samples

section Starts
variable {sys sys' : Allocator} (hroom : ∀ n, sys.room n ≤ sys'.room n) (h h' : Heap)
  (d : DataFilter α) (N : ℕ) (x b y a : ℕ → α)
include hroom

theorem FIR.start_follows :
    Follows Filter.Roomier (start sys h d N x b) (start sys' h' d N x b) := by
  refine (DataFilter.newDataFilterFIR_follows hroom h h' d N _ _).bind ?_
  intro r r' hr
  exact Follows.ret (Filter.setInitialDataFilter_roomier _ _ _ _ hr)

theorem IIR.startFormI_follows :
    Follows Filter.Roomier (startFormI sys h d N x b y a) (startFormI sys' h' d N x b y a) := by
  refine (DataFilter.newDataFilterIIRFormI_follows hroom h h' d N _ _ _ _).bind ?_
  intro r r' hr
  exact Follows.ret (Filter.setInitialDataFilter_roomier _ _ _ _ hr)

theorem IIR.startFormII_follows [Zero α] [Add α] [Sub α] [Mul α] :
    Follows Filter.Roomier (startFormII sys h d N x b a) (startFormII sys' h' d N x b a) := by
  refine (DataFilter.newDataFilterIIRFormII_follows hroom h h' d N _ _ _).bind ?_
  intro r r' hr
  exact Follows.ret (Filter.setInitialDataFilter_roomier _ _ _ _ hr)

end Starts
section Responses
variable [Zero α] [Add α] [Sub α] [Mul α]

/-- Equal outputs, and states that differ in their room only. -/
def SameOutputsSoFar (r r' : List α × Filter α) : Prop := r.1 = r'.1 ∧ r.2.Roomier r'.2

omit [Sub α] in
theorem FIR.feed_follows {f f' : Filter α} (hf : f.Roomier f') (inputs : List α) :
    Follows SameOutputsSoFar (feed directFormI f inputs) (feed directFormI f' inputs) :=
  Follows.feed (fun v _ _ h => FIR.directForm_follows h v) inputs hf

theorem IIR.feedFormI_follows {f f' : Filter α} (hf : f.Roomier f') (inputs : List α) :
    Follows SameOutputsSoFar (feed directFormI f inputs) (feed directFormI f' inputs) :=
  Follows.feed (fun v _ _ h => IIR.directFormI_follows h v) inputs hf

theorem IIR.feedFormII_follows {f f' : Filter α} (hf : f.Roomier f') (inputs : List α) :
    Follows SameOutputsSoFar (feed directFormII f inputs) (feed directFormII f' inputs) :=
  Follows.feed (fun v _ _ h => IIR.directFormII_follows h v) inputs hf

omit [Sub α] in
lemma FIR.response_follows {sys sys' : Allocator} (hroom : ∀ n, sys.room n ≤ sys'.room n)
    (h : Heap) (d : DataFilter α) (N : ℕ) (x b : ℕ → α) (inputs : List α) :
    Follows SameOutputsSoFar (start sys h d N x b >>= fun f => feed directFormI f inputs)
      (start sys' h d N x b >>= fun f => feed directFormI f inputs) :=
  (start_follows hroom h h d N x b).bind (fun _ _ hf => feed_follows hf inputs)

lemma IIR.responseFormI_follows {sys sys' : Allocator} (hroom : ∀ n, sys.room n ≤ sys'.room n)
    (h : Heap) (d : DataFilter α) (N : ℕ) (x b y a : ℕ → α) (inputs : List α) :
    Follows SameOutputsSoFar
      (startFormI sys h d N x b y a >>= fun f => feed directFormI f inputs)
      (startFormI sys' h d N x b y a >>= fun f => feed directFormI f inputs) :=
  (startFormI_follows hroom h h d N x b y a).bind
    (fun _ _ hf => feedFormI_follows hf inputs)

lemma IIR.responseFormII_follows {sys sys' : Allocator} (hroom : ∀ n, sys.room n ≤ sys'.room n)
    (h : Heap) (d : DataFilter α) (N : ℕ) (x b a : ℕ → α) (inputs : List α) :
    Follows SameOutputsSoFar
      (startFormII sys h d N x b a >>= fun f => feed directFormII f inputs)
      (startFormII sys' h d N x b a >>= fun f => feed directFormII f inputs) :=
  (startFormII_follows hroom h h d N x b a).bind
    (fun _ _ hf => feedFormII_follows hf inputs)

namespace FilterKind
lemma start_follows (kind : FilterKind) {sys sys' : Allocator}
    (hroom : ∀ n, sys.room n ≤ sys'.room n) (h h' : Heap) (d : DataFilter α) (N : ℕ)
    (x b y a : ℕ → α) :
    Follows Filter.Roomier (kind.start sys h d N x b y a) (kind.start sys' h' d N x b y a) := by
  cases kind with
  | fir form => exact FIR.start_follows hroom h h' d N x b
  | iirFormI => exact IIR.startFormI_follows hroom h h' d N x b y a
  | iirFormII => exact IIR.startFormII_follows hroom h h' d N x b a

lemma process_follows (kind : FilterKind) {f f' : Filter α} (hf : f.Roomier f') (v : α) :
    Follows SameAnswer (kind.process f v) (kind.process f' v) := by
  cases kind with
  | fir form =>
    simp only [process,FIR.sample_eq]
    exact FIR.directForm_follows hf v
  | iirFormI => exact IIR.directFormI_follows hf v
  | iirFormII => exact IIR.directFormII_follows hf v

lemma feed_follows (kind : FilterKind) {f f' : Filter α} (hf : f.Roomier f') (inputs : List α) :
    Follows SameOutputsSoFar (feed kind.process f inputs) (feed kind.process f' inputs) :=
  Follows.feed (fun v _ _ h => kind.process_follows h v) inputs hf

lemma response_follows (kind : FilterKind) {sys sys' : Allocator}
    (hroom : ∀ n, sys.room n ≤ sys'.room n) (h : Heap) (d : DataFilter α) (N : ℕ)
    (x b y a : ℕ → α) (inputs : List α) :
    Follows SameOutputsSoFar (kind.response sys h d N x b y a inputs)
      (kind.response sys' h d N x b y a inputs) :=
  (kind.start_follows hroom h h d N x b y a).bind (fun _ _ hf => kind.feed_follows hf inputs)

end FilterKind
end Responses

/-- With enough room both computations return, and with the same outputs. Without it either of
them may stop at an access outside its arrays, but outputs that both return are the same. -/
def SameResponse (room : Prop) (c₁ c₂ : Checked (List α × Filter α)) : Prop :=
  (room → ∃ outputs, Yields c₁ (fun r => r.1 = outputs) ∧ Yields c₂ (fun r => r.1 = outputs)) ∧
    ∀ r₁ r₂, c₁ = .ok r₁ → c₂ = .ok r₂ → r₁.1 = r₂.1

/-- What roomier computations return determines what the given ones can return. -/
lemma outputs_eq_of_follows {c₁ c₂ c₁' c₂' : Checked (List α × Filter α)}
    (h₁ : Follows SameOutputsSoFar c₁ c₁') (h₂ : Follows SameOutputsSoFar c₂ c₂')
    {outputs : List α} (ho₁ : Yields c₁' (fun r => r.1 = outputs))
    (ho₂ : Yields c₂' (fun r => r.1 = outputs)) {r₁ r₂ : List α × Filter α}
    (hr₁ : c₁ = .ok r₁) (hr₂ : c₂ = .ok r₂) : r₁.1 = r₂.1 := by
  obtain ⟨r₁',hr₁',hsame₁⟩ := h₁ r₁ hr₁
  obtain ⟨r₂',hr₂',hsame₂⟩ := h₂ r₂ hr₂
  obtain ⟨q₁,hq₁,hout₁⟩ := ho₁
  obtain ⟨q₂,hq₂,hout₂⟩ := ho₂
  cases hr₁'.symm.trans hq₁
  cases hr₂'.symm.trans hq₂
  rw [hsame₁.1,hout₁,hsame₂.1,hout₂]

lemma not_sameResponse {room : Prop} {c₁ c₂ : Checked (List α × Filter α)} {o₁ o₂ : List α}
    (h₁ : Except.map Prod.fst c₁ = .ok o₁) (h₂ : Except.map Prod.fst c₂ = .ok o₂)
    (hne : o₁ ≠ o₂) : ¬ SameResponse room c₁ c₂ := by
  intro h
  cases c₁ with
  | error e => cases h₁
  | ok r₁ =>
    cases c₂ with
    | error e => cases h₂
    | ok r₂ =>
      have hsame := h.2 r₁ r₂ rfl rfl
      cases h₁
      cases h₂
      exact hne hsame

/-- Outputs that agree with enough room, and agree in larger arrays. -/
lemma sameResponse_of_follows {room : Prop} {c₁ c₂ c₁' c₂' : Checked (List α × Filter α)}
    (hroom : room → ∃ outputs, Yields c₁ (fun r => r.1 = outputs) ∧
      Yields c₂ (fun r => r.1 = outputs))
    (h₁ : Follows SameOutputsSoFar c₁ c₁') (h₂ : Follows SameOutputsSoFar c₂ c₂')
    (hlarge : ∃ outputs, Yields c₁' (fun r => r.1 = outputs) ∧
      Yields c₂' (fun r => r.1 = outputs)) : SameResponse room c₁ c₂ := by
  obtain ⟨outputs,ho₁,ho₂⟩ := hlarge
  exact ⟨hroom,fun r₁ r₂ hr₁ hr₂ => outputs_eq_of_follows h₁ h₂ ho₁ ho₂ hr₁ hr₂⟩

/-- The outputs of the first filter, fed to the second one, give back the inputs: with enough
room both return, and in any case what comes out of both is the inputs. -/
def Undone (room : Prop) (first second : List α → Checked (List α × Filter α))
    (inputs : List α) : Prop :=
  (room → ∃ u, Yields (first inputs) (fun r => r.1 = u) ∧
    Yields (second u) (fun r => r.1 = inputs)) ∧
  ∀ r s, first inputs = .ok r → second r.1 = .ok s → s.1 = inputs

lemma undone_of_follows {room : Prop} {first second first' second' : List α →
    Checked (List α × Filter α)} {inputs : List α}
    (hroom : room → ∃ u, Yields (first inputs) (fun r => r.1 = u) ∧
      Yields (second u) (fun r => r.1 = inputs))
    (hfirst : ∀ is, Follows SameOutputsSoFar (first is) (first' is))
    (hsecond : ∀ is, Follows SameOutputsSoFar (second is) (second' is))
    (hundone : ∃ u, Yields (first' inputs) (fun r => r.1 = u) ∧
      Yields (second' u) (fun r => r.1 = inputs)) : Undone room first second inputs := by
  refine ⟨hroom,?_⟩
  intro r s hr hs
  obtain ⟨u,⟨q,hq,hu⟩,p,hp,hinputs⟩ := hundone
  obtain ⟨r',hr',hsame⟩ := hfirst inputs r hr
  cases hr'.symm.trans hq
  rw [hsame.1,hu] at hs
  obtain ⟨s',hs',hsame'⟩ := hsecond u s hs
  cases hs'.symm.trans hp
  rw [hsame'.1]
  exact hinputs

/-- A window read in smaller arrays is the window of the larger ones. -/
lemma IIR.Live.window_of_roomier {N room : ℕ} {f f' : Filter α} (h : Live N room f)
    (hf : f.Roomier f') {v : ℕ → α}
    (hv : f'.initialDataFilter.arrayInputsY.Stores f'.contBuffer N v) :
    f.initialDataFilter.arrayInputsY.Stores f.contBuffer N v := by
  obtain ⟨a,y,htracks⟩ := h.tracksY
  refine htracks.window.congr ?_
  intro j hj
  have hread := hf.data.inputsY.read _ _ (htracks.window j hj)
  rw [hf.position,hv j hj] at hread
  exact (Except.ok.inj hread).symm

end DspLibrary
