import DspLibrary.Reconfiguration

/-! Ownership over the life of a filter, from the allocation of its `DataFilter` to the run of
the destructors. The ledger follows the heap and the pointers only, since the cells of the arrays
have no effect on either. Every destruction releases two blocks twice, and leaves all blocks but
these two behind. -/
namespace DspLibrary
open Foundation
variable {α : Type*}

/-- The effect of an overload on the heap and on the pointers of the object. -/
def Overload.allocate (overload : Overload) (sys : Supply) (h : Heap) (d : DataFilter α)
    (pFilterOrder : ℤ) : DataFilter α × Heap :=
  match overload with
  | .fir => DataFilter.allocateFIR sys h d pFilterOrder
  | .iirFormI => DataFilter.allocateIIR sys h d pFilterOrder
  | .iirFormII =>
    let (d,h) := DataFilter.allocateIIR sys h d pFilterOrder
    DataFilter.allocateMathOperation sys h d

/-- The number of blocks an overload requests. -/
def Overload.requests : Overload → ℕ
  | .fir => 2
  | .iirFormI => 4
  | .iirFormII => 5

def FilterClass.derivedDestructor (object : FilterClass) (f : Filter α) : List ℕ :=
  match object with
  | .fir => FIR.destructor f
  | .iir => IIR.destructor f

/-- The body of the derived destructor, then the one of the base class. -/
def FilterClass.destructor (object : FilterClass) (f : Filter α) : List ℕ :=
  object.derivedDestructor f++f.destructor

/-- A call between the allocation of the `DataFilter` and the destruction of the filter. -/
inductive Call (α : Type*)
  | newDataFilter (overload : Overload) (pFilterOrder : ℤ) (pArrayInputsX pArrayCoefficientsB
      pArrayInputsY pArrayCoefficientsA : FloatBlock α)
  | setInitialDataFilter
  | sample (form : DirectForm) (pData : α)

namespace Call

def Configures : Call α → Prop
  | .newDataFilter .. => True
  | .setInitialDataFilter => False
  | .sample .. => False

def requests : Call α → ℕ
  | .newDataFilter overload .. => overload.requests
  | .setInitialDataFilter => 1
  | .sample .. => 0

/-- What the call does to the heap and to the pointers. The `DataFilter` is the one that the
filter points to, or will point to. -/
def ledger (sys : Supply) : Call α → Filter α × Heap → Filter α × Heap
  | .newDataFilter overload pFilterOrder _ _ _ _,(f,h) =>
    let (d,h) := overload.allocate sys h f.initialDataFilter pFilterOrder
    ({ f with initialDataFilter := d },h)
  | .setInitialDataFilter,(f,h) => Filter.setInitialDataFilter sys h f.initialDataFilter
  | .sample _ _,s => s

end Call

/-- The calls on one filter and its `DataFilter`, with at least one configuration and one
attachment. -/
structure Lifecycle (α : Type*) where
  object : FilterClass
  calls : List (Call α)
  configured : ∃ call ∈ calls, call.Configures
  attached : .setInitialDataFilter ∈ calls

/-- The allocation of the `DataFilter`; all other members hold what the memory held. -/
def allocateDataFilter (sys : Supply) (h : Heap) (memory : Filter α) : Filter α × Heap :=
  let (p,h) := sys.alloc h
  ({ memory with initialDataFilter := { memory.initialDataFilter with addr := p } },h)

def runLedger (sys : Supply) (calls : List (Call α)) (s : Filter α × Heap) :
    Filter α × Heap :=
  calls.foldl (fun s call => call.ledger sys s) s

namespace Lifecycle
variable (l : Lifecycle α) (sys : Allocator) (h : Heap) (memory : Filter α)

/-- The filter and the heap before the destruction. -/
def final : Filter α × Heap := runLedger sys l.calls (allocateDataFilter sys h memory)

/-- The pointers passed to `chHeapFree`. The library never runs `~DataFilter`; with `dataToo`
the owner runs it first. -/
def releases (dataToo : Bool) : List ℕ :=
  let f := (l.final sys h memory).1
  (if dataToo then f.initialDataFilter.destructor else [])++l.object.destructor f

/-- Every release is of a live block, and no block allocated in between is left. -/
def FreesExactlyOnce (dataToo : Bool) : Prop :=
  let live := (l.final sys h memory).2.live
  Heap.ReleasesLive live (l.releases sys h memory dataToo) ∧
    Heap.afterReleases live (l.releases sys h memory dataToo) ⊆ h.live

end Lifecycle

lemma FilterClass.derivedDestructor_eq (object : FilterClass) (f : Filter α) :
    object.derivedDestructor f = [f.mathOperation.addr,f.initialDataFilter.addr] := by
  cases object <;> rfl

lemma FilterClass.destructor_eq (object : FilterClass) (f : Filter α) :
    object.destructor f = [f.mathOperation.addr,f.initialDataFilter.addr,
      f.mathOperation.addr,f.initialDataFilter.addr] := by
  cases object <;> rfl

/-- No lifecycle frees exactly what it allocated, exactly once: the base class destructor
releases again what the derived one has released. -/
theorem Lifecycle.never_freesExactlyOnce (l : Lifecycle α) (sys : Allocator) (h : Heap)
    (memory : Filter α) (dataToo : Bool) : ¬ l.FreesExactlyOnce sys h memory dataToo := by
  intro hclean
  have hnodup := hclean.1.nodup
  simp only [Lifecycle.releases,FilterClass.destructor_eq] at hnodup
  have hlast := hnodup.of_append_right
  simp at hlast

/-- An IIR filter of order 3 in direct form I, as in `main`, without samples. -/
def Lifecycle.ofMain : Lifecycle ℤ where
  object := .iir
  calls := [.newDataFilter .iirFormI 3 (argument 3 fun _ => 0) (argument 4 fun k => k+1)
    (argument 3 fun _ => 0) (argument 4 fun k => k-1),.setInitialDataFilter]
  configured := ⟨_,List.mem_cons_self,trivial⟩
  attached := by simp

theorem Lifecycle.ofMain_releases_twice :
    ¬ Lifecycle.ofMain.FreesExactlyOnce Allocator.bump ⟨∅,0⟩ ⟨⟨0⟩,DataFilter.blank ℤ 3,0⟩
      false := by
  intro hclean
  exact absurd hclean.1.nodup (by decide)

section Ledger
variable (sys : Allocator)

lemma Overload.allocate_card (overload : Overload) (h : Heap) (d : DataFilter α) (N : ℤ) :
    (overload.allocate sys h d N).2.live.card = h.live.card+overload.requests := by
  cases overload <;>
    simp [allocate,requests,DataFilter.allocateFIR,DataFilter.allocateIIR,
      DataFilter.allocateMathOperation,Supply.allocBlock,Supply.alloc_card]

lemma Overload.subset_allocate (overload : Overload) (h : Heap) (d : DataFilter α) (N : ℤ) :
    h.live ⊆ (overload.allocate sys h d N).2.live := by
  have hgrow : ∀ {g : Heap}, h.live ⊆ g.live → h.live ⊆ (sys.alloc g).2.live :=
    fun hg => hg.trans (sys.subset_alloc _)
  have hfir := hgrow (sys.subset_alloc h)
  have hiir := hgrow (hgrow hfir)
  cases overload with
  | fir => exact hfir
  | iirFormI => exact hiir
  | iirFormII => exact hgrow hiir

lemma Overload.allocate_addr (overload : Overload) (h : Heap) (d : DataFilter α) (N : ℤ) :
    (overload.allocate sys h d N).1.addr = d.addr := by
  cases overload <;> rfl

/-- The `DataFilter` is live, and the filter has a helper object of its own. -/
structure Attached (s : Filter α × Heap) : Prop where
  owned : s.1.initialDataFilter.addr ∈ s.2.live
  helper : s.1.mathOperation.addr ∈ s.2.live
  distinct : s.1.mathOperation.addr ≠ s.1.initialDataFilter.addr

namespace Call
variable (call : Call α) (s : Filter α × Heap)

lemma ledger_card : (call.ledger sys s).2.live.card = s.2.live.card+call.requests := by
  cases call with
  | newDataFilter overload => exact overload.allocate_card sys _ _ _
  | setInitialDataFilter => exact sys.alloc_card s.2
  | sample => rfl

lemma subset_ledger : s.2.live ⊆ (call.ledger sys s).2.live := by
  cases call with
  | newDataFilter overload => exact overload.subset_allocate sys _ _ _
  | setInitialDataFilter => exact sys.subset_alloc s.2
  | sample => exact Finset.Subset.refl _

lemma ledger_addr :
    (call.ledger sys s).1.initialDataFilter.addr = s.1.initialDataFilter.addr := by
  cases call with
  | newDataFilter overload => exact overload.allocate_addr sys _ _ _
  | setInitialDataFilter => rfl
  | sample => rfl

lemma attached_of_attach (howned : s.1.initialDataFilter.addr ∈ s.2.live) :
    Attached ((setInitialDataFilter : Call α).ledger sys s) := by
  have hfresh := sys.alloc_fresh s.2
  refine ⟨subset_ledger sys _ s howned,Finset.mem_insert_self _ _,?_⟩
  intro heq
  have haddr : (sys.alloc s.2).1 = s.1.initialDataFilter.addr := heq
  rw [haddr] at hfresh
  exact hfresh howned

end Call

/-- A later call keeps the helper object or replaces it by a new one. -/
lemma Attached.ledger {s : Filter α × Heap} (hs : Attached s) (call : Call α) :
    Attached (call.ledger sys s) := by
  cases call with
  | newDataFilter overload N x b y a =>
    have hsubset := Call.subset_ledger sys (.newDataFilter overload N x b y a) s
    have haddr := Call.ledger_addr sys (.newDataFilter overload N x b y a) s
    refine ⟨haddr ▸ hsubset hs.owned,hsubset hs.helper,?_⟩
    rw [haddr]
    exact hs.distinct
  | setInitialDataFilter => exact Call.attached_of_attach sys s hs.owned
  | sample => exact hs

lemma runLedger_card (calls : List (Call α)) (s : Filter α × Heap) :
    (runLedger sys calls s).2.live.card = s.2.live.card+(calls.map Call.requests).sum := by
  induction calls generalizing s with
  | nil => rfl
  | cons call calls ih =>
    have htail := ih (call.ledger sys s)
    rw [call.ledger_card sys s] at htail
    simp only [runLedger,List.foldl_cons,List.map_cons,List.sum_cons] at htail ⊢
    omega

lemma Attached.runLedger {s : Filter α × Heap} (hs : Attached s) (calls : List (Call α)) :
    Attached (runLedger sys calls s) := by
  induction calls generalizing s with
  | nil => exact hs
  | cons call calls ih => exact ih (hs.ledger sys call)

/-- Once `setInitialDataFilter` has been called, the filter stays attached. -/
theorem attached_of_mem (calls : List (Call α)) {s : Filter α × Heap}
    (howned : s.1.initialDataFilter.addr ∈ s.2.live)
    (hmem : Call.setInitialDataFilter ∈ calls) : Attached (runLedger sys calls s) := by
  induction calls generalizing s with
  | nil => cases hmem
  | cons call calls ih =>
    obtain hhead | htail := List.mem_cons.mp hmem
    · subst hhead
      exact (Call.attached_of_attach sys s howned).runLedger sys calls
    · refine ih ?_ htail
      rw [call.ledger_addr sys s]
      exact call.subset_ledger sys s howned

end Ledger

namespace Lifecycle
variable (l : Lifecycle α) (sys : Allocator) (h : Heap) (memory : Filter α)

lemma final_attached : Attached (l.final sys h memory) :=
  attached_of_mem sys l.calls (Finset.mem_insert_self _ _) l.attached

lemma final_card :
    (l.final sys h memory).2.live.card = h.live.card+1+(l.calls.map Call.requests).sum := by
  rw [final,runLedger_card,allocateDataFilter,sys.alloc_card]

/-- The derived destructor releases two live blocks; the base class destructor is then left
with two blocks that are not live. -/
theorem base_destructor_releases_dead :
    Heap.ReleasesLive (l.final sys h memory).2.live
      (l.object.derivedDestructor (l.final sys h memory).1) ∧
    ∀ p ∈ (l.final sys h memory).1.destructor,
      p ∉ Heap.afterReleases (l.final sys h memory).2.live
        (l.object.derivedDestructor (l.final sys h memory).1) := by
  obtain ⟨howned,hhelper,hdistinct⟩ := l.final_attached sys h memory
  rw [FilterClass.derivedDestructor_eq]
  constructor
  · exact ⟨hhelper,Finset.mem_erase.mpr ⟨hdistinct.symm,howned⟩,trivial⟩
  · intro p hp hlive
    rw [Heap.mem_afterReleases] at hlive
    exact hlive.2 hp

/-- All blocks but two of those allocated in the lifecycle are still live after it. -/
theorem leaked_card :
    (Heap.afterReleases (l.final sys h memory).2.live (l.releases sys h memory false)).card+1 =
      h.live.card+(l.calls.map Call.requests).sum := by
  obtain ⟨howned,hhelper,hdistinct⟩ := l.final_attached sys h memory
  have hleft : Heap.afterReleases (l.final sys h memory).2.live (l.releases sys h memory false) =
      ((l.final sys h memory).2.live.erase (l.final sys h memory).1.mathOperation.addr).erase
        (l.final sys h memory).1.initialDataFilter.addr := by
    ext p
    simp only [releases,FilterClass.destructor_eq,Heap.mem_afterReleases,Finset.mem_erase]
    simp
    tauto
  have hcard := l.final_card sys h memory
  have hfirst := Finset.card_erase_add_one hhelper
  have hsecond := Finset.card_erase_add_one (Finset.mem_erase.mpr ⟨hdistinct.symm,howned⟩)
  rw [hleft]
  omega

/-- No lifecycle releases everything it allocated. -/
theorem leaks_blocks :
    ¬ Heap.afterReleases (l.final sys h memory).2.live (l.releases sys h memory false) ⊆
      h.live := by
  intro hsubset
  have hcard := Finset.card_le_card hsubset
  have hleaked := l.leaked_card sys h memory
  obtain ⟨call,hmem,hconfigures⟩ := l.configured
  have hrequests : 2 ≤ call.requests := by
    cases call with
    | newDataFilter overload => cases overload <;> simp [Call.requests,Overload.requests]
    | setInitialDataFilter => exact hconfigures.elim
    | sample => exact hconfigures.elim
  have hsum : call.requests ≤ (l.calls.map Call.requests).sum :=
    List.le_sum_of_mem (List.mem_map_of_mem hmem)
  omega

end Lifecycle
end DspLibrary
