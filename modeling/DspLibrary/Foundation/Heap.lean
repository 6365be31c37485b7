import DspLibrary.Foundation.Block

/-! A heap seen as the set of its live blocks. Which address an allocation returns is left to
an arbitrary allocator, as long as no live block is handed out twice; released addresses may
come back. -/
namespace DspLibrary.Foundation
variable {ι α : Type*}

/-- Where blocks come from: the address of the next one, and the number `room n` of cells of the
block that is handed out for a request of `n` cells. No request is refused. -/
structure Supply where
  pick : ℕ → Finset ℕ → ℕ
  pick_fresh : ∀ clock live, pick clock live ∉ live
  room : ℤ → ℕ

/-- An allocator that grants every request for a natural number of cells in full. -/
structure Allocator extends Supply where
  le_room : ∀ n : ℕ, n ≤ room n

instance : Coe Allocator Supply := ⟨Allocator.toSupply⟩

/-- The live addresses, and the number of allocations made so far. -/
structure Heap where
  live : Finset ℕ
  clock : ℕ
  deriving DecidableEq

namespace Supply
variable (sys : Supply)

/-- Allocate one object. -/
def alloc (h : Heap) : ℕ × Heap :=
  let p := sys.pick h.clock h.live
  (p,⟨insert p h.live,h.clock+1⟩)

/-- Allocate a block with room for `n` cells, none of them written. -/
def allocBlock (h : Heap) (label : ι) (n : ℤ) : Block ι α × Heap :=
  (Block.raw label (sys.alloc h).1 (sys.room n),(sys.alloc h).2)

lemma alloc_fresh (h : Heap) : (sys.alloc h).1 ∉ h.live := sys.pick_fresh h.clock h.live

lemma alloc_live (h : Heap) : (sys.alloc h).2.live = insert (sys.alloc h).1 h.live := rfl

lemma alloc_card (h : Heap) : (sys.alloc h).2.live.card = h.live.card+1 := by
  rw [alloc_live,Finset.card_insert_of_notMem (sys.alloc_fresh h)]

lemma subset_alloc (h : Heap) : h.live ⊆ (sys.alloc h).2.live := by
  rw [alloc_live]
  exact Finset.subset_insert _ _

/-- The smallest supply: addresses are handed out in order and never reused. -/
def inOrder (room : ℤ → ℕ) : Supply where
  pick _ live := live.sup id+1
  pick_fresh clock live := by
    intro hmem
    have hle : live.sup id+1 ≤ live.sup id := Finset.le_sup (f := id) hmem
    omega
  room := room

end Supply

/-- The smallest allocator: a block has exactly the requested number of cells. -/
def Allocator.bump : Allocator where
  toSupply := .inOrder Int.toNat
  le_room n := by simp [Supply.inOrder]

namespace Heap

/-- Every pointer in the list is live at the moment it is released. -/
def ReleasesLive : Finset ℕ → List ℕ → Prop
  | _,[] => True
  | live,p::ps => p ∈ live ∧ ReleasesLive (live.erase p) ps

/-- The live set after the releases. -/
def afterReleases : Finset ℕ → List ℕ → Finset ℕ
  | live,[] => live
  | live,p::ps => afterReleases (live.erase p) ps

lemma mem_afterReleases (live : Finset ℕ) (ps : List ℕ) (q : ℕ) :
    q ∈ afterReleases live ps ↔ q ∈ live ∧ q ∉ ps := by
  induction ps generalizing live with
  | nil => simp [afterReleases]
  | cons p ps ih =>
    simp only [afterReleases,ih,Finset.mem_erase,List.mem_cons]
    tauto

lemma ReleasesLive.mem {live : Finset ℕ} {ps : List ℕ} (h : ReleasesLive live ps) {q : ℕ}
    (hq : q ∈ ps) : q ∈ live := by
  induction ps generalizing live with
  | nil => cases hq
  | cons p ps ih =>
    rcases List.mem_cons.mp hq with rfl | hq
    · exact h.1
    · exact Finset.mem_of_mem_erase (ih h.2 hq)

/-- A series of releases of live blocks never names a block twice. -/
theorem ReleasesLive.nodup {live : Finset ℕ} {ps : List ℕ} (h : ReleasesLive live ps) :
    ps.Nodup := by
  induction ps generalizing live with
  | nil => exact List.nodup_nil
  | cons p ps ih =>
    refine List.nodup_cons.mpr ⟨?_,ih h.2⟩
    intro hp
    have hlive := ReleasesLive.mem h.2 hp
    exact Finset.notMem_erase p live hlive

end Heap
end DspLibrary.Foundation
