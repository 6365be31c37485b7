import DspLibrary.Foundation.Yields

/-! Memory blocks whose accesses are checked. A cell that was never written holds `none`.
An access outside the block and a read of an unwritten cell stop with a fault that names the
block, so a computation that returns has used written cells inside its blocks only. -/
namespace DspLibrary.Foundation
variable {ι α : Type*}

/-- The reasons for which an access is refused. -/
inductive Fault (ι : Type*)
  | outOfBounds (block : ι) (index : ℤ)
  | uninitialised (block : ι) (index : ℤ)
  deriving DecidableEq, Repr

/-- A labelled block at an address. -/
structure Block (ι α : Type*) where
  label : ι
  addr : ℕ
  cells : Array (Option α)
  deriving DecidableEq, Repr

namespace Block

def size (b : Block ι α) : ℕ := b.cells.size

/-- A block as an allocator hands it out: no cell has been written. -/
def raw (label : ι) (addr n : ℕ) : Block ι α := ⟨label,addr,Array.replicate n none⟩

/-- A fully written block of `n` cells. -/
def ofSeq (label : ι) (addr n : ℕ) (f : ℕ → α) : Block ι α :=
  ⟨label,addr,Array.ofFn fun i : Fin n => some (f i.val)⟩

def read (b : Block ι α) (i : ℤ) : Except (Fault ι) α :=
  if i < 0 then .error (.outOfBounds b.label i)
  else match b.cells[i.toNat]? with
    | none => .error (.outOfBounds b.label i)
    | some none => .error (.uninitialised b.label i)
    | some (some v) => .ok v

def write (b : Block ι α) (i : ℤ) (v : α) : Except (Fault ι) (Block ι α) :=
  if 0 ≤ i ∧ i < b.size then .ok { b with cells := b.cells.setIfInBounds i.toNat (some v) }
  else .error (.outOfBounds b.label i)

@[simp] lemma size_raw (label : ι) (addr n : ℕ) : (raw label addr n : Block ι α).size = n := by
  simp [size,raw]

@[simp] lemma addr_raw (label : ι) (addr n : ℕ) :
    (raw label addr n : Block ι α).addr = addr := rfl

@[simp] lemma size_ofSeq (label : ι) (addr n : ℕ) (f : ℕ → α) :
    (ofSeq label addr n f).size = n := by simp [size,ofSeq]

lemma read_ofSeq (label : ι) (addr n : ℕ) (f : ℕ → α) (i : ℕ) (h : i < n) :
    (ofSeq label addr n f).read i = .ok (f i) := by simp [read,ofSeq,h]

lemma read_of_size_le (b : Block ι α) (i : ℤ) (h : b.size ≤ i) :
    b.read i = .error (.outOfBounds b.label i) := by
  have hneg : ¬ i < 0 := by omega
  have hnone : b.cells[i.toNat]? = none := by
    apply Array.getElem?_eq_none
    change b.size ≤ i.toNat
    omega
  simp [read,hneg,hnone]

lemma write_of_size_le (b : Block ι α) (i : ℤ) (v : α) (h : b.size ≤ i) :
    b.write i v = .error (.outOfBounds b.label i) := by
  have hn : ¬ (0 ≤ i ∧ i < b.size) := by omega
  simp [write,hn]

lemma lt_size_of_read {b : Block ι α} {i : ℤ} {v : α} (h : b.read i = .ok v) :
    0 ≤ i ∧ i < b.size := by
  by_contra hn
  by_cases hneg : i < 0
  · simp [read,hneg] at h
  · rw [read_of_size_le b i (by omega)] at h
    contradiction

lemma lt_size_of_write {b c : Block ι α} {i : ℤ} {v : α} (h : b.write i v = .ok c) :
    0 ≤ i ∧ i < b.size := by
  by_contra hn
  simp [write,hn] at h

/-- The two blocks are the same region of memory, possibly with other contents. -/
structure SameRegion (b b' : Block ι α) : Prop where
  label : b'.label = b.label
  addr : b'.addr = b.addr
  size : b'.size = b.size

lemma SameRegion.refl (b : Block ι α) : SameRegion b b := ⟨rfl,rfl,rfl⟩

lemma SameRegion.trans {b b' b'' : Block ι α} (h : SameRegion b b') (h' : SameRegion b' b'') :
    SameRegion b b'' :=
  ⟨h'.label.trans h.label,h'.addr.trans h.addr,h'.size.trans h.size⟩

/-- `b'` is `b` after one write. -/
structure Written (b : Block ι α) (i : ℤ) (v : α) (b' : Block ι α) : Prop extends
    SameRegion b b' where
  here : b'.read i = .ok v
  frame : ∀ j, j ≠ i → b'.read j = b.read j

/-- Every write inside the block succeeds and changes one cell. -/
theorem write_yields (b : Block ι α) (i : ℤ) (v : α) (h0 : 0 ≤ i) (h : i < b.size) :
    Yields (b.write i v) (Written b i v) := by
  have hi : i.toNat < b.cells.size := by change i.toNat < b.size; omega
  refine ⟨{ b with cells := b.cells.setIfInBounds i.toNat (some v) },by simp [write,h0,h],?_⟩
  constructor
  · exact ⟨rfl,rfl,by simp [size]⟩
  · simp [read,not_lt.mpr h0,hi]
  · intro j hj
    by_cases hneg : j < 0
    · simp [read,hneg]
    · have hne : i.toNat ≠ j.toNat := by omega
      simp [read,hneg,Array.getElem?_setIfInBounds_ne hne]

lemma write_region (b : Block ι α) (i : ℤ) (v : α) : Returning (b.write i v) (SameRegion b) := by
  unfold write
  split
  · exact Returning.ok ⟨rfl,rfl,by simp [size]⟩
  · intro b' hb'
    cases hb'

/-- A loop that writes one computed value in each iteration stays in its block. -/
lemma writeLoop_region {κ : Type} {lo hi : ℤ} (value : ℤ → Block κ α → Except (Fault κ) α)
    (b : Block κ α) :
    Returning (forUpTo lo hi (fun i b => value i b >>= b.write i) b) (SameRegion b) := by
  refine Returning.forUpTo ?_ (.refl b)
  intro i b' hb
  refine (Returning.any (value i b')).bind ?_
  intro v _
  exact (b'.write_region i v).mono (fun _ hw => hb.trans hw)

/-- The `m` cells from `c` on hold the first `m` values of `f`. -/
def Stores (b : Block ι α) (c : ℤ) (m : ℕ) (f : ℕ → α) : Prop :=
  ∀ j < m, b.read (c+j) = .ok (f j)

lemma stores_zero (b : Block ι α) (c : ℤ) (f : ℕ → α) : b.Stores c 0 f := by
  intro j hj
  omega

lemma stores_ofSeq (label : ι) (addr n : ℕ) (f : ℕ → α) : (ofSeq label addr n f).Stores 0 n f := by
  intro j hj
  simpa using read_ofSeq label addr n f j hj

/-- A part of a fully written block. -/
lemma stores_ofSeq_from (label : ι) (addr n : ℕ) (f : ℕ → α) {c m : ℕ} (h : c+m ≤ n) :
    (ofSeq label addr n f).Stores c m (fun j => f (j+c)) := by
  intro j hj
  have hcell := read_ofSeq label addr n f (j+c) (by omega)
  rw [show (c : ℤ)+j = ((j+c : ℕ) : ℤ) by push_cast; ring]
  exact hcell

namespace Stores
variable {b b' : Block ι α} {c : ℤ} {m : ℕ} {f g : ℕ → α}

/-- Two runs of cells with equal contents store the same values. -/
lemma values_eq (h : b.Stores c m f) {c' : ℤ} (h' : b'.Stores c' m g)
    (he : ∀ j < m, b.read (c+j) = b'.read (c'+j)) : ∀ j < m, f j = g j := by
  intro j hj
  have hcell := he j hj
  rw [h j hj,h' j hj] at hcell
  exact Except.ok.inj hcell

lemma congr (h : b.Stores c m f) (hfg : ∀ j < m, f j = g j) : b.Stores c m g := by
  intro j hj
  rw [h j hj,hfg j hj]

lemma mono (h : b.Stores c m f) {k : ℕ} (hk : k ≤ m) : b.Stores c k f :=
  fun j hj => h j (by omega)

/-- Dropping the oldest cell moves the start of the stored run by one. -/
lemma tail (h : b.Stores c (m+1) f) : b.Stores (c+1) m (fun j => f (j+1)) := by
  intro j hj
  have hcell := h (j+1) (by omega)
  have hpos : c+1+j = c+((j+1 : ℕ) : ℤ) := by push_cast; ring
  rw [hpos]
  exact hcell

/-- Writing the next value behind the stored run extends it. -/
lemma snoc (h : b.Stores c m f) {v : α} (hw : Written b (c+m) v b') (hv : v = f m) :
    b'.Stores c (m+1) f := by
  intro j hj
  by_cases hlast : j = m
  · subst hlast
    rw [hw.here,hv]
  · rw [hw.frame _ (by omega)]
    exact h j (by omega)

/-- A write behind the stored run does not touch it. -/
lemma write_behind (h : b.Stores c m f) {i : ℤ} (hi : c+m ≤ i) (v : α) :
    Returning (b.write i v) (fun b' => b'.Stores c m f) := by
  intro b' hb'
  obtain ⟨h0,hlt⟩ := lt_size_of_write hb'
  have hw := (write_yields b i v h0 hlt).returning b' hb'
  intro j hj
  rw [hw.frame _ (by omega)]
  exact h j hj

end Stores
end Block
end DspLibrary.Foundation
