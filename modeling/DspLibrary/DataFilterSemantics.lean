import DspLibrary.DataFilter

/-! What the loops of `DataFilter` leave in memory, stated with the runs of cells they store.
None of the statements uses a law of the sample arithmetic. -/
namespace DspLibrary
open Foundation
variable {α : Type*}

namespace DataFilter

/-- One iteration of a setter: the next cell of the source becomes the next stored cell. -/
lemma copyLoop_step {dst src b : FloatBlock α} {offset : ℤ} {i n : ℕ} {f : ℕ → α}
    (hsrc : src.Stores offset n f) (hi : i < n) (hroom : i < dst.size)
    (h : dst.SameRegion b ∧ b.Stores 0 i f) :
    Yields (src.read (0+i+offset) >>= b.write (0+i))
      (fun b' => dst.SameRegion b' ∧ b'.Stores 0 (i+1) f) := by
  obtain ⟨hregion,hstored⟩ := h
  have hread : src.read (0+i+offset) = .ok (f i) := by
    rw [show 0+(i : ℤ)+offset = offset+i by ring]
    exact hsrc i hi
  have hsize := hregion.size
  rw [hread,ok_bind]
  refine (Block.write_yields b (0+i) (f i) (by omega) (by omega)).mono ?_
  intro b' hw
  exact ⟨hregion.trans hw.toSameRegion,hstored.snoc hw rfl⟩

theorem copyLoop_yields {dst src : FloatBlock α} {offset : ℤ} {n : ℕ} {f : ℕ → α}
    (hsrc : src.Stores offset n f) (hroom : n ≤ dst.size) :
    Yields (copyLoop n offset dst src) (fun b => dst.SameRegion b ∧ b.Stores 0 n f) := by
  apply forUpTo_yields (n := n) (fun i b => dst.SameRegion b ∧ b.Stores 0 i f) (by omega)
    ⟨.refl dst,Block.stores_zero dst 0 f⟩
  intro i hi b h
  exact copyLoop_step hsrc hi (by omega) h

/-- The copy stops at the first cell behind the destination. -/
theorem copyLoop_overrun {dst src : FloatBlock α} {offset : ℤ} {n : ℕ} {f : ℕ → α}
    (hsrc : src.Stores offset n f) (hshort : dst.size < n) :
    copyLoop n offset dst src = .error (.outOfBounds dst.label dst.size) := by
  apply forUpTo_error (k := dst.size) (fun i b => dst.SameRegion b ∧ b.Stores 0 i f) (by omega)
    ⟨.refl dst,Block.stores_zero dst 0 f⟩
  · intro i hi b h
    exact copyLoop_step hsrc (by omega) hi h
  · intro b h
    have hread : src.read (0+(dst.size : ℤ)+offset) = .ok (f dst.size) := by
      rw [show 0+(dst.size : ℤ)+offset = offset+dst.size by ring]
      exact hsrc dst.size hshort
    have hsize := h.1.size
    simp only [hread,ok_bind]
    rw [Block.write_of_size_le _ _ _ (by omega),h.1.label,zero_add]

/-- The ascending in-place move is right also where source and destination overlap: at
iteration `i` the cells from `i` on are still the original ones. -/
theorem moveArray_yields {d : DataFilter α} {b : FloatBlock α} {N : ℕ} {f : ℕ → α}
    (horder : d.filterOrder = N) (hstored : b.Stores bufferSize N f) :
    Yields (d.moveArray b) (fun b' => b.SameRegion b' ∧ b'.Stores 0 N f ∧
      ∀ j : ℤ, N ≤ j → b'.read j = b.read j) := by
  unfold moveArray
  rw [horder]
  refine forUpTo_yields (n := N) (fun i b' => b.SameRegion b' ∧ b'.Stores 0 i f ∧
    ∀ j : ℤ, i ≤ j → b'.read j = b.read j) (by omega)
    ⟨.refl b,Block.stores_zero b 0 f,fun _ _ => rfl⟩ ?_
  rintro i hi b' ⟨hregion,hmoved,hrest⟩
  have hread : b'.read (0+i+bufferSize) = .ok (f i) := by
    rw [hrest _ (by omega),show 0+(i : ℤ)+bufferSize = bufferSize+i by ring]
    exact hstored i hi
  have hroom := (Block.lt_size_of_read (hstored i hi)).2
  have hsize := hregion.size
  simp only [hread,ok_bind]
  refine (Block.write_yields b' (0+i) (f i) (by omega) (by omega)).mono ?_
  intro b'' hw
  refine ⟨hregion.trans hw.toSameRegion,hmoved.snoc hw rfl,?_⟩
  intro j hj
  rw [hw.frame j (by omega)]
  exact hrest j (by omega)

/-- `moveArray` is a block move for every order, also where the two ranges overlap: the first
`N` cells receive the last ones, the others keep their values. The block has no other cells, and
an access outside it would have stopped the run. -/
theorem moveArray_moves_block (d : DataFilter α) (N : ℕ) (label : ArrayName) (addr : ℕ)
    (f : ℕ → α) :
    Yields ((d.setFilterOrder N).moveArray (Block.ofSeq label addr (N+bufferSize) f))
      (fun b => b.label = label ∧ b.addr = addr ∧ b.size = N+bufferSize ∧
        (∀ i : ℕ, i < N → b.read i = .ok (f (i+bufferSize))) ∧
        ∀ i : ℕ, N ≤ i → i < N+bufferSize → b.read i = .ok (f i)) := by
  have hsource := Block.stores_ofSeq_from label addr (N+bufferSize) f (c := bufferSize) (m := N)
    (by omega)
  refine (moveArray_yields (d := d.setFilterOrder N) rfl hsource).mono ?_
  intro b hb
  obtain ⟨hregion,hmoved,hrest⟩ := hb
  refine ⟨hregion.label,hregion.addr,hregion.size.trans (Block.size_ofSeq _ _ _ _),?_,?_⟩
  · intro i hi
    have hcell := hmoved i hi
    rwa [zero_add] at hcell
  · intro i hl hu
    rw [hrest i (by omega)]
    exact Block.read_ofSeq label addr _ f i hu

end DataFilter

namespace FuntionsMath
variable [Zero α] [Add α] [Mul α] {B X : FloatBlock α} {c n : ℤ} {N : ℕ} {a : ℕ → α} {s : ℤ → α}

/-- Over a window that ends with the sample at time `n`, `sum` is the convolution at `n`. -/
theorem sum_convolve (hcoef : B.Stores 0 (N+1) a)
    (hwindow : X.Stores c (N+1) (fun j => s (n-N+j))) :
    sum N 0 B X c = .ok (convolve N a s n) := by
  have hsum := sum_yields hcoef hwindow
  rw [show ((N+1 : ℕ) : ℤ)-1 = N by push_cast; ring] at hsum
  rw [(yields_value_iff _ _).mp hsum]
  congr 1
  apply accumulate_congr
  intro k hk
  rw [show n-N+((N+1-1-k : ℕ) : ℤ) = n-k by omega]

/-- Over a window that ends just before time `n`, with the coefficients stored from `A1` on,
`sum` is the feedback at `n`. -/
theorem sum_feedback (hcoef : B.Stores 0 N (fun k => a (k+1)))
    (hwindow : X.Stores c N (fun j => s (n-N+j))) :
    sum (N-1) 0 B X c = .ok (feedback N a s n) := by
  rw [(yields_value_iff _ _).mp (sum_yields hcoef hwindow)]
  congr 1
  apply accumulate_congr
  intro k hk
  rw [show n-N+((N-1-k : ℕ) : ℤ) = n-(k+1) by omega]

end FuntionsMath
end DspLibrary
