import DspLibrary.Foundation.Segments
import DspLibrary.Foundation.Yields

/-! What a memory allocator owes its callers, as a relation. A request may be granted with any vacant
block that has the bytes, and be refused only when all vacant memory is in small pieces. A machine
implements such a relation when each of its answers is one that the relation allows. -/
namespace DspLibrary.Foundation
universe u
variable {ε ι : Type*} {σ τ ω : Type u}

/-! ### Answers -/

/-- The answers to a list of inputs that a relation between states allows. -/
inductive Answers (allowed : τ → ι → ω → τ → Prop) : τ → List ι → List ω → τ → Prop
  | nil {t : τ} : Answers allowed t [] [] t
  | cons {t t' t'' : τ} {i : ι} {o : ω} {is : List ι} {os : List ω} (first : allowed t i o t')
      (rest : Answers allowed t' is os t'') : Answers allowed t (i::is) (o::os) t''

/-- Simulation rule: a machine whose steps are matched one by one gives allowed answers. The relation
may speak of the inputs that are still to come. -/
theorem Answers.of_feed {step : σ → ι → Except ε (ω × σ)} {allowed : τ → ι → ω → τ → Prop}
    {R : List ι → σ → τ → Prop}
    (hstep : ∀ i is s t, R (i::is) s t →
      Yields (step s i) fun r => ∃ t', allowed t i r.1 t' ∧ R is r.2 t')
    {is : List ι} {s : σ} {t : τ} (h : R is s t) :
    Yields (feed step s is) fun r => ∃ t', Answers allowed t is r.1 t' ∧ R [] r.2 t' := by
  induction is generalizing s t with
  | nil => exact Yields.ok ⟨t,.nil,h⟩
  | cons i is ih =>
    refine (hstep i is s t h).bind ?_
    rintro ⟨o,s'⟩ ⟨t',hfirst,hR⟩
    refine (ih hR).bind ?_
    rintro ⟨os,s''⟩ ⟨t'',hrest,hend⟩
    exact Yields.ret ⟨t'',.cons hfirst hrest,hend⟩

/-! ### Allocators -/

/-- A call to an allocator. -/
inductive Request
  | alloc (size : ℕ)
  | free (p : ℕ)

/-- The memory of an allocator: its bounds, what was taken from it for good, the bytes that each
block has in front of those of the caller, and what sizes are rounded to. -/
structure Arena where
  lo : ℕ
  hi : ℕ
  taken : Finset (Segment ℕ)
  header : ℕ
  grain : ℕ

namespace Arena
variable (R : Arena)

/-- Memory of the allocator that is not in use. -/
def Vacant (used : Finset (Segment ℕ)) (b : Segment ℕ) : Prop :=
  R.lo ≤ b.start ∧ b.stop ≤ R.hi ∧ ∀ u ∈ used ∪ R.taken, Disjoint u.points b.points

/-- One call, its answer, and the blocks in use before and after it. -/
inductive Serves (used : Finset (Segment ℕ)) : Request → ℕ → Finset (Segment ℕ) → Prop
  | grant (size : ℕ) (b : Segment ℕ) (vacant : R.Vacant used b)
      (room : b.start+R.header+size ≤ b.stop) :
      Serves used (.alloc size) (b.start+R.header) (insert b used)
  | refuse (size : ℕ)
      (small : ∀ b, R.Vacant used b → b.length < 2*(R.header+size+R.grain)) :
      Serves used (.alloc size) 0 used
  | release (b : Segment ℕ) (held : b ∈ used) :
      Serves used (.free (b.start+R.header)) 0 (used.erase b)

end Arena
end DspLibrary.Foundation
