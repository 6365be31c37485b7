import DspLibrary.Foundation.Block
import DspLibrary.Foundation.Signal

/-! The class `FuntionsMath`: the weighted sum that every filter of the library is built on. -/
namespace DspLibrary
open Foundation

/-- The float arrays of the library: the four arrays a `DataFilter` allocates, and the arrays
its caller passes in. -/
inductive ArrayName
  | coefficientsB
  | inputsX
  | coefficientsA
  | inputsY
  | argument
  deriving DecidableEq, Repr

/-- A `float *` together with the block it points to. -/
abbrev FloatBlock (α : Type*) := Block ArrayName α

/-- A computation of the library, stopped at the first wild or uninitialised access. -/
abbrev Checked (σ : Type*) := Except (Fault ArrayName) σ

/-- An object of the class. Its only member is the loop counter of `sum`, which every call
sets before it reads it; only the address of the object is kept. -/
structure FuntionsMath where
  addr : ℕ
  deriving DecidableEq, Repr

namespace FuntionsMath
variable {α : Type*} [Zero α] [Add α] [Mul α]

/-- One iteration of the loop in `sum`, on the pair of `_Result` and `pCont`. The source leaves the
order of the two reads open. -/
def sumBody (pUpperLimit : ℤ) (pCoefficients pArray : FloatBlock α) (cont : ℤ) (s : α × ℤ) :
    Checked (α × ℤ) := do
  let posInitCond := s.2+pUpperLimit
  let value ← pArray.read posInitCond
  let coefficient ← pCoefficients.read cont
  return (s.1+coefficient*value,s.2-1)

/-- `FuntionsMath::sum`. The position `pCont` goes down while the counter goes up, so the
array is read backwards. -/
def sum (pUpperLimit pLowerLimit : ℤ) (pCoefficients pArray : FloatBlock α) (pCont : ℤ) :
    Checked α := do
  let s ← forUpTo pLowerLimit (pUpperLimit+1) (sumBody pUpperLimit pCoefficients pArray) (0,pCont)
  return s.1

/-- With a lower limit of zero and an upper limit of `m-1`, `sum` is the accumulated product of
`m` coefficients with the `m` stored values, taken from the last one back. -/
theorem sum_yields {pCoefficients pArray : FloatBlock α} {c : ℤ} {m : ℕ} {a f : ℕ → α}
    (ha : pCoefficients.Stores 0 m a) (hf : pArray.Stores c m f) :
    Yields (sum (m-1) 0 pCoefficients pArray c)
      (· = accumulate (fun k => a k*f (m-1-k)) m) := by
  have hloop : Yields (forUpTo 0 ((m : ℤ)-1+1) (sumBody (m-1) pCoefficients pArray) (0,c))
      (fun s => s.1 = accumulate (fun k => a k*f (m-1-k)) m ∧ s.2 = c-m) := by
    refine forUpTo_yields (n := m)
      (fun i (s : α × ℤ) => s.1 = accumulate (fun k => a k*f (m-1-k)) i ∧ s.2 = c-i)
      (by omega) ?_ ?_
    · exact ⟨rfl,by simp⟩
    · rintro i hi ⟨r,p⟩ ⟨hr,hp⟩
      have hcoef : pCoefficients.read (0+i) = .ok (a i) := ha i hi
      have hpos : p+((m : ℤ)-1) = c+((m-1-i : ℕ) : ℤ) := by
        simp only at hp
        omega
      have hval : pArray.read (p+((m : ℤ)-1)) = .ok (f (m-1-i)) := by
        rw [hpos]
        exact hf (m-1-i) (by omega)
      simp only [sumBody,hcoef,hval,ok_bind]
      refine Yields.ret ⟨?_,?_⟩
      · simp only at hr
        simp only [accumulate,hr]
      · simp only at hp
        push_cast
        omega
  refine hloop.bind ?_
  rintro ⟨r,p⟩ ⟨hr,-⟩
  exact Yields.ret hr

/-- An empty range: nothing is read and the result is zero. -/
example (b x : FloatBlock ℤ) (c : ℤ) : sum (-1) 0 b x c = .ok 0 := rfl

end FuntionsMath
end DspLibrary
