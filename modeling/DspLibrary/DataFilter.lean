import DspLibrary.Foundation.Heap
import DspLibrary.FuntionsMath

/-! The class `DataFilter`: order, coefficients and history arrays of one filter, with the three
overloads of `newDataFilter`. Each array is a block of its own, handed out unwritten by the
allocator `sys`; a request for `n` floats is `sizeof(float)*n` bytes in the source. The loop
counter `Cont` is a member of the class, but every loop sets it before it reads it. -/
namespace DspLibrary
open Foundation

/-- `BUFFER_SIZE`. -/
def bufferSize : ℕ := 10

lemma bufferSize_pos : 0 < bufferSize := by decide

/-- An object of the class, at the address `addr`. Before the first `newDataFilter` the fields
hold whatever the raw memory held, so they are arbitrary. -/
structure DataFilter (α : Type*) where
  addr : ℕ
  filterOrder : ℤ
  arrayCoefficientsB : FloatBlock α
  arrayInputsX : FloatBlock α
  arrayCoefficientsA : FloatBlock α
  arrayInputsY : FloatBlock α
  mathOperation : FuntionsMath
  deriving DecidableEq, Repr

namespace DataFilter
variable {α : Type*}

/-- The loop shared by the four setters:
`for (Cont = 0; Cont < count; Cont++) dst[Cont] = src[Cont + offset]`. -/
def copyLoop (count offset : ℤ) (dst src : FloatBlock α) : Checked (FloatBlock α) :=
  forUpTo 0 count (fun cont dst => do
    let value ← src.read (cont+offset)
    dst.write cont value) dst

def setFilterOrder (d : DataFilter α) (pFilterOrder : ℤ) : DataFilter α :=
  { d with filterOrder := pFilterOrder }

def setArrayCoefficientsB (d : DataFilter α) (pArrayCoefficientsB : FloatBlock α) :
    Checked (DataFilter α) := do
  let b ← copyLoop (d.filterOrder+1) 0 d.arrayCoefficientsB pArrayCoefficientsB
  return { d with arrayCoefficientsB := b }

def setArrayInitialConditionsX (d : DataFilter α) (pArrayInitialConditions : FloatBlock α) :
    Checked (DataFilter α) := do
  let x ← copyLoop d.filterOrder 0 d.arrayInputsX pArrayInitialConditions
  return { d with arrayInputsX := x }

/-- The leading coefficient `A0` is skipped: cell `k` receives `A(k+1)`. -/
def setArrayCoefficientsA (d : DataFilter α) (arrayCoefficientsA : FloatBlock α) :
    Checked (DataFilter α) := do
  let a ← copyLoop d.filterOrder 1 d.arrayCoefficientsA arrayCoefficientsA
  return { d with arrayCoefficientsA := a }

def setArrayInitialConditionsY (d : DataFilter α) (arrayInitialConditionsY : FloatBlock α) :
    Checked (DataFilter α) := do
  let y ← copyLoop d.filterOrder 0 d.arrayInputsY arrayInitialConditionsY
  return { d with arrayInputsY := y }

/-- `DataFilter::moveArray`: the copy is made in place, from the low cells up. -/
def moveArray (d : DataFilter α) (pArray : FloatBlock α) : Checked (FloatBlock α) :=
  forUpTo 0 d.filterOrder (fun cont pArray => do
    let value ← pArray.read (cont+bufferSize)
    pArray.write cont value) pArray

section Allocation
variable (sys : Supply)

/-- The allocations of the overload for FIR filters. The history array is requested with the
order the object holds before the call, not with `pFilterOrder`. -/
def allocateFIR (h : Heap) (d : DataFilter α) (pFilterOrder : ℤ) : DataFilter α × Heap :=
  let (b,h) := sys.allocBlock h ArrayName.coefficientsB (pFilterOrder+1)
  let (x,h) := sys.allocBlock h ArrayName.inputsX (d.filterOrder+bufferSize)
  ({ d with arrayCoefficientsB := b, arrayInputsX := x },h)

/-- The allocations of the two overloads for IIR filters. -/
def allocateIIR (h : Heap) (d : DataFilter α) (pFilterOrder : ℤ) : DataFilter α × Heap :=
  let (b,h) := sys.allocBlock h ArrayName.coefficientsB (pFilterOrder+1)
  let (x,h) := sys.allocBlock h ArrayName.inputsX (d.filterOrder+bufferSize)
  let (a,h) := sys.allocBlock h ArrayName.coefficientsA pFilterOrder
  let (y,h) := sys.allocBlock h ArrayName.inputsY (d.filterOrder+bufferSize)
  ({ d with arrayCoefficientsB := b, arrayInputsX := x, arrayCoefficientsA := a,
            arrayInputsY := y },h)

/-- The allocation at the head of `createArrayAux`. -/
def allocateMathOperation (h : Heap) (d : DataFilter α) : DataFilter α × Heap :=
  let (m,h) := sys.alloc h
  ({ d with mathOperation := ⟨m⟩ },h)

end Allocation

section Operations
variable [Zero α] [Add α] [Sub α] [Mul α]

/-- One iteration of the loop in `createArrayAux`. -/
def createArrayAuxBody (d : DataFilter α) (cont : ℤ) (arrayInputsY : FloatBlock α) :
    Checked (FloatBlock α) := do
  let numSum ← FuntionsMath.sum cont 0 d.arrayCoefficientsA arrayInputsY 0
  let numX ← d.arrayInputsX.read (cont+1)
  let numResult := numX-numSum
  arrayInputsY.write (cont+1) numResult

/-- `DataFilter::createArrayAux`. -/
def createArrayAux (sys : Supply) (h : Heap) (d : DataFilter α) :
    Checked (DataFilter α × Heap) := do
  let (d,h) := allocateMathOperation sys h d
  let first ← d.arrayInputsX.read 0
  let y ← d.arrayInputsY.write 0 first
  let y ← forUpTo 0 (d.filterOrder-1) (createArrayAuxBody d) y
  return ({ d with arrayInputsY := y },h)

/-- `newDataFilter` with three arguments, for FIR filters. -/
def newDataFilterFIR (sys : Supply) (h : Heap) (d : DataFilter α) (pFilterOrder : ℤ)
    (pArrayInputsX pArrayCoefficientsB : FloatBlock α) : Checked (DataFilter α × Heap) := do
  let (d,h) := allocateFIR sys h d pFilterOrder
  let d := d.setFilterOrder pFilterOrder
  let d ← d.setArrayInitialConditionsX pArrayInputsX
  let d ← d.setArrayCoefficientsB pArrayCoefficientsB
  return (d,h)

/-- `newDataFilter` with five arguments, for IIR filters in direct form I. -/
def newDataFilterIIRFormI (sys : Supply) (h : Heap) (d : DataFilter α) (pFilterOrder : ℤ)
    (pArrayInputsX pArrayCoefficientsB pArrayInputsY pArrayCoefficientsA : FloatBlock α) :
    Checked (DataFilter α × Heap) := do
  let (d,h) := allocateIIR sys h d pFilterOrder
  let d := d.setFilterOrder pFilterOrder
  let d ← d.setArrayInitialConditionsX pArrayInputsX
  let d ← d.setArrayCoefficientsB pArrayCoefficientsB
  let d ← d.setArrayInitialConditionsY pArrayInputsY
  let d ← d.setArrayCoefficientsA pArrayCoefficientsA
  return (d,h)

/-- `newDataFilter` with four arguments, for IIR filters in direct form II. -/
def newDataFilterIIRFormII (sys : Supply) (h : Heap) (d : DataFilter α) (pFilterOrder : ℤ)
    (pArrayInputsX pArrayCoefficientsB pArrayCoefficientsA : FloatBlock α) :
    Checked (DataFilter α × Heap) := do
  let (d,h) := allocateIIR sys h d pFilterOrder
  let d := d.setFilterOrder pFilterOrder
  let d ← d.setArrayInitialConditionsX pArrayInputsX
  let d ← d.setArrayCoefficientsB pArrayCoefficientsB
  let d ← d.setArrayCoefficientsA pArrayCoefficientsA
  createArrayAux sys h d

end Operations

/-- `DataFilter::~DataFilter`: the pointers passed to `chHeapFree`, in order. -/
def destructor (d : DataFilter α) : List ℕ :=
  [d.arrayCoefficientsB.addr,d.arrayCoefficientsA.addr,d.arrayInputsY.addr,d.arrayInputsX.addr]

end DataFilter
end DspLibrary
