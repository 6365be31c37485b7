import DspLibrary.DataFilter

/-! The class `Filter` and its two derived classes `FIR` and `IIR`. A filter owns the position
`ContBuffer` in the history arrays of the attached `DataFilter`; the samples themselves live in
the `DataFilter`. -/
namespace DspLibrary
open Foundation

/-- An object of the class `Filter`, or of one of its derived classes: these add no members. -/
structure Filter (α : Type*) where
  mathOperation : FuntionsMath
  initialDataFilter : DataFilter α
  contBuffer : ℤ
  deriving DecidableEq, Repr

namespace Filter
variable {α : Type*}

/-- `Filter::setInitialDataFilter`. All three members are assigned, so the result does not
depend on the object it is called on. -/
def setInitialDataFilter (sys : Supply) (h : Heap) (pInitialDataFilter : DataFilter α) :
    Filter α × Heap :=
  let (m,h) := sys.alloc h
  (⟨⟨m⟩,pInitialDataFilter,0⟩,h)

/-- `Filter::~Filter`: the pointers passed to `chHeapFree`, in order. -/
def destructor (f : Filter α) : List ℕ := [f.mathOperation.addr,f.initialDataFilter.addr]

end Filter

namespace FIR
variable {α : Type*}

/-- If the buffer is full, move the data: the input array and the position that follow. -/
def moveIfFull (f : Filter α) : Checked (FloatBlock α × ℤ) :=
  let d := f.initialDataFilter
  if f.contBuffer = bufferSize then do
    let x ← d.moveArray d.arrayInputsX
    return (x,0)
  else
    return (d.arrayInputsX,f.contBuffer)

/-- `FIR::~FIR`; the body of the base class destructor runs after it. -/
def destructor (f : Filter α) : List ℕ := [f.mathOperation.addr,f.initialDataFilter.addr]

variable [Zero α] [Add α] [Mul α]

/-- The body that `FIR::directFormI` and `FIR::directFormII` share word by word. -/
def directForm (f : Filter α) (pData : α) : Checked (α × Filter α) := do
  let d := f.initialDataFilter
  let (arrayInputsX,contBuffer) ← moveIfFull f
  let contInputData := d.filterOrder+contBuffer
  let arrayInputsX ← arrayInputsX.write contInputData pData
  let result ← FuntionsMath.sum d.filterOrder 0 d.arrayCoefficientsB arrayInputsX contBuffer
  return (result,
    { f with initialDataFilter := { d with arrayInputsX := arrayInputsX },
             contBuffer := contBuffer+1 })

def directFormI (f : Filter α) (pData : α) : Checked (α × Filter α) := directForm f pData

def directFormII (f : Filter α) (pData : α) : Checked (α × Filter α) := directForm f pData

end FIR

namespace IIR
variable {α : Type*}

/-- If the buffer is full, move the data: the two arrays and the position that follow. -/
def moveIfFull (f : Filter α) : Checked (FloatBlock α × FloatBlock α × ℤ) :=
  let d := f.initialDataFilter
  if f.contBuffer = bufferSize then do
    let x ← d.moveArray d.arrayInputsX
    let y ← d.moveArray d.arrayInputsY
    return (x,y,0)
  else
    return (d.arrayInputsX,d.arrayInputsY,f.contBuffer)

/-- `IIR::~IIR`; the body of the base class destructor runs after it. -/
def destructor (f : Filter α) : List ℕ := [f.mathOperation.addr,f.initialDataFilter.addr]

variable [Zero α] [Add α] [Sub α] [Mul α]

def directFormI (f : Filter α) (pData : α) : Checked (α × Filter α) := do
  let d := f.initialDataFilter
  let (arrayInputsX,arrayInputsY,contBuffer) ← moveIfFull f
  let contInputData := d.filterOrder+contBuffer
  let arrayInputsX ← arrayInputsX.write contInputData pData
  let resultX ← FuntionsMath.sum d.filterOrder 0 d.arrayCoefficientsB arrayInputsX contBuffer
  let resultY ← FuntionsMath.sum (d.filterOrder-1) 0 d.arrayCoefficientsA arrayInputsY contBuffer
  let result := resultX-resultY
  let arrayInputsY ← arrayInputsY.write contInputData result
  return (result,
    { f with initialDataFilter := { d with arrayInputsX := arrayInputsX,
                                           arrayInputsY := arrayInputsY },
             contBuffer := contBuffer+1 })

/-- Here the array for the outputs keeps the auxiliary signal instead. -/
def directFormII (f : Filter α) (pData : α) : Checked (α × Filter α) := do
  let d := f.initialDataFilter
  let (arrayInputsX,arrayInputsV,contBuffer) ← moveIfFull f
  let contInputData := d.filterOrder+contBuffer
  let arrayInputsX ← arrayInputsX.write contInputData pData
  let sumV ← FuntionsMath.sum (d.filterOrder-1) 0 d.arrayCoefficientsA arrayInputsV contBuffer
  let resultV := pData-sumV
  let arrayInputsV ← arrayInputsV.write contInputData resultV
  let result ← FuntionsMath.sum d.filterOrder 0 d.arrayCoefficientsB arrayInputsV contBuffer
  return (result,
    { f with initialDataFilter := { d with arrayInputsX := arrayInputsX,
                                           arrayInputsY := arrayInputsV },
             contBuffer := contBuffer+1 })

end IIR
end DspLibrary
