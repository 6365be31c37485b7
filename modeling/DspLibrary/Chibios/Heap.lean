import DspLibrary.Foundation.Linked
import DspLibrary.Chibios.MemCore

/-! The heap allocator of the kernel: a free list threaded through the headers of the free
blocks, in ascending order, searched first fit, with neighbours merged when a block returns.
Memory is a function from the addresses of aligned words, which are multiples of four, to the words
of 32 bits there; a header has its link or its owner in the first word and its size in the second. -/
namespace DspLibrary.Chibios
open DspLibrary.Foundation

abbrev Memory := ℕ → ℕ

/-- `sizeof(union heap_header)`. -/
def headerSize : ℕ := 8

/-- `sizeof(memory_heap_t)`: provider, padding, list head, mutex. -/
def descriptorSize : ℕ := 32

namespace Memory

def next (m : Memory) (p : ℕ) : ℕ := m p
def size (m : Memory) (p : ℕ) : ℕ := m (p+4)
def setNext (m : Memory) (p v : ℕ) : Memory := Function.update m p v
def setSize (m : Memory) (p v : ℕ) : Memory := Function.update m (p+4) v

/-- The owner of an allocated block shares the word of the link. -/
def heap (m : Memory) (p : ℕ) : ℕ := m p
def setHeap (m : Memory) (p v : ℕ) : Memory := Function.update m p v

/-- `LIMIT(p)`: the address after a block. -/
def limit (m : Memory) (p : ℕ) : ℕ := wrap (p+headerSize+m.size p)

end Memory

/-- A provider takes a size and answers with a block or `NULL`. -/
abbrev MemGetFunc := ℕ → Core → ℕ × Core

/-- A heap descriptor at an address, with its provider. -/
structure MemoryHeap where
  addr : ℕ
  provider : Option MemGetFunc

/-- The address of `h_free`. -/
def freeHead (heapp : ℕ) : ℕ := heapp+8

structure System where
  mem : Memory
  core : Core

/-- The ways in which a call does not return: the two checks of `chHeapFree`, and a loop that
goes round for ever. -/
inductive Halt
  | nullPointer
  | withinFreeBlock
  | endless
  deriving DecidableEq, Repr

/-- A loop over the free list has an address as its only state and changes no memory, so one
that has not ended after this many rounds never ends. -/
@[irreducible] def rounds : ℕ := 2^32

/-- `_heap_init`. -/
def heapInit (heapp : ℕ) (m : Memory) : Memory :=
  (m.setNext (freeHead heapp) 0).setSize (freeHead heapp) 0

/-- The default heap asks the core for more. -/
def defaultHeap (heapp : ℕ) : MemoryHeap := ⟨heapp,some chCoreAlloc⟩

/-- One round of the search: the node before the first block that is large enough, or the end
of the list. -/
def fitAnswer (m : Memory) (size qp : ℕ) : Option (Option ℕ) :=
  if m.next qp = 0 then some none
  else if size ≤ m.size (m.next qp) then some (some qp)
  else none

/-- Take the block after `qp`, splitting it when the rest can hold a header. -/
def takeFit (m : Memory) (heapp size qp : ℕ) : ℕ × Memory :=
  let hp := m.next qp
  let m :=
    if m.size hp < wrap (size+headerSize) then m.setNext qp (m.next hp)
    else
      let fp := wrap (hp+headerSize+size)
      let m := m.setNext fp (m.next hp)
      let m := m.setSize fp (wrapSub (wrapSub (m.size hp) headerSize) size)
      let m := m.setNext qp fp
      m.setSize hp size
  (wrap (hp+headerSize),m.setHeap hp heapp)

/-- The part of an allocation that runs under the lock of the heap. -/
def searchFree (heapp size : ℕ) (m : Memory) : Except Halt (Option (ℕ × Memory)) :=
  match follow m.next (fitAnswer m size) rounds (freeHead heapp) with
  | none => .error .endless
  | some none => .ok none
  | some (some qp) => .ok (some (takeFit m heapp size qp))

/-- Write the header of a block that came from the provider. -/
def provideHeader (heapp size hp : ℕ) (m : Memory) : ℕ × Memory :=
  (wrap (hp+headerSize),(m.setHeap hp heapp).setSize hp size)

/-- The part of an allocation after an unsuccessful search. -/
def provide (h : MemoryHeap) (size : ℕ) (s : System) : ℕ × System :=
  match h.provider with
  | none => (0,s)
  | some provider =>
    let got := provider (wrap (size+headerSize)) s.core
    if got.1 = 0 then (0,{ s with core := got.2 })
    else
      let out := provideHeader h.addr size got.1 s.mem
      (out.1,⟨out.2,got.2⟩)

def chHeapAlloc (h : MemoryHeap) (size : ℕ) (s : System) : Except Halt (ℕ × System) := do
  let size := memAlignNext size
  match ← searchFree h.addr size s.mem with
  | some (p,m) => pure (p,{ s with mem := m })
  | none => pure (provide h size s)

/-- One round of the search for the place of `hp`. -/
def placeAnswer (m : Memory) (heapp hp qp : ℕ) : Option (Except Halt ℕ) :=
  if ¬ (hp < qp ∨ m.limit qp ≤ hp) then some (.error .withinFreeBlock)
  else if (qp = freeHead heapp ∨ qp < hp) ∧ (m.next qp = 0 ∨ hp < m.next qp) then some (.ok qp)
  else none

/-- Link a block in after `qp`. -/
def insertAfter (m : Memory) (qp hp : ℕ) : Memory :=
  (m.setNext hp (m.next qp)).setNext qp hp

/-- Merge a block with the one after it when they touch. -/
def absorb (m : Memory) (p hp : ℕ) : Memory :=
  if m.limit p = hp then
    let m := m.setSize p (wrap (m.size p+m.size hp+headerSize))
    m.setNext p (m.next hp)
  else m

def chHeapFree (p : ℕ) (m : Memory) : Except Halt Memory :=
  if p = 0 then .error .nullPointer
  else
    let hp := wrapSub p headerSize
    let heapp := m.heap hp
    match follow m.next (placeAnswer m heapp hp) rounds (freeHead heapp) with
    | none => .error .endless
    | some (.error e) => .error e
    | some (.ok qp) =>
      let m := insertAfter m qp hp
      let m := absorb m hp (m.next hp)
      .ok (absorb m qp hp)

/-- The counting loop of `chHeapStatus`. -/
def statusLoop (m : Memory) : ℕ → ℕ → ℕ → ℕ → Except Halt (ℕ × ℕ)
  | 0,_,_,_ => .error .endless
  | fuel+1,qp,n,sz =>
    if m.next qp = 0 then .ok (n,sz)
    else statusLoop m fuel (m.next qp) (wrap (n+1)) (wrap (sz+m.size (m.next qp)))

/-- The number of fragments and their total size. -/
def chHeapStatus (heapp : ℕ) (m : Memory) : Except Halt (ℕ × ℕ) :=
  statusLoop m rounds (freeHead heapp) 0 0

end DspLibrary.Chibios
