import Mathlib

/-! The core memory manager of the kernel: memory between two linker symbols, handed out from
the bottom and never taken back. Pointers and `size_t` are natural numbers below `2^32`, and
every sum and difference is taken as the processor takes it. -/
namespace DspLibrary.Chibios

/-- The word of 32 bits a sum is stored in. -/
@[irreducible] def wrap (n : ℕ) : ℕ := n%2^32

/-- The difference of two words. -/
@[irreducible] def wrapSub (a b : ℕ) : ℕ := wrap (a+2^32-b)

def MEM_ALIGN_SIZE : ℕ := 8
def MEM_ALIGN_MASK : ℕ := MEM_ALIGN_SIZE-1

@[irreducible] def memAlignPrev (p : ℕ) : ℕ := wrap p &&& (2^32-1-MEM_ALIGN_MASK)
def memAlignNext (p : ℕ) : ℕ := memAlignPrev (p+MEM_ALIGN_MASK)

/-- The static variables of the core manager. -/
structure Core where
  nextmem : ℕ
  endmem : ℕ
  deriving DecidableEq, Repr

/-- The core takes what lies between the two linker symbols, cut down to the alignment. -/
def coreInit (heapBase heapEnd : ℕ) : Core := ⟨memAlignNext heapBase,memAlignPrev heapEnd⟩

/-- The block, or `NULL` when the core is exhausted. -/
def chCoreAllocI (size : ℕ) (c : Core) : ℕ × Core :=
  let size := memAlignNext size
  if wrapSub c.endmem c.nextmem < size then (0,c)
  else (c.nextmem,{ c with nextmem := wrap (c.nextmem+size) })

/-- The same under the kernel lock, which makes it one step. -/
def chCoreAlloc (size : ℕ) (c : Core) : ℕ × Core := chCoreAllocI size c

lemma wrap_of_lt {n : ℕ} (h : n < 2^32) : wrap n = n := by
  rw [wrap]
  exact Nat.mod_eq_of_lt h

lemma wrap_lt (n : ℕ) : wrap n < 2^32 := by
  rw [wrap]
  exact Nat.mod_lt _ (by norm_num)

lemma wrapSub_of_le {a b : ℕ} (h : b ≤ a) (ha : a < 2^32) : wrapSub a b = a-b := by
  have hsum : a+2^32-b = a-b+2^32 := by omega
  rw [wrapSub,wrap,hsum,Nat.add_mod_right,Nat.mod_eq_of_lt (by omega)]

/-- Clearing the low bits rounds down to a multiple of eight. -/
lemma memAlignPrev_eq (p : ℕ) : memAlignPrev p = wrap p/8*8 := by
  have hmask : 2^32-1-MEM_ALIGN_MASK = (2^29-1) <<< 3 := by decide
  have hshift : wrap p/8*8 = (wrap p >>> 3) <<< 3 := by
    simp [Nat.shiftRight_eq_div_pow,Nat.shiftLeft_eq]
  rw [memAlignPrev,hmask,hshift]
  apply Nat.eq_of_testBit_eq
  intro i
  have hbig : 32 ≤ i → (wrap p).testBit i = false := by
    intro hi
    apply Nat.testBit_lt_two_pow
    exact (wrap_lt p).trans_le (Nat.pow_le_pow_right (by norm_num) hi)
  simp only [Nat.testBit_and,Nat.testBit_shiftLeft,Nat.testBit_shiftRight,
    Nat.testBit_two_pow_sub_one]
  by_cases hi : 3 ≤ i
  · have hsum : 3+(i-3) = i := by omega
    by_cases hi' : 32 ≤ i
    · simp [hsum,hbig hi']
    · have hlt : i-3 < 29 := by omega
      simp [hi,hsum,hlt]
  · simp [hi]

/-- What an aligned size looks like for a request that does not wrap. -/
lemma memAlignNext_spec {n : ℕ} (h : n+7 < 2^32) :
    n ≤ memAlignNext n ∧ memAlignNext n < n+8 ∧ memAlignNext n%8 = 0 := by
  have hn : memAlignNext n = (n+7)/8*8 := by
    rw [memAlignNext,memAlignPrev_eq,wrap_of_lt (by simpa [MEM_ALIGN_MASK,MEM_ALIGN_SIZE] using h)]
    rfl
  omega

lemma memAlignNext_of_aligned {n : ℕ} (h : n+7 < 2^32) (hn : n%8 = 0) : memAlignNext n = n := by
  have := memAlignNext_spec h
  omega

/-- The core while it is in use: aligned, and below the top of the address space. -/
structure CoreOk (c : Core) : Prop where
  aligned : c.nextmem%8 = 0
  le : c.nextmem ≤ c.endmem
  lt : c.endmem < 2^32

/-- A request is granted exactly when the core still has that much, and then it gets the next
bytes. -/
lemma chCoreAlloc_eq {c : Core} (hc : CoreOk c) (n : ℕ) :
    chCoreAlloc n c = if c.nextmem+memAlignNext n ≤ c.endmem then
      (c.nextmem,⟨c.nextmem+memAlignNext n,c.endmem⟩) else (0,c) := by
  have hle := hc.le
  have hlt := hc.lt
  simp only [chCoreAlloc,chCoreAllocI,wrapSub_of_le hle hlt]
  by_cases h : c.nextmem+memAlignNext n ≤ c.endmem
  · rw [if_pos h,if_neg (by omega),wrap_of_lt (by omega)]
  · rw [if_neg h,if_pos (by omega)]

end DspLibrary.Chibios
