import DspLibrary.Foundation.Fifo

/-! The output queue of the kernel: a circular buffer with a counter of its free cells. Pointers
are byte addresses. -/
namespace DspLibrary.Chibios
open DspLibrary.Foundation

abbrev Bytes := ℕ → UInt8

/-- `output_queue_t`, with the waiting threads in the order in which they came. -/
structure OutputQueue where
  waiting : List ℕ
  counter : ℕ
  buffer : ℕ
  top : ℕ
  wrptr : ℕ
  rdptr : ℕ
  deriving DecidableEq, Repr

namespace OutputQueue

def chOQObjectInit (bp size : ℕ) : OutputQueue := ⟨[],size,bp,bp+size,bp,bp⟩

def chQSizeX (q : OutputQueue) : ℕ := q.top-q.buffer

def chQSpaceI (q : OutputQueue) : ℕ := q.counter

def chOQGetFullI (q : OutputQueue) : ℕ := q.chQSizeX-q.chQSpaceI

def chOQIsEmptyI (q : OutputQueue) : Bool := q.wrptr == q.rdptr && q.counter != 0

def chOQIsFullI (q : OutputQueue) : Bool := q.chQSpaceI == 0

/-- The part of `chOQPutTimeout` that writes the byte. -/
def store (q : OutputQueue) : OutputQueue :=
  { q with
    counter := q.counter-1
    wrptr := if q.top ≤ q.wrptr+1 then q.buffer else q.wrptr+1 }

/-- The part of `chOQGetI` that takes the byte. -/
def fetch (q : OutputQueue) : OutputQueue :=
  { q with
    counter := q.counter+1
    rdptr := if q.top ≤ q.rdptr+1 then q.buffer else q.rdptr+1 }

/-- The part of `chOQResetI` before the threads are woken. -/
def rewind (q : OutputQueue) : OutputQueue :=
  { q with rdptr := q.buffer, wrptr := q.buffer, counter := q.chQSizeX }

/-- The next cell of the buffer. -/
def next (q : OutputQueue) : ℕ → ℕ := advance q.buffer q.top

/-- The bytes in the queue, oldest first. -/
def contents (q : OutputQueue) (m : Bytes) : List UInt8 := walk q.next m q.chOQGetFullI q.rdptr

/-- The write pointer is as many cells after the read pointer as the counter says. -/
structure Ok (q : OutputQueue) : Prop where
  nonempty : q.buffer < q.top
  counter_le : q.counter ≤ q.chQSizeX
  read : q.buffer ≤ q.rdptr ∧ q.rdptr < q.top
  write : q.wrptr = q.next^[q.chOQGetFullI] q.rdptr

lemma contents_length (q : OutputQueue) (m : Bytes) :
    (q.contents m).length = q.chOQGetFullI := walk_length ..

lemma init_ok {bp size : ℕ} (h : 0 < size) : (chOQObjectInit bp size).Ok where
  nonempty := by simp [chOQObjectInit,h]
  counter_le := by simp [chOQObjectInit,chQSizeX]
  read := by simp [chOQObjectInit,h]
  write := by simp [chOQObjectInit,chOQGetFullI,chQSizeX,chQSpaceI]

lemma contents_init (bp size : ℕ) (m : Bytes) : (chOQObjectInit bp size).contents m = [] := by
  simp [contents,chOQObjectInit,chOQGetFullI,chQSizeX,chQSpaceI,walk]

namespace Ok
variable {q : OutputQueue} (h : q.Ok)
include h

lemma length_add_counter (m : Bytes) : (q.contents m).length+q.counter = q.top-q.buffer := by
  have hc := h.counter_le
  simp only [contents_length,chOQGetFullI,chQSpaceI,chQSizeX] at hc ⊢
  omega

lemma wrptr_mem : q.buffer ≤ q.wrptr ∧ q.wrptr < q.top := by
  have hn := h.nonempty
  have hlt := Nat.mod_lt (q.rdptr-q.buffer+q.chOQGetFullI) (show 0 < q.top-q.buffer by omega)
  rw [h.write,next,advance_iterate h.read]
  omega

/-- Equal pointers mean an empty or a full buffer, and the counter tells which. -/
theorem isEmpty_iff (m : Bytes) : q.chOQIsEmptyI = true ↔ q.contents m = [] := by
  have hl := h.length_add_counter m
  have hn := h.nonempty
  rw [← List.length_eq_zero_iff,contents_length] at *
  simp only [chOQIsEmptyI,Bool.and_eq_true,beq_iff_eq,bne_iff_ne]
  constructor
  · rintro ⟨hp,hc⟩
    by_contra h0
    refine advance_iterate_ne h.read (Nat.pos_of_ne_zero h0)
      (show q.chOQGetFullI < q.top-q.buffer by omega) ?_
    exact (h.write.symm.trans hp).symm
  · intro h0
    refine ⟨?_,by omega⟩
    rw [h.write,h0]
    rfl

theorem store_ok (hc : q.counter ≠ 0) : q.store.Ok where
  nonempty := h.nonempty
  counter_le := by
    have := h.counter_le
    simp only [store,chQSizeX] at this ⊢
    omega
  read := h.read
  write := by
    have hle := h.counter_le
    have he : q.store.chOQGetFullI = q.chOQGetFullI+1 := by
      simp only [store,chOQGetFullI,chQSizeX,chQSpaceI] at hle ⊢
      omega
    rw [he,Function.iterate_succ_apply']
    change _ = q.next (q.next^[q.chOQGetFullI] q.rdptr)
    rw [← h.write]
    rfl

/-- The byte goes to the end of the queue. -/
theorem contents_store (hc : q.counter ≠ 0) (m : Bytes) (b : UInt8) :
    q.store.contents (Function.update m q.wrptr b) = q.contents m++[b] := by
  have hl := h.length_add_counter m
  rw [contents_length] at hl
  have he : q.store.chOQGetFullI = q.chOQGetFullI+1 := by
    simp only [store,chOQGetFullI,chQSizeX,chQSpaceI] at hl ⊢
    omega
  rw [contents,he,h.write]
  exact walk_push (fun i hi => advance_iterate_ne h.read hi (by omega)) m b

lemma exists_full (hc : q.chOQIsEmptyI = false) : ∃ k, q.chOQGetFullI = k+1 := by
  refine Nat.exists_eq_succ_of_ne_zero fun h0 => ?_
  rw [← q.contents_length (fun _ => 0),List.length_eq_zero_iff,← h.isEmpty_iff] at h0
  simp [hc] at h0

omit h in
lemma full_fetch {k : ℕ} (hk : q.chOQGetFullI = k+1) : q.fetch.chOQGetFullI = k := by
  simp only [fetch,chOQGetFullI,chQSizeX,chQSpaceI] at hk ⊢
  omega

theorem fetch_ok (hc : q.chOQIsEmptyI = false) : q.fetch.Ok where
  nonempty := h.nonempty
  counter_le := by
    obtain ⟨k,hk⟩ := h.exists_full hc
    simp only [fetch,chOQGetFullI,chQSizeX,chQSpaceI] at hk ⊢
    omega
  read := advance_mem h.read
  write := by
    obtain ⟨k,hk⟩ := h.exists_full hc
    rw [full_fetch hk]
    exact h.write.trans (by rw [hk,Function.iterate_succ_apply]; rfl)

/-- The byte comes from the front of the queue. -/
theorem contents_fetch (hc : q.chOQIsEmptyI = false) (m : Bytes) :
    q.contents m = m q.rdptr::q.fetch.contents m := by
  obtain ⟨k,hk⟩ := h.exists_full hc
  rw [contents,contents,hk,full_fetch hk]
  rfl

theorem rewind_ok : q.rewind.Ok where
  nonempty := h.nonempty
  counter_le := le_rfl
  read := ⟨le_rfl,h.nonempty⟩
  write := by simp [rewind,chOQGetFullI,chQSizeX,chQSpaceI]

end Ok

lemma contents_rewind (q : OutputQueue) (m : Bytes) : q.rewind.contents m = [] := by
  simp [contents,rewind,chOQGetFullI,chQSizeX,chQSpaceI,walk]

end OutputQueue
end DspLibrary.Chibios
