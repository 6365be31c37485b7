import Mathlib.Data.Set.Card
import DspLibrary.Chibios.Serial

/-! What every step of the serial driver keeps: the deeds are those of a first-in first-out queue
that holds what the buffer holds, and there are at least as many woken threads as free cells while
a thread waits. -/
namespace DspLibrary.Chibios
open DspLibrary.Foundation

namespace Register

/-- The bit that enables the interrupt of an empty transmit buffer. -/
def txeie (r : Register) : Bool := r.getLsbD 7

lemma and_txeie_ne_zero (r : Register) : r &&& usartCr1Txeie ≠ 0 ↔ txeie r = true := by
  rw [show usartCr1Txeie = BitVec.twoPow 16 7 from rfl,BitVec.and_twoPow,txeie]
  split <;> simp_all [BitVec.twoPow_eq]

@[simp] lemma txeie_notify (r : Register) : txeie (r ||| usartCr1Txeie) = true := by
  simp [txeie,usartCr1Txeie]

@[simp] lemma txeie_complete (r : Register) : txeie (r &&& ~~~usartCr1Tcie) = txeie r := by
  simp [txeie,usartCr1Tcie]

@[simp] lemma txeie_start (r : Register) : txeie (r ||| usartCr1Enforced) = txeie r := by
  simp [txeie,usartCr1Enforced]

end Register

/-! ### The buffer and the deeds -/

/-- What a deed is to the queue. -/
def Deed.action : Deed → Option (QueueAction UInt8)
  | returned _ b .ok => some (.enter b)
  | returned _ _ .timeout | returned _ _ .reset => none
  | sent b => some (.leave b)
  | raised _ => some .vacant
  | cleared => some .clear

/-- The queue lies between `bp` and `bp+size`, no other memory has changed since `m₀`, and the
deeds lead to the bytes it holds. -/
structure Stored (bp size : ℕ) (m₀ : Bytes) (q : OutputQueue) (m : Bytes) (tr : List Deed) :
    Prop where
  ok : q.Ok
  buffer : q.buffer = bp
  top : q.top = bp+size
  frame : ∀ a, a < bp ∨ bp+size ≤ a → m a = m₀ a
  history : play size [] (tr.filterMap Deed.action) = some (q.contents m)

namespace Stored
variable {bp size : ℕ} {m₀ m : Bytes} {q : OutputQueue} {tr : List Deed}

lemma init (bp : ℕ) {size : ℕ} (hs : 0 < size) (m : Bytes) :
    Stored bp size m (.chOQObjectInit bp size) m [] where
  ok := OutputQueue.init_ok hs
  buffer := rfl
  top := rfl
  frame _ _ := rfl
  history := by rw [OutputQueue.contents_init]; rfl

variable (h : Stored bp size m₀ q m tr)
include h

lemma setWaiting (w : List ℕ) : Stored bp size m₀ { q with waiting := w } m tr where
  ok := ⟨h.ok.nonempty,h.ok.counter_le,h.ok.read,h.ok.write⟩
  buffer := h.buffer
  top := h.top
  frame := h.frame
  history := h.history

/-- The deed after the others. -/
lemma history_snoc {x : Deed} {a : QueueAction UInt8} {r : List UInt8} (hx : x.action = some a)
    (ha : a.act size (q.contents m) = some r) :
    play size [] ((tr++[x]).filterMap Deed.action) = some r := by
  simp only [List.filterMap_append,List.filterMap_cons,hx,List.filterMap_nil]
  exact play_snoc h.history ha

lemma store (hc : q.counter ≠ 0) (t : ℕ) (b : UInt8) :
    Stored bp size m₀ q.store (Function.update m q.wrptr b) (tr++[.returned t b .ok]) where
  ok := h.ok.store_ok hc
  buffer := h.buffer
  top := h.top
  frame a ha := by
    have hw := h.ok.wrptr_mem
    rw [h.buffer,h.top] at hw
    rw [Function.update_of_ne (by omega)]
    exact h.frame a ha
  history := by
    have hl := h.ok.length_add_counter m
    rw [h.buffer,h.top] at hl
    rw [h.ok.contents_store hc]
    refine h.history_snoc rfl ?_
    rw [QueueAction.act,if_pos (by omega)]

lemma fetch (hc : q.chOQIsEmptyI = false) :
    Stored bp size m₀ q.fetch m (tr++[.sent (m q.rdptr)]) where
  ok := h.ok.fetch_ok hc
  buffer := h.buffer
  top := h.top
  frame := h.frame
  history := by
    refine h.history_snoc rfl ?_
    rw [h.ok.contents_fetch hc,QueueAction.act,if_pos rfl]

lemma vacant (hc : q.chOQIsEmptyI = true) (f : Flag) :
    Stored bp size m₀ q m (tr++[.raised f]) where
  ok := h.ok
  buffer := h.buffer
  top := h.top
  frame := h.frame
  history := by
    have he := (h.ok.isEmpty_iff m).mp hc
    refine h.history_snoc rfl ?_
    rw [he,QueueAction.act,if_pos rfl]

lemma refused {msg : Msg} (hm : msg ≠ .ok) (t : ℕ) (b : UInt8) :
    Stored bp size m₀ q m (tr++[.returned t b msg]) where
  ok := h.ok
  buffer := h.buffer
  top := h.top
  frame := h.frame
  history := by
    have hx : (Deed.returned t b msg).action = none := by cases msg <;> simp_all [Deed.action]
    simpa [List.filterMap_append,List.filterMap_cons,hx] using h.history

lemma rewind : Stored bp size m₀ q.rewind m (tr++[.cleared]) where
  ok := h.ok.rewind_ok
  buffer := h.buffer
  top := h.top
  frame := h.frame
  history := by
    rw [OutputQueue.contents_rewind]
    exact h.history_snoc rfl rfl

end Stored

/-! ### The threads -/

/-- The threads that were made ready because of a free cell. -/
def woken (writers : ℕ → Writer) : Set ℕ := {t | ∃ b n, writers t = .readied b n .ok}

/-- The threads inside a call. -/
def busy (writers : ℕ → Writer) : Set ℕ := {t | writers t ≠ .outside}

lemma woken_subset_busy (writers : ℕ → Writer) : woken writers ⊆ busy writers := by
  rintro t ⟨b,n,ht⟩
  simp [busy,ht]

/-- The waiting threads are those that are suspended, and while there are any, every free cell has
a thread of its own on its way to it. -/
structure Waits (waiting : List ℕ) (counter : ℕ) (writers : ℕ → Writer) : Prop where
  nodup : waiting.Nodup
  mem_iff : ∀ t, t ∈ waiting ↔ ∃ b n, writers t = .suspended b n
  finite : (busy writers).Finite
  wake : waiting ≠ [] → counter ≤ (woken writers).ncard

namespace Waits
variable {w : List ℕ} {c : ℕ} {writers : ℕ → Writer}

lemma init (c : ℕ) : Waits [] c (fun _ => .outside) where
  nodup := List.nodup_nil
  mem_iff := by simp
  finite := by simp [busy]
  wake := by simp

variable (h : Waits w c writers)
include h

lemma woken_finite : (woken writers).Finite := h.finite.subset (woken_subset_busy writers)

lemma notMem {t : ℕ} (ht : ∀ b n, writers t ≠ .suspended b n) : t ∉ w := by
  rw [h.mem_iff]
  rintro ⟨b,n,hb⟩
  exact ht b n hb

/-- The counter is free while nobody waits. -/
lemma setCounter (hw : w = []) (c' : ℕ) : Waits w c' writers :=
  ⟨h.nodup,h.mem_iff,h.finite,fun hn => absurd hw hn⟩

/-- A thread that does not wait leaves its call. -/
lemma leave {t c' : ℕ} (ht : ∀ b n, writers t ≠ .suspended b n)
    (hc : w ≠ [] → c' ≤ (woken writers \ {t}).ncard) :
    Waits w c' (Function.update writers t .outside) where
  nodup := h.nodup
  mem_iff s := by
    by_cases hs : s = t
    · subst hs
      simpa using h.notMem ht
    · simpa [hs] using h.mem_iff s
  finite := h.finite.subset fun s hs => by
    by_cases hst : s = t <;> simp_all [busy]
  wake hw := by
    convert hc hw using 2
    ext s
    by_cases hs : s = t <;> simp [woken,hs]

/-- A thread that finds the queue full waits behind the others. -/
lemma enqueue {t : ℕ} (ht : ∀ b n, writers t ≠ .suspended b n) (b : UInt8) (n : ℕ) :
    Waits (w++[t]) 0 (Function.update writers t (.suspended b n)) where
  nodup := List.nodup_append.mpr ⟨h.nodup,List.nodup_singleton t,by
    rintro a ha b hb rfl
    obtain rfl : a = t := by simpa using hb
    exact h.notMem ht ha⟩
  mem_iff s := by
    by_cases hs : s = t
    · simp [hs]
    · simpa [hs] using h.mem_iff s
  finite := (h.finite.insert t).subset fun s hs => by
    by_cases hst : s = t <;> simp_all [busy]
  wake _ := Nat.zero_le _

/-- The first waiting thread gets the cell that became free. -/
lemma wakeNext {t : ℕ} {ts : List ℕ} (hw : w = t::ts) :
    Waits ts (c+1) (Function.update writers t ((writers t).ready .ok)) := by
  subst hw
  obtain ⟨b,n,ht⟩ := (h.mem_iff t).mp (by simp)
  have hn : t ∉ woken writers := by simp [woken,ht]
  have he : woken (Function.update writers t ((writers t).ready .ok)) = insert t (woken writers) := by
    ext s
    by_cases hs : s = t <;> simp [woken,hs,ht,Writer.ready]
  refine ⟨h.nodup.of_cons,fun s => ?_,(h.finite.insert t).subset fun s hs => ?_,fun _ => ?_⟩
  · by_cases hs : s = t
    · subst hs
      simpa [ht,Writer.ready] using (List.nodup_cons.mp h.nodup).1
    · simpa [hs] using h.mem_iff s
  · by_cases hst : s = t <;> simp_all [busy]
  · rw [he,Set.ncard_insert_of_notMem hn h.woken_finite]
    have := h.wake (by simp)
    omega

lemma wakeAll {msg : Msg} (c' : ℕ) :
    Waits [] c' (fun t => if t ∈ w then (writers t).ready msg else writers t) where
  nodup := List.nodup_nil
  mem_iff s := by
    by_cases hs : s ∈ w
    · obtain ⟨b,n,ht⟩ := (h.mem_iff s).mp hs
      simp [hs,ht,Writer.ready]
    · simpa [hs] using fun b n hb => hs ((h.mem_iff s).mpr ⟨b,n,hb⟩)
  finite := h.finite.subset fun s hs => by
    by_cases hw : s ∈ w
    · obtain ⟨b,n,ht⟩ := (h.mem_iff s).mp hw
      simp [busy,ht]
    · simpa [busy,hw] using hs
  wake := by simp

lemma wakeup {t n : ℕ} {b : UInt8} (ht : writers t = .suspended b n) :
    Waits (w.erase t) c (Function.update writers t (.readied b n .timeout)) where
  nodup := h.nodup.erase t
  mem_iff s := by
    rw [h.nodup.mem_erase_iff]
    by_cases hs : s = t
    · simp [hs]
    · simpa [hs] using h.mem_iff s
  finite := h.finite.subset fun s hs => by
    by_cases hst : s = t <;> simp_all [busy]
  wake hw := by
    have he : woken (Function.update writers t (.readied b n .timeout)) = woken writers := by
      ext s
      by_cases hs : s = t <;> simp [woken,hs,ht]
    rw [he]
    exact h.wake fun h0 => hw (by simp [h0])

end Waits
end DspLibrary.Chibios
