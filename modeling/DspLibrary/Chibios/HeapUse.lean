import DspLibrary.Foundation.Yields
import DspLibrary.Chibios.HeapSemantics

/-! What a caller may rely on: the contract of `chHeapAlloc`, and that the free list, and with it
every later answer of the heap, depends on the blocks in use and not on the way they came about. -/
namespace DspLibrary.Chibios
open DspLibrary.Foundation
open scoped BigOperators
variable {A : Area} {s : System} {free : List (Segment ℕ)} {live raw : Finset (Segment ℕ)}

/-- The default heap, with the whole rest of the area in the core. -/
structure Serving (A : Area) (s : System) (free : List (Segment ℕ))
    (live raw : Finset (Segment ℕ)) : Prop where
  heap : HeapOk A s.mem s.core.nextmem free live raw
  core : s.core.endmem = A.last

lemma Serving.coreOk (h : Serving A s free live raw) : CoreOk s.core :=
  ⟨h.heap.brk_aligned,h.core ▸ h.heap.brk_le,h.core ▸ A.last_lt⟩

/-- A block of the free list is large enough for the request. -/
def Fits (n : ℕ) (t : Segment ℕ) : Prop := t.start+8+n ≤ t.stop

/-- Some free block is large enough exactly when there is a gap of that size between the blocks in
use. -/
lemma exists_fits_iff {mem : Memory} {brk n : ℕ} (h : HeapOk A mem brk free live raw) :
    (∃ t ∈ free, Fits n t) ↔ ∃ g : Segment ℕ, A.base ≤ g.start ∧ g.stop ≤ brk ∧
      (∀ u ∈ live ∪ raw, Disjoint u.points g.points) ∧ Fits n g := by
  constructor
  · rintro ⟨t,ht,hfit⟩
    obtain ⟨hlo,hhi⟩ := h.tiling.free_bounds ht
    exact ⟨t,hlo,hhi,fun u hu => (h.tiling.apart u hu).mono_right (points_subset_cover ht),hfit⟩
  · rintro ⟨g,hlo,hhi,hdisj,hfit⟩
    have hsub : g.points ⊆ cover free := by
      rw [h.tiling.cover_eq]
      intro a ha
      refine ⟨⟨hlo.trans ha.1,ha.2.trans_le hhi⟩,?_⟩
      simp only [Set.mem_iUnion,not_exists]
      exact fun u hu hau => Set.disjoint_left.mp (hdisj u hu) hau ha
    obtain ⟨t,ht,hstart,hstop⟩ := h.tiling.separated.exists_of_subset_cover hsub
    exact ⟨t,ht,by simp only [Fits] at hfit ⊢; omega⟩

/-- How `chHeapAlloc` serves a request that comes down to `n` bytes. -/
inductive Served (A : Area) (s : System) (free : List (Segment ℕ)) (live raw : Finset (Segment ℕ))
    (n : ℕ) : ℕ → System → Prop
  /-- from the first free block that is large enough -/
  | fromList (l₁ : List (Segment ℕ)) (t : Segment ℕ) (l₂ : List (Segment ℕ)) (m : Memory)
      (split : free = l₁++t::l₂) (small : ∀ u ∈ l₁, ¬ Fits n u) (fits : Fits n t)
      (heap : Serving A ⟨m,s.core⟩ (l₁++((carve t n).2++l₂)) (insert (carve t n).1 live) raw)
      (frame : ∀ a, a ≠ A.head → a ∉ cover free → m a = s.mem a) :
      Served A s free live raw n (t.start+8) ⟨m,s.core⟩
  /-- from the core -/
  | fromCore (b : Segment ℕ) (m : Memory) (small : ∀ u ∈ free, ¬ Fits n u)
      (start : b.start = s.core.nextmem) (stop : b.stop = b.start+8+n)
      (heap : Serving A ⟨m,⟨b.stop,s.core.endmem⟩⟩ free (insert b live) raw)
      (frame : ∀ a, a ∉ b.points → m a = s.mem a) :
      Served A s free live raw n (b.start+8) ⟨m,⟨b.stop,s.core.endmem⟩⟩
  /-- not at all -/
  | refused (small : ∀ u ∈ free, ¬ Fits n u) (full : s.core.endmem < s.core.nextmem+8+n) :
      Served A s free live raw n 0 s

lemma provide_granted {heapp n p : ℕ} {c : Core} (hlt : n+16 ≤ 2^32)
    (hcore : chCoreAlloc (n+8) s.core = (p,c)) (hp : p ≠ 0) (hp' : p+8 < 2^32) :
    provide (defaultHeap heapp) n s = (p+8,⟨(provideHeader heapp n p s.mem).2,c⟩) := by
  have hwrap : wrap (n+headerSize) = n+8 := wrap_of_lt (by simp only [headerSize]; omega)
  simp only [provide,defaultHeap,hwrap,hcore]
  rw [if_neg hp]
  simp only [provideHeader,headerSize]
  rw [wrap_of_lt hp']

lemma provide_refused {heapp n : ℕ} (hlt : n+16 ≤ 2^32)
    (hcore : chCoreAlloc (n+8) s.core = (0,s.core)) : provide (defaultHeap heapp) n s = (0,s) := by
  have hwrap : wrap (n+headerSize) = n+8 := wrap_of_lt (by simp only [headerSize]; omega)
  simp [provide,defaultHeap,hwrap,hcore]

/-- The part after an unsuccessful search. -/
lemma provide_served (h : Serving A s free live raw) {n : ℕ} (hn : n%8 = 0) (hlt : n+16 ≤ 2^32)
    (hsmall : ∀ u ∈ free, ¬ Fits n u) :
    Served A s free live raw n (provide (defaultHeap A.heapp) n s).1
      (provide (defaultHeap A.heapp) n s).2 := by
  have hcore := chCoreAlloc_eq h.coreOk (n+8)
  rw [memAlignNext_of_aligned (by omega) (by omega)] at hcore
  have hpos := A.base_pos.trans_le h.heap.base_le
  have hbrk := h.heap.brk_aligned
  have hend := h.coreOk.lt
  by_cases hroom : s.core.nextmem+(n+8) ≤ s.core.endmem
  · rw [if_pos hroom] at hcore
    let b : Segment ℕ := ⟨s.core.nextmem,s.core.nextmem+8+n,by omega⟩
    have hbstop : b.stop = s.core.nextmem+(n+8) := by simp only [b]; omega
    have hraw : b ∉ raw := by
      intro hmem
      have hle := (h.heap.tiling.used_bounds (Finset.mem_union_right live hmem)).2
      omega
    have hout : provide (defaultHeap A.heapp) n s =
        (b.start+8,⟨(provideHeader A.heapp n b.start s.mem).2,⟨b.stop,s.core.endmem⟩⟩) := by
      rw [hbstop]
      exact provide_granted hlt hcore (show s.core.nextmem ≠ 0 by omega)
        (show s.core.nextmem+8 < 2^32 by omega)
    have hheap := (h.heap.core (s := b) rfl (by rw [hbstop,← h.core]; exact hroom)
      (by omega)).header (Finset.mem_insert_self _ _) (n := n) rfl
    rw [Finset.erase_insert hraw] at hheap
    rw [hout]
    refine .fromCore b _ hsmall rfl rfl ⟨hheap,h.core⟩ ?_
    intro a ha
    simp only [Segment.mem_points] at ha
    simp only [provideHeader,Memory.setSize,Memory.setHeap,Function.update_apply]
    grind
  · rw [if_neg hroom] at hcore
    rw [provide_refused hlt hcore]
    exact .refused hsmall (by omega)

lemma chHeapAlloc_of_miss {h : MemoryHeap} {size : ℕ}
    (hs : searchFree h.addr (memAlignNext size) s.mem = .ok none) :
    chHeapAlloc h size s =
      .ok ((provide h (memAlignNext size) s).1,(provide h (memAlignNext size) s).2) := by
  simp only [chHeapAlloc,hs,ok_bind,pure_eq_ok]

lemma chHeapAlloc_of_hit {h : MemoryHeap} {size p : ℕ} {m : Memory}
    (hs : searchFree h.addr (memAlignNext size) s.mem = .ok (some (p,m))) :
    chHeapAlloc h size s = .ok (p,⟨m,s.core⟩) := by
  simp only [chHeapAlloc,hs,ok_bind,pure_eq_ok]

/-- Every call of `chHeapAlloc` returns, in one of the three ways. -/
theorem chHeapAlloc_served (h : Serving A s free live raw) {size : ℕ} (hsize : size+16 ≤ 2^32) :
    ∃ p s', chHeapAlloc (defaultHeap A.heapp) size s = .ok (p,s') ∧
      Served A s free live raw (memAlignNext size) p s' := by
  obtain ⟨hle,hlt,hn⟩ := memAlignNext_spec (n := size) (by omega)
  rcases exists_first_fit free (memAlignNext size) with hsmall | ⟨l₁,t,l₂,hfree,hsmall,hfit⟩
  · have hnot : ∀ u ∈ free, ¬ Fits (memAlignNext size) u := fun u hu => not_le.mpr (hsmall u hu)
    exact ⟨_,_,chHeapAlloc_of_miss (h.heap.search_miss hsmall),provide_served h hn (by omega) hnot⟩
  · subst hfree
    have hnot : ∀ u ∈ l₁, ¬ Fits (memAlignNext size) u := fun u hu => not_le.mpr (hsmall u hu)
    obtain ⟨m,hout,hheap,hframe⟩ := h.heap.search_hit hn hsmall hfit
    exact ⟨_,_,chHeapAlloc_of_hit hout,.fromList l₁ t l₂ m rfl hnot hfit ⟨hheap,h.core⟩ hframe⟩

/-- The block behind a new pointer: aligned, with the bytes asked for and fewer than sixteen more,
apart from everything else in use, and the rest of the memory in use is not touched. -/
structure NewBlock (A : Area) (s : System) (live raw : Finset (Segment ℕ)) (size p : ℕ) (s' : System)
    (b : Segment ℕ) : Prop where
  start : b.start+8 = p
  aligned : p%8 = 0
  room : p+size ≤ b.stop
  waste : b.stop < p+size+16
  apart : ∀ u ∈ live ∪ raw, Disjoint u.points b.points
  frame : ∀ u ∈ live ∪ raw, ∀ a ∈ u.points, s'.mem a = s.mem a
  serving : ∃ free', Serving A s' free' (insert b live) raw

lemma NewBlock.inside {size p : ℕ} {s' : System} {b : Segment ℕ}
    (h : NewBlock A s live raw size p s' b) : A.Inside b := by
  obtain ⟨free',hserving⟩ := h.serving
  exact hserving.heap.inside_used (Finset.mem_union_left raw (Finset.mem_insert_self b live))

/-- The contract of `chHeapAlloc`: it returns `NULL` exactly when no free block is large enough and
the core cannot provide one, and leaves everything as it was; otherwise it returns a new block. -/
lemma chHeapAlloc_contract (h : Serving A s free live raw) {size : ℕ} (hsize : size+16 ≤ 2^32) :
    ∃ p s', chHeapAlloc (defaultHeap A.heapp) size s = .ok (p,s') ∧
      (p = 0 ↔ (∀ t ∈ free, ¬ Fits (memAlignNext size) t) ∧
        s.core.endmem < s.core.nextmem+8+memAlignNext size) ∧
      (p = 0 → s' = s) ∧ (p ≠ 0 → ∃ b, NewBlock A s live raw size p s' b) := by
  obtain ⟨p,s',hout,hserved⟩ := chHeapAlloc_served h hsize
  obtain ⟨hle,hlt,hn⟩ := memAlignNext_spec (n := size) (by omega)
  have hword : ∀ u ∈ live ∪ raw, ∀ a ∈ u.points, a ≠ A.head ∧ a ∉ cover free := fun u hu a ha =>
    ⟨fun he => (h.heap.head_ne hu ha).1 he.symm,Set.disjoint_left.mp (h.heap.tiling.apart u hu) ha⟩
  refine ⟨p,s',hout,?_⟩
  cases hserved with
  | fromList l₁ t l₂ m hfree hsmall hfit hheap hframe =>
    subst hfree
    obtain ⟨hstart,hroom,hwaste⟩ := carve_fits hfit
    have hin := h.heap.inside_free (s := t) (by simp)
    have h8 := hin.start_aligned
    have hsub : (carve t (memAlignNext size)).1.points ⊆ cover (l₁++t::l₂) := by
      intro a ha
      apply points_subset_cover (s := t) (by simp)
      rw [points_carve t (memAlignNext size)]
      exact .inl ha
    refine ⟨⟨by omega,fun hno => absurd hfit (hno.1 t (by simp))⟩,by omega,fun _ => ?_⟩
    refine ⟨(carve t (memAlignNext size)).1,by omega,by omega,by omega,by omega,?_,?_,⟨_,hheap⟩⟩
    · exact fun u hu => (h.heap.tiling.apart u hu).mono_right hsub
    · exact fun u hu a ha => hframe a (hword u hu a ha).1 (hword u hu a ha).2
  | fromCore b m hsmall hstart hstop hheap hframe =>
    have h8 := h.heap.brk_aligned
    have hbound := (hheap.heap.tiling.used_bounds
      (Finset.mem_union_left raw (Finset.mem_insert_self b live))).2
    have hend := h.coreOk.lt
    have hle' := hheap.heap.brk_le
    have hcore := h.core
    have hapart : ∀ u ∈ live ∪ raw, Disjoint u.points b.points := fun u hu =>
      Segment.disjoint_of_stop_le (hstart ▸ (h.heap.tiling.used_bounds hu).2)
    refine ⟨⟨by omega,fun hno => ?_⟩,by omega,fun _ => ?_⟩
    · simp only at hle'
      omega
    · refine ⟨b,rfl,by omega,by omega,by omega,hapart,?_,⟨free,hheap⟩⟩
      exact fun u hu a ha => hframe a (Set.disjoint_left.mp (hapart u hu) ha)
  | refused hsmall hfull =>
    exact ⟨⟨fun _ => ⟨hsmall,by omega⟩,fun _ => rfl⟩,fun _ => rfl,fun hne => absurd rfl hne⟩

lemma fresh_serving (A : Area) (m : Memory) :
    Serving A ⟨heapInit A.heapp m,⟨A.base,A.last⟩⟩ [] ∅ ∅ := ⟨HeapOk.init A m,rfl⟩

/-- The counting loop walks the whole list. -/
lemma statusLoop_eq {m : Memory} {q fuel : ℕ} {l : List (Segment ℕ)} (n sz : ℕ) (h : Chain m q l 0)
    (hin : ∀ t ∈ l, A.Inside t) (hfuel : l.length < fuel) (hn : n+l.length < 2^32)
    (hsz : sz+(l.map fun t => t.length-8).sum < 2^32) :
    statusLoop m fuel q n sz = .ok (n+l.length,sz+(l.map fun t => t.length-8).sum) := by
  induction l generalizing q n sz fuel with
  | nil =>
    obtain ⟨fuel,rfl⟩ : ∃ k, fuel = k+1 := ⟨fuel-1,by simp at hfuel; omega⟩
    have hnext : m.next q = 0 := h.path
    simp [statusLoop,hnext]
  | cons t l ih =>
    obtain ⟨fuel,rfl⟩ : ∃ k, fuel = k+1 := ⟨fuel-1,by simp at hfuel; omega⟩
    have hpos := (hin t (by simp)).pos
    have hholds := h.holds t (by simp)
    have hnext : m.next q = t.start := h.path.1
    have hsize : m.size t.start = t.length-8 := by
      simp only [Holds,headerSize,Segment.length] at hholds ⊢
      omega
    simp only [List.length_cons,List.map_cons,List.sum_cons] at hfuel hn hsz ⊢
    have htail : Chain m t.start l 0 := ⟨h.path.2,fun u hu => h.holds u (by simp [hu])⟩
    simp only [statusLoop,hnext,hsize]
    rw [if_neg (by omega),wrap_of_lt (by omega),wrap_of_lt (by omega),
      ih _ _ htail (fun u hu => hin u (by simp [hu])) (by omega) (by omega) (by omega)]
    simp only [Except.ok.injEq,Prod.mk.injEq]
    omega

lemma sum_length_sub (l : List (Segment ℕ)) (hl : ∀ t ∈ l, 8 ≤ t.length) :
    (l.map fun t => t.length-8).sum+8*l.length = (l.map Segment.length).sum := by
  induction l with
  | nil => rfl
  | cons t l ih =>
    have ht := hl t (by simp)
    have hrest := ih fun u hu => hl u (by simp [hu])
    simp only [List.map_cons,List.sum_cons,List.length_cons]
    omega

/-- `chHeapStatus` counts every byte: the fragments, their headers and the blocks in use add up to
the memory the heap has taken from the core. -/
theorem chHeapStatus_accounts {m : Memory} {brk : ℕ} (h : HeapOk A m brk free live raw) :
    ∃ sz, chHeapStatus A.heapp m = .ok (free.length,sz) ∧
      sz+8*free.length+∑ t ∈ live ∪ raw, t.length = brk-A.base := by
  have htotal := h.tiling.total_length
  have hlen : ∀ t ∈ free, 8 ≤ t.length := by
    intro t ht
    have hroom := (h.inside_free ht).room
    simp only [Segment.length]
    omega
  have hsum := sum_length_sub free hlen
  have hbrk := h.brk_le
  have hlast := A.last_lt
  have hfuel := h.listed.length_lt
  have hrounds : rounds = 2^32 := by rw [rounds]
  refine ⟨(free.map fun t => t.length-8).sum,?_,by omega⟩
  have hloop := statusLoop_eq 0 0 h.chain (fun t => h.inside_free) hfuel (by omega)
    (by omega)
  simpa [chHeapStatus,Area.head] using hloop

/-- With nothing in use the memory taken from the core is one fragment again. -/
lemma HeapOk.free_of_unused {m : Memory} {brk : ℕ} (h : HeapOk A m brk free ∅ ∅) :
    if hlt : A.base < brk then free = [⟨A.base,brk,hlt⟩] else free = [] := by
  split_ifs with hlt
  · apply h.tiling.free_unique
    exact ⟨by simp [Separated],by simp,by simp,by simp [Segment.points]⟩
  · have heq : brk = A.base := le_antisymm (not_lt.mp hlt) h.base_le
    subst heq
    exact h.tiling.free_unique (Tiling.empty A.base)

end DspLibrary.Chibios
