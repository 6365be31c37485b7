import DspLibrary.Chibios.FreeList

/-! The invariant of the heap, and one lemma for each operation: the free list and the blocks
handed out tile the memory taken from the core. -/
namespace DspLibrary.Chibios
open DspLibrary.Foundation

/-- The heap at rest. `brk` is where the core will continue, `live` are the blocks callers hold,
and `raw` is core memory that was handed out without a header. -/
structure HeapOk (A : Area) (m : Memory) (brk : ℕ) (free : List (Segment ℕ))
    (live raw : Finset (Segment ℕ)) : Prop where
  tiling : Tiling A.base brk free (live ∪ raw)
  base_le : A.base ≤ brk
  brk_le : brk ≤ A.last
  brk_aligned : brk%8 = 0
  aligned : ∀ s, s ∈ free ∨ s ∈ live ∪ raw → s.start%8 = 0 ∧ s.stop%8 = 0
  chain : Chain m A.head free 0
  head : m.size A.head = 0
  apart : Disjoint live raw
  headers : ∀ s ∈ live, Holds m s ∧ m.heap s.start = A.heapp

section Carve
variable {A : Area} {s t : Segment ℕ} {l₁ l₂ : List (Segment ℕ)} {n : ℕ}

/-- The taken part starts where the block starts, is large enough, and is wasteful by less than
a header. -/
lemma carve_fits (hfit : s.start+8+n ≤ s.stop) :
    (carve s n).1.start = s.start ∧ s.start+8+n ≤ (carve s n).1.stop ∧
      (carve s n).1.stop < s.start+16+n := by
  simp only [carve]
  split_ifs with h
  · exact ⟨rfl,le_rfl,by simp⟩
  · exact ⟨rfl,hfit,by dsimp only; omega⟩

lemma points_carve (s : Segment ℕ) (n : ℕ) :
    s.points = (carve s n).1.points ∪ cover (carve s n).2 := by
  simp only [carve]
  split_ifs with h
  · ext a
    simp only [Segment.mem_points,cover_cons,cover_nil,Set.union_empty,Set.mem_union]
    omega
  · simp

lemma mem_carve (h : t ∈ (carve s n).2) : (carve s n).1.stop = t.start ∧ t.stop = s.stop := by
  simp only [carve] at h ⊢
  split_ifs at h ⊢ with hsplit
  · rw [List.mem_singleton.mp h]
    exact ⟨rfl,rfl⟩
  · cases h

lemma carve_stop (s : Segment ℕ) (n : ℕ) :
    (carve s n).1.stop = s.stop ∨ (carve s n).1.stop = s.start+8+n := by
  simp only [carve]
  split_ifs with h
  · exact .inr rfl
  · exact .inl rfl

lemma separated_carve (h : Separated (l₁++s::l₂)) (hfit : s.start+8+n ≤ s.stop) :
    Separated (l₁++((carve s n).2++l₂)) := by
  obtain ⟨h₁,hs,h₂⟩ := separated_append.mp h
  obtain ⟨hsl,hl⟩ := separated_cons.mp hs
  have hmem : ∀ t ∈ (carve s n).2, s.start < t.start ∧ t.stop = s.stop := by
    intro t ht
    obtain ⟨he,hstop⟩ := mem_carve ht
    have hlt := (carve s n).1.lt
    rw [(carve_fits hfit).1,he] at hlt
    exact ⟨hlt,hstop⟩
  have hrest : Separated (carve s n).2 := by
    simp only [carve]
    split_ifs
    · simp [Separated]
    · simp
  refine separated_append.mpr ⟨h₁,separated_append.mpr ⟨hrest,hl,?_⟩,?_⟩
  · intro t ht u hu
    exact (hmem t ht).2 ▸ hsl u hu
  · intro u hu t ht
    rcases List.mem_append.mp ht with ht | ht
    · exact (h₂ u hu s (by simp)).trans (hmem t ht).1
    · exact h₂ u hu t (by simp [ht])

/-- The taken part lies in no block that stays free. -/
lemma disjoint_carve (h : Ascending (l₁++s::l₂)) (hfit : s.start+8+n ≤ s.stop) :
    Disjoint (carve s n).1.points (cover (l₁++((carve s n).2++l₂))) := by
  obtain ⟨-,hs,h₂⟩ := ascending_append.mp h
  have hstart := (carve_fits hfit).1
  have hstop : (carve s n).1.stop ≤ s.stop := by
    rcases carve_stop s n with he | he <;> omega
  rw [Set.disjoint_left]
  intro a ha hmem
  obtain ⟨t,ht,hat⟩ := mem_cover.mp hmem
  simp only [Segment.mem_points] at ha hat
  rw [List.mem_append,List.mem_append] at ht
  rcases ht with ht | ht | ht
  · have hle := h₂ t ht s (by simp)
    omega
  · have he := (mem_carve ht).1
    omega
  · have hle := (ascending_cons.mp hs).1 t ht
    omega

/-- Either every block is too small for a request, or there is a first one that is not. -/
lemma exists_first_fit (l : List (Segment ℕ)) (n : ℕ) :
    (∀ t ∈ l, t.stop < t.start+8+n) ∨ ∃ l₁ s l₂, l = l₁++s::l₂ ∧
      (∀ t ∈ l₁, t.stop < t.start+8+n) ∧ s.start+8+n ≤ s.stop := by
  cases h : l.find? fun t => decide (t.start+8+n ≤ t.stop) with
  | none => exact .inl (by simpa using h)
  | some s =>
    obtain ⟨hs,l₁,l₂,rfl,hsmall⟩ := List.find?_eq_some_iff_append.mp h
    exact .inr ⟨l₁,s,l₂,rfl,by simpa using hsmall,by simpa using hs⟩

end Carve

namespace HeapOk
variable {A : Area} {m m' : Memory} {brk n : ℕ} {free : List (Segment ℕ)}
  {live raw : Finset (Segment ℕ)} {s : Segment ℕ}

lemma inside_free (h : HeapOk A m brk free live raw) (hs : s ∈ free) : A.Inside s := by
  obtain ⟨h1,h2⟩ := h.tiling.free_bounds hs
  obtain ⟨h3,h4⟩ := h.aligned s (.inl hs)
  exact ⟨h1,h2.trans h.brk_le,h3,h4⟩

lemma inside_used (h : HeapOk A m brk free live raw) (hs : s ∈ live ∪ raw) : A.Inside s := by
  obtain ⟨h1,h2⟩ := h.tiling.used_bounds hs
  obtain ⟨h3,h4⟩ := h.aligned s (.inr hs)
  exact ⟨h1,h2.trans h.brk_le,h3,h4⟩

lemma listed (h : HeapOk A m brk free live raw) : A.Listed free :=
  ⟨h.tiling.separated.ascending,fun _ => h.inside_free⟩

/-- The heap after `_heap_init`, over any memory. -/
lemma init (A : Area) (m : Memory) : HeapOk A (heapInit A.heapp m) A.base [] ∅ ∅ := by
  refine ⟨by simpa using Tiling.empty A.base,le_rfl,A.base_le_last,A.base_aligned,by simp,
    ⟨?_,by simp⟩,?_,by simp,by simp⟩
  · simp [heapInit,Memory.next,Memory.setNext,Memory.setSize,Area.head]
  · simp [heapInit,Memory.size,Memory.setSize,Area.head]

/-- The list head lies in no free block. -/
lemma head_notMem_cover (h : HeapOk A m brk free live raw) {a : ℕ} (h1 : A.head ≤ a)
    (h2 : a < A.head+8) : a ∉ cover free := by
  intro hmem
  obtain ⟨t,ht,hat⟩ := mem_cover.mp hmem
  have hlt := (h.inside_free ht).head_lt_or
  simp only [Segment.mem_points] at hat
  omega

/-- The heap only depends on the list head and on the headers. -/
lemma congr (h : HeapOk A m brk free live raw) (hhead : SameHeader m m' A.head)
    (hfree : ∀ s ∈ free, SameHeader m m' s.start) (hlive : ∀ s ∈ live, SameHeader m m' s.start) :
    HeapOk A m' brk free live raw where
  tiling := h.tiling
  base_le := h.base_le
  brk_le := h.brk_le
  brk_aligned := h.brk_aligned
  aligned := h.aligned
  chain := h.chain.congr hhead.1 hfree
  head := hhead.2.trans h.head
  apart := h.apart
  headers s hs := ⟨(h.headers s hs).1.congr (hlive s hs).2,(hlive s hs).1.trans (h.headers s hs).2⟩

/-- Writes outside the list head and the free blocks, except for one used block, keep the
headers of the others. -/
lemma headers_kept (h : HeapOk A m brk free live raw) (hs : s ∈ live) {P : Set ℕ}
    (hP : Disjoint s.points P) (hframe : ∀ a, a ≠ A.head → a ∉ P → m' a = m a) :
    Holds m' s ∧ m'.heap s.start = A.heapp := by
  have hin := h.inside_used (Finset.mem_union_left raw hs)
  have hroom := hin.room
  have hne := hin.head_lt_or
  have hkeep : ∀ a, a ∈ s.points → m' a = m a := by
    intro a ha
    apply hframe a _ (Set.disjoint_left.mp hP ha)
    simp only [Segment.mem_points] at ha
    omega
  obtain ⟨hholds,howner⟩ := h.headers s hs
  exact ⟨hholds.congr (hkeep _ ⟨by omega,by omega⟩),(hkeep _ s.start_mem).trans howner⟩

/-- The search finds nothing when no free block is large enough. -/
lemma search_miss (h : HeapOk A m brk free live raw) (hsmall : ∀ t ∈ free, t.stop < t.start+8+n) :
    searchFree A.heapp n m = .ok none := searchFree_miss h.listed h.chain hsmall

/-- Otherwise it takes the first such block. -/
lemma search_hit {l₁ l₂ : List (Segment ℕ)} (h : HeapOk A m brk (l₁++s::l₂) live raw)
    (hn : n%8 = 0) (hsmall : ∀ t ∈ l₁, t.stop < t.start+8+n) (hfit : s.start+8+n ≤ s.stop) :
    ∃ m', searchFree A.heapp n m = .ok (some (s.start+8,m')) ∧
      HeapOk A m' brk (l₁++((carve s n).2++l₂)) (insert (carve s n).1 live) raw ∧
      ∀ a, a ≠ A.head → a ∉ cover (l₁++s::l₂) → m' a = m a := by
  obtain ⟨m',hout,hchain,hholds,howner,hkeep⟩ := takeFit_spec h.listed h.chain hn hfit
  obtain ⟨hstart,hroom,-⟩ := carve_fits hfit
  have hframe : ∀ a, a ≠ A.head → a ∉ cover (l₁++s::l₂) → m' a = m a := by
    intro a ha hmem
    apply hkeep
    · intro he
      obtain hq | ⟨t,ht,hq⟩ := A.nodeBefore_cases l₁
      · exact ha (he.trans hq)
      · exact hmem (points_subset_cover (by simp [ht]) (he.trans hq ▸ t.start_mem))
    · exact fun hs => hmem (points_subset_cover (by simp) hs)
  have hsub : (carve s n).1.points ⊆ cover (l₁++s::l₂) := by
    intro a ha
    apply points_subset_cover (s := s) (by simp)
    rw [points_carve s n]
    exact .inl ha
  have hin := h.inside_free (s := s) (by simp)
  have hraw : (carve s n).1 ∉ raw := by
    intro hmem
    have hdisj := h.tiling.apart _ (Finset.mem_union_right live hmem)
    exact Set.disjoint_left.mp hdisj (Segment.start_mem _) (hsub (Segment.start_mem _))
  refine ⟨m',?_,?_,hframe⟩
  · rw [searchFree_hit h.listed h.chain hsmall hfit,hout]
  constructor
  · rw [Finset.insert_union]
    apply h.tiling.take (separated_carve h.tiling.separated hfit)
    · exact disjoint_carve h.tiling.separated.ascending hfit
    · simp only [cover_append,cover_cons]
      rw [points_carve s n]
      ac_rfl
  · exact h.base_le
  · exact h.brk_le
  · exact h.brk_aligned
  · intro t ht
    rw [Finset.insert_union,Finset.mem_insert,List.mem_append,List.mem_append] at ht
    have hb8 : (carve s n).1.stop%8 = 0 := by
      have h1 := hin.start_aligned
      have h2 := hin.stop_aligned
      rcases carve_stop s n with he | he <;> omega
    rcases ht with (ht | ht | ht) | rfl | ht
    · exact h.aligned t (.inl (by simp [ht]))
    · obtain ⟨he,he'⟩ := mem_carve ht
      exact ⟨he ▸ hb8,he' ▸ hin.stop_aligned⟩
    · exact h.aligned t (.inl (by simp [ht]))
    · exact ⟨hstart ▸ hin.start_aligned,hb8⟩
    · exact h.aligned t (.inr ht)
  · exact hchain
  · have hkeep : m' (A.head+4) = m (A.head+4) :=
      hframe _ (by omega) (h.head_notMem_cover (by omega) (by omega))
    exact hkeep.trans h.head
  · rw [Finset.disjoint_insert_left]
    exact ⟨hraw,h.apart⟩
  · intro t ht
    rcases Finset.mem_insert.mp ht with rfl | ht
    · exact ⟨hholds,hstart ▸ howner⟩
    · exact h.headers_kept ht (h.tiling.apart t (Finset.mem_union_left raw ht)) hframe

/-- A live block is taken back. -/
lemma free_live (h : HeapOk A m brk free live raw) (hs : s ∈ live) :
    ∃ m' free', chHeapFree (s.start+8) m = .ok m' ∧
      HeapOk A m' brk free' (live.erase s) raw ∧
      ∀ a, a ≠ A.head → a ∉ cover free → a ∉ s.points → m' a = m a := by
  have hused : s ∈ live ∪ raw := Finset.mem_union_left raw hs
  have hraw : s ∉ raw := Finset.disjoint_left.mp h.apart hs
  have hin := h.inside_used hused
  obtain ⟨hholds,howner⟩ := h.headers s hs
  obtain ⟨l₁,l₂,rfl,h₁,h₂⟩ := h.tiling.separated.ascending.split (h.tiling.apart s hused)
  have hasc := ascending_append.mp h.listed.ascending
  have hlist : A.Listed (l₁++s::l₂) := by
    refine ⟨ascending_append.mpr ⟨hasc.1,ascending_cons.mpr ⟨h₂,hasc.2.1⟩,?_⟩,?_⟩
    · intro t ht u hu
      rcases List.mem_cons.mp hu with rfl | hu
      · exact h₁ t ht
      · exact hasc.2.2 t ht u hu
    · intro t ht
      rcases List.mem_append.mp ht with ht | ht
      · exact h.inside_free (by simp [ht])
      · rcases List.mem_cons.mp ht with rfl | ht
        · exact hin
        · exact h.inside_free (by simp [ht])
  obtain ⟨m',free',hfree,hret⟩ := chHeapFree_returns hlist h.tiling.separated h.chain h.head hholds
    howner
  refine ⟨m',free',hfree,?_,hret.frame⟩
  have hunion : live.erase s ∪ raw = (live ∪ raw).erase s := by
    rw [Finset.erase_union_distrib,Finset.erase_eq_of_notMem hraw]
  constructor
  · rw [hunion]
    exact h.tiling.release hused hret.separated hret.cover
  · exact h.base_le
  · exact h.brk_le
  · exact h.brk_aligned
  · intro t ht
    rcases ht with ht | ht
    · exact ⟨(hret.listed.inside t ht).start_aligned,(hret.listed.inside t ht).stop_aligned⟩
    · exact h.aligned t (.inr (Finset.mem_of_mem_erase (hunion ▸ ht)))
  · exact hret.chain
  · have hkeep : m' (A.head+4) = m (A.head+4) := by
      have hlt := hin.head_lt_or
      exact hret.frame _ (by omega) (h.head_notMem_cover (by omega) (by omega))
        (by simp only [Segment.mem_points]; omega)
    exact hkeep.trans h.head
  · exact h.apart.mono_left (Finset.erase_subset _ _)
  · intro t ht
    obtain ⟨hne,ht⟩ := Finset.mem_erase.mp ht
    have htused : t ∈ live ∪ raw := Finset.mem_union_left raw ht
    apply h.headers_kept ht (P := cover (l₁++l₂) ∪ s.points)
    · exact Set.disjoint_union_right.mpr ⟨h.tiling.apart t htused,h.tiling.disjoint htused hused hne⟩
    · intro a ha hmem
      rw [Set.mem_union,not_or] at hmem
      exact hret.frame a ha hmem.1 hmem.2

/-- The core hands out its next bytes. -/
lemma core (h : HeapOk A m brk free live raw) (hs : s.start = brk) (hle : s.stop ≤ A.last)
    (hs8 : s.stop%8 = 0) : HeapOk A m s.stop free live (insert s raw) := by
  have hunion : live ∪ insert s raw = insert s (live ∪ raw) := Finset.union_insert s live raw
  have hlive : s ∉ live := by
    intro hmem
    have hbound := (h.tiling.used_bounds (Finset.mem_union_left raw hmem)).2
    have hlt := s.lt
    omega
  constructor
  · rw [hunion]
    exact h.tiling.extend hs h.base_le
  · exact h.base_le.trans (hs ▸ s.lt.le)
  · exact hle
  · exact hs8
  · intro t ht
    rcases ht with ht | ht
    · exact h.aligned t (.inl ht)
    · rcases Finset.mem_insert.mp (hunion ▸ ht) with rfl | ht
      · exact ⟨hs ▸ h.brk_aligned,hs8⟩
      · exact h.aligned t (.inr ht)
  · exact h.chain
  · exact h.head
  · rw [Finset.disjoint_insert_right]
    exact ⟨hlive,h.apart⟩
  · exact h.headers

/-- A word of a used block is in no other header and not in the list head. -/
lemma header_ne (h : HeapOk A m brk free live raw) (hs : s ∈ live ∪ raw) {a : ℕ}
    (ha : a ∈ s.points) {t : Segment ℕ} (ht : t ∈ free ∨ t ∈ live ∪ raw ∧ t ≠ s) :
    t.start ≠ a ∧ t.start+4 ≠ a := by
  have hdisj : Disjoint s.points t.points := by
    rcases ht with ht | ⟨ht,hne⟩
    · exact (h.tiling.apart s hs).mono_right (points_subset_cover ht)
    · exact h.tiling.disjoint hs ht hne.symm
  have hroom : t.start+8 ≤ t.stop := by
    rcases ht with ht | ⟨ht,-⟩
    · exact (h.inside_free ht).room
    · exact (h.inside_used ht).room
  have hnot := Set.disjoint_left.mp hdisj ha
  simp only [Segment.mem_points] at hnot
  omega

lemma head_ne (h : HeapOk A m brk free live raw) (hs : s ∈ live ∪ raw) {a : ℕ}
    (ha : a ∈ s.points) : A.head ≠ a ∧ A.head+4 ≠ a := by
  have hlt := (h.inside_used hs).head_lt_or
  simp only [Segment.mem_points] at ha
  omega

/-- Writes inside one used block, off its header if it has one, are not noticed. -/
lemma write_used (h : HeapOk A m brk free live raw) (hs : s ∈ live ∪ raw)
    (hframe : ∀ a, a ∉ s.points → m' a = m a) (hheader : s ∈ live → SameHeader m m' s.start) :
    HeapOk A m' brk free live raw := by
  apply h.congr
  · exact ⟨hframe _ fun ha => (h.head_ne hs ha).1 rfl,hframe _ fun ha => (h.head_ne hs ha).2 rfl⟩
  · intro t ht
    exact ⟨hframe _ fun ha => (h.header_ne hs ha (.inl ht)).1 rfl,
      hframe _ fun ha => (h.header_ne hs ha (.inl ht)).2 rfl⟩
  · intro t ht
    by_cases hts : t = s
    · exact hts ▸ hheader (hts ▸ ht)
    · have hother : t ∈ free ∨ t ∈ live ∪ raw ∧ t ≠ s := .inr ⟨Finset.mem_union_left raw ht,hts⟩
      exact ⟨hframe _ fun ha => (h.header_ne hs ha hother).1 rfl,
        hframe _ fun ha => (h.header_ne hs ha hother).2 rfl⟩

/-- A block from the core gets its header. -/
lemma header (h : HeapOk A m brk free live raw) (hs : s ∈ raw) (hn : s.start+8+n = s.stop) :
    HeapOk A (provideHeader A.heapp n s.start m).2 brk free (insert s live) (raw.erase s) := by
  have hlive : s ∉ live := Finset.disjoint_right.mp h.apart hs
  have hframe : ∀ a, a ∉ s.points → (provideHeader A.heapp n s.start m).2 a = m a := by
    intro a ha
    simp only [Segment.mem_points] at ha
    simp only [provideHeader,Memory.setSize,Memory.setHeap,Function.update_apply]
    grind
  have h' := h.write_used (Finset.mem_union_right live hs) hframe (fun hmem => absurd hmem hlive)
  have hunion : insert s live ∪ raw.erase s = live ∪ raw := by
    rw [Finset.insert_union,← Finset.union_insert,Finset.insert_erase hs]
  refine ⟨hunion ▸ h'.tiling,h'.base_le,h'.brk_le,h'.brk_aligned,hunion ▸ h'.aligned,h'.chain,
    h'.head,?_,?_⟩
  · rw [Finset.disjoint_insert_left]
    exact ⟨Finset.notMem_erase s raw,h.apart.mono_right (Finset.erase_subset _ _)⟩
  · intro t ht
    rcases Finset.mem_insert.mp ht with rfl | ht
    · constructor
      · simpa [Holds,provideHeader,Memory.size,Memory.setSize,headerSize] using hn
      · simp [provideHeader,Memory.heap,Memory.setHeap,Memory.setSize]
    · exact h'.headers t ht

/-- The holder of a block may write it. -/
lemma write (h : HeapOk A m brk free live raw) {a v : ℕ}
    (ha : (∃ s ∈ live, s.start+8 ≤ a ∧ a < s.stop) ∨ ∃ s ∈ raw, a ∈ s.points) :
    HeapOk A (Function.update m a v) brk free live raw := by
  have hother : ∀ b, b ≠ a → Function.update m a v b = m b := fun b hb => Function.update_of_ne hb v m
  rcases ha with ⟨s,hs,ha⟩ | ⟨s,hs,ha⟩
  · have hmem : a ∈ s.points := ⟨by omega,ha.2⟩
    apply h.write_used (Finset.mem_union_left raw hs)
    · exact fun b hb => hother b fun he => hb (he ▸ hmem)
    · exact fun _ => ⟨hother _ (by omega),hother _ (by omega)⟩
  · apply h.write_used (Finset.mem_union_right live hs)
    · exact fun b hb => hother b fun he => hb (he ▸ ha)
    · exact fun hlive => absurd hs (Finset.disjoint_left.mp h.apart hlive)

end HeapOk
end DspLibrary.Chibios
