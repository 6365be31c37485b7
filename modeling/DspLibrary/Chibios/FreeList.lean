import DspLibrary.Foundation.Segments
import DspLibrary.Chibios.Heap

/-! The free list of the heap as a list of segments of the address space, and what the edits of
`chHeapAlloc` and `chHeapFree` do to it. -/
namespace DspLibrary.Chibios
open DspLibrary.Foundation

/-- The header at the start of a segment gives its extent. -/
def Holds (m : Memory) (s : Segment ℕ) : Prop := s.start+headerSize+m.size s.start = s.stop

/-- From the node `q` on, the list in memory has these blocks and then leads to `r`. -/
structure Chain (m : Memory) (q : ℕ) (l : List (Segment ℕ)) (r : ℕ) : Prop where
  path : Path m.next q (l.map Segment.start) r
  holds : ∀ s ∈ l, Holds m s

/-- The link `b` leads through these blocks to the end of the list. -/
structure Tail (m : Memory) (b : ℕ) (l : List (Segment ℕ)) : Prop where
  leads : Leads m.next b (l.map Segment.start) 0
  holds : ∀ s ∈ l, Holds m s

/-- The two memories have the same header at `p`. -/
def SameHeader (m m' : Memory) (p : ℕ) : Prop := m' p = m p ∧ m' (p+4) = m (p+4)

section Lists
variable {m m' : Memory} {q b r : ℕ} {s : Segment ℕ} {l l' : List (Segment ℕ)}

lemma Holds.congr (h : Holds m s) (hs : m' (s.start+4) = m (s.start+4)) : Holds m' s := by
  simpa [Holds,Memory.size,hs] using h

lemma chain_append_iff : Chain m q (l++l') 0 ↔ ∃ b, Chain m q l b ∧ Tail m b l' := by
  constructor
  · rintro ⟨hpath,hholds⟩
    rw [List.map_append,Path.append_iff] at hpath
    obtain ⟨b,hl,hl'⟩ := hpath
    exact ⟨b,⟨hl,fun s hs => hholds s (by simp [hs])⟩,⟨hl',fun s hs => hholds s (by simp [hs])⟩⟩
  · rintro ⟨b,hl,hl'⟩
    refine ⟨?_,?_⟩
    · rw [List.map_append,Path.append_iff]
      exact ⟨b,hl.path,hl'.leads⟩
    · intro s hs
      rcases List.mem_append.mp hs with hs | hs
      · exact hl.holds s hs
      · exact hl'.holds s hs

lemma tail_cons_iff : Tail m b (s::l) ↔ b = s.start ∧ Holds m s ∧ Tail m (m.next s.start) l := by
  constructor
  · rintro ⟨⟨hb,hpath⟩,hholds⟩
    exact ⟨hb,hholds s (by simp),⟨Path.iff_leads.mp hpath,fun t ht => hholds t (by simp [ht])⟩⟩
  · rintro ⟨hb,hs,hl⟩
    refine ⟨⟨hb,Path.iff_leads.mpr hl.leads⟩,?_⟩
    intro t ht
    rcases List.mem_cons.mp ht with rfl | ht
    · exact hs
    · exact hl.holds t ht

lemma Chain.next_last (h : Chain m q l r) : m.next (lastNode q (l.map Segment.start)) = r :=
  h.path.next_lastNode

lemma Chain.congr (h : Chain m q l r) (hq : m' q = m q) (hl : ∀ s ∈ l, SameHeader m m' s.start) :
    Chain m' q l r := by
  refine ⟨h.path.congr ?_,fun s hs => (h.holds s hs).congr (hl s hs).2⟩
  intro c hc
  rcases List.mem_cons.mp hc with rfl | hc
  · exact hq
  · obtain ⟨s,hs,rfl⟩ := List.mem_map.mp hc
    exact (hl s hs).1

lemma Tail.congr (h : Tail m b l) (hl : ∀ s ∈ l, SameHeader m m' s.start) : Tail m' b l := by
  refine ⟨h.leads.congr ?_,fun s hs => (h.holds s hs).congr (hl s hs).2⟩
  intro c hc
  obtain ⟨s,hs,rfl⟩ := List.mem_map.mp hc
  exact (hl s hs).1

/-- Turning the last link of a chain elsewhere. -/
lemma Chain.redirect (h : Chain m q l r) (hnodup : (q::l.map Segment.start).Nodup) {r' : ℕ}
    (hlast : m' (lastNode q (l.map Segment.start)) = r')
    (hrest : ∀ c ∈ q::l.map Segment.start, c ≠ lastNode q (l.map Segment.start) → m' c = m c)
    (hsize : ∀ s ∈ l, m' (s.start+4) = m (s.start+4)) : Chain m' q l r' :=
  ⟨h.path.redirect hnodup hlast hrest,fun s hs => (h.holds s hs).congr (hsize s hs)⟩

end Lists

/-- Where a heap lies: its descriptor, and the memory its blocks are cut from. -/
structure Area where
  heapp : ℕ
  base : ℕ
  last : ℕ
  heapp_aligned : heapp%8 = 0
  base_aligned : base%8 = 0
  base_pos : 0 < base
  base_le_last : base ≤ last
  last_lt : last < 2^32
  apart : heapp+descriptorSize ≤ base ∨ last ≤ heapp
  heapp_lt : heapp+descriptorSize ≤ 2^32

/-- A small area in the static memory of the target. -/
def sram : Area where
  heapp := 0x20000100
  base := 0x20000800
  last := 0x20001000
  heapp_aligned := by decide
  base_aligned := by decide
  base_pos := by decide
  base_le_last := by decide
  last_lt := by decide
  apart := by decide
  heapp_lt := by decide

namespace Area
variable (A : Area)

def head : ℕ := freeHead A.heapp

/-- A segment that can be a block of the heap. -/
structure Inside (s : Segment ℕ) : Prop where
  base_le : A.base ≤ s.start
  le_last : s.stop ≤ A.last
  start_aligned : s.start%8 = 0
  stop_aligned : s.stop%8 = 0

lemma head_aligned : A.head%8 = 0 := by
  have := A.heapp_aligned
  simp only [head,freeHead]
  omega

variable {A} {s t : Segment ℕ} {l l₁ l₂ : List (Segment ℕ)} {m : Memory}

/-- A block has room for its header. -/
lemma Inside.room (h : A.Inside s) : s.start+8 ≤ s.stop := by
  have hlt := s.lt
  have h1 := h.start_aligned
  have h2 := h.stop_aligned
  omega

lemma Inside.pos (h : A.Inside s) : 0 < s.start := by
  have h1 := A.base_pos
  have h2 := h.base_le
  omega

lemma Inside.stop_lt (h : A.Inside s) : s.stop < 2^32 := by
  have h1 := A.last_lt
  have h2 := h.le_last
  omega

/-- No block touches the list head. -/
lemma Inside.head_lt_or (h : A.Inside s) : A.head+8 < s.start ∨ s.stop ≤ A.head := by
  have h1 := h.base_le
  have h2 := h.le_last
  have h3 := A.apart
  simp only [head,freeHead,descriptorSize] at *
  omega

lemma Inside.ne_head (h : A.Inside s) : s.start ≠ A.head := by
  have h1 := h.head_lt_or
  have h2 := s.lt
  omega

/-- A list of blocks in the order of their addresses. -/
structure Listed (A : Area) (l : List (Segment ℕ)) : Prop where
  ascending : Ascending l
  inside : ∀ s ∈ l, A.Inside s

lemma Listed.nodup (h : A.Listed l) : (A.head::l.map Segment.start).Nodup := by
  refine List.nodup_cons.mpr ⟨?_,?_⟩
  · intro hmem
    obtain ⟨s,hs,he⟩ := List.mem_map.mp hmem
    exact (h.inside s hs).ne_head he
  · exact List.pairwise_map.mpr (h.ascending.imp fun {s _} hst => (s.lt.trans_le hst).ne)

/-- A free list is never too long for the loops over it. -/
lemma Listed.length_lt (h : A.Listed l) : l.length < rounds := by
  have hnodup := (List.nodup_cons.mp h.nodup).2
  have hsub : (l.map Segment.start).toFinset ⊆ Finset.range A.last := by
    intro a ha
    obtain ⟨s,hs,rfl⟩ := List.mem_map.mp (List.mem_toFinset.mp ha)
    have h1 := s.lt
    have h2 := (h.inside s hs).le_last
    simp only [Finset.mem_range]
    omega
  have hcard := Finset.card_le_card hsub
  rw [List.toFinset_card_of_nodup hnodup,List.length_map,Finset.card_range] at hcard
  rw [rounds]
  exact hcard.trans_lt A.last_lt

lemma Listed.left (h : A.Listed (l₁++l₂)) : A.Listed l₁ :=
  ⟨(ascending_append.mp h.ascending).1,fun s hs => h.inside s (by simp [hs])⟩

lemma Listed.right (h : A.Listed (l₁++l₂)) : A.Listed l₂ :=
  ⟨(ascending_append.mp h.ascending).2.1,fun s hs => h.inside s (by simp [hs])⟩

/-- The node before a place of the list: the list head or the block before. -/
def nodeBefore (A : Area) (l : List (Segment ℕ)) : ℕ := lastNode A.head (l.map Segment.start)

lemma nodeBefore_cases (A : Area) (l : List (Segment ℕ)) :
    A.nodeBefore l = A.head ∨ ∃ s ∈ l, A.nodeBefore l = s.start := by
  rcases List.mem_cons.mp (lastNode_mem A.head (l.map Segment.start)) with h | h
  · exact .inl h
  · obtain ⟨s,hs,he⟩ := List.mem_map.mp h
    exact .inr ⟨s,hs,he.symm⟩

lemma Listed.nodeBefore_aligned (h : A.Listed l) : A.nodeBefore l%8 = 0 := by
  obtain he | ⟨s,hs,he⟩ := A.nodeBefore_cases l
  · exact he ▸ A.head_aligned
  · exact he ▸ (h.inside s hs).start_aligned

/-- The node before a block is not a block from there on. -/
lemma Listed.nodeBefore_ne (h : A.Listed (l₁++l₂)) (hs : s ∈ l₂) : A.nodeBefore l₁ ≠ s.start := by
  obtain he | ⟨t,ht,he⟩ := A.nodeBefore_cases l₁
  · exact he ▸ ((h.inside s (by simp [hs])).ne_head).symm
  · rw [he]
    exact (t.lt.trans_le ((ascending_append.mp h.ascending).2.2 t ht s hs)).ne

/-- Neither is it inside one. -/
lemma Listed.nodeBefore_notMem (h : A.Listed (l₁++l₂)) (hs : s ∈ l₂) :
    A.nodeBefore l₁ ∉ s.points := by
  intro hmem
  simp only [Segment.mem_points] at hmem
  obtain he | ⟨t,ht,he⟩ := A.nodeBefore_cases l₁
  · have h1 := (h.inside s (by simp [hs])).head_lt_or
    omega
  · have h1 := t.lt
    have h2 := (ascending_append.mp h.ascending).2.2 t ht s hs
    omega

end Area

/-- What a request of `n` bytes takes from a block, and what it leaves. -/
def carve (s : Segment ℕ) (n : ℕ) : Segment ℕ × List (Segment ℕ) :=
  if h : s.start+8+n+8 ≤ s.stop then
    (⟨s.start,s.start+8+n,by omega⟩,[⟨s.start+8+n,s.stop,by omega⟩])
  else (s,[])

section Edits
variable {A : Area} {m : Memory} {s t : Segment ℕ} {l₁ l₂ : List (Segment ℕ)} {n : ℕ}

/-- The list around a block. -/
lemma Chain.around (h : Chain m A.head (l₁++s::l₂) 0) :
    Chain m A.head l₁ s.start ∧ Holds m s ∧ Tail m (m.next s.start) l₂ := by
  obtain ⟨b,h₁,ht⟩ := chain_append_iff.mp h
  obtain ⟨rfl,hs,h₂⟩ := tail_cons_iff.mp ht
  exact ⟨h₁,hs,h₂⟩

/-- An edit that writes only the link before a block and the block itself leaves the list on
both sides as it was, with the link turned. -/
lemma splice {m' : Memory} {r r' b : ℕ} (hlist : A.Listed (l₁++s::l₂))
    (h₁ : Chain m A.head l₁ r) (h₂ : Tail m b l₂)
    (hframe : ∀ a, a ≠ A.nodeBefore l₁ → a ∉ s.points → m' a = m a)
    (hq : m' (A.nodeBefore l₁) = r') : Chain m' A.head l₁ r' ∧ Tail m' b l₂ := by
  have hs := hlist.inside s (by simp)
  have hq8 : A.nodeBefore l₁%8 = 0 := hlist.left.nodeBefore_aligned
  have hsep := ascending_append.mp hlist.ascending
  have hleft : ∀ t ∈ l₁, ∀ a, a < t.stop → a ∉ s.points := by
    intro t ht a ha hmem
    have hlt := hsep.2.2 t ht s (by simp)
    have hge := hmem.1
    omega
  have hright : ∀ t ∈ l₂, ∀ a, t.start ≤ a → a ∉ s.points := by
    intro t ht a ha hmem
    have hlt := (ascending_cons.mp hsep.2.1).1 t ht
    have hge := hmem.2
    omega
  refine ⟨h₁.redirect hlist.left.nodup hq ?_ ?_,h₂.congr ?_⟩
  · intro c hc hne
    rcases List.mem_cons.mp hc with rfl | hc
    · apply hframe _ hne
      intro hmem
      have h1 := hs.head_lt_or
      simp only [Segment.mem_points] at hmem
      omega
    · obtain ⟨t,ht,rfl⟩ := List.mem_map.mp hc
      exact hframe _ hne (hleft t ht _ t.lt)
  · intro t ht
    have hin := hlist.inside t (by simp [ht])
    have h1 := hin.room
    have h2 := hin.start_aligned
    exact hframe _ (by omega) (hleft t ht _ (by omega))
  · intro t ht
    have hin := hlist.inside t (by simp [ht])
    have h2 := hin.start_aligned
    have hne : A.nodeBefore l₁ ≠ t.start := hlist.nodeBefore_ne (by simp [ht])
    exact ⟨hframe _ hne.symm (hright t ht _ le_rfl),hframe _ (by omega) (hright t ht _ (by omega))⟩

/-- A block whose rest is too small for a header is taken whole. -/
lemma takeFit_whole (heapp : ℕ) {q : ℕ} (hnext : m.next q = s.start) (hs : Holds m s)
    (hlt : s.stop < 2^32) (hfit : s.start+8+n ≤ s.stop) (hwhole : s.stop < s.start+8+n+8)
    (hq : q ∉ s.points) :
    ∃ m', takeFit m heapp n q = (s.start+8,m') ∧ m' q = m.next s.start ∧
      m'.heap s.start = heapp ∧ m'.size s.start = m.size s.start ∧
      ∀ a, a ≠ q → a ∉ s.points → m' a = m a := by
  simp only [Holds,headerSize] at hs
  simp only [Segment.mem_points] at hq ⊢
  have hwrap : wrap (n+headerSize) = n+8 := wrap_of_lt (by simp only [headerSize]; omega)
  have hsize : m.size s.start < n+8 := by omega
  refine ⟨(m.setNext q (m.next s.start)).setHeap s.start heapp,?_,?_⟩
  · simp only [takeFit,hnext,hwrap,if_pos hsize]
    rw [wrap_of_lt (by simp only [headerSize]; omega)]
    rfl
  · simp only [Memory.next,Memory.size,Memory.heap,Memory.setNext,Memory.setHeap,
      Function.update_apply]
    grind

/-- A larger block is split. -/
lemma takeFit_split (heapp : ℕ) {q : ℕ} (hnext : m.next q = s.start) (hs : Holds m s)
    (hlt : s.stop < 2^32) (hs8 : s.start%8 = 0) (hn : n%8 = 0) (hq8 : q%8 = 0)
    (hsplit : s.start+8+n+8 ≤ s.stop) (hq : q ∉ s.points) :
    ∃ m', takeFit m heapp n q = (s.start+8,m') ∧ m' q = s.start+8+n ∧
      m'.next (s.start+8+n) = m.next s.start ∧ m'.size (s.start+8+n) = s.stop-(s.start+8+n)-8 ∧
      m'.heap s.start = heapp ∧ m'.size s.start = n ∧
      ∀ a, a ≠ q → a ∉ s.points → m' a = m a := by
  simp only [Holds,headerSize] at hs
  simp only [Segment.mem_points] at hq ⊢
  have hwrap : wrap (n+headerSize) = n+8 := wrap_of_lt (by simp only [headerSize]; omega)
  have hsize : ¬ m.size s.start < n+8 := by omega
  have hfp : wrap (s.start+headerSize+n) = s.start+8+n := wrap_of_lt (by simp only [headerSize]; omega)
  have hkeep : (m.setNext (s.start+8+n) (m.next s.start)).size s.start = m.size s.start := by
    have hne : s.start+4 ≠ s.start+8+n := by omega
    simp [Memory.size,Memory.setNext,Function.update_of_ne hne]
  have hrest : wrapSub (wrapSub (m.size s.start) headerSize) n = s.stop-(s.start+8+n)-8 := by
    have hinner : wrapSub (m.size s.start) headerSize = m.size s.start-8 :=
      wrapSub_of_le (by simp only [headerSize]; omega) (by omega)
    rw [hinner,wrapSub_of_le (by omega) (by omega)]
    omega
  refine ⟨((((m.setNext (s.start+8+n) (m.next s.start)).setSize (s.start+8+n)
    (s.stop-(s.start+8+n)-8)).setNext q (s.start+8+n)).setSize s.start n).setHeap s.start heapp,?_,?_⟩
  · simp only [takeFit,hnext,hwrap,if_neg hsize,hfp,hkeep,hrest]
    rw [wrap_of_lt (by simp only [headerSize]; omega)]
    rfl
  · simp only [Memory.next,Memory.size,Memory.heap,Memory.setNext,Memory.setSize,Memory.setHeap,
      Function.update_apply]
    grind

/-- Taking a block out of the list: the list is left with the rest of the block, the block has
its header, and nothing else is written. -/
lemma takeFit_spec (hlist : A.Listed (l₁++s::l₂)) (hchain : Chain m A.head (l₁++s::l₂) 0)
    (hn : n%8 = 0) (hfit : s.start+8+n ≤ s.stop) :
    ∃ m', takeFit m A.heapp n (A.nodeBefore l₁) = (s.start+8,m') ∧
      Chain m' A.head (l₁++((carve s n).2++l₂)) 0 ∧ Holds m' (carve s n).1 ∧
      m'.heap s.start = A.heapp ∧ ∀ a, a ≠ A.nodeBefore l₁ → a ∉ s.points → m' a = m a := by
  obtain ⟨h₁,hs,h₂⟩ := hchain.around
  have hin := hlist.inside s (by simp)
  have hq : A.nodeBefore l₁ ∉ s.points := hlist.nodeBefore_notMem (by simp)
  by_cases hsplit : s.start+8+n+8 ≤ s.stop
  · obtain ⟨m',hout,hlink,hnext,hsize,hheap,hlen,hframe⟩ := takeFit_split A.heapp
      h₁.next_last hs hin.stop_lt hin.start_aligned hn hlist.left.nodeBefore_aligned hsplit hq
    obtain ⟨h₁',h₂'⟩ := splice hlist h₁ h₂ hframe hlink
    have hcarve : carve s n = (⟨s.start,s.start+8+n,by omega⟩,[⟨s.start+8+n,s.stop,by omega⟩]) := by
      simp [carve,hsplit]
    refine ⟨m',hout,?_,?_,hheap,hframe⟩
    · rw [hcarve]
      refine chain_append_iff.mpr ⟨_,h₁',tail_cons_iff.mpr ⟨rfl,?_,hnext ▸ h₂'⟩⟩
      simp only [Holds,hsize,headerSize]
      omega
    · rw [hcarve]
      simp only [Holds,hlen,headerSize]
  · obtain ⟨m',hout,hlink,hheap,hlen,hframe⟩ := takeFit_whole A.heapp h₁.next_last hs
      hin.stop_lt hfit (by omega) hq
    obtain ⟨h₁',h₂'⟩ := splice hlist h₁ h₂ hframe hlink
    have hcarve : carve s n = (s,[]) := by simp [carve,hsplit]
    refine ⟨m',hout,?_,?_,hheap,hframe⟩
    · rw [hcarve]
      exact chain_append_iff.mpr ⟨_,h₁',h₂'⟩
    · rw [hcarve]
      simpa [Holds,hlen] using hs

lemma Chain.next_block {r : ℕ} (h : Chain m A.head l₁ r) {c : ℕ}
    (hc : c ∈ (A.head::l₁.map Segment.start).dropLast) : ∃ t ∈ l₁, m.next c = t.start := by
  obtain ⟨t,ht,he⟩ := List.mem_map.mp (h.path.next_mem hc)
  exact ⟨t,ht,he.symm⟩

/-- The search passes over every block that is too small. -/
lemma fitAnswer_small (hlist : A.Listed l₁) {r : ℕ} (h : Chain m A.head l₁ r)
    (hsmall : ∀ t ∈ l₁, t.stop < t.start+8+n) {c : ℕ}
    (hc : c ∈ (A.head::l₁.map Segment.start).dropLast) : fitAnswer m n c = none := by
  obtain ⟨t,ht,he⟩ := h.next_block hc
  have hpos := (hlist.inside t ht).pos
  have hholds := h.holds t ht
  have hlt := hsmall t ht
  simp only [Holds,headerSize] at hholds
  simp only [fitAnswer,he]
  rw [if_neg (by omega),if_neg (by omega)]

lemma searchFree_miss {l : List (Segment ℕ)} (hlist : A.Listed l) (hchain : Chain m A.head l 0)
    (hsmall : ∀ t ∈ l, t.stop < t.start+8+n) : searchFree A.heapp n m = .ok none := by
  have hfollow : follow m.next (fitAnswer m n) rounds A.head = some none := by
    apply follow_eq hchain.path
    · simpa using hlist.length_lt
    · simp [fitAnswer,hchain.next_last]
    · exact fun c hc => fitAnswer_small hlist hchain hsmall hc
  simp only [Area.head] at hfollow
  simp [searchFree,hfollow]

/-- The search stops before the first block that is large enough. -/
lemma searchFree_hit (hlist : A.Listed (l₁++s::l₂)) (hchain : Chain m A.head (l₁++s::l₂) 0)
    (hsmall : ∀ t ∈ l₁, t.stop < t.start+8+n) (hfit : s.start+8+n ≤ s.stop) :
    searchFree A.heapp n m = .ok (some (takeFit m A.heapp n (A.nodeBefore l₁))) := by
  obtain ⟨h₁,hs,-⟩ := hchain.around
  have hpos := (hlist.inside s (by simp)).pos
  have hfollow : follow m.next (fitAnswer m n) rounds A.head = some (some (A.nodeBefore l₁)) := by
    apply follow_eq h₁.path
    · simpa using hlist.left.length_lt
    · simp only [Holds,headerSize] at hs
      simp only [fitAnswer,h₁.next_last]
      rw [if_neg (by omega),if_pos (by omega)]
      rfl
    · exact fun c hc => fitAnswer_small hlist.left h₁ hsmall hc
  simp only [Area.head] at hfollow
  simp [searchFree,hfollow]

lemma Holds.limit_eq (h : Holds m s) (hlt : s.stop < 2^32) : m.limit s.start = s.stop := by
  rw [← wrap_of_lt hlt,← h]
  rfl

/-- What the check of `chHeapFree` sees at a node that lies before the block. -/
lemma limit_le (hlist : A.Listed (l₁++[s])) {r : ℕ} (h : Chain m A.head l₁ r)
    (hhead : m.size A.head = 0) {c : ℕ} (hc : c ∈ A.head::l₁.map Segment.start) :
    s.start < c ∨ m.limit c ≤ s.start := by
  have hin := hlist.inside s (by simp)
  rcases List.mem_cons.mp hc with rfl | hc
  · have h1 := hin.head_lt_or
    have h2 := s.lt
    have h3 := A.heapp_lt
    have hlimit : m.limit A.head = A.head+8 := by
      simp only [Memory.limit,hhead,headerSize]
      apply wrap_of_lt
      simp only [Area.head,freeHead,descriptorSize] at *
      omega
    omega
  · obtain ⟨t,ht,rfl⟩ := List.mem_map.mp hc
    have hlt := (hlist.inside t (by simp [ht])).stop_lt
    have hle := (ascending_append.mp hlist.ascending).2.2 t ht s (by simp)
    rw [(h.holds t ht).limit_eq hlt]
    exact .inr hle

/-- The loop of `chHeapFree` finds the place of the block, and no check fails. -/
lemma place_found (hlist : A.Listed (l₁++s::l₂)) (hchain : Chain m A.head (l₁++l₂) 0)
    (hhead : m.size A.head = 0) :
    follow m.next (placeAnswer m A.heapp s.start) rounds A.head = some (.ok (A.nodeBefore l₁)) := by
  obtain ⟨b,h₁,h₂⟩ := chain_append_iff.mp hchain
  have hsep := ascending_append.mp hlist.ascending
  have hlist' : A.Listed (l₁++[s]) := by
    refine ⟨ascending_append.mpr ⟨hsep.1,by simp [Ascending],?_⟩,?_⟩
    · intro t ht u hu
      exact hsep.2.2 t ht u (by simp_all)
    · intro t ht
      apply hlist.inside
      simp at ht ⊢
      tauto
  have hcheck := fun {c : ℕ} hc => limit_le (c := c) hlist' h₁ hhead hc
  apply follow_eq h₁.path
  · simpa using hlist.left.length_lt
  · have hbefore : A.nodeBefore l₁ = A.head ∨ A.nodeBefore l₁ < s.start := by
      obtain he | ⟨t,ht,he⟩ := A.nodeBefore_cases l₁
      · exact .inl he
      · exact .inr (he ▸ t.lt.trans_le (hsep.2.2 t ht s (by simp)))
    have hafter : b = 0 ∨ s.start < b := by
      cases l₂ with
      | nil => exact .inl h₂.leads
      | cons t l₂ =>
        obtain ⟨rfl,-,-⟩ := tail_cons_iff.mp h₂
        exact .inr (s.lt.trans_le ((ascending_cons.mp hsep.2.1).1 t (by simp)))
    simp only [placeAnswer,h₁.next_last]
    rw [if_neg (not_not.mpr (hcheck (lastNode_mem _ _))),if_pos ⟨hbefore,hafter⟩]
    rfl
  · intro c hc
    obtain ⟨t,ht,he⟩ := h₁.next_block hc
    have hpos := (hlist.inside t (by simp [ht])).pos
    have hlt := t.lt.trans_le (hsep.2.2 t ht s (by simp))
    simp only [placeAnswer,he]
    rw [if_neg (not_not.mpr (hcheck (List.mem_of_mem_dropLast hc))),if_neg (by omega)]

/-- Linking a block in. -/
lemma insertAfter_spec (hlist : A.Listed (l₁++s::l₂)) (hchain : Chain m A.head (l₁++l₂) 0)
    (hs : Holds m s) :
    Chain (insertAfter m (A.nodeBefore l₁) s.start) A.head (l₁++s::l₂) 0 ∧
      ∀ a, a ≠ A.nodeBefore l₁ → a ≠ s.start →
        insertAfter m (A.nodeBefore l₁) s.start a = m a := by
  obtain ⟨b,h₁,h₂⟩ := chain_append_iff.mp hchain
  have hin := hlist.inside s (by simp)
  have hs8 := hin.start_aligned
  have hq8 : A.nodeBefore l₁%8 = 0 := hlist.left.nodeBefore_aligned
  have hqs : A.nodeBefore l₁ ≠ s.start := hlist.nodeBefore_ne (by simp)
  have hframe : ∀ a, a ≠ A.nodeBefore l₁ → a ≠ s.start →
      insertAfter m (A.nodeBefore l₁) s.start a = m a := by
    intro a h1 h2
    simp [insertAfter,Memory.setNext,h1,h2]
  have hlink : insertAfter m (A.nodeBefore l₁) s.start (A.nodeBefore l₁) = s.start := by
    simp [insertAfter,Memory.setNext]
  have hnext : (insertAfter m (A.nodeBefore l₁) s.start).next s.start = b := by
    simp only [insertAfter,Memory.setNext,Memory.next,Function.update_of_ne hqs.symm,
      Function.update_self]
    exact h₁.next_last
  refine ⟨?_,hframe⟩
  obtain ⟨h₁',h₂'⟩ := splice hlist h₁ h₂ (fun a h1 h2 => hframe a h1 (fun h => h2 (h ▸ s.start_mem)))
    hlink
  refine chain_append_iff.mpr ⟨_,h₁',tail_cons_iff.mpr ⟨rfl,?_,hnext ▸ h₂'⟩⟩
  exact hs.congr (hframe _ (by omega) (by omega))

lemma absorb_of_ne {p hp : ℕ} (h : m.limit p ≠ hp) : absorb m p hp = m := by simp [absorb,h]

/-- Merging a block of the list with the one after it. -/
lemma absorb_spec (hlist : A.Listed (l₁++s::l₂)) (hchain : Chain m A.head (l₁++s::l₂) 0) :
    Chain (absorb m s.start (m.next s.start)) A.head (l₁++attach s l₂) 0 ∧
      ∀ a, a ∉ s.points → absorb m s.start (m.next s.start) a = m a := by
  obtain ⟨h₁,hs,h₂⟩ := hchain.around
  have hin := hlist.inside s (by simp)
  have hlimit := hs.limit_eq hin.stop_lt
  cases l₂ with
  | nil =>
    have hnext : m.next s.start = 0 := h₂.leads
    have hne : m.limit s.start ≠ m.next s.start := by
      have := s.lt
      omega
    rw [absorb_of_ne hne]
    exact ⟨hchain,fun a _ => rfl⟩
  | cons t l₂ =>
    obtain ⟨hnext,ht,h₃⟩ := tail_cons_iff.mp h₂
    by_cases hst : s.stop = t.start
    · have hroom := hin.room
      have hs8 := hin.start_aligned
      have htin := hlist.inside t (by simp)
      have htroom := htin.room
      have htlt := htin.stop_lt
      have hq : A.nodeBefore l₁ ∉ s.points := hlist.nodeBefore_notMem (by simp)
      have hsum : wrap (m.size s.start+m.size t.start+headerSize) = t.stop-s.start-8 := by
        simp only [Holds,headerSize] at hs ht ⊢
        rw [wrap_of_lt (by omega)]
        omega
      have hout : absorb m s.start (m.next s.start) =
          (m.setSize s.start (t.stop-s.start-8)).setNext s.start (m.next t.start) := by
        have hkeep : (m.setSize s.start (t.stop-s.start-8)).next t.start = m.next t.start := by
          have hne : t.start ≠ s.start+4 := by omega
          simp [Memory.next,Memory.setSize,Function.update_of_ne hne]
        simp only [absorb,hnext,hlimit,hst,if_true,hsum,hkeep]
      have hframe : ∀ a, a ∉ s.points → absorb m s.start (m.next s.start) a = m a := by
        intro a ha
        simp only [Segment.mem_points] at ha
        rw [hout]
        simp only [Memory.setNext,Memory.setSize,Function.update_apply]
        grind
      have hlink : absorb m s.start (m.next s.start) (A.nodeBefore l₁) = s.start :=
        (hframe _ hq).trans h₁.next_last
      obtain ⟨h₁',h₂'⟩ := splice hlist h₁ h₂ (fun a _ ha => hframe a ha) hlink
      obtain ⟨-,-,h₃'⟩ := tail_cons_iff.mp h₂'
      have htnext : (absorb m s.start (m.next s.start)).next t.start = m.next t.start :=
        hframe _ (by simp only [Segment.mem_points]; omega)
      have hsnext : (absorb m s.start (m.next s.start)).next s.start = m.next t.start := by
        rw [hout]
        simp [Memory.next,Memory.setNext]
      have hssize : (absorb m s.start (m.next s.start)).size s.start = t.stop-s.start-8 := by
        rw [hout]
        simp [Memory.size,Memory.setNext,Memory.setSize]
      refine ⟨?_,hframe⟩
      simp only [attach,hst,dite_true]
      refine chain_append_iff.mpr ⟨_,h₁',tail_cons_iff.mpr ⟨rfl,?_,?_⟩⟩
      · simp only [Holds,Segment.append_start,Segment.append_stop,hssize,headerSize]
        omega
      · rw [Segment.append_start,hsnext,← htnext]
        exact h₃'
    · have hne : m.limit s.start ≠ m.next s.start := by rwa [hlimit,hnext]
      have hsame : attach s (t::l₂) = s::t::l₂ := by simp [attach,hst]
      rw [absorb_of_ne hne,hsame]
      exact ⟨hchain,fun a _ => rfl⟩

/-- Gluing keeps the order. -/
lemma Area.Listed.attach (hlist : A.Listed (l₁++s::l₂)) : A.Listed (l₁++attach s l₂) := by
  have hsep := ascending_append.mp hlist.ascending
  refine ⟨ascending_append.mpr ⟨hsep.1,ascending_attach hsep.2.1,?_⟩,?_⟩
  · intro u hu r hr
    obtain ⟨he | ⟨t,ht,he⟩,-⟩ := mem_attach hr
    · exact he ▸ hsep.2.2 u hu s (by simp)
    · exact he ▸ hsep.2.2 u hu t (by simp [ht])
  · intro r hr
    rcases List.mem_append.mp hr with hr | hr
    · exact hlist.inside r (by simp [hr])
    · have hall : ∀ t, t = s ∨ t ∈ l₂ → A.Inside t := fun t ht => hlist.inside t (by simp [ht])
      obtain ⟨hstart,hstop⟩ := mem_attach hr
      obtain ⟨t,ht,he⟩ : ∃ t, A.Inside t ∧ r.start = t.start := by
        rcases hstart with he | ⟨t,ht,he⟩
        · exact ⟨s,hall s (.inl rfl),he⟩
        · exact ⟨t,hall t (.inr ht),he⟩
      obtain ⟨u,hu,he'⟩ : ∃ u, A.Inside u ∧ r.stop = u.stop := by
        rcases hstop with he | ⟨t,ht,he⟩
        · exact ⟨s,hall s (.inl rfl),he⟩
        · exact ⟨t,hall t (.inr ht),he⟩
      exact ⟨he ▸ ht.base_le,he' ▸ hu.le_last,he ▸ ht.start_aligned,he' ▸ hu.stop_aligned⟩

/-- The call up to the second merge. -/
lemma chHeapFree_eq (hlist : A.Listed (l₁++s::l₂)) (hchain : Chain m A.head (l₁++l₂) 0)
    (hhead : m.size A.head = 0) (howner : m.heap s.start = A.heapp) :
    let m₁ := insertAfter m (A.nodeBefore l₁) s.start
    chHeapFree (s.start+8) m =
      .ok (absorb (absorb m₁ s.start (m₁.next s.start)) (A.nodeBefore l₁) s.start) := by
  have hlt := (hlist.inside s (by simp)).stop_lt
  have hroom := (hlist.inside s (by simp)).room
  have hhp : wrapSub (s.start+8) headerSize = s.start := by
    simp only [headerSize]
    rw [wrapSub_of_le (by omega) (by omega)]
    omega
  have hplace := place_found hlist hchain hhead
  simp only [Area.head] at hplace
  simp [chHeapFree,hhp,howner,hplace]

/-- What the return of the block `s` to the list `l` leaves behind: an ordered list of the same
bytes and those of the block, and memory that has changed only in the block, in the list head and
in free blocks. -/
structure Returned (A : Area) (m : Memory) (l : List (Segment ℕ)) (s : Segment ℕ) (m' : Memory)
    (l' : List (Segment ℕ)) : Prop where
  chain : Chain m' A.head l' 0
  separated : Separated l'
  listed : A.Listed l'
  cover : cover l' = cover l ∪ s.points
  frame : ∀ a, a ≠ A.head → a ∉ Foundation.cover l → a ∉ s.points → m' a = m a

/-- The block becomes the first one; the list head is no block to merge with. -/
lemma chHeapFree_first (hlist : A.Listed (s::l₂)) (hsep : Separated l₂)
    (hchain : Chain m A.head l₂ 0) (hhead : m.size A.head = 0) (hs : Holds m s)
    (howner : m.heap s.start = A.heapp) :
    ∃ m', chHeapFree (s.start+8) m = .ok m' ∧ Returned A m l₂ s m' (attach s l₂) := by
  have hfirst : A.Listed ([]++s::l₂) := hlist
  have hfree := chHeapFree_eq hfirst hchain hhead howner
  obtain ⟨hchain₁,hframe₁⟩ := insertAfter_spec hfirst hchain hs
  obtain ⟨hchain₂,hframe₂⟩ := absorb_spec hfirst hchain₁
  have hnode : A.nodeBefore [] = A.head := rfl
  simp only [hnode] at hfree hchain₁ hframe₁ hchain₂ hframe₂
  generalize insertAfter m A.head s.start = m₁ at *
  generalize absorb m₁ s.start (m₁.next s.start) = m₂ at *
  have hhl := (hlist.inside s (by simp)).head_lt_or
  have hlt := A.heapp_lt
  have hstop := s.lt
  have hframe : ∀ a, a ≠ A.head → a ∉ s.points → m₂ a = m a := by
    intro a h1 h2
    exact (hframe₂ a h2).trans (hframe₁ a h1 (fun h => h2 (h ▸ s.start_mem)))
  have hlimit : m₂.limit A.head = A.head+8 := by
    have hsize : m₂.size A.head = m.size A.head :=
      hframe _ (by omega) (by simp only [Segment.mem_points]; omega)
    simp only [Memory.limit,hsize,hhead,headerSize]
    apply wrap_of_lt
    simp only [Area.head,freeHead,descriptorSize] at *
    omega
  rw [absorb_of_ne (by omega)] at hfree
  refine ⟨m₂,hfree,hchain₂,?_,hfirst.attach,?_,fun a h1 _ h2 => hframe a h1 h2⟩
  · exact separated_attach hsep (ascending_cons.mp hlist.ascending).1
  · rw [cover_attach,Set.union_comm]

/-- The block comes after the block `t`. -/
lemma chHeapFree_after (hlist : A.Listed (l₁++[t]++s::l₂)) (hsep : Separated (l₁++[t]++l₂))
    (hchain : Chain m A.head (l₁++[t]++l₂) 0) (hhead : m.size A.head = 0) (hs : Holds m s)
    (howner : m.heap s.start = A.heapp) :
    ∃ m', chHeapFree (s.start+8) m = .ok m' ∧
      Returned A m (l₁++[t]++l₂) s m' (l₁++attach t (attach s l₂)) := by
  have hfree := chHeapFree_eq hlist hchain hhead howner
  obtain ⟨hchain₁,hframe₁⟩ := insertAfter_spec hlist hchain hs
  obtain ⟨hchain₂,hframe₂⟩ := absorb_spec hlist hchain₁
  have hlist₂ := hlist.attach
  have hasc := ascending_append.mp hlist.ascending
  have hsep' := separated_append.mp hsep
  have hnode : A.nodeBefore (l₁++[t]) = t.start := by simp [Area.nodeBefore]
  simp only [hnode] at hfree hchain₁ hframe₁ hchain₂ hframe₂
  generalize insertAfter m t.start s.start = m₁ at *
  generalize absorb m₁ s.start (m₁.next s.start) = m₂ at *
  rw [List.append_assoc,List.singleton_append] at hchain₂ hlist₂
  -- the second merge is one with the following block again
  have hnext : m₂.next t.start = s.start := by
    obtain ⟨r,l',hr,hstart⟩ := attach_eq_cons s l₂
    obtain ⟨-,-,htail⟩ := hchain₂.around
    rw [hr] at htail
    exact (tail_cons_iff.mp htail).1.trans hstart
  obtain ⟨hchain₃,hframe₃⟩ := absorb_spec hlist₂ hchain₂
  rw [hnext] at hchain₃ hframe₃
  have hsep₂ : Separated (attach s l₂) :=
    separated_attach hsep'.2.1 (ascending_cons.mp hasc.2.1).1
  refine ⟨_,hfree,hchain₃,?_,hlist₂.attach,?_,?_⟩
  · have hleft := separated_append.mp hsep'.1
    have hright := ascending_append.mp hlist₂.ascending
    exact separated_append_attach hleft.1 (fun u hu => hleft.2.2 u hu t (by simp)) hsep₂
      (ascending_cons.mp hright.2.1).1
  · simp only [cover_append,cover_attach,cover_cons,cover_nil,Set.union_empty]
    ac_rfl
  · intro a _ hcover ha
    have hat : a ∉ t.points := fun h => hcover (points_subset_cover (by simp) h)
    rw [hframe₃ a hat,hframe₂ a ha]
    exact hframe₁ a (fun h => hat (h ▸ t.start_mem)) (fun h => ha (h ▸ s.start_mem))

/-- A block that is not on the list returns to it, and no check fails. -/
lemma chHeapFree_returns (hlist : A.Listed (l₁++s::l₂)) (hsep : Separated (l₁++l₂))
    (hchain : Chain m A.head (l₁++l₂) 0) (hhead : m.size A.head = 0) (hs : Holds m s)
    (howner : m.heap s.start = A.heapp) :
    ∃ m' l', chHeapFree (s.start+8) m = .ok m' ∧ Returned A m (l₁++l₂) s m' l' := by
  rcases List.eq_nil_or_concat l₁ with rfl | ⟨l₀,t,rfl⟩
  · obtain ⟨m',hfree,hret⟩ := chHeapFree_first hlist hsep hchain hhead hs howner
    exact ⟨m',_,hfree,hret⟩
  · simp only [List.concat_eq_append] at *
    obtain ⟨m',hfree,hret⟩ := chHeapFree_after hlist hsep hchain hhead hs howner
    exact ⟨m',_,hfree,hret⟩

end Edits
end DspLibrary.Chibios
