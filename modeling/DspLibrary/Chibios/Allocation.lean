import DspLibrary.Foundation.Reservation
import DspLibrary.Chibios.HeapUse

/-! Series of allocations: what they need, where the sizes stop to make sense, and that the heap of
the kernel, answering any series of calls, does what an allocator owes its callers. -/
namespace DspLibrary.Chibios
open DspLibrary.Foundation
variable {A : Area} {s : System} {free : List (Segment ℕ)} {live raw : Finset (Segment ℕ)}

section Large
variable {size : ℕ}

lemma memAlignNext_eq (n : ℕ) : memAlignNext n = (n+7)%2^32/8*8 := by
  rw [memAlignNext,memAlignPrev_eq,wrap]
  rfl

/-- The sum of a size this large and the header wraps to nothing, and so the core is asked for
nothing. -/
lemma chHeapAlloc_top (h : Serving A s free live raw) (h1 : 2^32 < size+16) (h2 : size+8 ≤ 2^32)
    (hroom : s.core.nextmem+8 ≤ s.core.endmem) :
    chHeapAlloc (defaultHeap A.heapp) size s =
      .ok (s.core.nextmem+8,⟨(provideHeader A.heapp (2^32-8) s.core.nextmem s.mem).2,s.core⟩) := by
  have hn : memAlignNext size = 2^32-8 := by
    rw [memAlignNext_eq,Nat.mod_eq_of_lt (by omega)]
    omega
  have hsmall : ∀ t ∈ free, t.stop < t.start+8+memAlignNext size := by
    intro t ht
    have hlt := (h.heap.inside_free ht).stop_lt
    omega
  have hzero : wrap (2^32-8+headerSize) = 0 := by rw [wrap]; rfl
  have hnone : memAlignNext 0 = 0 := by rw [memAlignNext_eq]; norm_num
  have hcore := chCoreAlloc_eq h.coreOk 0
  have hpos := A.base_pos.trans_le h.heap.base_le
  have hlt := h.coreOk.lt
  rw [hnone,if_pos (by omega)] at hcore
  have hprovide : provide (defaultHeap A.heapp) (2^32-8) s =
      (s.core.nextmem+8,⟨(provideHeader A.heapp (2^32-8) s.core.nextmem s.mem).2,s.core⟩) := by
    simp only [provide,defaultHeap,hzero,hcore]
    rw [if_neg (by omega)]
    simp only [provideHeader,headerSize]
    rw [wrap_of_lt (by omega)]
    rfl
  rw [chHeapAlloc_of_miss (h.heap.search_miss hsmall),hn,hprovide]

/-- The header written behind the end of the heap is not noticed. -/
lemma Serving.write_beyond (h : Serving A s free live raw) (n : ℕ) :
    Serving A ⟨(provideHeader A.heapp n s.core.nextmem s.mem).2,s.core⟩ free live raw := by
  have hsame : ∀ a, a ≠ s.core.nextmem → a ≠ s.core.nextmem+4 →
      (provideHeader A.heapp n s.core.nextmem s.mem).2 a = s.mem a := by
    intro a h1 h2
    simp only [provideHeader,Memory.setSize,Memory.setHeap,Function.update_apply,if_neg h1,if_neg h2]
  have hbelow : ∀ t, A.Inside t → t.stop ≤ s.core.nextmem →
      SameHeader s.mem (provideHeader A.heapp n s.core.nextmem s.mem).2 t.start := by
    intro t hin hle
    have hroom := hin.room
    exact ⟨hsame _ (by omega) (by omega),hsame _ (by omega) (by omega)⟩
  refine ⟨h.heap.congr ?_ ?_ ?_,h.core⟩
  · have hapart := A.apart
    have hbase := h.heap.base_le
    have hlast := h.heap.brk_le
    have hhead : A.head = A.heapp+8 := rfl
    simp only [descriptorSize] at hapart
    exact ⟨hsame _ (by omega) (by omega),hsame _ (by omega) (by omega)⟩
  · exact fun t ht => hbelow t (h.heap.inside_free ht) (h.heap.tiling.free_bounds ht).2
  · intro t ht
    have hused : t ∈ live ∪ raw := Finset.mem_union_left raw ht
    exact hbelow t (h.heap.inside_used hused) (h.heap.tiling.used_bounds hused).2

/-- A request of these sizes is granted without anything being reserved: the next block that comes
from the core has the same address. -/
theorem chHeapAlloc_unreserved (h : Serving A s free live raw) (h1 : 2^32 < size+16)
    (h2 : size+8 ≤ 2^32) (hroom : s.core.nextmem+8 ≤ s.core.endmem) :
    ∃ s', chHeapAlloc (defaultHeap A.heapp) size s = .ok (s.core.nextmem+8,s') ∧
      ∀ size', size'+16 ≤ 2^32 → (∀ t ∈ free, ¬ Fits (memAlignNext size') t) →
        s.core.nextmem+8+memAlignNext size' ≤ s.core.endmem →
          ∃ s'', chHeapAlloc (defaultHeap A.heapp) size' s' = .ok (s.core.nextmem+8,s'') := by
  refine ⟨_,chHeapAlloc_top h h1 h2 hroom,?_⟩
  intro size' hsize' hsmall hfits
  obtain ⟨p,s'',hout,hserved⟩ := chHeapAlloc_served (h.write_beyond (2^32-8)) hsize'
  refine ⟨s'',?_⟩
  rw [hout]
  cases hserved with
  | fromList l₁ t l₂ m hfree _ hfit _ _ => exact absurd hfit (hsmall t (by simp [hfree]))
  | fromCore b m _ hstart _ _ _ => rw [hstart]
  | refused _ hfull => exact absurd hfits (not_le.mpr hfull)

theorem chHeapAlloc_unreserved_fresh :
    ∃ s', chHeapAlloc (defaultHeap sram.heapp) (2^32-12)
        ⟨heapInit sram.heapp fun _ => 0,⟨sram.base,sram.last⟩⟩ = .ok (sram.base+8,s') ∧
      ∀ size', size'+16 ≤ 2^32 →
        (∀ t ∈ ([] : List (Segment ℕ)), ¬ Fits (memAlignNext size') t) →
        sram.base+8+memAlignNext size' ≤ sram.last →
          ∃ s'', chHeapAlloc (defaultHeap sram.heapp) size' s' = .ok (sram.base+8,s'') :=
  chHeapAlloc_unreserved (fresh_serving sram fun _ => 0) (by norm_num) (by norm_num) (by decide)

end Large

section Series

/-- A series of allocations, one for each size. -/
def allocations (heapp : ℕ) (s : System) (sizes : List ℕ) : Except Halt (List ℕ × System) :=
  feed (fun s size => chHeapAlloc (defaultHeap heapp) size s) s sizes

/-- The bytes a series of allocations takes from the core: each block with its header. -/
def demand (sizes : List ℕ) : ℕ := (sizes.map fun n => 8+memAlignNext n).sum

@[simp] lemma demand_nil : demand [] = 0 := rfl

@[simp] lemma demand_cons (n : ℕ) (ns : List ℕ) :
    demand (n::ns) = 8+memAlignNext n+demand ns := by simp [demand]

/-- On a heap without free blocks a series of allocations succeeds exactly when the core has what
it demands. -/
theorem allocations_succeed_iff (h : Serving A s [] live raw) {sizes : List ℕ}
    (hsizes : ∀ n ∈ sizes, n+16 ≤ 2^32) :
    Yields (allocations A.heapp s sizes) fun r =>
      0 ∉ r.1 ↔ demand sizes ≤ s.core.endmem-s.core.nextmem := by
  induction sizes generalizing s live with
  | nil => exact Yields.ok (by simp)
  | cons n ns ih =>
    have hle := h.coreOk.le
    obtain ⟨p,s',hout,hserved⟩ := chHeapAlloc_served h (hsizes n (by simp))
    cases hserved with
    | fromList l₁ t l₂ m hfree _ _ _ _ => simp at hfree
    | fromCore b m _ hstart hstop hheap _ =>
      have hrest := ih hheap fun k hk => hsizes k (by simp [hk])
      refine Yields.bind (P := fun r => r = (b.start+8,_)) ⟨_,hout,rfl⟩ ?_
      rintro _ rfl
      refine hrest.bind ?_
      rintro ⟨ps,t⟩ hps
      refine Yields.ret ?_
      have hend := hheap.coreOk.le
      simp only [List.mem_cons,not_or,hps,demand_cons] at hend ⊢
      omega
    | refused _ hfull =>
      have hrest := ih h fun k hk => hsizes k (by simp [hk])
      refine Yields.bind (P := fun r => r = (0,s)) ⟨_,hout,rfl⟩ ?_
      rintro _ rfl
      refine hrest.bind ?_
      rintro ⟨ps,t⟩ _
      refine Yields.ret ?_
      simp only [List.mem_cons,true_or,not_true_eq_false,false_iff,demand_cons]
      omega

theorem allocations_succeed_iff_fresh :
    Yields (allocations sram.heapp ⟨heapInit sram.heapp fun _ => 0,⟨sram.base,sram.last⟩⟩
        [12,40,1000,900]) fun r =>
      0 ∉ r.1 ↔ demand [12,40,1000,900] ≤ sram.last-sram.base :=
  allocations_succeed_iff (fresh_serving sram fun _ => 0) (by decide)

end Series

section Refinement

/-- A call to the heap of the kernel. -/
def perform (heapp : ℕ) (s : System) : Request → Except Halt (ℕ × System)
  | .alloc size => chHeapAlloc (defaultHeap heapp) size s
  | .free p => do
    let m ← chHeapFree p s.mem
    return (0,⟨m,s.core⟩)

/-- The calls ask for sizes the heap can handle and free pointers the caller holds. -/
def fair (heapp : ℕ) : System → Finset ℕ → List Request → Bool
  | _,_,[] => true
  | s,held,.alloc size::cs => decide (size+16 ≤ 2^32) &&
      match chHeapAlloc (defaultHeap heapp) size s with
      | .ok r => fair heapp r.2 (if r.1 = 0 then held else insert r.1 held) cs
      | .error _ => true
  | s,held,.free p::cs => decide (p ∈ held) &&
      match chHeapFree p s.mem with
      | .ok m => fair heapp ⟨m,s.core⟩ (held.erase p) cs
      | .error _ => true

/-- The address a caller holds for a block. -/
def pointer (b : Segment ℕ) : ℕ := b.start+8

/-- The default heap as an allocator. -/
def arena (A : Area) (raw : Finset (Segment ℕ)) : Arena := ⟨A.base,A.last,raw,8,8⟩

/-- Two live blocks have different pointers. -/
lemma Serving.pointer_injOn (h : Serving A s free live raw) {b c : Segment ℕ} (hb : b ∈ live)
    (hc : c ∈ live) (he : pointer b = pointer c) : b = c := by
  by_contra hne
  have hdisj := h.heap.tiling.disjoint (Finset.mem_union_left raw hb) (Finset.mem_union_left raw hc)
    hne
  have hstart : b.start = c.start := by simpa [pointer] using he
  exact Set.disjoint_left.mp hdisj b.start_mem (hstart ▸ c.start_mem)

lemma Serving.image_erase (h : Serving A s free live raw) {b : Segment ℕ} (hb : b ∈ live) :
    (live.erase b).image pointer = (live.image pointer).erase (pointer b) := by
  ext p
  simp only [Finset.mem_image,Finset.mem_erase]
  constructor
  · rintro ⟨c,⟨hne,hc⟩,rfl⟩
    exact ⟨fun he => hne (h.pointer_injOn hc hb he),c,hc,rfl⟩
  · rintro ⟨hne,c,hc,rfl⟩
    exact ⟨c,⟨fun he => hne (he ▸ rfl),hc⟩,rfl⟩

/-- When a request is refused, every vacant piece lies partly below and partly above the end of the
heap, and neither part is large enough. -/
lemma length_lt_of_refused (h : Serving A s free live raw) {size : ℕ} (hsize : size+16 ≤ 2^32)
    (hsmall : ∀ t ∈ free, ¬ Fits (memAlignNext size) t)
    (hfull : s.core.endmem < s.core.nextmem+8+memAlignNext size) {b : Segment ℕ}
    (hb : (arena A raw).Vacant live b) : b.length < 2*(8+size+8) := by
  obtain ⟨hlo,hhi,hapart⟩ := hb
  obtain ⟨hle,hlt,-⟩ := memAlignNext_spec (n := size) (by omega)
  have hlo' : A.base ≤ b.start := hlo
  have hhi' : b.stop ≤ A.last := hhi
  have hend := h.core
  have hbelow : b.start < s.core.nextmem →
      min b.stop s.core.nextmem < b.start+8+memAlignNext size := by
    intro hstart
    by_contra hlarge
    let g : Segment ℕ := ⟨b.start,min b.stop s.core.nextmem,lt_min b.lt hstart⟩
    have hsub : g.points ⊆ b.points := fun a ha => ⟨ha.1,ha.2.trans_le (min_le_left _ _)⟩
    obtain ⟨t,ht,hfit⟩ := (exists_fits_iff (n := memAlignNext size) h.heap).mpr
      ⟨g,hlo',min_le_right _ _,fun u hu => (hapart u hu).mono_right hsub,not_lt.mp hlarge⟩
    exact hsmall t ht hfit
  have hlen : b.length = b.stop-b.start := rfl
  omega

/-- One call. -/
lemma perform_serves (h : Serving A s free live raw) {c : Request} {cs : List Request}
    (hcalls : fair A.heapp s (live.image pointer) (c::cs) = true) :
    Yields (perform A.heapp s c) fun r => ∃ live', (arena A raw).Serves live c r.1 live' ∧
      (∃ free', Serving A r.2 free' live' raw) ∧
      fair A.heapp r.2 (live'.image pointer) cs = true := by
  cases c with
  | alloc size =>
    obtain ⟨hsize,hfair⟩ := Bool.and_eq_true_iff.mp hcalls
    have hsize := of_decide_eq_true hsize
    obtain ⟨p,s',hout,hrefused,hnull,hblock⟩ := chHeapAlloc_contract h hsize
    simp only [hout] at hfair
    refine ⟨(p,s'),hout,?_⟩
    by_cases hp : p = 0
    · obtain ⟨hsmall,hfull⟩ := hrefused.mp hp
      obtain rfl := hnull hp
      subst hp
      exact ⟨live,.refuse size fun b => length_lt_of_refused h hsize hsmall hfull,⟨free,h⟩,hfair⟩
    · obtain ⟨b,hb⟩ := hblock hp
      have himage : (insert b live).image pointer = insert p (live.image pointer) := by
        rw [Finset.image_insert,pointer,hb.start]
      rw [if_neg hp,← himage] at hfair
      have hvacant : (arena A raw).Vacant live b :=
        ⟨hb.inside.base_le,hb.inside.le_last,hb.apart⟩
      have hgrant := Arena.Serves.grant size b hvacant (hb.start.symm ▸ hb.room)
      rw [show b.start+(arena A raw).header = p from hb.start] at hgrant
      exact ⟨insert b live,hgrant,hb.serving,hfair⟩
  | free p =>
    obtain ⟨hp,hfair⟩ := Bool.and_eq_true_iff.mp hcalls
    obtain ⟨b,hb,rfl⟩ := Finset.mem_image.mp (of_decide_eq_true hp)
    obtain ⟨m,free',hfree,hheap,-⟩ := h.heap.free_live hb
    simp only [pointer,hfree] at hfair
    rw [← pointer,← h.image_erase hb] at hfair
    refine ⟨(0,⟨m,s.core⟩),?_,live.erase b,.release b hb,⟨free',hheap,h.core⟩,hfair⟩
    simp only [perform,pointer,hfree,ok_bind,pure_eq_ok]

/-- The heap of the kernel is one of the allocators that reserve what they grant: its answers to any
fair series of calls are allowed ones. A block it grants lies in its memory, apart from everything
in use, and has room for a header and the bytes; it refuses only when no vacant piece has twice the
bytes that a block needs. -/
theorem chHeap_refines_allocator (h : Serving A s free live raw) {calls : List Request}
    (hcalls : fair A.heapp s (live.image pointer) calls = true) :
    Yields (feed (perform A.heapp) s calls) fun r => ∃ live',
      Answers (arena A raw).Serves live calls r.1 live' ∧
        ∃ free', Serving A r.2 free' live' raw := by
  let R : List Request → System → Finset (Segment ℕ) → Prop := fun cs s live =>
    (∃ free, Serving A s free live raw) ∧ fair A.heapp s (live.image pointer) cs = true
  have hstep : ∀ c cs s live, R (c::cs) s live → Yields (perform A.heapp s c) fun r =>
      ∃ live', (arena A raw).Serves live c r.1 live' ∧ R cs r.2 live' := by
    rintro c cs s live ⟨⟨free,hserving⟩,hfair⟩
    exact perform_serves hserving hfair
  have hfeed := Answers.of_feed hstep (show R calls s live from ⟨⟨free,h⟩,hcalls⟩)
  refine hfeed.mono ?_
  rintro r ⟨live',hanswers,hserving,-⟩
  exact ⟨live',hanswers,hserving⟩

/-- The third call is refused; the last one gets a part of the block that was freed. -/
theorem chHeap_refines_allocator_fresh :
    Yields (feed (perform sram.heapp) ⟨heapInit sram.heapp fun _ => 0,⟨sram.base,sram.last⟩⟩
        [.alloc 12,.alloc 40,.alloc 2000,.free (sram.base+8),.alloc 8]) fun r => ∃ live',
      Answers (arena sram ∅).Serves ∅
        [.alloc 12,.alloc 40,.alloc 2000,.free (sram.base+8),.alloc 8] r.1 live' ∧
      ∃ free', Serving sram r.2 free' live' ∅ :=
  chHeap_refines_allocator (fresh_serving sram fun _ => 0) (by decide +kernel)

end Refinement
end DspLibrary.Chibios
