import DspLibrary.Foundation.Runs
import DspLibrary.Chibios.HeapSemantics

/-! The default heap used by any number of threads. The search of an allocation and a release run
under the lock of the heap and a request to the core under the kernel lock, so each of them is one
step; an allocation that has to ask the core takes three, and the other threads run in between. -/
namespace DspLibrary.Chibios
open DspLibrary.Foundation

/-- Where a thread is in a call of `chHeapAlloc`: outside, after a search in vain, or with a block
from the core that has no header yet. -/
inductive Thread
  | idle
  | missed (size : ℕ)
  | provided (hp size : ℕ)
  deriving DecidableEq, Repr

namespace Thread

def isMissed : Thread → Bool
  | missed _ => true
  | _ => false

def isProvided : Thread → Bool
  | provided _ _ => true
  | _ => false

lemma isMissed_iff {th : Thread} : th.isMissed = true ↔ ∃ n, th = missed n := by
  cases th <;> simp [isMissed]

lemma isProvided_iff {th : Thread} : th.isProvided = true ↔ ∃ hp n, th = provided hp n := by
  cases th <;> simp [isProvided]

end Thread

/-- A block of `size` bytes and its header. -/
def blockOf (hp size : ℕ) : Segment ℕ := ⟨hp,hp+8+size,by omega⟩

@[simp] lemma blockOf_start (hp size : ℕ) : (blockOf hp size).start = hp := rfl

@[simp] lemma blockOf_stop (hp size : ℕ) : (blockOf hp size).stop = hp+8+size := rfl

/-- Core memory without a header. -/
def extent (p size : ℕ) (h : 0 < size) : Segment ℕ := ⟨p,p+size,Nat.lt_add_of_pos_right h⟩

/-- The block behind a pointer that `chHeapAlloc` has returned. -/
def blockAt (m : Memory) (p : ℕ) : Segment ℕ := blockOf (p-8) (m.size (p-8))

/-- The system, what its threads are doing, and who holds which memory. -/
structure Machine where
  sys : System
  threads : ℕ → Thread
  live : Finset (Segment ℕ)
  raw : Finset (Segment ℕ)

inductive HeapEvent
  /-- thread `t` calls `chHeapAlloc` and searches the free list -/
  | search (t size : ℕ)
  /-- thread `t` asks the core -/
  | provide (t : ℕ)
  /-- thread `t` writes the header of the block it got -/
  | header (t : ℕ)
  /-- a thread calls `chHeapFree` -/
  | free (s : Segment ℕ)
  /-- a thread stores the word `v` at the aligned address `a` -/
  | write (a v : ℕ)
  /-- somebody takes core memory without the heap -/
  | core (size : ℕ)

namespace Machine

def setThread (M : Machine) (t : ℕ) (th : Thread) : Machine :=
  { M with threads := Function.update M.threads t th }

def searchStep (heapp t size : ℕ) (M : Machine) : Except Halt Machine :=
  match searchFree heapp (memAlignNext size) M.sys.mem with
  | .error x => .error x
  | .ok none => .ok (M.setThread t (.missed (memAlignNext size)))
  | .ok (some out) =>
    .ok { M with sys := ⟨out.2,M.sys.core⟩, live := insert (blockAt out.2 out.1) M.live }

def provideStep (t : ℕ) (M : Machine) : Machine :=
  match M.threads t with
  | .missed size =>
    let got := chCoreAlloc (wrap (size+headerSize)) M.sys.core
    if got.1 = 0 then M.setThread t .idle
    else { M.setThread t (.provided got.1 size) with
      sys := ⟨M.sys.mem,got.2⟩, raw := insert (blockOf got.1 size) M.raw }
  | _ => M

def headerStep (heapp t : ℕ) (M : Machine) : Machine :=
  match M.threads t with
  | .provided hp size => { M.setThread t .idle with
      sys := ⟨(provideHeader heapp size hp M.sys.mem).2,M.sys.core⟩
      live := insert (blockOf hp size) M.live
      raw := M.raw.erase (blockOf hp size) }
  | _ => M

def freeStep (s : Segment ℕ) (M : Machine) : Except Halt Machine := do
  let m ← chHeapFree (s.start+8) M.sys.mem
  return { M with sys := ⟨m,M.sys.core⟩, live := M.live.erase s }

def coreStep (size : ℕ) (M : Machine) : Machine :=
  let got := chCoreAlloc size M.sys.core
  if got.1 = 0 then M
  else if h : 0 < memAlignNext size then { M with
    sys := ⟨M.sys.mem,got.2⟩
    raw := insert (extent got.1 (memAlignNext size) h) M.raw }
  else M

def step (heapp : ℕ) : HeapEvent → Machine → Except Halt Machine
  | .search t size,M => M.searchStep heapp t size
  | .provide t,M => .ok (M.provideStep t)
  | .header t,M => .ok (M.headerStep heapp t)
  | .free s,M => M.freeStep s
  | .write a v,M => .ok { M with sys := ⟨Function.update M.sys.mem a v,M.sys.core⟩ }
  | .core size,M => .ok (M.coreStep size)

/-- What the callers keep to: a thread makes one call at a time and asks for a size that leaves
room for the rounding and the header; it frees blocks it holds, and writes whole aligned words that
lie in blocks it holds. -/
def Allows (M : Machine) : HeapEvent → Prop
  | .search t size => M.threads t = .idle ∧ size+16 ≤ 2^32
  | .provide t => (M.threads t).isMissed
  | .header t => (M.threads t).isProvided
  | .free s => s ∈ M.live
  | .write a v => a%4 = 0 ∧ v < 2^32 ∧
      ((∃ s ∈ M.live, s.start+8 ≤ a ∧ a+4 ≤ s.stop) ∨ ∃ s ∈ M.raw, s.start ≤ a ∧ a+4 ≤ s.stop)
  | .core size => size+7 < 2^32

def decideAllows (M : Machine) : (e : HeapEvent) → Decidable (M.Allows e)
  | .search t size => inferInstanceAs (Decidable (M.threads t = .idle ∧ size+16 ≤ 2^32))
  | .provide t => inferInstanceAs (Decidable ((M.threads t).isMissed = true))
  | .header t => inferInstanceAs (Decidable ((M.threads t).isProvided = true))
  | .free s => inferInstanceAs (Decidable (s ∈ M.live))
  | .write a v => inferInstanceAs (Decidable (a%4 = 0 ∧ v < 2^32 ∧
      ((∃ s ∈ M.live, s.start+8 ≤ a ∧ a+4 ≤ s.stop) ∨ ∃ s ∈ M.raw, s.start ≤ a ∧ a+4 ≤ s.stop)))
  | .core size => inferInstanceAs (Decidable (size+7 < 2^32))

/-- The default heap with its descriptor at `heapp`, and its users. -/
def users (heapp : ℕ) : Driven Halt HeapEvent Machine := ⟨step heapp,Allows⟩

instance (heapp : ℕ) (M : Machine) (es : List HeapEvent) :
    Decidable ((users heapp).Legal M es) :=
  (users heapp).decideLegal decideAllows M es

/-- What is known of the threads in the middle of an allocation: a missed size is rounded, and a
provided block is core memory that no other thread was given. -/
structure ThreadsOk (threads : ℕ → Thread) (raw : Finset (Segment ℕ)) : Prop where
  missed : ∀ t n, threads t = .missed n → n%8 = 0 ∧ n+16 ≤ 2^32
  provided : ∀ t hp n, threads t = .provided hp n → blockOf hp n ∈ raw
  alone : ∀ t t' hp n n', threads t = .provided hp n → threads t' = .provided hp n' → t = t'

/-- The invariant of the whole. -/
structure Ok (A : Area) (M : Machine) : Prop where
  heap : ∃ free, HeapOk A M.sys.mem M.sys.core.nextmem free M.live M.raw
  core : M.sys.core.endmem = A.last
  threads : ThreadsOk M.threads M.raw

section Threads
variable {threads : ℕ → Thread} {raw : Finset (Segment ℕ)}

lemma ThreadsOk.mono (h : ThreadsOk threads raw) {raw' : Finset (Segment ℕ)} (hsub : raw ⊆ raw') :
    ThreadsOk threads raw' :=
  ⟨h.missed,fun t hp n ht => hsub (h.provided t hp n ht),h.alone⟩

/-- A thread returns from its call, giving up a block it may have been provided with. -/
lemma ThreadsOk.setIdle (h : ThreadsOk threads raw) (t : ℕ) :
    ThreadsOk (Function.update threads t .idle)
      (match threads t with | .provided hp n => raw.erase (blockOf hp n) | _ => raw) := by
  have hother : ∀ t' x, Function.update threads t .idle t' = x → x ≠ .idle →
      t' ≠ t ∧ threads t' = x := by
    intro t' x hx hne
    by_cases htt : t' = t
    · subst htt
      simp only [Function.update_self] at hx
      exact absurd hx.symm hne
    · exact ⟨htt,by simpa [htt] using hx⟩
  refine ⟨?_,?_,?_⟩
  · intro t' n ht'
    exact h.missed t' n (hother t' _ ht' (by simp)).2
  · intro t' hp n ht'
    obtain ⟨hne,ht'⟩ := hother t' _ ht' (by simp)
    have hmem := h.provided t' hp n ht'
    cases ht : threads t with
    | idle => exact hmem
    | missed n' => exact hmem
    | provided hp' n' =>
      refine Finset.mem_erase.mpr ⟨?_,hmem⟩
      intro he
      have hstart : hp = hp' := congrArg Segment.start he
      subst hstart
      exact hne (h.alone t' t hp n n' ht' ht)
  · intro t₁ t₂ hp n n' h₁ h₂
    exact h.alone t₁ t₂ hp n n' (hother t₁ _ h₁ (by simp)).2 (hother t₂ _ h₂ (by simp)).2

/-- A thread finds nothing on the free list. -/
lemma ThreadsOk.setMissed (h : ThreadsOk threads raw) (t : ℕ) {size : ℕ} (h8 : size%8 = 0)
    (hlt : size+16 ≤ 2^32) : ThreadsOk (Function.update threads t (.missed size)) raw := by
  have hother : ∀ t' hp n, Function.update threads t (.missed size) t' = .provided hp n →
      threads t' = .provided hp n := by
    intro t' hp n ht'
    by_cases htt : t' = t
    · simp [htt] at ht'
    · simpa [htt] using ht'
  refine ⟨?_,fun t' hp n ht' => h.provided t' hp n (hother t' hp n ht'),fun t₁ t₂ hp n n' h₁ h₂ =>
    h.alone t₁ t₂ hp n n' (hother t₁ hp n h₁) (hother t₂ hp n' h₂)⟩
  intro t' n ht'
  by_cases htt : t' = t
  · simp only [htt,Function.update_self,Thread.missed.injEq] at ht'
    omega
  · exact h.missed t' n (by simpa [htt] using ht')

/-- A thread is provided with a block that starts where none of the others does. -/
lemma ThreadsOk.setProvided (h : ThreadsOk threads raw) (t : ℕ) {hp size : ℕ}
    (hnew : ∀ n, blockOf hp n ∉ raw) :
    ThreadsOk (Function.update threads t (.provided hp size)) (insert (blockOf hp size) raw) := by
  have hother : ∀ t' x, t' ≠ t → Function.update threads t (.provided hp size) t' = x →
      threads t' = x := by
    intro t' x hne hx
    simpa [hne] using hx
  have hfresh : ∀ t' n, threads t' ≠ .provided hp n := fun t' n ht' => hnew n (h.provided t' hp n ht')
  refine ⟨?_,?_,?_⟩
  · intro t' n ht'
    by_cases htt : t' = t
    · simp [htt] at ht'
    · exact h.missed t' n (hother t' _ htt ht')
  · intro t' hp' n ht'
    by_cases htt : t' = t
    · simp only [htt,Function.update_self,Thread.provided.injEq] at ht'
      simp [ht'.1,ht'.2]
    · exact Finset.mem_insert_of_mem (h.provided t' hp' n (hother t' _ htt ht'))
  · intro t₁ t₂ hp' n n' h₁ h₂
    by_cases ht₁ : t₁ = t <;> by_cases ht₂ : t₂ = t
    · rw [ht₁,ht₂]
    · simp only [ht₁,Function.update_self,Thread.provided.injEq] at h₁
      exact absurd (h₁.1 ▸ hother t₂ _ ht₂ h₂) (hfresh t₂ n')
    · simp only [ht₂,Function.update_self,Thread.provided.injEq] at h₂
      exact absurd (h₂.1 ▸ hother t₁ _ ht₁ h₁) (hfresh t₁ n)
    · exact h.alone t₁ t₂ hp' n n' (hother t₁ _ ht₁ h₁) (hother t₂ _ ht₂ h₂)

end Threads

variable {A : Area} {M : Machine}

lemma Ok.coreOk (h : Ok A M) : CoreOk M.sys.core := by
  obtain ⟨free,hok⟩ := h.heap
  exact ⟨hok.brk_aligned,h.core ▸ hok.brk_le,h.core ▸ A.last_lt⟩

/-- The blocks that stay with their holders keep their contents. -/
def Keeps (M M' : Machine) (e : HeapEvent) : Prop :=
  ∀ s ∈ M.live, e ≠ .free s → s ∈ M'.live ∧
    ∀ a ∈ s.points, (∀ v, e ≠ .write a v) → M'.sys.mem a = M.sys.mem a

/-- A word of a live block is neither free nor in the list head. -/
lemma live_word {free : List (Segment ℕ)}
    (h : HeapOk A M.sys.mem M.sys.core.nextmem free M.live M.raw) {s : Segment ℕ}
    (hs : s ∈ M.live) {a : ℕ} (ha : a ∈ s.points) : a ≠ A.head ∧ a ∉ cover free := by
  have hused : s ∈ M.live ∪ M.raw := Finset.mem_union_left _ hs
  exact ⟨fun he => (h.head_ne hused ha).1 he.symm,Set.disjoint_left.mp (h.tiling.apart s hused) ha⟩

lemma searchStep_miss {free : List (Segment ℕ)} {t size : ℕ}
    (h : HeapOk A M.sys.mem M.sys.core.nextmem free M.live M.raw)
    (hsmall : ∀ u ∈ free, u.stop < u.start+8+memAlignNext size) :
    M.searchStep A.heapp t size = .ok (M.setThread t (.missed (memAlignNext size))) := by
  simp [searchStep,h.search_miss hsmall]

/-- The new live block is the part carved from the first free block that is large enough. -/
lemma searchStep_hit {l₁ l₂ : List (Segment ℕ)} {s : Segment ℕ} {t size : ℕ}
    (h : HeapOk A M.sys.mem M.sys.core.nextmem (l₁++s::l₂) M.live M.raw)
    (hn : memAlignNext size%8 = 0) (hsmall : ∀ u ∈ l₁, u.stop < u.start+8+memAlignNext size)
    (hfit : s.start+8+memAlignNext size ≤ s.stop) :
    ∃ m', M.searchStep A.heapp t size = .ok { M with
        sys := ⟨m',M.sys.core⟩, live := insert (carve s (memAlignNext size)).1 M.live } ∧
      HeapOk A m' M.sys.core.nextmem (l₁++((carve s (memAlignNext size)).2++l₂))
        (insert (carve s (memAlignNext size)).1 M.live) M.raw ∧
      ∀ a, a ≠ A.head → a ∉ cover (l₁++s::l₂) → m' a = M.sys.mem a := by
  obtain ⟨m',hout,hok',hframe⟩ := h.search_hit hn hsmall hfit
  refine ⟨m',?_,hok',hframe⟩
  have hblock : blockAt m' (s.start+8) = (carve s (memAlignNext size)).1 := by
    have hholds := (hok'.headers _ (Finset.mem_insert_self _ _)).1
    have hstart := (carve_fits hfit).1
    simp only [Holds,hstart,headerSize] at hholds
    apply Segment.ext
    · simp [blockAt,hstart]
    · simp [blockAt,← hholds]
  simp [searchStep,hout,hblock]

lemma step_search (h : Ok A M) {t size : ℕ} (ha : M.Allows (.search t size)) :
    Yields (step A.heapp (.search t size) M) fun M' => Ok A M' ∧ Keeps M M' (.search t size) := by
  obtain ⟨free,hok⟩ := h.heap
  obtain ⟨hidle,hsize⟩ := ha
  obtain ⟨hle,hlt,hn⟩ := memAlignNext_spec (n := size) (by omega)
  rcases exists_first_fit free (memAlignNext size) with hsmall | ⟨l₁,s,l₂,rfl,hsmall,hfit⟩
  · have hmissed := h.threads.setMissed t hn (by omega)
    exact ⟨_,searchStep_miss hok hsmall,⟨⟨free,hok⟩,h.core,hmissed⟩,
      fun u hu _ => ⟨hu,fun _ _ _ => rfl⟩⟩
  · obtain ⟨m',hout,hok',hframe⟩ := searchStep_hit (t := t) hok hn hsmall hfit
    refine ⟨_,hout,⟨⟨_,hok'⟩,h.core,h.threads⟩,?_⟩
    intro u hu _
    exact ⟨Finset.mem_insert_of_mem hu,fun a ha _ =>
      hframe a (live_word hok hu ha).1 (live_word hok hu ha).2⟩

section Provide
variable {t n : ℕ}

lemma provideStep_granted (hn : M.threads t = .missed n) (hlt : n+16 ≤ 2^32) {p : ℕ} {c : Core}
    (hcore : chCoreAlloc (n+8) M.sys.core = (p,c)) (hp : p ≠ 0) :
    M.provideStep t = { M.setThread t (.provided p n) with
      sys := ⟨M.sys.mem,c⟩, raw := insert (blockOf p n) M.raw } := by
  have hwrap : wrap (n+headerSize) = n+8 := wrap_of_lt (by simp only [headerSize]; omega)
  simp only [provideStep,hn,hwrap,hcore]
  rw [if_neg hp]

lemma provideStep_refused (hn : M.threads t = .missed n) (hlt : n+16 ≤ 2^32) {c : Core}
    (hcore : chCoreAlloc (n+8) M.sys.core = (0,c)) : M.provideStep t = M.setThread t .idle := by
  have hwrap : wrap (n+headerSize) = n+8 := wrap_of_lt (by simp only [headerSize]; omega)
  simp only [provideStep,hn,hwrap,hcore,if_true]

lemma headerStep_provided {heapp hp : ℕ} (hn : M.threads t = .provided hp n) :
    M.headerStep heapp t = { M.setThread t .idle with
      sys := ⟨(provideHeader heapp n hp M.sys.mem).2,M.sys.core⟩
      live := insert (blockOf hp n) M.live
      raw := M.raw.erase (blockOf hp n) } := by
  simp only [headerStep,hn]

/-- No memory in use begins where the core goes on. -/
lemma blockOf_notMem_raw {free : List (Segment ℕ)}
    (h : HeapOk A M.sys.mem M.sys.core.nextmem free M.live M.raw) (n : ℕ) :
    blockOf M.sys.core.nextmem n ∉ M.raw := by
  intro hmem
  have hle := (h.tiling.used_bounds (Finset.mem_union_right M.live hmem)).2
  rw [blockOf_stop] at hle
  omega

end Provide

lemma step_provide (h : Ok A M) {t : ℕ} (ha : M.Allows (.provide t)) :
    Yields (step A.heapp (.provide t) M) fun M' => Ok A M' ∧ Keeps M M' (.provide t) := by
  obtain ⟨free,hok⟩ := h.heap
  obtain ⟨n,hn⟩ := Thread.isMissed_iff.mp ha
  obtain ⟨hn8,hnlt⟩ := h.threads.missed t n hn
  have hcore := chCoreAlloc_eq h.coreOk (n+8)
  rw [memAlignNext_of_aligned (by omega) (by omega)] at hcore
  have hpos := A.base_pos.trans_le hok.base_le
  by_cases hroom : M.sys.core.nextmem+(n+8) ≤ M.sys.core.endmem
  · rw [if_pos hroom] at hcore
    have hblock := hok.core (s := blockOf M.sys.core.nextmem n) rfl
      (by rw [blockOf_stop,← h.core]; omega) (by have := hok.brk_aligned; rw [blockOf_stop]; omega)
    have hout := provideStep_granted hn hnlt hcore (by omega)
    refine ⟨_,congrArg Except.ok hout,⟨⟨free,?_⟩,h.core,?_⟩,?_⟩
    · have hstop : (blockOf M.sys.core.nextmem n).stop = M.sys.core.nextmem+(n+8) := by
        rw [blockOf_stop]
        omega
      exact hstop ▸ hblock
    · exact h.threads.setProvided t fun n' => blockOf_notMem_raw hok n'
    · exact fun u hu _ => ⟨hu,fun _ _ _ => rfl⟩
  · rw [if_neg hroom] at hcore
    have hidle := h.threads.setIdle t
    simp only [hn] at hidle
    exact ⟨_,congrArg Except.ok (provideStep_refused hn hnlt hcore),⟨⟨free,hok⟩,h.core,hidle⟩,
      fun u hu _ => ⟨hu,fun _ _ _ => rfl⟩⟩

lemma step_header (h : Ok A M) {t : ℕ} (ha : M.Allows (.header t)) :
    Yields (step A.heapp (.header t) M) fun M' => Ok A M' ∧ Keeps M M' (.header t) := by
  obtain ⟨free,hok⟩ := h.heap
  obtain ⟨hp,n,hn⟩ := Thread.isProvided_iff.mp ha
  have hraw := h.threads.provided t hp n hn
  have hidle := h.threads.setIdle t
  simp only [hn] at hidle
  refine ⟨_,congrArg Except.ok (headerStep_provided hn),
    ⟨⟨free,hok.header hraw rfl⟩,h.core,hidle⟩,?_⟩
  intro u hu _
  refine ⟨Finset.mem_insert_of_mem hu,?_⟩
  intro a ha _
  have hlive : blockOf hp n ≠ u := fun he => Finset.disjoint_left.mp hok.apart hu (he ▸ hraw)
  have hdisj := hok.tiling.disjoint (Finset.mem_union_right M.live hraw)
    (Finset.mem_union_left M.raw hu) hlive
  have hnot := Set.disjoint_right.mp hdisj ha
  simp only [Segment.mem_points,blockOf_start,blockOf_stop] at hnot
  simp only [provideHeader,Memory.setSize,Memory.setHeap,Function.update_apply]
  rw [if_neg (by omega),if_neg (by omega)]

lemma freeStep_eq {s : Segment ℕ} {m : Memory} (h : chHeapFree (s.start+8) M.sys.mem = .ok m) :
    M.freeStep s = .ok { M with sys := ⟨m,M.sys.core⟩, live := M.live.erase s } := by
  simp [freeStep,h,pure_eq_ok]

lemma step_free (h : Ok A M) {s : Segment ℕ} (ha : M.Allows (.free s)) :
    Yields (step A.heapp (.free s) M) fun M' => Ok A M' ∧ Keeps M M' (.free s) := by
  obtain ⟨free,hok⟩ := h.heap
  have hs : s ∈ M.live := ha
  obtain ⟨m',free',hfree,hok',hframe⟩ := hok.free_live hs
  refine ⟨_,freeStep_eq hfree,⟨⟨free',hok'⟩,h.core,h.threads⟩,?_⟩
  intro u hu hne
  have hus : u ≠ s := fun he => hne (by rw [he])
  refine ⟨Finset.mem_erase.mpr ⟨hus,hu⟩,?_⟩
  intro a ha _
  have hdisj := hok.tiling.disjoint (Finset.mem_union_left M.raw hu)
    (Finset.mem_union_left M.raw hs) hus
  exact hframe a (live_word hok hu ha).1 (live_word hok hu ha).2 (Set.disjoint_left.mp hdisj ha)

lemma step_write (h : Ok A M) {a v : ℕ} (ha : M.Allows (.write a v)) :
    Yields (step A.heapp (.write a v) M) fun M' => Ok A M' ∧ Keeps M M' (.write a v) := by
  obtain ⟨free,hok⟩ := h.heap
  have hcell : (∃ s ∈ M.live, s.start+8 ≤ a ∧ a < s.stop) ∨ ∃ s ∈ M.raw, a ∈ s.points := by
    rcases ha.2.2 with ⟨s,hs,hlo,hhi⟩ | ⟨s,hs,hlo,hhi⟩
    · exact .inl ⟨s,hs,hlo,by omega⟩
    · exact .inr ⟨s,hs,hlo,by omega⟩
  refine ⟨{ M with sys := ⟨Function.update M.sys.mem a v,M.sys.core⟩ },rfl,
    ⟨⟨free,hok.write hcell⟩,h.core,h.threads⟩,?_⟩
  intro u hu _
  refine ⟨hu,fun b _ hb => Function.update_of_ne ?_ _ _⟩
  rintro rfl
  exact hb v rfl

lemma step_core (h : Ok A M) {size : ℕ} (ha : M.Allows (.core size)) :
    Yields (step A.heapp (.core size) M) fun M' => Ok A M' ∧ Keeps M M' (.core size) := by
  obtain ⟨free,hok⟩ := h.heap
  have hsize : size+7 < 2^32 := ha
  obtain ⟨hle,hlt,hn⟩ := memAlignNext_spec hsize
  have hcore := chCoreAlloc_eq h.coreOk size
  have hpos := A.base_pos.trans_le hok.base_le
  by_cases hroom : M.sys.core.nextmem+memAlignNext size ≤ M.sys.core.endmem
  · rw [if_pos hroom] at hcore
    by_cases hzero : 0 < memAlignNext size
    · have hout : M.coreStep size = { M with
          sys := ⟨M.sys.mem,⟨M.sys.core.nextmem+memAlignNext size,M.sys.core.endmem⟩⟩
          raw := insert (extent M.sys.core.nextmem (memAlignNext size) hzero) M.raw } := by
        simp only [coreStep,hcore]
        rw [if_neg (by omega),dif_pos hzero]
      have hblock := hok.core (s := extent M.sys.core.nextmem (memAlignNext size) hzero) rfl
        (h.core ▸ hroom) (by have := hok.brk_aligned; simp only [extent]; omega)
      refine ⟨_,congrArg Except.ok hout,⟨⟨free,hblock⟩,h.core,?_⟩,?_⟩
      · exact h.threads.mono (Finset.subset_insert _ _)
      · exact fun u hu _ => ⟨hu,fun _ _ _ => rfl⟩
    · have hout : M.coreStep size = M := by simp [coreStep,hzero]
      exact ⟨M,congrArg Except.ok hout,h,fun u hu _ => ⟨hu,fun _ _ _ => rfl⟩⟩
  · rw [if_neg hroom] at hcore
    have hout : M.coreStep size = M := by simp [coreStep,hcore]
    exact ⟨M,congrArg Except.ok hout,h,fun u hu _ => ⟨hu,fun _ _ _ => rfl⟩⟩

/-- Every allowed step returns, keeps the invariant, and keeps the contents of the blocks of the
other holders. -/
lemma step_ok (h : Ok A M) {e : HeapEvent} (ha : M.Allows e) :
    Yields (step A.heapp e M) fun M' => Ok A M' ∧ Keeps M M' e := by
  cases e with
  | search t size => exact step_search h ha
  | provide t => exact step_provide h ha
  | header t => exact step_header h ha
  | free s => exact step_free h ha
  | write a v => exact step_write h ha
  | core size => exact step_core h ha

/-- However the threads interleave: no call halts or loops, the free list and the live blocks
keep tiling the memory of the heap, and every header of a live block is intact. -/
theorem run_safe (hM : Ok A M) {es : List HeapEvent} (hes : (users A.heapp).Legal M es) :
    Yields ((users A.heapp).run es M) (Ok A) := by
  apply Driven.run_yields _ hM hes
  intro M' e _ h ha
  exact (step_ok h ha).mono fun _ h' => h'.1

/-- A live block that is not freed stays live, and a word of it that is not written keeps its
value, whatever else happens on the heap. -/
theorem run_keeps (hM : Ok A M) {es : List HeapEvent} (hes : (users A.heapp).Legal M es)
    {s : Segment ℕ} (hs : s ∈ M.live) (hfree : HeapEvent.free s ∉ es) {a : ℕ} (ha : a ∈ s.points)
    (hwrite : ∀ v, HeapEvent.write a v ∉ es) :
    Yields ((users A.heapp).run es M) fun M' => s ∈ M'.live ∧ M'.sys.mem a = M.sys.mem a := by
  have hrun : Yields ((users A.heapp).run es M)
      fun M' => Ok A M' ∧ s ∈ M'.live ∧ M'.sys.mem a = M.sys.mem a := by
    apply Driven.run_yields _ ⟨hM,hs,rfl⟩ hes
    rintro M' e he ⟨h,hs',hword⟩ hallow
    refine (step_ok h hallow).mono ?_
    rintro M'' ⟨h',hkeeps⟩
    obtain ⟨hs'',hword'⟩ := hkeeps s hs' fun heq => hfree (heq ▸ he)
    exact ⟨h',hs'',(hword' a ha fun v heq => hwrite v (heq ▸ he)).trans hword⟩
  exact hrun.mono fun _ h => h.2

/-- The machine after `_core_init` and `_heap_init`, over any memory. -/
def boot (heapp heapBase heapEnd : ℕ) (m : Memory) : Machine :=
  ⟨⟨heapInit heapp m,coreInit heapBase heapEnd⟩,fun _ => .idle,∅,∅⟩

lemma boot_ok (A : Area) {heapBase heapEnd : ℕ} (hbase : memAlignNext heapBase = A.base)
    (hlast : memAlignPrev heapEnd = A.last) (m : Memory) :
    Ok A (boot A.heapp heapBase heapEnd m) := by
  have hnext : (coreInit heapBase heapEnd).nextmem = A.base := hbase
  refine ⟨⟨[],?_⟩,hlast,⟨by simp [boot],by simp [boot],by simp [boot]⟩⟩
  simp only [boot,hnext]
  exact HeapOk.init A m

end Machine

end DspLibrary.Chibios
