import DspLibrary.Chibios.HeapUse
import DspLibrary.Chibios.HeapRuns

/-! Whole runs of the heap from start-up: that a thread alone does what `chHeapAlloc` does, what is
reached, how much of it is in use, and that the past of a heap shows only in the blocks in use. -/
namespace DspLibrary.Chibios
open DspLibrary.Foundation
open scoped BigOperators

/-- The thread whose call an event is a step of. -/
def HeapEvent.thread : HeapEvent → Option ℕ
  | search t _ => some t
  | provide t => some t
  | header t => some t
  | _ => none

namespace Machine
variable {A : Area} {M M' : Machine}

/-- A thread stays where it is in the steps of the others. -/
lemma step_threads {heapp t : ℕ} {e : HeapEvent} (he : e.thread ≠ some t) :
    Returning (step heapp e M) fun M' => M'.threads t = M.threads t := by
  have hset : ∀ u th, some u ≠ some t → (M.setThread u th).threads t = M.threads t :=
    fun u th hne => Function.update_of_ne (fun heq => hne (congrArg some heq.symm)) _ _
  cases e with
  | search u size =>
    intro M' hM'
    change M.searchStep heapp u size = .ok M' at hM'
    unfold searchStep at hM'
    split at hM'
    · cases hM'
    · rw [← Except.ok.inj hM']
      exact hset u _ he
    · rw [← Except.ok.inj hM']
  | provide u =>
    have hout : M.provideStep u = M ∨ ∃ th sys raw,
        M.provideStep u = { M.setThread u th with sys := sys, raw := raw } := by
      simp only [provideStep]
      split
      · split_ifs
        · exact .inr ⟨.idle,_,_,rfl⟩
        · exact .inr ⟨_,_,_,rfl⟩
      · exact .inl rfl
    refine Returning.ok ?_
    rcases hout with hout | ⟨th,sys,raw,hout⟩
    · rw [hout]
    · rw [hout]
      exact hset u th he
  | header u =>
    refine Returning.ok ?_
    simp only [headerStep]
    split
    · exact hset u _ he
    · rfl
  | free s =>
    intro M' hM'
    obtain ⟨m,-,hm⟩ := exists_of_bind_eq_ok (show M.freeStep s = .ok M' from hM')
    rw [← Except.ok.inj hm]
  | write a v => exact Returning.ok rfl
  | core size =>
    have hout : M.coreStep size = M ∨ ∃ sys raw,
        M.coreStep size = { M with sys := sys, raw := raw } := by
      simp only [coreStep]
      split_ifs
      · exact .inl rfl
      · exact .inr ⟨_,_,rfl⟩
      · exact .inl rfl
    refine Returning.ok ?_
    rcases hout with hout | ⟨sys,raw,hout⟩ <;> rw [hout]

lemma run_three {heapp t size : ℕ} {M₁ M₂ M₃ : Machine}
    (h₁ : M.searchStep heapp t size = .ok M₁) (h₂ : M₁.provideStep t = M₂)
    (h₃ : M₂.headerStep heapp t = M₃) :
    (users heapp).run [.search t size,.provide t,.header t] M = .ok M₃ := by
  subst h₂ h₃
  change (M.searchStep heapp t size >>= fun M => _) = _
  rw [h₁]
  rfl

section Alone
variable {t size n : ℕ} (h : Ok A M) (hidle : M.threads t = .idle)
include hidle

/-- The core provides a block: the header is written and the block is in use. -/
lemma provide_alone (hn : n+16 ≤ 2^32) (hp : M.sys.core.nextmem ≠ 0)
    (hnew : blockOf M.sys.core.nextmem n ∉ M.raw) {c : Core}
    (hcore : chCoreAlloc (n+8) M.sys.core = (M.sys.core.nextmem,c)) :
    ((M.setThread t (.missed n)).provideStep t).headerStep A.heapp t = { M with
      sys := ⟨(provideHeader A.heapp n M.sys.core.nextmem M.sys.mem).2,c⟩
      live := insert (blockOf M.sys.core.nextmem n) M.live } := by
  have hself : Function.update M.threads t .idle = M.threads := by
    rw [← hidle,Function.update_eq_self]
  have hmissed : (M.setThread t (.missed n)).threads t = .missed n := Function.update_self _ _ _
  have hcore' : chCoreAlloc (n+8) (M.setThread t (.missed n)).sys.core =
      (M.sys.core.nextmem,c) := hcore
  rw [provideStep_granted hmissed hn hcore' hp,headerStep_provided (Function.update_self _ _ _)]
  simp only [setThread,Function.update_idem,hself,Finset.erase_insert hnew]

lemma refuse_alone {heapp : ℕ} (hn : n+16 ≤ 2^32)
    (hcore : chCoreAlloc (n+8) M.sys.core = (0,M.sys.core)) :
    ((M.setThread t (.missed n)).provideStep t).headerStep heapp t = M := by
  have hself : Function.update M.threads t .idle = M.threads := by
    rw [← hidle,Function.update_eq_self]
  have hmissed : (M.setThread t (.missed n)).threads t = .missed n := Function.update_self _ _ _
  have hback : (M.setThread t (.missed n)).setThread t .idle = M := by
    simp only [setThread,Function.update_idem,hself]
  rw [provideStep_refused hmissed hn hcore,hback]
  simp only [headerStep,hidle]

include h

/-- Undisturbed, the three steps of a thread are one call of `chHeapAlloc`. -/
theorem run_alloc (hsize : size+16 ≤ 2^32) :
    (users A.heapp).run [.search t size,.provide t,.header t] M =
      (chHeapAlloc (defaultHeap A.heapp) size M.sys).map fun r => { M with
        sys := r.2
        live := if r.1 = 0 then M.live else insert (blockAt r.2.mem r.1) M.live } := by
  obtain ⟨free,hok⟩ := h.heap
  obtain ⟨hle,hlt,hn⟩ := memAlignNext_spec (n := size) (by omega)
  have hpos := A.base_pos.trans_le hok.base_le
  have hend := h.coreOk.lt
  rcases exists_first_fit free (memAlignNext size) with hsmall | ⟨l₁,s,l₂,rfl,hsmall,hfit⟩
  · have hmiss := searchStep_miss (t := t) hok hsmall
    rw [chHeapAlloc_of_miss (hok.search_miss hsmall)]
    generalize memAlignNext size = n at *
    have hcore := chCoreAlloc_eq h.coreOk (n+8)
    rw [memAlignNext_of_aligned (by omega) (by omega)] at hcore
    by_cases hroom : M.sys.core.nextmem+(n+8) ≤ M.sys.core.endmem
    · rw [if_pos hroom] at hcore
      have hnew := blockOf_notMem_raw hok n
      have hsteps := provide_alone (A := A) hidle (by omega) (by omega) hnew hcore
      generalize M.sys.core.nextmem = hp at *
      have hblock : blockAt (provideHeader A.heapp n hp M.sys.mem).2 (hp+8) = blockOf hp n := by
        simp [blockAt,provideHeader,Memory.size,Memory.setSize]
      rw [run_three hmiss rfl hsteps,provide_granted (by omega) hcore (by omega) (by omega)]
      simp only [Except.map]
      rw [if_neg (show hp+8 ≠ 0 by omega),hblock]
    · rw [if_neg hroom] at hcore
      rw [run_three hmiss rfl (refuse_alone hidle (by omega) hcore),
        provide_refused (by omega) hcore]
      rfl
  · obtain ⟨m',hout,hok',-⟩ := hok.search_hit hn hsmall hfit
    rw [chHeapAlloc_of_hit hout]
    have hstep : M.searchStep A.heapp t size = .ok { M with
        sys := ⟨m',M.sys.core⟩, live := insert (blockAt m' (s.start+8)) M.live } := by
      simp only [searchStep,hout]
    have hprovide : ∀ N : Machine, N.threads t = .idle → N.provideStep t = N := by
      intro N hN
      simp only [provideStep,hN]
    have hheader : ∀ N : Machine, N.threads t = .idle → N.headerStep A.heapp t = N := by
      intro N hN
      simp only [headerStep,hN]
    rw [run_three hstep (hprovide _ hidle) (hheader _ hidle)]
    simp only [Except.map]
    rw [if_neg (show s.start+8 ≠ 0 by omega)]

end Alone

/-- The same blocks in use and the same calls under way. -/
structure SameUse (M M' : Machine) : Prop where
  core : M'.sys.core = M.sys.core
  threads : M'.threads = M.threads
  live : M'.live = M.live
  raw : M'.raw = M.raw

/-- Two machines in the same use, whatever their memories hold. -/
structure Same (A : Area) (M M' : Machine) : Prop extends SameUse M M' where
  ok : Ok A M
  ok' : Ok A M'

lemma SameUse.allows (h : SameUse M M') {e : HeapEvent} (ha : M.Allows e) : M'.Allows e := by
  cases e with
  | search t size => simpa only [Allows,h.threads] using ha
  | provide t => simpa only [Allows,h.threads] using ha
  | header t => simpa only [Allows,h.threads] using ha
  | free s => simpa only [Allows,h.live] using ha
  | write a v => simpa only [Allows,h.live,h.raw] using ha
  | core size => exact ha

lemma SameUse.setThread (h : SameUse M M') (t : ℕ) (th : Thread) :
    SameUse (M.setThread t th) (M'.setThread t th) :=
  ⟨h.core,by simp only [Machine.setThread,h.threads],h.live,h.raw⟩

lemma SameUse.provideStep (h : SameUse M M') (t : ℕ) :
    SameUse (M.provideStep t) (M'.provideStep t) := by
  simp only [Machine.provideStep,h.threads,h.core]
  cases M.threads t with
  | idle => exact h
  | missed n =>
    dsimp only
    split_ifs
    · exact h.setThread t .idle
    · exact ⟨rfl,(h.setThread t _).threads,h.live,by simp only [h.raw]⟩
  | provided hp n => exact h

lemma SameUse.headerStep (h : SameUse M M') (heapp t : ℕ) :
    SameUse (M.headerStep heapp t) (M'.headerStep heapp t) := by
  simp only [Machine.headerStep,h.threads]
  cases M.threads t with
  | idle => exact h
  | missed n => exact h
  | provided hp n =>
    exact ⟨h.core,(h.setThread t _).threads,by simp only [h.live],by simp only [h.raw]⟩

lemma SameUse.coreStep (h : SameUse M M') (size : ℕ) :
    SameUse (M.coreStep size) (M'.coreStep size) := by
  simp only [Machine.coreStep,h.core]
  split_ifs
  · exact h
  · exact ⟨rfl,h.threads,h.live,by simp only [h.raw]⟩
  · exact h

/-- Both machines have the same free list. -/
lemma Same.free_eq (h : Same A M M') :
    ∃ free, HeapOk A M.sys.mem M.sys.core.nextmem free M.live M.raw ∧
      HeapOk A M'.sys.mem M.sys.core.nextmem free M.live M.raw := by
  obtain ⟨free,hok⟩ := h.ok.heap
  obtain ⟨free',hok'⟩ := h.ok'.heap
  rw [h.core,h.live,h.raw] at hok'
  exact ⟨free,hok,hok'.tiling.free_unique hok.tiling ▸ hok'⟩

lemma Same.searchStep (h : Same A M M') {t size : ℕ} (ha : M.Allows (.search t size)) :
    ∃ N N', M.searchStep A.heapp t size = .ok N ∧ M'.searchStep A.heapp t size = .ok N' ∧
      SameUse N N' := by
  obtain ⟨free,hok,hok'⟩ := h.free_eq
  have hsize : size+16 ≤ 2^32 := ha.2
  obtain ⟨-,-,hn⟩ := memAlignNext_spec (n := size) (by omega)
  rw [← h.core,← h.live,← h.raw] at hok'
  rcases exists_first_fit free (memAlignNext size) with hsmall | ⟨l₁,s,l₂,rfl,hsmall,hfit⟩
  · exact ⟨_,_,searchStep_miss hok hsmall,searchStep_miss hok' hsmall,h.setThread t _⟩
  · obtain ⟨m,hout,-,-⟩ := searchStep_hit (t := t) hok hn hsmall hfit
    obtain ⟨m',hout',-,-⟩ := searchStep_hit (t := t) hok' hn hsmall hfit
    exact ⟨_,_,hout,hout',h.core,h.threads,by simp only [h.live],h.raw⟩

lemma Same.freeStep (h : Same A M M') {s : Segment ℕ} (hs : s ∈ M.live) :
    ∃ N N', M.freeStep s = .ok N ∧ M'.freeStep s = .ok N' ∧ SameUse N N' := by
  obtain ⟨free,hok,hok'⟩ := h.free_eq
  obtain ⟨m,-,hfree,-,-⟩ := hok.free_live hs
  obtain ⟨m',-,hfree',-,-⟩ := hok'.free_live hs
  exact ⟨_,_,freeStep_eq hfree,freeStep_eq hfree',h.core,h.threads,by simp only [h.live],h.raw⟩

/-- What a step does to the blocks in use does not depend on the memory. -/
lemma Same.step (h : Same A M M') {e : HeapEvent} (ha : M.Allows e) :
    ∃ N N', Machine.step A.heapp e M = .ok N ∧ Machine.step A.heapp e M' = .ok N' ∧
      Same A N N' := by
  have huse : ∃ N N', Machine.step A.heapp e M = .ok N ∧ Machine.step A.heapp e M' = .ok N' ∧
      SameUse N N' := by
    cases e with
    | search t size => exact h.searchStep ha
    | provide t => exact ⟨_,_,rfl,rfl,h.toSameUse.provideStep t⟩
    | header t => exact ⟨_,_,rfl,rfl,h.toSameUse.headerStep A.heapp t⟩
    | free s => exact h.freeStep ha
    | write a v => exact ⟨_,_,rfl,rfl,h.core,h.threads,h.live,h.raw⟩
    | core size => exact ⟨_,_,rfl,rfl,h.toSameUse.coreStep size⟩
  obtain ⟨N,N',hN,hN',hsame⟩ := huse
  have hok := (step_ok h.ok ha).returning N hN
  have hok' := (step_ok h.ok' (h.allows ha)).returning N' hN'
  exact ⟨N,N',hN,hN',hsame,hok.1,hok'.1⟩

lemma run_same (h : Same A M M') {es : List HeapEvent} (hes : (users A.heapp).Legal M es) :
    ∃ N N', (users A.heapp).run es M = .ok N ∧ (users A.heapp).run es M' = .ok N' ∧
      SameUse N N' := by
  obtain ⟨N,N',hN,hN',hsame⟩ := Driven.run_related (R := Same A) (fun _ _ _ hR ha => hR.step ha) h hes
  exact ⟨N,N',hN,hN',hsame.toSameUse⟩

/-- The events are legal from start-up on, with the core between the two linker symbols. -/
structure Started (A : Area) (heapBase heapEnd : ℕ) (m : Memory) (es : List HeapEvent) : Prop where
  base : memAlignNext heapBase = A.base
  last : memAlignPrev heapEnd = A.last
  legal : (users A.heapp).Legal (boot A.heapp heapBase heapEnd m) es

/-- The machine that a list of events leads to from start-up. -/
def booted (A : Area) (heapBase heapEnd : ℕ) (m : Memory) (es : List HeapEvent) :
    Except Halt Machine :=
  (users A.heapp).run es (boot A.heapp heapBase heapEnd m)

variable {heapBase heapEnd : ℕ} {m m' : Memory} {es es' : List HeapEvent}

/-- A thread that makes no call is idle. -/
lemma booted_idle {t : ℕ} (hes : ∀ e ∈ es, e.thread ≠ some t) :
    Returning (booted A heapBase heapEnd m es) fun M => M.threads t = .idle := by
  have hstep : ∀ M : Machine, ∀ e ∈ es, M.threads t = .idle →
      Returning ((users A.heapp).step e M) fun M' => M'.threads t = .idle := by
    intro M e he hM
    exact (step_threads (hes e he)).mono fun _ h => h.trans hM
  exact Driven.run_returning hstep rfl

lemma Started.safe (h : Started A heapBase heapEnd m es) :
    Yields (booted A heapBase heapEnd m es) (Ok A) :=
  run_safe (boot_ok A h.base h.last m) h.legal

/-- From start-up on, however the threads interleave, as long as they keep to the rules: no call
halts or loops, the free list and the blocks in use tile the memory taken from the core, and every
header of a live block is intact. -/
theorem booted_run_safe (h : Started A heapBase heapEnd m es) :
    Yields (booted A heapBase heapEnd m es) fun M =>
      ∃ free, HeapOk A M.sys.mem M.sys.core.nextmem free M.live M.raw :=
  h.safe.mono fun _ hok => hok.heap

/-- Two threads allocate at the same time, core memory is taken in between, and the first block is
written, freed and partly handed out again. -/
def twoThreads : List HeapEvent :=
  [.search 0 100,.provide 0,.search 1 20,.core 12,.provide 1,.header 1,.header 0,
    .write 0x20000808 7,.free (blockOf 0x20000800 104),.search 2 30]

lemma twoThreads_started : Started sram 0x200007fa 0x20001003 (fun _ => 0) twoThreads :=
  ⟨by decide +kernel,by decide +kernel,by decide +kernel⟩

theorem booted_run_safe_twoThreads :
    Yields (booted sram 0x200007fa 0x20001003 (fun _ => 0) twoThreads) fun M =>
      ∃ free, HeapOk sram M.sys.mem M.sys.core.nextmem free M.live M.raw :=
  booted_run_safe twoThreads_started

/-- A block that is live at some moment and not freed later stays live, and a word of it that is
not written keeps its value, whatever all threads do on the heap within the rules. -/
theorem booted_run_keeps (h : Started A heapBase heapEnd m es) :
    Yields (booted A heapBase heapEnd m es) fun M =>
      ∀ s ∈ M.live, ∀ a ∈ s.points, a%4 = 0 → ∀ later, (users A.heapp).Legal M later →
        HeapEvent.free s ∉ later → (∀ v, HeapEvent.write a v ∉ later) →
          Yields ((users A.heapp).run later M) fun M' =>
            s ∈ M'.live ∧ M'.sys.mem a = M.sys.mem a := by
  refine h.safe.mono ?_
  intro M hok s hs a ha _ later hlater hfree hwrite
  exact run_keeps hok hlater hs hfree ha hwrite

theorem booted_run_keeps_twoThreads :
    Yields (booted sram 0x200007fa 0x20001003 (fun _ => 0) twoThreads) fun M =>
      ∀ s ∈ M.live, ∀ a ∈ s.points, a%4 = 0 → ∀ later, (users sram.heapp).Legal M later →
        HeapEvent.free s ∉ later → (∀ v, HeapEvent.write a v ∉ later) →
          Yields ((users sram.heapp).run later M) fun M' =>
            s ∈ M'.live ∧ M'.sys.mem a = M.sys.mem a :=
  booted_run_keeps twoThreads_started

/-- At any moment an allocation fails only when no gap between the blocks in use is large enough
and the core cannot provide the bytes, and then it changes nothing; otherwise it returns a new
block. -/
theorem booted_run_allocates (h : Started A heapBase heapEnd m es) :
    Yields (booted A heapBase heapEnd m es) fun M => ∀ size, size+16 ≤ 2^32 →
      ∃ p s', chHeapAlloc (defaultHeap A.heapp) size M.sys = .ok (p,s') ∧
        (p = 0 ↔ (¬ ∃ g : Segment ℕ, A.base ≤ g.start ∧ g.stop ≤ M.sys.core.nextmem ∧
            (∀ u ∈ M.live ∪ M.raw, Disjoint u.points g.points) ∧ Fits (memAlignNext size) g) ∧
          M.sys.core.endmem < M.sys.core.nextmem+8+memAlignNext size) ∧
        (p = 0 → s' = M.sys) ∧ (p ≠ 0 → ∃ b, NewBlock A M.sys M.live M.raw size p s' b) := by
  refine h.safe.mono ?_
  intro M hok size hsize
  obtain ⟨free,hheap⟩ := hok.heap
  obtain ⟨p,s',hout,hnull,hsame,hblock⟩ := chHeapAlloc_contract ⟨hheap,hok.core⟩ hsize
  refine ⟨p,s',hout,?_,hsame,hblock⟩
  rw [hnull,← exists_fits_iff hheap]
  simp only [not_exists,not_and]

theorem booted_run_allocates_twoThreads :
    Yields (booted sram 0x200007fa 0x20001003 (fun _ => 0) twoThreads) fun M =>
      ∀ size, size+16 ≤ 2^32 →
        ∃ p s', chHeapAlloc (defaultHeap sram.heapp) size M.sys = .ok (p,s') ∧
          (p = 0 ↔ (¬ ∃ g : Segment ℕ, sram.base ≤ g.start ∧ g.stop ≤ M.sys.core.nextmem ∧
              (∀ u ∈ M.live ∪ M.raw, Disjoint u.points g.points) ∧ Fits (memAlignNext size) g) ∧
            M.sys.core.endmem < M.sys.core.nextmem+8+memAlignNext size) ∧
          (p = 0 → s' = M.sys) ∧ (p ≠ 0 → ∃ b, NewBlock sram M.sys M.live M.raw size p s' b) :=
  booted_run_allocates twoThreads_started

/-- At any moment `chHeapStatus` accounts for every byte taken from the core. -/
theorem booted_run_accounts (h : Started A heapBase heapEnd m es) :
    Yields (booted A heapBase heapEnd m es) fun M =>
      ∃ n sz, chHeapStatus A.heapp M.sys.mem = .ok (n,sz) ∧
        sz+8*n+∑ s ∈ M.live ∪ M.raw, s.length = M.sys.core.nextmem-A.base := by
  refine h.safe.mono ?_
  intro M hok
  obtain ⟨free,hheap⟩ := hok.heap
  obtain ⟨sz,hstatus,hsum⟩ := chHeapStatus_accounts hheap
  exact ⟨_,sz,hstatus,hsum⟩

theorem booted_run_accounts_twoThreads :
    Yields (booted sram 0x200007fa 0x20001003 (fun _ => 0) twoThreads) fun M =>
      ∃ n sz, chHeapStatus sram.heapp M.sys.mem = .ok (n,sz) ∧
        sz+8*n+∑ s ∈ M.live ∪ M.raw, s.length = M.sys.core.nextmem-sram.base :=
  booted_run_accounts twoThreads_started

/-- Whenever everything has been given back, in whatever order, the heap is one fragment of all
the memory it has ever taken from the core. -/
theorem booted_run_unfragmented (h : Started A heapBase heapEnd m es) :
    Yields (booted A heapBase heapEnd m es) fun M =>
      M.live = ∅ → M.raw = ∅ → chHeapStatus A.heapp M.sys.mem =
        .ok (if M.sys.core.nextmem = A.base then (0,0) else (1,M.sys.core.nextmem-A.base-8)) := by
  refine h.safe.mono ?_
  intro M hok hlive hraw
  obtain ⟨free,hheap⟩ := hok.heap
  rw [hlive,hraw] at hheap
  obtain ⟨sz,hstatus,hsum⟩ := chHeapStatus_accounts hheap
  have hfree := hheap.free_of_unused
  have hle := hheap.base_le
  rw [hstatus]
  simp only [Finset.empty_union,Finset.sum_empty,add_zero] at hsum
  split_ifs at hfree ⊢ with heq hlt hlt
  · omega
  · have hlen : free.length = 0 := by simp [hfree]
    rw [hlen] at hsum ⊢
    have hsz : sz = 0 := by omega
    rw [hsz]
  · have hlen : free.length = 1 := by simp [hfree]
    rw [hlen] at hsum ⊢
    have hsz : sz = M.sys.core.nextmem-A.base-8 := by omega
    rw [hsz]
  · omega

/-- Three blocks, given back in an order that merges both ways. -/
def givenBack : List HeapEvent :=
  [.search 0 10,.provide 0,.header 0,.search 0 20,.provide 0,.header 0,.search 0 30,.provide 0,
    .header 0,.free (blockOf 0x20000800 16),.free (blockOf 0x20000838 32),
    .free (blockOf 0x20000818 24)]

theorem booted_run_unfragmented_givenBack :
    Yields (booted sram 0x200007fa 0x20001003 (fun _ => 0) givenBack) fun M =>
      chHeapStatus sram.heapp M.sys.mem = .ok (1,88) := by
  have huse : Yields (booted sram 0x200007fa 0x20001003 (fun _ => 0) givenBack) fun M =>
      (M.live,M.raw,M.sys.core.nextmem) = (∅,∅,0x20000860) := Yields.of_map (by decide +kernel)
  have hstatus := booted_run_unfragmented
    (⟨by decide +kernel,by decide +kernel,by decide +kernel⟩ :
      Started sram 0x200007fa 0x20001003 (fun _ => 0) givenBack)
  refine (hstatus.and_returning huse.returning).mono ?_
  rintro M ⟨hM,hused⟩
  obtain ⟨hlive,hraw,hnext⟩ : M.live = ∅ ∧ M.raw = ∅ ∧ M.sys.core.nextmem = 0x20000860 := by
    simpa using hused
  rw [hM hlive hraw,hnext]
  rfl

/-- The past of the heap shows only in the blocks in use: two runs that have led to the same use
hand out the same blocks at the same addresses from then on, whatever their memories hold and
however the blocks came about. -/
theorem booted_runs_same (h : Started A heapBase heapEnd m es)
    (h' : Started A heapBase heapEnd m' es') :
    Yields (booted A heapBase heapEnd m es) fun M =>
      Yields (booted A heapBase heapEnd m' es') fun M' =>
        SameUse M M' → ∀ later, (users A.heapp).Legal M later →
          ∃ N N', (users A.heapp).run later M = .ok N ∧ (users A.heapp).run later M' = .ok N' ∧
            SameUse N N' := by
  refine h.safe.mono ?_
  intro M hok
  refine h'.safe.mono ?_
  intro M' hok' huse later hlater
  exact run_same ⟨huse,hok,hok'⟩ hlater

/-- Two blocks, freed in this order or in the other one. -/
def twoBlocks (inOrder : Bool) : List HeapEvent :=
  [.search 0 10,.provide 0,.header 0,.search 0 20,.provide 0,.header 0]++
    if inOrder then [.free (blockOf 0x20000800 16),.free (blockOf 0x20000818 24)]
    else [.free (blockOf 0x20000818 24),.free (blockOf 0x20000800 16)]

/-- From then on: a block from the list, a word written to it, and a block from the core. -/
def afterwards : List HeapEvent :=
  [.search 1 30,.write 0x20000808 7,.search 2 300,.provide 2,.header 2]

lemma twoBlocks_use {inOrder : Bool} {m : Memory} (h : (booted sram 0x200007fa 0x20001003 m
      (twoBlocks inOrder)).map (fun M => (M.sys.core,M.threads 0,M.live,M.raw)) =
        .ok (⟨0x20000838,0x20001000⟩,.idle,∅,∅)) :
    Returning (booted sram 0x200007fa 0x20001003 m (twoBlocks inOrder)) fun M =>
      M.sys.core = ⟨0x20000838,0x20001000⟩ ∧ (∀ t, M.threads t = .idle) ∧ M.live = ∅ ∧
        M.raw = ∅ := by
  intro M hM
  have huse := (Yields.of_map h).returning M hM
  simp only [Prod.mk.injEq] at huse
  obtain ⟨hcore,hzero,hlive,hraw⟩ := huse
  refine ⟨hcore,fun t => ?_,hlive,hraw⟩
  by_cases ht : t = 0
  · rw [ht,hzero]
  · refine booted_idle (fun e he => ?_) M hM
    have hthread : ∀ e ∈ twoBlocks inOrder, e.thread = none ∨ e.thread = some 0 := by
      cases inOrder <;> simp [twoBlocks,HeapEvent.thread]
    rcases hthread e he with h | h <;> rw [h]
    · simp
    · simpa using Ne.symm ht

/-- The two orders, over different memories, have led to the same use. -/
theorem booted_runs_same_orders :
    Yields (booted sram 0x200007fa 0x20001003 (fun _ => 0) (twoBlocks true)) fun M =>
      Yields (booted sram 0x200007fa 0x20001003 (fun a => a) (twoBlocks false)) fun M' =>
        ∃ N N', (users sram.heapp).run afterwards M = .ok N ∧
          (users sram.heapp).run afterwards M' = .ok N' ∧ SameUse N N' := by
  obtain ⟨M,hM,M',hM',hsame⟩ := booted_runs_same
    (⟨by decide +kernel,by decide +kernel,by decide +kernel⟩ :
      Started sram 0x200007fa 0x20001003 (fun _ => 0) (twoBlocks true))
    (⟨by decide +kernel,by decide +kernel,by decide +kernel⟩ :
      Started sram 0x200007fa 0x20001003 (fun a => a) (twoBlocks false))
  have hlegal : (users sram.heapp).Legal
      (boot sram.heapp 0x200007fa 0x20001003 fun _ => 0) (twoBlocks true++afterwards) := by
    decide +kernel
  obtain ⟨hcore,hthreads,hlive,hraw⟩ := twoBlocks_use (by decide +kernel) M hM
  obtain ⟨hcore',hthreads',hlive',hraw'⟩ := twoBlocks_use (by decide +kernel) M' hM'
  refine ⟨M,hM,M',hM',hsame ⟨?_,?_,?_,?_⟩ afterwards (hlegal.append M hM)⟩
  · rw [hcore,hcore']
  · exact funext fun t => (hthreads' t).trans (hthreads t).symm
  · rw [hlive,hlive']
  · rw [hraw,hraw']

end Machine
end DspLibrary.Chibios
