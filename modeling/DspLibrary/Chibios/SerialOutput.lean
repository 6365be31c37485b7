import DspLibrary.Chibios.SerialRuns

/-! What reaches the line: the bytes of all threads, interleaved, each thread's in the order of its
calls. -/
namespace DspLibrary.Chibios
open DspLibrary.Foundation

/-- The byte of a call of thread `t` that has returned. -/
def Deed.byteOf (t : ℕ) : Deed → Option UInt8
  | returned s b _ => if s = t then some b else none
  | sent _ | raised _ | cleared => none

/-- The byte that a thread puts into the queue, with the thread. -/
def Deed.accepted : Deed → Option (ℕ × UInt8)
  | returned t b .ok => some (t,b)
  | returned _ _ .timeout | returned _ _ .reset => none
  | sent _ | raised _ | cleared => none

def Deed.out : Deed → Option UInt8
  | sent b => some b
  | returned _ _ _ | raised _ | cleared => none

/-- The byte that thread `t` starts to put. -/
def SerialEvent.byteOf (t : ℕ) : SerialEvent → Option UInt8
  | put s b _ => if s = t then some b else none
  | resume _ | wakeup _ | interrupt _ _ | start _ | stop => none

namespace SerialDriver

/-- The bytes of all calls of thread `t`, the last of which may not have returned. -/
def called (d : SerialDriver) (t : ℕ) : List UInt8 :=
  d.deeds.filterMap (Deed.byteOf t)++(d.writers t).pending.toList

/-- The bytes written to the data register. -/
def line (d : SerialDriver) : List UInt8 := d.deeds.filterMap Deed.out

/-- The bytes in the order in which the queue took them, with their threads. -/
def accepted (d : SerialDriver) : List (ℕ × UInt8) := d.deeds.filterMap Deed.accepted

variable {d : SerialDriver}

lemma called_congr {d d' : SerialDriver} {t : ℕ} (hd : d'.deeds = d.deeds)
    (hw : (d'.writers t).pending = (d.writers t).pending) : d'.called t = d.called t := by
  rw [called,called,hd,hw]

lemma called_note {x : Deed} (hx : ∀ t, x.byteOf t = none) (t : ℕ) :
    (d.note x).called t = d.called t := by
  simp [called,note,List.filterMap_append,hx]

lemma called_finish (s : ℕ) (b : UInt8) (msg : Msg) (t : ℕ) :
    (d.finish s b msg).called t =
      if s = t then d.deeds.filterMap (Deed.byteOf t)++[b] else d.called t := by
  by_cases h : s = t
  · simp [called,finish,note,setWriter,List.filterMap_append,Deed.byteOf,h,Writer.pending]
  · simp [called,finish,note,setWriter,List.filterMap_append,Deed.byteOf,h,Ne.symm h]

/-- A round of a call either returns or leaves the byte pending. -/
lemma called_put (s : ℕ) (b : UInt8) (timeout t : ℕ) :
    (d.chOQPutTimeout s b timeout).called t =
      if s = t then d.deeds.filterMap (Deed.byteOf t)++[b] else d.called t := by
  unfold chOQPutTimeout
  by_cases hf : d.oqueue.chOQIsFullI = true
  · rw [if_pos hf]
    by_cases ht : timeout = timeImmediate
    · rw [if_pos ht,called_finish]
    · rw [if_neg ht]
      by_cases hs : s = t
      · simp [called,chThdEnqueueTimeoutS,setWriter,hs,Writer.pending]
      · simp [called,chThdEnqueueTimeoutS,setWriter,hs,Ne.symm hs]
  · rw [if_neg hf,called_finish]
    rfl

lemma called_dequeueNext (msg : Msg) (t : ℕ) : (d.chThdDequeueNextI msg).called t = d.called t := by
  unfold chThdDequeueNextI
  split
  · rfl
  · rename_i s ts hw
    refine called_congr rfl ?_
    by_cases hs : t = s
    · simp [setWriter,hs]
    · simp [setWriter,hs]

lemma called_dequeueAll (msg : Msg) (t : ℕ) : (d.chThdDequeueAllI msg).called t = d.called t := by
  unfold chThdDequeueAllI
  generalize d.oqueue.waiting = w
  induction w generalizing d with
  | nil => rfl
  | cons s w ih => rw [List.foldl_cons,ih,called_dequeueNext]

/-- The call that runs again has its byte pending. -/
lemma called_of_pending {s t : ℕ} {b : UInt8} (hb : (d.writers s).pending = some b) :
    (if s = t then d.deeds.filterMap (Deed.byteOf t)++[b] else d.called t) = d.called t := by
  by_cases hs : s = t
  · subst hs
    simp [called,hb]
  · rw [if_neg hs]

lemma called_resume (s t : ℕ) : (d.resume s).called t = d.called t := by
  unfold resume
  split
  all_goals rename_i hs
  · rw [called_put,called_of_pending (by rw [hs]; rfl)]
  · rw [called_finish,called_of_pending (by rw [hs]; rfl)]
  · rw [called_finish,called_of_pending (by rw [hs]; rfl)]
  · rfl
  · rfl

lemma called_wakeup (s t : ℕ) : (d.wakeup s).called t = d.called t := by
  unfold wakeup
  split
  · rename_i b timeout hs
    refine called_congr rfl ?_
    by_cases ht : t = s
    · simp [setWriter,ht,hs,Writer.pending]
    · simp [setWriter,ht]
  · rfl
  · rfl

lemma called_serveTransmit (cr1 : Register) (t : ℕ) :
    (d.serveTransmit cr1).called t = d.called t := by
  unfold serveTransmit
  split
  · exact called_note (fun _ => rfl) t
  · rename_i b d' hg
    rw [called_note fun _ => rfl]
    unfold chOQGetI at hg
    split at hg
    · cases hg
    · obtain ⟨-,rfl⟩ := Prod.mk.inj (Option.some.inj hg)
      rw [called_dequeueNext]
      rfl

lemma called_serveComplete (cr1 : Register) (t : ℕ) :
    (d.serveComplete cr1).called t = d.called t := by
  unfold serveComplete
  dsimp only
  split
  · exact called_note (fun _ => rfl) t
  · rfl

lemma called_serveInterrupt (txe tc : Bool) (t : ℕ) :
    (d.serveInterrupt txe tc).called t = d.called t :=
  serveInterrupt_rule (P := fun d' => d'.called t = d.called t)
    (fun _ => called_serveTransmit d.cr1 t)
    (fun _ hd => (called_serveComplete d.cr1 t).trans hd) rfl

/-- A step adds the byte of the call that it starts. -/
lemma called_step {e : SerialEvent} (he : d.Allows e) (t : ℕ) :
    (d.step e).called t = d.called t++(e.byteOf t).toList := by
  cases e with
  | put s b timeout =>
    rw [step,called_put]
    by_cases hs : s = t
    · subst hs
      simp [called,SerialEvent.byteOf,show d.writers s = .outside from he,Writer.pending]
    · simp [SerialEvent.byteOf,hs]
  | resume s => simpa [SerialEvent.byteOf,step] using called_resume s t
  | wakeup s => simpa [SerialEvent.byteOf,step] using called_wakeup s t
  | interrupt txe tc => simpa [SerialEvent.byteOf,step] using called_serveInterrupt txe tc t
  | start cr1 => simp [SerialEvent.byteOf,step,sdStart,called]
  | stop =>
    rw [step,sdStop,chOQResetI,called_note fun _ => rfl,called_dequeueAll]
    simp only [SerialEvent.byteOf,Option.toList_none,List.append_nil]
    split <;> rfl

theorem called_run {es : List SerialEvent} (hes : machine.Legal d es) (t : ℕ) :
    Yields (machine.run es d) fun d' => d'.called t = d.called t++es.filterMap (·.byteOf t) := by
  induction es generalizing d with
  | nil => exact .ok (by simp)
  | cons e es ih =>
    obtain ⟨d',hd',hc⟩ := ih (hes.2 _ rfl)
    refine ⟨d',hd',hc.trans ?_⟩
    rw [called_step hes.1,List.append_assoc,List.filterMap_cons]
    cases e.byteOf t <;> rfl

end SerialDriver

/-! ### Threads that wait for ever -/

/-- A deed of a driver that is not stopped and whose calls all wait. -/
def Deed.isKept : Deed → Bool
  | returned _ _ msg => msg = .ok
  | sent _ | raised _ => true
  | cleared => false

/-- The thread is in a call without timeout and nothing has disturbed it. -/
def Writer.isPatient : Writer → Bool
  | outside => true
  | suspended _ timeout => timeout = timeInfinite
  | readied _ timeout msg => timeout = timeInfinite ∧ msg = .ok

def SerialEvent.isPatient : SerialEvent → Bool
  | put _ _ timeout => timeout = timeInfinite
  | stop => false
  | resume _ | wakeup _ | interrupt _ _ | start _ => true

/-- All calls so far were without timeout and the driver was not stopped. -/
structure Patient (d : SerialDriver) : Prop where
  writers : ∀ t, (d.writers t).isPatient = true
  deeds : ∀ x ∈ d.deeds, x.isKept = true

namespace Patient
variable {d : SerialDriver} (h : Patient d)
include h

lemma note {x : Deed} (hx : x.isKept = true) : Patient (d.note x) where
  writers := h.writers
  deeds y hy := by
    obtain hy | rfl : y ∈ d.deeds ∨ y = x := by simpa [SerialDriver.note] using hy
    · exact h.deeds y hy
    · exact hx

lemma setWriter (t : ℕ) {w : Writer} (hw : w.isPatient = true) : Patient (d.setWriter t w) where
  writers s := by
    by_cases hs : s = t
    · simp [SerialDriver.setWriter,hs,hw]
    · simpa [SerialDriver.setWriter,hs] using h.writers s
  deeds := h.deeds

lemma put (t : ℕ) (b : UInt8) : Patient (d.chOQPutTimeout t b timeInfinite) := by
  unfold SerialDriver.chOQPutTimeout
  by_cases hf : d.oqueue.chOQIsFullI = true
  · rw [if_pos hf,if_neg (by simp [timeInfinite,timeImmediate])]
    have hw := h.setWriter t (w := .suspended b timeInfinite) (by simp [Writer.isPatient])
    exact ⟨hw.writers,hw.deeds⟩
  · rw [if_neg hf]
    have hs : Patient (d.store b).notify1 := ⟨h.writers,h.deeds⟩
    exact (hs.setWriter t rfl).note rfl

lemma dequeueNext : Patient (d.chThdDequeueNextI .ok) := by
  unfold SerialDriver.chThdDequeueNextI
  split
  · exact h
  · rename_i t ts hw
    have hp : ((d.writers t).ready .ok).isPatient = true := by
      have ht := h.writers t
      cases hd : d.writers t <;> simp_all [Writer.ready,Writer.isPatient]
    have hw := h.setWriter t hp
    exact ⟨hw.writers,hw.deeds⟩

lemma serveTransmit (cr1 : Register) : Patient (d.serveTransmit cr1) := by
  unfold SerialDriver.serveTransmit
  split
  · have hn := h.note (x := .raised .outputEmpty) rfl
    exact ⟨hn.writers,hn.deeds⟩
  · rename_i b d' hg
    unfold SerialDriver.chOQGetI at hg
    split at hg
    · cases hg
    · obtain ⟨-,rfl⟩ := Prod.mk.inj (Option.some.inj hg)
      have hf : Patient { d with oqueue := d.oqueue.fetch } := ⟨h.writers,h.deeds⟩
      exact hf.dequeueNext.note rfl

lemma serveComplete (cr1 : Register) : Patient (d.serveComplete cr1) := by
  unfold SerialDriver.serveComplete
  dsimp only
  split
  · have hn := h.note (x := .raised .transmissionEnd) rfl
    exact ⟨hn.writers,hn.deeds⟩
  · exact ⟨h.writers,h.deeds⟩

lemma step {e : SerialEvent} (he : d.Allows e) (hp : e.isPatient = true) :
    Patient (d.step e) := by
  cases e with
  | put t b timeout =>
    obtain rfl : timeout = timeInfinite := by simpa [SerialEvent.isPatient] using hp
    exact h.put t b
  | resume t =>
    have ht := h.writers t
    rw [SerialDriver.step,SerialDriver.resume]
    split
    all_goals rename_i hd
    · obtain rfl : _ = timeInfinite := by simpa [hd,Writer.isPatient] using ht
      exact h.put t _
    · simp [hd,Writer.isPatient] at ht
    · simp [hd,Writer.isPatient] at ht
    · exact h
    · exact h
  | wakeup t =>
    have ht := h.writers t
    rw [SerialDriver.step,SerialDriver.wakeup]
    split
    · rename_i b timeout hd
      obtain rfl : timeout = timeInfinite := by simpa [hd,Writer.isPatient] using ht
      simp [SerialDriver.Allows,SerialDriver.waitsForEver,hd] at he
    · exact h
    · exact h
  | interrupt txe tc =>
    exact SerialDriver.serveInterrupt_rule (fun _ => h.serveTransmit d.cr1)
      (fun _ hd => hd.serveComplete d.cr1) h
  | start cr1 => exact ⟨h.writers,h.deeds⟩
  | stop => simp [SerialEvent.isPatient] at hp

end Patient

/-! ### The line -/

lemma filterMap_entered (tr : List Deed) :
    (tr.filterMap Deed.action).filterMap QueueAction.entered =
      (tr.filterMap Deed.accepted).map Prod.snd := by
  rw [List.filterMap_filterMap,List.map_filterMap]
  refine List.filterMap_congr fun x _ => ?_
  cases x with
  | returned t b msg => cases msg <;> rfl
  | sent b => rfl
  | raised f => rfl
  | cleared => rfl

lemma filterMap_left (tr : List Deed) :
    (tr.filterMap Deed.action).filterMap QueueAction.left = tr.filterMap Deed.out := by
  rw [List.filterMap_filterMap]
  refine List.filterMap_congr fun x _ => ?_
  cases x with
  | returned t b msg => cases msg <;> rfl
  | sent b => rfl
  | raised f => rfl
  | cleared => rfl

lemma clear_notMem {tr : List Deed} (h : Deed.cleared ∉ tr) :
    QueueAction.clear ∉ tr.filterMap Deed.action := by
  intro hc
  obtain ⟨x,hx,ha⟩ := List.mem_filterMap.mp hc
  cases x with
  | returned t b msg => cases msg <;> simp [Deed.action] at ha
  | sent b => simp [Deed.action] at ha
  | raised f => simp [Deed.action] at ha
  | cleared => exact h hx

/-- As long as nothing is thrown away, the accepted bytes are on the line or in the queue. -/
lemma SerialDriver.Ok.accepted_eq {bp size : ℕ} {m₀ : Bytes} {d : SerialDriver}
    (h : d.Ok bp size m₀) (hc : Deed.cleared ∉ d.deeds) :
    d.accepted.map Prod.snd = d.line++d.contents := by
  have hplay := play_conserves h.stored.history (clear_notMem hc)
  rwa [filterMap_left,filterMap_entered,List.nil_append] at hplay

lemma Patient.cleared_notMem {d : SerialDriver} (h : Patient d) : Deed.cleared ∉ d.deeds :=
  fun hx => by simpa [Deed.isKept] using h.deeds _ hx

/-- Every call that returned has put its byte into the queue. -/
lemma Patient.accepted_of {d : SerialDriver} (h : Patient d) (t : ℕ) :
    (d.accepted.filter (·.1 = t)).map Prod.snd = d.deeds.filterMap (Deed.byteOf t) := by
  rw [SerialDriver.accepted,List.filter_filterMap,List.map_filterMap]
  refine List.filterMap_congr fun x hx => ?_
  have hk := h.deeds x hx
  cases x with
  | returned s b msg =>
    obtain rfl : msg = .ok := by simpa [Deed.isKept] using hk
    by_cases hs : s = t <;> simp [Deed.accepted,Deed.byteOf,hs]
  | sent b => rfl
  | raised f => rfl
  | cleared => rfl

namespace SerialDriver

/-- Whatever the threads, the interrupts and the timers do, and however often the driver is started
and stopped: bytes are sent in the order in which they were accepted, flags are raised only when
the queue is empty, the queue never holds more than its buffer, and nothing outside the buffer is
written. -/
theorem booted_run_fifo (bp : ℕ) {size : ℕ} (hs : 0 < size) (m : Bytes) (cr1 : Register)
    {es : List SerialEvent} (hes : machine.Legal (sdObjectInit bp size m cr1) es) :
    Yields (machine.run es (sdObjectInit bp size m cr1)) fun d =>
      play size [] (d.deeds.filterMap Deed.action) = some d.contents ∧
      List.Sublist (d.line++d.contents) (d.accepted.map Prod.snd) ∧
      d.contents.length+d.oqueue.counter = size ∧
      ∀ a, a < bp ∨ bp+size ≤ a → d.memory a = m a := by
  refine (Ok.run (sdObjectInit_ok bp hs m cr1) hes).mono fun d hd => ?_
  refine ⟨hd.stored.history,?_,?_,hd.stored.frame⟩
  · have hp := play_sublist hd.stored.history
    rwa [filterMap_left,filterMap_entered,List.nil_append] at hp
  · have hl := hd.stored.ok.length_add_counter d.memory
    rw [hd.stored.top,hd.stored.buffer] at hl
    rw [contents]
    omega

/-- Three threads print into a buffer of two bytes; one of them gives up, one is woken by the
interrupt and goes on, and the driver is stopped in the end. -/
def threePrint : List SerialEvent :=
  [.start 0,.put 0 65 timeInfinite,.put 1 97 timeInfinite,.put 0 66 timeInfinite,.put 2 48 5,
    .wakeup 2,.resume 2,.interrupt true false,.resume 0,.interrupt true true,.interrupt true true,
    .interrupt true true,.put 1 98 timeInfinite,.stop]

theorem booted_run_fifo_threePrint :
    Yields (machine.run threePrint (sdObjectInit 0x20000800 2 (fun _ => 0) 0)) fun d =>
      play 2 [] (d.deeds.filterMap Deed.action) = some d.contents ∧
      List.Sublist (d.line++d.contents) (d.accepted.map Prod.snd) ∧
      d.contents.length+d.oqueue.counter = 2 ∧
      ∀ a, a < 0x20000800 ∨ 0x20000800+2 ≤ a → d.memory a = (fun _ => 0) a :=
  booted_run_fifo 0x20000800 (by decide) (fun _ => 0) 0 (by decide +kernel)

/-- While no call has a timeout and the driver is not stopped, the line carries an interleaving of
what the threads print: every byte of every call, in the order of the thread's calls, is on the
line, in the queue, or in the one call that has not returned. -/
theorem booted_run_interleaves (bp : ℕ) {size : ℕ} (hs : 0 < size) (m : Bytes) (cr1 : Register)
    {es : List SerialEvent} (hes : machine.Legal (sdObjectInit bp size m cr1) es)
    (hp : ∀ e ∈ es, e.isPatient = true) :
    Yields (machine.run es (sdObjectInit bp size m cr1)) fun d =>
      ∃ order : List (ℕ × UInt8), order.map Prod.snd = d.line++d.contents ∧
        ∀ t, (order.filter (·.1 = t)).map Prod.snd++(d.writers t).pending.toList =
          es.filterMap (·.byteOf t) := by
  have h₀ : Patient (sdObjectInit bp size m cr1) := ⟨fun _ => rfl,by simp [sdObjectInit]⟩
  have hrun := Driven.run_yields (M := machine) (P := fun d => d.Ok bp size m ∧ Patient d)
    (fun d e he hd ha => .ok ⟨Ok.step hd.1 ha,hd.2.step ha (hp e he)⟩)
    ⟨sdObjectInit_ok bp hs m cr1,h₀⟩ hes
  obtain ⟨d,hd,hok,hpat⟩ := hrun
  refine ⟨d,hd,d.accepted,?_,fun t => ?_⟩
  · exact hok.accepted_eq hpat.cleared_notMem
  · obtain ⟨d',hd',hc⟩ := called_run hes t
    obtain rfl := Except.ok.inj (hd.symm.trans hd')
    rw [hpat.accepted_of]
    simpa [called,sdObjectInit,Writer.pending] using hc

/-- Two threads print into a buffer of two bytes and both have to wait. -/
def twoPrint : List SerialEvent :=
  [.start 0,.put 0 65 timeInfinite,.put 1 97 timeInfinite,.put 0 66 timeInfinite,
    .put 1 98 timeInfinite,.interrupt true false,.interrupt true false,.resume 1,.resume 0,
    .put 0 67 timeInfinite,.interrupt true true]

theorem booted_run_interleaves_twoPrint :
    Yields (machine.run twoPrint (sdObjectInit 0x20000800 2 (fun _ => 0) 0)) fun d =>
      ∃ order : List (ℕ × UInt8), order.map Prod.snd = d.line++d.contents ∧
        ∀ t, (order.filter (·.1 = t)).map Prod.snd++(d.writers t).pending.toList =
          twoPrint.filterMap (·.byteOf t) :=
  booted_run_interleaves 0x20000800 (by decide) (fun _ => 0) 0 (by decide +kernel) (by decide)

end SerialDriver
end DspLibrary.Chibios
