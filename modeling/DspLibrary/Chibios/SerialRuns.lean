import DspLibrary.Chibios.SerialSemantics

/-! Runs of the serial driver: any number of threads that print, interrupts at any time, timeouts,
starts and stops. -/
namespace DspLibrary.Chibios
open DspLibrary.Foundation

namespace SerialDriver

/-- The bytes in the output queue. -/
def contents (d : SerialDriver) : List UInt8 := d.oqueue.contents d.memory

/-- The state of a driver whose buffer lies between `bp` and `bp+size`. -/
structure Ok (bp size : ℕ) (m₀ : Bytes) (d : SerialDriver) : Prop where
  stored : Stored bp size m₀ d.oqueue d.memory d.deeds
  waits : Waits d.oqueue.waiting d.oqueue.counter d.writers

variable {bp size : ℕ} {m₀ : Bytes} {d : SerialDriver}

lemma sdObjectInit_ok (bp : ℕ) {size : ℕ} (hs : 0 < size) (m : Bytes) (cr1 : Register) :
    (sdObjectInit bp size m cr1).Ok bp size m := ⟨.init bp hs m,.init size⟩

/-- `chThdDequeueAllI` wakes every waiting thread. -/
lemma chThdDequeueAllI_eq (msg : Msg) (d : SerialDriver) (h : d.oqueue.waiting.Nodup) :
    d.chThdDequeueAllI msg = { d with
      oqueue := { d.oqueue with waiting := [] }
      writers := fun t => if t ∈ d.oqueue.waiting then (d.writers t).ready msg else d.writers t } := by
  unfold chThdDequeueAllI
  generalize hw : d.oqueue.waiting = w at h ⊢
  induction w generalizing d with
  | nil =>
    cases d with
    | mk state oqueue memory cr1 writers deeds =>
      cases oqueue with
      | mk waiting counter buffer top wrptr rdptr =>
        obtain rfl : waiting = [] := hw
        simp
  | cons t ts ih =>
    have hd : d.chThdDequeueNextI msg = { d.setWriter t ((d.writers t).ready msg) with
        oqueue := { d.oqueue with waiting := ts } } := by
      simp [chThdDequeueNextI,hw]
    rw [List.foldl_cons,hd,ih _ rfl h.of_cons]
    have ht := (List.nodup_cons.mp h).1
    simp only [setWriter,SerialDriver.mk.injEq,and_true,true_and]
    funext s
    by_cases hs : s = t
    · subst hs
      simp [ht]
    · simp [hs]

/-- The two parts of the interrupt handler, the first of which runs with its interrupt enabled. -/
lemma serveInterrupt_rule {P : SerialDriver → Prop} {txe tc : Bool}
    (ht : Register.txeie d.cr1 = true → P (d.serveTransmit d.cr1))
    (hc : ∀ d', P d' → P (d'.serveComplete d.cr1)) (h : P d) : P (d.serveInterrupt txe tc) := by
  have hp : P (if d.cr1 &&& usartCr1Txeie ≠ 0 ∧ txe then d.serveTransmit d.cr1 else d) := by
    split
    · rename_i hx
      exact ht ((Register.and_txeie_ne_zero _).mp hx.1)
    · exact h
  unfold serveInterrupt
  dsimp only
  split
  · exact hc _ hp
  · exact hp

namespace Ok
variable (h : d.Ok bp size m₀)
include h

/-- One round of a call by a thread that is not in the queue. -/
lemma put {t : ℕ} (ht : ∀ b n, d.writers t ≠ .suspended b n) (b : UInt8) (timeout : ℕ)
    (hw : d.oqueue.waiting ≠ [] → d.oqueue.counter-1 ≤ (woken d.writers \ {t}).ncard) :
    (d.chOQPutTimeout t b timeout).Ok bp size m₀ := by
  unfold chOQPutTimeout
  by_cases hf : d.oqueue.chOQIsFullI = true
  · have hc : d.oqueue.counter = 0 := by
      simpa [OutputQueue.chOQIsFullI,OutputQueue.chQSpaceI] using hf
    rw [if_pos hf]
    split
    · exact ⟨h.stored.refused (by simp) t b,h.waits.leave ht fun _ => hc.le.trans (Nat.zero_le _)⟩
    · refine ⟨h.stored.setWaiting _,?_⟩
      have hq := h.waits.enqueue ht b timeout
      rwa [← hc] at hq
  · have hc : d.oqueue.counter ≠ 0 := by
      simpa [OutputQueue.chOQIsFullI,OutputQueue.chQSpaceI] using hf
    rw [if_neg hf]
    exact ⟨h.stored.store hc t b,h.waits.leave ht hw⟩

lemma put_outside {t : ℕ} (ht : d.writers t = .outside) (b : UInt8) (timeout : ℕ) :
    (d.chOQPutTimeout t b timeout).Ok bp size m₀ := by
  refine h.put (by simp [ht]) b timeout fun hw => ?_
  rw [Set.sdiff_singleton_eq_self (by simp [woken,ht])]
  exact (Nat.sub_le ..).trans (h.waits.wake hw)

lemma resume (t : ℕ) : (d.resume t).Ok bp size m₀ := by
  unfold SerialDriver.resume
  split
  · rename_i b timeout ht
    refine h.put (by simp [ht]) b timeout fun hw => ?_
    rw [Set.ncard_sdiff_singleton_of_mem (show t ∈ woken d.writers from ⟨b,timeout,ht⟩)]
    exact Nat.sub_le_sub_right (h.waits.wake hw) 1
  · rename_i b n ht
    refine ⟨h.stored.refused (by simp) t b,h.waits.leave (by simp [ht]) fun hw => ?_⟩
    rw [Set.sdiff_singleton_eq_self (by simp [woken,ht])]
    exact h.waits.wake hw
  · rename_i b n ht
    refine ⟨h.stored.refused (by simp) t b,h.waits.leave (by simp [ht]) fun hw => ?_⟩
    rw [Set.sdiff_singleton_eq_self (by simp [woken,ht])]
    exact h.waits.wake hw
  · exact h
  · exact h

lemma wakeup (t : ℕ) : (d.wakeup t).Ok bp size m₀ := by
  unfold SerialDriver.wakeup
  split
  · rename_i b timeout ht
    exact ⟨h.stored.setWaiting _,h.waits.wakeup ht⟩
  · exact h
  · exact h

/-- `chOQGetI` with the byte on its way to the data register. -/
lemma get {b : UInt8} {d' : SerialDriver} (hg : d.chOQGetI = some (b,d')) :
    (d'.note (.sent b)).Ok bp size m₀ := by
  unfold chOQGetI at hg
  split at hg
  · cases hg
  · rename_i hc
    obtain ⟨rfl,rfl⟩ := Prod.mk.inj (Option.some.inj hg)
    have hs := h.stored.fetch (Bool.eq_false_iff.mpr hc)
    unfold chThdDequeueNextI
    split
    · rename_i hw
      exact ⟨hs,h.waits.setCounter hw _⟩
    · rename_i t ts hw
      exact ⟨hs.setWaiting ts,h.waits.wakeNext hw⟩

lemma setCr1 (cr1 : Register) : { d with cr1 := cr1 }.Ok bp size m₀ := ⟨h.stored,h.waits⟩

lemma setState (state : SdState) : { d with state := state }.Ok bp size m₀ := ⟨h.stored,h.waits⟩

lemma addFlags (hc : d.oqueue.chOQIsEmptyI = true) (f : Flag) :
    (d.chnAddFlagsI f).Ok bp size m₀ := ⟨h.stored.vacant hc f,h.waits⟩

lemma serveTransmit (cr1 : Register) : (d.serveTransmit cr1).Ok bp size m₀ := by
  unfold SerialDriver.serveTransmit
  split
  · rename_i hg
    have hc : d.oqueue.chOQIsEmptyI = true := by simpa [chOQGetI] using hg
    exact (h.addFlags hc .outputEmpty).setCr1 _
  · rename_i b d' hg
    exact h.get hg

lemma serveComplete (cr1 : Register) : (d.serveComplete cr1).Ok bp size m₀ := by
  unfold SerialDriver.serveComplete
  refine setCr1 ?_ _
  split
  · rename_i hc
    exact h.addFlags hc .transmissionEnd
  · exact h

lemma serveInterrupt (txe tc : Bool) : (d.serveInterrupt txe tc).Ok bp size m₀ :=
  serveInterrupt_rule (fun _ => h.serveTransmit d.cr1) (fun _ hd => hd.serveComplete d.cr1) h

lemma reset : d.chOQResetI.Ok bp size m₀ := by
  unfold chOQResetI
  rw [chThdDequeueAllI_eq .reset { d with oqueue := d.oqueue.rewind } h.waits.nodup]
  exact ⟨h.stored.rewind.setWaiting [],h.waits.wakeAll _⟩

lemma sdStop : d.sdStop.Ok bp size m₀ := by
  unfold SerialDriver.sdStop
  refine reset (setState ?_ .stop)
  split
  · exact h.setCr1 0
  · exact h

/-- Every event keeps the driver in order. -/
theorem step {e : SerialEvent} (he : d.Allows e) : (d.step e).Ok bp size m₀ := by
  cases e with
  | put t b timeout => exact h.put_outside he b timeout
  | resume t => exact h.resume t
  | wakeup t => exact h.wakeup t
  | interrupt txe tc => exact h.serveInterrupt txe tc
  | start cr1 => exact ⟨h.stored,h.waits⟩
  | stop => exact h.sdStop

theorem run {es : List SerialEvent} (hes : machine.Legal d es) :
    Yields (machine.run es d) (Ok bp size m₀) :=
  Driven.run_yields (fun _ _ _ hd he => .ok (Ok.step hd he)) h hes

end Ok
end SerialDriver
end DspLibrary.Chibios
