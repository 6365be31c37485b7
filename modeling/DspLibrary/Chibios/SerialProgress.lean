import DspLibrary.Chibios.SerialOutput

/-! Whether the bytes get out. The handler disables its interrupt when it finds the queue empty and
a byte that is stored enables it again; a restart of the driver writes the register anew and
forgets a queue that still holds bytes. -/
namespace DspLibrary.Chibios
open DspLibrary.Foundation

namespace SerialDriver
variable {bp size : ℕ} {m₀ : Bytes} {d : SerialDriver}

/-- The interrupt that takes bytes out of the queue is enabled. -/
def txeie (d : SerialDriver) : Bool := Register.txeie d.cr1

/-- Bytes in the queue keep the interrupt enabled. -/
def Armed (d : SerialDriver) : Prop := d.contents ≠ [] → d.txeie = true

/-! ### Effects of the steps on the queue and the interrupt -/

lemma contents_eq_nil_iff (h : d.Ok bp size m₀) :
    d.contents = [] ↔ d.oqueue.chOQIsEmptyI = true := (h.stored.ok.isEmpty_iff d.memory).symm

lemma armed_put (ha : d.Armed) (t : ℕ) (b : UInt8) (timeout : ℕ) :
    (d.chOQPutTimeout t b timeout).Armed := by
  unfold chOQPutTimeout
  split
  · split
    · exact ha
    · exact ha
  · exact fun _ => Register.txeie_notify d.cr1

lemma armed_resume (ha : d.Armed) (t : ℕ) : (d.resume t).Armed := by
  unfold resume
  split
  · exact armed_put ha t _ _
  all_goals exact ha

lemma armed_wakeup (ha : d.Armed) (t : ℕ) : (d.wakeup t).Armed := by
  unfold wakeup
  split
  all_goals exact ha

/-- What the handler does when it can send: it flags an empty queue and disables its interrupt, or
it sends the first byte and wakes the first waiting thread. -/
lemma serveTransmit_cases (cr1 : Register) (d : SerialDriver) :
    (d.oqueue.chOQIsEmptyI = true ∧ d.serveTransmit cr1 =
      { d.chnAddFlagsI .outputEmpty with cr1 := (cr1 &&& ~~~usartCr1Txeie) ||| usartCr1Tcie }) ∨
    (d.oqueue.chOQIsEmptyI = false ∧ d.serveTransmit cr1 =
      ({ d with oqueue := d.oqueue.fetch }.chThdDequeueNextI .ok).note
        (.sent (d.memory d.oqueue.rdptr))) := by
  cases he : d.oqueue.chOQIsEmptyI with
  | true =>
    refine .inl ⟨rfl,?_⟩
    simp [serveTransmit,chOQGetI,he]
  | false =>
    refine .inr ⟨rfl,?_⟩
    simp [serveTransmit,chOQGetI,he]

/-- Waking a thread changes nothing but the threads. -/
lemma chThdDequeueNextI_cases (msg : Msg) (d : SerialDriver) :
    (d.oqueue.waiting = [] ∧ d.chThdDequeueNextI msg = d) ∨
    ∃ t ts, d.oqueue.waiting = t::ts ∧ d.chThdDequeueNextI msg =
      { d.setWriter t ((d.writers t).ready msg) with
        oqueue := { d.oqueue with waiting := ts } } := by
  cases hw : d.oqueue.waiting with
  | nil => exact .inl ⟨rfl,by simp [chThdDequeueNextI,hw]⟩
  | cons t ts => exact .inr ⟨t,ts,rfl,by simp [chThdDequeueNextI,hw]⟩

lemma dequeueNext_frame (msg : Msg) (d : SerialDriver) :
    (d.chThdDequeueNextI msg).cr1 = d.cr1 ∧ (d.chThdDequeueNextI msg).state = d.state ∧
      (d.chThdDequeueNextI msg).contents = d.contents ∧
      (d.chThdDequeueNextI msg).deeds = d.deeds := by
  obtain ⟨-,he⟩ | ⟨t,ts,-,he⟩ := chThdDequeueNextI_cases msg d
  · simp [he]
  · rw [he]
    exact ⟨rfl,rfl,rfl,rfl⟩

lemma serveComplete_frame (cr1 : Register) (d : SerialDriver) :
    (d.serveComplete cr1).cr1 = cr1 &&& ~~~usartCr1Tcie ∧
      (d.serveComplete cr1).state = d.state ∧
      (d.serveComplete cr1).contents = d.contents ∧
      (d.serveComplete cr1).writers = d.writers ∧ (d.serveComplete cr1).line = d.line ∧
      (d.serveComplete cr1).accepted = d.accepted ∧ (d.serveComplete cr1).oqueue = d.oqueue := by
  unfold serveComplete
  dsimp only
  split <;> simp [chnAddFlagsI,note,contents,line,accepted,Deed.out,Deed.accepted]

/-- The handler disables its interrupt only when nothing is queued. -/
lemma armed_serveInterrupt (h : d.Ok bp size m₀) (ha : d.Armed) (txe tc : Bool) :
    (d.serveInterrupt txe tc).Armed := by
  have hp : (d.serveInterrupt txe tc).contents ≠ [] →
      d.txeie = true ∧ (d.serveInterrupt txe tc).txeie = true := by
    refine serveInterrupt_rule (P := fun d' => d'.contents ≠ [] → d.txeie = true ∧ d'.txeie = true)
      (fun ht hne => ⟨ht,?_⟩) (fun d' hd' hne => ?_) (fun hne => ⟨ha hne,ha hne⟩)
    · obtain ⟨he,hd'⟩ | ⟨he,hd'⟩ := serveTransmit_cases d.cr1 d
      · rw [hd'] at hne
        exact absurd ((contents_eq_nil_iff h).mpr he) hne
      · rw [hd']
        exact (congrArg Register.txeie (dequeueNext_frame .ok _).1).trans ht
    · obtain ⟨hcr,-,hc,-⟩ := serveComplete_frame d.cr1 d'
      rw [hc] at hne
      have ht := (hd' hne).1
      refine ⟨ht,?_⟩
      rw [txeie,hcr,Register.txeie_complete]
      exact ht
  exact fun hne => (hp hne).2

lemma contents_reset (h : d.oqueue.waiting.Nodup) : d.chOQResetI.contents = [] := by
  unfold chOQResetI
  rw [chThdDequeueAllI_eq .reset { d with oqueue := d.oqueue.rewind } h]
  exact OutputQueue.contents_rewind d.oqueue d.memory

lemma contents_sdStop (h : d.Ok bp size m₀) : d.sdStop.contents = [] := by
  unfold sdStop
  dsimp only
  split
  · exact contents_reset h.waits.nodup
  · exact contents_reset h.waits.nodup

/-- The driver is (re)started only with an empty queue, or with a configuration that enables the
interrupt. -/
def StartsEmpty (d : SerialDriver) : SerialEvent → Prop
  | .start cr1 => d.contents = [] ∨ Register.txeie cr1 = true
  | .put _ _ _ | .resume _ | .wakeup _ | .interrupt _ _ | .stop => True

def decideStartsEmpty (d : SerialDriver) : (e : SerialEvent) → Decidable (d.StartsEmpty e)
  | .start cr1 => inferInstanceAs (Decidable (d.contents = [] ∨ Register.txeie cr1 = true))
  | .put _ _ _ | .resume _ | .wakeup _ | .interrupt _ _ | .stop => .isTrue trivial

instance (d : SerialDriver) (es : List SerialEvent) :
    Decidable ((machine.restrict StartsEmpty).Legal d es) :=
  (machine.restrict StartsEmpty).decideLegal
    (fun d e => @instDecidableAnd _ _ (decideAllows d e) (decideStartsEmpty d e)) d es

lemma armed_step (h : d.Ok bp size m₀) (ha : d.Armed) {e : SerialEvent} (hs : d.StartsEmpty e) :
    (d.step e).Armed := by
  cases e with
  | put t b timeout => exact armed_put ha t b timeout
  | resume t => exact armed_resume ha t
  | wakeup t => exact armed_wakeup ha t
  | interrupt txe tc => exact armed_serveInterrupt h ha txe tc
  | start cr1 =>
    intro hne
    obtain hc | hc := hs
    · exact absurd hc hne
    · simpa [txeie,step,sdStart] using hc
  | stop => exact fun hne => absurd (contents_sdStop h) hne

/-! ### Every byte gets out -/

/-- Twice the bytes that are not out yet, and the threads on their way back into their calls. -/
noncomputable def work (d : SerialDriver) : ℕ :=
  2*((busy d.writers).ncard+d.contents.length)+(woken d.writers).ncard

/-- An interrupt that finds a byte to send, or a thread that was made ready and runs. -/
def Useful (d : SerialDriver) : SerialEvent → Prop
  | .resume _ => True
  | .interrupt txe _ => txe = true ∧ d.contents ≠ []
  | .put _ _ _ | .wakeup _ | .start _ | .stop => False

def decideUseful (d : SerialDriver) : (e : SerialEvent) → Decidable (d.Useful e)
  | .resume _ => .isTrue trivial
  | .interrupt txe _ => inferInstanceAs (Decidable (txe = true ∧ d.contents ≠ []))
  | .put _ _ _ | .wakeup _ | .start _ | .stop => .isFalse id

instance (d : SerialDriver) (es : List SerialEvent) :
    Decidable ((machine.restrict Useful).Legal d es) :=
  (machine.restrict Useful).decideLegal
    (fun d e => @instDecidableAnd _ _ (decideAllows d e) (decideUseful d e)) d es

/-- No call is under way and no byte is left in the queue. -/
def Drained (d : SerialDriver) : Prop := (∀ t, d.writers t = .outside) ∧ d.contents = []

lemma busy_update_outside (writers : ℕ → Writer) (t : ℕ) :
    busy (Function.update writers t .outside) = busy writers \ {t} := by
  ext s
  by_cases hs : s = t <;> simp [busy,hs]

lemma woken_update (writers : ℕ → Writer) (t : ℕ) {w : Writer}
    (hw : ∀ b n, w ≠ .readied b n .ok) :
    woken (Function.update writers t w) = woken writers \ {t} := by
  ext s
  by_cases hs : s = t <;> simp [woken,hs,hw]

lemma busy_update_inside {writers : ℕ → Writer} {t : ℕ} {w : Writer} (hw : w ≠ .outside)
    (ht : writers t ≠ .outside) : busy (Function.update writers t w) = busy writers := by
  ext s
  by_cases hs : s = t <;> simp [busy,hs,hw,ht]

section Work
variable (h : d.Ok bp size m₀)
include h

lemma ncard_busy_outside {t : ℕ} (ht : d.writers t ≠ .outside) :
    (busy (Function.update d.writers t .outside)).ncard+1 = (busy d.writers).ncard := by
  rw [busy_update_outside]
  exact Set.ncard_sdiff_singleton_add_one ht h.waits.finite

lemma ncard_woken_update {t n : ℕ} {b : UInt8} {w : Writer} (ht : d.writers t = .readied b n .ok)
    (hw : ∀ b n, w ≠ .readied b n .ok) :
    (woken (Function.update d.writers t w)).ncard+1 = (woken d.writers).ncard := by
  rw [woken_update d.writers t hw]
  exact Set.ncard_sdiff_singleton_add_one ⟨b,n,ht⟩ h.waits.woken_finite

lemma work_finish {t : ℕ} (ht : d.writers t ≠ .outside) (b : UInt8) (msg : Msg) :
    (d.finish t b msg).work < d.work := by
  have hb := ncard_busy_outside h ht
  have hw : (woken (Function.update d.writers t .outside)).ncard ≤ (woken d.writers).ncard := by
    rw [woken_update d.writers t (by simp)]
    exact Set.ncard_le_ncard Set.sdiff_subset h.waits.woken_finite
  change 2*((busy (Function.update d.writers t .outside)).ncard+d.contents.length)+
    (woken (Function.update d.writers t .outside)).ncard < _
  rw [work]
  omega

/-- A woken thread that runs stores its byte or waits again; either way it is not woken any
more. -/
lemma work_put {t n : ℕ} {b : UInt8} (ht : d.writers t = .readied b n .ok) :
    (d.chOQPutTimeout t b n).work < d.work := by
  have hb := ncard_busy_outside h (t := t) (by simp [ht])
  have ho := ncard_woken_update h ht (w := .outside) (by simp)
  have hs := ncard_woken_update h ht (w := .suspended b n) (by simp)
  unfold chOQPutTimeout
  by_cases hf : d.oqueue.chOQIsFullI = true
  · rw [if_pos hf]
    split
    · exact work_finish h (by simp [ht]) b .timeout
    · change 2*((busy (Function.update d.writers t (.suspended b n))).ncard+d.contents.length)+
        (woken (Function.update d.writers t (.suspended b n))).ncard < _
      rw [work,busy_update_inside (by simp) (by simp [ht])]
      omega
  · have hc : d.oqueue.counter ≠ 0 := by
      simpa [OutputQueue.chOQIsFullI,OutputQueue.chQSpaceI] using hf
    have hl : (d.store b).contents.length = d.contents.length+1 := by
      have := h.stored.ok.contents_store hc d.memory b
      simp [contents,store,this]
    rw [if_neg hf]
    change 2*((busy (Function.update d.writers t .outside)).ncard+(d.store b).contents.length)+
        (woken (Function.update d.writers t .outside)).ncard < _
    rw [work]
    omega

lemma work_resume {t : ℕ} (ht : d.isReadied t = true) : (d.resume t).work < d.work := by
  unfold resume
  split
  all_goals rename_i hd
  · exact work_put h hd
  · exact work_finish h (by simp [hd]) _ _
  · exact work_finish h (by simp [hd]) _ _
  all_goals simp [isReadied,hd] at ht

/-- A byte that is sent leaves the queue, and at most one more thread is woken. -/
lemma work_serveTransmit (hc : d.contents ≠ []) (cr1 : Register) :
    (d.serveTransmit cr1).work < d.work := by
  obtain ⟨he,-⟩ | ⟨he,hd'⟩ := serveTransmit_cases cr1 d
  · exact absurd ((contents_eq_nil_iff h).mpr he) hc
  have hl : d.contents.length = (d.oqueue.fetch.contents d.memory).length+1 := by
    rw [contents,h.stored.ok.contents_fetch he,List.length_cons]
  rw [hd']
  obtain ⟨-,hq⟩ | ⟨t,ts,hw,hq⟩ := chThdDequeueNextI_cases .ok { d with oqueue := d.oqueue.fetch }
  · rw [hq]
    change 2*((busy d.writers).ncard+(d.oqueue.fetch.contents d.memory).length)+
      (woken d.writers).ncard < _
    rw [work]
    omega
  · obtain ⟨b,n,ht⟩ := (h.waits.mem_iff t).mp (by simp [show d.oqueue.waiting = t::ts from hw])
    have hk : (woken (Function.update d.writers t ((d.writers t).ready .ok))).ncard ≤
        (woken d.writers).ncard+1 := by
      refine (Set.ncard_le_ncard (t := insert t (woken d.writers)) (fun s hs => ?_)
        (h.waits.woken_finite.insert t)).trans (Set.ncard_insert_le t _)
      by_cases hst : s = t
      · simp [hst]
      · simpa [woken,hst] using hs
    rw [hq]
    change 2*((busy (Function.update d.writers t ((d.writers t).ready .ok))).ncard+
      (d.oqueue.fetch.contents d.memory).length)+
      (woken (Function.update d.writers t ((d.writers t).ready .ok))).ncard < _
    rw [work,busy_update_inside (by simp [ht,Writer.ready]) (by simp [ht])]
    omega

end Work

lemma work_serveComplete (cr1 : Register) : (d.serveComplete cr1).work = d.work := by
  obtain ⟨-,-,hc,hw,-⟩ := serveComplete_frame cr1 d
  rw [work,work,hc,hw]

lemma serveInterrupt_taken (ht : d.txeie = true) (tc : Bool) :
    d.serveInterrupt true tc =
      if tc then (d.serveTransmit d.cr1).serveComplete d.cr1 else d.serveTransmit d.cr1 := by
  have hx : d.cr1 &&& usartCr1Txeie ≠ 0 := (Register.and_txeie_ne_zero _).mpr ht
  simp only [serveInterrupt,and_true,if_pos hx]

lemma work_step (h : d.Ok bp size m₀) (ha : d.Armed) {e : SerialEvent} (he : d.Allows e)
    (hu : d.Useful e) : (d.step e).work < d.work := by
  cases e with
  | resume t => exact work_resume h he
  | interrupt txe tc =>
    obtain ⟨rfl,hc⟩ := hu
    rw [step,serveInterrupt_taken (ha hc)]
    split
    · rw [work_serveComplete]
      exact work_serveTransmit h hc d.cr1
    · exact work_serveTransmit h hc d.cr1
  | put t b timeout => exact hu.elim
  | wakeup t => exact hu.elim
  | start cr1 => exact hu.elim
  | stop => exact hu.elim

/-- While a call is under way or a byte is queued, a useful event can happen: a full queue has the
transmitter enabled, and a free cell has a thread on its way to it. -/
theorem exists_useful (h : d.Ok bp size m₀) (hr : d.state = .ready) (hd : ¬ d.Drained) :
    ∃ e, d.Allows e ∧ d.Useful e := by
  by_cases hc : d.contents = []
  · obtain ⟨t,ht⟩ : ∃ t, d.writers t ≠ .outside := by
      by_contra hn
      exact hd ⟨fun t => by_contra fun ht => hn ⟨t,ht⟩,hc⟩
    cases hw : d.writers t with
    | outside => exact absurd hw ht
    | readied b n msg => exact ⟨.resume t,by simp [Allows,isReadied,hw],trivial⟩
    | suspended b n =>
      have hm : t ∈ d.oqueue.waiting := (h.waits.mem_iff t).mpr ⟨b,n,hw⟩
      have hk := h.waits.wake (List.ne_nil_of_mem hm)
      have hl := h.stored.ok.length_add_counter d.memory
      have hn := h.stored.ok.nonempty
      rw [show d.oqueue.contents d.memory = [] from hc,List.length_nil] at hl
      obtain ⟨s,b',n',hs⟩ := (Set.ncard_pos h.waits.woken_finite).mp (by omega)
      exact ⟨.resume s,by simp [Allows,isReadied,hs],trivial⟩
  · exact ⟨.interrupt true false,hr,rfl,hc⟩

lemma state_serveTransmit (cr1 : Register) : (d.serveTransmit cr1).state = d.state := by
  obtain ⟨-,hd'⟩ | ⟨-,hd'⟩ := serveTransmit_cases cr1 d
  · rw [hd']
    rfl
  · rw [hd']
    exact (dequeueNext_frame .ok _).2.1

lemma state_put (t : ℕ) (b : UInt8) (timeout : ℕ) :
    (d.chOQPutTimeout t b timeout).state = d.state := by
  unfold chOQPutTimeout
  split
  · split <;> rfl
  · rfl

lemma state_useful {e : SerialEvent} (hu : d.Useful e) : (d.step e).state = d.state := by
  cases e with
  | resume t =>
    rw [step,resume]
    split
    · exact state_put t _ _
    all_goals rfl
  | interrupt txe tc =>
    exact serveInterrupt_rule (P := fun d' => d'.state = d.state)
      (fun _ => state_serveTransmit d.cr1)
      (fun d' hd' => (serveComplete_frame d.cr1 d').2.1.trans hd') rfl
  | put t b timeout => exact hu.elim
  | wakeup t => exact hu.elim
  | start cr1 => exact hu.elim
  | stop => exact hu.elim

lemma startsEmpty_of_useful {e : SerialEvent} (hu : d.Useful e) : d.StartsEmpty e := by
  cases e with
  | start cr1 => exact hu.elim
  | _ => trivial

lemma cleared_put (h : Deed.cleared ∉ d.deeds) (t : ℕ) (b : UInt8) (timeout : ℕ) :
    Deed.cleared ∉ (d.chOQPutTimeout t b timeout).deeds := by
  unfold chOQPutTimeout
  split
  · split
    · simpa [finish,note,setWriter] using h
    · exact h
  · simpa [finish,note,setWriter,notify1,store] using h

/-- Only a stop throws bytes away. -/
lemma cleared_step (h : Deed.cleared ∉ d.deeds) {e : SerialEvent} (he : e ≠ .stop) :
    Deed.cleared ∉ (d.step e).deeds := by
  cases e with
  | put t b timeout => exact cleared_put h t b timeout
  | resume t =>
    rw [step,resume]
    split
    · exact cleared_put h t _ _
    · simpa [finish,note,setWriter] using h
    · simpa [finish,note,setWriter] using h
    all_goals exact h
  | wakeup t =>
    rw [step,wakeup]
    split <;> exact h
  | interrupt txe tc =>
    refine serveInterrupt_rule (P := fun d' => Deed.cleared ∉ d'.deeds) (fun _ => ?_)
      (fun d' hd' => ?_) h
    · obtain ⟨-,hd'⟩ | ⟨-,hd'⟩ := serveTransmit_cases d.cr1 d
      · rw [hd']
        simpa [chnAddFlagsI,note] using h
      · rw [hd',note,(dequeueNext_frame .ok _).2.2.2]
        simpa using h
    · unfold serveComplete
      dsimp only
      split
      · simpa [chnAddFlagsI,note] using hd'
      · exact hd'
  | start cr1 => exact h
  | stop => exact absurd rfl he

/-- While the driver is never restarted on bytes, it cannot get stuck: bytes in the queue keep the
transmitter enabled, and once the driver is ready, at most `work` interrupts and resumed threads can
be of use. When none is any more, every call has returned and the queue is empty, and if the driver
was never stopped, every accepted byte is on the line. -/
theorem booted_run_drains (bp : ℕ) {size : ℕ} (hs : 0 < size) (m : Bytes) (cr1 : Register)
    {es : List SerialEvent}
    (hes : (machine.restrict StartsEmpty).Legal (sdObjectInit bp size m cr1) es) :
    Yields (machine.run es (sdObjectInit bp size m cr1)) fun d =>
      (d.contents ≠ [] → d.txeie = true) ∧
      (d.state = .ready → ∀ us, (machine.restrict Useful).Legal d us →
        us.length ≤ d.work ∧ Yields (machine.run us d) fun d' =>
          (d'.Drained ∧ (.stop ∉ es → d'.line = d'.accepted.map Prod.snd)) ∨
            ∃ e, d'.Allows e ∧ d'.Useful e) := by
  have h₀ : (sdObjectInit bp size m cr1).Armed := fun hne =>
    absurd (OutputQueue.contents_init bp size m) hne
  have hrun := Driven.run_yields (M := machine.restrict StartsEmpty)
    (P := fun d => d.Ok bp size m ∧ d.Armed ∧ (.stop ∉ es → Deed.cleared ∉ d.deeds))
    (fun d e he hd ha => .ok ⟨Ok.step hd.1 ha.1,armed_step hd.1 hd.2.1 ha.2,fun hstop =>
      cleared_step (hd.2.2 hstop) fun heq => hstop (heq ▸ he)⟩)
    ⟨sdObjectInit_ok bp hs m cr1,h₀,fun _ => by simp [sdObjectInit]⟩ hes
  rw [Driven.restrict_run] at hrun
  refine hrun.mono fun d hd => ⟨hd.2.1,fun hr us hus => ?_⟩
  have hstep : ∀ d e, (d.Ok bp size m ∧ d.Armed ∧ d.state = .ready ∧
        (.stop ∉ es → Deed.cleared ∉ d.deeds)) →
      (machine.restrict Useful).Allows d e → Yields ((machine.restrict Useful).step e d) fun d' =>
        (d'.Ok bp size m ∧ d'.Armed ∧ d'.state = .ready ∧
          (.stop ∉ es → Deed.cleared ∉ d'.deeds)) ∧ d'.work < d.work := by
    rintro d e ⟨hok,ha,hst,hc⟩ ⟨he,hu⟩
    refine .ok ⟨⟨hok.step he,armed_step hok ha (startsEmpty_of_useful hu),?_,fun hstop =>
      cleared_step (hc hstop) ?_⟩,work_step hok ha he hu⟩
    · rw [state_useful hu,hst]
    · rintro rfl
      exact hu
  refine ⟨Driven.length_le_of_decreasing work hstep ⟨hd.1,hd.2.1,hr,hd.2.2⟩ hus,?_⟩
  have hend := Driven.run_yields (fun d e _ hp he => (hstep d e hp he).mono fun _ h => h.1)
    ⟨hd.1,hd.2.1,hr,hd.2.2⟩ hus
  rw [Driven.restrict_run] at hend
  refine hend.mono fun d' hd' => ?_
  by_cases hdr : d'.Drained
  · refine .inl ⟨hdr,fun hstop => ?_⟩
    rw [hd'.1.accepted_eq (hd'.2.2.2 hstop),hdr.2,List.append_nil]
  · exact .inr (exists_useful hd'.1 hd'.2.2.1 hdr)

/-- What is left to do for the two threads: the one that was woken stores its byte, and the two bytes
in the queue are sent. -/
def twoDrain : List SerialEvent := [.resume 0,.interrupt true false,.interrupt true false]

theorem booted_run_drains_twoPrint :
    Yields (machine.run twoPrint (sdObjectInit 0x20000800 2 (fun _ => 0) 0)) fun d =>
      twoDrain.length ≤ d.work ∧ Yields (machine.run twoDrain d) fun d' =>
        (d'.Drained ∧ d'.line = d'.accepted.map Prod.snd) ∨ ∃ e, d'.Allows e ∧ d'.Useful e := by
  have hnow : Yields (machine.run twoPrint (sdObjectInit 0x20000800 2 (fun _ => 0) 0)) fun d =>
      decide (d.state = .ready ∧ (machine.restrict Useful).Legal d twoDrain) = true :=
    Yields.of_map (by decide +kernel)
  have hdrains := booted_run_drains 0x20000800 (show 0 < 2 by decide) (fun _ => 0) 0
    (show (machine.restrict StartsEmpty).Legal _ twoPrint by decide +kernel)
  refine (hdrains.and_returning hnow.returning).mono ?_
  rintro d ⟨⟨-,hd⟩,hready⟩
  obtain ⟨hr,hlegal⟩ := of_decide_eq_true hready
  obtain ⟨hlength,hend⟩ := hd hr twoDrain hlegal
  exact ⟨hlength,hend.mono fun d' => Or.imp_left (And.imp_right fun h => h (by decide))⟩

/-! ### A restart on bytes -/

/-- The transmitter is disabled and nothing has been sent or accepted since `d₀`. -/
structure Asleep (d₀ d : SerialDriver) : Prop where
  off : d.txeie = false
  line : d.line = d₀.line
  accepted : d.accepted = d₀.accepted
  counter : d.oqueue.counter = d₀.oqueue.counter

lemma asleep_interrupt {d₀ : SerialDriver} (h : Asleep d₀ d) (txe tc : Bool) :
    Asleep d₀ (d.serveInterrupt txe tc) := by
  refine serveInterrupt_rule (fun ht => ?_) (fun d' hd' => ?_) h
  · exact absurd ht (by simpa [txeie] using h.off)
  · obtain ⟨hcr,-,-,-,hl,hacc,hq⟩ := serveComplete_frame d.cr1 d'
    refine ⟨?_,hl.trans hd'.line,hacc.trans hd'.accepted,by rw [hq,hd'.counter]⟩
    rw [txeie,hcr,Register.txeie_complete]
    exact h.off

lemma asleep_finish {d₀ : SerialDriver} (h : Asleep d₀ d) (t : ℕ) (b : UInt8) {msg : Msg}
    (hm : msg ≠ .ok) : Asleep d₀ (d.finish t b msg) where
  off := h.off
  line := by simpa [line,finish,note,setWriter,List.filterMap_cons,Deed.out] using h.line
  accepted := by
    cases msg with
    | ok => exact absurd rfl hm
    | timeout | reset =>
      simpa [accepted,finish,note,setWriter,List.filterMap_cons,Deed.accepted] using h.accepted
  counter := h.counter

/-- A thread that does not store its byte leaves the transmitter asleep. -/
lemma asleep_put {d₀ : SerialDriver} (h : Asleep d₀ d) (t : ℕ) (b : UInt8) (timeout : ℕ) :
    Asleep d₀ (d.chOQPutTimeout t b timeout) ∨
      d₀.oqueue.counter ≠ 0 ∧ (d.chOQPutTimeout t b timeout).accepted = d₀.accepted++[(t,b)] := by
  unfold chOQPutTimeout
  by_cases hf : d.oqueue.chOQIsFullI = true
  · rw [if_pos hf]
    left
    split
    · exact asleep_finish h t b (by simp)
    · exact ⟨h.off,h.line,h.accepted,h.counter⟩
  · rw [if_neg hf]
    right
    have hc : d.oqueue.counter ≠ 0 := by
      simpa [OutputQueue.chOQIsFullI,OutputQueue.chQSpaceI] using hf
    refine ⟨h.counter ▸ hc,?_⟩
    rw [← h.accepted]
    simp [accepted,finish,note,setWriter,store,notify1,Deed.accepted]

lemma deeds_put (t : ℕ) (b : UInt8) (timeout : ℕ) :
    d.deeds <+: (d.chOQPutTimeout t b timeout).deeds := by
  unfold chOQPutTimeout
  split
  · split
    · exact List.prefix_append ..
    · exact List.prefix_rfl
  · exact List.prefix_append ..

lemma deeds_serveInterrupt (txe tc : Bool) : d.deeds <+: (d.serveInterrupt txe tc).deeds := by
  refine serveInterrupt_rule (P := fun d' => d.deeds <+: d'.deeds) (fun _ => ?_)
    (fun d' hd' => hd'.trans ?_) List.prefix_rfl
  · obtain ⟨-,hd'⟩ | ⟨-,hd'⟩ := serveTransmit_cases d.cr1 d
    · rw [hd']
      exact List.prefix_append ..
    · rw [hd',note,(dequeueNext_frame .ok _).2.2.2]
      exact List.prefix_append ..
  · unfold serveComplete
    dsimp only
    split
    · exact List.prefix_append ..
    · exact List.prefix_rfl

/-- The driver is neither started nor stopped. -/
def Undisturbed : SerialEvent → Prop
  | .start _ | .stop => False
  | .put _ _ _ | .resume _ | .wakeup _ | .interrupt _ _ => True

lemma deeds_step {e : SerialEvent} (he : Undisturbed e) : d.deeds <+: (d.step e).deeds := by
  cases e with
  | put t b timeout => exact deeds_put t b timeout
  | resume t =>
    rw [step,resume]
    split
    · exact deeds_put t _ _
    · exact List.prefix_append ..
    · exact List.prefix_append ..
    all_goals exact List.prefix_rfl
  | wakeup t =>
    rw [step,wakeup]
    split <;> exact List.prefix_rfl
  | interrupt txe tc => exact deeds_serveInterrupt txe tc
  | start cr1 => exact he.elim
  | stop => exact he.elim

/-- Only a byte that the queue accepts ends the sleep. -/
lemma asleep_step {d₀ : SerialDriver} (h : Asleep d₀ d) {e : SerialEvent} (he : Undisturbed e) :
    Asleep d₀ (d.step e) ∨
      d₀.oqueue.counter ≠ 0 ∧ ∃ x, (d.step e).accepted = d₀.accepted++[x] := by
  cases e with
  | put t b timeout =>
    exact (asleep_put h t b timeout).imp_right fun hp => ⟨hp.1,_,hp.2⟩
  | resume t =>
    rw [step,resume]
    split
    · rename_i b timeout hd
      exact (asleep_put h t b timeout).imp_right fun hp => ⟨hp.1,_,hp.2⟩
    · exact .inl (asleep_finish h t _ (by simp))
    · exact .inl (asleep_finish h t _ (by simp))
    all_goals exact .inl h
  | wakeup t =>
    rw [step,wakeup]
    left
    split
    · exact ⟨h.off,h.line,h.accepted,h.counter⟩
    all_goals exact h
  | interrupt txe tc => exact .inl (asleep_interrupt h txe tc)
  | start cr1 => exact he.elim
  | stop => exact he.elim

/-- Restarted while it holds bytes, the driver sends none of them before it has accepted another
one; restarted with a full queue, it never accepts and never sends anything again. -/
theorem restart_stalls (d : SerialDriver) {cr1 : Register} (hc : Register.txeie cr1 = false)
    {es : List SerialEvent} (hes : machine.Legal (d.sdStart cr1) es)
    (hu : ∀ e ∈ es, Undisturbed e) :
    Yields (machine.run es (d.sdStart cr1)) fun d' =>
      (d'.accepted = d.accepted → d'.line = d.line) ∧
      (d.oqueue.chOQIsFullI = true → d'.accepted = d.accepted ∧ d'.line = d.line) := by
  have h₀ : Asleep d (d.sdStart cr1) := ⟨by simpa [txeie,sdStart] using hc,rfl,rfl,rfl⟩
  have hrun := Driven.run_yields (M := machine)
    (P := fun d' => Asleep d d' ∨
      d.oqueue.counter ≠ 0 ∧ d.accepted.length < d'.accepted.length) (fun d' e he hd' _ => ?_)
    (.inl h₀) hes
  · refine hrun.mono fun d' hd' => ?_
    obtain hs | ⟨hn,hlt⟩ := hd'
    · exact ⟨fun _ => hs.line,fun _ => ⟨hs.accepted,hs.line⟩⟩
    · refine ⟨fun he => absurd hlt (by simp [he]),fun hf => absurd ?_ hn⟩
      simpa [OutputQueue.chOQIsFullI,OutputQueue.chQSpaceI] using hf
  · refine .ok ?_
    obtain hs | ⟨hn,hlt⟩ := hd'
    · obtain hs' | ⟨hn,x,hx⟩ := asleep_step hs (hu e he)
      · exact .inl hs'
      · exact .inr ⟨hn,by simp [hx]⟩
    · have hp := (deeds_step (d := d') (hu e he)).filterMap Deed.accepted
      exact .inr ⟨hn,hlt.trans_le hp.length_le⟩

/-- A driver with a buffer of two bytes, both in use. -/
def twoQueued : SerialDriver :=
  ((sdObjectInit 0x20000800 2 (fun _ => 0) 0).chOQPutTimeout 0 65 timeInfinite).chOQPutTimeout
    0 66 timeInfinite

theorem restart_stalls_twoQueued :
    twoQueued.oqueue.chOQIsFullI = true ∧
    Yields (machine.run [.put 1 97 timeInfinite,.interrupt true true,.put 0 67 timeInfinite]
      (twoQueued.sdStart 0)) fun d' =>
        (d'.accepted = twoQueued.accepted → d'.line = twoQueued.line) ∧
        (twoQueued.oqueue.chOQIsFullI = true →
          d'.accepted = twoQueued.accepted ∧ d'.line = twoQueued.line) :=
  ⟨by decide +kernel,restart_stalls twoQueued (by decide) (by decide +kernel)
    (by simp [Undisturbed])⟩

end SerialDriver
end DspLibrary.Chibios
