import DspLibrary.Foundation.Runs
import DspLibrary.Chibios.OutputQueue

/-! The transmit side of the serial driver: threads that put bytes into the output queue and wait
while it is full, and the interrupt handler that feeds the USART from it. A thread holds the
kernel lock from the test of the queue to its return or its wait, and no thread runs during an
interrupt, so each of these is one step. -/
namespace DspLibrary.Chibios
open DspLibrary.Foundation

/-- `Q_OK`, `Q_TIMEOUT` and `Q_RESET`. -/
inductive Msg
  | ok
  | timeout
  | reset
  deriving DecidableEq, Repr

/-- `TIME_IMMEDIATE`. -/
def timeImmediate : ℕ := 0

/-- `TIME_INFINITE`. -/
def timeInfinite : ℕ := 2^32-1

/-- Where a thread is in a call of `chOQPutTimeout`: outside, in the queue of waiting threads, or
made ready with a message and not running yet. -/
inductive Writer
  | outside
  | suspended (b : UInt8) (timeout : ℕ)
  | readied (b : UInt8) (timeout : ℕ) (msg : Msg)
  deriving DecidableEq, Repr

namespace Writer

/-- `chThdDoDequeueNextI` for the thread it takes. -/
def ready (msg : Msg) : Writer → Writer
  | suspended b timeout => readied b timeout msg
  | outside => outside
  | readied b timeout msg' => readied b timeout msg'

/-- The byte of a call that has not returned. -/
def pending : Writer → Option UInt8
  | outside => none
  | suspended b _ => some b
  | readied b _ _ => some b

@[simp] lemma pending_ready (msg : Msg) (w : Writer) : (w.ready msg).pending = w.pending := by
  cases w <;> rfl

end Writer

/-- The flags of the transmit side. -/
inductive Flag
  | outputEmpty
  | transmissionEnd
  deriving DecidableEq, Repr

/-- What can be seen from outside: a call returns, a byte is written to the data register, a flag
is raised, the queue is emptied. -/
inductive Deed
  | returned (t : ℕ) (b : UInt8) (msg : Msg)
  | sent (b : UInt8)
  | raised (f : Flag)
  | cleared
  deriving DecidableEq, Repr

inductive SdState
  | stop
  | ready
  deriving DecidableEq, Repr

abbrev Register := BitVec 16

def usartCr1Txeie : Register := 0x0080
def usartCr1Tcie : Register := 0x0040

/-- The bits of `CR1` that `usart_init` enforces: `UE`, `PEIE`, `RXNEIE`, `TE` and `RE`. -/
def usartCr1Enforced : Register := 0x2000 ||| 0x0100 ||| 0x0020 ||| 0x0008 ||| 0x0004

structure SerialDriver where
  state : SdState
  oqueue : OutputQueue
  memory : Bytes
  cr1 : Register
  writers : ℕ → Writer
  deeds : List Deed

namespace SerialDriver

def setWriter (t : ℕ) (w : Writer) (d : SerialDriver) : SerialDriver :=
  { d with writers := Function.update d.writers t w }

def note (x : Deed) (d : SerialDriver) : SerialDriver := { d with deeds := d.deeds++[x] }

def chnAddFlagsI (f : Flag) (d : SerialDriver) : SerialDriver := d.note (.raised f)

/-- `sdObjectInit`, as `sd_lld_init` calls it. -/
def sdObjectInit (ob size : ℕ) (m : Bytes) (cr1 : Register) : SerialDriver :=
  ⟨.stop,.chOQObjectInit ob size,m,cr1,fun _ => .outside,[]⟩

/-- The call of a thread returns. -/
def finish (t : ℕ) (b : UInt8) (msg : Msg) (d : SerialDriver) : SerialDriver :=
  (d.setWriter t .outside).note (.returned t b msg)

/-- `chThdEnqueueTimeoutS`, up to the sleep. -/
def chThdEnqueueTimeoutS (t : ℕ) (b : UInt8) (timeout : ℕ) (d : SerialDriver) : SerialDriver :=
  { d.setWriter t (.suspended b timeout) with
    oqueue := { d.oqueue with waiting := d.oqueue.waiting++[t] } }

def chThdDequeueNextI (msg : Msg) (d : SerialDriver) : SerialDriver :=
  match d.oqueue.waiting with
  | [] => d
  | t::ts => { d.setWriter t ((d.writers t).ready msg) with
      oqueue := { d.oqueue with waiting := ts } }

def chThdDequeueAllI (msg : Msg) (d : SerialDriver) : SerialDriver :=
  d.oqueue.waiting.foldl (fun d _ => d.chThdDequeueNextI msg) d

def notify1 (d : SerialDriver) : SerialDriver := { d with cr1 := d.cr1 ||| usartCr1Txeie }

/-- The byte goes into the buffer. -/
def store (b : UInt8) (d : SerialDriver) : SerialDriver :=
  { d with
    memory := Function.update d.memory d.oqueue.wrptr b
    oqueue := d.oqueue.store }

/-- `chOQPutTimeout` of thread `t`, from the test of the queue to the return or the wait. -/
def chOQPutTimeout (t : ℕ) (b : UInt8) (timeout : ℕ) (d : SerialDriver) : SerialDriver :=
  if d.oqueue.chOQIsFullI then
    if timeout = timeImmediate then d.finish t b .timeout
    else d.chThdEnqueueTimeoutS t b timeout
  else (d.store b).notify1.finish t b .ok

/-- A thread that was made ready runs: back to the test with `Q_OK`, out of the call otherwise. -/
def resume (t : ℕ) (d : SerialDriver) : SerialDriver :=
  match d.writers t with
  | .readied b timeout .ok => d.chOQPutTimeout t b timeout
  | .readied b _ .timeout => d.finish t b .timeout
  | .readied b _ .reset => d.finish t b .reset
  | .outside | .suspended _ _ => d

/-- The timer of a waiting thread runs out. -/
def wakeup (t : ℕ) (d : SerialDriver) : SerialDriver :=
  match d.writers t with
  | .suspended b timeout => { d.setWriter t (.readied b timeout .timeout) with
      oqueue := { d.oqueue with waiting := d.oqueue.waiting.erase t } }
  | .outside | .readied _ _ _ => d

def chOQGetI (d : SerialDriver) : Option (UInt8 × SerialDriver) :=
  if d.oqueue.chOQIsEmptyI then none
  else some (d.memory d.oqueue.rdptr,
    { d with oqueue := d.oqueue.fetch }.chThdDequeueNextI .ok)

def chOQResetI (d : SerialDriver) : SerialDriver :=
  ({ d with oqueue := d.oqueue.rewind }.chThdDequeueAllI .reset).note .cleared

/-- The part of `serve_interrupt` for an empty transmit buffer. -/
def serveTransmit (cr1 : Register) (d : SerialDriver) : SerialDriver :=
  match d.chOQGetI with
  | none => { d.chnAddFlagsI .outputEmpty with cr1 := (cr1 &&& ~~~usartCr1Txeie) ||| usartCr1Tcie }
  | some (b,d) => d.note (.sent b)

/-- The part of `serve_interrupt` for the physical end of the transmission. -/
def serveComplete (cr1 : Register) (d : SerialDriver) : SerialDriver :=
  let d := if d.oqueue.chOQIsEmptyI then d.chnAddFlagsI .transmissionEnd else d
  { d with cr1 := cr1 &&& ~~~usartCr1Tcie }

/-- `serve_interrupt` with the bits `TXE` and `TC` of the status register. Both parts use the
value of `CR1` from the entry. -/
def serveInterrupt (txe tc : Bool) (d : SerialDriver) : SerialDriver :=
  let cr1 := d.cr1
  let d := if cr1 &&& usartCr1Txeie ≠ 0 ∧ txe then d.serveTransmit cr1 else d
  if tc then d.serveComplete cr1 else d

/-- `sdStart` with the `cr1` of a configuration. -/
def sdStart (cr1 : Register) (d : SerialDriver) : SerialDriver :=
  { d with cr1 := cr1 ||| usartCr1Enforced, state := .ready }

def sdStop (d : SerialDriver) : SerialDriver :=
  let d := if d.state = .ready then { d with cr1 := 0 } else d
  { d with state := .stop }.chOQResetI

end SerialDriver

inductive SerialEvent
  /-- thread `t` calls `chOQPutTimeout` -/
  | put (t : ℕ) (b : UInt8) (timeout : ℕ)
  /-- thread `t` runs again after a wait -/
  | resume (t : ℕ)
  /-- the wait of thread `t` times out -/
  | wakeup (t : ℕ)
  /-- the USART interrupts -/
  | interrupt (txe tc : Bool)
  | start (cr1 : Register)
  | stop
  deriving DecidableEq, Repr

namespace SerialDriver

def step : SerialEvent → SerialDriver → SerialDriver
  | .put t b timeout => chOQPutTimeout t b timeout
  | .resume t => SerialDriver.resume t
  | .wakeup t => SerialDriver.wakeup t
  | .interrupt txe tc => serveInterrupt txe tc
  | .start cr1 => sdStart cr1
  | .stop => sdStop

def isReadied (d : SerialDriver) (t : ℕ) : Bool :=
  match d.writers t with
  | .readied _ _ _ => true
  | .outside | .suspended _ _ => false

/-- The thread waits without a timer. -/
def waitsForEver (d : SerialDriver) (t : ℕ) : Bool :=
  match d.writers t with
  | .suspended _ timeout => timeout = timeInfinite
  | .outside | .readied _ _ _ => false

/-- A thread makes one call at a time and runs only when it is ready, an infinite wait does not
time out, and a stopped driver has its interrupt vector disabled. -/
def Allows (d : SerialDriver) : SerialEvent → Prop
  | .put t _ _ => d.writers t = .outside
  | .resume t => d.isReadied t = true
  | .wakeup t => d.waitsForEver t = false
  | .interrupt _ _ => d.state = .ready
  | .start _ => True
  | .stop => True

def decideAllows (d : SerialDriver) : (e : SerialEvent) → Decidable (d.Allows e)
  | .put t _ _ => inferInstanceAs (Decidable (d.writers t = .outside))
  | .resume t => inferInstanceAs (Decidable (d.isReadied t = true))
  | .wakeup t => inferInstanceAs (Decidable (d.waitsForEver t = false))
  | .interrupt _ _ => inferInstanceAs (Decidable (d.state = .ready))
  | .start _ => .isTrue trivial
  | .stop => .isTrue trivial

/-- The driver and everything that happens to it. -/
def machine : Driven Empty SerialEvent SerialDriver := ⟨fun e d => .ok (d.step e),Allows⟩

instance (d : SerialDriver) (es : List SerialEvent) : Decidable (machine.Legal d es) :=
  machine.decideLegal decideAllows d es

end SerialDriver
end DspLibrary.Chibios
