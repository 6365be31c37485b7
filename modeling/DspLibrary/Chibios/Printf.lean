import DspLibrary.Foundation.SinglePrecision
import DspLibrary.Foundation.Yields
import DspLibrary.Chibios.OutputQueue

/-! Formatted output: `chvprintf` and its number conversions. The scratch buffer `tmpbuf` is a
part of memory and is addressed by its index; `long` and `int` are 32 bits wide, and the digit
loops divide by an `unsigned`, so that they work on the unsigned value. A floating-point number is
its value, a rational; infinities are left out. A `double` is narrowed to a `float` before it is
printed, and what is left to compute, the fraction of a `float` times a power of ten, is exact in a
`double`. -/
namespace DspLibrary.Chibios
open DspLibrary.Foundation

/-- `MAX_FILLER`. -/
def maxFiller : ℕ := 11

/-- `FLOAT_PRECISION`. -/
def floatPrecision : ℕ := 9

/-- The ways in which formatting leaves the language: a read after the end of the format, a missing
argument or one of another type, a value that does not fit a `long` or an `int`, and digits without
end. -/
inductive PrintFault
  | overread
  | argument
  | overflow
  | endless
  deriving DecidableEq, Repr

/-- The digit of a value below 36. -/
def digitChar (d : ℕ) : UInt8 :=
  let i := d+48
  .ofNat (if 57 < i then i+(65-48-10) else i)

/-- The digits of `l`, written backwards from `q`; as many as `ll` has. The rounds are enough for
every radix but 0 and 1. -/
def storeDigits (radix : ℕ) : ℕ → ℕ → ℕ → ℕ → Bytes → Except PrintFault (ℕ × Bytes)
  | 0,_,_,_,_ => .error .endless
  | rounds+1,q,l,ll,m =>
    let m := Function.update m (q-1) (digitChar (l%radix))
    if ll/radix ≠ 0 then storeDigits radix rounds (q-1) (l/radix) (ll/radix) m
    else .ok (q-1,m)

/-- `i` characters from `q` on moved to `p`, first to last. -/
def moveDown : ℕ → ℕ → ℕ → Bytes → ℕ × Bytes
  | 0,p,_,m => (p,m)
  | i+1,p,q,m => moveDown i (p+1) (q+1) (Function.update m p (m q))

def longToStringWithDivisor (p num radix divisor : ℕ) (m : Bytes) :
    Except PrintFault (ℕ × Bytes) := do
  let ll := if divisor = 0 then num else divisor
  let (q,m) ← storeDigits radix 32 (p+maxFiller) num ll m
  return moveDown (p+maxFiller-q) p q m

def chLtoa (p num radix : ℕ) (m : Bytes) : Except PrintFault (ℕ × Bytes) :=
  longToStringWithDivisor p num radix 0 m

/-- `(long)x` for a value that is not negative. -/
def toLong (x : ℚ) : Except PrintFault ℕ :=
  if x < 2^31 then .ok ⌊x⌋₊ else .error .overflow

/-- The table `pow10`. -/
def pow10 : List ℕ :=
  [10,100,1000,10000,100000,1000000,10000000,100000000,1000000000]

def ftoa (p : ℕ) (num : ℚ) (precision : ℕ) (m : Bytes) : Except PrintFault (ℕ × Bytes) := do
  let precision := if precision = 0 ∨ floatPrecision < precision then floatPrecision else precision
  let precision := pow10.getD (precision-1) 0
  let l ← toLong num
  let (p,m) ← longToStringWithDivisor p l 10 0 m
  let m := Function.update m p 46
  let l' ← toLong ((num-l)*precision)
  longToStringWithDivisor (p+1) l' 10 (precision/10) m

/-- An argument of `chvprintf`: an `int` or a `long`, a `double`, or a string, which is a null
pointer or the characters before the terminator. -/
inductive Arg
  | int (v : BitVec 32)
  | float (x : ℚ)
  | string (s : Option (List UInt8))
  deriving DecidableEq

namespace Arg

/-- `va_arg(ap, int)` and its relatives of the same width. -/
def takeInt : List Arg → Except PrintFault (BitVec 32 × List Arg)
  | int v::ap => .ok (v,ap)
  | _ => .error .argument

def takeFloat : List Arg → Except PrintFault (ℚ × List Arg)
  | float x::ap => .ok (x,ap)
  | _ => .error .argument

def takeString : List Arg → Except PrintFault (Option (List UInt8) × List Arg)
  | string s::ap => .ok (s,ap)
  | _ => .error .argument

end Arg

/-- One more digit in an `int`. -/
def pushDigit (width c : ℕ) : Except PrintFault ℕ :=
  if width*10+c < 2^31 then .ok (width*10+c) else .error .overflow

/-- A loop over the digits of a width or a precision. It ends with the character that follows. An
asterisk takes the low byte of an argument. -/
def readField : List UInt8 → List Arg → ℕ → Except PrintFault (ℕ × UInt8 × List UInt8 × List Arg)
  | [],_,_ => .error .overread
  | c::fmt,ap,width =>
    if 48 ≤ c ∧ c ≤ 57 then do
      let width ← pushDigit width (c.toNat-48)
      readField fmt ap width
    else if c = 42 then do
      let (v,ap) ← Arg.takeInt ap
      let width ← pushDigit width (v.toNat%256)
      readField fmt ap width
    else .ok (width,c,fmt,ap)

/-- `*fmt`. -/
def peek : List UInt8 → Except PrintFault UInt8
  | [] => .error .overread
  | c::_ => .ok c

/-- What stands between a percent sign and the command, with the command. -/
structure Command where
  leftAlign : Bool
  filler : UInt8
  width : ℕ
  precision : ℕ
  letter : UInt8
  deriving DecidableEq, Repr

/-- Skip the flag character if it is there. -/
def readFlag (flag : UInt8) (fmt : List UInt8) : Except PrintFault (Bool × List UInt8) := do
  let c ← peek fmt
  return if c = flag then (true,fmt.tail) else (false,fmt)

/-- The long modifier makes no difference but for the character it takes: the two types have the
same width. -/
def readLong (c : UInt8) (fmt : List UInt8) : Except PrintFault (UInt8 × List UInt8) :=
  if c = 108 ∨ c = 76 then do
    let d ← peek fmt
    return if d ≠ 0 then (d,fmt.tail) else (c,fmt)
  else .ok (c,fmt)

def readCommand (fmt : List UInt8) (ap : List Arg) :
    Except PrintFault (Command × List UInt8 × List Arg) := do
  let (leftAlign,fmt) ← readFlag 45 fmt
  let (zero,fmt) ← readFlag 48 fmt
  let (width,c,fmt,ap) ← readField fmt ap 0
  let (precision,c,fmt,ap) ← if c = 46 then readField fmt ap 0 else pure (0,c,fmt,ap)
  let (letter,fmt) ← readLong c fmt
  return (⟨leftAlign,if zero then 48 else 32,width,precision,letter⟩,fmt,ap)

/-- The characters of `tmpbuf` below `p`. -/
def scratch (m : Bytes) (p : ℕ) : List UInt8 := walk (·+1) m p 0

/-- The `d` command: a sign, and the digits of the absolute value. -/
def convertSigned (v : BitVec 32) (m : Bytes) : Except PrintFault (List UInt8) := do
  let (p,l,m) := if v.msb then (1,(-v).toNat,Function.update m 0 45) else (0,v.toNat,m)
  let (p,m) ← chLtoa p l 10 m
  return scratch m p

def convertUnsigned (v : BitVec 32) (radix : ℕ) (m : Bytes) : Except PrintFault (List UInt8) := do
  let (p,m) ← chLtoa 0 v.toNat radix m
  return scratch m p

/-- The `f` command: the argument in single precision, a sign, and the absolute value. -/
def convertFloat (x : ℚ) (precision : ℕ) (m : Bytes) : Except PrintFault (List UInt8) := do
  let f := single x
  let (p,f,m) := if f < 0 then (1,-f,Function.update m 0 45) else (0,f,m)
  let (p,m) ← ftoa p f precision m
  return scratch m p

/-- The `s` command: `(null)` for a null pointer, and no more characters than the precision. -/
def convertString (s : Option (List UInt8)) (precision : ℕ) : List UInt8 :=
  let s := s.getD [40,110,117,108,108,41]
  let precision := if precision = 0 then 32767 else precision
  s.take precision

/-- Command decoding: the filler, the characters to print and the arguments left. -/
def convert (cmd : Command) (ap : List Arg) (m : Bytes) :
    Except PrintFault (UInt8 × List UInt8 × List Arg) :=
  let c := cmd.letter
  if c = 99 then do
    let (v,ap) ← Arg.takeInt ap
    return (32,[.ofNat v.toNat],ap)
  else if c = 115 then do
    let (s,ap) ← Arg.takeString ap
    return (32,convertString s cmd.precision,ap)
  else if c = 68 ∨ c = 100 ∨ c = 73 ∨ c = 105 then do
    let (v,ap) ← Arg.takeInt ap
    return (cmd.filler,← convertSigned v m,ap)
  else if c = 102 then do
    let (x,ap) ← Arg.takeFloat ap
    return (cmd.filler,← convertFloat x cmd.precision m,ap)
  else if c = 88 ∨ c = 120 then do
    let (v,ap) ← Arg.takeInt ap
    return (cmd.filler,← convertUnsigned v 16 m,ap)
  else if c = 85 ∨ c = 117 then do
    let (v,ap) ← Arg.takeInt ap
    return (cmd.filler,← convertUnsigned v 10 m,ap)
  else if c = 79 ∨ c = 111 then do
    let (v,ap) ← Arg.takeInt ap
    return (cmd.filler,← convertUnsigned v 8 m,ap)
  else .ok (cmd.filler,[c],ap)

/-- The stream, and the count that is returned. -/
structure Output where
  bytes : List UInt8
  n : ℕ
  deriving DecidableEq, Repr

namespace Output

/-- `chSequentialStreamPut` and `n++`. -/
def put (o : Output) (b : UInt8) : Output := ⟨o.bytes++[b],o.n+1⟩

def putAll (o : Output) (bs : List UInt8) : Output := bs.foldl put o

end Output

/-- The padded text: a sign goes before a filler of zeros. -/
def putField (leftAlign : Bool) (filler : UInt8) (width : ℕ) (s : List UInt8) (o : Output) :
    Output :=
  let pad := width-s.length
  if leftAlign then (o.putAll s).putAll (.replicate pad filler)
  else if pad ≠ 0 then
    let (o,s) := if s.head? = some 45 ∧ filler = 48 then (o.put 45,s.tail) else (o,s)
    (o.putAll (.replicate pad filler)).putAll s
  else o.putAll s

/-- The loop of `chvprintf`; a round takes at least one character of the format. -/
def formatLoop (m : Bytes) : ℕ → List UInt8 → List Arg → Output → Except PrintFault Output
  | 0,_,_,_ => .error .overread
  | _+1,[],_,_ => .error .overread
  | rounds+1,c::fmt,ap,o =>
    if c = 0 then .ok o
    else if c ≠ 37 then formatLoop m rounds fmt ap (o.put c)
    else do
      let (cmd,fmt,ap) ← readCommand fmt ap
      let (filler,s,ap) ← convert cmd ap m
      formatLoop m rounds fmt ap (putField cmd.leftAlign filler cmd.width s o)

/-- `chvprintf` on the bytes of a format, its terminator included; `m` is what `tmpbuf` holds at
the beginning. -/
def chvprintf (m : Bytes) (fmt : List UInt8) (ap : List Arg) : Except PrintFault Output :=
  formatLoop m fmt.length fmt ap ⟨[],0⟩

end DspLibrary.Chibios
