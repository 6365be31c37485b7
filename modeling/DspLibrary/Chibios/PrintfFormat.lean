import DspLibrary.Chibios.PrintfNumbers

/-! Formats as a language: a format is a sequence of plain characters and directives, and
`chvprintf` prints for each of them what it stands for. -/
namespace DspLibrary.Chibios
open DspLibrary.Foundation

/-! ### The language of formats -/

/-- A character of a width or a precision. -/
inductive FieldChar
  | digit (d : Fin 10)
  | star
  deriving DecidableEq, Repr

namespace FieldChar

def char : FieldChar → UInt8
  | digit d => .ofNat (d.val+48)
  | star => 42

end FieldChar

/-- The long modifier. -/
inductive Modifier
  | l
  | L
  deriving DecidableEq, Repr

def Modifier.char : Modifier → UInt8
  | l => 108
  | L => 76

/-- A directive of a format: `%[-][0][width][.precision][l|L]letter`. -/
structure Directive where
  leftAlign : Bool
  zero : Bool
  width : List FieldChar
  precision : Option (List FieldChar)
  modifier : Option Modifier
  letter : UInt8
  deriving DecidableEq, Repr

namespace Directive

/-- The width and the precision. -/
def fields (d : Directive) : List UInt8 :=
  match d.precision with
  | none => d.width.map (·.char)
  | some xs => d.width.map (·.char)++46::xs.map (·.char)

/-- The text between the percent sign and the modifier. -/
def body (d : Directive) : List UInt8 :=
  (if d.leftAlign then [45] else [])++((if d.zero then [48] else [])++d.fields)

/-- A directive without its letter. -/
def stem (d : Directive) : List UInt8 := 37::(d.body++(d.modifier.map (·.char)).toList)

def render (d : Directive) : List UInt8 := d.stem++[d.letter]

/-- A width does not begin with a zero, which would be the flag. -/
def Flagged (d : Directive) : Prop := d.zero = false → d.width.head? ≠ some (.digit 0)

/-- The character after flags, width and precision is not a part of them. -/
def Stops (d : Directive) (c : UInt8) : Prop :=
  ¬ (48 ≤ c ∧ c ≤ 57) ∧ c ≠ 42 ∧ (d.precision = none → c ≠ 46) ∧ (d.body = [] → c ≠ 45)

/-- After a modifier every letter is taken as it is. -/
def WellFormed (d : Directive) : Prop :=
  d.Flagged ∧ d.letter ≠ 0 ∧
    (d.modifier = none → d.Stops d.letter ∧ d.letter ≠ 108 ∧ d.letter ≠ 76)

instance (d : Directive) : Decidable d.Flagged :=
  inferInstanceAs (Decidable (_ → _))

instance (d : Directive) (c : UInt8) : Decidable (d.Stops c) :=
  inferInstanceAs (Decidable (_ ∧ _))

instance (d : Directive) : Decidable d.WellFormed :=
  inferInstanceAs (Decidable (_ ∧ _))

end Directive

/-- An item of a format. -/
inductive Item
  | plain (c : UInt8)
  | directive (d : Directive)
  deriving DecidableEq, Repr

namespace Item

def render : Item → List UInt8
  | plain c => [c]
  | directive d => d.render

def WellFormed : Item → Prop
  | plain c => c ≠ 0 ∧ c ≠ 37
  | directive d => d.WellFormed

instance : (x : Item) → Decidable x.WellFormed
  | plain _ => inferInstanceAs (Decidable (_ ∧ _))
  | directive d => inferInstanceAs (Decidable d.WellFormed)

end Item

/-! ### What a format stands for -/

/-- The value of a width or a precision, and the arguments left. -/
def fieldValue : List FieldChar → List Arg → ℕ → Except PrintFault (ℕ × List Arg)
  | [],ap,w => .ok (w,ap)
  | .digit d::xs,ap,w => do
    let w ← pushDigit w d.val
    fieldValue xs ap w
  | .star::xs,ap,w => do
    let (v,ap) ← Arg.takeInt ap
    let w ← pushDigit w (v.toNat%256)
    fieldValue xs ap w

/-- A number in full. -/
def radixText (radix n : ℕ) : List UInt8 := digitText radix (digitCount radix n) n

def signedText (v : ℤ) : List UInt8 := (if v < 0 then [45] else [])++radixText 10 v.natAbs

/-- The nearest number of single precision, unless it does not fit. -/
def floatText (x : ℚ) (precision : ℕ) : Except PrintFault (List UInt8) :=
  if |single x| < 2^31 then
    .ok ((if single x < 0 then [45] else [])++fixedText |single x| (fractionDigits precision))
  else .error .overflow

/-- What a command prints, with its filler. -/
def commandText (letter filler : UInt8) (precision : ℕ) (ap : List Arg) :
    Except PrintFault (UInt8 × List UInt8 × List Arg) :=
  if letter = 99 then do
    let (v,ap) ← Arg.takeInt ap
    return (32,[.ofNat v.toNat],ap)
  else if letter = 115 then do
    let (s,ap) ← Arg.takeString ap
    return (32,convertString s precision,ap)
  else if letter = 68 ∨ letter = 100 ∨ letter = 73 ∨ letter = 105 then do
    let (v,ap) ← Arg.takeInt ap
    return (filler,signedText v.toInt,ap)
  else if letter = 102 then do
    let (x,ap) ← Arg.takeFloat ap
    return (filler,← floatText x precision,ap)
  else if letter = 88 ∨ letter = 120 then do
    let (v,ap) ← Arg.takeInt ap
    return (filler,radixText 16 v.toNat,ap)
  else if letter = 85 ∨ letter = 117 then do
    let (v,ap) ← Arg.takeInt ap
    return (filler,radixText 10 v.toNat,ap)
  else if letter = 79 ∨ letter = 111 then do
    let (v,ap) ← Arg.takeInt ap
    return (filler,radixText 8 v.toNat,ap)
  else .ok (filler,[letter],ap)

/-- A text made as long as the width. -/
def padTo (leftAlign : Bool) (filler : UInt8) (width : ℕ) (s : List UInt8) : List UInt8 :=
  let pad := List.replicate (width-s.length) filler
  if leftAlign then s++pad
  else if s.head? = some 45 ∧ filler = 48 then 45::(pad++s.tail)
  else pad++s

namespace Directive

/-- What a directive prints, and the arguments left. -/
def output (d : Directive) (ap : List Arg) : Except PrintFault (List UInt8 × List Arg) := do
  let (width,ap) ← fieldValue d.width ap 0
  let (precision,ap) ← fieldValue (d.precision.getD []) ap 0
  let (filler,s,ap) ← commandText d.letter (if d.zero then 48 else 32) precision ap
  return (padTo d.leftAlign filler width s,ap)

/-- What is printed when the format ends before the letter. After a modifier the terminator is seen,
and the modifier is printed in place of a command. Without one the terminator is the command, and
what follows it in memory is read as the format. -/
def cutOff (d : Directive) (ap : List Arg) : Except PrintFault (List UInt8) := do
  let (width,ap) ← fieldValue d.width ap 0
  let _ ← fieldValue (d.precision.getD []) ap 0
  match d.modifier with
  | none => .error .overread
  | some x => return padTo d.leftAlign (if d.zero then 48 else 32) width [x.char]

end Directive

namespace Item

def output : Item → List Arg → Except PrintFault (List UInt8 × List Arg)
  | plain c,ap => .ok ([c],ap)
  | directive d,ap => d.output ap

/-- What the items of a format print one after the other. -/
def outputAll : List Item → List Arg → Except PrintFault (List UInt8 × List Arg)
  | [],ap => .ok ([],ap)
  | x::xs,ap => do
    let (s,ap) ← x.output ap
    let (t,ap) ← outputAll xs ap
    return (s++t,ap)

end Item

/-- The text of items. -/
def renderAll (items : List Item) : List UInt8 := items.flatMap Item.render

/-- A format: items, and possibly a directive that the end of the format cuts off. -/
structure Format where
  items : List Item
  cut : Option Directive
  wellFormed : ∀ x ∈ items, x.WellFormed
  flagged : ∀ d, cut = some d → d.Flagged

namespace Format

/-- A format that ends with a whole item. -/
def whole (items : List Item) (wellFormed : ∀ x ∈ items, x.WellFormed) : Format :=
  ⟨items,none,wellFormed,nofun⟩

/-- The characters before the terminator. -/
def text (f : Format) : List UInt8 := renderAll f.items++f.cut.elim [] Directive.stem

/-- What a format prints, and the count of it. -/
def output (f : Format) (ap : List Arg) : Except PrintFault Output := do
  let (s,ap) ← Item.outputAll f.items ap
  match f.cut with
  | none => return ⟨s,s.length⟩
  | some d =>
    let t ← d.cutOff ap
    return ⟨s++t,(s++t).length⟩

end Format

/-! ### Reading a directive -/

lemma FieldChar.digit_char (d : Fin 10) :
    (48 ≤ (digit d).char ∧ (digit d).char ≤ 57) ∧ (digit d).char.toNat-48 = d.val := by
  revert d
  decide

lemma FieldChar.char_ne_minus (x : FieldChar) : x.char ≠ 45 := by
  cases x with
  | digit d =>
    revert d
    decide
  | star => decide

lemma FieldChar.eq_zero_of_char {x : FieldChar} (h : x.char = 48) : x = digit 0 := by
  cases x with
  | digit d =>
    revert d
    decide
  | star => simp [char] at h

lemma readField_render (xs : List FieldChar) {c : UInt8} (hd : ¬ (48 ≤ c ∧ c ≤ 57)) (hs : c ≠ 42)
    (rest : List UInt8) (ap : List Arg) (w : ℕ) :
    readField (xs.map (·.char)++c::rest) ap w =
      fieldValue xs ap w >>= fun r => .ok (r.1,c,rest,r.2) := by
  induction xs generalizing ap w with
  | nil =>
    rw [List.map_nil,List.nil_append,readField,if_neg hd,if_neg hs]
    rfl
  | cons x xs ih =>
    cases x with
    | digit d =>
      obtain ⟨hm,hv⟩ := FieldChar.digit_char d
      rw [List.map_cons,List.cons_append,readField,if_pos hm,hv,fieldValue]
      cases h : pushDigit w d.val with
      | error e => rfl
      | ok w' => exact ih ap w'
    | star =>
      rw [List.map_cons,List.cons_append,readField,if_neg (by decide),
        if_pos (show FieldChar.star.char = 42 from rfl),fieldValue]
      cases h : Arg.takeInt ap with
      | error e => rfl
      | ok r =>
        change (pushDigit w (r.1.toNat%256) >>= fun w' => _) =
          (pushDigit w (r.1.toNat%256) >>= fun w' => _) >>= _
        cases h' : pushDigit w (r.1.toNat%256) with
        | error e => rfl
        | ok w' => exact ih r.2 w'

lemma readFlag_set (flag : UInt8) (rest : List UInt8) :
    readFlag flag (flag::rest) = .ok (true,rest) := by
  simp [readFlag,peek,pure_eq_ok]

lemma readFlag_unset {flag c : UInt8} (h : c ≠ flag) (rest : List UInt8) :
    readFlag flag (c::rest) = .ok (false,c::rest) := by
  simp [readFlag,peek,pure_eq_ok,h]

namespace Directive
variable (d : Directive) {c : UInt8} (hc : d.Stops c) (rest : List UInt8)
include hc

/-- The character after the flags is neither of them. -/
lemma fields_head : ∃ x xs, d.fields++c::rest = x::xs ∧ ((d.fields = [] → c ≠ 45) → x ≠ 45) ∧
    (d.width.head? ≠ some (.digit 0) → x ≠ 48) := by
  have hz : c ≠ 48 := by
    rintro rfl
    exact hc.1 (by decide)
  cases hw : d.width with
  | nil =>
    cases hp : d.precision with
    | none =>
      have hf : d.fields = [] := by simp [fields,hw,hp]
      exact ⟨c,rest,by simp [hf],fun h => h hf,fun _ => hz⟩
    | some xs =>
      exact ⟨46,xs.map (·.char)++c::rest,by simp [fields,hw,hp],fun _ => by decide,
        fun _ => by decide⟩
  | cons x xs =>
    have hne : (x::xs).head? ≠ some (FieldChar.digit 0) → x.char ≠ 48 := by
      intro h h48
      exact h (by simp [FieldChar.eq_zero_of_char h48])
    cases hp : d.precision with
    | none => exact ⟨x.char,_,by simp [fields,hw,hp]; rfl,fun _ => x.char_ne_minus,hne⟩
    | some ys => exact ⟨x.char,_,by simp [fields,hw,hp]; rfl,fun _ => x.char_ne_minus,hne⟩

lemma readFlag_zero (hwf : d.Flagged) :
    readFlag 48 ((if d.zero then [48] else [])++(d.fields++c::rest)) =
      .ok (d.zero,d.fields++c::rest) := by
  obtain ⟨x,xs,hx,-,hz⟩ := d.fields_head hc rest
  cases h0 : d.zero with
  | true => exact readFlag_set 48 _
  | false =>
    rw [hx]
    exact readFlag_unset (hz (hwf h0)) xs

lemma readFlag_left :
    readFlag 45 (d.body++c::rest) =
      .ok (d.leftAlign,(if d.zero then [48] else [])++(d.fields++c::rest)) := by
  obtain ⟨x,xs,hx,hm,-⟩ := d.fields_head hc rest
  rw [body,List.append_assoc,List.append_assoc]
  cases hl : d.leftAlign with
  | true => exact readFlag_set 45 _
  | false =>
    cases h0 : d.zero with
    | true => exact readFlag_unset (by decide) _
    | false =>
      simp only [Bool.false_eq_true,if_false,List.nil_append]
      rw [hx]
      exact readFlag_unset (hm fun hf => hc.2.2.2 (by simp [body,hl,h0,hf])) xs

omit hc in
/-- The command that a directive stands for, given its numbers and its letter. -/
def command (w p : ℕ) (letter : UInt8) : Command :=
  ⟨d.leftAlign,if d.zero then 48 else 32,w,p,letter⟩

/-- Reading a directive that ends with any character: flags, width and precision are those of the
directive, and the character goes on to the modifier. -/
theorem readCommand_body (hwf : d.Flagged) (ap : List Arg) :
    readCommand (d.body++c::rest) ap =
      fieldValue d.width ap 0 >>= fun r => fieldValue (d.precision.getD []) r.2 0 >>= fun r' =>
        readLong c rest >>= fun q => .ok (d.command r.1 r'.1 q.1,q.2,r'.2) := by
  have ⟨hd,hs,hp,_⟩ := hc
  unfold readCommand
  rw [d.readFlag_left hc rest,ok_bind]
  dsimp only
  rw [d.readFlag_zero hc rest hwf,ok_bind]
  dsimp only
  cases hprec : d.precision with
  | none =>
    rw [fields,hprec]
    dsimp only
    rw [readField_render d.width hd hs]
    cases h : fieldValue d.width ap 0 with
    | error e => rfl
    | ok r =>
      simp only [ok_bind,if_neg (hp hprec),pure_bind,Option.getD_none,fieldValue]
      rfl
  | some xs =>
    rw [fields,hprec]
    dsimp only
    rw [List.append_assoc,List.cons_append,readField_render d.width (by decide) (by decide)]
    cases h : fieldValue d.width ap 0 with
    | error e => rfl
    | ok r =>
      simp only [ok_bind,if_true,Option.getD_some]
      rw [readField_render xs hd hs]
      cases h' : fieldValue xs r.2 0 with
      | error e => rfl
      | ok r' => rfl

end Directive

lemma Modifier.stops (x : Modifier) (d : Directive) : d.Stops x.char := by
  cases x <;> simp [Directive.Stops,char]

lemma Modifier.readLong_letter (x : Modifier) {c : UInt8} (hc : c ≠ 0) (rest : List UInt8) :
    readLong x.char (c::rest) = .ok (c,rest) := by
  cases x <;> simp [readLong,char,peek,hc,pure_eq_ok]

/-- Reading a whole directive. -/
lemma Directive.readCommand_render (d : Directive) (hwf : d.WellFormed) (rest : List UInt8)
    (ap : List Arg) :
    readCommand (d.body++((d.modifier.map (·.char)).toList++d.letter::rest)) ap =
      fieldValue d.width ap 0 >>= fun r => fieldValue (d.precision.getD []) r.2 0 >>= fun r' =>
        .ok (d.command r.1 r'.1 d.letter,rest,r'.2) := by
  obtain ⟨hf,h0,hl⟩ := hwf
  cases hmod : d.modifier with
  | some x =>
    have h := d.readCommand_body (x.stops d) (d.letter::rest) hf ap
    rw [x.readLong_letter h0] at h
    exact h
  | none =>
    obtain ⟨hs,h108,h76⟩ := hl hmod
    have h := d.readCommand_body hs rest hf ap
    rw [readLong,if_neg (by simp [h108,h76])] at h
    exact h

/-! ### Printing a directive -/

/-- All digits of a number, at any place of the buffer. -/
lemma chLtoa_eq {radix n : ℕ} (hr : 8 ≤ radix) (hn : n < 2^32) (p : ℕ) (m : Bytes) :
    Yields (chLtoa p n radix m) fun r => r.1 = p+(radixText radix n).length ∧
      walk (·+1) r.2 (radixText radix n).length p = radixText radix n ∧
      ∀ a, a < p → r.2 a = m a := by
  refine (longToString_yields (k := digitCount radix n) n 0 (by omega) (by rw [if_pos rfl])
    (digitCount_long_le hr hn) p m).mono ?_
  rintro r ⟨h1,h2,h3⟩
  exact ⟨by simpa [radixText] using h1,by simpa [radixText] using h2,fun a ha => h3 a (.inl ha)⟩

lemma convertUnsigned_eq {radix : ℕ} (hr : 8 ≤ radix) (v : BitVec 32) (m : Bytes) :
    convertUnsigned v radix m = .ok (radixText radix v.toNat) := by
  obtain ⟨r,hout,h1,h2,-⟩ := chLtoa_eq hr v.isLt 0 m
  rw [convertUnsigned,hout,ok_bind]
  change Except.ok (walk (·+1) r.2 r.1 0) = _
  rw [h1,zero_add,h2]

lemma convertSigned_eq (v : BitVec 32) (m : Bytes) :
    convertSigned v m = .ok (signedText v.toInt) := by
  have hlt := v.isLt
  unfold convertSigned signedText
  cases hm : v.msb with
  | true =>
    have hge := BitVec.toNat_ge_of_msb_true hm
    have hint : v.toInt = v.toNat-2^32 := by rw [BitVec.toInt_eq_msb_cond,if_pos hm]; rfl
    have habs : (-v).toNat = v.toInt.natAbs := by
      rw [BitVec.toNat_neg,hint]
      omega
    obtain ⟨r,hout,h1,h2,h3⟩ := chLtoa_eq (show 8 ≤ 10 by norm_num) (-v).isLt 1
      (Function.update m 0 45)
    simp only [if_true]
    rw [hout,ok_bind,if_pos (by omega),← habs]
    change Except.ok (walk (·+1) r.2 r.1 0) = _
    rw [h1,walk_add,h2,walk,walk,h3 0 (by omega)]
    rfl
  | false =>
    have hint : v.toInt = v.toNat := by rw [BitVec.toInt_eq_msb_cond,if_neg (by simp [hm])]
    obtain ⟨r,hout,h1,h2,-⟩ := chLtoa_eq (show 8 ≤ 10 by norm_num) v.isLt 0 m
    simp only [Bool.false_eq_true,if_false]
    rw [hout,ok_bind,if_neg (by omega),List.nil_append,hint,Int.natAbs_natCast]
    change Except.ok (walk (·+1) r.2 r.1 0) = _
    rw [h1,zero_add,h2]

lemma convertFloat_eq_floatText (x : ℚ) (precision : ℕ) (m : Bytes) :
    convertFloat x precision m = floatText x precision := by
  unfold floatText
  split
  · rename_i hx
    exact convertFloat_eq hx precision m
  · rename_i hx
    exact convertFloat_overflow (not_lt.mp hx) precision m

/-- The conversions in the scratch buffer print what the commands stand for. -/
theorem convert_eq (cmd : Command) (ap : List Arg) (m : Bytes) :
    convert cmd ap m = commandText cmd.letter cmd.filler cmd.precision ap := by
  unfold convert commandText
  simp only [convertSigned_eq,convertFloat_eq_floatText,
    convertUnsigned_eq (show 8 ≤ 16 by norm_num),convertUnsigned_eq (show 8 ≤ 10 by norm_num),
    convertUnsigned_eq (show 8 ≤ 8 by norm_num),ok_bind]

namespace Output

@[simp] lemma putAll_nil (o : Output) : o.putAll [] = o := rfl

@[simp] lemma putAll_cons (o : Output) (b : UInt8) (bs : List UInt8) :
    o.putAll (b::bs) = (o.put b).putAll bs := rfl

lemma putAll_append (o : Output) (bs cs : List UInt8) :
    o.putAll (bs++cs) = (o.putAll bs).putAll cs := List.foldl_append ..

lemma putAll_eq (o : Output) (bs : List UInt8) :
    o.putAll bs = ⟨o.bytes++bs,o.n+bs.length⟩ := by
  induction bs generalizing o with
  | nil => simp
  | cons b bs ih =>
    rw [putAll_cons,ih]
    simp [put]
    omega

end Output

lemma putField_eq (leftAlign : Bool) (filler : UInt8) (width : ℕ) (s : List UInt8) (o : Output) :
    putField leftAlign filler width s o = o.putAll (padTo leftAlign filler width s) := by
  unfold putField padTo
  cases leftAlign with
  | true => simp [Output.putAll_append]
  | false =>
    simp only [Bool.false_eq_true,if_false]
    by_cases hp : width-s.length = 0
    · rw [if_neg (not_not.mpr hp),hp]
      by_cases hs : s.head? = some 45 ∧ filler = 48
      · obtain ⟨c,t,rfl⟩ : ∃ c t, s = c::t := by cases s with
          | nil => simp at hs
          | cons c t => exact ⟨c,t,rfl⟩
        obtain rfl : c = 45 := by simpa using hs.1
        simp [hs.2]
      · simp [hs]
    · rw [if_pos hp]
      by_cases hs : s.head? = some 45 ∧ filler = 48
      · simp only [if_pos hs,Output.putAll_cons,Output.putAll_append]
      · simp only [if_neg hs,Output.putAll_append]

/-! ### Whole formats -/

/-- One round of the loop on a directive. -/
lemma formatLoop_directive (d : Directive) (hwf : d.WellFormed) (m : Bytes) (rounds : ℕ)
    (rest : List UInt8) (ap : List Arg) (o : Output) :
    formatLoop m (rounds+1) (d.render++rest) ap o =
      d.output ap >>= fun r => formatLoop m rounds rest r.2 (o.putAll r.1) := by
  rw [Directive.render,Directive.stem,List.append_assoc,List.cons_append,List.append_assoc,
    List.singleton_append,formatLoop,if_neg (by decide),if_neg (by decide),
    d.readCommand_render hwf rest ap,Directive.output]
  cases h1 : fieldValue d.width ap 0 with
  | error e => rfl
  | ok r =>
    cases h2 : fieldValue (d.precision.getD []) r.2 0 with
    | error e => simp [h2]
    | ok r' =>
      simp only [ok_bind,h2,convert_eq,Directive.command]
      cases h3 : commandText d.letter (if d.zero then 48 else 32) r'.1 r'.2 with
      | error e => rfl
      | ok t => simp [putField_eq,pure_eq_ok]

/-- The loop prints the items one after the other, a round for each. -/
theorem formatLoop_items (m : Bytes) {items : List Item} (hwf : ∀ x ∈ items, x.WellFormed)
    (rounds : ℕ) (rest : List UInt8) (ap : List Arg) (o : Output) :
    formatLoop m (items.length+rounds) (renderAll items++rest) ap o =
      Item.outputAll items ap >>= fun r => formatLoop m rounds rest r.2 (o.putAll r.1) := by
  induction items generalizing ap o with
  | nil => simp [renderAll,Item.outputAll]
  | cons x xs ih =>
    have hx := hwf x (by simp)
    have hxs := ih fun y hy => hwf y (by simp [hy])
    have hsplit : renderAll (x::xs)++rest = x.render++(renderAll xs++rest) := by
      simp [renderAll]
    rw [hsplit,List.length_cons,show xs.length+1+rounds = xs.length+rounds+1 by omega]
    cases x with
    | plain c =>
      obtain ⟨h0,h37⟩ := hx
      rw [Item.render,List.singleton_append,formatLoop,if_neg h0,if_pos h37,hxs]
      cases h : Item.outputAll xs ap with
      | error e => simp [Item.outputAll,Item.output,h]
      | ok r => simp [Item.outputAll,Item.output,h,pure_eq_ok]
    | directive d =>
      rw [Item.render,formatLoop_directive d hx]
      cases h : d.output ap with
      | error e => simp [Item.outputAll,Item.output,h]
      | ok r =>
        rw [ok_bind,hxs]
        cases h' : Item.outputAll xs r.2 with
        | error e => simp [Item.outputAll,Item.output,h,h']
        | ok r' => simp [Item.outputAll,Item.output,h,h',pure_eq_ok,Output.putAll_append]

lemma Item.render_length_pos (x : Item) : 0 < x.render.length := by
  cases x <;> simp [Item.render,Directive.render]

lemma length_le_renderAll (items : List Item) : items.length ≤ (renderAll items).length := by
  induction items with
  | nil => simp
  | cons x xs ih =>
    have hx := x.render_length_pos
    simp only [renderAll,List.flatMap_cons,List.length_append,List.length_cons] at ih ⊢
    omega

/-- The rounds are enough for what comes after the items. -/
lemma chvprintf_items (m : Bytes) {items : List Item} (hwf : ∀ x ∈ items, x.WellFormed)
    (rest : List UInt8) (ap : List Arg) : ∃ rounds, rest.length ≤ rounds ∧
      chvprintf m (renderAll items++rest) ap =
        Item.outputAll items ap >>= fun r =>
          formatLoop m rounds rest r.2 ⟨r.1,r.1.length⟩ := by
  have hle := length_le_renderAll items
  refine ⟨(renderAll items).length-items.length+rest.length,by omega,?_⟩
  rw [chvprintf,show (renderAll items++rest).length =
    items.length+((renderAll items).length-items.length+rest.length) by
      rw [List.length_append]
      omega,formatLoop_items m hwf]
  simp only [Output.putAll_eq,List.nil_append,zero_add]

lemma chvprintf_render (m : Bytes) {items : List Item} (hwf : ∀ x ∈ items, x.WellFormed)
    (ap : List Arg) :
    chvprintf m (renderAll items++[0]) ap =
      Item.outputAll items ap >>= fun r => .ok ⟨r.1,r.1.length⟩ := by
  obtain ⟨rounds,hr,he⟩ := chvprintf_items m hwf [0] ap
  obtain ⟨k,rfl⟩ := Nat.exists_eq_add_of_le' hr
  rw [he]
  rfl

lemma Modifier.readLong_end (x : Modifier) : readLong x.char [0] = .ok (x.char,[0]) := by
  cases x <;> rfl

lemma Modifier.commandText_eq (x : Modifier) (filler : UInt8) (p : ℕ) (ap : List Arg) :
    commandText x.char filler p ap = .ok (filler,[x.char],ap) := by
  cases x <;> simp [commandText,char]

lemma chvprintf_stem (m : Bytes) {items : List Item} (hwf : ∀ x ∈ items, x.WellFormed)
    {d : Directive} (hf : d.Flagged) (ap : List Arg) :
    chvprintf m (renderAll items++d.stem++[0]) ap =
      Item.outputAll items ap >>= fun r => d.cutOff r.2 >>= fun s =>
        .ok ⟨r.1++s,(r.1++s).length⟩ := by
  rw [List.append_assoc]
  obtain ⟨rounds,hr,he⟩ := chvprintf_items m hwf (d.stem++[0]) ap
  obtain ⟨k,rfl⟩ : ∃ k, rounds = k+1+1 := by
    refine ⟨rounds-2,?_⟩
    simp only [Directive.stem,List.length_append,List.length_cons] at hr
    omega
  rw [he]
  congr 1
  funext r
  rw [Directive.stem,List.cons_append,formatLoop,if_neg (by decide),if_neg (by decide),
    List.append_assoc,Directive.cutOff]
  cases hmod : d.modifier with
  | some x =>
    rw [Option.map_some,Option.toList_some,List.singleton_append,
      d.readCommand_body (x.stops d) [0] hf]
    cases hw : fieldValue d.width r.2 0 with
    | error e => rfl
    | ok w =>
      cases hp : fieldValue (d.precision.getD []) w.2 0 with
      | error e => simp [hp]
      | ok q =>
        simp [hp,x.readLong_end,x.commandText_eq,convert_eq,Directive.command,putField_eq,
          formatLoop,Output.putAll_eq]
  | none =>
    have hstop : d.Stops 0 := by simp [Directive.Stops]
    rw [Option.map_none,Option.toList_none,List.nil_append,d.readCommand_body hstop [] hf]
    cases hw : fieldValue d.width r.2 0 with
    | error e => rfl
    | ok w =>
      cases hp : fieldValue (d.precision.getD []) w.2 0 with
      | error e => simp [hp]
      | ok q => simp [hp,convert_eq,Directive.command,readLong,commandText,formatLoop]

/-- A format prints what its items stand for, in order and with the arguments in order. -/
lemma chvprintf_text (f : Format) (m : Bytes) (ap : List Arg) :
    chvprintf m (f.text++[0]) ap = f.output ap := by
  unfold Format.text Format.output
  cases hcut : f.cut with
  | none =>
    rw [Option.elim_none,List.append_nil]
    exact chvprintf_render m f.wellFormed ap
  | some d => exact chvprintf_stem m f.wellFormed (f.flagged d hcut) ap

/-! ### Every format -/

lemma FieldChar.exists_char {c : UInt8} (h : (48 ≤ c ∧ c ≤ 57) ∨ c = 42) :
    ∃ x : FieldChar, x.char = c := by
  rcases h with ⟨h1,h2⟩ | rfl
  · have h1 : 48 ≤ c.toNat := UInt8.le_iff_toNat_le.mp h1
    have h2 : c.toNat ≤ 57 := UInt8.le_iff_toNat_le.mp h2
    refine ⟨.digit ⟨c.toNat-48,by omega⟩,?_⟩
    simp only [char,Nat.sub_add_cancel h1,UInt8.ofNat_toNat]
  · exact ⟨.star,rfl⟩

/-- A flag, there or not, and the text after it. -/
lemma exists_flag (flag : UInt8) (xs : List UInt8) :
    ∃ (b : Bool) (ys : List UInt8), xs = (if b then [flag] else [])++ys ∧
      (b = false → ys.head? ≠ some flag) := by
  by_cases h : xs.head? = some flag
  · obtain ⟨ys,rfl⟩ := List.head?_eq_some_iff.mp h
    exact ⟨true,ys,rfl,by simp⟩
  · exact ⟨false,xs,rfl,fun _ => h⟩

/-- A width or a precision of any length, and the text after it. -/
lemma exists_field (xs : List UInt8) :
    ∃ (fs : List FieldChar) (ys : List UInt8), xs = fs.map (·.char)++ys ∧
      ∀ c, ys.head? = some c → ¬ (48 ≤ c ∧ c ≤ 57) ∧ c ≠ 42 := by
  induction xs with
  | nil => exact ⟨[],[],rfl,by simp⟩
  | cons c xs ih =>
    by_cases h : (48 ≤ c ∧ c ≤ 57) ∨ c = 42
    · obtain ⟨x,rfl⟩ := FieldChar.exists_char h
      obtain ⟨fs,ys,rfl,hys⟩ := ih
      exact ⟨x::fs,ys,rfl,hys⟩
    · refine ⟨[],c::xs,rfl,?_⟩
      rintro _ ⟨rfl⟩
      exact not_or.mp h

/-- A precision, there or not. -/
lemma exists_precision {xs : List UInt8}
    (hxs : ∀ c, xs.head? = some c → ¬ (48 ≤ c ∧ c ≤ 57) ∧ c ≠ 42) :
    ∃ (p : Option (List FieldChar)) (ys : List UInt8),
      xs = (p.elim [] fun fs => 46::fs.map (·.char))++ys ∧
      ∀ c, ys.head? = some c → ¬ (48 ≤ c ∧ c ≤ 57) ∧ c ≠ 42 ∧ (p = none → c ≠ 46) := by
  by_cases h : xs.head? = some 46
  · obtain ⟨zs,rfl⟩ := List.head?_eq_some_iff.mp h
    obtain ⟨fs,ys,rfl,hys⟩ := exists_field zs
    refine ⟨some fs,ys,rfl,fun c hc => ⟨(hys c hc).1,(hys c hc).2,by simp⟩⟩
  · refine ⟨none,xs,rfl,fun c hc => ⟨(hxs c hc).1,(hxs c hc).2,?_⟩⟩
    rintro - rfl
    exact h hc

lemma Directive.fields_eq (d : Directive) :
    d.fields = d.width.map (·.char)++d.precision.elim [] fun fs => 46::fs.map (·.char) := by
  unfold fields
  cases d.precision with
  | none => simp
  | some xs => rfl

/-- Every text begins with flags, a width and a precision, which may all be missing. -/
lemma exists_body (xs : List UInt8) :
    ∃ (d : Directive) (ys : List UInt8), d.Flagged ∧ d.modifier = none ∧ xs = d.body++ys ∧
      ∀ c, ys.head? = some c → d.Stops c := by
  obtain ⟨left,xs1,rfl,h1⟩ := exists_flag 45 xs
  obtain ⟨zero,xs2,rfl,h2⟩ := exists_flag 48 xs1
  obtain ⟨width,xs3,rfl,h3⟩ := exists_field xs2
  obtain ⟨precision,ys,rfl,h4⟩ := exists_precision h3
  let d : Directive := ⟨left,zero,width,precision,none,0⟩
  refine ⟨d,ys,?_,rfl,?_,?_⟩
  · intro hzero hwidth
    obtain ⟨ws,hws⟩ := List.head?_eq_some_iff.mp hwidth
    exact h2 hzero (by simp [show width = _ from hws,FieldChar.char])
  · simp [Directive.body,d.fields_eq,d]
  · intro c hc
    obtain ⟨hd,hs,hp⟩ := h4 c hc
    refine ⟨hd,hs,hp,?_⟩
    rintro hbody rfl
    simp only [Directive.body,d.fields_eq,d,List.append_eq_nil_iff] at hbody
    obtain ⟨hleft,hzero,hwidth,hprecision⟩ := hbody
    have hl : left = false := by simpa using hleft
    exact h1 hl (by simp [hzero,hwidth,hprecision,hc])

/-- A percent sign begins a whole directive or one that the format cuts off. -/
lemma exists_directive (xs : List UInt8) (h0 : ∀ c ∈ xs, c ≠ 0) :
    (∃ d ys, Directive.WellFormed d ∧ 37::xs = d.render++ys) ∨
      ∃ d, Directive.Flagged d ∧ 37::xs = d.stem := by
  obtain ⟨d,ys,hf,hm,rfl,hs⟩ := exists_body xs
  cases ys with
  | nil => exact .inr ⟨d,hf,by simp [Directive.stem,hm]⟩
  | cons c ys =>
    by_cases hx : ∃ x : Modifier, x.char = c
    · obtain ⟨x,rfl⟩ := hx
      cases ys with
      | nil => exact .inr ⟨{ d with modifier := some x },hf,rfl⟩
      | cons e ys =>
        refine .inl ⟨{ d with modifier := some x, letter := e },ys,⟨hf,h0 e (by simp),by simp⟩,?_⟩
        simp [Directive.render,Directive.stem,Directive.body,Directive.fields]
    · refine .inl ⟨{ d with letter := c },ys,⟨hf,h0 c (by simp),fun _ => ⟨hs c rfl,?_,?_⟩⟩,?_⟩
      · rintro rfl
        exact hx ⟨.l,rfl⟩
      · rintro rfl
        exact hx ⟨.L,rfl⟩
      · simp [Directive.render,Directive.stem,Directive.body,Directive.fields,hm]

/-- An item before a format. -/
def Format.cons (x : Item) (hx : x.WellFormed) (f : Format) : Format :=
  ⟨x::f.items,f.cut,List.forall_mem_cons.mpr ⟨hx,f.wellFormed⟩,f.flagged⟩

lemma Format.text_cons (x : Item) (hx : x.WellFormed) (f : Format) :
    (f.cons x hx).text = x.render++f.text := by
  simp [cons,text,renderAll]

/-- Every text is a format. -/
theorem exists_format (fmt : List UInt8) (h0 : ∀ c ∈ fmt, c ≠ 0) : ∃ f : Format, f.text = fmt := by
  -- a directive takes any number of characters, so the induction is on the length
  induction hn : fmt.length using Nat.strong_induction_on generalizing fmt with
  | _ n ih =>
    have hcons : ∀ x : Item, x.WellFormed → ∀ ys, fmt = x.render++ys → ∃ f : Format, f.text = fmt := by
      rintro x hx ys rfl
      have hlt : ys.length < n := by
        have := x.render_length_pos
        rw [← hn,List.length_append]
        omega
      obtain ⟨f,rfl⟩ := ih ys.length hlt ys (fun c hc => h0 c (by simp [hc])) rfl
      exact ⟨f.cons x hx,f.text_cons x hx⟩
    cases fmt with
    | nil => exact ⟨.whole [] (by simp),rfl⟩
    | cons c xs =>
      by_cases hc : c = 37
      · subst hc
        rcases exists_directive xs (fun c hc => h0 c (by simp [hc])) with
          ⟨d,ys,hd,hys⟩ | ⟨d,hf,hd⟩
        · exact hcons (.directive d) hd ys hys
        · exact ⟨⟨[],some d,by simp,by simpa using hf⟩,hd.symm⟩
      · exact hcons (.plain c) ⟨h0 c (by simp),hc⟩ xs rfl

lemma pushDigit_ne_overread (w c : ℕ) : pushDigit w c ≠ .error .overread := by
  unfold pushDigit
  split <;> simp

lemma takeInt_ne_overread (ap : List Arg) : Arg.takeInt ap ≠ .error .overread := by
  unfold Arg.takeInt
  split <;> simp

lemma takeFloat_ne_overread (ap : List Arg) : Arg.takeFloat ap ≠ .error .overread := by
  unfold Arg.takeFloat
  split <;> simp

lemma takeString_ne_overread (ap : List Arg) : Arg.takeString ap ≠ .error .overread := by
  unfold Arg.takeString
  split <;> simp

lemma fieldValue_ne_overread (fs : List FieldChar) (ap : List Arg) (w : ℕ) :
    fieldValue fs ap w ≠ .error .overread := by
  induction fs generalizing ap w with
  | nil => simp [fieldValue]
  | cons x fs ih =>
    cases x with
    | digit d => exact bind_ne_error (pushDigit_ne_overread w d.val) fun w' => ih ap w'
    | star =>
      refine bind_ne_error (takeInt_ne_overread ap) fun r => ?_
      exact bind_ne_error (pushDigit_ne_overread w _) fun w' => ih r.2 w'

lemma floatText_ne_overread (x : ℚ) (precision : ℕ) : floatText x precision ≠ .error .overread := by
  unfold floatText
  split <;> simp

lemma commandText_ne_overread (letter filler : UInt8) (precision : ℕ) (ap : List Arg) :
    commandText letter filler precision ap ≠ .error .overread := by
  have hint : ∀ f : BitVec 32 × List Arg → UInt8 × List UInt8 × List Arg,
      (Arg.takeInt ap >>= fun r => pure (f r)) ≠ .error .overread :=
    fun f => bind_ne_error (takeInt_ne_overread ap) fun r => by simp [pure_eq_ok]
  unfold commandText
  split_ifs
  · exact hint _
  · exact bind_ne_error (takeString_ne_overread ap) fun r => by simp [pure_eq_ok]
  · exact hint _
  · refine bind_ne_error (takeFloat_ne_overread ap) fun r => ?_
    exact bind_ne_error (floatText_ne_overread _ _) fun s => by simp [pure_eq_ok]
  · exact hint _
  · exact hint _
  · exact hint _
  · simp

lemma Item.output_ne_overread (x : Item) (ap : List Arg) : x.output ap ≠ .error .overread := by
  cases x with
  | plain c => simp [output]
  | directive d =>
    refine bind_ne_error (fieldValue_ne_overread d.width ap 0) fun w => ?_
    refine bind_ne_error (fieldValue_ne_overread _ w.2 0) fun p => ?_
    exact bind_ne_error (commandText_ne_overread _ _ _ _) fun s => by simp [pure_eq_ok]

lemma Item.outputAll_ne_overread (items : List Item) (ap : List Arg) :
    outputAll items ap ≠ .error .overread := by
  induction items generalizing ap with
  | nil => simp [outputAll]
  | cons x xs ih =>
    refine bind_ne_error (x.output_ne_overread ap) fun r => ?_
    exact bind_ne_error (ih r.2) fun r' => by simp [pure_eq_ok]

lemma Directive.cutOff_eq_overread_iff (d : Directive) (ap : List Arg) :
    d.cutOff ap = .error .overread ↔ d.modifier = none ∧ ∃ w p,
      fieldValue d.width ap 0 = .ok w ∧ fieldValue (d.precision.getD []) w.2 0 = .ok p := by
  constructor
  · intro h
    obtain ⟨w,hw,h⟩ := exists_of_bind_eq_error (fieldValue_ne_overread d.width ap 0) h
    obtain ⟨p,hp,h⟩ := exists_of_bind_eq_error (fieldValue_ne_overread _ w.2 0) h
    cases hmod : d.modifier with
    | none => exact ⟨rfl,w,p,hw,hp⟩
    | some x => simp [hmod,pure_eq_ok] at h
  · rintro ⟨hmod,w,p,hw,hp⟩
    simp only [cutOff,hw,hp,hmod,ok_bind]

/-- On any format, `chvprintf` reads after the terminator if and only if the format ends inside a
directive, before its modifier, and the items and numbers up to that can be printed and read. -/
theorem chvprintf_overreads_iff (m : Bytes) {fmt : List UInt8} (h0 : ∀ c ∈ fmt, c ≠ 0)
    (ap : List Arg) :
    chvprintf m (fmt++[0]) ap = .error .overread ↔
      ∃ (f : Format) (d : Directive), f.text = fmt ∧ f.cut = some d ∧ d.modifier = none ∧
        ∃ s ap' w p, Item.outputAll f.items ap = .ok (s,ap') ∧
          fieldValue d.width ap' 0 = .ok w ∧ fieldValue (d.precision.getD []) w.2 0 = .ok p := by
  constructor
  · intro hover
    obtain ⟨f,rfl⟩ := exists_format fmt h0
    rw [chvprintf_text] at hover
    obtain ⟨⟨s,ap'⟩,hout,hover⟩ :=
      exists_of_bind_eq_error (Item.outputAll_ne_overread f.items ap) hover
    cases hcut : f.cut with
    | none => simp [hcut,pure_eq_ok] at hover
    | some d =>
      simp only [hcut] at hover
      have hd : d.cutOff ap' = .error .overread := by
        by_contra hne
        exact bind_ne_error hne (fun t => by simp [pure_eq_ok]) hover
      obtain ⟨hmod,w,p,hw,hp⟩ := (d.cutOff_eq_overread_iff ap').mp hd
      exact ⟨f,d,rfl,hcut,hmod,s,ap',w,p,hout,hw,hp⟩
  · rintro ⟨f,d,rfl,hcut,hmod,s,ap',w,p,hout,hw,hp⟩
    have hd := (d.cutOff_eq_overread_iff ap').mpr ⟨hmod,w,p,hw,hp⟩
    rw [chvprintf_text,Format.output,hout,ok_bind,hcut]
    dsimp only
    rw [hd,error_bind]

/-- The format `a%5`, and `a%*` without an argument. -/
theorem chvprintf_overreads_iff_width :
    chvprintf (fun _ => 0) ([97,37,53]++[0]) [] = .error .overread ∧
      ¬ ∃ (f : Format) (d : Directive), f.text = [97,37,42] ∧ f.cut = some d ∧
        d.modifier = none ∧ ∃ s ap' w p, Item.outputAll f.items [] = .ok (s,ap') ∧
          fieldValue d.width ap' 0 = .ok w ∧ fieldValue (d.precision.getD []) w.2 0 = .ok p := by
  let d : Directive := ⟨false,false,[.digit 5],none,none,0⟩
  let f : Format := ⟨[.plain 97],some d,by decide,by
    rintro _ ⟨rfl⟩
    decide⟩
  constructor
  · exact (chvprintf_overreads_iff _ (by simp) []).mpr
      ⟨f,d,by decide,rfl,rfl,[97],[],(5,[]),(0,[]),rfl,rfl,rfl⟩
  · intro h
    have h := (chvprintf_overreads_iff (fun _ => 0) (by simp) []).mpr h
    exact absurd h (by decide +kernel)

end DspLibrary.Chibios
