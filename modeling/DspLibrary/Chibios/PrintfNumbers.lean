import DspLibrary.Foundation.Numerals
import DspLibrary.Chibios.Printf

/-! The number conversions of `chvprintf`: what their digits stand for, and which cells of the
scratch buffer they touch. -/
namespace DspLibrary.Chibios
open DspLibrary.Foundation

/-! ### Reading digits -/

/-- The value of a digit character. -/
def digitValue (c : UInt8) : ℕ := if c ≤ 57 then c.toNat-48 else c.toNat-55

lemma digitValue_digitChar {d : ℕ} (hd : d < 36) : digitValue (digitChar d) = d := by
  interval_cases d <;> rfl

lemma digitChar_ne_point {d : ℕ} (hd : d < 36) : digitChar d ≠ 46 := by
  interval_cases d <;> decide

lemma digitChar_ne_minus {d : ℕ} (hd : d < 36) : digitChar d ≠ 45 := by
  interval_cases d <;> decide

lemma digitChar_ne_blank {d : ℕ} (hd : d < 36) : digitChar d ≠ 32 := by
  interval_cases d <;> decide

/-- The number that a text of digits stands for. -/
def readText (radix : ℕ) (s : List UInt8) : ℕ := numeralValue radix (s.map digitValue)

/-- The text of the last `k` digits. -/
def digitText (radix k n : ℕ) : List UInt8 := (numeral radix k n).map digitChar

@[simp] lemma digitText_length (radix k n : ℕ) : (digitText radix k n).length = k := by
  simp [digitText]

lemma exists_digit_of_mem {radix k n : ℕ} (hr : 0 < radix) (hr' : radix ≤ 36) {c : UInt8}
    (hc : c ∈ digitText radix k n) : ∃ d < 36, digitChar d = c := by
  obtain ⟨d,hd,rfl⟩ := List.mem_map.mp hc
  exact ⟨d,(numeral_lt hr k n d hd).trans_le hr',rfl⟩

theorem readText_digitText {radix : ℕ} (hr : 0 < radix) (hr' : radix ≤ 36) (k n : ℕ) :
    readText radix (digitText radix k n) = n%radix^k := by
  rw [readText,digitText,List.map_map,← numeralValue_numeral]
  congr 1
  conv_rhs => rw [← List.map_id (numeral radix k n)]
  exact List.map_congr_left fun d hd =>
    digitValue_digitChar ((numeral_lt hr k n d hd).trans_le hr')

/-! ### The loops -/

lemma iterate_add_one (i p : ℕ) : (fun n => n+1)^[i] p = p+i := by
  induction i with
  | zero => rfl
  | succ i ih => rw [Function.iterate_succ_apply',ih]; rfl

/-- Text that was not written to. -/
lemma walk_eq_of_agree {m m' : Bytes} {p k : ℕ} (h : ∀ a, p ≤ a → a < p+k → m a = m' a) :
    walk (·+1) m k p = walk (·+1) m' k p := by
  refine walk_congr fun i hi => ?_
  rw [iterate_add_one]
  exact h _ (by omega) (by omega)

lemma walk_add (m : Bytes) (j k p : ℕ) :
    walk (·+1) m (j+k) p = walk (·+1) m j p++walk (·+1) m k (p+j) := by
  induction j generalizing p with
  | zero => simp [walk]
  | succ j ih =>
    rw [show j+1+k = j+k+1 by omega,walk,walk,ih,List.cons_append,
      show p+(j+1) = p+1+j by omega]

theorem storeDigits_yields {radix : ℕ} (hr : 1 < radix) (rounds q l ll : ℕ) (m : Bytes)
    (hrounds : digitCount radix ll ≤ rounds) (hq : digitCount radix ll ≤ q) :
    Yields (storeDigits radix rounds q l ll m) fun r =>
      r.1 = q-digitCount radix ll ∧
      walk (·+1) r.2 (digitCount radix ll) (q-digitCount radix ll) =
        digitText radix (digitCount radix ll) l ∧
      ∀ a, a < q-digitCount radix ll ∨ q ≤ a → r.2 a = m a := by
  induction rounds generalizing q l ll m with
  | zero => simp [digitCount] at hrounds
  | succ rounds ih =>
    rw [storeDigits]
    by_cases h : ll/radix = 0
    · rw [if_neg (not_not.mpr h)]
      rw [digitCount_of_div_eq_zero hr h] at hq ⊢
      refine .ok ⟨rfl,?_,fun a ha => ?_⟩
      · simp [walk,digitText,numeral]
      · exact Function.update_of_ne (by omega) _ _
    · rw [if_pos h]
      rw [digitCount_of_div_ne_zero hr h] at hrounds hq ⊢
      generalize hk : digitCount radix (ll/radix) = k at hrounds hq ⊢
      have hi := ih (q-1) (l/radix) (ll/radix) (Function.update m (q-1) (digitChar (l%radix)))
        (by omega) (by omega)
      rw [hk] at hi
      refine hi.mono fun r hr => ?_
      obtain ⟨hr1,hr2,hr3⟩ := hr
      have he : q-1-k = q-(k+1) := by omega
      rw [he] at hr1 hr2 hr3
      refine ⟨hr1,?_,fun a ha => ?_⟩
      · rw [walk_succ,hr2,iterate_add_one,show q-(k+1)+k = q-1 by omega,hr3 _ (by omega)]
        simp [digitText,numeral]
      · rw [hr3 a (by omega),Function.update_of_ne (by omega)]

theorem moveDown_spec (i : ℕ) {p q : ℕ} (hpq : p ≤ q) (m : Bytes) :
    (moveDown i p q m).1 = p+i ∧
      walk (·+1) (moveDown i p q m).2 i p = walk (·+1) m i q ∧
      ∀ a, a < p ∨ p+i ≤ a → (moveDown i p q m).2 a = m a := by
  induction i generalizing p q m with
  | zero => simp [moveDown,walk]
  | succ i ih =>
    obtain ⟨h1,h2,h3⟩ := ih (show p+1 ≤ q+1 by omega) (Function.update m p (m q))
    rw [moveDown]
    refine ⟨by omega,?_,fun a ha => ?_⟩
    · rw [walk,walk,h2,h3 p (by omega),Function.update_self]
      congr 1
      exact walk_eq_of_agree fun a ha _ => Function.update_of_ne (by omega) _ _
    · rw [h3 a (by omega),Function.update_of_ne (by omega)]

/-- As many digits of the number as the divisor has, or all of them. -/
theorem longToString_yields {radix k : ℕ} (num divisor : ℕ) (hr : 1 < radix)
    (hk : digitCount radix (if divisor = 0 then num else divisor) = k) (hle : k ≤ maxFiller)
    (p : ℕ) (m : Bytes) :
    Yields (longToStringWithDivisor p num radix divisor m) fun r =>
      r.1 = p+k ∧ walk (·+1) r.2 k p = digitText radix k num ∧
      ∀ a, a < p ∨ p+maxFiller ≤ a → r.2 a = m a := by
  unfold longToStringWithDivisor
  have hs := storeDigits_yields hr 32 (p+maxFiller) num (if divisor = 0 then num else divisor) m
    (by rw [hk]; exact hle.trans (by decide)) (by rw [hk]; omega)
  rw [hk] at hs
  refine hs.bind fun r hrs => ?_
  obtain ⟨h1,h2,h3⟩ := hrs
  obtain ⟨h4,h5,h6⟩ := moveDown_spec (p+maxFiller-r.1) (show p ≤ r.1 by omega) r.2
  refine .ret ?_
  rw [show p+maxFiller-r.1 = k by omega] at h4 h5 h6 ⊢
  refine ⟨h4,?_,fun a ha => ?_⟩
  · rw [h5,h1,h2]
  · rw [h6 a (by omega),h3 a (by omega)]

/-- All digits of a `long` in a radix from 8 on. -/
lemma digitCount_long_le {radix num : ℕ} (hr : 8 ≤ radix) (hn : num < 2^32) :
    digitCount radix num ≤ maxFiller := by
  refine digitCount_le (by decide) ?_
  calc num < 2^32 := hn
    _ ≤ 8^11 := by norm_num
    _ ≤ radix^11 := Nat.pow_le_pow_left hr 11

/-- Printed in a radix from 8 to 36, a number is read back from its digits, the first of which is
not zero unless the number is, and no cell outside the `MAX_FILLER` ones is written. -/
theorem chLtoa_reads_back {radix num : ℕ} (hr : 8 ≤ radix) (hr' : radix ≤ 36) (hn : num < 2^32)
    (p : ℕ) (m : Bytes) :
    Yields (chLtoa p num radix m) fun r =>
      ∃ s, r.1 = p+s.length ∧ walk (·+1) r.2 s.length p = s ∧ s.length ≤ maxFiller ∧
        readText radix s = num ∧ (s.head? = some 48 → num = 0 ∧ s = [48]) ∧
        ∀ a, a < p ∨ p+maxFiller ≤ a → r.2 a = m a := by
  have hle := digitCount_long_le hr hn
  refine (longToString_yields num 0 (by omega) rfl hle p m).mono ?_
  rintro r ⟨h1,h2,h3⟩
  refine ⟨digitText radix (digitCount radix num) num,by simpa using h1,by simpa using h2,
    by simpa using hle,?_,fun hz => ?_,h3⟩
  · rw [readText_digitText (by omega) hr',
      Nat.mod_eq_of_lt (lt_pow_digitCount (by omega) num)]
  · by_cases h0 : num = 0
    · subst h0
      exact ⟨rfl,by simp [digitCount,digitText,numeral]; decide⟩
    · obtain ⟨d,ds,hd,hd0⟩ := numeral_head_ne_zero (show 1 < radix by omega) h0
      have hlt := numeral_lt (show 0 < radix by omega) (digitCount radix num) num d (by simp [hd])
      have hv : digitChar d = 48 := by simpa [digitText,hd] using hz
      have := digitValue_digitChar (hlt.trans_le hr')
      rw [hv] at this
      exact absurd this.symm hd0

theorem chLtoa_reads_back_deadbeef :
    Yields (chLtoa 0 0xdeadbeef 16 (fun _ => 0)) fun r =>
      ∃ s, r.1 = 0+s.length ∧ walk (·+1) r.2 s.length 0 = s ∧ s.length ≤ maxFiller ∧
        readText 16 s = 0xdeadbeef ∧ (s.head? = some 48 → 0xdeadbeef = 0 ∧ s = [48]) ∧
        ∀ a, a < 0 ∨ 0+maxFiller ≤ a → r.2 a = (fun _ => 0) a :=
  chLtoa_reads_back (by decide) (by decide) (by decide) 0 (fun _ => 0)

/-! ### Fractions -/

/-- The digits after the point. -/
def fractionDigits (precision : ℕ) : ℕ :=
  if precision = 0 ∨ floatPrecision < precision then floatPrecision else precision

lemma fractionDigits_mem (precision : ℕ) :
    1 ≤ fractionDigits precision ∧ fractionDigits precision ≤ 9 := by
  unfold fractionDigits floatPrecision
  split <;> omega

lemma pow10_getD {k : ℕ} (h : 1 ≤ k ∧ k ≤ 9) : pow10.getD (k-1) 0 = 10^k := by
  obtain ⟨h1,h2⟩ := h
  interval_cases k <;> rfl

lemma digitCount_pow (k : ℕ) : digitCount 10 (10^k) = k+1 := by
  rw [digitCount,Nat.log_pow (by norm_num)]

/-- The text of a number that is not negative, with `k` digits after the point. -/
def fixedText (x : ℚ) (k : ℕ) : List UInt8 :=
  digitText 10 (digitCount 10 ⌊x⌋₊) ⌊x⌋₊++[46]++digitText 10 k ⌊(x-⌊x⌋₊)*10^k⌋₊

lemma digitCount_whole_le {x : ℚ} (hx : x < 2^31) : digitCount 10 ⌊x⌋₊ ≤ 10 := by
  refine digitCount_le (by decide) ?_
  have h : ⌊x⌋₊ < 2^31 := by
    rw [Nat.floor_lt' (by norm_num)]
    exact_mod_cast hx
  exact h.trans_le (by norm_num)

lemma fraction_lt {x : ℚ} (k : ℕ) : (x-⌊x⌋₊)*10^k < 10^k := by
  have h := Nat.lt_floor_add_one x
  have hp : (0 : ℚ) < 10^k := by positivity
  nlinarith

/-- The conversion writes the text and nothing outside two fillers from `p` on. -/
theorem ftoa_yields {x : ℚ} (hx : x < 2^31) (p precision : ℕ) (m : Bytes) :
    Yields (ftoa p x precision m) fun r =>
      r.1 = p+(fixedText x (fractionDigits precision)).length ∧
      walk (·+1) r.2 (fixedText x (fractionDigits precision)).length p =
        fixedText x (fractionDigits precision) ∧
      ∀ a, a < p ∨ p+2*maxFiller ≤ a → r.2 a = m a := by
  obtain ⟨hk1,hk9⟩ := fractionDigits_mem precision
  have hpow := pow10_getD ⟨hk1,hk9⟩
  unfold ftoa
  rw [show (if precision = 0 ∨ floatPrecision < precision then floatPrecision else precision) =
    fractionDigits precision from rfl]
  generalize fractionDigits precision = k at hk1 hk9 hpow ⊢
  have hw := digitCount_whole_le hx
  generalize hj : digitCount 10 ⌊x⌋₊ = j at hw
  simp only [hpow,toLong,if_pos hx,ok_bind]
  have hs := longToString_yields (k := j) ⌊x⌋₊ 0 (show 1 < 10 by norm_num)
    (by rw [if_pos rfl,hj]) (hw.trans (by decide)) p m
  refine hs.bind fun r hr => ?_
  obtain ⟨h1,h2,h3⟩ := hr
  have hlt : (x-⌊x⌋₊)*((10^k : ℕ) : ℚ) < 2^31 := by
    have hp : (10 : ℚ)^k ≤ 10^9 := pow_le_pow_right₀ (by norm_num) hk9
    have := fraction_lt (x := x) k
    push_cast
    linarith
  rw [if_pos hlt,ok_bind]
  have hdiv : 10^k/10 = 10^(k-1) := by
    obtain ⟨j,rfl⟩ := Nat.exists_eq_add_of_le' hk1
    rw [pow_succ,Nat.mul_div_cancel _ (by norm_num),Nat.add_sub_cancel]
  have hcount : digitCount 10 (if 10^k/10 = 0 then ⌊(x-⌊x⌋₊)*((10^k : ℕ) : ℚ)⌋₊ else 10^k/10) =
      k := by
    rw [hdiv,if_neg (by positivity),digitCount_pow]
    omega
  refine (longToString_yields _ _ (by norm_num) hcount (hk9.trans (by decide)) (r.1+1)
    (Function.update r.2 r.1 46)).mono ?_
  rintro r' ⟨h4,h5,h6⟩
  have hlen : (fixedText x k).length = j+1+k := by
    simp only [fixedText,hj,List.length_append,digitText_length,List.length_singleton]
  rw [hlen]
  refine ⟨by omega,?_,fun a ha => ?_⟩
  · rw [walk_add,walk_add,show p+(j+1) = r.1+1 by omega,h5,fixedText,hj]
    congr 2
    · rw [← h2]
      refine walk_eq_of_agree fun a ha ha' => ?_
      rw [h6 a (by omega),Function.update_of_ne (by omega)]
    · simp [walk,← h1,h6 r.1 (by omega)]
    · push_cast
      rfl
  · simp only [maxFiller] at *
    rw [h6 a (by omega),Function.update_of_ne (by omega),h3 a (by omega)]

lemma convertFloat_eq {x : ℚ} (hx : |single x| < 2^31) (precision : ℕ) (m : Bytes) :
    convertFloat x precision m = .ok ((if single x < 0 then [45] else [])++
      fixedText |single x| (fractionDigits precision)) := by
  unfold convertFloat
  generalize single x = f at *
  by_cases h : f < 0
  · rw [abs_of_neg h] at hx ⊢
    simp only [if_pos h]
    obtain ⟨r,hr,h1,h2,h3⟩ := ftoa_yields hx 1 precision (Function.update m 0 45)
    rw [hr,ok_bind,pure_eq_ok,scratch,h1,walk_add,h2,walk,walk,h3 0 (by omega)]
    rfl
  · rw [abs_of_nonneg (not_lt.mp h)] at hx ⊢
    simp only [if_neg h]
    obtain ⟨r,hr,h1,h2,-⟩ := ftoa_yields hx 0 precision m
    rw [hr,ok_bind,pure_eq_ok,scratch,h1,walk_add,h2]
    rfl

/-- A number that does not fit a `long` is not printed. -/
lemma convertFloat_overflow {x : ℚ} (hx : 2^31 ≤ |single x|) (precision : ℕ) (m : Bytes) :
    convertFloat x precision m = .error .overflow := by
  unfold convertFloat
  generalize single x = f at *
  have hov : ∀ p m, ftoa p |f| precision m = .error .overflow := by
    intro p m
    simp only [ftoa,toLong,if_neg (not_lt.mpr hx)]
    rfl
  by_cases h : f < 0
  · rw [abs_of_neg h] at hov
    simp only [if_pos h,hov]
    rfl
  · rw [abs_of_nonneg (not_lt.mp h)] at hov
    simp only [if_neg h,hov]
    rfl

/-- The number that a text with a point stands for. -/
def readUnsigned (s : List UInt8) : ℚ :=
  let whole := s.takeWhile (· ≠ 46)
  let fraction := (s.dropWhile (· ≠ 46)).tail
  readText 10 whole+readText 10 fraction/10^fraction.length

/-- The same with a sign. -/
def readFloat (s : List UInt8) : ℚ :=
  if s.head? = some 45 then -readUnsigned s.tail else readUnsigned s

lemma readUnsigned_append {w f : List UInt8} (hw : ∀ c ∈ w, c ≠ 46) :
    readUnsigned (w++[46]++f) = readText 10 w+readText 10 f/10^f.length := by
  have ht : (w++([46]++f)).takeWhile (· ≠ 46) = w := by
    rw [List.takeWhile_append_of_pos (by simpa using hw)]
    simp
  have hd : (w++([46]++f)).dropWhile (· ≠ 46) = 46::f := by
    rw [List.dropWhile_append_of_pos (by simpa using hw)]
    simp
  rw [List.append_assoc,readUnsigned,ht,hd,List.tail_cons]

lemma digitText_ne_point (k n : ℕ) : ∀ c ∈ digitText 10 k n, c ≠ 46 := by
  intro c hc
  obtain ⟨d,hd,rfl⟩ := exists_digit_of_mem (by norm_num) (by norm_num) hc
  exact digitChar_ne_point hd

lemma readUnsigned_fixedText {x : ℚ} (hx : 0 ≤ x) (k : ℕ) :
    readUnsigned (fixedText x k) = ⌊x*10^k⌋₊/10^k := by
  have hp : (0 : ℚ) < 10^k := by positivity
  have hfrac : ⌊(x-⌊x⌋₊)*10^k⌋₊ < 10^k := by
    rw [Nat.floor_lt' (by positivity)]
    push_cast
    exact fraction_lt k
  have hsplit : ⌊x*10^k⌋₊ = ⌊x⌋₊*10^k+⌊(x-⌊x⌋₊)*10^k⌋₊ := by
    have hnn : 0 ≤ (x-⌊x⌋₊)*10^k := mul_nonneg (sub_nonneg.mpr (Nat.floor_le hx)) hp.le
    rw [add_comm,← Nat.floor_add_natCast hnn]
    congr 1
    push_cast
    ring
  rw [fixedText,readUnsigned_append (digitText_ne_point _ _),
    readText_digitText (by norm_num) (by norm_num),readText_digitText (by norm_num) (by norm_num),
    Nat.mod_eq_of_lt hfrac,Nat.mod_eq_of_lt (lt_pow_digitCount (by norm_num) _),digitText_length,
    hsplit]
  push_cast
  field_simp

lemma fixedText_head_ne_minus (x : ℚ) (k : ℕ) : (fixedText x k).head? ≠ some 45 := by
  have hlen : 0 < (digitText 10 (digitCount 10 ⌊x⌋₊) ⌊x⌋₊).length := by simp [digitCount]
  obtain ⟨c,cs,hc⟩ := List.exists_cons_of_length_pos hlen
  obtain ⟨d,hd,rfl⟩ := exists_digit_of_mem (by norm_num) (by norm_num)
    (show c ∈ digitText 10 (digitCount 10 ⌊x⌋₊) ⌊x⌋₊ by simp [hc])
  rw [fixedText,hc]
  simpa using digitChar_ne_minus hd

lemma fixedText_ne_blank (x : ℚ) (k : ℕ) : ∀ c ∈ fixedText x k, c ≠ 32 := by
  have hdigits : ∀ k n, ∀ c ∈ digitText 10 k n, c ≠ 32 := by
    intro k n c hc
    obtain ⟨d,hd,rfl⟩ := exists_digit_of_mem (by norm_num) (by norm_num) hc
    exact digitChar_ne_blank hd
  intro c hc
  simp only [fixedText,List.mem_append,List.mem_singleton] at hc
  rcases hc with (hc | rfl) | hc
  · exact hdigits _ _ c hc
  · decide
  · exact hdigits _ _ c hc

lemma readFloat_text (x : ℚ) (k : ℕ) :
    readFloat ((if x < 0 then [45] else [])++fixedText |x| k) =
      if x < 0 then -readUnsigned (fixedText |x| k) else readUnsigned (fixedText |x| k) := by
  by_cases h : x < 0
  · simp [readFloat,h]
  · simp [readFloat,h,fixedText_head_ne_minus]

/-- Cutting digits off moves a number towards zero by less than one unit of the last digit. -/
lemma truncation_bounds {y : ℚ} (hy : 0 ≤ y) (k : ℕ) :
    (0 : ℚ) ≤ ⌊y*10^k⌋₊/10^k ∧ (⌊y*10^k⌋₊ : ℚ)/10^k ≤ y ∧ y-⌊y*10^k⌋₊/10^k < 1/10^k := by
  have hp : (0 : ℚ) < 10^k := by positivity
  refine ⟨by positivity,?_,?_⟩
  · rw [div_le_iff₀ hp]
    exact Nat.floor_le (by positivity)
  · have := Nat.lt_floor_add_one (y*10^k)
    rw [sub_lt_iff_lt_add,← add_div,lt_div_iff₀ hp]
    linarith

/-- The text of a number reads back as the number without the digits that did not fit. -/
lemma readFloat_truncates (x : ℚ) (k : ℕ) :
    let v := readFloat ((if x < 0 then [45] else [])++fixedText |x| k)
    |v| = ⌊|x| * 10^k⌋₊/10^k ∧ |x-v| < 1/10^k ∧ 0 ≤ x*v := by
  dsimp only
  rw [readFloat_text,readUnsigned_fixedText (abs_nonneg x)]
  obtain ⟨h0,h1,h2⟩ := truncation_bounds (abs_nonneg x) k
  generalize (⌊|x| * 10^k⌋₊ : ℚ)/10^k = v at *
  by_cases h : x < 0
  · rw [if_pos h,abs_neg,abs_of_nonneg h0]
    rw [abs_of_neg h] at h1 h2
    refine ⟨rfl,?_,by nlinarith⟩
    rw [abs_of_nonpos (by linarith)]
    linarith
  · rw [if_neg h,abs_of_nonneg h0]
    rw [abs_of_nonneg (not_lt.mp h)] at h1 h2
    refine ⟨rfl,?_,mul_nonneg (not_lt.mp h) h0⟩
    rw [abs_of_nonneg (by linarith)]
    exact h2

end DspLibrary.Chibios
