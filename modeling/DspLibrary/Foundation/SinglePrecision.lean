import Mathlib.Data.Int.Log
import Mathlib.Data.Rat.Floor
import Mathlib.Tactic

/-! Rounding to single precision: the nearest number with 24 significant bits, ties to even, with
gradual underflow. There is no largest number here; overflow is left to what uses the result. -/
namespace DspLibrary.Foundation

/-- The nearest integer, and the even one of two. -/
def roundEven (q : ℚ) : ℤ :=
  if q-⌊q⌋ < 1/2 ∨ (q-⌊q⌋ = 1/2 ∧ ⌊q⌋%2 = 0) then ⌊q⌋ else ⌊q⌋+1

lemma abs_roundEven_sub_le (q : ℚ) : |roundEven q-q| ≤ 1/2 := by
  have hlo := Int.floor_le q
  have hhi := Int.lt_floor_add_one q
  unfold roundEven
  split_ifs with h
  · have hle : q-⌊q⌋ ≤ 1/2 := by
      rcases h with h | h
      · exact h.le
      · exact h.1.le
    rw [abs_le]
    constructor <;> linarith
  · have hge : 1/2 ≤ q-⌊q⌋ := not_lt.mp fun hlt => h (.inl hlt)
    push_cast
    rw [abs_le]
    constructor <;> linarith

/-- No integer is nearer. -/
lemma abs_roundEven_sub_le_abs (q : ℚ) (n : ℤ) : |roundEven q-q| ≤ |n-q| := by
  by_cases hn : roundEven q = n
  · rw [hn]
  · have hdist : (1 : ℚ) ≤ |(n : ℚ)-roundEven q| := by
      exact_mod_cast Int.one_le_abs (sub_ne_zero.mpr (Ne.symm hn))
    have hsplit := abs_sub_le (n : ℚ) q (roundEven q)
    rw [abs_sub_comm q] at hsplit
    have hhalf := abs_roundEven_sub_le q
    linarith

/-- A number of 24 significant bits whose last place is not below the smallest one. -/
def IsSingle (x : ℚ) : Prop := ∃ m e : ℤ, |m| < 2^24 ∧ -149 ≤ e ∧ x = m*2^e

/-- The exponent of the last place of the single-precision numbers around `x`. -/
def lastPlace (x : ℚ) : ℤ := max (Int.log 2 |x|-23) (-149)

/-- `x` in single precision. -/
def single (x : ℚ) : ℚ := roundEven (x/2^lastPlace x)*2^lastPlace x

@[simp] lemma single_zero : single 0 = 0 := by
  simp [single,roundEven]

section Bounds
variable (x : ℚ)

lemma two_zpow_pos (e : ℤ) : (0 : ℚ) < 2^e := by positivity

lemma abs_lt_two_zpow : |x| < 2^(lastPlace x+24) := by
  have hlog : |x| < ((2 : ℕ) : ℚ)^(Int.log 2 |x|+1) :=
    Int.lt_zpow_succ_log_self (by norm_num) |x|
  refine hlog.trans_le ?_
  rw [Nat.cast_ofNat]
  apply zpow_le_zpow_right₀ (by norm_num)
  simp only [lastPlace]
  omega

lemma abs_div_lt : |x/2^lastPlace x| < 2^24 := by
  have hpos := two_zpow_pos (lastPlace x)
  have hlt := abs_lt_two_zpow x
  rw [abs_div,abs_of_pos hpos,div_lt_iff₀ hpos]
  rwa [zpow_add₀ (by norm_num),mul_comm] at hlt

/-- The distance to the result in units of the last place. -/
lemma abs_single_sub : |single x-x| =
    |roundEven (x/2^lastPlace x)-x/2^lastPlace x| * 2^lastPlace x := by
  have hpos := two_zpow_pos (lastPlace x)
  rw [← abs_of_pos hpos,← abs_mul,abs_of_pos hpos,sub_mul,div_mul_cancel₀ _ hpos.ne',single]

/-- A multiple of the last place is not nearer than the result. -/
lemma abs_single_sub_le_of_multiple (n : ℤ) : |single x-x| ≤ |n*2^lastPlace x-x| := by
  have hpos := two_zpow_pos (lastPlace x)
  have hn : |n*2^lastPlace x-x| = |n-x/2^lastPlace x| * 2^lastPlace x := by
    rw [← abs_of_pos hpos,← abs_mul,abs_of_pos hpos,sub_mul,div_mul_cancel₀ _ hpos.ne']
  rw [hn,abs_single_sub]
  exact mul_le_mul_of_nonneg_right (abs_roundEven_sub_le_abs _ n) hpos.le

end Bounds

/-- A number with a last place from `e` on is a multiple of `2^e`. -/
lemma exists_multiple {m e e' : ℤ} (h : e ≤ e') : ∃ n : ℤ, (m : ℚ)*2^e' = n*2^e := by
  obtain ⟨k,rfl⟩ := Int.le.dest h
  refine ⟨m*2^k,?_⟩
  rw [zpow_add₀ (by norm_num)]
  push_cast
  rw [zpow_natCast]
  ring

/-- The result has single precision. -/
theorem isSingle_single (x : ℚ) : IsSingle (single x) := by
  have hle : |roundEven (x/2^lastPlace x)| ≤ 2^24 := by
    have hlt := abs_div_lt x
    have hhalf := abs_roundEven_sub_le (x/2^lastPlace x)
    have htri := abs_sub_abs_le_abs_sub (roundEven (x/2^lastPlace x) : ℚ) (x/2^lastPlace x)
    have hq : (|roundEven (x/2^lastPlace x)| : ℚ) < 2^24+1 := by linarith
    have hz : |roundEven (x/2^lastPlace x)| < 2^24+1 := by exact_mod_cast hq
    omega
  have he : -149 ≤ lastPlace x := le_max_right _ _
  rcases hle.lt_or_eq with hlt | heq
  · exact ⟨_,_,hlt,he,rfl⟩
  · -- the carry out of the last place gives a power of two
    have hcarry : ∀ s : ℤ, (s*2^24 : ℚ)*2^lastPlace x = (s*2^23 : ℤ)*2^(lastPlace x+1) := by
      intro s
      rw [zpow_add₀ (by norm_num)]
      push_cast
      ring
    rcases abs_eq (by norm_num) |>.mp heq with h | h
    · refine ⟨1*2^23,lastPlace x+1,by norm_num,by omega,?_⟩
      rw [single,h,← hcarry]
      norm_num
    · refine ⟨-1*2^23,lastPlace x+1,by norm_num,by omega,?_⟩
      rw [single,h,← hcarry]
      norm_num

/-- No number of single precision is nearer. -/
theorem single_nearest (x : ℚ) {y : ℚ} (hy : IsSingle y) : |single x-x| ≤ |y-x| := by
  rcases eq_or_ne x 0 with rfl | hx0
  · simp
  obtain ⟨m,e,hm,he,rfl⟩ := hy
  by_cases hle : lastPlace x ≤ e
  · obtain ⟨n,hn⟩ := exists_multiple (m := m) hle
    rw [hn]
    exact abs_single_sub_le_of_multiple x n
  · -- `y` is finer than the numbers around `x`, so a power of two lies between it and `x`
    have hlast : lastPlace x = Int.log 2 |x|-23 := by
      simp only [lastPlace] at hle ⊢
      omega
    have hpow : (2 : ℚ)^(lastPlace x+23) ≤ |x| := by
      have hlog : ((2 : ℕ) : ℚ)^Int.log 2 |x| ≤ |x| :=
        Int.zpow_log_le_self (by norm_num) (abs_pos.mpr hx0)
      rw [hlast,sub_add_cancel]
      exact_mod_cast hlog
    have hsmall : |(m : ℚ)*2^e| ≤ 2^(lastPlace x+23) := by
      have hm' : |(m : ℚ)| ≤ 2^24 := by exact_mod_cast hm.le
      rw [abs_mul,abs_of_pos (two_zpow_pos e)]
      calc |(m : ℚ)| * 2^e ≤ 2^24*2^(lastPlace x-1) := by
            apply mul_le_mul hm' _ (two_zpow_pos e).le (by norm_num)
            exact zpow_le_zpow_right₀ (by norm_num) (by omega)
        _ = 2^(lastPlace x+23) := by
            rw [show lastPlace x+23 = 24+(lastPlace x-1) by ring,zpow_add₀ (by norm_num)]
            norm_num
    have hbetween : ∀ s : ℤ, (s : ℚ)*2^(lastPlace x+23) = (s*2^23 : ℤ)*2^lastPlace x := by
      intro s
      rw [add_comm,zpow_add₀ (by norm_num)]
      push_cast
      ring
    rcases abs_cases x with ⟨hx,hs⟩ | ⟨hx,hs⟩
    · have hnear := abs_single_sub_le_of_multiple x (1*2^23)
      rw [← hbetween,Int.cast_one,one_mul] at hnear
      refine hnear.trans ?_
      rw [abs_of_nonpos (by linarith),abs_of_nonpos (by linarith [le_abs_self ((m : ℚ)*2^e)])]
      linarith [le_abs_self ((m : ℚ)*2^e)]
    · have hnear := abs_single_sub_le_of_multiple x (-1*2^23)
      rw [← hbetween,Int.cast_neg,Int.cast_one,neg_one_mul] at hnear
      refine hnear.trans ?_
      rw [abs_of_nonneg (by linarith),abs_of_nonneg (by linarith [neg_abs_le ((m : ℚ)*2^e)])]
      linarith [neg_abs_le ((m : ℚ)*2^e)]

/-- A number of single precision is not changed. -/
theorem single_of_isSingle {x : ℚ} (hx : IsSingle x) : single x = x := by
  have h := single_nearest x hx
  rw [sub_self,abs_zero] at h
  exact sub_eq_zero.mp (abs_nonpos_iff.mp h)

/-- The numbers of single precision. Every operation rounds its exact result. -/
structure Single where
  val : ℚ
  isSingle : IsSingle val

namespace Single

def round (x : ℚ) : Single := ⟨single x,isSingle_single x⟩

instance : Zero Single := ⟨⟨0,0,0,by norm_num,by norm_num,by norm_num⟩⟩

instance : Add Single := ⟨fun x y => round (x.val+y.val)⟩

instance : Sub Single := ⟨fun x y => round (x.val-y.val)⟩

instance : Mul Single := ⟨fun x y => round (x.val*y.val)⟩

@[simp] lemma single_val (x : Single) : single x.val = x.val := single_of_isSingle x.isSingle

end Single

end DspLibrary.Foundation
