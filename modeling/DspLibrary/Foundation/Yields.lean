import Mathlib

/-! Total-correctness rules for computations that may stop with a fault, for counted loops
over an integer variable, and for machines that answer one input at a time. -/
namespace DspLibrary.Foundation
universe u
variable {ε ι : Type*} {σ τ ω : Type u}

/-- The computation returns, and what it returns satisfies `P`. -/
def Yields (c : Except ε σ) (P : σ → Prop) : Prop := ∃ a, c = .ok a ∧ P a

namespace Yields

lemma ok {a : σ} {P : σ → Prop} (h : P a) : Yields (.ok a : Except ε σ) P := ⟨a,rfl,h⟩

lemma ret {a : σ} {P : σ → Prop} (h : P a) : Yields (pure a : Except ε σ) P := ⟨a,rfl,h⟩

lemma mono {c : Except ε σ} {P Q : σ → Prop} (h : Yields c P) (hpq : ∀ a, P a → Q a) :
    Yields c Q := by
  obtain ⟨a,ha,hp⟩ := h
  exact ⟨a,ha,hpq a hp⟩

/-- Sequencing: the second computation may rely on what the first one established. -/
theorem bind {c : Except ε σ} {k : σ → Except ε τ} {P : σ → Prop} {Q : τ → Prop}
    (h : Yields c P) (hk : ∀ a, P a → Yields (k a) Q) : Yields (c >>= k) Q := by
  obtain ⟨a,rfl,hp⟩ := h
  exact hk a hp

/-- A value computed from the result is known of the result. -/
lemma of_map {c : Except ε σ} {f : σ → τ} {b : τ} (h : c.map f = .ok b) :
    Yields c fun a => f a = b := by
  cases c with
  | error e => cases h
  | ok a => exact ⟨a,rfl,Except.ok.inj h⟩

end Yields

@[simp] lemma ok_bind (a : σ) (k : σ → Except ε τ) : (Except.ok a >>= k) = k a := rfl

@[simp] lemma error_bind (e : ε) (k : σ → Except ε τ) : (Except.error e >>= k) = .error e := rfl

lemma pure_eq_ok (a : σ) : (pure a : Except ε σ) = .ok a := rfl

lemma exists_of_bind_eq_ok {c : Except ε σ} {k : σ → Except ε τ} {b : τ}
    (h : (c >>= k) = .ok b) : ∃ a, c = .ok a ∧ k a = .ok b := by
  cases c with
  | error e => cases h
  | ok a => exact ⟨a,rfl,h⟩

/-- A failure that the first computation cannot have comes from the second. -/
lemma exists_of_bind_eq_error {c : Except ε σ} {k : σ → Except ε τ} {e : ε}
    (hc : c ≠ .error e) (h : (c >>= k) = .error e) : ∃ a, c = .ok a ∧ k a = .error e := by
  cases hout : c with
  | error e' =>
    rw [hout,error_bind] at h
    exact absurd (hout.trans (by rw [Except.error.inj h])) hc
  | ok a =>
    rw [hout] at h
    exact ⟨a,rfl,h⟩

lemma bind_ne_error {c : Except ε σ} {k : σ → Except ε τ} {e : ε} (hc : c ≠ .error e)
    (hk : ∀ a, k a ≠ .error e) : (c >>= k) ≠ .error e := by
  intro h
  obtain ⟨a,-,ha⟩ := exists_of_bind_eq_error hc h
  exact hk a ha

lemma yields_value_iff (c : Except ε σ) (a : σ) : Yields c (· = a) ↔ c = .ok a := by
  constructor
  · rintro ⟨b,hb,rfl⟩; exact hb
  · intro h; exact ⟨a,h,rfl⟩

/-- `n` successive iterations of a loop body, at the counter values `lo`, `lo+1`, .... -/
def iterations (lo : ℤ) (body : ℤ → σ → Except ε σ) : ℕ → σ → Except ε σ
  | 0,s => .ok s
  | n+1,s => iterations lo body n s >>= body (lo+n)

/-- The loop `for (i = lo; i < hi; i++)`. -/
def forUpTo (lo hi : ℤ) (body : ℤ → σ → Except ε σ) (s : σ) : Except ε σ :=
  iterations lo body (hi-lo).toNat s

/-- Loop rule: an invariant indexed by the number of finished iterations. -/
theorem iterations_yields {lo : ℤ} {body : ℤ → σ → Except ε σ} (P : ℕ → σ → Prop) (n : ℕ)
    {s : σ} (h0 : P 0 s)
    (hstep : ∀ i < n, ∀ s, P i s → Yields (body (lo+i) s) (P (i+1))) :
    Yields (iterations lo body n s) (P n) := by
  induction n with
  | zero => exact Yields.ok h0
  | succ n ih =>
    have hn := ih (fun i hi => hstep i (by omega))
    exact hn.bind (hstep n (by omega))

theorem forUpTo_yields {lo hi : ℤ} {body : ℤ → σ → Except ε σ} (P : ℕ → σ → Prop) {n : ℕ}
    (hn : (hi-lo).toNat = n) {s : σ} (h0 : P 0 s)
    (hstep : ∀ i < n, ∀ s, P i s → Yields (body (lo+i) s) (P (i+1))) :
    Yields (forUpTo lo hi body s) (P n) := by
  unfold forUpTo
  rw [hn]
  exact iterations_yields P n h0 hstep

lemma iterations_error_of_le {lo : ℤ} {body : ℤ → σ → Except ε σ} {s : σ} {e : ε} {m n : ℕ}
    (hmn : m ≤ n) (h : iterations lo body m s = .error e) :
    iterations lo body n s = .error e := by
  induction n, hmn using Nat.le_induction with
  | base => exact h
  | succ n _ ih => simp [iterations,ih]

/-- Partial correctness: if the computation returns, what it returns satisfies `P`. -/
def Returning (c : Except ε σ) (P : σ → Prop) : Prop := ∀ a, c = .ok a → P a

namespace Returning

lemma ok {a : σ} {P : σ → Prop} (h : P a) : Returning (.ok a : Except ε σ) P := by
  intro b hb
  cases hb
  exact h

lemma any (c : Except ε σ) : Returning c (fun _ => True) := fun _ _ => trivial

lemma mono {c : Except ε σ} {P Q : σ → Prop} (h : Returning c P) (hpq : ∀ a, P a → Q a) :
    Returning c Q :=
  fun a ha => hpq a (h a ha)

theorem bind {c : Except ε σ} {k : σ → Except ε τ} {P : σ → Prop} {Q : τ → Prop}
    (h : Returning c P) (hk : ∀ a, P a → Returning (k a) Q) : Returning (c >>= k) Q := by
  intro b hb
  obtain ⟨a,ha,hkb⟩ := exists_of_bind_eq_ok hb
  exact hk a (h a ha) b hkb

/-- A loop whose body keeps a property keeps it. -/
theorem forUpTo {lo hi : ℤ} {body : ℤ → σ → Except ε σ} {P : σ → Prop}
    (hbody : ∀ i s, P s → Returning (body i s) P) {s : σ} (h : P s) :
    Returning (forUpTo lo hi body s) P := by
  unfold Foundation.forUpTo
  induction (hi-lo).toNat with
  | zero => exact Returning.ok h
  | succ n ih => exact ih.bind (hbody (lo+n))

end Returning

lemma Yields.returning {c : Except ε σ} {P : σ → Prop} (h : Yields c P) : Returning c P := by
  obtain ⟨a,rfl,hp⟩ := h
  exact Returning.ok hp

lemma Yields.and_returning {c : Except ε σ} {P Q : σ → Prop} (h : Yields c P)
    (hq : Returning c Q) : Yields c (fun a => P a ∧ Q a) := by
  obtain ⟨a,ha,hp⟩ := h
  exact ⟨a,ha,hp,hq a ha⟩

/-- A loop whose invariant holds up to iteration `k` and whose body then stops, stops. -/
theorem forUpTo_error {lo hi : ℤ} {body : ℤ → σ → Except ε σ} (P : ℕ → σ → Prop) {k : ℕ} {e : ε}
    (hk : lo+k < hi) {s : σ} (h0 : P 0 s)
    (hstep : ∀ i < k, ∀ s, P i s → Yields (body (lo+i) s) (P (i+1)))
    (hstop : ∀ s, P k s → body (lo+k) s = .error e) :
    forUpTo lo hi body s = .error e := by
  obtain ⟨t,ht,hp⟩ := iterations_yields P k h0 hstep
  apply iterations_error_of_le (m := k+1) (by omega)
  simp [iterations,ht,hstop t hp]

/-- Feed a list of inputs, one at a time, and collect the answers. -/
def feed (step : σ → ι → Except ε (ω × σ)) : σ → List ι → Except ε (List ω × σ)
  | s,[] => .ok ([],s)
  | s,i::is => do
    let (o,s) ← step s i
    let (os,s) ← feed step s is
    return (o::os,s)

/-- The values of a signal at the `n` times from `t` on. -/
def samples {α : Type*} (x : ℤ → α) : ℤ → ℕ → List α
  | _,0 => []
  | t,n+1 => x t::samples x (t+1) n

@[simp] lemma samples_length {α : Type*} (x : ℤ → α) (t : ℤ) (n : ℕ) :
    (samples x t n).length = n := by
  induction n generalizing t with
  | zero => rfl
  | succ n ih => simp [samples,ih]

lemma samples_eq_map {α : Type*} (x : ℤ → α) (t : ℤ) (n : ℕ) :
    samples x t n = (List.range n).map fun i : ℕ => x (t+i) := by
  induction n generalizing t with
  | zero => rfl
  | succ n ih =>
    rw [samples,ih,List.range_succ_eq_map]
    simp only [List.map_cons,List.map_map,Nat.cast_zero,add_zero]
    congr 1
    apply List.map_congr_left
    intro i _
    simp only [Function.comp_apply]
    congr 1
    push_cast
    ring

lemma samples_congr {α : Type*} {x y : ℤ → α} {t : ℤ} {n : ℕ}
    (h : ∀ u, t ≤ u → u < t+n → x u = y u) : samples x t n = samples y t n := by
  induction n generalizing t with
  | zero => rfl
  | succ n ih =>
    have hhead : x t = y t := h t le_rfl (by omega)
    have htail : samples x (t+1) n = samples y (t+1) n := by
      apply ih
      intro u hl hu
      exact h u (by omega) (by push_cast; omega)
    simp only [samples,hhead,htail]

lemma eq_of_samples_eq {α : Type*} {x y : ℤ → α} {t : ℤ}
    (h : ∀ n, samples x t n = samples y t n) {u : ℤ} (hu : t ≤ u) : x u = y u := by
  have hlist := h ((u-t).toNat+1)
  simp only [samples_eq_map,List.map_inj_left] at hlist
  have hvalue := hlist (u-t).toNat (by simp)
  rwa [show t+((u-t).toNat : ℤ) = u by omega] at hvalue

/-- Run rule: an invariant indexed by time and preserved by every step determines every
answer. The inputs and the answers are read off two signals. -/
theorem feed_yields {step : σ → ι → Except ε (ω × σ)} (P : ℤ → σ → Prop) (input : ℤ → ι)
    (answer : ℤ → ω) (hstep : ∀ t s, 0 ≤ t → P t s →
      Yields (step s (input t)) (fun r => r.1 = answer t ∧ P (t+1) r.2))
    {t : ℤ} (ht : 0 ≤ t) {s : σ} (h : P t s) (n : ℕ) :
    Yields (feed step s (samples input t n))
      (fun r => r.1 = samples answer t n ∧ P (t+n) r.2) := by
  induction n generalizing t s with
  | zero => exact Yields.ok ⟨rfl,by simpa using h⟩
  | succ n ih =>
    refine (hstep t s ht h).bind ?_
    rintro ⟨o,s'⟩ ⟨ho,hs'⟩
    refine (ih (by omega) hs').bind ?_
    rintro ⟨os,s''⟩ ⟨hos,hs''⟩
    refine Yields.ret ⟨?_,?_⟩
    · exact congrArg₂ List.cons ho hos
    · have hshift : t+((n+1 : ℕ) : ℤ) = t+1+n := by push_cast; ring
      rw [hshift]
      exact hs''

end DspLibrary.Foundation
