import DspLibrary.Foundation.Heap

/-! Forward simulation between two computations, and larger blocks: what a computation returns
on some blocks, it also returns on blocks with more cells. -/
namespace DspLibrary.Foundation
universe u
variable {ε ι : Type*} {σ σ' τ τ' ω : Type u}

/-- Whatever the first computation returns, the second one returns something related to it. -/
def Follows (R : σ → σ' → Prop) (c : Except ε σ) (c' : Except ε σ') : Prop :=
  ∀ a, c = .ok a → ∃ a', c' = .ok a' ∧ R a a'

namespace Follows
variable {R : σ → σ' → Prop} {S : τ → τ' → Prop}

lemma ret {a : σ} {a' : σ'} (h : R a a') :
    Follows R (pure a : Except ε σ) (pure a' : Except ε σ') := by
  intro b hb
  cases hb
  exact ⟨a',rfl,h⟩

theorem bind {c : Except ε σ} {c' : Except ε σ'} {k : σ → Except ε τ} {k' : σ' → Except ε τ'}
    (h : Follows R c c') (hk : ∀ a a', R a a' → Follows S (k a) (k' a')) :
    Follows S (c >>= k) (c' >>= k') := by
  intro b hb
  obtain ⟨a,ha,hkb⟩ := exists_of_bind_eq_ok hb
  obtain ⟨a',ha',hR⟩ := h a ha
  obtain ⟨b',hb',hS⟩ := hk a a' hR b hkb
  exact ⟨b',by simp [ha',hb'],hS⟩

/-- Loops with related bodies, over the same range. -/
theorem forUpTo {lo hi : ℤ} {body : ℤ → σ → Except ε σ} {body' : ℤ → σ' → Except ε σ'}
    (hbody : ∀ i s s', R s s' → Follows R (body i s) (body' i s')) {s : σ} {s' : σ'}
    (h : R s s') : Follows R (forUpTo lo hi body s) (forUpTo lo hi body' s') := by
  unfold Foundation.forUpTo
  induction (hi-lo).toNat with
  | zero => exact ret h
  | succ n ih => exact ih.bind (hbody (lo+n))

/-- Machines with related steps give the same answers. -/
theorem feed {step : σ → ι → Except ε (ω × σ)} {step' : σ' → ι → Except ε (ω × σ')}
    (hstep : ∀ i s s', R s s' →
      Follows (fun r r' => r.1 = r'.1 ∧ R r.2 r'.2) (step s i) (step' s' i))
    (inputs : List ι) {s : σ} {s' : σ'} (h : R s s') :
    Follows (fun r r' => r.1 = r'.1 ∧ R r.2 r'.2) (feed step s inputs)
      (feed step' s' inputs) := by
  induction inputs generalizing s s' with
  | nil => exact ret ⟨rfl,h⟩
  | cons i inputs ih =>
    refine (hstep i s s' h).bind ?_
    intro r r' hr
    refine (ih hr.2).bind ?_
    intro q q' hq
    exact ret ⟨congrArg₂ List.cons hr.1 hq.1,hq.2⟩

end Follows

namespace Block
variable {α : Type*}

/-- The second block has at least the cells of the first one, and holds what that one holds. -/
structure Extends (b b' : Block ι α) : Prop where
  size_le : b.size ≤ b'.size
  read : ∀ i v, b.read i = .ok v → b'.read i = .ok v

lemma Extends.refl (b : Block ι α) : Extends b b := ⟨le_rfl,fun _ _ h => h⟩

lemma extends_raw (label : ι) (addr addr' : ℕ) {n m : ℕ} (h : n ≤ m) :
    Extends (raw label addr n : Block ι α) (raw label addr' m) := by
  refine ⟨by simpa using h,?_⟩
  intro i v hread
  have hcell := lt_size_of_read hread
  rw [size_raw] at hcell
  have hlt : i.toNat < n := by omega
  simp [Block.read,raw,not_lt.mpr hcell.1,hlt] at hread

lemma Extends.follows_read {b b' : Block ι α} (h : Extends b b') (i : ℤ) :
    Follows (fun v v' => v = v') (b.read i) (b'.read i) :=
  fun v hv => ⟨v,h.read i v hv,rfl⟩

/-- Writing the same value to the same cell keeps the relation. -/
lemma Extends.follows_write {b b' : Block ι α} (h : Extends b b') (i : ℤ) (v : α) :
    Follows Extends (b.write i v) (b'.write i v) := by
  intro c hc
  obtain ⟨h0,hlt⟩ := lt_size_of_write hc
  have hsize := h.size_le
  obtain ⟨c₁,hc₁,hw⟩ := write_yields b i v h0 hlt
  obtain ⟨c',hc',hw'⟩ := write_yields b' i v h0 (by omega)
  have heq : c₁ = c := Except.ok.inj (hc₁.symm.trans hc)
  subst heq
  refine ⟨c',hc',by rw [hw.size,hw'.size]; exact hsize,?_⟩
  intro j w hj
  by_cases hji : j = i
  · subst hji
    rw [hw.here] at hj
    rw [hw'.here]
    exact hj
  · rw [hw.frame j hji] at hj
    rw [hw'.frame j hji]
    exact h.read j w hj

end Block

namespace Allocator

/-- The allocator that hands out `m` cells where the given one hands out fewer. -/
def atLeast (sys : Allocator) (m : ℕ) : Allocator where
  pick := sys.pick
  pick_fresh := sys.pick_fresh
  room n := max (sys.room n) m
  le_room n := le_max_of_le_left (sys.le_room n)

lemma room_le_atLeast (sys : Allocator) (m : ℕ) (n : ℤ) :
    sys.room n ≤ (sys.atLeast m).room n := le_max_left _ _

lemma le_room_atLeast (sys : Allocator) (m : ℕ) (n : ℤ) : m ≤ (sys.atLeast m).room n :=
  le_max_right _ _

end Allocator
end DspLibrary.Foundation
