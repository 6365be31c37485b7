import DspLibrary.Foundation.Yields

/-! Machines driven by events from outside. An event is offered only in states that allow it, and
a step may still stop with a fault; the rule for runs turns an invariant of single steps into one
of every sequence of allowed events. -/
namespace DspLibrary.Foundation
universe u
variable {ε ι : Type*} {σ : Type u}

/-- A machine with a fallible step and a guard on the events it is offered. -/
structure Driven (ε ι : Type*) (σ : Type u) where
  step : ι → σ → Except ε σ
  Allows : σ → ι → Prop

namespace Driven
variable (M : Driven ε ι σ)

/-- The state after a list of events. -/
def run : List ι → σ → Except ε σ
  | [],s => .ok s
  | e::es,s => M.step e s >>= run es

/-- Every event is allowed in the state that the events before it lead to. -/
def Legal : σ → List ι → Prop
  | _,[] => True
  | s,e::es => M.Allows s e ∧ ∀ s', M.step e s = .ok s' → Legal s' es

/-- Legality of a given list is decided by running it. -/
def decideLegal (hd : ∀ s e, Decidable (M.Allows s e)) : ∀ s es, Decidable (M.Legal s es)
  | _,[] => .isTrue trivial
  | s,e::es =>
    match hd s e with
    | .isFalse hn => .isFalse fun h => hn h.1
    | .isTrue ha =>
      match hs : M.step e s with
      | .error _ => .isTrue ⟨ha,fun _ h => by simp [hs] at h⟩
      | .ok t =>
        match decideLegal hd t es with
        | .isTrue ht => .isTrue ⟨ha,fun _ h => by
            obtain rfl := Except.ok.inj (hs.symm.trans h)
            exact ht⟩
        | .isFalse hn => .isFalse fun h => hn (h.2 t hs)

variable {M}

/-- Run rule: what every allowed step with one of the events keeps, every legal run keeps, and no
step of it stops. -/
theorem run_yields {P : σ → Prop} {es : List ι}
    (hstep : ∀ s, ∀ e ∈ es, P s → M.Allows s e → Yields (M.step e s) P) {s : σ} (h : P s)
    (hes : M.Legal s es) : Yields (M.run es s) P := by
  induction es generalizing s with
  | nil => exact Yields.ok h
  | cons e es ih =>
    obtain ⟨s',hs',hp⟩ := hstep s e (by simp) h hes.1
    obtain ⟨t,ht,hq⟩ := ih (fun s e he => hstep s e (by simp [he])) hp (hes.2 s' hs')
    exact ⟨t,by simp [run,hs',ht],hq⟩

/-- What every step with one of the events keeps, every run keeps that returns. -/
theorem run_returning {P : σ → Prop} {es : List ι}
    (hstep : ∀ s, ∀ e ∈ es, P s → Returning (M.step e s) P) {s : σ} (h : P s) :
    Returning (M.run es s) P := by
  induction es generalizing s with
  | nil => exact Returning.ok h
  | cons e es ih =>
    exact (hstep s e (by simp) h).bind fun s' => ih fun s e he => hstep s e (by simp [he])

/-- The rest of a legal list of events is legal after the part before it. -/
lemma Legal.append {es es' : List ι} {s : σ} (h : M.Legal s (es++es')) :
    Returning (M.run es s) fun t => M.Legal t es' := by
  induction es generalizing s with
  | nil => exact Returning.ok h
  | cons e es ih => exact Returning.bind (fun s' hs' => ih (h.2 s' hs')) fun _ => id

/-- Two states that every allowed step keeps related stay so along every legal run of the first. -/
theorem run_related {R : σ → σ → Prop}
    (hstep : ∀ s s' e, R s s' → M.Allows s e →
      ∃ t t', M.step e s = .ok t ∧ M.step e s' = .ok t' ∧ R t t')
    {s s' : σ} (h : R s s') {es : List ι} (hes : M.Legal s es) :
    ∃ t t', M.run es s = .ok t ∧ M.run es s' = .ok t' ∧ R t t' := by
  induction es generalizing s s' with
  | nil => exact ⟨s,s',rfl,rfl,h⟩
  | cons e es ih =>
    obtain ⟨t,t',ht,ht',hR⟩ := hstep s s' e h hes.1
    obtain ⟨u,u',hu,hu',hR'⟩ := ih hR (hes.2 t ht)
    exact ⟨u,u',by simp [run,ht,hu],by simp [run,ht',hu'],hR'⟩

/-- The machine with a further condition on the events. -/
def restrict (M : Driven ε ι σ) (Q : σ → ι → Prop) : Driven ε ι σ :=
  ⟨M.step,fun s e => M.Allows s e ∧ Q s e⟩

lemma restrict_run (Q : σ → ι → Prop) (es : List ι) (s : σ) :
    (M.restrict Q).run es s = M.run es s := by
  induction es generalizing s with
  | nil => rfl
  | cons e es ih =>
    simp only [run]
    exact congrArg _ (funext ih)

/-- Steps that use up a supply make runs that are no longer than the supply. -/
theorem length_le_of_decreasing {P : σ → Prop} (f : σ → ℕ)
    (hstep : ∀ s e, P s → M.Allows s e → Yields (M.step e s) fun s' => P s' ∧ f s' < f s)
    {s : σ} (h : P s) {es : List ι} (hes : M.Legal s es) : es.length ≤ f s := by
  induction es generalizing s with
  | nil => exact Nat.zero_le _
  | cons e es ih =>
    obtain ⟨s',hs',hp,hlt⟩ := hstep s e h hes.1
    have hl := ih hp (hes.2 s' hs')
    simp only [List.length_cons]
    omega

end Driven
end DspLibrary.Foundation
