import Mathlib.Data.List.Basic
import Mathlib.Logic.Function.Iterate
import Mathlib.Tactic

/-! Bounded queues: the queue as a machine that accepts or refuses a trace of its actions, and the
circular buffer that stores one. -/
namespace DspLibrary.Foundation
variable {α κ : Type*}

/-! ### The queue as a machine -/

/-- What can be seen of a queue: an element goes in or out, all elements are thrown away, or
somebody finds it empty. -/
inductive QueueAction (α : Type*)
  | enter (a : α)
  | leave (a : α)
  | clear
  | vacant
  deriving DecidableEq, Repr

namespace QueueAction

def entered : QueueAction α → Option α
  | enter a => some a
  | leave _ | clear | vacant => none

def left : QueueAction α → Option α
  | leave a => some a
  | enter _ | clear | vacant => none

/-- The queue after an action; `none` when a queue of this capacity cannot do it. -/
def act [DecidableEq α] (capacity : ℕ) (q : List α) : QueueAction α → Option (List α)
  | enter a => if q.length < capacity then some (q++[a]) else none
  | leave a =>
    match q with
    | [] => none
    | b::q => if a = b then some q else none
  | clear => some []
  | vacant => if q = [] then some [] else none

end QueueAction

open QueueAction
variable [DecidableEq α]

/-- The queue after a trace. -/
def play (capacity : ℕ) (q : List α) (tr : List (QueueAction α)) : Option (List α) :=
  tr.foldlM (act capacity) q

@[simp] lemma play_nil (capacity : ℕ) (q : List α) : play capacity q [] = some q := rfl

lemma play_append (capacity : ℕ) (q : List α) (tr tr' : List (QueueAction α)) :
    play capacity q (tr++tr') = (play capacity q tr).bind fun q' => play capacity q' tr' := by
  simp [play,List.foldlM_append]

lemma play_snoc {capacity : ℕ} {q q' r : List α} {tr : List (QueueAction α)} {a : QueueAction α}
    (h : play capacity q tr = some q') (ha : act capacity q' a = some r) :
    play capacity q (tr++[a]) = some r := by
  rw [play_append,h]
  simpa [play] using ha

lemma exists_of_play_cons {capacity : ℕ} {q r : List α} {tr : List (QueueAction α)}
    {a : QueueAction α} (h : play capacity q (a::tr) = some r) :
    ∃ q', act capacity q a = some q' ∧ play capacity q' tr = some r := by
  simpa [play,List.foldlM_cons,Option.bind_eq_some_iff] using h

/-- Elements come out in the order in which they went in, each at most once. -/
theorem play_sublist {capacity : ℕ} {q r : List α} {tr : List (QueueAction α)}
    (h : play capacity q tr = some r) :
    List.Sublist (tr.filterMap left++r) (q++tr.filterMap entered) := by
  induction tr generalizing q with
  | nil => simp_all
  | cons a tr ih =>
    obtain ⟨q',ha,ht⟩ := exists_of_play_cons h
    cases a with
    | enter a =>
      obtain ⟨-,rfl⟩ : q.length < capacity ∧ q++[a] = q' := by simpa [act] using ha
      simpa [List.filterMap_cons,entered,left] using ih ht
    | leave a =>
      cases q with
      | nil => simp [act] at ha
      | cons b q =>
        obtain ⟨rfl,rfl⟩ : a = b ∧ q = q' := by simpa [act] using ha
        simpa [List.filterMap_cons,entered,left] using ih ht
    | clear =>
      obtain rfl : [] = q' := by simpa [act] using ha
      exact (ih ht).trans (by simp [List.filterMap_cons,entered])
    | vacant =>
      obtain ⟨rfl,rfl⟩ : q = [] ∧ [] = q' := by simpa [act] using ha
      simpa [List.filterMap_cons,entered,left] using ih ht

/-- Without clearing, nothing is lost either. -/
theorem play_conserves {capacity : ℕ} {q r : List α} {tr : List (QueueAction α)}
    (h : play capacity q tr = some r) (hc : .clear ∉ tr) :
    q++tr.filterMap entered = tr.filterMap left++r := by
  induction tr generalizing q with
  | nil => simp_all
  | cons a tr ih =>
    obtain ⟨q',ha,ht⟩ := exists_of_play_cons h
    have hr := ih ht (fun hm => hc (List.mem_cons_of_mem _ hm))
    cases a with
    | enter a =>
      obtain ⟨-,rfl⟩ : q.length < capacity ∧ q++[a] = q' := by simpa [act] using ha
      simpa [List.filterMap_cons,entered,left] using hr
    | leave a =>
      cases q with
      | nil => simp [act] at ha
      | cons b q =>
        obtain ⟨rfl,rfl⟩ : a = b ∧ q = q' := by simpa [act] using ha
        simpa [List.filterMap_cons,entered,left] using hr
    | clear => simp at hc
    | vacant =>
      obtain ⟨rfl,rfl⟩ : q = [] ∧ [] = q' := by simpa [act] using ha
      simpa [List.filterMap_cons,entered,left] using hr

/-! ### The circular buffer -/

/-- The contents of the first `k` cells on the walk from `r`. -/
def walk (next : κ → κ) (f : κ → α) : ℕ → κ → List α
  | 0,_ => []
  | k+1,r => f r::walk next f k (next r)

omit [DecidableEq α] in
@[simp] lemma walk_length (next : κ → κ) (f : κ → α) (k : ℕ) (r : κ) :
    (walk next f k r).length = k := by
  induction k generalizing r with
  | zero => rfl
  | succ k ih => simp [walk,ih]

omit [DecidableEq α] in
lemma walk_congr {next : κ → κ} {f g : κ → α} {k : ℕ} {r : κ}
    (h : ∀ i < k, f (next^[i] r) = g (next^[i] r)) : walk next f k r = walk next g k r := by
  induction k generalizing r with
  | zero => rfl
  | succ k ih =>
    rw [walk,walk,ih fun i hi => h (i+1) (by omega),show f r = g r from h 0 (by omega)]

omit [DecidableEq α] in
lemma walk_succ (next : κ → κ) (f : κ → α) (k : ℕ) (r : κ) :
    walk next f (k+1) r = walk next f k r++[f (next^[k] r)] := by
  induction k generalizing r with
  | zero => rfl
  | succ k ih =>
    rw [walk,ih]
    rfl

omit [DecidableEq α] in
/-- Writing the cell after the last one appends to the contents. -/
theorem walk_push [DecidableEq κ] {next : κ → κ} {k : ℕ} {r : κ}
    (h : ∀ i < k, next^[i] r ≠ next^[k] r) (f : κ → α) (b : α) :
    walk next (Function.update f (next^[k] r) b) (k+1) r = walk next f k r++[b] := by
  rw [walk_succ,Function.update_self,
    walk_congr fun i hi => Function.update_of_ne (h i hi) b f]

/-- The next cell of the circular buffer from `lo` to `hi`. -/
def advance (lo hi p : ℕ) : ℕ := if hi ≤ p+1 then lo else p+1

lemma advance_mem {lo hi p : ℕ} (hp : lo ≤ p ∧ p < hi) :
    lo ≤ advance lo hi p ∧ advance lo hi p < hi := by
  unfold advance
  split <;> omega

lemma advance_iterate {lo hi p : ℕ} (hp : lo ≤ p ∧ p < hi) (i : ℕ) :
    (advance lo hi)^[i] p = lo+(p-lo+i)%(hi-lo) := by
  induction i with
  | zero =>
    rw [add_zero,Nat.mod_eq_of_lt (by omega)]
    simp only [Function.iterate_zero,id_eq]
    omega
  | succ i ih =>
    have hlt : (p-lo+i)%(hi-lo) < hi-lo := Nat.mod_lt _ (by omega)
    rw [Function.iterate_succ_apply',ih,← add_assoc,← Nat.mod_add_mod (p-lo+i),advance]
    split
    · rw [show (p-lo+i)%(hi-lo)+1 = hi-lo by omega,Nat.mod_self,add_zero]
    · rw [Nat.mod_eq_of_lt (a := (p-lo+i)%(hi-lo)+1) (by omega),add_assoc]

lemma advance_iterate_ne {lo hi p i k : ℕ} (hp : lo ≤ p ∧ p < hi) (hi' : i < k) (hk : k < hi-lo) :
    (advance lo hi)^[i] p ≠ (advance lo hi)^[k] p := by
  rw [advance_iterate hp,advance_iterate hp]
  intro h
  have hm : i ≡ k [MOD hi-lo] := Nat.ModEq.add_left_cancel' (p-lo) (Nat.add_left_cancel h)
  have he := hm.eq_of_lt_of_lt (hi'.trans hk) hk
  omega

end DspLibrary.Foundation
