import Mathlib

/-! Chains of links, and loops that follow them. A chain is read off the function that gives
each node its successor; the edits of a list program change that function at single nodes. -/
namespace DspLibrary.Foundation
variable {κ β : Type*}

/-- From `q` on, the links visit the nodes of the list and then lead to `r`. -/
def Path (next : κ → κ) (q : κ) : List κ → κ → Prop
  | [],r => next q = r
  | a::l,r => next q = a ∧ Path next a l r

/-- The link `b` leads through the nodes of the list to `r`. -/
def Leads (next : κ → κ) (b : κ) : List κ → κ → Prop
  | [],r => b = r
  | a::l,r => b = a ∧ Path next a l r

/-- The node whose link leaves the list. -/
def lastNode (q : κ) : List κ → κ
  | [] => q
  | a::l => lastNode a l

@[simp] lemma lastNode_nil (q : κ) : lastNode q [] = q := rfl

@[simp] lemma lastNode_cons (q a : κ) (l : List κ) : lastNode q (a::l) = lastNode a l := rfl

@[simp] lemma lastNode_append_singleton (q a : κ) (l : List κ) : lastNode q (l++[a]) = a := by
  induction l generalizing q with
  | nil => rfl
  | cons b l ih => exact ih b

lemma lastNode_mem (q : κ) (l : List κ) : lastNode q l ∈ q::l := by
  induction l generalizing q with
  | nil => simp
  | cons a l ih => exact List.mem_cons_of_mem _ (ih a)

namespace Path
variable {next next' : κ → κ} {q a r r' : κ} {l l' : List κ}

@[simp] lemma nil_iff : Path next q [] r ↔ next q = r := Iff.rfl

@[simp] lemma cons_iff : Path next q (a::l) r ↔ next q = a ∧ Path next a l r := Iff.rfl

lemma iff_leads : Path next q l r ↔ Leads next (next q) l r := by
  cases l with
  | nil => rfl
  | cons a l => rfl

/-- A chain may be cut at any of its links. -/
lemma append_iff : Path next q (l++l') r ↔ ∃ b, Path next q l b ∧ Leads next b l' r := by
  induction l generalizing q with
  | nil => simpa using iff_leads
  | cons a l ih => simp [ih,and_assoc]

lemma next_lastNode (h : Path next q l r) : next (lastNode q l) = r := by
  induction l generalizing q with
  | nil => exact h
  | cons a l ih => exact ih h.2

/-- The links inside a chain lead to its nodes. -/
lemma next_mem (h : Path next q l r) {c : κ} (hc : c ∈ (q::l).dropLast) : next c ∈ l := by
  induction l generalizing q with
  | nil => simp at hc
  | cons a l ih =>
    rw [List.dropLast_cons_cons] at hc
    rcases List.mem_cons.mp hc with rfl | hc
    · simp [h.1]
    · exact List.mem_cons_of_mem _ (ih h.2 hc)

/-- A chain only depends on the links of the nodes it visits. -/
lemma congr (h : Path next q l r) (hn : ∀ b ∈ q::l, next' b = next b) : Path next' q l r := by
  induction l generalizing q with
  | nil => exact (hn q (by simp)).trans h
  | cons a l ih => exact ⟨(hn q (by simp)).trans h.1,ih h.2 fun b hb => hn b (by simp_all)⟩

/-- Turning the last link elsewhere changes where the chain leads and nothing else. -/
lemma redirect (h : Path next q l r) (hnodup : (q::l).Nodup)
    (hlast : next' (lastNode q l) = r') (hrest : ∀ b ∈ q::l, b ≠ lastNode q l → next' b = next b) :
    Path next' q l r' := by
  induction l generalizing q with
  | nil => exact hlast
  | cons a l ih =>
    have hq : q ≠ lastNode a l := by
      rintro rfl
      exact (List.nodup_cons.mp hnodup).1 (lastNode_mem a l)
    refine ⟨(hrest q (by simp) hq).trans h.1,ih h.2 (List.nodup_cons.mp hnodup).2 hlast ?_⟩
    intro b hb
    exact hrest b (List.mem_cons_of_mem _ hb)

end Path

lemma Leads.congr {next next' : κ → κ} {b r : κ} {l : List κ} (h : Leads next b l r)
    (hn : ∀ c ∈ l, next' c = next c) : Leads next' b l r := by
  cases l with
  | nil => exact h
  | cons a l => exact ⟨h.1,Path.congr h.2 hn⟩

/-- Follow the links until a node gives an answer. -/
def follow (next : κ → κ) (answer : κ → Option β) : ℕ → κ → Option β
  | 0,_ => none
  | fuel+1,q =>
    match answer q with
    | some b => some b
    | none => follow next answer fuel (next q)

/-- The first node of a chain that gives an answer ends the loop. -/
lemma follow_eq {next : κ → κ} {answer : κ → Option β} {q r : κ} {l : List κ} {b : β} {fuel : ℕ}
    (h : Path next q l r) (hfuel : l.length < fuel) (hlast : answer (lastNode q l) = some b)
    (hrest : ∀ c ∈ (q::l).dropLast, answer c = none) : follow next answer fuel q = some b := by
  induction l generalizing q fuel with
  | nil =>
    obtain ⟨fuel,rfl⟩ : ∃ n, fuel = n+1 := ⟨fuel-1,by simp at hfuel; omega⟩
    simp only [lastNode_nil] at hlast
    simp [follow,hlast]
  | cons a l ih =>
    obtain ⟨fuel,rfl⟩ : ∃ n, fuel = n+1 := ⟨fuel-1,by simp at hfuel; omega⟩
    have hq : answer q = none := hrest q (by simp)
    simp only [follow,hq,h.1]
    apply ih h.2
    · simpa using hfuel
    · exact hlast
    · intro c hc
      exact hrest c (by simp [List.dropLast_cons_cons,hc])

end DspLibrary.Foundation
