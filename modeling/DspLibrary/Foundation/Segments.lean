import Mathlib

/-! Half-open segments of a linear order. A list is separated when its segments ascend and no
two of them touch. Such a list is determined by the points it covers, so operations that keep
lists separated need only be compared by their covers. -/
namespace DspLibrary.Foundation
open scoped BigOperators
variable {α : Type*} [LinearOrder α]

/-- A non-empty half-open segment. -/
@[ext] structure Segment (α : Type*) [LT α] where
  start : α
  stop : α
  lt : start < stop
  deriving DecidableEq, Repr

namespace Segment

/-- The points of a segment. -/
def points (s : Segment α) : Set α := Set.Ico s.start s.stop

@[simp] lemma mem_points {s : Segment α} {a : α} : a ∈ s.points ↔ s.start ≤ a ∧ a < s.stop :=
  Iff.rfl

instance (s : Segment α) (a : α) : Decidable (a ∈ s.points) :=
  inferInstanceAs (Decidable (s.start ≤ a ∧ a < s.stop))

lemma start_mem (s : Segment α) : s.start ∈ s.points := ⟨le_rfl,s.lt⟩

/-- Two disjoint segments lie one before the other. -/
lemma before_or_after {s t : Segment α} (h : Disjoint s.points t.points) :
    s.stop ≤ t.start ∨ t.stop ≤ s.start := by
  by_contra hn
  push Not at hn
  have hs : max s.start t.start ∈ s.points := by simp [s.lt,hn.1]
  have ht : max s.start t.start ∈ t.points := by simp [t.lt,hn.2]
  exact Set.disjoint_left.mp h hs ht

lemma disjoint_of_stop_le {s t : Segment α} (h : s.stop ≤ t.start) :
    Disjoint s.points t.points := by
  rw [Set.disjoint_left]
  intro a hs ht
  exact absurd (ht.1.trans_lt hs.2) (not_lt.mpr h)

lemma bounds_of_subset {s : Segment α} {a b : α} (h : s.points ⊆ Set.Ico a b) :
    a ≤ s.start ∧ s.stop ≤ b := by
  refine ⟨(h s.start_mem).1,not_lt.mp ?_⟩
  intro hlt
  exact lt_irrefl b (h ⟨(h s.start_mem).2.le,hlt⟩).2

/-- Two segments that touch, as one. -/
def append (s t : Segment α) (h : s.stop = t.start) : Segment α :=
  ⟨s.start,t.stop,s.lt.trans (h ▸ t.lt)⟩

@[simp] lemma append_start (s t : Segment α) (h : s.stop = t.start) :
    (s.append t h).start = s.start := rfl

@[simp] lemma append_stop (s t : Segment α) (h : s.stop = t.start) :
    (s.append t h).stop = t.stop := rfl

lemma points_append (s t : Segment α) (h : s.stop = t.start) :
    (s.append t h).points = s.points ∪ t.points := by
  simp only [points,append,h]
  exact (Set.Ico_union_Ico_eq_Ico (h ▸ s.lt.le) t.lt.le).symm

end Segment

/-- The points covered by a list of segments. -/
def cover : List (Segment α) → Set α
  | [] => ∅
  | s::l => s.points ∪ cover l

@[simp] lemma cover_nil : cover ([] : List (Segment α)) = ∅ := rfl

@[simp] lemma cover_cons (s : Segment α) (l : List (Segment α)) :
    cover (s::l) = s.points ∪ cover l := rfl

lemma mem_cover {l : List (Segment α)} {a : α} : a ∈ cover l ↔ ∃ s ∈ l, a ∈ s.points := by
  induction l with
  | nil => simp
  | cons s l ih => simp [ih]

@[simp] lemma cover_append (l l' : List (Segment α)) : cover (l++l') = cover l ∪ cover l' := by
  induction l with
  | nil => simp
  | cons s l ih => simp [ih,Set.union_assoc]

lemma points_subset_cover {s : Segment α} {l : List (Segment α)} (h : s ∈ l) :
    s.points ⊆ cover l := fun _ ha => mem_cover.mpr ⟨s,h,ha⟩

/-- The segments ascend, with a gap between any two of them. -/
def Separated (l : List (Segment α)) : Prop := l.Pairwise fun s t => s.stop < t.start

@[simp] lemma separated_nil : Separated ([] : List (Segment α)) := List.Pairwise.nil

@[simp] lemma separated_cons {s : Segment α} {l : List (Segment α)} :
    Separated (s::l) ↔ (∀ t ∈ l, s.stop < t.start) ∧ Separated l := List.pairwise_cons

lemma separated_append {l l' : List (Segment α)} :
    Separated (l++l') ↔ Separated l ∧ Separated l' ∧ ∀ s ∈ l, ∀ t ∈ l', s.stop < t.start :=
  List.pairwise_append

/-- The segments ascend; neighbours may touch. -/
def Ascending (l : List (Segment α)) : Prop := l.Pairwise fun s t => s.stop ≤ t.start

lemma Separated.ascending {l : List (Segment α)} (h : Separated l) : Ascending l := h.imp le_of_lt

lemma ascending_append {l l' : List (Segment α)} :
    Ascending (l++l') ↔ Ascending l ∧ Ascending l' ∧ ∀ s ∈ l, ∀ t ∈ l', s.stop ≤ t.start :=
  List.pairwise_append

@[simp] lemma ascending_cons {s : Segment α} {l : List (Segment α)} :
    Ascending (s::l) ↔ (∀ t ∈ l, s.stop ≤ t.start) ∧ Ascending l := List.pairwise_cons

/-- A segment that meets none of the list has its place in it. -/
lemma Ascending.split {l : List (Segment α)} (h : Ascending l) {s : Segment α}
    (hs : Disjoint s.points (cover l)) :
    ∃ l₁ l₂, l = l₁++l₂ ∧ (∀ t ∈ l₁, t.stop ≤ s.start) ∧ ∀ t ∈ l₂, s.stop ≤ t.start := by
  induction l with
  | nil => exact ⟨[],[],rfl,by simp,by simp⟩
  | cons u l ih =>
    obtain ⟨hu,hl⟩ := ascending_cons.mp h
    rw [cover_cons,Set.disjoint_union_right] at hs
    rcases Segment.before_or_after hs.1 with hlt | hlt
    · refine ⟨[],u::l,rfl,by simp,?_⟩
      intro t ht
      rcases List.mem_cons.mp ht with rfl | ht
      · exact hlt
      · exact hlt.trans (u.lt.le.trans (hu t ht))
    · obtain ⟨l₁,l₂,rfl,h₁,h₂⟩ := ih hl hs.2
      exact ⟨u::l₁,l₂,rfl,by simpa [hlt] using h₁,h₂⟩

/-- The first point covered is where the first segment starts. -/
lemma Separated.start_le {s : Segment α} {l : List (Segment α)} (h : Separated (s::l)) {a : α}
    (ha : a ∈ cover (s::l)) : s.start ≤ a := by
  obtain ⟨t,ht,hat⟩ := mem_cover.mp ha
  rcases List.mem_cons.mp ht with rfl | ht
  · exact hat.1
  · exact (s.lt.trans ((separated_cons.mp h).1 t ht)).le.trans hat.1

/-- The point at which the first segment stops is not covered. -/
lemma Separated.stop_notMem {s : Segment α} {l : List (Segment α)} (h : Separated (s::l)) :
    s.stop ∉ cover (s::l) := by
  intro hmem
  obtain ⟨t,ht,hst⟩ := mem_cover.mp hmem
  rcases List.mem_cons.mp ht with rfl | ht
  · exact lt_irrefl _ hst.2
  · exact absurd hst.1 (not_le.mpr ((separated_cons.mp h).1 t ht))

lemma Separated.disjoint_tail {s : Segment α} {l : List (Segment α)} (h : Separated (s::l)) :
    Disjoint s.points (cover l) := by
  rw [Set.disjoint_left]
  intro a hs hl
  obtain ⟨t,ht,hat⟩ := mem_cover.mp hl
  exact absurd (hat.1.trans_lt hs.2) (not_lt.mpr ((separated_cons.mp h).1 t ht).le)

/-- The point at which a segment of the list stops is not covered. -/
lemma Separated.stop_notMem_of_mem {l : List (Segment α)} (h : Separated l) {t : Segment α}
    (ht : t ∈ l) : t.stop ∉ cover l := by
  induction l with
  | nil => cases ht
  | cons s l ih =>
    rcases List.mem_cons.mp ht with rfl | ht
    · exact h.stop_notMem
    · have hst := (separated_cons.mp h).1 t ht
      rintro (hs | hl)
      · exact absurd hs.2 (not_lt.mpr (hst.trans t.lt).le)
      · exact ih (separated_cons.mp h).2 ht hl

/-- A segment of covered points lies in one of the segments. -/
lemma Separated.exists_of_subset_cover {l : List (Segment α)} (h : Separated l) {g : Segment α}
    (hg : g.points ⊆ cover l) : ∃ t ∈ l, t.start ≤ g.start ∧ g.stop ≤ t.stop := by
  obtain ⟨t,ht,hstart⟩ := mem_cover.mp (hg g.start_mem)
  refine ⟨t,ht,hstart.1,not_lt.mp ?_⟩
  intro hlt
  exact h.stop_notMem_of_mem ht (hg ⟨hstart.2.le,hlt⟩)

/-- A separated list is determined by its cover. -/
theorem Separated.eq_of_cover_eq {l l' : List (Segment α)} (h : Separated l) (h' : Separated l')
    (hc : cover l = cover l') : l = l' := by
  induction l generalizing l' with
  | nil =>
    cases l' with
    | nil => rfl
    | cons t l' =>
      have ht : t.start ∈ cover (t::l') := .inl t.start_mem
      rw [← hc] at ht
      cases ht
  | cons s l ih =>
    cases l' with
    | nil =>
      have hs : s.start ∈ cover (s::l) := .inl s.start_mem
      rw [hc] at hs
      cases hs
    | cons t l' =>
      have hstart : s.start = t.start := by
        apply le_antisymm
        · exact h.start_le (hc ▸ .inl t.start_mem)
        · exact h'.start_le (hc ▸ .inl s.start_mem)
      -- of two different stops the smaller one would be covered by the other list
      have hstop : s.stop = t.stop := by
        rcases lt_trichotomy s.stop t.stop with hlt | heq | hlt
        · exact absurd (hc ▸ .inl ⟨hstart ▸ s.lt.le,hlt⟩) h.stop_notMem
        · exact heq
        · exact absurd (hc ▸ .inl ⟨hstart ▸ t.lt.le,hlt⟩) h'.stop_notMem
      have hst : s = t := Segment.ext hstart hstop
      subst hst
      have htail : cover l = cover l' := by
        rw [← Set.union_sdiff_cancel_left (s := s.points) (t := cover l),
          ← Set.union_sdiff_cancel_left (s := s.points) (t := cover l')]
        · exact congrArg (· \ s.points) hc
        · exact (Set.disjoint_iff.mp h'.disjoint_tail)
        · exact (Set.disjoint_iff.mp h.disjoint_tail)
      rw [ih (separated_cons.mp h).2 (separated_cons.mp h').2 htail]

/-- Between two points, every point is free or in exactly one of the used segments. -/
structure Tiling (base brk : α) (free : List (Segment α)) (used : Finset (Segment α)) : Prop where
  separated : Separated free
  disjoint : (used : Set (Segment α)).PairwiseDisjoint Segment.points
  apart : ∀ s ∈ used, Disjoint s.points (cover free)
  covers : cover free ∪ ⋃ s ∈ used, s.points = Set.Ico base brk

namespace Tiling
variable {base brk brk' : α} {free free' : List (Segment α)} {used : Finset (Segment α)}

lemma empty (base : α) : Tiling base base [] ∅ := ⟨by simp,by simp,by simp,by simp⟩

lemma cover_eq (h : Tiling base brk free used) :
    cover free = Set.Ico base brk \ ⋃ s ∈ used, s.points := by
  rw [← h.covers,Set.union_sdiff_cancel_right]
  rw [← Set.disjoint_iff_inter_eq_empty.mp (Set.disjoint_iUnion₂_right.mpr fun s hs =>
    (h.apart s hs).symm)]

/-- The used segments determine the free list. -/
theorem free_unique (h : Tiling base brk free used) (h' : Tiling base brk free' used) :
    free = free' :=
  h.separated.eq_of_cover_eq h'.separated (h.cover_eq.trans h'.cover_eq.symm)

/-- No point is in two of the segments. -/
lemma pairwise (h : Tiling base brk free used) {s t : Segment α} (hs : s ∈ free.toFinset ∪ used)
    (ht : t ∈ free.toFinset ∪ used) (hne : s ≠ t) : Disjoint s.points t.points := by
  have hfree : free.Pairwise fun s t => Disjoint s.points t.points :=
    h.separated.imp fun hst => Segment.disjoint_of_stop_le hst.le
  rw [Finset.mem_union,List.mem_toFinset] at hs ht
  rcases hs with hs | hs <;> rcases ht with ht | ht
  · have : Std.Symm fun s t : Segment α => Disjoint s.points t.points := ⟨fun _ _ h => h.symm⟩
    exact hfree.forall hs ht hne
  · exact ((h.apart t ht).mono_right (points_subset_cover hs)).symm
  · exact (h.apart s hs).mono_right (points_subset_cover ht)
  · exact h.disjoint hs ht hne

lemma free_bounds (h : Tiling base brk free used) {s : Segment α} (hs : s ∈ free) :
    base ≤ s.start ∧ s.stop ≤ brk := by
  apply Segment.bounds_of_subset
  rw [← h.covers]
  exact (points_subset_cover hs).trans Set.subset_union_left

lemma used_bounds (h : Tiling base brk free used) {s : Segment α} (hs : s ∈ used) :
    base ≤ s.start ∧ s.stop ≤ brk := by
  apply Segment.bounds_of_subset
  rw [← h.covers]
  exact (Set.subset_biUnion_of_mem hs).trans Set.subset_union_right

/-- A piece of the free points becomes a used segment. -/
lemma take (h : Tiling base brk free used) {b : Segment α} (hsep : Separated free')
    (hb : Disjoint b.points (cover free')) (hc : cover free = cover free' ∪ b.points) :
    Tiling base brk free' (insert b used) := by
  have hfree : ∀ s ∈ used, Disjoint s.points (cover free') ∧ Disjoint s.points b.points := by
    intro s hs
    have hs := h.apart s hs
    rw [hc] at hs
    exact Set.disjoint_union_right.mp hs
  refine ⟨hsep,?_,?_,?_⟩
  · rw [Finset.coe_insert,Set.pairwiseDisjoint_insert]
    exact ⟨h.disjoint,fun s hs _ => (hfree s hs).2.symm⟩
  · intro s hs
    rcases Finset.mem_insert.mp hs with rfl | hs
    · exact hb
    · exact (hfree s hs).1
  · rw [Finset.set_biUnion_insert,← Set.union_assoc,← hc,h.covers]

/-- A used segment becomes free. -/
lemma release (h : Tiling base brk free used) {b : Segment α} (hb : b ∈ used)
    (hsep : Separated free') (hc : cover free' = cover free ∪ b.points) :
    Tiling base brk free' (used.erase b) := by
  refine ⟨hsep,h.disjoint.subset (Finset.coe_subset.mpr (Finset.erase_subset _ _)),?_,?_⟩
  · intro s hs
    obtain ⟨hne,hs⟩ := Finset.mem_erase.mp hs
    rw [hc]
    exact Set.disjoint_union_right.mpr ⟨h.apart s hs,h.disjoint hs hb hne⟩
  · rw [hc,Set.union_assoc,← Finset.set_biUnion_insert,Finset.insert_erase hb,h.covers]

/-- The range grows by a used segment. -/
lemma extend (h : Tiling base brk free used) {b : Segment α} (hstart : b.start = brk)
    (hle : base ≤ brk) : Tiling base b.stop free (insert b used) := by
  have hold : ∀ t : Set α, t ⊆ Set.Ico base brk → Disjoint t b.points := by
    intro t ht
    rw [Set.disjoint_left]
    intro a ha hab
    exact absurd (ht ha).2 (not_lt.mpr (hstart ▸ hab.1))
  have hfree : cover free ⊆ Set.Ico base brk := h.covers ▸ Set.subset_union_left
  refine ⟨h.separated,?_,?_,?_⟩
  · rw [Finset.coe_insert,Set.pairwiseDisjoint_insert]
    refine ⟨h.disjoint,fun s hs _ => (hold _ ?_).symm⟩
    exact h.covers ▸ (Set.subset_biUnion_of_mem hs).trans Set.subset_union_right
  · intro s hs
    rcases Finset.mem_insert.mp hs with rfl | hs
    · exact (hold _ hfree).symm
    · exact h.apart s hs
  · have hpoints : b.points = Set.Ico brk b.stop := by rw [Segment.points,hstart]
    rw [Finset.set_biUnion_insert,Set.union_left_comm,h.covers,hpoints,Set.union_comm]
    exact Set.Ico_union_Ico_eq_Ico hle (hstart ▸ b.lt.le)

end Tiling

section Length
variable {base brk : ℕ} {free : List (Segment ℕ)} {used : Finset (Segment ℕ)}

def Segment.length (s : Segment ℕ) : ℕ := s.stop-s.start

/-- The lengths of the free and of the used segments add up to the range. -/
theorem Tiling.total_length (h : Tiling base brk free used) :
    (free.map Segment.length).sum+∑ s ∈ used, s.length = brk-base := by
  have hnodup : free.Nodup := h.separated.imp fun {s t} hst => by
    rintro rfl
    exact absurd (s.lt.trans hst) (lt_irrefl _)
  have hdisj : Disjoint free.toFinset used := by
    rw [Finset.disjoint_left]
    intro s hfree hused
    exact Set.disjoint_left.mp (h.apart s hused) s.start_mem
      (points_subset_cover (List.mem_toFinset.mp hfree) s.start_mem)
  have hall : ((free.toFinset ∪ used : Finset (Segment ℕ)) : Set (Segment ℕ)).PairwiseDisjoint
      fun s => Finset.Ico s.start s.stop := by
    intro s hs t ht hne
    have hpoints := h.pairwise hs ht hne
    simp only [Function.onFun,Finset.disjoint_left,Finset.mem_Ico]
    exact fun a ha => Set.disjoint_left.mp hpoints ha
  have hunion : (free.toFinset ∪ used).biUnion (fun s => Finset.Ico s.start s.stop) =
      Finset.Ico base brk := by
    ext a
    have hcov := Set.ext_iff.mp h.covers a
    simp only [Set.mem_union,Set.mem_iUnion,mem_cover,Segment.mem_points,Set.mem_Ico] at hcov
    simp only [Finset.mem_biUnion,Finset.mem_union,List.mem_toFinset,Finset.mem_Ico,← hcov]
    constructor
    · rintro ⟨s,hs | hs,ha⟩
      · exact .inl ⟨s,hs,ha⟩
      · exact .inr ⟨s,hs,ha⟩
    · rintro (⟨s,hs,ha⟩ | ⟨s,hs,ha⟩)
      · exact ⟨s,.inl hs,ha⟩
      · exact ⟨s,.inr hs,ha⟩
  have hcard := Finset.card_biUnion hall
  rw [hunion,Finset.sum_union hdisj,Nat.card_Ico] at hcard
  simp only [Nat.card_Ico] at hcard
  rw [hcard]
  congr 1
  exact (List.sum_toFinset _ hnodup).symm

end Length

/-- Put a segment in front, gluing it to the first one if they touch. -/
def attach (s : Segment α) : List (Segment α) → List (Segment α)
  | [] => [s]
  | t::l => if h : s.stop = t.start then s.append t h::l else s::t::l

@[simp] lemma cover_attach (s : Segment α) (l : List (Segment α)) :
    cover (attach s l) = s.points ∪ cover l := by
  cases l with
  | nil => simp [attach]
  | cons t l =>
    simp only [attach]
    split_ifs with h
    · simp [Segment.points_append,Set.union_assoc]
    · rfl

/-- The ends of the segments of a glued list are ends of the original ones. -/
lemma mem_attach {s r : Segment α} {l : List (Segment α)} (h : r ∈ attach s l) :
    (r.start = s.start ∨ ∃ t ∈ l, r.start = t.start) ∧
      (r.stop = s.stop ∨ ∃ t ∈ l, r.stop = t.stop) := by
  cases l with
  | nil => simp_all [attach]
  | cons t l =>
    simp only [attach] at h
    split_ifs at h with hst
    · rcases List.mem_cons.mp h with rfl | h
      · simp
      · exact ⟨.inr ⟨r,by simp [h],rfl⟩,.inr ⟨r,by simp [h],rfl⟩⟩
    · rcases List.mem_cons.mp h with rfl | h
      · simp
      · exact ⟨.inr ⟨r,h,rfl⟩,.inr ⟨r,h,rfl⟩⟩

lemma attach_eq_cons (s : Segment α) (l : List (Segment α)) :
    ∃ r l', attach s l = r::l' ∧ r.start = s.start := by
  cases l with
  | nil => exact ⟨s,[],rfl,rfl⟩
  | cons t l =>
    simp only [attach]
    split_ifs with hst
    · exact ⟨_,_,rfl,rfl⟩
    · exact ⟨_,_,rfl,rfl⟩

lemma ascending_attach {s : Segment α} {l : List (Segment α)} (h : Ascending (s::l)) :
    Ascending (attach s l) := by
  cases l with
  | nil => exact h
  | cons t l =>
    obtain ⟨-,hl⟩ := ascending_cons.mp h
    simp only [attach]
    split_ifs with hst
    · exact ascending_cons.mpr ⟨(ascending_cons.mp hl).1,(ascending_cons.mp hl).2⟩
    · exact h

lemma separated_attach {s : Segment α} {l : List (Segment α)} (hl : Separated l)
    (h : ∀ t ∈ l, s.stop ≤ t.start) : Separated (attach s l) := by
  cases l with
  | nil => simp [attach]
  | cons t l =>
    obtain ⟨htl,hl⟩ := separated_cons.mp hl
    simp only [attach]
    split_ifs with hst
    · exact separated_cons.mpr ⟨fun r hr => htl r hr,hl⟩
    · have hlt : s.stop < t.start := lt_of_le_of_ne (h t (by simp)) hst
      refine separated_cons.mpr ⟨?_,separated_cons.mpr ⟨htl,hl⟩⟩
      intro r hr
      rcases List.mem_cons.mp hr with rfl | hr
      · exact hlt
      · exact hlt.trans (t.lt.trans (htl r hr))

lemma separated_append_attach {l r : List (Segment α)} {t : Segment α} (hl : Separated l)
    (hlt : ∀ u ∈ l, u.stop < t.start) (hr : Separated r) (htr : ∀ v ∈ r, t.stop ≤ v.start) :
    Separated (l++attach t r) := by
  refine separated_append.mpr ⟨hl,separated_attach hr htr,?_⟩
  intro u hu v hv
  obtain ⟨he | ⟨w,hw,he⟩,-⟩ := mem_attach hv
  · exact he ▸ hlt u hu
  · exact he ▸ ((hlt u hu).trans t.lt).trans_le (htr w hw)

end DspLibrary.Foundation
