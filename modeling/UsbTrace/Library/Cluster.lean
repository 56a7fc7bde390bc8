import Mathlib.Data.List.Sort
import Mathlib.Data.Finset.Card

/-!
# Clusters of points in time

Points are grouped where neighbours in sorted order lie at most `c` apart.  A list that is
gone over in the order it comes in is cut into runs instead: a run goes on while the next
point is at the same time or at most `c` earlier.  There are as many runs as groups
exactly when the last points of the runs are distinct and each is the first of its group
(`runs_eq_groupCount_iff`); so it is for a list in order (`runs_eq_groupCount`).
-/

set_option autoImplicit false

namespace UsbTrace.Library

variable {c : ℕ}

/-- The pieces of a list that is split wherever two neighbours lie more than `c` apart. -/
def splitCount (c : ℕ) : List ℕ → ℕ
  | [] => 0
  | [_] => 1
  | a :: b :: l => (if a - b + (b - a) > c then 1 else 0) + splitCount c (b :: l)

/-- The groups of points: sorted, and split wherever two neighbours lie more than `c`
apart. -/
def groupCount (c : ℕ) (ts : List ℕ) : ℕ := splitCount c (ts.insertionSort (· ≥ ·))

/-- The last points of the runs of a list. -/
def runEnds (c : ℕ) : List ℕ → List ℕ
  | [] => []
  | [a] => [a]
  | a :: b :: l => if b ≤ a ∧ a - b ≤ c then runEnds c (b :: l) else a :: runEnds c (b :: l)

/-- No point of the list lies before `t` by at most `c`. -/
def FirstOfGroup (c : ℕ) (ts : List ℕ) (t : ℕ) : Prop := ∀ u ∈ ts, u < t → c < t - u

instance (c : ℕ) (ts : List ℕ) (t : ℕ) : Decidable (FirstOfGroup c ts t) :=
  inferInstanceAs (Decidable (∀ u ∈ ts, u < t → c < t - u))

/-- The first points of the groups. -/
def groupFirsts (c : ℕ) (ts : List ℕ) : Finset ℕ := ts.toFinset.filter (FirstOfGroup c ts)

theorem mem_groupFirsts {ts : List ℕ} {t : ℕ} :
    t ∈ groupFirsts c ts ↔ t ∈ ts ∧ FirstOfGroup c ts t := by
  simp [groupFirsts]

/-! ## Groups -/

/-- A list in order splits as it runs. -/
theorem splitCount_of_sorted {l : List ℕ} (h : l.Pairwise (· ≥ ·)) :
    splitCount c l = (runEnds c l).length := by
  induction l with
  | nil => rfl
  | cons a l ih =>
    cases l with
    | nil => rfl
    | cons b l =>
      have hab : b ≤ a := List.rel_of_pairwise_cons h (by simp)
      rw [splitCount, runEnds, ih h.of_cons]
      by_cases hc : a - b ≤ c
      · rw [if_neg (by omega), if_pos ⟨hab, hc⟩, Nat.zero_add]
      · rw [if_pos (by omega), if_neg fun hand => hc hand.2, List.length_cons, Nat.add_comm]

/-- The last points of the runs are points of the list. -/
theorem runEnds_subset (l : List ℕ) : runEnds c l ⊆ l := by
  induction l with
  | nil => exact fun t ht => ht
  | cons a l ih =>
    cases l with
    | nil => exact fun t ht => ht
    | cons b l =>
      rw [runEnds]
      split
      · exact fun t ht => List.mem_cons_of_mem a (ih ht)
      · exact List.cons_subset_cons a ih

/-- **The first of a group ends a run.** -/
theorem mem_runEnds {l : List ℕ} {t : ℕ} (ht : t ∈ l) (h : FirstOfGroup c l t) :
    t ∈ runEnds c l := by
  induction l with
  | nil => exact ht
  | cons a l ih =>
    cases l with
    | nil => exact ht
    | cons b l =>
      have hrest : FirstOfGroup c (b :: l) t := fun u hu => h u (List.mem_cons_of_mem a hu)
      rw [runEnds]
      by_cases hrun : b ≤ a ∧ a - b ≤ c
      · rw [if_pos hrun]
        rcases List.mem_cons.mp ht with rfl | htail
        · -- the first of its group goes on to a point of the same time only
          have hle : ¬b < t := fun hlt => by
            have := h b (by simp) hlt
            omega
          have heq : b = t := by omega
          exact ih (by simp [heq]) hrest
        · exact ih htail hrest
      · rw [if_neg hrun]
        rcases List.mem_cons.mp ht with rfl | htail
        · exact List.mem_cons_self
        · exact List.mem_cons_of_mem a (ih htail hrest)

theorem groupFirsts_subset (l : List ℕ) : groupFirsts c l ⊆ (runEnds c l).toFinset := by
  intro t ht
  obtain ⟨hmem, hfirst⟩ := mem_groupFirsts.mp ht
  exact List.mem_toFinset.mpr (mem_runEnds hmem hfirst)

/-- In a list in order the runs are the groups. -/
theorem runEnds_of_sorted {l : List ℕ} (h : l.Pairwise (· ≥ ·)) :
    (runEnds c l).Nodup ∧ ∀ t ∈ runEnds c l, FirstOfGroup c l t := by
  induction l with
  | nil => exact ⟨List.nodup_nil, fun t ht => absurd ht List.not_mem_nil⟩
  | cons a l ih =>
    cases l with
    | nil =>
      refine ⟨List.nodup_singleton a, fun t ht u hu hlt => ?_⟩
      rw [List.mem_singleton.mp ht, List.mem_singleton.mp hu] at hlt
      omega
    | cons b l =>
      obtain ⟨hnodup, hfirst⟩ := ih h.of_cons
      have hle : ∀ u ∈ b :: l, u ≤ a := fun u hu => List.rel_of_pairwise_cons h hu
      have hleb : ∀ u ∈ b :: l, u ≤ b := by
        intro u hu
        rcases List.mem_cons.mp hu with rfl | hu
        · exact Nat.le_refl u
        · exact List.rel_of_pairwise_cons h.of_cons hu
      have htail : ∀ t ∈ runEnds c (b :: l), FirstOfGroup c (a :: b :: l) t := by
        intro t ht u hu hlt
        rcases List.mem_cons.mp hu with rfl | hu
        · have := hle t (runEnds_subset _ ht)
          omega
        · exact hfirst t ht u hu hlt
      rw [runEnds]
      split
      · exact ⟨hnodup, htail⟩
      · next hbreak =>
        have hgap : c < a - b := by
          by_contra hc
          exact hbreak ⟨hle b (by simp), by omega⟩
        refine ⟨List.nodup_cons.mpr ⟨fun hmem => ?_, hnodup⟩, fun t ht => ?_⟩
        · have := hleb a (runEnds_subset _ hmem)
          omega
        · rcases List.mem_cons.mp ht with rfl | ht
          · intro u hu hlt
            rcases List.mem_cons.mp hu with rfl | hu
            · omega
            · have := hleb u hu
              omega
          · exact htail t ht

/-- **Runs and groups** are as many exactly when the last points of the runs are distinct and
each is the first of its group. -/
theorem length_runEnds_eq_iff (l : List ℕ) :
    (runEnds c l).length = (groupFirsts c l).card ↔
      (runEnds c l).Nodup ∧ ∀ t ∈ runEnds c l, FirstOfGroup c l t := by
  have hsub := groupFirsts_subset (c := c) l
  have hle := Finset.card_le_card hsub
  have hlen := List.toFinset_card_le (runEnds c l)
  constructor
  · intro heq
    have hcard : (runEnds c l).toFinset.card = (runEnds c l).length := by omega
    have hset : groupFirsts c l = (runEnds c l).toFinset :=
      Finset.eq_of_subset_of_card_le hsub (by omega)
    refine ⟨?_, fun t ht => ?_⟩
    · exact Multiset.toFinset_card_eq_card_iff_nodup.mp hcard
    · have hmem : t ∈ groupFirsts c l := hset ▸ List.mem_toFinset.mpr ht
      exact (mem_groupFirsts.mp hmem).2
  · rintro ⟨hnodup, hfirst⟩
    have hset : groupFirsts c l = (runEnds c l).toFinset := by
      refine Finset.Subset.antisymm hsub fun t ht => ?_
      have ht := List.mem_toFinset.mp ht
      exact mem_groupFirsts.mpr ⟨runEnds_subset l ht, hfirst t ht⟩
    rw [hset, List.toFinset_card_of_nodup hnodup]

/-- The groups do not depend on the order of the points. -/
theorem groupFirsts_perm {l l' : List ℕ} (h : l.Perm l') : groupFirsts c l = groupFirsts c l' := by
  ext t
  simp only [mem_groupFirsts, FirstOfGroup, h.mem_iff]

/-- **The number of groups** is that of their first points. -/
theorem groupCount_eq_card (ts : List ℕ) : groupCount c ts = (groupFirsts c ts).card := by
  have hsorted : (ts.insertionSort (· ≥ ·)).Pairwise (· ≥ ·) := List.pairwise_insertionSort _ _
  rw [groupCount, splitCount_of_sorted hsorted,
    (length_runEnds_eq_iff _).mpr (runEnds_of_sorted hsorted),
    groupFirsts_perm (List.perm_insertionSort _ _)]

/-- **Runs are groups** exactly when their last points are distinct, and first of a group. -/
theorem runs_eq_groupCount_iff (ts : List ℕ) :
    (runEnds c ts).length = groupCount c ts ↔
      (runEnds c ts).Nodup ∧ ∀ t ∈ runEnds c ts, FirstOfGroup c ts t := by
  rw [groupCount_eq_card, length_runEnds_eq_iff]

/-- Runs of a list in order are groups. -/
theorem runs_eq_groupCount {ts : List ℕ} (h : ts.Pairwise (· ≥ ·)) :
    (runEnds c ts).length = groupCount c ts :=
  (runs_eq_groupCount_iff ts).mpr (runEnds_of_sorted h)

end UsbTrace.Library
