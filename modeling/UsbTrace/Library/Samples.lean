import Mathlib.Algebra.GroupWithZero.Nat
import Mathlib.Algebra.Order.BigOperators.Group.List
import Mathlib.Algebra.Order.Group.Nat
import Mathlib.Tactic.Common

/-!
# Running statistics

Count, sum and extremes of positive samples, taken as the samples come in; before the first of
them both extremes are 0, so that 0 stands for "none yet".
-/

set_option autoImplicit false

namespace UsbTrace.Library

/-- Count, sum, least and greatest of some samples. -/
@[ext]
structure Samples where
  count : ℕ
  sum : ℕ
  least : ℕ
  most : ℕ
deriving DecidableEq, Repr

namespace Samples

/-- The statistics of a list. -/
def ofList (vs : List ℕ) : Samples where
  count := vs.length
  sum := vs.sum
  least := vs.min?.getD 0
  most := vs.max?.getD 0

/-- One more sample: the least is replaced where there is none yet. -/
def note (s : Samples) (v : ℕ) : Samples where
  count := s.count + 1
  sum := s.sum + v
  least := if s.least = 0 ∨ v < s.least then v else s.least
  most := if v > s.most then v else s.most

variable {vs : List ℕ}

theorem least_mem (hne : vs ≠ []) : (ofList vs).least ∈ vs := by
  obtain ⟨m, hm⟩ := Option.isSome_iff_exists.mp (List.isSome_min?_of_ne_nil hne)
  rw [ofList, hm]
  exact List.min?_mem hm

theorem least_le {v : ℕ} (hv : v ∈ vs) : (ofList vs).least ≤ v := by
  obtain ⟨m, hm⟩ := Option.isSome_iff_exists.mp (List.isSome_min?_of_mem hv)
  rw [ofList, hm]
  exact (List.min?_eq_some_iff.mp hm).2 v hv

theorem most_mem (hne : vs ≠ []) : (ofList vs).most ∈ vs := by
  obtain ⟨m, hm⟩ := Option.isSome_iff_exists.mp (List.isSome_max?_of_ne_nil hne)
  rw [ofList, hm]
  exact List.max?_mem hm

theorem le_most {v : ℕ} (hv : v ∈ vs) : v ≤ (ofList vs).most := by
  obtain ⟨m, hm⟩ := Option.isSome_iff_exists.mp (List.isSome_max?_of_mem hv)
  rw [ofList, hm]
  exact (List.max?_eq_some_iff.mp hm).2 v hv

theorem least_cons (x : ℕ) (xs : List ℕ) : (ofList (x :: xs)).least = xs.foldl min x :=
  congrArg (fun m => Option.getD m 0) List.min?_cons'

theorem most_cons (x : ℕ) (xs : List ℕ) : (ofList (x :: xs)).most = xs.foldl max x :=
  congrArg (fun m => Option.getD m 0) List.max?_cons'

/-- **One sample at a time** makes the statistics of the list. -/
theorem ofList_concat (hpos : ∀ x ∈ vs, 0 < x) (v : ℕ) :
    ofList (vs ++ [v]) = (ofList vs).note v := by
  cases vs with
  | nil => simp [ofList, note]
  | cons x xs =>
    refine Samples.ext List.length_append ?_ ?_ ?_
    · exact List.sum_append.trans (by rw [List.sum_singleton]; rfl)
    · have hleast : (ofList (x :: xs)).least ≠ 0 :=
        (hpos _ (least_mem (List.cons_ne_nil x xs))).ne'
      rw [List.cons_append, least_cons, List.foldl_append, List.foldl_cons, List.foldl_nil,
        ← least_cons, note]
      rcases Nat.lt_or_ge v (ofList (x :: xs)).least with h | h
      · rw [if_pos (.inr h), Nat.min_eq_right h.le]
      · rw [if_neg (not_or.mpr ⟨hleast, h.not_gt⟩), Nat.min_eq_left h]
    · rw [List.cons_append, most_cons, List.foldl_append, List.foldl_cons, List.foldl_nil,
        ← most_cons, note]
      rcases Nat.lt_or_ge (ofList (x :: xs)).most v with h | h
      · rw [if_pos h, Nat.max_eq_right h.le]
      · rw [if_neg h.not_gt, Nat.max_eq_left h]

/-- The sum lies between what the extremes would make. -/
theorem count_mul_least_le (vs : List ℕ) :
    (ofList vs).count * (ofList vs).least ≤ (ofList vs).sum :=
  List.card_nsmul_le_sum vs _ fun _ hv => least_le hv

theorem sum_le_count_mul (vs : List ℕ) :
    (ofList vs).sum ≤ (ofList vs).count * (ofList vs).most :=
  List.sum_le_card_nsmul vs _ fun _ hv => le_most hv

end Samples

end UsbTrace.Library
