import Mathlib.Algebra.BigOperators.Group.List.Basic
import Mathlib.Algebra.GroupWithZero.Nat

/-!
# The increases of a sequence

`increments` lists by how much a sequence of numbers goes up from each item to the next.
There are fewer increases than items, one for each item after the first if the sequence only
goes up, and then they add up to the last item less the first.
-/

set_option autoImplicit false

namespace UsbTrace.Library

/-- The increases from each item to the next. -/
def increments : List ℕ → List ℕ
  | a :: b :: l => (if a < b then [b - a] else []) ++ increments (b :: l)
  | _ => []

/-- The increase to `b` from the last of the items before it. -/
def incrementTo (b : ℕ) : Option ℕ → List ℕ
  | some a => if a < b then [b - a] else []
  | none => []

theorem increments_concat (l : List ℕ) (b : ℕ) :
    increments (l ++ [b]) = increments l ++ incrementTo b l.getLast? := by
  induction l with
  | nil => rfl
  | cons a l ih =>
    cases l with
    | nil => exact List.append_nil _
    | cons a' l =>
      show _ ++ increments (a' :: l ++ [b]) = (_ ++ increments (a' :: l)) ++ _
      rw [ih, List.append_assoc, List.getLast?_cons_cons]

theorem length_increments_le (l : List ℕ) : (increments l).length ≤ l.length - 1 := by
  induction l with
  | nil => exact Nat.le_refl 0
  | cons a l ih =>
    cases l with
    | nil => exact Nat.le_refl 0
    | cons b l =>
      have hone : (if a < b then [b - a] else []).length ≤ 1 := by split <;> simp
      rw [increments, List.length_append]
      rw [List.length_cons] at ih ⊢
      rw [List.length_cons]
      omega

/-- **A sequence that goes up** has an increase to each item after the first, and they add up
to the way from the first item to the last. -/
theorem increments_of_lt {a : ℕ} {l : List ℕ} (h : (a :: l).Pairwise (· < ·)) :
    (increments (a :: l)).length = l.length ∧
      (increments (a :: l)).sum + a = (a :: l).getLast (List.cons_ne_nil a l) := by
  induction l generalizing a with
  | nil => exact ⟨rfl, Nat.zero_add a⟩
  | cons b l ih =>
    have hab : a < b := List.rel_of_pairwise_cons h List.mem_cons_self
    obtain ⟨hlen, hsum⟩ := ih (List.Pairwise.of_cons h)
    rw [increments, if_pos hab, List.singleton_append]
    refine ⟨by rw [List.length_cons, List.length_cons, hlen], ?_⟩
    rw [List.sum_cons, List.getLast_cons_cons, ← hsum]
    omega

/-- A sum over a list, by two kinds of items. -/
theorem sum_filter_add_sum_filter_not (p : ℕ → Bool) (l : List ℕ) :
    (l.filter p).sum + (l.filter fun n => !p n).sum = l.sum := by
  induction l with
  | nil => rfl
  | cons n l ih =>
    rw [List.filter_cons, List.filter_cons, List.sum_cons, ← ih]
    cases p n with
    | true =>
      simp only [if_true, Bool.not_true, Bool.false_eq_true, if_false, List.sum_cons]
      omega
    | false =>
      simp only [Bool.false_eq_true, if_false, Bool.not_false, if_true, List.sum_cons]
      omega

end UsbTrace.Library
