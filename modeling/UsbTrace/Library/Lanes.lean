import Mathlib.Data.List.Basic
import Mathlib.Logic.Function.Basic

/-!
# Lanes of waiting items

Items wait under a key, each lane in the order of its arrivals, and are taken some at a time.
How they are kept is a parameter (`LaneOps`), of which it may be known that nothing is lost and
each lane keeps its order (`LaneOps.Fifo`), as lists do (`listLanes`).  `Exchange` states what
went in and out between two moments; exchanges compose (`Exchange.trans`), so over a whole run
the items taken from a lane, followed by those that still wait, are the items put into it, in
order.
-/

set_option autoImplicit false

namespace UsbTrace.Library

/-- The items that wait under each key, oldest first. -/
abbrev Lanes (κ α : Type) := κ → List α

/-- How items are kept: what becomes of the lanes when items arrive, and what a visit that may
take up to `n` items of a lane takes and leaves. -/
structure LaneOps (κ α : Type) where
  put : Lanes κ α → List α → Lanes κ α
  take : Lanes κ α → κ → ℕ → Lanes κ α × List α

variable {κ α : Type}

/-- Goes over several lanes. -/
def takeVisits (ops : LaneOps κ α) : Lanes κ α → List (κ × ℕ) → Lanes κ α × List α
  | l, [] => (l, [])
  | l, (k, n) :: rest =>
    let (l, out) := ops.take l k n
    let (l, out') := takeVisits ops l rest
    (l, out ++ out')

/-- Every item is in the lane of its key. -/
def Filed (key : α → κ) (l : Lanes κ α) : Prop := ∀ k, ∀ x ∈ l k, key x = k

theorem filed_nil {key : α → κ} : Filed key fun _ => [] := fun _ _ h => absurd h List.not_mem_nil

section Exchange

variable [DecidableEq κ]

/-- Between `l` and `l'`, `put` went in and `out` came out. -/
def Exchange (key : α → κ) (l : Lanes κ α) (put out : List α) (l' : Lanes κ α) : Prop :=
  ∀ k, (out.filter fun x => key x = k) ++ l' k = l k ++ put.filter fun x => key x = k

variable {key : α → κ} {l l' l'' : Lanes κ α} {put put' out out' : List α}

theorem exchange_refl (key : α → κ) (l : Lanes κ α) : Exchange key l [] [] l := fun k => by simp

/-- Exchanges compose. -/
theorem Exchange.trans (h : Exchange key l put out l') (h' : Exchange key l' put' out' l'') :
    Exchange key l (put ++ put') (out ++ out') l'' := by
  intro k
  rw [List.filter_append, List.filter_append, List.append_assoc, h' k, ← List.append_assoc, h k,
    List.append_assoc]

/-- An exchange keeps items in their lanes. -/
theorem Exchange.filed (h : Exchange key l put out l') (hl : Filed key l) : Filed key l' := by
  intro k x hx
  have hmem : x ∈ l k ++ put.filter fun x => key x = k := by
    rw [← h k]
    exact List.mem_append_right _ hx
  rcases List.mem_append.mp hmem with hx | hx
  · exact hl k x hx
  · exact of_decide_eq_true (List.mem_filter.mp hx).2

/-- Nothing is lost, nothing comes twice, each lane keeps its order, and a visit takes of its own
lane. -/
structure LaneOps.Fifo (ops : LaneOps κ α) (key : α → κ) : Prop where
  put : ∀ l xs, Exchange key l xs [] (ops.put l xs)
  take : ∀ {l}, Filed key l → ∀ k n, Exchange key l [] (ops.take l k n).2 (ops.take l k n).1
  taken : ∀ {l}, Filed key l → ∀ k n, ∀ x ∈ (ops.take l k n).2, key x = k

namespace LaneOps.Fifo

variable {ops : LaneOps κ α}

theorem takeVisits (hops : ops.Fifo key) (hl : Filed key l) (visits : List (κ × ℕ)) :
    Exchange key l [] (takeVisits ops l visits).2 (takeVisits ops l visits).1 := by
  induction visits generalizing l with
  | nil => exact exchange_refl key l
  | cons v rest ih =>
    have htake := hops.take hl v.1 v.2
    exact htake.trans (ih (htake.filed hl))

/-- What is taken comes from a lane that is visited. -/
theorem mem_takeVisits (hops : ops.Fifo key) (hl : Filed key l) {visits : List (κ × ℕ)} {x : α}
    (h : x ∈ (Library.takeVisits ops l visits).2) : ∃ v ∈ visits, key x = v.1 := by
  induction visits generalizing l with
  | nil => exact absurd h List.not_mem_nil
  | cons v rest ih =>
    rcases List.mem_append.mp h with h | h
    · exact ⟨v, List.mem_cons_self, hops.taken hl v.1 v.2 x h⟩
    · obtain ⟨v', hv', hx⟩ := ih ((hops.take hl v.1 v.2).filed hl) h
      exact ⟨v', List.mem_cons_of_mem v hv', hx⟩

end LaneOps.Fifo

/-- Items kept in lists: arrivals go to the end of their lanes, and are taken from the front. -/
def listLanes (key : α → κ) : LaneOps κ α where
  put l xs k := l k ++ xs.filter fun x => key x = k
  take l k n := (Function.update l k ((l k).drop n), (l k).take n)

theorem listLanes_fifo (key : α → κ) : (listLanes key).Fifo key where
  put _ _ _ := rfl
  take := by
    intro l hl k n j
    have hkey : ∀ x ∈ (l k).take n, key x = k := fun x hx => hl k x (List.mem_of_mem_take hx)
    rw [listLanes, List.filter_nil, List.append_nil]
    by_cases hj : j = k
    · subst hj
      rw [List.filter_eq_self.mpr fun x hx => decide_eq_true (hkey x hx)]
      simp only [Function.update_self, List.take_append_drop]
    · have hnone : ((l k).take n).filter (fun x => key x = j) = [] := by
        apply List.filter_eq_nil_iff.mpr
        intro x hx h
        exact hj (by rw [← of_decide_eq_true h, hkey x hx])
      rw [hnone]
      simp only [Function.update_of_ne hj, List.nil_append]
  taken hl k _ x hx := hl k x (List.mem_of_mem_take hx)

end Exchange

end UsbTrace.Library
