import Mathlib.Data.Finset.Basic
import Mathlib.Data.Finset.Card
import Mathlib.Data.List.Count

/-!
# Ledgers of acquired and released resources

A trace of acquires and releases is in order when nothing is acquired twice without a
release in between and nothing is released that is not held.  `heldAfter` reads a trace: what
is held at its end, or nothing where it is not in order.  A trace in order from nothing held
releases each resource exactly as often as it acquires it, what is left aside
(`heldAfter_count`).
-/

set_option autoImplicit false

namespace UsbTrace.Library

/-- One entry of a ledger. -/
inductive Use (ρ : Type) where
  | acquire (r : ρ)
  | release (r : ρ)
deriving DecidableEq, Repr

variable {ρ : Type} [DecidableEq ρ]

/-- What is held after one more entry, if it is in order. -/
def useStep (held : Finset ρ) : Use ρ → Option (Finset ρ)
  | .acquire r => if r ∈ held then none else some (insert r held)
  | .release r => if r ∈ held then some (held.erase r) else none

/-- What is held after a trace, if it is in order. -/
def heldAfter : Finset ρ → List (Use ρ) → Option (Finset ρ)
  | held, [] => some held
  | held, u :: us => (useStep held u).bind fun held' => heldAfter held' us

@[simp] theorem heldAfter_nil (held : Finset ρ) : heldAfter held [] = some held := rfl

/-- Traces may be read one after the other. -/
theorem heldAfter_append {held mid : Finset ρ} {us : List (Use ρ)}
    (h : heldAfter held us = some mid) (vs : List (Use ρ)) :
    heldAfter held (us ++ vs) = heldAfter mid vs := by
  induction us generalizing held with
  | nil =>
    obtain rfl := Option.some.inj h
    rfl
  | cons u us ih =>
    obtain ⟨next, hu, hus⟩ := Option.bind_eq_some_iff.mp h
    rw [List.cons_append, heldAfter, hu]
    exact ih hus

theorem heldAfter_acquire {held : Finset ρ} {r : ρ} (h : r ∉ held) (us : List (Use ρ)) :
    heldAfter held (.acquire r :: us) = heldAfter (insert r held) us := by
  rw [heldAfter, useStep, if_neg h]
  rfl

theorem heldAfter_release {held : Finset ρ} {r : ρ} (h : r ∈ held) (us : List (Use ρ)) :
    heldAfter held (.release r :: us) = heldAfter (held.erase r) us := by
  rw [heldAfter, useStep, if_pos h]
  rfl

/-- Something acquired and released at once leaves things as they were. -/
theorem heldAfter_brief {held : Finset ρ} {r : ρ} (h : r ∉ held) (us : List (Use ρ)) :
    heldAfter held (.acquire r :: .release r :: us) = heldAfter held us := by
  rw [heldAfter_acquire h, heldAfter_release (Finset.mem_insert_self r held),
    Finset.erase_insert h]

/-- Acquiring several resources, none of them held. -/
theorem heldAfter_acquires {held : Finset ρ} {rs : List ρ} (hnd : rs.Nodup)
    (h : ∀ r ∈ rs, r ∉ held) :
    heldAfter held (rs.map Use.acquire) = some (held ∪ rs.toFinset) := by
  induction rs generalizing held with
  | nil => simp
  | cons r rs ih =>
    obtain ⟨hr, hnd⟩ := List.nodup_cons.mp hnd
    have hrs : ∀ q ∈ rs, q ∉ insert r held := by
      intro q hq hmem
      rcases Finset.mem_insert.mp hmem with rfl | hmem
      · exact hr hq
      · exact h q (List.mem_cons_of_mem r hq) hmem
    rw [List.map_cons, heldAfter_acquire (h r (List.mem_cons_self ..)), ih hnd hrs,
      List.toFinset_cons, Finset.insert_union, Finset.union_insert]

/-- Releasing several resources, all of them held. -/
theorem heldAfter_releases {held : Finset ρ} {rs : List ρ} (hnd : rs.Nodup)
    (h : ∀ r ∈ rs, r ∈ held) :
    heldAfter held (rs.map Use.release) = some (held \ rs.toFinset) := by
  induction rs generalizing held with
  | nil => simp
  | cons r rs ih =>
    obtain ⟨hr, hnd⟩ := List.nodup_cons.mp hnd
    have hrs : ∀ q ∈ rs, q ∈ held.erase r := by
      intro q hq
      refine Finset.mem_erase.mpr ⟨?_, h q (List.mem_cons_of_mem r hq)⟩
      rintro rfl
      exact hr hq
    rw [List.map_cons, heldAfter_release (h r (List.mem_cons_self ..)), ih hnd hrs,
      List.toFinset_cons, Finset.sdiff_insert, Finset.erase_sdiff_comm]

/-- Giving back what is held beside a frame leaves the frame. -/
theorem heldAfter_giveBack {frame : Finset ρ} {rs : List ρ} (hnd : rs.Nodup)
    (h : ∀ r ∈ rs, r ∉ frame) :
    heldAfter (frame ∪ rs.toFinset) (rs.map Use.release) = some frame := by
  have hheld : ∀ r ∈ rs, r ∈ frame ∪ rs.toFinset := fun r hr =>
    Finset.mem_union_right _ (List.mem_toFinset.mpr hr)
  have hdisj : Disjoint frame rs.toFinset :=
    Finset.disjoint_right.mpr fun r hr => h r (List.mem_toFinset.mp hr)
  rw [heldAfter_releases hnd hheld, Finset.union_sdiff_cancel_right hdisj]

/-- **Balance**: in a trace in order, each resource is acquired as often as it is released
and, where it is still held, once more. -/
theorem heldAfter_count {held held' : Finset ρ} {us : List (Use ρ)}
    (h : heldAfter held us = some held') (r : ρ) :
    us.count (.acquire r) + (if r ∈ held then 1 else 0) =
      us.count (.release r) + (if r ∈ held' then 1 else 0) := by
  induction us generalizing held with
  | nil =>
    obtain rfl := Option.some.inj h
    rfl
  | cons u us ih =>
    obtain ⟨next, hu, hus⟩ := Option.bind_eq_some_iff.mp h
    have hrest := ih hus
    cases u with
    | acquire q =>
      rw [useStep] at hu
      split at hu
      · cases hu
      · next hq =>
        obtain rfl := Option.some.inj hu
        by_cases hqr : q = r
        · subst hqr
          simp only [List.count_cons_self, List.count_cons_of_ne (by simp : Use.acquire q ≠ .release q),
            Finset.mem_insert_self, if_true, if_neg hq] at hrest ⊢
          omega
        · have hne : r ≠ q := fun heq => hqr heq.symm
          simpa [List.count_cons, hqr, hne] using hrest
    | release q =>
      rw [useStep] at hu
      split at hu
      · next hq =>
        obtain rfl := Option.some.inj hu
        by_cases hqr : q = r
        · subst hqr
          simp only [List.count_cons_self, List.count_cons_of_ne (by simp : Use.release q ≠ .acquire q),
            Finset.notMem_erase, if_false, if_pos hq] at hrest ⊢
          omega
        · have hne : r ≠ q := fun heq => hqr heq.symm
          simpa [List.count_cons, hqr, hne] using hrest
      · cases hu

end UsbTrace.Library
