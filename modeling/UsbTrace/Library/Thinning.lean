import Mathlib.Data.List.Chain
import Mathlib.Data.List.Pairwise

/-!
# Greedy thinning of an increasing sequence of times

A loop that looks at the clock from time to time and acts whenever at least `d` has passed
since it last acted picks a subsequence of the times it looks at, `thin d last xs`.  Its picks
are at least `d` apart (`thin_spaced`); where it looks at least every `p`, they are less than
`d + p` apart (`thin_gap`); and whenever it looks, the last pick is less than `d` ago
(`thin_recent`).
-/

set_option autoImplicit false

namespace UsbTrace.Library

/-- The times at which the loop acts; it acted at `last` before. -/
def thin (d : ℕ) : ℕ → List ℕ → List ℕ
  | _, [] => []
  | last, x :: xs => if d ≤ x - last then x :: thin d x xs else thin d last xs

variable {d : ℕ}

/-- **Picks are at least `d` apart.** -/
theorem thin_spaced {last : ℕ} {xs : List ℕ} (h : (last :: xs).Pairwise (· ≤ ·)) :
    (last :: thin d last xs).IsChain fun a b => a + d ≤ b := by
  induction xs generalizing last with
  | nil => exact List.isChain_singleton last
  | cons x xs ih =>
    obtain ⟨hlast, hxs⟩ := List.pairwise_cons.mp h
    have hle := hlast x List.mem_cons_self
    rw [thin]
    split
    · refine List.isChain_cons_cons.mpr ⟨by omega, ih hxs⟩
    · refine ih (List.pairwise_cons.mpr ⟨fun y hy => ?_, (List.pairwise_cons.mp hxs).2⟩)
      exact hlast y (List.mem_cons_of_mem x hy)

/-- **Looking every `p` leaves no gap of `d + p`.**  The loop has last looked at `prev`. -/
theorem thin_gap (hd : 0 < d) {p last prev : ℕ} {xs : List ℕ} (hprev : prev < last + d)
    (h : (prev :: xs).IsChain fun a b => b ≤ a + p) :
    (last :: thin d last xs).IsChain fun a b => b < a + d + p := by
  induction xs generalizing last prev with
  | nil => exact List.isChain_singleton last
  | cons x xs ih =>
    obtain ⟨hx, hxs⟩ := List.isChain_cons_cons.mp h
    rw [thin]
    split
    · exact List.isChain_cons_cons.mpr ⟨by omega, ih (by omega) hxs⟩
    · exact ih (by omega) hxs

/-- **The last pick is recent** whenever the loop has looked. -/
theorem thin_recent (hd : 0 < d) {last prev : ℕ} (hprev : prev < last + d) (xs : List ℕ) :
    xs.getLastD prev < (thin d last xs).getLastD last + d := by
  induction xs generalizing last prev with
  | nil => exact hprev
  | cons x xs ih =>
    rw [List.getLastD_cons, thin]
    split
    · rw [List.getLastD_cons]
      exact ih (by omega)
    · exact ih (by omega)

end UsbTrace.Library
