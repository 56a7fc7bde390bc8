import Mathlib.Logic.Function.Basic
import Mathlib.Data.List.Nodup
import Mathlib.Data.List.Range

/-!
# Loops that own one cell per turn

A loop over an indexed list, in which turn `i` reads cell `i` of an array and may write
that cell and emit one output.  With distinct indices no turn sees another's write, so
the loop is a pointwise map: `cellLoop_out` gives everything it emits and
`cellLoop_cell` the cells it leaves.
-/

set_option autoImplicit false

namespace UsbTrace.Library

variable {α β ο : Type}

/-- One turn: on cell `i` holding `b`, the body may ask to store a value and emit one. -/
def cellStep (body : α → ℕ → β → Option (β × ο)) (s : (ℕ → β) × List ο) (p : α × ℕ) :
    (ℕ → β) × List ο :=
  match body p.1 p.2 (s.1 p.2) with
  | none => s
  | some (b, o) => (Function.update s.1 p.2 b, s.2 ++ [o])

/-- The whole loop. -/
def cellLoop (body : α → ℕ → β → Option (β × ο)) (ps : List (α × ℕ))
    (s : (ℕ → β) × List ο) : (ℕ → β) × List ο := ps.foldl (cellStep body) s

variable (body : α → ℕ → β → Option (β × ο))

@[simp] theorem cellLoop_nil (s : (ℕ → β) × List ο) : cellLoop body [] s = s := rfl

@[simp] theorem cellLoop_cons (p : α × ℕ) (ps : List (α × ℕ)) (s : (ℕ → β) × List ο) :
    cellLoop body (p :: ps) s = cellLoop body ps (cellStep body s p) := rfl

/-- A turn leaves the cells of other indices alone. -/
theorem cellStep_other (s : (ℕ → β) × List ο) (p : α × ℕ) {i : ℕ} (hi : i ≠ p.2) :
    (cellStep body s p).1 i = s.1 i := by
  unfold cellStep
  split
  · rfl
  · exact Function.update_of_ne hi _ _

/-- A loop leaves the cells of the indices it does not run through alone. -/
theorem cellLoop_other (ps : List (α × ℕ)) (s : (ℕ → β) × List ο) {i : ℕ}
    (hi : i ∉ ps.map Prod.snd) : (cellLoop body ps s).1 i = s.1 i := by
  induction ps generalizing s with
  | nil => rfl
  | cons p ps ih =>
    simp only [List.map_cons, List.mem_cons, not_or] at hi
    rw [cellLoop_cons, ih _ hi.2, cellStep_other body s p hi.1]

/-- **The cell of a turn** after the loop is what that turn makes of it. -/
theorem cellLoop_cell (ps : List (α × ℕ)) (s : (ℕ → β) × List ο)
    (hnd : (ps.map Prod.snd).Nodup) {a : α} {i : ℕ} (hp : (a, i) ∈ ps) :
    (cellLoop body ps s).1 i = ((body a i (s.1 i)).map Prod.fst).getD (s.1 i) := by
  induction ps generalizing s with
  | nil => simp at hp
  | cons p ps ih =>
    rw [List.map_cons, List.nodup_cons] at hnd
    rcases List.mem_cons.mp hp with rfl | hp
    · rw [cellLoop_cons, cellLoop_other body ps _ hnd.1]
      unfold cellStep
      cases hb : body a i (s.1 i) with
      | none => rfl
      | some r => simp
    · have hne : i ≠ p.2 := fun h => hnd.1 (List.mem_map.mpr ⟨(a, i), hp, h⟩)
      rw [cellLoop_cons, ih _ hnd.2 hp, cellStep_other body s p hne]

/-- **What a loop emits**: the output of every turn on the cell it started with. -/
theorem cellLoop_out (ps : List (α × ℕ)) (s : (ℕ → β) × List ο)
    (hnd : (ps.map Prod.snd).Nodup) :
    (cellLoop body ps s).2 =
      s.2 ++ ps.filterMap fun p => (body p.1 p.2 (s.1 p.2)).map Prod.snd := by
  induction ps generalizing s with
  | nil => simp
  | cons p ps ih =>
    rw [List.map_cons, List.nodup_cons] at hnd
    have hrest : (ps.filterMap fun q =>
          (body q.1 q.2 ((cellStep body s p).1 q.2)).map Prod.snd) =
        ps.filterMap fun q => (body q.1 q.2 (s.1 q.2)).map Prod.snd := by
      refine List.filterMap_congr fun q hq => ?_
      have hne : q.2 ≠ p.2 := fun h => hnd.1 (h ▸ List.mem_map_of_mem hq)
      rw [cellStep_other body s p hne]
    rw [cellLoop_cons, ih _ hnd.2, hrest]
    unfold cellStep
    cases hb : body p.1 p.2 (s.1 p.2) with
    | none => simp [hb]
    | some r => simp [hb]

/-- The indices of an enumerated list are distinct. -/
theorem zipIdx_nodup (l : List α) : (l.zipIdx.map Prod.snd).Nodup := by
  rw [List.zipIdx_map_snd]
  exact List.nodup_range'

/-- What a partial map makes of a list, tagged, is part of the list's own tags. -/
theorem filterMap_map_sublist {γ δ : Type} (g : γ → Option δ) (tag : δ → ℕ) (tag' : γ → ℕ)
    (h : ∀ c d, g c = some d → tag d = tag' c) (l : List γ) :
    ((l.filterMap g).map tag).Sublist (l.map tag') := by
  induction l with
  | nil => simp
  | cons c l ih =>
    cases hc : g c with
    | none => simpa [List.filterMap_cons, hc] using ih.trans (List.sublist_cons_self _ _)
    | some d => simpa [List.filterMap_cons, hc, h c d hc] using ih

end UsbTrace.Library
