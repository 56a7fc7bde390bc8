import Mathlib.Algebra.BigOperators.Group.List.Basic
import Mathlib.Algebra.Group.Nat.Defs
import Mathlib.Algebra.Group.Prod
import Mathlib.Data.Nat.Notation

/-!
# Counters that wrap

A counter of a fixed width holds what it has counted modulo its range (`Wraps`).  Where a whole
is counted in pieces, each in a counter of its own, every counter wraps by itself; but while the
whole fits a counter, every piece does, and the counters add up to it (`Pieces.sum_eq`).
-/

set_option autoImplicit false

namespace UsbTrace.Library

variable {M N : Type} [AddCommMonoid M] [AddCommMonoid N]

/-- What a counter holds of a count. -/
structure Wraps (cut : M → M) : Prop where
  zero : cut 0 = 0
  add : ∀ a b, cut (cut a + b) = cut (a + b)
  fits : ∀ a b, cut (a + b) = a + b → cut a = a ∧ cut b = b

theorem Wraps.mod {n : ℕ} (hn : 0 < n) : Wraps fun c : ℕ => c % n where
  zero := Nat.zero_mod n
  add a b := Nat.mod_add_mod a n b
  fits a b h := by
    have hlt : a + b < n := h ▸ Nat.mod_lt (a + b) hn
    exact ⟨Nat.mod_eq_of_lt (by omega), Nat.mod_eq_of_lt (by omega)⟩

/-- Counters side by side. -/
theorem Wraps.prod {cut : M → M} {cut' : N → N} (h : Wraps cut) (h' : Wraps cut') :
    Wraps (Prod.map cut cut') where
  zero := Prod.ext h.zero h'.zero
  add a b := Prod.ext (h.add a.1 b.1) (h'.add a.2 b.2)
  fits a b hab := by
    obtain ⟨hfst, hsnd⟩ := Prod.ext_iff.mp hab
    obtain ⟨ha, hb⟩ := h.fits a.1 b.1 hfst
    obtain ⟨ha', hb'⟩ := h'.fits a.2 b.2 hsnd
    exact ⟨Prod.ext ha ha', Prod.ext hb hb'⟩

/-- What the counters of the closed pieces of a whole hold, and that of the open one. -/
def Pieces (cut : M → M) (closed : List M) (current whole : M) : Prop :=
  ∃ (cs : List M) (c : M), closed = cs.map cut ∧ current = cut c ∧ cs.sum + c = whole

variable {cut : M → M} {closed : List M} {current whole : M}

theorem Pieces.nil (hcut : Wraps cut) : Pieces cut [] 0 0 :=
  ⟨[], 0, rfl, hcut.zero.symm, add_zero _⟩

/-- More is counted. -/
theorem Pieces.grow (h : Pieces cut closed current whole) (hcut : Wraps cut) (d : M) :
    Pieces cut closed (cut (current + d)) (whole + d) := by
  obtain ⟨cs, c, hclosed, rfl, rfl⟩ := h
  exact ⟨cs, c + d, hclosed, hcut.add c d, (add_assoc _ _ _).symm⟩

/-- The open piece is closed. -/
theorem Pieces.close (h : Pieces cut closed current whole) (hcut : Wraps cut) :
    Pieces cut (closed ++ [current]) 0 whole := by
  obtain ⟨cs, c, rfl, rfl, rfl⟩ := h
  refine ⟨cs ++ [c], 0, ?_, hcut.zero.symm, ?_⟩
  · rw [List.map_append]
    rfl
  · rw [List.sum_append, List.sum_singleton, add_zero]

theorem Wraps.sum_eq (hcut : Wraps cut) (cs : List M) (h : cut cs.sum = cs.sum) :
    (cs.map cut).sum = cs.sum := by
  induction cs with
  | nil => rfl
  | cons c cs ih =>
    rw [List.sum_cons] at h
    obtain ⟨hc, hcs⟩ := hcut.fits c cs.sum h
    rw [List.map_cons, List.sum_cons, List.sum_cons, hc, ih hcs]

/-- **The counters add up** to a whole that fits one. -/
theorem Pieces.sum_eq (h : Pieces cut closed current whole) (hcut : Wraps cut)
    (hfits : cut whole = whole) : closed.sum + current = whole := by
  obtain ⟨cs, c, rfl, rfl, rfl⟩ := h
  obtain ⟨hcs, hc⟩ := hcut.fits cs.sum c hfits
  rw [hcut.sum_eq cs hcs, hc]

end UsbTrace.Library
