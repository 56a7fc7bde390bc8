import Mathlib.Data.Int.Notation
import Mathlib.Data.List.Nodup

/-!
# Arrays with checked indices

Accesses to an array of `size` elements that have no result where the index is out of
bounds.  A program written with them over `Option` has a result exactly when every index it
forms is within bounds; `foldlM_entries` and its variants are the rules for its loops.
-/

set_option autoImplicit false

namespace UsbTrace.Library

variable {α β σ : Type} {size : ℕ}

/-! ## Accesses -/

/-- Read the element at an index. -/
def readAt (size : ℕ) (a : ℕ → α) (i : ℤ) : Option α :=
  if 0 ≤ i ∧ i < size then some (a i.toNat) else none

/-- Write the element at an index. -/
def writeAt (size : ℕ) (a : ℕ → α) (i : ℤ) (x : α) : Option (ℕ → α) :=
  if 0 ≤ i ∧ i < size then some (Function.update a i.toNat x) else none

/-- Read an entry of an array whose entries in use are the list `xs`. -/
def entryAt (size : ℕ) (xs : List α) (i : ℕ) : Option α :=
  if i < size then xs[i]? else none

/-- Write the next entry of an array whose entries in use are the list `xs`. -/
def appendAt (size : ℕ) (xs : List α) (x : α) : Option (List α) :=
  if xs.length < size then some (xs ++ [x]) else none

theorem readAt_eq {a : ℕ → α} {i : ℤ} (h0 : 0 ≤ i) (h : i < size) :
    readAt size a i = some (a i.toNat) := if_pos ⟨h0, h⟩

theorem writeAt_eq {a : ℕ → α} {i : ℤ} (h0 : 0 ≤ i) (h : i < size) (x : α) :
    writeAt size a i x = some (Function.update a i.toNat x) := if_pos ⟨h0, h⟩

/-- A natural number below the size is an index. -/
theorem readAt_nat {a : ℕ → α} {i : ℕ} (h : i < size) : readAt size a i = some (a i) := by
  rw [readAt_eq (by omega) (by omega), Int.toNat_natCast]

theorem writeAt_nat {a : ℕ → α} {i : ℕ} (h : i < size) (x : α) :
    writeAt size a i x = some (Function.update a i x) := by
  rw [writeAt_eq (by omega) (by omega), Int.toNat_natCast]

theorem entryAt_eq {xs : List α} {i : ℕ} (hlen : xs.length ≤ size) (h : i < xs.length) :
    entryAt size xs i = some xs[i] := by
  rw [entryAt, if_pos (by omega), List.getElem?_eq_getElem h]

theorem appendAt_eq {xs : List α} (h : xs.length < size) (x : α) :
    appendAt size xs x = some (xs ++ [x]) := if_pos h

/-! ## Loops -/

/-- Reading the entries in use one after the other gives the entries. -/
theorem map_range_entryAt {xs : List α} (hlen : xs.length ≤ size) :
    (List.range xs.length).map (entryAt size xs) = xs.map some := by
  apply List.ext_getElem
  · simp
  · intro i h₁ h₂
    have hi : i < xs.length := by simpa using h₁
    simp [entryAt_eq hlen hi]

/-- Reading the entries in use, next to their indices. -/
theorem map_range_entryAt_zipIdx {xs : List α} (hlen : xs.length ≤ size) :
    (List.range xs.length).map (fun i => (entryAt size xs i).map (·, i)) =
      xs.zipIdx.map some := by
  apply List.ext_getElem
  · simp
  · intro i h₁ h₂
    have hi : i < xs.length := by simpa using h₁
    simp [entryAt_eq hlen hi]

/-- **Loops over the entries in use**: reading each entry by its index never fails. -/
theorem foldlM_entries {xs : List α} (hlen : xs.length ≤ size) (f : σ → α × ℕ → Option σ)
    (s : σ) :
    (List.range xs.length).foldlM (fun s i => (entryAt size xs i).bind fun x => f s (x, i)) s =
      xs.zipIdx.foldlM f s := by
  have hmap := congrArg (List.foldlM (fun s (o : Option (α × ℕ)) => o.bind (f s)) s)
    (map_range_entryAt_zipIdx hlen)
  rw [List.foldlM_map, List.foldlM_map] at hmap
  simp only [Option.bind_map] at hmap
  exact hmap

/-- A loop that ends at the first entry that fails a test. -/
theorem allM_entries {xs : List α} (hlen : xs.length ≤ size) (p : α → Bool) :
    (List.range xs.length).allM (fun i => (entryAt size xs i).map p) = some (xs.all p) := by
  have hmap {β : Type} (f : β → Option α) (l : List β) :
      l.allM (fun b => (f b).map p) = (l.map f).allM (Option.map p) := by
    induction l with
    | nil => rfl
    | cons b l ih => rw [List.allM_cons, List.map_cons, List.allM_cons, ih]
  rw [hmap, map_range_entryAt hlen, ← hmap]
  exact List.allM_pure

/-- A loop that ends at the first entry that passes a test. -/
theorem anyM_entries {xs : List α} (hlen : xs.length ≤ size) (p : α → Bool) :
    (List.range xs.length).anyM (fun i => (entryAt size xs i).map p) = some (xs.any p) := by
  have hmap {β : Type} (f : β → Option α) (l : List β) :
      l.anyM (fun b => (f b).map p) = (l.map f).anyM (Option.map p) := by
    induction l with
    | nil => rfl
    | cons b l ih => rw [List.anyM_cons, List.map_cons, List.anyM_cons, ih]
  rw [hmap, map_range_entryAt hlen, ← hmap]
  exact List.anyM_pure

/-- **Slot loops**: a loop that rewrites each slot from what it holds, and emits output,
rewrites the table pointwise. -/
theorem foldlM_slots {ι ω ο : Type} [DecidableEq ι] {f : ω → Option (ω × List ο)}
    {g : ω → ω × List ο} {is : List ι} (hnd : is.Nodup) (t : ι → ω) (acc : List ο)
    (hf : ∀ i ∈ is, f (t i) = some (g (t i))) :
    is.foldlM (fun (s : (ι → ω) × List ο) i =>
        (f (s.1 i)).map fun r => (Function.update s.1 i r.1, s.2 ++ r.2)) (t, acc) =
      some (fun i => if i ∈ is then (g (t i)).1 else t i,
        acc ++ is.flatMap fun i => (g (t i)).2) := by
  induction is generalizing t acc with
  | nil => simp
  | cons i is ih =>
    rw [List.nodup_cons] at hnd
    obtain ⟨hi, hnd⟩ := hnd
    -- the slots still to come are as they were
    have hold : ∀ j ∈ is, Function.update t i (g (t i)).1 j = t j := by
      intro j hj
      have hji : j ≠ i := fun h => hi (h ▸ hj)
      exact Function.update_of_ne hji _ _
    have hrest := ih hnd (Function.update t i (g (t i)).1) (acc ++ (g (t i)).2) fun j hj => by
      rw [hold j hj]
      exact hf j (List.mem_cons_of_mem _ hj)
    rw [List.foldlM_cons, hf i (by simp)]
    refine hrest.trans ?_
    congr 1
    refine Prod.ext ?_ ?_
    · funext j
      by_cases hj : j ∈ is
      · simp only [hj, if_true, hold j hj, List.mem_cons, or_true]
      · by_cases hji : j = i
        · subst hji
          simp [hi]
        · simp [hj, hji]
    · have houts : (is.flatMap fun j => (g (Function.update t i (g (t i)).1 j)).2) =
          is.flatMap fun j => (g (t j)).2 :=
        List.flatMap_congr fun j hj => by rw [hold j hj]
      simp only [houts, List.flatMap_cons, List.append_assoc]

end UsbTrace.Library
