import Mathlib.Data.List.FinRange
import Mathlib.Order.Basic
import Mathlib.Logic.Function.Basic

/-!
# Fixed-size tables of keyed slots

A table is a function `Fin n → ω` from slots to their contents; `used` says whether
a slot holds an entry, `key` which one, `stamp` when it was last touched.

`find` scans for the used slot of a key, `place` scans for a slot to put a new entry
in: the first free one, else the first one with the least stamp.  `KeysUnique` is the
invariant that makes `find` a lookup; `lookup` is the partial map the table stands for.
-/

set_option autoImplicit false

namespace UsbTrace.Library.SlotTable

variable {ω κ θ : Type} {n : ℕ}

section Find

variable [DecidableEq κ] (used : ω → Bool) (key : ω → κ)

/-- The first used slot whose key is `k`. -/
def find (t : Fin n → ω) (k : κ) : Option (Fin n) :=
  (List.finRange n).find? fun i => used (t i) && decide (key (t i) = k)

/-- The entry the table holds for the key `k`. -/
def lookup (t : Fin n → ω) (k : κ) : Option ω := (find used key t k).map t

/-- No two used slots hold the same key. -/
def KeysUnique (t : Fin n → ω) : Prop :=
  ∀ i j, used (t i) = true → used (t j) = true → key (t i) = key (t j) → i = j

variable {used key}

/-- A found slot is used and holds the key. -/
theorem find_some {t : Fin n → ω} {k : κ} {i : Fin n} (h : find used key t k = some i) :
    used (t i) = true ∧ key (t i) = k := by
  simpa using List.find?_some h

/-- The search fails exactly when no used slot holds the key. -/
theorem find_eq_none {t : Fin n → ω} {k : κ} :
    find used key t k = none ↔ ∀ i, used (t i) = true → key (t i) ≠ k := by
  simp [find, List.find?_eq_none]

/-- Under unique keys a used slot is found by its key. -/
theorem KeysUnique.find_eq {t : Fin n → ω} (hu : KeysUnique used key t) {i : Fin n}
    (hi : used (t i) = true) : find used key t (key (t i)) = some i := by
  cases h : find used key t (key (t i)) with
  | none => exact absurd rfl (find_eq_none.mp h i hi)
  | some j =>
    obtain ⟨hj, hk⟩ := find_some h
    rw [hu j i hj hi hk]

/-- Under unique keys, finding a key is holding it. -/
theorem KeysUnique.find_eq_some {t : Fin n → ω} (hu : KeysUnique used key t) {k : κ}
    {i : Fin n} : find used key t k = some i ↔ used (t i) = true ∧ key (t i) = k := by
  constructor
  · exact find_some
  · rintro ⟨hi, rfl⟩
    exact hu.find_eq hi

/-- A key is looked up to nothing exactly when no used slot holds it. -/
theorem lookup_eq_none {t : Fin n → ω} {k : κ} :
    lookup used key t k = none ↔ ∀ i, used (t i) = true → key (t i) ≠ k := by
  rw [lookup, Option.map_eq_none_iff, find_eq_none]

/-- Under unique keys, the entry of a key is what a used slot with that key holds. -/
theorem KeysUnique.lookup_eq_some {t : Fin n → ω} (hu : KeysUnique used key t) {k : κ}
    {w : ω} :
    lookup used key t k = some w ↔ ∃ i, used (t i) = true ∧ key (t i) = k ∧ t i = w := by
  simp only [lookup, Option.map_eq_some_iff, hu.find_eq_some, and_assoc]

/-- A looked-up entry is used and carries the key. -/
theorem lookup_some {t : Fin n → ω} {k : κ} {w : ω} (h : lookup used key t k = some w) :
    used w = true ∧ key w = k := by
  obtain ⟨i, hi, rfl⟩ := Option.map_eq_some_iff.mp h
  exact find_some hi

omit [DecidableEq κ] in
/-- Writing an entry whose key no other used slot holds keeps keys unique. -/
theorem KeysUnique.update {t : Fin n → ω} (hu : KeysUnique used key t) (i : Fin n) (w : ω)
    (hw : ∀ j, j ≠ i → used (t j) = true → key (t j) ≠ key w) :
    KeysUnique used key (Function.update t i w) := by
  intro a b ha hb hab
  by_cases hai : a = i <;> by_cases hbi : b = i
  · rw [hai, hbi]
  · subst hai
    simp only [Function.update_self, Function.update_of_ne hbi] at hab hb
    exact absurd hab.symm (hw b hbi hb)
  · subst hbi
    simp only [Function.update_self, Function.update_of_ne hai] at hab ha
    exact absurd hab (hw a hai ha)
  · simp only [Function.update_of_ne hai, Function.update_of_ne hbi] at ha hb hab
    exact hu a b ha hb hab

omit [DecidableEq κ] in
/-- Rewriting slots in place, keeping keys and never filling an empty slot, keeps keys
unique. -/
theorem KeysUnique.of_shrink {t t' : Fin n → ω} (hu : KeysUnique used key t)
    (h : ∀ i, used (t' i) = true → used (t i) = true ∧ key (t' i) = key (t i)) :
    KeysUnique used key t' := by
  intro i j hi hj hij
  obtain ⟨hi', hki⟩ := h i hi
  obtain ⟨hj', hkj⟩ := h j hj
  exact hu i j hi' hj' (by rw [← hki, ← hkj, hij])

/-- The entry of the key just written is the one written. -/
theorem KeysUnique.lookup_update_self {t : Fin n → ω} (hu : KeysUnique used key t)
    (i : Fin n) (w : ω) (hw : ∀ j, j ≠ i → used (t j) = true → key (t j) ≠ key w)
    (huse : used w = true) : lookup used key (Function.update t i w) (key w) = some w :=
  (hu.update i w hw).lookup_eq_some.mpr ⟨i, by simpa using huse, by simp, by simp⟩

/-- A write into a slot that did not hold `k`, of an entry that is not for `k`, does
not change the entry of `k`. -/
theorem KeysUnique.lookup_update_other {t : Fin n → ω} (hu : KeysUnique used key t)
    (i : Fin n) (w : ω) (hw : ∀ j, j ≠ i → used (t j) = true → key (t j) ≠ key w)
    {k : κ} (hk : key w ≠ k) (hi : used (t i) = true → key (t i) ≠ k) :
    lookup used key (Function.update t i w) k = lookup used key t k := by
  refine Option.ext fun v => ?_
  rw [(hu.update i w hw).lookup_eq_some, hu.lookup_eq_some]
  constructor
  · rintro ⟨j, hj, hkj, hv⟩
    by_cases hji : j = i
    · subst hji
      simp only [Function.update_self] at hkj
      exact absurd hkj hk
    · simp only [Function.update_of_ne hji] at hj hkj hv
      exact ⟨j, hj, hkj, hv⟩
  · rintro ⟨j, hj, hkj, hv⟩
    have hji : j ≠ i := by
      rintro rfl
      exact hi hj hkj
    exact ⟨j, by simp [hji, hj], by simp [hji, hkj], by simp [hji, hv]⟩

/-- Rewriting every slot by a function that keeps keys rewrites each entry, and drops
those the function marks unused. -/
theorem KeysUnique.lookup_map {t : Fin n → ω} (hu : KeysUnique used key t) (f : ω → ω)
    (hf : ∀ w, used (f w) = true → used w = true) (hkey : ∀ w, key (f w) = key w) (k : κ) :
    lookup used key (fun i => f (t i)) k =
      (lookup used key t k).bind fun w => if used (f w) then some (f w) else none := by
  have hu' : KeysUnique used key (fun i => f (t i)) :=
    hu.of_shrink fun i hi => ⟨hf _ hi, hkey _⟩
  refine Option.ext fun v => ?_
  simp only [hu'.lookup_eq_some, Option.bind_eq_some_iff, hu.lookup_eq_some]
  constructor
  · rintro ⟨i, hi, hk, rfl⟩
    exact ⟨t i, ⟨i, hf _ hi, by rw [← hkey, hk], rfl⟩, by simp [hi]⟩
  · rintro ⟨_, ⟨i, hi, hk, rfl⟩, hv⟩
    by_cases h : used (f (t i)) = true
    · simp only [h, if_true, Option.some.injEq] at hv
      exact ⟨i, h, by rw [hkey, hk], hv⟩
    · simp [h] at hv

end Find

section Place

variable [LinearOrder θ] (used : ω → Bool) (stamp : ω → θ)

/-- The scan for a slot to place an entry in: `lru` is the least stamp met so far. -/
def placeScan (t : Fin n → ω) : List (Fin n) → Option (Fin n) → Option (Fin n)
  | [], lru => lru
  | i :: is, lru =>
    if used (t i) = false then some i
    else placeScan t is (match lru with
      | none => some i
      | some l => if stamp (t i) < stamp (t l) then some i else some l)

/-- The slot a new entry goes to: the first free one, else the first least stamp. -/
def place (t : Fin n → ω) : Option (Fin n) := placeScan used stamp t (List.finRange n) none

/-- A scan that starts with a candidate ends with a slot. -/
theorem placeScan_isSome (t : Fin n → ω) (is : List (Fin n)) (l : Fin n) :
    (placeScan used stamp t is (some l)).isSome = true := by
  induction is generalizing l with
  | nil => rfl
  | cons i is ih =>
    simp only [placeScan]
    split
    · rfl
    · split <;> exact ih _

/-- A table with a slot has a place for a new entry. -/
theorem place_isSome (t : Fin (n + 1) → ω) : (place used stamp t).isSome = true := by
  rw [place, List.finRange_succ, placeScan]
  split
  · rfl
  · exact placeScan_isSome used stamp t _ _

variable {used stamp}

/-- When a free slot is left in the scan, the scan ends in a free slot. -/
theorem placeScan_free {t : Fin n → ω} {is : List (Fin n)} {lru : Option (Fin n)} {i : Fin n}
    (hfree : ∃ j ∈ is, used (t j) = false) (h : placeScan used stamp t is lru = some i) :
    used (t i) = false := by
  induction is generalizing lru with
  | nil => simp at hfree
  | cons a is ih =>
    simp only [placeScan] at h
    split at h
    · next ha => cases h; exact ha
    · next ha =>
      refine ih ?_ h
      obtain ⟨j, hj, hfj⟩ := hfree
      rcases List.mem_cons.mp hj with rfl | hj
      · exact absurd hfj ha
      · exact ⟨j, hj, hfj⟩

/-- Over used slots only, the scan ends in one whose stamp is least among the scanned
slots and the candidate it started from. -/
theorem placeScan_least {t : Fin n → ω} {is : List (Fin n)} {lru : Option (Fin n)} {i : Fin n}
    (hfull : ∀ j ∈ is, used (t j) = true) (h : placeScan used stamp t is lru = some i) :
    (∀ j ∈ is, stamp (t i) ≤ stamp (t j)) ∧ ∀ l, lru = some l → stamp (t i) ≤ stamp (t l) := by
  induction is generalizing lru with
  | nil =>
    refine ⟨by simp, ?_⟩
    rintro l rfl
    simp only [placeScan, Option.some.injEq] at h
    rw [h]
  | cons a is ih =>
    have ha : used (t a) = true := hfull a (by simp)
    simp only [placeScan, ha, Bool.true_eq_false, if_false] at h
    obtain ⟨hrest, hcand⟩ := ih (fun j hj => hfull j (by simp [hj])) h
    cases lru with
    | none =>
      have hia := hcand a rfl
      refine ⟨?_, by simp⟩
      intro j hj
      rcases List.mem_cons.mp hj with rfl | hj
      · exact hia
      · exact hrest j hj
    | some l =>
      -- the candidate kept is the smaller of the old one and slot `a`
      have hmin : stamp (t i) ≤ stamp (t a) ∧ stamp (t i) ≤ stamp (t l) := by
        by_cases hlt : stamp (t a) < stamp (t l)
        · have := hcand a (by simp [hlt])
          exact ⟨this, this.trans hlt.le⟩
        · have := hcand l (by simp [hlt])
          exact ⟨this.trans (not_lt.mp hlt), this⟩
      refine ⟨?_, ?_⟩
      · intro j hj
        rcases List.mem_cons.mp hj with rfl | hj
        · exact hmin.1
        · exact hrest j hj
      · rintro l' hl'
        cases hl'
        exact hmin.2

/-- If a slot is free, a new entry is placed in a free slot. -/
theorem place_free {t : Fin n → ω} {i : Fin n} (hfree : ∃ j, used (t j) = false)
    (h : place used stamp t = some i) : used (t i) = false := by
  obtain ⟨j, hj⟩ := hfree
  exact placeScan_free ⟨j, List.mem_finRange j, hj⟩ h

/-- If every slot is used, a new entry is placed over a least stamp. -/
theorem place_least {t : Fin n → ω} {i : Fin n} (hfull : ∀ j, used (t j) = true)
    (h : place used stamp t = some i) (j : Fin n) : stamp (t i) ≤ stamp (t j) :=
  (placeScan_least (fun j _ => hfull j) h).1 j (List.mem_finRange j)

end Place

end UsbTrace.Library.SlotTable
