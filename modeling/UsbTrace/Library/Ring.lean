import Mathlib.Logic.Function.Basic
import Mathlib.Data.List.Basic

/-!
# Ring buffers that keep the newest entries

A ring of capacity `cap` is a memory with a write position `head` and a number of
valid entries `count`.  `push` overwrites the oldest entry of a full ring; `nth`
reads backwards from the newest.  `toList_push` says what the ring stands for: the
newest `cap` entries, newest first.
-/

set_option autoImplicit false

namespace UsbTrace.Library

/-- A ring buffer; the memory outside the capacity is never read. -/
structure RingBuffer (α : Type) where
  buf : ℕ → α
  head : ℕ
  count : ℕ

namespace RingBuffer

variable {α : Type} {cap : ℕ}

/-- The positions a ring of capacity `cap` may hold. -/
structure Bounded (cap : ℕ) (r : RingBuffer α) : Prop where
  head_lt : r.head < cap
  count_le : r.count ≤ cap

/-- Write one entry at `head`. -/
def push (cap : ℕ) (r : RingBuffer α) (x : α) : RingBuffer α where
  buf := Function.update r.buf r.head x
  head := (r.head + 1) % cap
  count := if r.count < cap then r.count + 1 else r.count

/-- The position of the `idx`-th newest entry. -/
def pos (cap : ℕ) (r : RingBuffer α) (idx : ℕ) : ℕ := (r.head + 2 * cap - 1 - idx) % cap

/-- The `idx`-th newest entry. -/
def nth (cap : ℕ) (r : RingBuffer α) (idx : ℕ) : α := r.buf (r.pos cap idx)

/-- The entries of a ring, newest first. -/
def toList (cap : ℕ) (r : RingBuffer α) : List α := (List.range r.count).map (r.nth cap)

@[simp] theorem length_toList (r : RingBuffer α) : (r.toList cap).length = r.count := by
  simp [toList]

/-- Positions without the modulus: one wrap at the start of the memory. -/
theorem pos_eq {r : RingBuffer α} (hr : r.Bounded cap) {idx : ℕ} (hidx : idx < cap) :
    r.pos cap idx = if idx < r.head then r.head - 1 - idx else r.head + cap - 1 - idx := by
  have hh := hr.head_lt
  unfold pos
  split
  · have e : r.head + 2 * cap - 1 - idx = (r.head - 1 - idx) + cap * 2 := by omega
    rw [e, Nat.add_mul_mod_self_left, Nat.mod_eq_of_lt (by omega)]
  · have e : r.head + 2 * cap - 1 - idx = (r.head + cap - 1 - idx) + cap * 1 := by omega
    rw [e, Nat.add_mul_mod_self_left, Nat.mod_eq_of_lt (by omega)]

/-- Pushing keeps a ring within its capacity. -/
theorem Bounded.push {r : RingBuffer α} (hr : r.Bounded cap) (x : α) :
    (r.push cap x).Bounded cap := by
  refine ⟨Nat.mod_lt _ (Nat.zero_lt_of_lt hr.head_lt), ?_⟩
  have := hr.count_le
  simp only [RingBuffer.push]
  split <;> omega

/-- The empty ring of a positive capacity is within it. -/
theorem bounded_empty (buf : ℕ → α) (h : 0 < cap) : (RingBuffer.mk buf 0 0).Bounded cap :=
  ⟨h, Nat.zero_le _⟩

/-- The new head is one further, or back at the start. -/
theorem push_head {r : RingBuffer α} (hr : r.Bounded cap) (x : α) :
    (r.push cap x).head = if r.head + 1 = cap then 0 else r.head + 1 := by
  have hh := hr.head_lt
  simp only [RingBuffer.push]
  split
  · next h => rw [h, Nat.mod_self]
  · exact Nat.mod_eq_of_lt (by omega)

/-- The entry just pushed is the newest. -/
theorem nth_push_zero {r : RingBuffer α} (hr : r.Bounded cap) (x : α) :
    (r.push cap x).nth cap 0 = x := by
  have hh := hr.head_lt
  have hpos : (r.push cap x).pos cap 0 = r.head := by
    rw [pos_eq (hr.push x) (by omega), push_head hr]
    split <;> split <;> omega
  rw [nth, hpos]
  simp [RingBuffer.push]

/-- Every older entry moves one place back. -/
theorem nth_push_succ {r : RingBuffer α} (hr : r.Bounded cap) (x : α) {idx : ℕ}
    (hidx : idx + 1 < cap) : (r.push cap x).nth cap (idx + 1) = r.nth cap idx := by
  have hh := hr.head_lt
  have hpos : (r.push cap x).pos cap (idx + 1) = r.pos cap idx := by
    rw [pos_eq (hr.push x) hidx, push_head hr, pos_eq hr (by omega)]
    split <;> split <;> split <;> omega
  have hne : r.pos cap idx ≠ r.head := by
    rw [pos_eq hr (by omega)]
    split <;> omega
  rw [nth, hpos, nth]
  simp [RingBuffer.push, hne]

/-- **What a ring stands for.** A push puts the entry in front and keeps the newest
`cap`. -/
theorem toList_push {r : RingBuffer α} (hr : r.Bounded cap) (x : α) :
    (r.push cap x).toList cap = (x :: r.toList cap).take cap := by
  have hh := hr.head_lt
  have hc := hr.count_le
  have hcount : (r.push cap x).count = min cap (r.count + 1) := by
    simp only [RingBuffer.push]
    split <;> omega
  refine List.ext_getElem (by simp [hcount]) ?_
  intro idx h₁ _
  have hidx : idx < min cap (r.count + 1) := by simpa [hcount] using h₁
  rw [List.getElem_take]
  cases idx with
  | zero => simpa [toList] using nth_push_zero hr x
  | succ j =>
    have hj : (r.push cap x).nth cap (j + 1) = r.nth cap j := nth_push_succ hr x (by omega)
    simpa [toList] using hj

end RingBuffer

end UsbTrace.Library
