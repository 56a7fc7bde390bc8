import Mathlib.Algebra.GroupWithZero.Nat
import Mathlib.Algebra.BigOperators.Group.List.Basic
import Mathlib.Data.Int.Notation
import Mathlib.Data.Nat.Notation

/-!
# `long` and `unsigned long`

C leaves the width of `long` to the target.  A program that runs on targets of 32 and of 64
bits is modelled on both: what reads a `long` takes the width (`LongWidth`), and a counter of
type `unsigned long` holds what either target holds (`ULong`), each modulo its own range.

A counter that is only added to is `ULong.ofNat` of what has been added up (`ofNat_add`); what
is tallied of a list grows by one item at a time (`ofNat_countP_concat`, `ofNat_sum_concat`).
-/

set_option autoImplicit false

namespace UsbTrace.Library

/-- The width of `long`. -/
inductive LongWidth where
  | long32 | long64
deriving DecidableEq, Repr

def LongWidth.bits : LongWidth → ℕ
  | .long32 => 32
  | .long64 => 64

/-- The value is one of a `long`. -/
def LongWidth.Holds (w : LongWidth) (v : ℤ) : Prop :=
  -2 ^ (w.bits - 1) ≤ v ∧ v < 2 ^ (w.bits - 1)

instance (w : LongWidth) (v : ℤ) : Decidable (w.Holds v) := inferInstanceAs (Decidable (_ ∧ _))

/-- A value of 32 bits is one of every `long`. -/
theorem LongWidth.holds_of_int {w : LongWidth} {v : ℤ} (hlo : -2 ^ 31 ≤ v) (hhi : v < 2 ^ 31) :
    w.Holds v := by
  cases w <;> simp only [LongWidth.Holds, LongWidth.bits] <;> constructor <;> omega

/-- An `unsigned long`: what a target of 32 bits holds, and what one of 64. -/
@[ext] structure ULong where
  on32 : UInt32
  on64 : UInt64
deriving DecidableEq, Repr

namespace ULong

/-- A number as an `unsigned long`. -/
def ofNat (n : ℕ) : ULong := ⟨UInt32.ofNat n, UInt64.ofNat n⟩

/-- The number a target holds. -/
def toNat (n : ULong) : LongWidth → ℕ
  | .long32 => n.on32.toNat
  | .long64 => n.on64.toNat

instance (n : ℕ) : OfNat ULong n := ⟨ofNat n⟩

instance : Add ULong := ⟨fun a b => ⟨a.on32 + b.on32, a.on64 + b.on64⟩⟩

/-- **What is added up** stays a number as an `unsigned long`. -/
theorem ofNat_add (m n : ℕ) : ofNat (m + n) = ofNat m + ofNat n :=
  ULong.ext (UInt32.ofNat_add m n) (UInt64.ofNat_add m n)

/-- One more. -/
theorem ofNat_succ (n : ℕ) : ofNat (n + 1) = ofNat n + 1 := ofNat_add n 1

/-- The number a target holds is the remainder by its range. -/
theorem toNat_ofNat (n : ℕ) (w : LongWidth) : (ofNat n).toNat w = n % 2 ^ w.bits := by
  cases w with
  | long32 => exact UInt32.toNat_ofNat'
  | long64 => exact UInt64.toNat_ofNat'

/-- A number in the range is held as it is. -/
theorem toNat_ofNat_of_lt {n : ℕ} {w : LongWidth} (h : n < 2 ^ w.bits) :
    (ofNat n).toNat w = n := by
  rw [toNat_ofNat, Nat.mod_eq_of_lt h]

variable {α : Type}

/-- The number of items, with one more. -/
theorem ofNat_length_concat (es : List α) (e : α) :
    ofNat (es ++ [e]).length = ofNat es.length + 1 := by
  rw [List.length_append]
  exact ofNat_succ es.length

/-- The number of items of some kind, with one more item. -/
theorem ofNat_countP_concat (p : α → Prop) [DecidablePred p] (es : List α) (e : α) :
    ofNat ((es ++ [e]).countP fun x => p x) =
      if p e then ofNat (es.countP fun x => p x) + 1 else ofNat (es.countP fun x => p x) := by
  rw [List.countP_append, List.countP_singleton, ofNat_add]
  by_cases he : p e
  · rw [if_pos he, decide_eq_true he]
    rfl
  · rw [if_neg he, decide_eq_false he, ← ofNat_add]
    rfl

end ULong

/-- A sum of numbers of 32 bits, as an `unsigned long long`, with one more. -/
theorem ofNat_sum_concat {α : Type} (f : α → UInt32) (es : List α) (e : α) :
    UInt64.ofNat (((es ++ [e]).map fun x => (f x).toNat).sum) =
      UInt64.ofNat ((es.map fun x => (f x).toNat).sum) + (f e).toUInt64 := by
  rw [List.map_append, List.sum_append_nat, UInt64.ofNat_add, List.map_singleton]
  simp only [List.sum_cons, List.sum_nil, Nat.add_zero, UInt64.ofNat_uInt32ToNat]

end UsbTrace.Library
