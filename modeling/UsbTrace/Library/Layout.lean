import Mathlib.Data.List.GetD
import Mathlib.Tactic.NormNum

/-!
# Reading C structs from bytes

A `Decode α` reads a value of type `α` from a byte string the way C reads a struct: each
member at the next offset its alignment allows, integers little-endian.  Where a decoder
stands after a member never depends on the bytes, and what it reads depends only on the
bytes before that place; both are part of the structure, so `sizeof` is a number of the
decoder and a record of that length is all it ever looks at (`Decode.of_take`).

Decoders of structs are put together with `<$>` and `<*>`, members in source order.
-/

set_option autoImplicit false

namespace UsbTrace.Library

/-- The place of the next member, and the strictest alignment met so far. -/
structure Cursor where
  off : ℕ
  align : ℕ
deriving DecidableEq, Repr

/-- The next multiple of `a` from `n` on. -/
def alignUp (n a : ℕ) : ℕ := (n + a - 1) / a * a

theorem le_alignUp (n : ℕ) {a : ℕ} (ha : 0 < a) : n ≤ alignUp n a := by
  have h := Nat.div_add_mod (n + a - 1) a
  have hmod := Nat.mod_lt (n + a - 1) ha
  have hcomm : a * ((n + a - 1) / a) = (n + a - 1) / a * a := Nat.mul_comm _ _
  simp only [alignUp]
  omega

/-- The natural number with the given little-endian bytes. -/
def leNat : List UInt8 → ℕ
  | [] => 0
  | b :: bs => b.toNat + 256 * leNat bs

/-- The number at a place of a byte string, from the byte there on; zeros past its end. -/
theorem leNat_take_succ (l : List UInt8) (i n : ℕ) :
    leNat ((l.drop i).take (n + 1)) =
      (l.getD i 0).toNat + 256 * leNat ((l.drop (i + 1)).take n) := by
  by_cases hi : i < l.length
  · rw [List.drop_eq_getElem_cons hi, List.take_succ_cons, leNat,
      List.getD_eq_getElem l 0 hi]
  · rw [List.drop_of_length_le (by omega), List.drop_of_length_le (by omega),
      List.getD_eq_default l 0 (by omega), List.take_nil, List.take_nil]
    rfl

/-- Words side by side: the lower bits of the one, shifted past those of the other. -/
theorem toNat_or_shiftLeft {x y k : UInt32} (hk : k.toNat < 32) (hx : x.toNat < 2 ^ k.toNat)
    (hy : y.toNat * 2 ^ k.toNat < 2 ^ 32) :
    (x ||| (y <<< k)).toNat = x.toNat + y.toNat * 2 ^ k.toNat := by
  have hshift : (y <<< k).toNat = y.toNat <<< k.toNat := by
    rw [UInt32.toNat_shiftLeft, Nat.mod_eq_of_lt hk, Nat.shiftLeft_eq, Nat.mod_eq_of_lt hy]
  rw [UInt32.toNat_or, hshift, Nat.or_comm, ← Nat.shiftLeft_add_eq_or_of_lt hx, Nat.shiftLeft_eq,
    Nat.add_comm]

/-- A decoder: where it leaves the cursor, and what it reads. -/
structure Decode (α : Type) where
  place : Cursor → Cursor
  read : List UInt8 → Cursor → α
  mono : ∀ c, c.off ≤ (place c).off
  reads_before : ∀ data data' c, data.take (place c).off = data'.take (place c).off →
    read data c = read data' c

namespace Decode

variable {α β : Type}

/-- A member of `size` bytes, aligned to `size`, whose value is read off its bytes. -/
def member (size : ℕ) (hsize : 0 < size) (value : List UInt8 → α) : Decode α where
  place c := ⟨alignUp c.off size + size, max c.align size⟩
  read data c := value ((data.drop (alignUp c.off size)).take size)
  mono c := (le_alignUp c.off hsize).trans (Nat.le_add_right _ _)
  reads_before data data' c h := by
    have hdrop := congrArg (List.drop (alignUp c.off size)) h
    simp only [List.drop_take, Nat.add_sub_cancel_left] at hdrop
    rw [hdrop]

def u8 : Decode UInt8 := member 1 (by decide) fun bs => UInt8.ofNat (leNat bs)
def u16 : Decode UInt16 := member 2 (by decide) fun bs => UInt16.ofNat (leNat bs)
def u32 : Decode UInt32 := member 4 (by decide) fun bs => UInt32.ofNat (leNat bs)
def u64 : Decode UInt64 := member 8 (by decide) fun bs => UInt64.ofNat (leNat bs)
def s32 : Decode Int32 := member 4 (by decide) fun bs => Int32.ofNat (leNat bs)

/-- An array of `n` bytes. -/
def bytes (n : ℕ) : Decode (List UInt8) where
  place c := ⟨c.off + n, c.align⟩
  read data c := (data.drop c.off).take n
  mono c := Nat.le_add_right _ _
  reads_before data data' c h := by
    have hdrop := congrArg (List.drop c.off) h
    simpa only [List.drop_take, Nat.add_sub_cancel_left] using hdrop

instance : Applicative Decode where
  pure a :=
    { place := id, read := fun _ _ => a, mono := fun _ => le_rfl,
      reads_before := fun _ _ _ _ => rfl }
  seq f x :=
    { place := fun c => ((x ()).place (f.place c))
      read := fun data c => f.read data c ((x ()).read data (f.place c))
      mono := fun c => (f.mono c).trans ((x ()).mono _)
      reads_before := fun data data' c h => by
        have hle := (x ()).mono (f.place c)
        have hf : data.take (f.place c).off = data'.take (f.place c).off := by
          have := congrArg (List.take (f.place c).off) h
          rwa [List.take_take, List.take_take, Nat.min_eq_left hle] at this
        rw [f.reads_before data data' c hf, (x ()).reads_before data data' _ h] }

/-- Where a struct's members start. -/
def start : Cursor := ⟨0, 1⟩

/-- The struct at the beginning of a byte string. -/
def of (d : Decode α) (data : List UInt8) : α := d.read data start

/-- `sizeof`: the end of the last member, padded to the struct's alignment. -/
def sizeof (d : Decode α) : ℕ := alignUp (d.place start).off (d.place start).align

/-- The struct a byte string holds, if it is long enough for one. -/
def view (d : Decode α) (data : List UInt8) : Option α :=
  if data.length < d.sizeof then none else some (d.of data)

theorem view_eq_some (d : Decode α) {data : List UInt8} (h : d.sizeof ≤ data.length) :
    d.view data = some (d.of data) := by
  rw [view, if_neg (by omega)]

theorem view_eq_none (d : Decode α) {data : List UInt8} (h : data.length < d.sizeof) :
    d.view data = none := by
  rw [view, if_pos h]

/-- **A decoder looks at no byte past the struct.** -/
theorem of_take (d : Decode α) (data : List UInt8) {n : ℕ} (hn : (d.place start).off ≤ n) :
    d.of (data.take n) = d.of data := by
  refine d.reads_before _ _ start ?_
  rw [List.take_take, Nat.min_eq_left hn]

/-- What follows a struct does not change what is read. -/
theorem of_append (d : Decode α) {data : List UInt8} (extra : List UInt8)
    (h : (d.place start).off ≤ data.length) : d.of (data ++ extra) = d.of data := by
  rw [← of_take d (data ++ extra) h, List.take_left]

end Decode

end UsbTrace.Library
