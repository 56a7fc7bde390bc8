import UsbTrace.Library.Layout
import Mathlib.Tactic.Common

/-!
# C structs in memory

`structBytes fill fields` is what memory holds where a struct with these members is stored:
each member at the next offset its alignment allows, integers little-endian, and, between the
members and after them, whatever was there before (`fill`).  A decoder `Stores` the members of a
value where it reads the value back from them, wherever they stand and whatever is around them;
the members of a composed decoder are those of its parts (`Stores.seq`), so that a whole struct
is read back (`Stores.view`).
-/

set_option autoImplicit false

namespace UsbTrace.Library

open Decode

/-! ## Little-endian integers -/

/-- The `n` little-endian bytes of a number. -/
def leBytes : ℕ → ℕ → List UInt8
  | 0, _ => []
  | n + 1, v => UInt8.ofNat v :: leBytes n (v / 256)

@[simp] theorem length_leBytes (n v : ℕ) : (leBytes n v).length = n := by
  induction n generalizing v with
  | zero => rfl
  | succ n ih => rw [leBytes, List.length_cons, ih]

/-- **Little-endian bytes** make the number again, as far as they reach. -/
theorem leNat_leBytes (n v : ℕ) : leNat (leBytes n v) = v % 256 ^ n := by
  induction n generalizing v with
  | zero => rw [leBytes, leNat, pow_zero, Nat.mod_one]
  | succ n ih =>
    have hbyte : (UInt8.ofNat v).toNat = v % 256 := UInt8.toNat_ofNat'
    rw [leBytes, leNat, ih, hbyte, pow_succ', Nat.mod_mul]

theorem leNat_leBytes_of_lt {n v : ℕ} (h : v < 256 ^ n) : leNat (leBytes n v) = v := by
  rw [leNat_leBytes, Nat.mod_eq_of_lt h]

/-! ## Members -/

/-- A member: an integer of some size, or an array of bytes. -/
inductive Field where
  | int (size v : ℕ)
  | bytes (bs : List UInt8)
deriving DecidableEq, Repr

/-- Where the next member may stand. -/
def Field.place : Field → Cursor → Cursor
  | .int size _, c => ⟨alignUp c.off size + size, max c.align size⟩
  | .bytes bs, c => ⟨c.off + bs.length, c.align⟩

def placeFields : List Field → Cursor → Cursor
  | [], c => c
  | f :: fs, c => placeFields fs (f.place c)

/-- What the memory held between two places. -/
def gap (fill : ℕ → UInt8) (lo hi : ℕ) : List UInt8 := (List.range' lo (hi - lo)).map fill

/-- A member, and what is before it. -/
def Field.write (fill : ℕ → UInt8) : Field → Cursor → List UInt8
  | .int size v, c => gap fill c.off (alignUp c.off size) ++ leBytes size v
  | .bytes bs, _ => bs

def writeFields (fill : ℕ → UInt8) : List Field → Cursor → List UInt8
  | [], _ => []
  | f :: fs, c => f.write fill c ++ writeFields fill fs (f.place c)

/-- A struct in memory. -/
def structBytes (fill : ℕ → UInt8) (fs : List Field) : List UInt8 :=
  let c := placeFields fs start
  writeFields fill fs start ++ gap fill c.off (alignUp c.off c.align)

@[simp] theorem length_gap (fill : ℕ → UInt8) (lo hi : ℕ) : (gap fill lo hi).length = hi - lo := by
  rw [gap, List.length_map, List.length_range']

theorem placeFields_append (fs gs : List Field) (c : Cursor) :
    placeFields (fs ++ gs) c = placeFields gs (placeFields fs c) := by
  induction fs generalizing c with
  | nil => rfl
  | cons f fs ih => exact ih (f.place c)

theorem writeFields_append (fill : ℕ → UInt8) (fs gs : List Field) (c : Cursor) :
    writeFields fill (fs ++ gs) c =
      writeFields fill fs c ++ writeFields fill gs (placeFields fs c) := by
  induction fs generalizing c with
  | nil => rfl
  | cons f fs ih =>
    rw [List.cons_append, writeFields, ih, writeFields, placeFields, List.append_assoc]

/-- No member is less aligned than what is before it. -/
theorem align_le_placeFields (fs : List Field) (c : Cursor) :
    c.align ≤ (placeFields fs c).align := by
  induction fs generalizing c with
  | nil => exact le_rfl
  | cons f fs ih =>
    refine le_trans ?_ (ih (f.place c))
    cases f with
    | int size v => exact le_max_left _ _
    | bytes bs => exact le_rfl

/-! ## Reading back -/

/-- The decoder reads the value from the members, wherever they stand and whatever is around
them. -/
structure Stores {α : Type} (d : Decode α) (fs : List Field) (a : α) : Prop where
  place : ∀ c, d.place c = placeFields fs c
  length : ∀ fill c, c.off + (writeFields fill fs c).length = (placeFields fs c).off
  reads : ∀ fill c pre post, pre.length = c.off →
    d.read (pre ++ (writeFields fill fs c ++ post)) c = a

namespace Stores

variable {α β : Type} {fs gs : List Field}

protected theorem pure (a : α) : Stores (pure a : Decode α) [] a where
  place _ := rfl
  length _ _ := rfl
  reads _ _ _ _ _ := rfl

/-- **Members one after the other** are read by one decoder after the other. -/
theorem seq {f : Decode (α → β)} {x : Decode α} {g : α → β} {a : α} (hf : Stores f fs g)
    (hx : Stores x gs a) : Stores (f <*> x) (fs ++ gs) (g a) where
  place c := by
    rw [placeFields_append, ← hf.place, ← hx.place]
    rfl
  length fill c := by
    rw [writeFields_append, List.length_append, ← Nat.add_assoc, hf.length, hx.length,
      placeFields_append]
  reads fill c pre post hpre := by
    have hlen : (pre ++ writeFields fill fs c).length = (placeFields fs c).off := by
      rw [List.length_append, hpre, hf.length]
    have hread : (f <*> x).read (pre ++ (writeFields fill (fs ++ gs) c ++ post)) c =
        f.read (pre ++ (writeFields fill (fs ++ gs) c ++ post)) c
          (x.read (pre ++ (writeFields fill (fs ++ gs) c ++ post)) (f.place c)) := rfl
    rw [hread, writeFields_append, List.append_assoc, hf.reads fill c pre _ hpre, hf.place,
      ← List.append_assoc pre, hx.reads fill _ _ post hlen]

theorem map {x : Decode α} {a : α} (g : α → β) (hx : Stores x fs a) : Stores (g <$> x) fs (g a) :=
  (Stores.pure g).seq hx

/-- One integer. -/
theorem member {size : ℕ} (hsize : 0 < size) {value : List UInt8 → α} {v : ℕ} {a : α}
    (h : value (leBytes size v) = a) : Stores (Decode.member size hsize value) [.int size v] a where
  place _ := rfl
  length fill c := by
    have hle := le_alignUp c.off hsize
    simp only [writeFields, placeFields, Field.write, Field.place, List.append_nil,
      List.length_append, length_gap, length_leBytes]
    omega
  reads fill c pre post hpre := by
    have hle := le_alignUp c.off hsize
    have hat : (pre ++ gap fill c.off (alignUp c.off size)).length = alignUp c.off size := by
      rw [List.length_append, length_gap, hpre]
      omega
    have hread : (Decode.member size hsize value).read
        (pre ++ (writeFields fill [.int size v] c ++ post)) c =
          value (((pre ++ (writeFields fill [.int size v] c ++ post)).drop
            (alignUp c.off size)).take size) := rfl
    rw [hread, writeFields, writeFields, List.append_nil, Field.write, List.append_assoc,
      ← List.append_assoc pre, List.drop_left' hat, List.take_left' (length_leBytes size v), h]

theorem u8 {f : Decode (UInt8 → β)} {g : UInt8 → β} (h : Stores f fs g) (v : UInt8) :
    Stores (f <*> Decode.u8) (fs ++ [.int 1 v.toNat]) (g v) :=
  h.seq (member _ (by rw [leNat_leBytes_of_lt v.toNat_lt, UInt8.ofNat_toNat]))

theorem u16 {f : Decode (UInt16 → β)} {g : UInt16 → β} (h : Stores f fs g) (v : UInt16) :
    Stores (f <*> Decode.u16) (fs ++ [.int 2 v.toNat]) (g v) :=
  h.seq (member _ (by rw [leNat_leBytes_of_lt v.toNat_lt, UInt16.ofNat_toNat]))

theorem u32 {f : Decode (UInt32 → β)} {g : UInt32 → β} (h : Stores f fs g) (v : UInt32) :
    Stores (f <*> Decode.u32) (fs ++ [.int 4 v.toNat]) (g v) :=
  h.seq (member _ (by rw [leNat_leBytes_of_lt v.toNat_lt, UInt32.ofNat_toNat]))

theorem u64 {f : Decode (UInt64 → β)} {g : UInt64 → β} (h : Stores f fs g) (v : UInt64) :
    Stores (f <*> Decode.u64) (fs ++ [.int 8 v.toNat]) (g v) :=
  h.seq (member _ (by rw [leNat_leBytes_of_lt v.toNat_lt, UInt64.ofNat_toNat]))

/-- A signed integer is stored as its two's complement. -/
theorem s32 {f : Decode (Int32 → β)} {g : Int32 → β} (h : Stores f fs g) (v : Int32) :
    Stores (f <*> Decode.s32) (fs ++ [.int 4 v.toUInt32.toNat]) (g v) := by
  refine h.seq (member _ ?_)
  rw [leNat_leBytes_of_lt v.toUInt32.toNat_lt]
  calc Int32.ofNat v.toUInt32.toNat = (UInt32.ofNat v.toUInt32.toNat).toInt32 := rfl
    _ = v := by rw [UInt32.ofNat_toNat, Int32.toInt32_toUInt32]

/-- An array of its size. -/
theorem bytes {n : ℕ} {f : Decode (List UInt8 → β)} {g : List UInt8 → β} (h : Stores f fs g)
    {bs : List UInt8} (hbs : bs.length = n) :
    Stores (f <*> Decode.bytes n) (fs ++ [.bytes bs]) (g bs) :=
  h.seq
    { place := fun c => by rw [← hbs]; rfl
      length := fun fill c => by
        rw [writeFields, writeFields, List.append_nil]
        rfl
      reads := fun fill c pre post hpre => by
        have hread : (Decode.bytes n).read (pre ++ (writeFields fill [.bytes bs] c ++ post)) c =
            ((pre ++ (writeFields fill [.bytes bs] c ++ post)).drop c.off).take n := rfl
        rw [hread, writeFields, writeFields, List.append_nil, Field.write, List.drop_left' hpre,
          List.take_left' hbs] }

variable {d : Decode α} {a : α}

theorem length_structBytes (h : Stores d fs a) (fill : ℕ → UInt8) :
    (structBytes fill fs).length = d.sizeof := by
  have halign : 0 < (placeFields fs start).align :=
    (Nat.one_pos : 0 < start.align).trans_le (align_le_placeFields fs start)
  have hle := le_alignUp (placeFields fs start).off halign
  have hlen := h.length fill start
  rw [structBytes, List.length_append, length_gap, Decode.sizeof, h.place]
  rw [show start.off = 0 from rfl, Nat.zero_add] at hlen
  omega

/-- What a struct begins with is read back. -/
theorem of_structBytes_append (h : Stores d fs a) (fill : ℕ → UInt8) (gs : List Field)
    (rest : List UInt8) : d.of (structBytes fill (fs ++ gs) ++ rest) = a := by
  rw [structBytes, writeFields_append, List.append_assoc, List.append_assoc]
  exact h.reads fill start [] _ rfl

/-- **A struct that was stored is read back**, whatever the memory held before, and whatever
follows it. -/
theorem of_structBytes (h : Stores d fs a) (fill : ℕ → UInt8) (rest : List UInt8) :
    d.of (structBytes fill fs ++ rest) = a := by
  have hof := h.of_structBytes_append fill [] rest
  rwa [List.append_nil] at hof

theorem view (h : Stores d fs a) (fill : ℕ → UInt8) (rest : List UInt8) :
    d.view (structBytes fill fs ++ rest) = some a := by
  rw [Decode.view_eq_some, h.of_structBytes]
  rw [List.length_append, h.length_structBytes]
  exact Nat.le_add_right _ _

end Stores

end UsbTrace.Library
