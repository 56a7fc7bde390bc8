import UsbTrace.Analysis.Pairing

/-!
# The status of a descriptor read

`usb_get_device_descriptor` returns an `int` up to Linux 6.5, which leaves the upper half of
the return register zero or copies of the sign, and a pointer or an `ERR_PTR` from 6.6 on.
The exit probe has the register alone.  It reads every return right but one: a negative
`int` over a zero upper half is taken for a pointer, and the failure for a success
(`desc_status_iff`).
-/

set_option autoImplicit false

namespace UsbTrace.Analysis

open UsbTrace.Model UsbTrace.Library

/-- What `usb_get_device_descriptor` may leave in a 64-bit return register, with the result it
stands for: a byte count, 0 for a pointer, or a negative errno. -/
inductive DescReturn : UInt64 → ℤ → Prop
  | zeroExtended {rc : UInt64} {r : ℤ} :
      -4095 ≤ r → r < 4096 → (rc.toNat : ℤ) = r % 2 ^ 32 → DescReturn rc r
  | signExtended {rc : UInt64} {r : ℤ} :
      -4095 ≤ r → r < 4096 → (rc.toNat : ℤ) = r % 2 ^ 64 → DescReturn rc r
  | errPtr {rc : UInt64} {n : ℕ} :
      1 ≤ n → n ≤ 4095 → rc.toNat = 2 ^ 64 - n → DescReturn rc (-n)
  | pointer {rc : UInt64} :
      2 ^ 32 ≤ rc.toNat → rc.toNat < 2 ^ 64 - 4095 → DescReturn rc 0

/-- The probe reads the result, and reports the read as failed exactly when it failed. -/
def StatusRight (rc : UInt64) (r : ℤ) : Prop :=
  (usbtraceKretPtrOrInt rc).toInt = r ∧
    ∀ cfg m ctx e, Record.enum e ∈ (onExit cfg m ctx rc .getDesc).2 → (e.status < 0 ↔ r < 0)

theorem lowInt_toInt (rc : UInt64) :
    rc.toUInt32.toInt32.toInt =
      if rc.toNat % 2 ^ 32 < 2 ^ 31 then (rc.toNat % 2 ^ 32 : ℤ)
      else (rc.toNat % 2 ^ 32 : ℤ) - 2 ^ 32 := by
  have hbits : rc.toUInt32.toInt32.toInt = rc.toUInt32.toBitVec.toInt := rfl
  have hnat : rc.toUInt32.toBitVec.toNat = rc.toNat % 2 ^ 32 := UInt64.toNat_toUInt32 rc
  rw [hbits, BitVec.toInt_eq_toNat_cond, hnat]
  split_ifs <;> omega

/-- The three ranges of the register, as `usbtrace_kret_ptr_or_int` tells them apart. -/
theorem kretPtrOrInt_toInt (rc : UInt64) :
    (usbtraceKretPtrOrInt rc).toInt =
      if 2 ^ 64 - 4095 ≤ rc.toNat then (rc.toNat : ℤ) - 2 ^ 64
      else if rc.toNat < 4096 then (rc.toNat : ℤ) else 0 := by
  have hlt := rc.toNat_lt
  have hlow := lowInt_toInt rc
  have herr : rc ≥ 0 - 4095 ↔ 2 ^ 64 - 4095 ≤ rc.toNat := by
    show (0 - 4095 : UInt64) ≤ rc ↔ _
    rw [UInt64.le_iff_toNat_le]
    rfl
  have hsmall : rc < 4096 ↔ rc.toNat < 4096 := UInt64.lt_iff_toNat_lt
  unfold usbtraceKretPtrOrInt
  by_cases h1 : 2 ^ 64 - 4095 ≤ rc.toNat
  · rw [if_pos (herr.mpr h1), if_pos h1, hlow]
    split_ifs <;> omega
  · rw [if_neg fun h => h1 (herr.mp h), if_neg h1]
    by_cases h2 : rc.toNat < 4096
    · rw [if_pos (hsmall.mpr h2), if_pos h2, hlow]
      split_ifs <;> omega
    · rw [if_neg fun h => h2 (hsmall.mp h), if_neg h2]
      rfl

/-- The record of a descriptor read carries what the probe reads of the register. -/
theorem getDesc_status {cfg : FilterConfig} {m : PendingMaps} {ctx : ThreadCtx} {rc : UInt64}
    {e : EnumEvent} (h : Record.enum e ∈ (onExit cfg m ctx rc .getDesc).2) :
    e.status = usbtraceKretPtrOrInt rc := by
  rw [onExit_record, Option.mem_toList, Option.bind_eq_some_iff] at h
  obtain ⟨udev, -, hrecord⟩ := h
  unfold exitRecord at hrecord
  dsimp only at hrecord
  split at hrecord
  · cases hrecord
  · rw [if_neg (by decide)] at hrecord
    obtain ⟨e', he', heq⟩ := Option.map_eq_some_iff.mp hrecord
    obtain ⟨ids, -, rfl⟩ := Option.map_eq_some_iff.mp he'
    cases heq
    rfl

/-- **The probe reads a return right** unless it is a negative `int` over a zero upper half.
SOURCE: pt_regs.bpf.h:88-123, enum.bpf.c:96-118 -/
theorem desc_status_iff {rc : UInt64} {r : ℤ} (h : DescReturn rc r) :
    StatusRight rc r ↔ ¬(r < 0 ∧ rc.toNat < 2 ^ 32) := by
  have hread : (usbtraceKretPtrOrInt rc).toInt = r ↔ ¬(r < 0 ∧ rc.toNat < 2 ^ 32) := by
    have hlt := rc.toNat_lt
    rw [kretPtrOrInt_toInt]
    cases h with
    | zeroExtended hlo hhi hrc => split_ifs <;> omega
    | signExtended hlo hhi hrc => split_ifs <;> omega
    | errPtr hlo hhi hrc => split_ifs <;> omega
    | pointer hlo hhi => split_ifs <;> omega
  constructor
  · intro hright
    exact hread.mp hright.1
  · intro hcond
    refine ⟨hread.mpr hcond, ?_⟩
    intro cfg m ctx e he
    rw [getDesc_status he, Int32.lt_iff_toInt_lt, hread.mpr hcond]
    rfl

/-- EPROTO over copies of its sign. -/
theorem desc_status_sample :
    StatusRight 0xffffffffffffffb9 (-71) ↔
      ¬((-71 : ℤ) < 0 ∧ (0xffffffffffffffb9 : UInt64).toNat < 2 ^ 32) :=
  desc_status_iff (.signExtended (by decide) (by decide) (by decide))

/-- EPROTO over a zero upper half. -/
theorem eproto_reads_zero :
    DescReturn 0xffffffb9 (-71) ∧ usbtraceKretPtrOrInt 0xffffffb9 = 0 ∧
      usbtraceKretInt 0xffffffb9 = -71 ∧ ¬StatusRight 0xffffffb9 (-71) := by
  refine ⟨.zeroExtended (by decide) (by decide) (by decide), by decide, by decide, ?_⟩
  intro h
  exact absurd h.1 (by decide)

end UsbTrace.Analysis
