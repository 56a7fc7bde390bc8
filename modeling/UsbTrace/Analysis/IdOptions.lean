import UsbTrace.Model.FilterOptions
import UsbTrace.Interface.DeviceFilter

/-!
# The ids of the filter options

The help calls the argument of `--vid` and `--pid` hexadecimal.  It is read in the base its
prefix selects, as far as its digits go, and cut to 16 bits, and none is refused.  So an
option selects the id it names if that is written with `0x`, or has one digit that the base
selected has too (`id_option_iff`).
-/

set_option autoImplicit false

namespace UsbTrace.Analysis

open UsbTrace.Model UsbTrace.Interface UsbTrace.Library

variable {long : LongWidth}

/-- The two options. -/
inductive IdOption where
  | vid | pid
deriving DecidableEq, Repr

def IdOption.code : IdOption → ℕ
  | .vid => usbtraceOptVid
  | .pid => usbtraceOptPid

/-- The id of a device the option is about. -/
def IdOption.idOf (dev : UsbDevice) : IdOption → UInt16
  | .vid => dev.idVendor
  | .pid => dev.idProduct

/-- The filter without the option. -/
def IdOption.without (f : UsbtraceFilter) : IdOption → UsbtraceFilter
  | .vid => { f with vid := 0 }
  | .pid => { f with pid := 0 }

/-- A hexadecimal id, with or without its mark. -/
inductive HexId : List Char → ℕ → Prop
  | plain {ds : List Char} :
      ds ≠ [] → (∀ c ∈ ds, digitVal c < 16) → HexId ds (digitsVal 16 ds)
  | marked {x : Char} {ds : List Char} :
      x = 'x' ∨ x = 'X' → ds ≠ [] → (∀ c ∈ ds, digitVal c < 16) →
      HexId ('0' :: x :: ds) (digitsVal 16 ds)

/-- The option is refused, or its argument is a hexadecimal id of at most 16 bits and the
filter passes the devices with this id, all if it is 0, that it passes without the option. -/
def SelectsId (long : LongWidth) (o : IdOption) (s : List Char) : Prop :=
  ∀ f, (usbtraceFilterParse long [(o.code, s)] f).1 < 0 ∨
    ∃ v ≤ 0xffff, HexId s v ∧ ∀ dev,
      passes (usbtraceFilterParse long [(o.code, s)] f).2.config dev = true ↔
        (v = 0 ∨ (o.idOf dev).toNat = v) ∧ passes (o.without f).config dev = true

/-- The argument is marked as hexadecimal and fits in 16 bits, or has one digit: a decimal one
that stands alone, or an octal one after zeros. -/
def ReadAsHex (s : List Char) : Prop :=
  (∃ x ds, s = '0' :: x :: ds ∧ (x = 'x' ∨ x = 'X') ∧ ds ≠ [] ∧ (∀ c ∈ ds, digitVal c < 16) ∧
    digitsVal 16 ds ≤ 0xffff) ∨
  ∃ k d, s = List.replicate k '0' ++ [d] ∧ digitVal d < if k = 0 then 10 else 8

/-! ## The filter -/

/-- The number the option leaves in the filter. -/
def selectedId (long : LongWidth) (s : List Char) : ℕ := strtoul long.bits s % 2 ^ 16

theorem parseId_toUInt16 (s : List Char) : (parseId long s).toUInt16.toNat = selectedId long s := by
  rw [UInt32.toNat_toUInt16, parseId, UInt32.toNat_ofNat', selectedId]
  exact Nat.mod_mod_of_dvd _ (by decide)

theorem passes_iff (cfg : FilterConfig) (dev : UsbDevice) :
    passes cfg dev = true ↔
      (cfg.filterVid = 0 ∨ dev.idVendor = cfg.filterVid) ∧
        (cfg.filterPid = 0 ∨ dev.idProduct = cfg.filterPid) := by
  unfold passes usbtraceDevMatch
  split_ifs with hvid hpid
  · simp only [Option.isSome_none, Bool.false_eq_true, false_iff]
    tauto
  · simp only [Option.isSome_none, Bool.false_eq_true, false_iff]
    tauto
  · simp only [Option.isSome_some, true_iff]
    tauto

/-- **An option** is taken whatever its argument, and passes the devices with the id it is
read as. -/
theorem parse_option (long : LongWidth) (o : IdOption) (s : List Char) (f : UsbtraceFilter)
    (dev : UsbDevice) :
    (usbtraceFilterParse long [(o.code, s)] f).1 = 0 ∧
      (passes (usbtraceFilterParse long [(o.code, s)] f).2.config dev = true ↔
        (selectedId long s = 0 ∨ (o.idOf dev).toNat = selectedId long s) ∧
          passes (o.without f).config dev = true) := by
  have hzero : (parseId long s).toUInt16 = 0 ↔ selectedId long s = 0 := by
    rw [← parseId_toUInt16, ← UInt16.toNat_inj]
    rfl
  have hsame : ∀ id : UInt16, id = (parseId long s).toUInt16 ↔ id.toNat = selectedId long s := by
    intro id
    rw [← parseId_toUInt16, UInt16.toNat_inj]
  cases o with
  | vid =>
    refine ⟨rfl, ?_⟩
    rw [passes_iff, passes_iff]
    show ((parseId long s).toUInt16 = 0 ∨ dev.idVendor = (parseId long s).toUInt16) ∧ _ ↔ _
    rw [hzero, hsame]
    exact ⟨fun h => ⟨h.1, .inl rfl, h.2⟩, fun h => ⟨h.1, h.2.2⟩⟩
  | pid =>
    refine ⟨rfl, ?_⟩
    rw [passes_iff, passes_iff]
    show _ ∧ ((parseId long s).toUInt16 = 0 ∨ dev.idProduct = (parseId long s).toUInt16) ↔ _
    rw [hzero, hsame]
    exact ⟨fun h => ⟨h.2, h.1, .inl rfl⟩, fun h => ⟨h.2.1, h.1⟩⟩

/-- Two numbers that select the same devices are the same. -/
theorem selected_eq {o : IdOption} {f : UsbtraceFilter} {u v : ℕ} (hu : u < 2 ^ 16)
    (hv : v < 2 ^ 16)
    (h : ∀ dev, ((u = 0 ∨ (o.idOf dev).toNat = u) ∧ passes (o.without f).config dev = true) ↔
      ((v = 0 ∨ (o.idOf dev).toNat = v) ∧ passes (o.without f).config dev = true)) : u = v := by
  have hid : ∀ id : UInt16, (u = 0 ∨ id.toNat = u) ↔ (v = 0 ∨ id.toNat = v) := by
    intro id
    have hdev : ∃ dev, o.idOf dev = id ∧ passes (o.without f).config dev = true := by
      cases o with
      | vid =>
        refine ⟨{ idVendor := id, idProduct := f.pid.toUInt16 }, rfl, ?_⟩
        rw [passes_iff]
        exact ⟨.inl rfl, .inr rfl⟩
      | pid =>
        refine ⟨{ idVendor := f.vid.toUInt16, idProduct := id }, rfl, ?_⟩
        rw [passes_iff]
        exact ⟨.inr rfl, .inl rfl⟩
    obtain ⟨dev, hdev, hpass⟩ := hdev
    have hboth := h dev
    rw [hdev] at hboth
    exact ⟨fun hid => (hboth.mp ⟨hid, hpass⟩).1, fun hid => (hboth.mpr ⟨hid, hpass⟩).1⟩
  have hnat : ∀ n < 2 ^ 16, (u = 0 ∨ n = u) ↔ (v = 0 ∨ n = v) := by
    intro n hn
    have hofNat := hid (UInt16.ofNat n)
    rwa [UInt16.toNat_ofNat', Nat.mod_eq_of_lt hn] at hofNat
  have h0 := hnat 0 (by decide)
  have h1 := hnat 1 (by decide)
  have hself := hnat u hu
  omega

/-- An option selects the id it names if it is read as that id. -/
theorem selectsId_iff (o : IdOption) (s : List Char) :
    SelectsId long o s ↔ ∃ v ≤ 0xffff, HexId s v ∧ selectedId long s = v := by
  have hlt : selectedId long s < 2 ^ 16 := Nat.mod_lt _ (by decide)
  constructor
  · intro h
    rcases h {} with hrefused | ⟨v, hv, hid, hpass⟩
    · rw [(parse_option long o s {} {}).1] at hrefused
      exact absurd hrefused (lt_irrefl 0)
    · refine ⟨v, hv, hid, selected_eq (o := o) (f := {}) hlt (by omega) ?_⟩
      intro dev
      rw [← (parse_option long o s {} dev).2, hpass dev]
  · rintro ⟨v, hv, hid, rfl⟩ f
    exact .inr ⟨_, hv, hid, fun dev => (parse_option long o s f dev).2⟩

/-! ## The number -/

theorem selectedId_digits {s : List Char} (hs : ∀ c ∈ s, digitVal c < 36) {base : ℕ}
    {ds : List Char} (hbase : splitBase s = (base, ds))
    (hle : digitsVal base (ds.takeWhile fun c => digitVal c < base) ≤ 0xffff) :
    selectedId long s = digitsVal base (ds.takeWhile fun c => digitVal c < base) := by
  have hwide : (0xffff : ℕ) < 2 ^ long.bits := by cases long <;> decide
  rw [selectedId, strtoul_digits hs, hbase]
  dsimp only
  rw [if_neg (by omega), Nat.mod_eq_of_lt (by omega)]

/-- The base a plain hexadecimal id is read in, and how far. -/
theorem selectedId_plain {s : List Char} (hs : ∀ c ∈ s, digitVal c < 16)
    (hle : digitsVal 16 s ≤ 0xffff) :
    ∃ b, (b = 8 ∧ (∃ ds, s = '0' :: ds) ∨ b = 10 ∧ ∀ ds, s ≠ '0' :: ds) ∧
      selectedId long s = digitsVal b (s.takeWhile fun c => digitVal c < b) := by
  have hrun : ∀ b ≤ 16, digitsVal b (s.takeWhile fun c => digitVal c < b) ≤ 0xffff := by
    intro b hb
    have hsplit := List.takeWhile_append_dropWhile (p := fun c => digitVal c < b) (l := s)
    have hwhole := digitsVal_append 16 (s.takeWhile fun c => digitVal c < b)
      (s.dropWhile fun c => digitVal c < b)
    rw [hsplit] at hwhole
    have hpow := Nat.le_mul_of_pos_right (digitsVal 16 (s.takeWhile fun c => digitVal c < b))
      (Nat.pow_pos (n := (s.dropWhile fun c => digitVal c < b).length) (show 0 < 16 by decide))
    have hmono := digitsVal_mono hb (s.takeWhile fun c => digitVal c < b)
    omega
  have h36 : ∀ c ∈ s, digitVal c < 36 := fun c hc => (hs c hc).trans (by decide)
  rcases splitBase_cases s with ⟨x, d, ds, rfl, hx, -⟩ | ⟨ds, rfl, hsplit⟩ | ⟨hzero, hsplit⟩
  · have hdigit := hs x (by simp)
    rcases hx with rfl | rfl <;> exact absurd hdigit (by decide)
  · exact ⟨8, .inl ⟨rfl, ds, rfl⟩, selectedId_digits h36 hsplit (hrun 8 (by decide))⟩
  · exact ⟨10, .inr ⟨rfl, hzero⟩, selectedId_digits h36 hsplit (hrun 10 (by decide))⟩

/-- A run of digits of a smaller base has the hexadecimal value of all the digits only if it is
all of them, and zeros but for the last. -/
theorem run_agrees {b : ℕ} (hpos : 0 < b) (hb : b < 16) {s : List Char} (hne : s ≠ [])
    (heq : digitsVal b (s.takeWhile fun c => digitVal c < b) = digitsVal 16 s) :
    ∃ k d, s = List.replicate k '0' ++ [d] ∧ digitVal d < b := by
  have hsplit := List.takeWhile_append_dropWhile (p := fun c => digitVal c < b) (l := s)
  have hdigits : ∀ c ∈ s.takeWhile (fun c => digitVal c < b), digitVal c < b := by
    intro c hc
    have hdigit := List.mem_takeWhile_imp hc
    exact of_decide_eq_true hdigit
  have hhead : ∀ c cs, (s.dropWhile fun c => digitVal c < b) = c :: cs → b ≤ digitVal c := by
    intro c cs hcs
    have hnot := List.head_dropWhile_not (fun c => decide (digitVal c < b)) (l := s)
      (by rw [hcs]; exact List.cons_ne_nil c cs)
    simp only [hcs, List.head_cons, decide_eq_false_iff_not] at hnot
    omega
  have hmono := digitsVal_mono hb.le (s.takeWhile fun c => digitVal c < b)
  generalize s.takeWhile (fun c => digitVal c < b) = run at *
  generalize s.dropWhile (fun c => digitVal c < b) = rest at *
  rw [← hsplit, digitsVal_append] at heq
  cases rest with
  | nil =>
    rw [List.append_nil] at hsplit
    subst hsplit
    obtain ⟨k, d, rfl⟩ := digits_agree hb hne (by simpa [digitsVal] using heq)
    exact ⟨k, d, rfl, hdigits d (by simp)⟩
  | cons c cs =>
    have hc := hhead c cs rfl
    have hrest := digitsVal_append 16 [c] cs
    have hone : digitsVal 16 [c] = digitVal c := digitsVal_zeros 16 0 c
    rw [List.singleton_append, hone] at hrest
    have hcs := Nat.le_mul_of_pos_right (digitVal c)
      (Nat.pow_pos (n := cs.length) (show 0 < 16 by decide))
    have hrun := Nat.le_mul_of_pos_right (digitsVal 16 run)
      (Nat.pow_pos (n := (c :: cs).length) (show 0 < 16 by decide))
    omega

/-- **A plain hexadecimal id** is read as such if it has one digit, one of the base too. -/
theorem plain_iff {s : List Char} (hne : s ≠ []) (hs : ∀ c ∈ s, digitVal c < 16)
    (hle : digitsVal 16 s ≤ 0xffff) :
    selectedId long s = digitsVal 16 s ↔
      ∃ k d, s = List.replicate k '0' ++ [d] ∧ digitVal d < if k = 0 then 10 else 8 := by
  obtain ⟨b, hbase, hread⟩ := selectedId_plain hs hle
  rw [hread]
  constructor
  · intro heq
    rcases hbase with ⟨rfl, ds, hds⟩ | ⟨rfl, hzero⟩
    · obtain ⟨k, d, hk, hd⟩ := run_agrees (by decide) (by decide) hne heq
      exact ⟨k, d, hk, by split_ifs <;> omega⟩
    · obtain ⟨k, d, hk, hd⟩ := run_agrees (by decide) (by decide) hne heq
      cases k with
      | zero => exact ⟨0, d, hk, hd⟩
      | succ k => exact absurd hk (hzero _)
  · rintro ⟨k, d, rfl, hd⟩
    have hall : ∀ c ∈ List.replicate k '0' ++ [d], digitVal c < b := by
      have hzero : digitVal '0' = 0 := by decide
      have hd' : digitVal d < b := by
        rcases hbase with ⟨rfl, ds, hds⟩ | ⟨rfl, hhead⟩
        · cases k with
          | zero =>
            rw [(List.cons.inj hds).1, hzero]
            decide
          | succ k => exact hd
        · cases k with
          | zero => exact hd
          | succ k => exact absurd rfl (hhead _)
      intro c hc
      rcases List.mem_append.mp hc with hc | hc
      · rw [List.eq_of_mem_replicate hc, hzero]
        omega
      · rw [List.mem_singleton.mp hc]
        exact hd'
    rw [List.takeWhile_eq_self_iff.mpr fun c hc => decide_eq_true (hall c hc), digitsVal_zeros,
      digitsVal_zeros]

theorem selectedId_marked {x : Char} {ds : List Char} (hx : x = 'x' ∨ x = 'X') (hne : ds ≠ [])
    (hds : ∀ c ∈ ds, digitVal c < 16) (hle : digitsVal 16 ds ≤ 0xffff) :
    selectedId long ('0' :: x :: ds) = digitsVal 16 ds := by
  obtain ⟨d, ds, rfl⟩ := List.exists_cons_of_ne_nil hne
  have hsplit : splitBase ('0' :: x :: d :: ds) = (16, d :: ds) :=
    if_pos ⟨hx, hds d List.mem_cons_self⟩
  have hrun : (d :: ds).takeWhile (fun c => digitVal c < 16) = d :: ds :=
    List.takeWhile_eq_self_iff.mpr fun c hc => decide_eq_true (hds c hc)
  have h36 : ∀ c ∈ '0' :: x :: d :: ds, digitVal c < 36 := by
    have hzero : digitVal '0' < 36 := by decide
    have hmark : digitVal x < 36 := by rcases hx with rfl | rfl <;> decide
    intro c hc
    rcases List.mem_cons.mp hc with rfl | hc
    · exact hzero
    · rcases List.mem_cons.mp hc with rfl | hc
      · exact hmark
      · exact (hds c hc).trans (by decide)
  rw [selectedId_digits h36 hsplit (by rwa [hrun]), hrun]

/-- **An id option selects what it names** if its argument is marked as hexadecimal and fits in
16 bits, or has one digit.
SOURCE: usbtrace_cli.c:15-51, filter.bpf.h:15-31, urb.c:44-61 -/
theorem id_option_iff (long : LongWidth) (o : IdOption) (s : List Char) :
    SelectsId long o s ↔ ReadAsHex s := by
  rw [selectsId_iff]
  constructor
  · rintro ⟨v, hv, hid, hread⟩
    cases hid with
    | plain hne hs => exact .inr ((plain_iff hne hs hv).mp hread)
    | @marked x ds hx hne hds => exact .inl ⟨x, ds, rfl, hx, hne, hds, hv⟩
  · rintro (⟨x, ds, rfl, hx, hne, hds, hle⟩ | ⟨k, d, rfl, hd⟩)
    · exact ⟨_, hle, .marked hx hne hds, selectedId_marked hx hne hds hle⟩
    · have hne : List.replicate k '0' ++ [d] ≠ [] := by simp
      have hsmall : digitVal d < 16 := by split_ifs at hd <;> omega
      have hs : ∀ c ∈ List.replicate k '0' ++ [d], digitVal c < 16 := by
        have hzero : digitVal '0' < 16 := by decide
        intro c hc
        rcases List.mem_append.mp hc with hc | hc
        · rwa [List.eq_of_mem_replicate hc]
        · rwa [List.mem_singleton.mp hc]
      have hle : digitsVal 16 (List.replicate k '0' ++ [d]) ≤ 0xffff := by
        rw [digitsVal_zeros]
        omega
      exact ⟨_, hle, .plain hne hs, (plain_iff hne hs hle).mpr ⟨k, d, rfl, hd⟩⟩

theorem hexId_value {s : List Char} {v : ℕ} (h : HexId s v) :
    v = digitsVal 16 s ∨ v = digitsVal 16 (s.drop 2) := by
  cases h with
  | plain => exact .inl rfl
  | marked => exact .inr rfl

/-- The filter is off, on another id, and on the low bits of a number. -/
theorem ids_misread :
    ¬SelectsId .long64 .vid "ffff".toList ∧ ¬SelectsId .long64 .vid "0403".toList ∧
      ¬SelectsId .long64 .vid "0x10403".toList := by
  simp only [selectsId_iff]
  refine ⟨?_, ?_, ?_⟩
  · rintro ⟨v, -, hid, hread⟩
    rcases hexId_value hid with rfl | rfl <;> exact absurd hread (by decide)
  · rintro ⟨v, -, hid, hread⟩
    rcases hexId_value hid with rfl | rfl <;> exact absurd hread (by decide)
  · rintro ⟨v, hv, hid, -⟩
    rcases hexId_value hid with rfl | rfl <;> exact absurd hv (by decide)

example : selectedId .long64 "ffff".toList = 0 ∧ selectedId .long64 "0403".toList = 0o403 := by
  decide

end UsbTrace.Analysis
