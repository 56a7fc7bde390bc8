import UsbTrace.Library.CLong
import UsbTrace.Model.Rule

/-!
# Constraints against the fields they name

A constraint is decided on what `ev_field_val` makes of a field.  Where `long` has 64 bits
that is the field's own integer; where it has 32, an unsigned field from 2^31 on comes out
negative, and `match_one_iff` says which comparisons survive it.  A field of the setup
packet is -1 where there is no packet, which `!v` and `<=v` take for a value
(`setup_blocked_iff`).
-/

set_option autoImplicit false

namespace UsbTrace.Analysis

open UsbTrace.Model UsbTrace.Library

/-! ## The stored fields -/

/-- A field of the setup packet. -/
def isSetupField : DiagField → Bool
  | .brequest | .wvalue => true
  | _ => false

/-- The integer stored in a field of the event.  A field of the setup packet is stored only
with a setup packet (diag.h:72-73), and `F_NONE` names no field. -/
def storedField (e : DiagEvent) (f : DiagField) : Option ℤ :=
  if f = .none then none
  else if isSetupField f && e.hasSetup = 0 then none
  else some (evField e f)

/-- The comparison a constraint's operator stands for. -/
def Compares : DiagOp → ℤ → ℤ → Prop
  | .eq, a, b => a = b
  | .ne, a, b => a ≠ b
  | .gte, a, b => a ≥ b
  | .lte, a, b => a ≤ b

instance (op : DiagOp) (a b : ℤ) : Decidable (Compares op a b) :=
  match op with
  | .eq => inferInstanceAs (Decidable (a = b))
  | .ne => inferInstanceAs (Decidable (a ≠ b))
  | .gte => inferInstanceAs (Decidable (a ≥ b))
  | .lte => inferInstanceAs (Decidable (a ≤ b))

/-- `match_one` compares as its operator says. -/
theorem matchOne_compares (m : DiagMatch) (v : ℤ) :
    matchOne m v = true ↔ Compares m.op v m.value := by
  unfold matchOne
  cases m.op with
  | eq | ne | gte | lte => exact decide_eq_true_iff

/-- What is stored is what is read before the conversion to `long`. -/
theorem storedField_eq {e : DiagEvent} {f : DiagField} {x : ℤ} (h : storedField e f = some x) :
    evField e f = x := by
  unfold storedField at h
  split_ifs at h
  exact Option.some.inj h

/-- **The conversion to `long`**: with 32 bits, an integer from 2^31 on loses 2^32. -/
theorem evFieldValOn_eq (w : LongWidth) (e : DiagEvent) (f : DiagField) :
    evFieldValOn w.bits e f =
      if w = .long32 ∧ 2 ^ 31 ≤ evField e f then evField e f - 2 ^ 32 else evField e f := by
  obtain ⟨hlo, hhi⟩ := evField_range e f
  cases w with
  | long64 =>
    rw [if_neg (by simp)]
    exact evFieldVal_eq e f
  | long32 =>
    show (evField e f).bmod (2 ^ 32) = _
    by_cases hbig : 2 ^ 31 ≤ evField e f
    · rw [if_pos ⟨rfl, hbig⟩]
      have hmod : (evField e f - 2 ^ 32).bmod (2 ^ 32) = evField e f - 2 ^ 32 :=
        Int.bmod_eq_of_le (by norm_num; omega) (by norm_num; omega)
      rw [← hmod]
      exact (Int.sub_bmod_right ..).symm
    · rw [if_neg fun h => hbig h.2]
      exact Int.bmod_eq_of_le (by norm_num; omega) (by norm_num; omega)

/-- The comparison of an unsigned integer comes out right although a 32-bit `long` makes
`x - 2^32` of it. -/
def SurvivesWrap (m : DiagMatch) (x : ℤ) : Prop :=
  match m.op with
  | .eq | .ne => m.value ≠ x - 2 ^ 32
  | .gte => m.value ≤ x - 2 ^ 32
  | .lte => m.value < x - 2 ^ 32

/-- **A constraint decides the comparison with the stored integer** exactly when `long` has
64 bits, the integer is below 2^31, or the comparison survives the wrap.
SOURCE: engine.c:118-165 -/
theorem match_one_iff (w : LongWidth) (m : DiagMatch) (e : DiagEvent) (x : ℤ)
    (hvalue : w.Holds m.value) (hx : storedField e m.field = some x) :
    (matchOne m (evFieldValOn w.bits e m.field) = true ↔ Compares m.op x m.value) ↔
      w = .long64 ∨ x < 2 ^ 31 ∨ SurvivesWrap m x := by
  have hread := storedField_eq hx
  obtain ⟨-, hhi⟩ := evField_range e m.field
  rw [hread] at hhi
  rw [matchOne_compares, evFieldValOn_eq, hread]
  by_cases hwrap : w = .long32 ∧ 2 ^ 31 ≤ x
  · -- the integer and what is read of it lie on either side of every `long`
    rw [if_pos hwrap]
    obtain ⟨rfl, hbig⟩ := hwrap
    have hbelow : m.value < 2 ^ 31 := hvalue.2
    have hright : (LongWidth.long32 = .long64 ∨ x < 2 ^ 31 ∨ SurvivesWrap m x) ↔
        SurvivesWrap m x := by
      constructor
      · intro h
        rcases h with h | h | h
        · cases h
        · omega
        · exact h
      · intro h
        exact Or.inr (Or.inr h)
    rw [hright]
    unfold SurvivesWrap Compares
    cases m.op with
    | eq | ne | gte | lte =>
      dsimp only
      omega
  · rw [if_neg hwrap]
    refine iff_of_true Iff.rfl ?_
    cases w with
    | long64 => exact Or.inl rfl
    | long32 => exact Or.inr (Or.inl (not_le.mp fun h => hwrap ⟨rfl, h⟩))

theorem match_one_sample :
    (matchOne ⟨.frameInterval, 66000000, .gte⟩
        (evFieldValOn LongWidth.long32.bits { frameIntervalNs := 70000000 } .frameInterval) = true ↔
      Compares .gte 70000000 66000000) ↔
      LongWidth.long32 = .long64 ∨ (70000000 : ℤ) < 2 ^ 31 ∨
        SurvivesWrap ⟨.frameInterval, 66000000, .gte⟩ 70000000 :=
  match_one_iff .long32 ⟨.frameInterval, 66000000, .gte⟩ { frameIntervalNs := 70000000 } 70000000
    (by decide) (by decide)

/-- **A frame gap of 2.2 s is not long enough** for `frame_interval_ns: ">=66000000"` where
`long` has 32 bits. -/
theorem match_one_wraps :
    ¬∀ (w : LongWidth) (m : DiagMatch) (e : DiagEvent) (x : ℤ), w.Holds m.value →
      storedField e m.field = some x →
      (matchOne m (evFieldValOn w.bits e m.field) = true ↔ Compares m.op x m.value) := by
  intro h
  have hgap := h .long32 ⟨.frameInterval, 66000000, .gte⟩ { frameIntervalNs := 2200000000 }
    2200000000 (by decide) (by decide)
  have hmath : Compares .gte 2200000000 66000000 := by
    show (2200000000 : ℤ) ≥ 66000000
    norm_num
  exact absurd (hgap.mpr hmath) (by decide)

/-! ## Setup constraints -/

/-- Without a setup packet its fields are read as -1. -/
theorem evFieldVal_noSetup {e : DiagEvent} (h : e.hasSetup = 0) {f : DiagField}
    (hf : isSetupField f = true) : evFieldVal e f = -1 := by
  rw [evFieldVal_eq]
  cases f with
  | brequest | wvalue => exact if_neg (not_not.mpr h)
  | _ => cases hf

/-- A setup constraint on a 16-bit value, without a setup packet: only equality and `>=` fail. -/
theorem matchOne_noSetup {e : DiagEvent} (h : e.hasSetup = 0) {m : DiagMatch}
    (hf : isSetupField m.field = true) (hv : 0 ≤ m.value) :
    matchOne m (evFieldVal e m.field) = false ↔ m.op = .eq ∨ m.op = .gte := by
  rw [evFieldVal_noSetup h hf, ← Bool.not_eq_true, matchOne_compares]
  unfold Compares
  cases m.op with
  | eq | ne | gte | lte =>
    dsimp only
    simp
    try omega

/-- What keeps a condition from matching an event without a setup packet, besides its kind
and its statuses: a setup constraint with `=` or `>=`, or one on another field that fails. -/
def FieldsBlocked (c : DiagCond) (e : DiagEvent) : Prop :=
  (∃ m ∈ c.matchList, isSetupField m.field = true ∧ (m.op = .eq ∨ m.op = .gte)) ∨
    ∃ m ∈ c.matchList, isSetupField m.field = false ∧ matchOne m (evFieldVal e m.field) = false

/-- The setup constraints of a condition have values of at most 16 bits. -/
def SetupValues (c : DiagCond) : Prop :=
  ∀ m ∈ c.matchList, isSetupField m.field = true → 0 ≤ m.value ∧ m.value ≤ 65535

theorem matchFields_noSetup {c : DiagCond} {e : DiagEvent} (h : e.hasSetup = 0)
    (hvals : SetupValues c) : matchFields c e = false ↔ FieldsBlocked c e := by
  unfold matchFields FieldsBlocked
  rw [List.all_eq_false]
  constructor
  · rintro ⟨m, hm, hfail⟩
    rw [Bool.not_eq_true] at hfail
    cases hf : isSetupField m.field with
    | true => exact Or.inl ⟨m, hm, hf, (matchOne_noSetup h hf (hvals m hm hf).1).mp hfail⟩
    | false => exact Or.inr ⟨m, hm, hf, hfail⟩
  · rintro (⟨m, hm, hf, hop⟩ | ⟨m, hm, -, hfail⟩)
    · refine ⟨m, hm, ?_⟩
      rw [(matchOne_noSetup h hf (hvals m hm hf).1).mpr hop]
      exact Bool.false_ne_true
    · refine ⟨m, hm, ?_⟩
      rw [hfail]
      exact Bool.false_ne_true

/-- **A condition passes over an event without a setup packet** exactly when one of its setup
constraints compares with `=` or `>=`, or a constraint on another field, the kind or the
status fails; a setup constraint with `!` or `<=` never keeps it from matching.
SOURCE: engine.c:118-211 -/
theorem setup_blocked_iff (c : DiagCond) (e : DiagEvent) (hnone : e.hasSetup = 0)
    (hvals : SetupValues c) :
    (condEventPred c e = false ↔
        kindOk c e = false ∨ statusOk c e = false ∨ FieldsBlocked c e) ∧
      (triggerMatch c e = false ↔ kindOk c e = false ∨ FieldsBlocked c e) := by
  have hfields := matchFields_noSetup hnone hvals
  constructor
  · unfold condEventPred
    rw [← hfields]
    cases kindOk c e <;> cases matchFields c e <;> cases statusOk c e <;> decide
  · unfold triggerMatch
    rw [← hfields]
    cases kindOk c e <;> cases matchFields c e <;> decide

/-- A condition on GET_DESCRIPTOR requests, and an interrupt transfer. -/
theorem setup_blocked_sample :
    let c : DiagCond := { kind := some evtUrb, matchList := [⟨.brequest, 6, .eq⟩] }
    let e : DiagEvent := { kind := evtUrb, xferType := 1 }
    (condEventPred c e = false ↔
        kindOk c e = false ∨ statusOk c e = false ∨ FieldsBlocked c e) ∧
      (triggerMatch c e = false ↔ kindOk c e = false ∨ FieldsBlocked c e) := by
  intro c e
  refine setup_blocked_iff c e rfl ?_
  intro m hm _
  rw [List.mem_singleton.mp hm]
  decide

/-- **`wvalue: "<=256"` matches an event that has no setup packet**, and so does
`brequest: "!6"`. -/
theorem absent_setup_matches :
    ¬∀ (c : DiagCond) (e : DiagEvent), e.hasSetup = 0 →
      (∃ m ∈ c.matchList, isSetupField m.field = true) → SetupValues c →
      condEventPred c e = false ∧ triggerMatch c e = false := by
  intro h
  have hmatch := h { kind := some evtUrb, matchList := [⟨.wvalue, 256, .lte⟩] } { kind := evtUrb }
    rfl ⟨_, List.mem_singleton_self _, rfl⟩ (by
      intro m hm _
      rw [List.mem_singleton.mp hm]
      decide)
  exact absurd hmatch.1 (by decide)

end UsbTrace.Analysis
