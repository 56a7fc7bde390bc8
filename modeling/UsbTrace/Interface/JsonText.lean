import UsbTrace.Model.Output
import UsbTrace.Library.JsonScan

/-!
# What is printed is JSON

One lemma for each function that prints a piece of a line: numbers are JSON numbers, labels
and escaped texts may stand between quotes, evidence records are JSON values.  None of them
prints a newline.
-/

set_option autoImplicit false

namespace UsbTrace.Interface

open UsbTrace.Model UsbTrace.Library UsbTrace.Library.Json

/-! ## No newline -/

theorem noBreak_digits {ds : List Char} (h : ∀ c ∈ ds, c.isDigit = true) : '\n' ∉ ds :=
  fun hmem => absurd (h _ hmem) (by decide)

/-! ## Numbers -/

theorem isDigit_toDigits (n : ℕ) : ∀ c ∈ Nat.toDigits 10 n, c.isDigit = true := fun _ h =>
  Nat.isDigit_of_mem_toDigits (by decide) (by decide) h

/-- Decimal digits are an integer part. -/
theorem isInt_toDigits (n : ℕ) : IsInt (Nat.toDigits 10 n) := by
  rcases Nat.eq_zero_or_pos n with rfl | hn
  · exact Or.inl (Nat.toDigits_zero 10)
  · obtain ⟨c, cs, hcs, hne⟩ := toDigits_head hn
    have hall := isDigit_toDigits n
    rw [hcs] at hall ⊢
    obtain ⟨hc, hrest⟩ := List.forall_mem_cons.mp hall
    exact Or.inr ⟨c, cs, hc, hne, hrest, rfl⟩

theorem decimal_value (v : ℤ) : Derives .value (decimal v) ∧ '\n' ∉ decimal v := by
  have hint := isInt_toDigits v.natAbs
  have hbreak := noBreak_digits (isDigit_toDigits v.natAbs)
  unfold decimal
  split
  · refine ⟨.number ⟨['-'], _, [], [], Or.inr rfl, hint, Or.inl rfl, Or.inl rfl, ?_⟩, ?_⟩
    · simp
    · exact List.not_mem_cons_of_ne_of_not_mem (by decide) hbreak
  · refine ⟨.number ⟨[], _, [], [], Or.inl rfl, hint, Or.inl rfl, Or.inl rfl, ?_⟩, hbreak⟩
    simp

theorem digits_padZero {width : ℕ} {ds : List Char} (h : Digits ds) :
    Digits (padZero width ds) := by
  obtain ⟨hne, hall⟩ := h
  refine ⟨fun hnil => hne (List.append_eq_nil_iff.mp hnil).2, fun c hc => ?_⟩
  rcases List.mem_append.mp hc with hc | hc
  · rw [List.eq_of_mem_replicate hc]
    rfl
  · exact hall c hc

theorem fixed_value (prec : ℕ) (q : ℚ) :
    Derives .value (fixed prec q) ∧ '\n' ∉ fixed prec q := by
  rw [fixed]
  generalize (roundEven (q * 10 ^ prec)).toNat = k
  have hint := isInt_toDigits (k / 10 ^ prec)
  have hfrac : Digits (padZero prec (Nat.toDigits 10 (k % 10 ^ prec))) :=
    digits_padZero ⟨Nat.toDigits_ne_nil, isDigit_toDigits _⟩
  refine ⟨.number ⟨[], _, _, [], Or.inl rfl, hint, Or.inr ⟨_, hfrac, rfl⟩, Or.inl rfl, ?_⟩, ?_⟩
  · simp
  · exact List.not_mem_append (noBreak_digits (isDigit_toDigits _))
      (List.not_mem_cons_of_ne_of_not_mem (by decide) (noBreak_digits hfrac.2))

/-! ## Hexadecimal digits -/

theorem isHex_digitChar {k : ℕ} (h : k < 16) : isHex k.digitChar = true := by
  revert k
  decide

theorem isHex_toDigits (n : ℕ) : ∀ c ∈ Nat.toDigits 16 n, isHex c = true := by
  induction n using Nat.strong_induction_on with
  | _ n ih =>
    by_cases hlt : n < 16
    · rw [Nat.toDigits_of_lt_base hlt]
      exact List.forall_mem_singleton.mpr (isHex_digitChar hlt)
    · rw [Nat.toDigits_of_base_le (by decide) (by omega), List.forall_mem_append]
      exact ⟨ih (n / 16) (by omega), List.forall_mem_singleton.mpr
        (isHex_digitChar (by omega))⟩

theorem isHex_hex4 (n : ℕ) : ∀ c ∈ hex4 n, isHex c = true := by
  intro c hc
  rcases List.mem_append.mp hc with hc | hc
  · rw [List.eq_of_mem_replicate hc]
    rfl
  · exact isHex_toDigits n c hc

/-- A hexadecimal digit stands for itself in a string. -/
theorem isPlain_of_isHex {c : Char} (h : isHex c = true) : isPlain c = true := by
  have hquote : c ≠ '"' := by
    rintro rfl
    exact absurd h (by decide)
  have hslash : c ≠ '\\' := by
    rintro rfl
    exact absurd h (by decide)
  have hcode : 0x20 ≤ c.toNat := by
    simp only [isHex, Char.isDigit, Bool.or_eq_true, Bool.and_eq_true, decide_eq_true_eq,
      Char.le_def, UInt32.le_iff_toNat_le] at h
    have hval : c.val.toNat = c.toNat := rfl
    have h0 : '0'.val.toNat = 48 := rfl
    have ha : 'a'.val.toNat = 97 := rfl
    have hA : 'A'.val.toNat = 65 := rfl
    omega
  simp [isPlain, hquote, hslash, hcode]

theorem hex4_body (n : ℕ) : StrBody (hex4 n) :=
  .ofPlain (List.all_eq_true.mpr fun c hc => isPlain_of_isHex (isHex_hex4 n c hc))

/-! ## Labels -/

theorem vb2OpLabel_body (op : UInt8) : StrBody (vb2OpLabel op) := by
  unfold vb2OpLabel
  split_ifs <;> exact .ofPlain (by decide)

theorem powerActionStr_body (a : UInt8) : StrBody (powerActionStr a) := by
  unfold powerActionStr
  split_ifs <;> exact .ofPlain (by decide)

theorem kindStr_body (k : EventKind) : StrBody (kindStr k) := by
  unfold kindStr
  repeat' refine iteInduction (fun _ => ?_) fun _ => ?_
  all_goals exact .ofPlain (by decide)

/-! ## Escapes -/

/-- The escape of a control character is that of its code. -/
theorem hex4_control {n : ℕ} (h : n < 0x20) : (hex4 n).length = 4 := by
  revert n
  decide

/-- The loop of the escape function adds whole escapes and plain characters only.
SOURCE: usbtrace_cli.c:81-112 -/
theorem jsonEscapeLoop_body (dstsz : ℕ) (src : CStr) {dst : CStr} (h : StrBody dst) :
    StrBody (jsonEscapeLoop dstsz src dst) := by
  induction src generalizing dst with
  | nil => exact h
  | cons c src ih =>
    have hpair {e : Char} (he : isEscape e = true) : StrBody (dst ++ ['\\', e]) :=
      h.append (.escape he .nil)
    rw [jsonEscapeLoop]
    refine iteInduction (fun _ => ?_) fun _ => h
    refine iteInduction (fun hc => ?_) fun hnot => ?_
    · exact ih (hpair (by rcases hc with rfl | rfl <;> decide))
    refine iteInduction (fun _ => ih (hpair (by decide))) fun _ => ?_
    refine iteInduction (fun _ => ih (hpair (by decide))) fun _ => ?_
    refine iteInduction (fun _ => ih (hpair (by decide))) fun _ => ?_
    refine iteInduction (fun hcontrol => ?_) fun hprint => ?_
    · refine iteInduction (fun _ => h) fun _ => ih (h.append ?_)
      have := StrBody.unicode (hex4_control hcontrol) (isHex_hex4 c.toNat) .nil
      rwa [List.append_nil] at this
    · rw [not_or] at hnot
      refine ih (h.append (.plain ?_ .nil))
      simp only [isPlain, Bool.and_eq_true, decide_eq_true_eq]
      exact ⟨⟨by omega, hnot.1⟩, hnot.2⟩

/-- **An escaped text may stand between quotes**, whatever it was and wherever it was cut. -/
theorem usbtraceJsonEscape_body (src : CStr) (dstsz : ℕ) :
    StrBody (usbtraceJsonEscape src dstsz) := jsonEscapeLoop_body dstsz src .nil

/-! ## Records -/

/-- Records with commas between them. -/
theorem commaSeparated_cons (v : CStr) (vs : List CStr) :
    commaSeparated (v :: vs) = v ++ (vs.map fun u => ',' :: u).flatten := by
  have hrest : ∀ (vs : List CStr) (i : ℕ), i ≠ 0 →
      (vs.zipIdx i).map (fun p => (if p.2 ≠ 0 then ",".toList else []) ++ p.1) =
        vs.map fun u => ',' :: u := by
    intro vs
    induction vs with
    | nil => intro i _; rfl
    | cons u vs ih =>
      intro i hi
      rw [List.zipIdx_cons, List.map_cons, List.map_cons, ih (i + 1) (by omega), if_pos hi]
      rfl
  rw [commaSeparated, List.zipIdx_cons, List.map_cons, hrest vs 1 (by decide)]
  rfl

/-- **A list of values is an array.** -/
theorem commaSeparated_array {vs : List CStr} (h : ∀ v ∈ vs, Derives .value v) :
    Derives .value ('[' :: (commaSeparated vs ++ [']'])) := by
  cases vs with
  | nil => exact .emptyArray isWs_nil
  | cons v vs =>
    rw [commaSeparated_cons]
    exact .array (derives_elements h)

/-- Commas bring no newline. -/
theorem break_commaSeparated (vs : List CStr) :
    '\n' ∈ commaSeparated vs ↔ ∃ v ∈ vs, '\n' ∈ v := by
  have hcomma : '\n' ≠ ',' := by decide
  cases vs with
  | nil => exact iff_of_false List.not_mem_nil (by simp)
  | cons v vs => simp [commaSeparated_cons, hcomma]

theorem derives_of_leaves {s : List Char} (h : Leaves .value s []) : Derives .value s := by
  obtain ⟨d, hd, rfl⟩ := h
  rwa [List.append_nil]

/-- A name made of plain characters. -/
theorem name_body (s : String) (h : s.toList.all isPlain = true) : StrBody s.toList :=
  .ofPlain h

/-- **An evidence record is a JSON object**, of whatever kind the event is.
SOURCE: engine.c:350-389 -/
theorem evidenceRecord_value (refNs : UInt64) (x : DiagEvent) :
    Derives .value (evidenceRecord refNs x) := by
  refine derives_of_leaves ?_
  rw [evidenceRecord]
  split
  · simp only [List.append_assoc]
    refine Leaves.object ?_
    refine Leaves.field (name_body "dt_ms" (by decide)) (fixed_value _ _).1 ?_
    refine Leaves.strField (name_body "kind" (by decide)) (name_body "uvc_frame" (by decide)) ?_
    refine Leaves.field (name_body "fps" (by decide)) (fixed_value _ _).1 ?_
    refine Leaves.field (name_body "interval_ms" (by decide)) (fixed_value _ _).1 ?_
    refine Leaves.field (name_body "bytes" (by decide)) (decimal_value _).1 ?_
    exact Leaves.lastField (name_body "errored" (by decide)) (decimal_value _).1 _
  split
  · simp only [List.append_assoc]
    refine Leaves.object ?_
    refine Leaves.field (name_body "dt_ms" (by decide)) (fixed_value _ _).1 ?_
    refine Leaves.strField (name_body "kind" (by decide)) (name_body "uvc_vb2" (by decide)) ?_
    refine Leaves.strField (name_body "op" (by decide)) (vb2OpLabel_body _) ?_
    refine Leaves.field (name_body "seq" (by decide)) (decimal_value _).1 ?_
    refine Leaves.field (name_body "seq_gap" (by decide)) (decimal_value _).1 ?_
    refine Leaves.field (name_body "starved" (by decide)) (decimal_value _).1 ?_
    refine Leaves.field (name_body "pool" (by decide)) (decimal_value _).1 ?_
    refine Leaves.field (name_body "queued" (by decide)) (decimal_value _).1 ?_
    refine Leaves.field (name_body "drv_owned" (by decide)) (decimal_value _).1 ?_
    refine Leaves.field (name_body "fps" (by decide)) (fixed_value _ _).1 ?_
    refine Leaves.field (name_body "interval_ms" (by decide)) (fixed_value _ _).1 ?_
    refine Leaves.field (name_body "bytes" (by decide)) (decimal_value _).1 ?_
    exact Leaves.lastField (name_body "wire_to_vb2_ms" (by decide)) (fixed_value _ _).1 _
  split
  · simp only [List.append_assoc]
    refine Leaves.object ?_
    refine Leaves.field (name_body "dt_ms" (by decide)) (fixed_value _ _).1 ?_
    refine Leaves.strField (name_body "kind" (by decide)) (name_body "power" (by decide)) ?_
    exact Leaves.lastStrField (name_body "action" (by decide)) (powerActionStr_body _) _
  · simp only [List.append_assoc]
    refine Leaves.object ?_
    refine Leaves.field (name_body "dt_ms" (by decide)) (fixed_value _ _).1 ?_
    refine Leaves.strField (name_body "kind" (by decide)) (kindStr_body _) ?_
    exact Leaves.lastField (name_body "status" (by decide)) (decimal_value _).1 _

theorem evidenceRecord_noBreak (refNs : UInt64) (x : DiagEvent) :
    '\n' ∉ evidenceRecord refNs x := by
  have hdecimal v := (decimal_value v).2
  have hfixed prec q := (fixed_value prec q).2
  have hop := strBody_noBreak (vb2OpLabel_body x.vb2Op)
  have haction := strBody_noBreak (powerActionStr_body x.action)
  have hkind := strBody_noBreak (kindStr_body x.kind)
  rw [evidenceRecord]
  split_ifs <;> simp only [List.mem_append, not_or] <;> and_intros
  all_goals with_reducible first | assumption | exact hdecimal _ | exact hfixed _ _ | decide

end UsbTrace.Interface
