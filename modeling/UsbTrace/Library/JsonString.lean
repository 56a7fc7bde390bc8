import Mathlib.Data.List.Nodup

/-!
# JSON strings as bytes

What the bytes between the quotes of a JSON string stand for (RFC 8259, section 7): an
escape for a character is its UTF-8 encoding, two escapes may be a surrogate pair, and a byte
outside ASCII stands for itself.  A body stands for one byte string at most
(`StringBody.unique`), it is printable (`StringBody.printable`), and no quote in it is
outside an escape (`StringBody.no_quote`).
-/

set_option autoImplicit false

namespace UsbTrace.Library

/-! ## Bytes -/

def quoteByte : UInt8 := 0x22
def backslashByte : UInt8 := 0x5c

/-- `u`, after a backslash. -/
def unicodeByte : UInt8 := 0x75

/-- The bytes that may follow a backslash, `u` aside, with what they stand for. -/
def shortEscapes : List (UInt8 × UInt8) :=
  [(0x22, 0x22), (0x5c, 0x5c), (0x2f, 0x2f), (0x62, 0x08), (0x66, 0x0c), (0x6e, 0x0a),
    (0x72, 0x0d), (0x74, 0x09)]

/-- The value of a hexadecimal digit. -/
def hexDigitValue (b : UInt8) : Option ℕ :=
  if 0x30 ≤ b ∧ b ≤ 0x39 then some (b.toNat - 0x30)
  else if 0x61 ≤ b ∧ b ≤ 0x66 then some (b.toNat - 0x61 + 10)
  else if 0x41 ≤ b ∧ b ≤ 0x46 then some (b.toNat - 0x41 + 10)
  else none

/-- The value of hexadecimal digits. -/
def hexValue (ds : List UInt8) : Option ℕ :=
  ds.foldl (fun acc d => acc.bind fun n => (hexDigitValue d).map fun v => 16 * n + v) (some 0)

/-- Four digits for a code unit. -/
structure CodeUnit (ds : List UInt8) (n : ℕ) : Prop where
  length : ds.length = 4
  value : hexValue ds = some n

/-! ## Bodies -/

/-- The bytes of a string body, and those they stand for. -/
inductive StringBody : List UInt8 → List UInt8 → Prop
  | nil : StringBody [] []
  | plain {b : UInt8} {body text : List UInt8} :
      b ≠ quoteByte → b ≠ backslashByte → 0x20 ≤ b → StringBody body text →
      StringBody (b :: body) (b :: text)
  | escape {e v : UInt8} {body text : List UInt8} :
      (e, v) ∈ shortEscapes → StringBody body text →
      StringBody (backslashByte :: e :: body) (v :: text)
  | unicode {ds body text : List UInt8} {c : Char} :
      CodeUnit ds c.toNat → StringBody body text →
      StringBody (backslashByte :: unicodeByte :: (ds ++ body))
        (String.utf8EncodeChar c ++ text)
  | surrogates {hi lo body text : List UInt8} {h l : ℕ} {c : Char} :
      CodeUnit hi h → CodeUnit lo l → 0xd800 ≤ h → h < 0xdc00 → 0xdc00 ≤ l → l < 0xe000 →
      c.toNat = 0x10000 + (h - 0xd800) * 0x400 + (l - 0xdc00) → StringBody body text →
      StringBody
        (backslashByte :: unicodeByte ::
          (hi ++ backslashByte :: unicodeByte :: (lo ++ body)))
        (String.utf8EncodeChar c ++ text)

/-- Digits have one value. -/
theorem CodeUnit.unique {ds ds' rest rest' : List UInt8} {n n' : ℕ} (h : CodeUnit ds n)
    (h' : CodeUnit ds' n') (heq : ds ++ rest = ds' ++ rest') : n = n' ∧ rest = rest' := by
  obtain ⟨hds, hrest⟩ := List.append_inj heq (h.length.trans h'.length.symm)
  have hval := h.value.symm.trans (hds ▸ h'.value)
  exact ⟨Option.some.inj hval, hrest⟩

theorem Char.toNat_not_surrogate (c : Char) : c.toNat < 0xd800 ∨ 0xe000 ≤ c.toNat := by
  have h := c.valid
  change (c.toNat < 0xd800 ∨ 0xdfff < c.toNat ∧ c.toNat < 0x110000) at h
  omega

theorem shortEscapes_unique {e v v' : UInt8} (h : (e, v) ∈ shortEscapes)
    (h' : (e, v') ∈ shortEscapes) : v = v' := by
  have hkeys : (shortEscapes.map Prod.fst).Nodup := by decide
  exact congrArg Prod.snd (List.inj_on_of_nodup_map hkeys h h' rfl)

theorem unicodeByte_not_short (v : UInt8) : (unicodeByte, v) ∉ shortEscapes := by
  intro h
  have hkeys : unicodeByte ∉ shortEscapes.map Prod.fst := by decide
  exact hkeys (List.mem_map_of_mem h)

/-- What a body does with a byte that is no backslash. -/
theorem StringBody.of_plain {b : UInt8} {s t : List UInt8} (h : StringBody (b :: s) t)
    (hb : b ≠ backslashByte) : b ≠ quoteByte ∧ ∃ t', StringBody s t' ∧ t = b :: t' := by
  cases h with
  | plain hquote _ _ h => exact ⟨hquote, _, h, rfl⟩
  | escape => exact absurd rfl hb
  | unicode => exact absurd rfl hb
  | surrogates => exact absurd rfl hb

/-- What a body does with a backslash and a byte other than `u`. -/
theorem StringBody.of_escape {e v : UInt8} {s t : List UInt8}
    (h : StringBody (backslashByte :: e :: s) t) (he : (e, v) ∈ shortEscapes) :
    ∃ t', StringBody s t' ∧ t = v :: t' := by
  cases h with
  | plain _ hslash => exact absurd rfl hslash
  | escape he' h => exact ⟨_, h, by rw [shortEscapes_unique he' he]⟩
  | unicode => exact absurd he (unicodeByte_not_short v)
  | surrogates => exact absurd he (unicodeByte_not_short v)

/-- What a body does with a code unit: it is a character's, or the first of a pair. -/
theorem StringBody.of_unicode {ds s t : List UInt8} {n : ℕ}
    (h : StringBody (backslashByte :: unicodeByte :: (ds ++ s)) t) (hunit : CodeUnit ds n) :
    (∃ c : Char, n = c.toNat ∧ ∃ t', StringBody s t' ∧ t = String.utf8EncodeChar c ++ t') ∨
    (0xd800 ≤ n ∧ n < 0xdc00 ∧ ∃ (lo s' : List UInt8) (l : ℕ) (c : Char),
      s = backslashByte :: unicodeByte :: (lo ++ s') ∧ CodeUnit lo l ∧
      c.toNat = 0x10000 + (n - 0xd800) * 0x400 + (l - 0xdc00) ∧
      ∃ t', StringBody s' t' ∧ t = String.utf8EncodeChar c ++ t') := by
  generalize heq : backslashByte :: unicodeByte :: (ds ++ s) = body at h
  cases h with
  | nil => cases heq
  | plain _ hslash => exact absurd (List.cons.inj heq).1.symm hslash
  | escape he =>
    rw [← (List.cons.inj (List.cons.inj heq).2).1] at he
    exact absurd he (unicodeByte_not_short _)
  | unicode hunit' h =>
    obtain ⟨rfl, rfl⟩ := hunit.unique hunit' (List.cons.inj (List.cons.inj heq).2).2
    exact .inl ⟨_, rfl, _, h, rfl⟩
  | surrogates hunit' hunit₂ hlo hhi _ _ hc h =>
    obtain ⟨rfl, rfl⟩ := hunit.unique hunit' (List.cons.inj (List.cons.inj heq).2).2
    exact .inr ⟨hlo, hhi, _, _, _, _, rfl, hunit₂, hc, _, h, rfl⟩

/-- A body is read from the front: one that starts with another stands for the text of that
one first. -/
theorem StringBody.cancel {body text rest t : List UInt8} (h : StringBody body text)
    (h' : StringBody (body ++ rest) t) : ∃ t', StringBody rest t' ∧ t = text ++ t' := by
  induction h generalizing rest t with
  | nil => exact ⟨t, h', rfl⟩
  | plain _ hslash _ _ ih =>
    obtain ⟨-, t₁, h₁, rfl⟩ := h'.of_plain hslash
    obtain ⟨t', hrest, rfl⟩ := ih h₁
    exact ⟨t', hrest, rfl⟩
  | escape he _ ih =>
    obtain ⟨t₁, h₁, rfl⟩ := h'.of_escape he
    obtain ⟨t', hrest, rfl⟩ := ih h₁
    exact ⟨t', hrest, rfl⟩
  | @unicode ds body text c hunit _ ih =>
    rw [List.cons_append, List.cons_append, List.append_assoc] at h'
    rcases h'.of_unicode hunit with ⟨c', hcode, t₁, h₁, rfl⟩ | ⟨hlo, hhi, -⟩
    · obtain ⟨t', hrest, rfl⟩ := ih h₁
      rw [Char.ext (UInt32.toNat_inj.mp hcode)]
      exact ⟨t', hrest, (List.append_assoc _ _ _).symm⟩
    · have := Char.toNat_not_surrogate c
      omega
  | @surrogates hi lo body text h l c hunit hunit₂ hlo hhi _ _ hc _ ih =>
    simp only [List.cons_append, List.append_assoc] at h'
    rcases h'.of_unicode hunit with
      ⟨c', rfl, -⟩ | ⟨-, -, lo', body', l', c', heq, hunit', hc', t₁, h₁, rfl⟩
    · have := Char.toNat_not_surrogate c'
      omega
    · obtain ⟨rfl, rfl⟩ := hunit₂.unique hunit' (List.cons.inj (List.cons.inj heq).2).2
      obtain ⟨t', hrest, rfl⟩ := ih h₁
      rw [Char.ext (UInt32.toNat_inj.mp (hc.trans hc'.symm))]
      exact ⟨t', hrest, (List.append_assoc _ _ _).symm⟩

/-- **A body stands for one text.** -/
theorem StringBody.unique {body t t' : List UInt8} (h : StringBody body t)
    (h' : StringBody body t') : t = t' := by
  rw [← List.append_nil body] at h'
  obtain ⟨s, hs, rfl⟩ := h.cancel h'
  cases hs
  exact (List.append_nil t).symm

/-- **A quote ends a string**: no part of a body before a quote is a body. -/
theorem StringBody.no_quote {pre post t : List UInt8}
    (h : StringBody (pre ++ quoteByte :: post) t) (t' : List UInt8) : ¬ StringBody pre t' := by
  intro hpre
  obtain ⟨s, hs, -⟩ := hpre.cancel h
  exact (hs.of_plain (by decide)).1 rfl

/-- A hexadecimal digit is printable. -/
theorem printable_of_hexDigitValue {d : UInt8} {v : ℕ} (h : hexDigitValue d = some v) :
    0x20 ≤ d := by
  unfold hexDigitValue at h
  simp only [UInt8.le_iff_toNat_le] at h ⊢
  split_ifs at h with h₁ h₂ h₃
  · exact Nat.le_trans (by decide) h₁.1
  · exact Nat.le_trans (by decide) h₂.1
  · exact Nat.le_trans (by decide) h₃.1

/-- Digits with a value are digits. -/
theorem digits_of_hexValue {ds : List UInt8} {acc : Option ℕ} {n : ℕ}
    (h : ds.foldl (fun acc d => acc.bind fun n => (hexDigitValue d).map fun v => 16 * n + v) acc =
      some n) : acc.isSome = true ∧ ∀ d ∈ ds, ∃ v, hexDigitValue d = some v := by
  induction ds generalizing acc with
  | nil => exact ⟨by rw [show acc = some n from h]; rfl, List.forall_mem_nil _⟩
  | cons d ds ih =>
    obtain ⟨hsome, hds⟩ := ih h
    cases acc with
    | none => cases hsome
    | some m =>
      refine ⟨rfl, List.forall_mem_cons.mpr ⟨?_, hds⟩⟩
      have hdigit : ((hexDigitValue d).map fun v => 16 * m + v).isSome = true := hsome
      rw [Option.isSome_map] at hdigit
      exact Option.isSome_iff_exists.mp hdigit

theorem CodeUnit.printable {ds : List UInt8} {n : ℕ} (h : CodeUnit ds n) : ∀ d ∈ ds, 0x20 ≤ d := by
  intro d hd
  obtain ⟨v, hv⟩ := (digits_of_hexValue h.value).2 d hd
  exact printable_of_hexDigitValue hv

/-- **A body is printable.** -/
theorem StringBody.printable {body text : List UInt8} (h : StringBody body text) :
    ∀ b ∈ body, 0x20 ≤ b := by
  induction h with
  | nil => exact List.forall_mem_nil _
  | plain _ _ hcode _ ih => exact List.forall_mem_cons.mpr ⟨hcode, ih⟩
  | @escape e v body text he _ ih =>
    have hkeys : (shortEscapes.map Prod.fst).all (fun b => decide (0x20 ≤ b)) = true := by decide
    have hcode := of_decide_eq_true (List.all_eq_true.mp hkeys e (List.mem_map_of_mem he))
    exact List.forall_mem_cons.mpr ⟨by decide, List.forall_mem_cons.mpr ⟨hcode, ih⟩⟩
  | unicode hunit _ ih =>
    exact List.forall_mem_cons.mpr ⟨by decide, List.forall_mem_cons.mpr
      ⟨by decide, List.forall_mem_append.mpr ⟨hunit.printable, ih⟩⟩⟩
  | surrogates hunit hunit₂ _ _ _ _ _ _ ih =>
    simp only [List.forall_mem_cons, List.forall_mem_append]
    exact ⟨by decide, by decide, hunit.printable, by decide, by decide, hunit₂.printable, ih⟩

theorem StringBody.append {body text body' text' : List UInt8} (h : StringBody body text)
    (h' : StringBody body' text') : StringBody (body ++ body') (text ++ text') := by
  induction h with
  | nil => exact h'
  | plain hquote hslash hcode _ ih => exact .plain hquote hslash hcode ih
  | escape he _ ih => exact .escape he ih
  | unicode hunit _ ih =>
    rw [List.cons_append, List.cons_append, List.append_assoc, List.append_assoc]
    exact .unicode hunit ih
  | surrogates hunit hunit₂ hlo hhi hlo₂ hhi₂ hc _ ih =>
    simp only [List.cons_append, List.append_assoc]
    exact .surrogates hunit hunit₂ hlo hhi hlo₂ hhi₂ hc ih

end UsbTrace.Library
