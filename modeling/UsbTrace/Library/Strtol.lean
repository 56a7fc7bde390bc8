import Mathlib.Data.List.Induction
import Mathlib.Data.List.TakeWhile
import Mathlib.Tactic.NormNum
import Mathlib.Tactic.Ring

/-!
# `strtol` with base 0

C's conversion of a string to a `long`, with the base taken from the literal's prefix:
leading white space and a sign are skipped, `0x` selects base 16 and a leading `0` base 8,
the longest run of digits is read, and a value outside the range of a `long` of `bits` bits
saturates with `ERANGE`.  Where no digit is read the end pointer stays at the start.

`IntegerLiteral` is the grammar of these literals, with their values.  `strtol_literal` and
`literal_of_strtol`: `strtol` reads to the end of a string exactly when that is a literal, and
its value is the literal's, saturated.  `strtol_decimal` is the case of a decimal literal in
range.

`strtoul` reads the same literals as an `unsigned long`.  `strtoul_digits`: it reads the run of
digits that a string of digits of any base starts with, in the base its prefix selects.
`digits_agree`: two bases read different numbers from digits unless all but the last are 0.
-/

set_option autoImplicit false

namespace UsbTrace.Library

/-- `isspace` in the C locale. -/
def isSpace (c : Char) : Bool :=
  c = ' ' || c = '\t' || c = '\n' || c = '\x0b' || c = '\x0c' || c = '\r'

/-- The value of a digit in any base up to 36; 36 for a character that is none. -/
def digitVal (c : Char) : ℕ :=
  if c.isDigit then c.toNat - '0'.toNat
  else if 'a' ≤ c ∧ c ≤ 'z' then c.toNat - 'a'.toNat + 10
  else if 'A' ≤ c ∧ c ≤ 'Z' then c.toNat - 'A'.toNat + 10
  else 36

/-- What `strtol` gives back: the value, the string at the end pointer, and whether it set
`errno` to `ERANGE`. -/
structure StrtolResult where
  value : ℤ
  rest : List Char
  erange : Bool
deriving DecidableEq, Repr

/-- The sign of a literal, and what follows it. -/
def splitSign : List Char → Bool × List Char
  | '-' :: u => (true, u)
  | '+' :: u => (false, u)
  | u => (false, u)

/-- The base a literal's prefix selects, and where its digits start. -/
def splitBase : List Char → ℕ × List Char
  | '0' :: x :: d :: u =>
    if (x = 'x' ∨ x = 'X') ∧ digitVal d < 16 then (16, d :: u) else (8, '0' :: x :: d :: u)
  | '0' :: u => (8, '0' :: u)
  | u => (10, u)

/-- The number a run of digits stands for. -/
def digitsVal (base : ℕ) (ds : List Char) : ℕ := ds.foldl (fun a c => base * a + digitVal c) 0

/-- `strtol(s, &end, 0)` where `long` has `bits` bits. -/
def strtol (bits : ℕ) (s : List Char) : StrtolResult :=
  let (neg, u) := splitSign (s.dropWhile isSpace)
  let (base, ds) := splitBase u
  let run := ds.takeWhile fun c => digitVal c < base
  if run = [] then { value := 0, rest := s, erange := false }
  else
    let v : ℤ := if neg then -(digitsVal base run : ℤ) else digitsVal base run
    let rest := ds.dropWhile fun c => digitVal c < base
    if v > 2 ^ (bits - 1) - 1 then { value := 2 ^ (bits - 1) - 1, rest := rest, erange := true }
    else if v < -2 ^ (bits - 1) then { value := -2 ^ (bits - 1), rest := rest, erange := true }
    else { value := v, rest := rest, erange := false }

/-- `strtoul(s, NULL, 0)` where `unsigned long` has `bits` bits: a value out of range saturates,
and a minus sign negates in unsigned arithmetic. -/
def strtoul (bits : ℕ) (s : List Char) : ℕ :=
  let (neg, u) := splitSign (s.dropWhile isSpace)
  let (base, ds) := splitBase u
  let n := digitsVal base (ds.takeWhile fun c => digitVal c < base)
  if n ≥ 2 ^ bits then 2 ^ bits - 1 else if neg then (2 ^ bits - n) % 2 ^ bits else n

/-- The decimal literal of an integer. -/
def decimal (v : ℤ) : List Char :=
  if v < 0 then '-' :: Nat.toDigits 10 v.natAbs else Nat.toDigits 10 v.natAbs

/-! ## Literals -/

/-- The digits of an unsigned literal, after its prefix, with the number they stand for. -/
inductive Magnitude : List Char → ℕ → Prop
  | hex {x d : Char} {ds : List Char} :
      x = 'x' ∨ x = 'X' → (∀ c ∈ d :: ds, digitVal c < 16) →
      Magnitude ('0' :: x :: d :: ds) (digitsVal 16 (d :: ds))
  | octal {ds : List Char} :
      (∀ c ∈ ds, digitVal c < 8) → Magnitude ('0' :: ds) (digitsVal 8 ds)
  | decimal {d : Char} {ds : List Char} :
      d ≠ '0' → (∀ c ∈ d :: ds, digitVal c < 10) →
      Magnitude (d :: ds) (digitsVal 10 (d :: ds))

/-- The integer literals of base 0, with the white space that may stand before them. -/
inductive IntegerLiteral : List Char → ℤ → Prop
  | unsigned {ws ds : List Char} {n : ℕ} :
      (∀ c ∈ ws, isSpace c = true) → Magnitude ds n → IntegerLiteral (ws ++ ds) n
  | plus {ws ds : List Char} {n : ℕ} :
      (∀ c ∈ ws, isSpace c = true) → Magnitude ds n → IntegerLiteral (ws ++ '+' :: ds) n
  | minus {ws ds : List Char} {n : ℕ} :
      (∀ c ∈ ws, isSpace c = true) → Magnitude ds n → IntegerLiteral (ws ++ '-' :: ds) (-n)

/-- A magnitude starts with a digit. -/
theorem Magnitude.head {ds : List Char} {n : ℕ} (h : Magnitude ds n) :
    ∃ c cs, ds = c :: cs ∧ digitVal c < 10 := by
  cases h with
  | hex => exact ⟨_, _, rfl, by decide⟩
  | octal => exact ⟨_, _, rfl, by decide⟩
  | decimal _ hds => exact ⟨_, _, rfl, hds _ List.mem_cons_self⟩

theorem splitBase_octal {ds : List Char} (h : ∀ c ∈ ds, digitVal c < 8) :
    splitBase ('0' :: ds) = (8, '0' :: ds) := by
  unfold splitBase
  split
  · next x d u heq =>
    obtain ⟨-, rfl⟩ := List.cons.inj heq
    rw [if_neg]
    rintro ⟨rfl | rfl, -⟩
    · exact absurd (h 'x' List.mem_cons_self) (by decide)
    · exact absurd (h 'X' List.mem_cons_self) (by decide)
  · next heq => rw [(List.cons.inj heq).2]
  · next h' => exact absurd rfl (h' ds)

theorem splitBase_decimal {d : Char} (h : d ≠ '0') (ds : List Char) :
    splitBase (d :: ds) = (10, d :: ds) := by
  unfold splitBase
  split
  · next heq => exact absurd (List.cons.inj heq).1 h
  · next heq => exact absurd (List.cons.inj heq).1 h
  · rfl

/-- What a literal's prefix selects. -/
theorem splitBase_cases (u : List Char) :
    (∃ x d ds, u = '0' :: x :: d :: ds ∧ (x = 'x' ∨ x = 'X') ∧ splitBase u = (16, d :: ds)) ∨
    (∃ ds, u = '0' :: ds ∧ splitBase u = (8, '0' :: ds)) ∨
    ((∀ ds, u ≠ '0' :: ds) ∧ splitBase u = (10, u)) := by
  unfold splitBase
  split
  · next x d ds =>
    split_ifs with hhex
    · exact .inl ⟨x, d, ds, rfl, hhex.1, rfl⟩
    · exact .inr (.inl ⟨_, rfl, rfl⟩)
  · exact .inr (.inl ⟨_, rfl, rfl⟩)
  · next h => exact .inr (.inr ⟨h, rfl⟩)

/-- The base and the digits of a magnitude are those that its prefix selects. -/
theorem magnitude_iff {u : List Char} {n : ℕ} :
    Magnitude u n ↔ (splitBase u).2 ≠ [] ∧ (∀ c ∈ (splitBase u).2, digitVal c < (splitBase u).1) ∧
      digitsVal (splitBase u).1 (splitBase u).2 = n := by
  constructor
  · intro h
    cases h with
    | @hex x d ds hx hds =>
      have hsplit : splitBase ('0' :: x :: d :: ds) = (16, d :: ds) :=
        if_pos ⟨hx, hds d List.mem_cons_self⟩
      rw [hsplit]
      exact ⟨List.cons_ne_nil _ _, hds, rfl⟩
    | octal hds =>
      have hzero : digitVal '0' < 8 := by decide
      rw [splitBase_octal hds]
      exact ⟨List.cons_ne_nil _ _, List.forall_mem_cons.mpr ⟨hzero, hds⟩, rfl⟩
    | decimal hd hds =>
      rw [splitBase_decimal hd]
      exact ⟨List.cons_ne_nil _ _, hds, rfl⟩
  · rintro ⟨hne, hds, rfl⟩
    rcases splitBase_cases u with ⟨x, d, ds, rfl, hx, hsplit⟩ | ⟨ds, rfl, hsplit⟩ | ⟨hzero, hsplit⟩
    · rw [hsplit] at hds ⊢
      exact .hex hx hds
    · rw [hsplit] at hds ⊢
      exact .octal (List.forall_mem_cons.mp hds).2
    · rw [hsplit] at hne hds ⊢
      cases u with
      | nil => exact absurd rfl hne
      | cons d ds => exact .decimal (fun h => hzero ds (h ▸ rfl)) hds

/-- A digit is no white space and no sign. -/
theorem plain_of_digitVal {c : Char} (h : digitVal c < 36) :
    isSpace c = false ∧ c ≠ '-' ∧ c ≠ '+' := by
  refine ⟨?_, ?_, ?_⟩
  · by_contra hs
    simp only [isSpace, Bool.not_eq_false, Bool.or_eq_true, decide_eq_true_eq] at hs
    rcases hs with ((((rfl | rfl) | rfl) | rfl) | rfl) | rfl <;> exact absurd h (by decide)
  · rintro rfl
    exact absurd h (by decide)
  · rintro rfl
    exact absurd h (by decide)

/-- The signed value of a magnitude. -/
def signed (neg : Bool) (n : ℕ) : ℤ := if neg then -(n : ℤ) else n

/-- What stands before a magnitude. -/
theorem splitSign_cases (u : List Char) :
    (∃ w, u = '-' :: w ∧ splitSign u = (true, w)) ∨
    (∃ w, u = '+' :: w ∧ splitSign u = (false, w)) ∨ splitSign u = (false, u) := by
  unfold splitSign
  split
  · exact .inl ⟨_, rfl, rfl⟩
  · exact .inr (.inl ⟨_, rfl, rfl⟩)
  · exact .inr (.inr rfl)

theorem splitSign_digit {c : Char} (h : digitVal c < 36) (cs : List Char) :
    splitSign (c :: cs) = (false, c :: cs) := by
  obtain ⟨-, hminus, hplus⟩ := plain_of_digitVal h
  rcases splitSign_cases (c :: cs) with ⟨w, heq, -⟩ | ⟨w, heq, -⟩ | hsign
  · exact absurd (List.cons.inj heq).1 hminus
  · exact absurd (List.cons.inj heq).1 hplus
  · exact hsign

theorem dropWhile_isSpace {ws : List Char} (hws : ∀ c ∈ ws, isSpace c = true) {c : Char}
    (hc : isSpace c = false) (cs : List Char) : (ws ++ c :: cs).dropWhile isSpace = c :: cs := by
  rw [List.dropWhile_append_of_pos hws]
  exact List.dropWhile_cons_of_neg (by rw [hc]; decide)

/-- A literal is a magnitude with the sign that stands before it. -/
theorem integerLiteral_iff {s : List Char} {v : ℤ} :
    IntegerLiteral s v ↔ ∃ n, Magnitude (splitSign (s.dropWhile isSpace)).2 n ∧
      signed (splitSign (s.dropWhile isSpace)).1 n = v := by
  constructor
  · intro h
    cases h with
    | @unsigned ws ds n hws hn =>
      obtain ⟨c, cs, rfl, hc⟩ := hn.head
      have hdigit : digitVal c < 36 := hc.trans (by decide)
      rw [dropWhile_isSpace hws (plain_of_digitVal hdigit).1, splitSign_digit hdigit]
      exact ⟨n, hn, rfl⟩
    | @plus ws ds n hws hn =>
      rw [dropWhile_isSpace hws (by decide)]
      exact ⟨n, hn, rfl⟩
    | @minus ws ds n hws hn =>
      rw [dropWhile_isSpace hws (by decide)]
      exact ⟨n, hn, rfl⟩
  · rintro ⟨n, hn, rfl⟩
    have hws : ∀ c ∈ s.takeWhile isSpace, isSpace c = true := fun c hc => List.mem_takeWhile_imp hc
    have hs := List.takeWhile_append_dropWhile (p := isSpace) (l := s)
    rcases splitSign_cases (s.dropWhile isSpace) with ⟨w, heq, hsign⟩ | ⟨w, heq, hsign⟩ | hsign
    · rw [hsign] at hn ⊢
      rw [heq] at hs
      exact hs ▸ .minus hws hn
    · rw [hsign] at hn ⊢
      rw [heq] at hs
      exact hs ▸ .plus hws hn
    · rw [hsign] at hn ⊢
      exact hs ▸ .unsigned hws hn

/-- A literal has one value. -/
theorem integerLiteral_unique {s : List Char} {v v' : ℤ} (h : IntegerLiteral s v)
    (h' : IntegerLiteral s v') : v = v' := by
  obtain ⟨n, hn, rfl⟩ := integerLiteral_iff.mp h
  obtain ⟨n', hn', rfl⟩ := integerLiteral_iff.mp h'
  rw [← (magnitude_iff.mp hn).2.2, (magnitude_iff.mp hn').2.2]

/-- **A literal is read as a whole**; a value out of range saturates. -/
theorem strtol_literal {bits : ℕ} {s : List Char} {v : ℤ} (h : IntegerLiteral s v) :
    strtol bits s =
      if v > 2 ^ (bits - 1) - 1 then ⟨2 ^ (bits - 1) - 1, [], true⟩
      else if v < -2 ^ (bits - 1) then ⟨-2 ^ (bits - 1), [], true⟩
      else ⟨v, [], false⟩ := by
  obtain ⟨n, hn, hv⟩ := integerLiteral_iff.mp h
  obtain ⟨hne, hds, hval⟩ := magnitude_iff.mp hn
  have hrun := List.takeWhile_eq_self_iff.mpr fun c hc => decide_eq_true (hds c hc)
  have hrest := List.dropWhile_eq_nil_iff.mpr fun c hc => decide_eq_true (hds c hc)
  simp only [strtol, hrun, hrest, if_neg hne, hval]
  rw [← hv]
  rfl

/-- **What is read as a whole is a literal.** -/
theorem literal_of_strtol {bits : ℕ} {s : List Char} (hs : s ≠ [])
    (h : (strtol bits s).rest = []) : ∃ v, IntegerLiteral s v := by
  rcases hsign : splitSign (s.dropWhile isSpace) with ⟨neg, u⟩
  rcases hbase : splitBase u with ⟨base, ds⟩
  simp only [strtol, hsign, hbase] at h
  by_cases hrun : ds.takeWhile (fun c => digitVal c < base) = []
  · rw [if_pos hrun] at h
    exact absurd h hs
  · rw [if_neg hrun] at h
    simp only [apply_ite StrtolResult.rest, ite_self] at h
    have hne : ds ≠ [] := by
      rintro rfl
      exact hrun rfl
    have hmagnitude : Magnitude u (digitsVal base ds) := by
      rw [magnitude_iff, hbase]
      exact ⟨hne, fun c hc => of_decide_eq_true (List.dropWhile_eq_nil_iff.mp h c hc), rfl⟩
    refine ⟨signed neg (digitsVal base ds), integerLiteral_iff.mpr ⟨digitsVal base ds, ?_⟩⟩
    rw [hsign]
    exact ⟨hmagnitude, rfl⟩

/-! ## Digits in two bases -/

theorem digitsVal_concat (base : ℕ) (ds : List Char) (d : Char) :
    digitsVal base (ds ++ [d]) = base * digitsVal base ds + digitVal d := by
  rw [digitsVal, List.foldl_append]
  rfl

theorem digitsVal_append (base : ℕ) (ds es : List Char) :
    digitsVal base (ds ++ es) = digitsVal base ds * base ^ es.length + digitsVal base es := by
  induction es using List.reverseRecOn with
  | nil => simp [digitsVal]
  | append_singleton es e ih =>
    rw [← List.append_assoc, digitsVal_concat, digitsVal_concat, ih, List.length_append,
      List.length_singleton, pow_succ]
    ring

/-- A larger base reads no smaller number. -/
theorem digitsVal_mono {b b' : ℕ} (h : b ≤ b') (ds : List Char) :
    digitsVal b ds ≤ digitsVal b' ds := by
  induction ds using List.reverseRecOn with
  | nil => exact le_rfl
  | append_singleton ds d ih =>
    rw [digitsVal_concat, digitsVal_concat]
    exact Nat.add_le_add_right (Nat.mul_le_mul h ih) _

theorem eq_zero_of_digitVal {c : Char} (h : digitVal c = 0) : c = '0' := by
  unfold digitVal at h
  split_ifs at h with hd
  · have hlo : 48 ≤ c.toNat := by
      simp only [Char.isDigit, Bool.and_eq_true, decide_eq_true_eq] at hd
      exact UInt32.le_iff_toNat_le.mp hd.1
    have hzero : '0'.toNat = 48 := rfl
    have hc : c.toNat = 48 := by omega
    exact Char.ext (UInt32.toNat_inj.mp hc)

theorem digitsVal_eq_zero {base : ℕ} (hbase : 0 < base) {ds : List Char}
    (h : digitsVal base ds = 0) : ds = List.replicate ds.length '0' := by
  induction ds using List.reverseRecOn with
  | nil => rfl
  | append_singleton ds d ih =>
    rw [digitsVal_concat] at h
    have hds : digitsVal base ds = 0 := by
      rcases Nat.mul_eq_zero.mp (Nat.eq_zero_of_add_eq_zero_right h) with h0 | h0
      · omega
      · exact h0
    have hd := eq_zero_of_digitVal (Nat.eq_zero_of_add_eq_zero_left h)
    rw [List.length_append, List.length_singleton, List.replicate_succ', ← ih hds, hd]

/-- **Two bases agree** on digits only if all but the last are 0. -/
theorem digits_agree {b b' : ℕ} (h : b < b') {ds : List Char} (hne : ds ≠ [])
    (heq : digitsVal b ds = digitsVal b' ds) :
    ∃ k d, ds = List.replicate k '0' ++ [d] := by
  obtain ⟨es, d, rfl⟩ := (List.eq_nil_or_concat ds).resolve_left hne
  rw [List.concat_eq_append] at heq ⊢
  rw [digitsVal_concat, digitsVal_concat] at heq
  have hmono := digitsVal_mono h.le es
  have hzero : digitsVal b' es = 0 := by
    by_contra hpos
    have hlt : b * digitsVal b' es < b' * digitsVal b' es :=
      Nat.mul_lt_mul_of_pos_right h (Nat.pos_of_ne_zero hpos)
    have hle : b * digitsVal b es ≤ b * digitsVal b' es := Nat.mul_le_mul_left b hmono
    omega
  exact ⟨es.length, d, by rw [← digitsVal_eq_zero (by omega) hzero]⟩

/-- Zeros before a digit change nothing. -/
theorem digitsVal_zeros (base k : ℕ) (d : Char) :
    digitsVal base (List.replicate k '0' ++ [d]) = digitVal d := by
  have hzeros : digitsVal base (List.replicate k '0') = 0 := by
    induction k with
    | zero => rfl
    | succ k ih =>
      rw [List.replicate_succ', digitsVal_concat, ih]
      rfl
  rw [digitsVal_concat, hzeros, Nat.mul_zero, Nat.zero_add]

/-- **Digits are read** in the base their prefix selects, as far as they are of that base. -/
theorem strtoul_digits {bits : ℕ} {s : List Char} (hs : ∀ c ∈ s, digitVal c < 36) :
    strtoul bits s =
      let n := digitsVal (splitBase s).1
        ((splitBase s).2.takeWhile fun c => digitVal c < (splitBase s).1)
      if n ≥ 2 ^ bits then 2 ^ bits - 1 else n := by
  have hsign : splitSign (s.dropWhile isSpace) = (false, s) := by
    cases s with
    | nil => rfl
    | cons c cs =>
      have hdigit := hs c List.mem_cons_self
      rw [List.dropWhile_cons_of_neg (by rw [(plain_of_digitVal hdigit).1]; decide)]
      exact splitSign_digit hdigit cs
  simp only [strtoul, hsign, Bool.false_eq_true, if_false]

/-! ## Decimal literals -/

/-- The decimal digits of a number are decimal digits. -/
theorem digitVal_of_mem_toDigits {n : ℕ} {c : Char} (h : c ∈ Nat.toDigits 10 n) :
    c.isDigit = true ∧ digitVal c = c.toNat - '0'.toNat ∧ digitVal c < 10 := by
  have hd : c.isDigit = true := Nat.isDigit_of_mem_toDigits (by decide) (by decide) h
  have hval : digitVal c = c.toNat - '0'.toNat := by rw [digitVal, if_pos hd]
  refine ⟨hd, hval, ?_⟩
  rw [hval]
  have hle : c.toNat ≤ 57 := by
    simp only [Char.isDigit, Bool.and_eq_true, decide_eq_true_eq] at hd
    exact UInt32.le_iff_toNat_le.mp hd.2
  have hzero : '0'.toNat = 48 := rfl
  omega

/-- The decimal digits of a positive number do not start with 0. -/
theorem toDigits_head {n : ℕ} (hn : 0 < n) :
    ∃ c cs, Nat.toDigits 10 n = c :: cs ∧ c ≠ '0' := by
  induction n using Nat.strong_induction_on with
  | _ n ih =>
    by_cases hlt : n < 10
    · refine ⟨n.digitChar, [], Nat.toDigits_of_lt_base hlt, ?_⟩
      rw [ne_eq, Nat.digitChar_eq_zero]
      omega
    · obtain ⟨c, cs, hc, hne⟩ := ih (n / 10) (by omega) (by omega)
      refine ⟨c, cs ++ [(n % 10).digitChar], ?_, hne⟩
      rw [Nat.toDigits_of_base_le (by decide) (by omega), hc, List.cons_append]

/-- The digits of a number, as `strtol` reads them. -/
theorem digitsVal_toDigits (n : ℕ) : digitsVal 10 (Nat.toDigits 10 n) = n := by
  have hfold : ∀ (l : List Char) (a : ℕ), (∀ c ∈ l, digitVal c = c.toNat - '0'.toNat) →
      l.foldl (fun a c => 10 * a + digitVal c) a = Nat.ofDigitChars 10 l a := by
    intro l
    induction l with
    | nil => intro a _; simp
    | cons c cs ih =>
      intro a hl
      rw [List.foldl_cons, Nat.ofDigitChars_cons, hl c (by simp)]
      exact ih _ fun c' hc' => hl c' (List.mem_cons_of_mem _ hc')
  rw [digitsVal, hfold _ 0 fun c hc => (digitVal_of_mem_toDigits hc).2.1]
  exact Nat.ofDigitChars_ten_toDigits

/-- The decimal digits of a number are its magnitude; those of 0 are an octal literal. -/
theorem magnitude_toDigits (n : ℕ) : Magnitude (Nat.toDigits 10 n) n := by
  rcases Nat.eq_zero_or_pos n with rfl | hn
  · exact .octal (List.forall_mem_nil _)
  · obtain ⟨c, cs, hcs, hc⟩ := toDigits_head hn
    have hdigits : ∀ c' ∈ c :: cs, digitVal c' < 10 := by
      rw [← hcs]
      exact fun c' hc' => (digitVal_of_mem_toDigits hc').2.2
    have hmagnitude := Magnitude.decimal hc hdigits
    rwa [← hcs, digitsVal_toDigits] at hmagnitude

/-- The decimal literal of an integer is a literal of it. -/
theorem decimal_literal (v : ℤ) : IntegerLiteral (decimal v) v := by
  have hdigits := magnitude_toDigits v.natAbs
  have hnil : ∀ c ∈ ([] : List Char), isSpace c = true := List.forall_mem_nil _
  rw [decimal]
  by_cases hneg : v < 0
  · have hliteral := IntegerLiteral.minus hnil hdigits
    rw [if_pos hneg]
    rwa [List.nil_append, show -(v.natAbs : ℤ) = v by omega] at hliteral
  · have hliteral := IntegerLiteral.unsigned hnil hdigits
    rw [if_neg hneg]
    rwa [List.nil_append, show (v.natAbs : ℤ) = v by omega] at hliteral

/-- A decimal literal starts with a minus sign or a digit. -/
theorem decimal_head (v : ℤ) : ∃ c cs, decimal v = c :: cs ∧ (c = '-' ∨ c.isDigit = true) := by
  by_cases hneg : v < 0
  · exact ⟨'-', _, by rw [decimal, if_pos hneg], .inl rfl⟩
  · obtain ⟨c, cs, hcs⟩ := List.exists_cons_of_ne_nil (Nat.toDigits_ne_nil (n := v.natAbs) (b := 10))
    have hmem : c ∈ Nat.toDigits 10 v.natAbs := by rw [hcs]; simp
    exact ⟨c, cs, by rw [decimal, if_neg hneg, hcs], .inr (digitVal_of_mem_toDigits hmem).1⟩

/-- **Round trip of decimal literals.** -/
theorem strtol_decimal {bits : ℕ} {v : ℤ} (hlo : -2 ^ (bits - 1) ≤ v)
    (hhi : v < 2 ^ (bits - 1)) : strtol bits (decimal v) = ⟨v, [], false⟩ := by
  rw [strtol_literal (decimal_literal v), if_neg (by omega), if_neg (by omega)]

end UsbTrace.Library
