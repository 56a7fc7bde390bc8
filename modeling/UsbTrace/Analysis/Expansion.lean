import UsbTrace.Model.TextBuffers
import UsbTrace.Interface.JsonText

/-!
# What `expand` leaves in its buffer

`Expands` is what a template stands for, with no buffer: a variable where a brace closes
within 15 characters, and every other character itself.  The loop of `expand` writes a
prefix of it and counts on where a value does not fit; the invariant of `Expands.loop` is
that the buffer holds the cut text and `o` is its length wherever that is below the cut.
-/

set_option autoImplicit false

namespace UsbTrace.Analysis

open UsbTrace.Library UsbTrace.Model UsbTrace.Interface

/-! ## Templates -/

/-- The variables of templates, with their values (diag.md:126-129). -/
def templateVars (f : Finding) : List (CStr × CStr) :=
  [("vid".toList, hex4 f.vid.toNat),
    ("pid".toList, hex4 f.pid.toNat),
    ("bus".toList, decimal f.key.busnum.toNat),
    ("dev".toList, decimal f.key.devnum.toNat),
    ("count".toList, decimal f.count),
    ("window".toList, decimal f.windowMs),
    ("comm".toList, (f.comm.map commStr).getD [])]

/-- The value of a variable; an unknown one is itself in braces. -/
def variableValue (f : Finding) (key : CStr) : CStr :=
  ((templateVars f).lookup key).getD ('{' :: (key ++ ['}']))

/-- The template starts with a variable: its brace closes within 15 characters. -/
def VariableAt (tmpl key rest : CStr) : Prop :=
  tmpl = '{' :: (key ++ '}' :: rest) ∧ '}' ∉ key ∧ key.length ≤ 15

/-- What a template stands for. -/
inductive Expands (f : Finding) : CStr → CStr → Prop
  | nil : Expands f [] []
  | value {tmpl key rest text : CStr} :
      VariableAt tmpl key rest → Expands f rest text → Expands f tmpl (variableValue f key ++ text)
  | copy {c : Char} {rest text : CStr} :
      (∀ key rest', ¬ VariableAt (c :: rest) key rest') → Expands f rest text →
      Expands f (c :: rest) (c :: text)

variable {f : Finding}

/-- The closing brace is the next one. -/
theorem takeWhile_close {key rest : CStr} (h : '}' ∉ key) :
    (key ++ '}' :: rest).takeWhile (fun c => c ≠ '}') = key := by
  rw [List.takeWhile_append_of_pos fun c hc => decide_eq_true (ne_of_mem_of_not_mem hc h)]
  exact List.append_nil key

theorem VariableAt.unique {tmpl key rest key' rest' : CStr} (h : VariableAt tmpl key rest)
    (h' : VariableAt tmpl key' rest') : key = key' ∧ rest = rest' := by
  have heq := (List.cons.inj (h.1.symm.trans h'.1)).2
  have hkey : key = key' := by
    rw [← @takeWhile_close key rest h.2.1, heq, takeWhile_close h'.2.1]
  subst hkey
  exact ⟨rfl, (List.cons.inj (List.append_cancel_left heq)).2⟩

theorem Expands.unique {tmpl text text' : CStr} (h : Expands f tmpl text)
    (h' : Expands f tmpl text') : text = text' := by
  induction h generalizing text' with
  | nil =>
    cases h' with
    | nil => rfl
    | value hvar => exact absurd hvar.1 (List.cons_ne_nil _ _).symm
  | value hvar _ ih =>
    cases h' with
    | nil => exact absurd hvar.1 (List.cons_ne_nil _ _).symm
    | value hvar' h' =>
      obtain ⟨rfl, rfl⟩ := hvar.unique hvar'
      rw [ih h']
    | copy hnot => exact absurd hvar (hnot _ _)
  | copy hnot _ ih =>
    cases h' with
    | value hvar => exact absurd hvar (hnot _ _)
    | copy _ h' => rw [ih h']

/-- Every template stands for a text. -/
theorem exists_expands (f : Finding) (tmpl : CStr) : ∃ text, Expands f tmpl text := by
  induction h : tmpl.length using Nat.strong_induction_on generalizing tmpl with
  | _ n ih =>
    cases tmpl with
    | nil => exact ⟨[], .nil⟩
    | cons c rest =>
      by_cases hvar : ∃ key rest', VariableAt (c :: rest) key rest'
      · obtain ⟨key, rest', hvar⟩ := hvar
        have hlt : rest'.length < n := by
          rw [← h, hvar.1, List.length_cons, List.length_append, List.length_cons]
          omega
        obtain ⟨text, htext⟩ := ih rest'.length hlt rest' rfl
        exact ⟨_, .value hvar htext⟩
      · obtain ⟨text, htext⟩ := ih rest.length (h ▸ Nat.lt_succ_self _) rest rfl
        exact ⟨_, .copy (fun key rest' h => hvar ⟨key, rest', h⟩) htext⟩

/-! ## Keys and values -/

/-- The key that `expand` finds is that of the variable.
SOURCE: engine.c:277-285 -/
theorem templateKey_eq_some {p key : CStr} :
    templateKey p = some key ↔ ∃ rest, VariableAt ('{' :: p) key rest := by
  constructor
  · intro h
    rw [templateKey] at h
    split_ifs at h with hkey
    cases h
    have hsplit := List.takeWhile_append_dropWhile (p := fun c => decide (c ≠ '}')) (l := p)
    have hclose := List.head?_dropWhile_not (fun c => decide (c ≠ '}')) p
    cases hdrop : p.dropWhile fun c => decide (c ≠ '}') with
    | nil =>
      rw [hdrop, List.append_nil] at hsplit
      rw [hsplit] at hkey
      exact absurd hkey.1 (Nat.lt_irrefl _)
    | cons c rest =>
      rw [hdrop] at hclose hsplit
      have hc : c = '}' := of_not_not (of_decide_eq_false hclose)
      subst hc
      refine ⟨rest, by rw [hsplit], ?_, Nat.le_of_lt_succ hkey.2⟩
      intro hmem
      have hne := List.mem_takeWhile_imp hmem
      exact absurd rfl (of_decide_eq_true hne)
  · rintro ⟨rest, hvar, hclose, hlen⟩
    have hp := (List.cons.inj hvar).2
    rw [templateKey, hp, takeWhile_close hclose, if_pos]
    rw [List.length_append, List.length_cons]
    omega

/-- Where no variable starts, the character is copied. -/
theorem templateKey_copy {c : Char} {rest : CStr}
    (hnot : ∀ key rest', ¬ VariableAt (c :: rest) key rest') :
    (if c = '{' then templateKey rest else none) = none := by
  split_ifs with hc
  · rw [Option.eq_none_iff_forall_ne_some]
    intro key hkey
    obtain ⟨rest', hvar⟩ := templateKey_eq_some.mp hkey
    exact hnot key rest' (hc ▸ hvar)
  · rfl

theorem decimal_length {v : ℤ} (h : -2 ^ 63 ≤ v ∧ v < 2 ^ 63) : (decimal v).length ≤ 63 := by
  have hdigits : (Nat.toDigits 10 v.natAbs).length ≤ 62 :=
    (Nat.length_toDigits_le_iff (by decide) (by decide)).mpr (by omega)
  unfold decimal
  split_ifs
  · rw [List.length_cons]
    omega
  · omega

theorem hex4_length {n : ℕ} (h : n < 2 ^ 16) : (hex4 n).length ≤ 63 := by
  have hdigits : (Nat.toDigits 16 n).length ≤ 4 :=
    (Nat.length_toDigits_le_iff (by decide) (by decide)).mpr (by omega)
  rw [hex4, padZero, List.length_append, List.length_replicate]
  omega

/-- The fields of a finding are in the ranges of their types, and `comm` fits its value. -/
structure FitsValues (f : Finding) : Prop where
  comm : ∀ comm, f.comm = some comm → (commStr comm).length ≤ 63
  count : -2 ^ 63 ≤ f.count ∧ f.count < 2 ^ 63
  window : -2 ^ 63 ≤ f.windowMs ∧ f.windowMs < 2 ^ 63

theorem FitsValues.length_le (h : FitsValues f) : ∀ p ∈ templateVars f, p.2.length ≤ 63 := by
  have hshort (n : UInt16) : (decimal n.toNat).length ≤ 63 := by
    have := n.toNat_lt
    exact decimal_length (by omega)
  have hcomm : ((f.comm.map commStr).getD []).length ≤ 63 := by
    cases hf : f.comm with
    | none => exact Nat.zero_le _
    | some comm => exact h.comm comm hf
  unfold templateVars
  simp only [List.forall_mem_cons]
  exact ⟨hex4_length f.vid.toNat_lt, hex4_length f.pid.toNat_lt, hshort _, hshort _,
    decimal_length h.count, decimal_length h.window, hcomm, List.forall_mem_nil _⟩

theorem lookup_cons_getD {k a d v : CStr} {es : List (CStr × CStr)} :
    (((a, v) :: es).lookup k).getD d = if k = a then v else (es.lookup k).getD d := by
  rw [List.lookup_cons]
  split_ifs with h
  · rw [h, beq_self_eq_true]
    rfl
  · rw [beq_eq_false_iff_ne.mpr h]

/-- The value of a variable is not cut to the 64 characters it is printed to.
SOURCE: engine.c:286-309 -/
theorem expandKey_eq (h : FitsValues f) {key : CStr} (hkey : key.length ≤ 15) :
    expandKey f key = variableValue f key := by
  have hvalue : (variableValue f key).length ≤ 63 := by
    unfold variableValue
    cases hlookup : (templateVars f).lookup key with
    | none =>
      rw [Option.getD_none, List.length_cons, List.length_append]
      exact Nat.le_trans (Nat.add_le_add_right (Nat.add_le_add_right hkey 1) 1) (by decide)
    | some v =>
      obtain ⟨l₁, l₂, heq, -⟩ := List.lookup_eq_some_iff.mp hlookup
      refine h.length_le (key, v) ?_
      rw [heq]
      exact List.mem_append_right _ List.mem_cons_self
  have hkeys : expandKey f key = snprintf 64 (variableValue f key) := by
    rw [variableValue, templateVars, lookup_cons_getD, lookup_cons_getD, lookup_cons_getD,
      lookup_cons_getD, lookup_cons_getD, lookup_cons_getD, lookup_cons_getD]
    rfl
  rw [hkeys, snprintf, List.take_of_length_le hvalue]

/-! ## The loop -/

/-- The characters of a variable are skipped. -/
theorem expandLoopChecked_skip (n : ℕ) (pre p : CStr) (o : ℕ) (out : CStr) :
    expandLoopChecked f n pre.length (pre ++ p) o out = expandLoopChecked f n 0 p o out := by
  induction pre with
  | nil => rfl
  | cons c pre ih =>
    rw [List.length_cons, List.cons_append, expandLoopChecked, ih]

/-- What is written before the cut is not cut. -/
theorem take_append_before {n : ℕ} {acc : CStr} (h : acc.length + 1 < n) (t : CStr) :
    (acc ++ t).take (n - 1) = acc ++ t.take (n - acc.length - 1) := by
  rw [List.take_append, List.take_of_length_le (by omega), Nat.sub_right_comm]

/-- Past the cut nothing is added. -/
theorem take_append_past {n : ℕ} {acc : CStr} (h : ¬ acc.length + 1 < n) (t : CStr) :
    (acc ++ t).take (n - 1) = acc.take (n - 1) := List.take_append_of_le_length (by omega)

/-- The buffer and the offset after a run of the loop. -/
structure Filled (old text out : CStr) (o : ℕ) : Prop where
  written : Written old (text.take (old.length - 1)) out
  offset : min o (old.length - 1) = min text.length (old.length - 1)

/-- Without room the loop is over. -/
theorem Filled.full {old acc out : CStr} (h : Filled old acc out acc.length)
    (hroom : ¬ acc.length + 1 < old.length) (tmpl text : CStr) :
    ∃ out' o', expandLoopChecked f old.length 0 tmpl acc.length out = some (out', o') ∧
      Filled old (acc ++ text) out' o' := by
  refine ⟨out, acc.length, ?_, ?_, ?_⟩
  · cases tmpl with
    | nil => rfl
    | cons c p => rw [expandLoopChecked, if_neg hroom]
  · rw [take_append_past hroom]
    exact h.written
  · rw [List.length_append]
    omega

/-- **The loop** of `expand`: `acc` is what the template stands for up to here, of which the
buffer holds what fits.
SOURCE: engine.c:275-318 -/
theorem Expands.loop (hfits : FitsValues f) {tmpl text old : CStr} (h : Expands f tmpl text)
    {acc out : CStr} (hout : Filled old acc out acc.length) :
    ∃ out' o', expandLoopChecked f old.length 0 tmpl acc.length out = some (out', o') ∧
      Filled old (acc ++ text) out' o' := by
  induction h generalizing acc out with
  | nil =>
    rw [List.append_nil]
    exact ⟨out, acc.length, rfl, hout⟩
  | @value tmpl key rest text hvar _ ih =>
    by_cases hroom : acc.length + 1 < old.length
    swap
    · exact hout.full hroom _ _
    have hacc := hout.written
    rw [List.take_of_length_le (by omega)] at hacc
    obtain ⟨out₁, hprint, h₁⟩ := hacc.snprintfAt (Char.ofNat 0) (variableValue f key)
    rw [← take_append_before hroom] at h₁
    have hfilled : Filled old (acc ++ variableValue f key) out₁
        (acc ++ variableValue f key).length := ⟨h₁, rfl⟩
    obtain ⟨out', o', hloop, h'⟩ := ih hfilled
    refine ⟨out', o', ?_, ?_⟩
    · obtain ⟨heq, hclose, hlen⟩ := hvar
      have hkey : templateKey (key ++ '}' :: rest) = some key :=
        templateKey_eq_some.mpr ⟨rest, rfl, hclose, hlen⟩
      have hskip := expandLoopChecked_skip (f := f) old.length (key ++ ['}']) rest
        (acc.length + (variableValue f key).length) out₁
      rw [List.length_append, List.length_singleton, List.append_assoc] at hskip
      rw [heq, expandLoopChecked, if_pos hroom, if_pos rfl, hkey]
      simp only [expandKey_eq hfits hlen, hprint, Option.bind_some]
      rw [List.length_append] at hloop
      exact hskip.trans hloop
    · rwa [List.append_assoc] at h'
  | @copy c rest text hnot _ ih =>
    by_cases hroom : acc.length + 1 < old.length
    swap
    · exact hout.full hroom _ _
    have hacc := hout.written
    rw [List.take_of_length_le (by omega)] at hacc
    obtain ⟨out₁, hput, h₁⟩ := hacc.store c hroom
    have hlen : (acc ++ [c]).length = acc.length + 1 := List.length_append
    have hfilled : Filled old (acc ++ [c]) out₁ (acc ++ [c]).length := by
      refine ⟨?_, rfl⟩
      rwa [List.take_of_length_le (by omega)]
    obtain ⟨out', o', hloop, h'⟩ := ih hfilled
    refine ⟨out', o', ?_, ?_⟩
    · rw [hlen] at hloop
      rw [expandLoopChecked, if_pos hroom, templateKey_copy hnot]
      simp only [hput, Option.bind_some]
      exact hloop
    · rwa [List.append_assoc] at h'

/-! ## The text without the buffer -/

theorem expandLoop_skip (n : ℕ) (pre p out : CStr) :
    expandLoop f n pre.length (pre ++ p) out = expandLoop f n 0 p out := by
  induction pre with
  | nil => rfl
  | cons c pre ih => rw [List.length_cons, List.cons_append, expandLoop, ih]

theorem expandLoop_full {n : ℕ} {acc : CStr} (hroom : ¬ acc.length + 1 < n) (tmpl text : CStr) :
    expandLoop f n 0 tmpl (acc.take (n - 1)) = (acc ++ text).take (n - 1) := by
  rw [take_append_past hroom]
  cases tmpl with
  | nil => rfl
  | cons c p =>
    rw [expandLoop, if_neg]
    rw [List.length_take]
    omega

/-- The loop without the buffer cuts what the template stands for in the same place. -/
theorem Expands.expandLoop_eq (hfits : FitsValues f) {tmpl text : CStr} (h : Expands f tmpl text)
    (n : ℕ) (acc : CStr) :
    expandLoop f n 0 tmpl (acc.take (n - 1)) = (acc ++ text).take (n - 1) := by
  induction h generalizing acc with
  | nil =>
    rw [List.append_nil]
    rfl
  | @value tmpl key rest text hvar _ ih =>
    by_cases hroom : acc.length + 1 < n
    swap
    · exact expandLoop_full hroom _ _
    obtain ⟨heq, hclose, hlen⟩ := hvar
    have hkey : templateKey (key ++ '}' :: rest) = some key :=
      templateKey_eq_some.mpr ⟨rest, rfl, hclose, hlen⟩
    have hskip := expandLoop_skip (f := f) n (key ++ ['}']) rest
      ((acc ++ variableValue f key).take (n - 1))
    rw [List.length_append, List.length_singleton, List.append_assoc] at hskip
    rw [heq, List.take_of_length_le (by omega), expandLoop, if_pos hroom, if_pos rfl, hkey]
    simp only [expandKey_eq hfits hlen, snprintf]
    rw [← List.append_assoc, ← ih]
    exact hskip
  | @copy c rest text hnot _ ih =>
    by_cases hroom : acc.length + 1 < n
    swap
    · exact expandLoop_full hroom _ _
    have hlen : (acc ++ [c]).length = acc.length + 1 := List.length_append
    have hrest := ih (acc ++ [c])
    rw [List.append_assoc, List.take_of_length_le (by omega)] at hrest
    rw [List.take_of_length_le (by omega), expandLoop, if_pos hroom, templateKey_copy hnot]
    exact hrest

/-- **The text and its buffer**: what a finding prints of a template is what the buffer holds
before its terminator. -/
theorem expand_eq (hfits : FitsValues f) {tmpl : Option CStr} {text : CStr}
    (h : Expands f (tmpl.getD []) text) (n : ℕ) : expand f tmpl n = text.take (n - 1) := by
  have hloop := h.expandLoop_eq hfits n []
  rwa [List.take_nil] at hloop

/-! ## The buffer -/

/-- **A template in its buffer.** Whatever the template, the finding and the size, `expand`
writes inside the buffer and leaves in it what the template stands for, cut to the size
without the terminator, and the terminator after it.
SOURCE: engine.c:269-320 -/
theorem expand_buffer (f : Finding) (hfits : FitsValues f) (tmpl : Option CStr) (out : CStr)
    (hsize : 1 ≤ out.length) :
    ∃ text, (∀ t, Expands f (tmpl.getD []) t ↔ t = text) ∧
      expandChecked f tmpl out out.length =
        some (text.take (out.length - 1) ++ Char.ofNat 0 ::
          out.drop ((text.take (out.length - 1)).length + 1)) := by
  obtain ⟨text, htext⟩ := exists_expands f (tmpl.getD [])
  have hstart : Filled out [] out 0 := by
    refine ⟨?_, rfl⟩
    rw [List.take_nil]
    exact written_nil hsize
  obtain ⟨out', o', hloop, hfilled⟩ := htext.loop hfits hstart
  refine ⟨text, fun t => ⟨fun h => h.unique htext, ?_⟩, ?_⟩
  · rintro rfl
    exact htext
  · have hlast : (if o' < out.length then o' else out.length - 1) =
        (text.take (out.length - 1)).length := by
      have := hfilled.offset
      rw [List.nil_append] at this
      rw [List.length_take]
      split_ifs <;> omega
    rw [List.length_nil] at hloop
    rw [expandChecked, hloop, Option.bind_some, hlast]
    exact hfilled.written.store_eq _

/-- A device and a process. -/
def sampleFinding : Finding :=
  { ridx := 0, key := { busnum := 1, devnum := 5 }, vid := 0x46d, pid := 0x825, refNs := 7,
    count := 3, windowMs := 500, comm := some [0x63, 0x61, 0x74, 0, 0x78], evidence := [] }

/-- A value that fits, an unknown variable that is cut, and eight characters. -/
theorem expand_buffer_sample :
    expandChecked sampleFinding (some "v\x7bvid\x7d-\x7bfoo\x7d\x7bcomm\x7d".toList)
        (List.replicate 9 '?') 9 = some ("v046d-\x7bf".toList ++ [Char.ofNat 0]) ∧
    ∃ text, Expands sampleFinding "v\x7bvid\x7d-\x7bfoo\x7d\x7bcomm\x7d".toList text ∧
      text.take 8 = "v046d-\x7bf".toList := by
  have hfits : FitsValues sampleFinding :=
    ⟨fun comm h => by cases h; decide, by decide, by decide⟩
  obtain ⟨text, htext, hrun⟩ := expand_buffer sampleFinding hfits
    (some "v\x7bvid\x7d-\x7bfoo\x7d\x7bcomm\x7d".toList) (List.replicate 9 '?') (by decide)
  have hcomputed : expandChecked sampleFinding
      (some "v\x7bvid\x7d-\x7bfoo\x7d\x7bcomm\x7d".toList) (List.replicate 9 '?') 9 =
      some ("v046d-\x7bf".toList ++ [Char.ofNat 0]) := by decide +kernel
  refine ⟨hcomputed, text, (htext text).mpr rfl, ?_⟩
  have heq := Option.some.inj (hcomputed.symm.trans hrun)
  exact ((List.append_cons_inj_of_notMem (by decide) (by decide)).mp heq).1.symm

end UsbTrace.Analysis
