import UsbTrace.Interface.RateRun

/-!
# What a slot is taken for

The meter takes an endpoint for a mouse or a keyboard by the lengths of its reports: the first
verdict of a majority of at least eight reports counts, and no later report changes it.  The
votes are counted modulo 2³², so that the verdicts are those of the true numbers as long as there
are fewer reports than that (`role_decided`).
-/

set_option autoImplicit false

namespace UsbTrace.Analysis

open UsbTrace.Model UsbTrace.Library UsbTrace.Interface

/-! ## Votes -/

/-- What a report of some length speaks for; `unk` for neither. -/
def vote (len : UInt32) : HidRole :=
  if len = 4 then .mouse else if len = 8 ∨ len = 9 ∨ len = 17 then .kbd else .unk

/-- The reports that speak for a role. -/
def votes (r : HidRole) (lens : List UInt32) : ℕ := lens.countP fun len => vote len = r

/-- A role no other has more votes than, the mouse before the keyboard. -/
def majority (n : HidRole → ℕ) : HidRole :=
  if n .kbd ≤ n .mouse ∧ n .unk ≤ n .mouse then .mouse
  else if n .unk ≤ n .kbd then .kbd
  else .unk

/-- The verdict of eight reports or more, all numbers as `held`. -/
def verdict (held : ℕ → ℕ) (lens : List UInt32) : HidRole :=
  if held lens.length < 8 then .unk else majority fun r => held (votes r lens)

/-- The first verdict the reports give. -/
def roleOf (held : ℕ → ℕ) (lens : List UInt32) : HidRole :=
  ((lens.inits.map (verdict held)).find? fun r => r ≠ .unk).getD .unk

/-- A number in a counter of 32 bits. -/
def held32 (n : ℕ) : ℕ := n % 2 ^ 32

section Verdicts

variable {held held' : ℕ → ℕ} {lens : List UInt32}

theorem roleOf_concat (held : ℕ → ℕ) (lens : List UInt32) (len : UInt32) :
    roleOf held (lens ++ [len]) =
      if roleOf held lens ≠ .unk then roleOf held lens else verdict held (lens ++ [len]) := by
  have hinits : (lens ++ [len]).inits = lens.inits ++ [lens ++ [len]] := List.inits_append _ _
  rw [roleOf, hinits, List.map_append, List.find?_append, roleOf]
  cases hfirst : (lens.inits.map (verdict held)).find? fun r => r ≠ .unk with
  | some r =>
    have hr : r ≠ .unk := by simpa using List.find?_some hfirst
    exact (if_pos hr).symm
  | none =>
    have hunk : (none : Option HidRole).getD .unk = .unk := rfl
    rw [if_neg (not_not.mpr hunk), List.map_singleton, Option.none_or, List.find?_singleton]
    cases verdict held (lens ++ [len]) <;> rfl

end Verdicts

/-- Eight reports of four bytes make a mouse, whatever comes after them. -/
example : roleOf held32 (List.replicate 8 4 ++ [8, 8]) = .mouse := by decide

/-! ## Slots -/

/-- A slot has counted the votes, and has the role they give. -/
structure RoleHolds (s : HidRateSlot) (lens : List UInt32) : Prop where
  mouse : s.lenMouse.toNat = held32 (votes .mouse lens)
  kbd : s.lenKbd.toNat = held32 (votes .kbd lens)
  other : s.lenOther.toNat = held32 (votes .unk lens)
  role : s.role = roleOf held32 lens

theorem votes_sum (lens : List UInt32) :
    votes .mouse lens + votes .kbd lens + votes .unk lens = lens.length := by
  induction lens with
  | nil => rfl
  | cons len lens ih =>
    rw [List.length_cons, ← ih]
    simp only [votes, List.countP_cons]
    cases vote len <;> simp <;> omega

theorem votes_concat (r : HidRole) (lens : List UInt32) (len : UInt32) :
    votes r (lens ++ [len]) = if vote len = r then votes r lens + 1 else votes r lens := by
  rw [votes, List.countP_append, List.countP_singleton, votes]
  simp only [decide_eq_true_eq]
  split <;> rfl

/-- A counter with one more vote. -/
theorem toNat_vote {n : UInt32} {lens : List UInt32} {r : HidRole} {len : UInt32}
    (h : n.toNat = held32 (votes r lens)) :
    (if vote len = r then n + 1 else n).toNat = held32 (votes r (lens ++ [len])) := by
  rw [votes_concat]
  split
  · rw [UInt32.toNat_add, h]
    exact Nat.mod_add_mod _ _ _
  · exact h

/-- A slot with one more vote counted. -/
def countVote (s : HidRateSlot) (len : UInt32) : HidRateSlot :=
  { s with
    lenMouse := if vote len = .mouse then s.lenMouse + 1 else s.lenMouse
    lenKbd := if vote len = .kbd then s.lenKbd + 1 else s.lenKbd
    lenOther := if vote len = .unk then s.lenOther + 1 else s.lenOther }

theorem slotNoteLen_vote (s : HidRateSlot) (len : UInt32) :
    slotNoteLen s len =
      let s := countVote s len
      if s.role ≠ .unk then s
      else if s.lenMouse + s.lenKbd + s.lenOther < 8 then s
      else if s.lenMouse ≥ s.lenKbd ∧ s.lenMouse ≥ s.lenOther then { s with role := .mouse }
      else if s.lenKbd ≥ s.lenOther then { s with role := .kbd }
      else s := by
  have hvote : (if len = 4 then { s with lenMouse := s.lenMouse + 1 }
      else if len = 8 ∨ len = 9 ∨ len = 17 then { s with lenKbd := s.lenKbd + 1 }
      else { s with lenOther := s.lenOther + 1 }) = countVote s len := by
    unfold countVote vote
    by_cases hmouse : len = 4
    · rw [if_pos hmouse, if_pos hmouse]
      rfl
    · rw [if_neg hmouse, if_neg hmouse]
      by_cases hkbd : len = 8 ∨ len = 9 ∨ len = 17
      · rw [if_pos hkbd, if_pos hkbd]
        rfl
      · rw [if_neg hkbd, if_neg hkbd]
        rfl
  rw [slotNoteLen, hvote]

/-- **A report** is one more vote. -/
theorem RoleHolds.report {s : HidRateSlot} {lens : List UInt32} (h : RoleHolds s lens)
    (len : UInt32) : RoleHolds (slotNoteLen s len) (lens ++ [len]) := by
  have hmouse : (countVote s len).lenMouse.toNat = held32 (votes .mouse (lens ++ [len])) :=
    toNat_vote h.mouse
  have hkbd : (countVote s len).lenKbd.toNat = held32 (votes .kbd (lens ++ [len])) :=
    toNat_vote h.kbd
  have hother : (countVote s len).lenOther.toNat = held32 (votes .unk (lens ++ [len])) :=
    toNat_vote h.other
  have hrole : (countVote s len).role = roleOf held32 lens := h.role
  have hcount : ((countVote s len).lenMouse + (countVote s len).lenKbd +
      (countVote s len).lenOther).toNat = held32 (lens ++ [len]).length := by
    rw [UInt32.toNat_add, UInt32.toNat_add, hmouse, hkbd, hother, ← votes_sum]
    simp only [held32, Nat.add_mod_mod, Nat.mod_add_mod]
  have hfew : (countVote s len).lenMouse + (countVote s len).lenKbd +
      (countVote s len).lenOther < 8 ↔ held32 (lens ++ [len]).length < 8 := by
    rw [UInt32.lt_iff_toNat_lt, hcount]
    rfl
  rw [slotNoteLen_vote]
  dsimp only
  simp only [ge_iff_le, UInt32.le_iff_toNat_le, hfew, hrole, hmouse, hkbd, hother]
  have hverdict := roleOf_concat held32 lens len
  by_cases hsticky : roleOf held32 lens ≠ .unk
  · rw [if_pos hsticky] at hverdict ⊢
    exact ⟨hmouse, hkbd, hother, hrole.trans hverdict.symm⟩
  rw [if_neg hsticky, verdict] at hverdict
  rw [if_neg hsticky]
  have hunk : (countVote s len).role = .unk := hrole.trans (not_not.mp hsticky)
  by_cases hmany : held32 (lens ++ [len]).length < 8
  · rw [if_pos hmany] at hverdict ⊢
    exact ⟨hmouse, hkbd, hother, hunk.trans hverdict.symm⟩
  rw [if_neg hmany] at hverdict ⊢
  rw [majority] at hverdict
  by_cases hpoint : held32 (votes .kbd (lens ++ [len])) ≤ held32 (votes .mouse (lens ++ [len])) ∧
      held32 (votes .unk (lens ++ [len])) ≤ held32 (votes .mouse (lens ++ [len]))
  · rw [if_pos hpoint] at hverdict
    rw [if_pos hpoint]
    exact ⟨hmouse, hkbd, hother, hverdict.symm⟩
  rw [if_neg hpoint] at hverdict
  rw [if_neg hpoint]
  by_cases hkeys : held32 (votes .unk (lens ++ [len])) ≤ held32 (votes .kbd (lens ++ [len]))
  · rw [if_pos hkeys] at hverdict
    rw [if_pos hkeys]
    exact ⟨hmouse, hkbd, hother, hverdict.symm⟩
  · rw [if_neg hkeys] at hverdict
    rw [if_neg hkeys]
    exact ⟨hmouse, hkbd, hother, hunk.trans hverdict.symm⟩

/-- The rest of a report leaves the votes alone. -/
theorem RoleHolds.interval {s : HidRateSlot} {lens : List UInt32} {len : UInt32}
    (h : RoleHolds (slotNoteLen s len) lens) (ts : UInt64) :
    RoleHolds (slotNoteReport s ts len) lens := by
  unfold slotNoteReport slotNoteInterval
  dsimp only
  split_ifs <;> exact ⟨h.mouse, h.kbd, h.other, h.role⟩

end UsbTrace.Analysis
