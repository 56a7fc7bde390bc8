import Mathlib.Data.List.Forall2

/-!
# Folds

Rules for `List.foldlM` in `Except` and `Option`: what holds of the result of a fold that
succeeds, when a fold that builds a list item by item succeeds, and when a checked fold is
the plain one; and the rule for a fold that keeps an extreme value.
-/

set_option autoImplicit false

namespace UsbTrace.Library

variable {α β σ ε : Type}

/-- A sequence that succeeds: its first part does, and the rest on that part's result. -/
theorem bind_eq_ok {x : Except ε α} {f : α → Except ε β} {r : β}
    (h : (x >>= f) = .ok r) : ∃ a, x = .ok a ∧ f a = .ok r := by
  cases x with
  | error e => cases h
  | ok a => exact ⟨a, rfl, h⟩

/-- **Invariant rule**: what holds at the start and survives a step holds of the result. -/
theorem foldlM_ok_inv {step : σ → β → Except ε σ} {P : σ → Prop}
    (hstep : ∀ s b s', P s → step s b = .ok s' → P s') {bs : List β} {s s' : σ}
    (hs : P s) (h : bs.foldlM step s = .ok s') : P s' := by
  induction bs generalizing s with
  | nil =>
    cases h
    exact hs
  | cons b bs ih =>
    rw [List.foldlM_cons] at h
    obtain ⟨s₁, hb, hrest⟩ := bind_eq_ok h
    exact ih (hstep s b s₁ hs hb) hrest

/-- **Item rule**: what the step of one item establishes and the steps of all items keep
holds of the result. -/
theorem foldlM_ok_mem {step : σ → β → Except ε σ} {P : σ → Prop} {bs : List β}
    (hkeep : ∀ s, ∀ b ∈ bs, ∀ s', P s → step s b = .ok s' → P s') {b : β} (hb : b ∈ bs)
    (hitem : ∀ s s', step s b = .ok s' → P s') {s s' : σ} (h : bs.foldlM step s = .ok s') :
    P s' := by
  have hrun : P s ∨ b ∈ bs := .inr hb
  clear hb
  induction bs generalizing s with
  | nil =>
    cases h
    exact hrun.resolve_right List.not_mem_nil
  | cons b' bs ih =>
    rw [List.foldlM_cons] at h
    obtain ⟨s₁, hb', h⟩ := bind_eq_ok h
    refine ih (fun s b hb => hkeep s b (List.mem_cons_of_mem _ hb)) h ?_
    rcases hrun with hP | hb
    · exact .inl (hkeep s b' List.mem_cons_self s₁ hP hb')
    · rcases List.mem_cons.mp hb with rfl | hb
      · exact .inl (hitem s s₁ hb')
      · exact .inr hb

/-- **Origin rule**: what holds of the result held at the start, or an item brought it about. -/
theorem foldlM_ok_origin {step : σ → β → Except ε σ} {P : σ → Prop} {R : β → Prop}
    (hstep : ∀ s b s', step s b = .ok s' → P s' → P s ∨ R b) {bs : List β} {s s' : σ}
    (h : bs.foldlM step s = .ok s') (hP : P s') : P s ∨ ∃ b ∈ bs, R b := by
  induction bs generalizing s with
  | nil =>
    cases h
    exact .inl hP
  | cons b bs ih =>
    rw [List.foldlM_cons] at h
    obtain ⟨s₁, hb, h⟩ := bind_eq_ok h
    rcases ih h with hs₁ | ⟨b', hb', hR⟩
    · rcases hstep s b s₁ hb hs₁ with hs | hR
      · exact .inl hs
      · exact .inr ⟨b, List.mem_cons_self, hR⟩
    · exact .inr ⟨b', List.mem_cons_of_mem _ hb', hR⟩

/-- **Collector rule**: a fold whose step appends what an item stands for leaves a list with
one entry for each item. -/
theorem foldlM_collect {R : β → α → Prop} {step : List α → β → Except ε (List α)}
    (hstep : ∀ as b as', step as b = .ok as' → ∃ a, R b a ∧ as' = as ++ [a]) {bs : List β}
    {as as' : List α} (h : bs.foldlM step as = .ok as') :
    ∃ new, as' = as ++ new ∧ List.Forall₂ R bs new := by
  induction bs generalizing as with
  | nil =>
    cases h
    exact ⟨[], (List.append_nil as').symm, .nil⟩
  | cons b bs ih =>
    rw [List.foldlM_cons] at h
    obtain ⟨as₁, hb, h⟩ := bind_eq_ok h
    obtain ⟨a, hR, rfl⟩ := hstep as b as₁ hb
    obtain ⟨new, rfl, hnew⟩ := ih h
    exact ⟨a :: new, (List.append_cons as a new).symm, .cons hR hnew⟩

/-- The counterpart of an item stands in the same place. -/
theorem forall₂_getElem? {R : β → α → Prop} {bs : List β} {as : List α}
    (h : List.Forall₂ R bs as) {i : ℕ} {b : β} (hb : bs[i]? = some b) :
    ∃ a, as[i]? = some a ∧ R b a := by
  induction h generalizing i with
  | nil => cases hb
  | @cons b' a' bs as hR _ ih =>
    cases i with
    | zero =>
      cases hb
      exact ⟨a', rfl, hR⟩
    | succ i =>
      rw [List.getElem?_cons_succ] at hb
      obtain ⟨a, ha, hR⟩ := ih hb
      exact ⟨a, by rw [List.getElem?_cons_succ, ha], hR⟩

/-- **Builder rule**: a fold whose state holds the list read so far (`f`), and whose step
appends the item that `b` stands for while there is room, reads the whole list. -/
theorem foldlM_build {R : α → β → Prop} (step : σ → β → Except ε σ) (f : List α → σ) (bound : ℕ)
    (hstep : ∀ done a b, done.length < bound → R a b → step (f done) b = .ok (f (done ++ [a])))
    {as : List α} {bs : List β} (h : List.Forall₂ R as bs) :
    ∀ done, done.length + as.length ≤ bound →
      bs.foldlM step (f done) = .ok (f (done ++ as)) := by
  induction h with
  | nil =>
    intro done _
    rw [List.append_nil]
    rfl
  | @cons a b as bs hab _ ih =>
    intro done hle
    rw [List.length_cons] at hle
    have hrest := ih (done ++ [a]) (by rw [List.length_append, List.length_singleton]; omega)
    rw [List.append_assoc, List.singleton_append] at hrest
    rw [List.foldlM_cons, hstep done a b (by omega) hab]
    exact hrest

/-- A list every item of which has a counterpart has a list of counterparts. -/
theorem exists_forall₂ {R : α → β → Prop} {as : List α} (h : ∀ a ∈ as, ∃ b, R a b) :
    ∃ bs, List.Forall₂ R as bs := by
  induction as with
  | nil => exact ⟨[], .nil⟩
  | cons a as ih =>
    obtain ⟨b, hb⟩ := h a (by simp)
    obtain ⟨bs, hbs⟩ := ih fun a' ha' => h a' (List.mem_cons_of_mem _ ha')
    exact ⟨b :: bs, .cons hb hbs⟩

/-- **Checked folds**: where the checks of every step pass, a checked fold is the plain one. -/
theorem foldlM_eq_some (step : σ → β → σ) (checked : σ → β → Option σ) (P : σ → Prop)
    {bs : List β} (hstep : ∀ s, P s → ∀ b ∈ bs, checked s b = some (step s b) ∧ P (step s b))
    {s : σ} (hs : P s) :
    bs.foldlM checked s = some (bs.foldl step s) ∧ P (bs.foldl step s) := by
  induction bs generalizing s with
  | nil => exact ⟨rfl, hs⟩
  | cons b bs ih =>
    obtain ⟨heq, hP⟩ := hstep s hs b (by simp)
    rw [List.foldlM_cons, heq, List.foldl_cons]
    exact ih (fun s hs b hb => hstep s hs b (List.mem_cons_of_mem _ hb)) hP

/-- **Extreme rule**: a fold that moves on to the key of an item whenever that comes before
the value it holds ends with a value that no key and no start comes before, and that is one
of them. -/
theorem foldl_extreme (lt : σ → σ → Prop) [DecidableRel lt] (hirrefl : ∀ s, ¬lt s s)
    (htrans : ∀ a b c, ¬lt b a → ¬lt c b → ¬lt c a) (hasymm : ∀ a b, lt a b → ¬lt b a)
    (key : β → σ) (bs : List β) (s : σ) :
    let e := bs.foldl (fun s b => if lt (key b) s then key b else s) s
    ¬lt s e ∧ (∀ b ∈ bs, ¬lt (key b) e) ∧ (e = s ∨ ∃ b ∈ bs, e = key b) := by
  induction bs generalizing s with
  | nil => exact ⟨hirrefl s, fun b hb => absurd hb List.not_mem_nil, Or.inl rfl⟩
  | cons b bs ih =>
    rw [List.foldl_cons]
    obtain ⟨hs, hall, hone⟩ := ih (if lt (key b) s then key b else s)
    by_cases hlt : lt (key b) s
    · rw [if_pos hlt] at hs hall hone ⊢
      refine ⟨htrans _ _ _ hs (hasymm _ _ hlt), List.forall_mem_cons.mpr ⟨hs, hall⟩, Or.inr ?_⟩
      rcases hone with heq | ⟨b', hb', heq⟩
      · exact ⟨b, List.mem_cons_self, heq⟩
      · exact ⟨b', List.mem_cons_of_mem b hb', heq⟩
    · rw [if_neg hlt] at hs hall hone ⊢
      refine ⟨hs, List.forall_mem_cons.mpr ⟨htrans _ _ _ hs hlt, hall⟩, ?_⟩
      exact hone.imp id fun ⟨b', hb', heq⟩ => ⟨b', List.mem_cons_of_mem b hb', heq⟩

end UsbTrace.Library
