import UsbTrace.Library.Run
import Mathlib.Data.List.Basic

/-!
# Segmentation of a list

A list is cut into segments of items with one key: a segment ends after an item with an
end mark, or just before an item with another key, and what is left over has no end yet.
`Segmentation` says so about a list, its segments and its rest; a list has one
segmentation only (`Segmentation.unique`), and every item is in one segment or in the rest
(`Segmentation.flatten`).  `segmentStep` finds it, an item at a time
(`segmentStep_segmentation`).
-/

set_option autoImplicit false

namespace UsbTrace.Library

variable {α κ : Type} {key : α → κ} {ends : α → Bool}

/-- A segment; `ended` says that it ended with an end mark. -/
structure Segment (α : Type) where
  items : List α
  ended : Bool
deriving DecidableEq, Repr

/-- Items of one key, none with an end mark. -/
def Unbroken (key : α → κ) (ends : α → Bool) (l : List α) : Prop :=
  (∀ a ∈ l, ends a = false) ∧ ∀ a ∈ l, ∀ b ∈ l, key a = key b

/-- The list `l` is cut into the segments `segs`, and `rest` is left over. -/
inductive Segmentation (key : α → κ) (ends : α → Bool) :
    List α → List (Segment α) → List α → Prop where
  /-- No segment ends. -/
  | rest {r : List α} : Unbroken key ends r → Segmentation key ends r [] r
  /-- The first segment ends with an end mark. -/
  | ended {pre post r : List α} {x : α} {segs : List (Segment α)} :
      Unbroken key ends pre → (∀ a ∈ pre, key a = key x) → ends x = true →
      Segmentation key ends post segs r →
      Segmentation key ends (pre ++ x :: post) (⟨pre ++ [x], true⟩ :: segs) r
  /-- The first segment ends before an item with another key. -/
  | broken {pre post r : List α} {x : α} {segs : List (Segment α)} :
      pre ≠ [] → Unbroken key ends pre → (∀ a ∈ pre, key a ≠ key x) →
      Segmentation key ends (x :: post) segs r →
      Segmentation key ends (pre ++ x :: post) (⟨pre, false⟩ :: segs) r

theorem unbroken_nil : Unbroken key ends [] := by
  simp [Unbroken]

/-- An item of the same key without an end mark goes on. -/
theorem Unbroken.concat {l : List α} (h : Unbroken key ends l) {x : α}
    (hkey : ∀ a ∈ l, key a = key x) (hx : ends x = false) : Unbroken key ends (l ++ [x]) := by
  refine ⟨fun a ha => ?_, fun a ha b hb => ?_⟩
  · rcases List.mem_append.mp ha with ha | ha
    · exact h.1 a ha
    · rwa [List.mem_singleton.mp ha]
  · rcases List.mem_append.mp ha with ha | ha <;> rcases List.mem_append.mp hb with hb | hb
    · exact h.2 a ha b hb
    · rw [List.mem_singleton.mp hb, hkey a ha]
    · rw [List.mem_singleton.mp ha, hkey b hb]
    · rw [List.mem_singleton.mp ha, List.mem_singleton.mp hb]

/-- **Every item** is in one segment, in order, or left over. -/
theorem Segmentation.flatten {l rest : List α} {segs : List (Segment α)}
    (h : Segmentation key ends l segs rest) : l = segs.flatMap Segment.items ++ rest := by
  induction h with
  | rest hr => rfl
  | ended _ _ _ _ ih => simp [← ih]
  | broken _ _ _ _ ih => simp [← ih]

/-- Two ways to pick an item out of a list: the same, or one before the other. -/
theorem append_cons_cases {a b c d : List α} {x y : α} (h : a ++ x :: b = c ++ y :: d) :
    (a = c ∧ x = y ∧ b = d) ∨ (∃ m, c = a ++ x :: m) ∨ ∃ m, a = c ++ y :: m := by
  rcases List.append_eq_append_iff.mp h with ⟨m, hc, hx⟩ | ⟨m, ha, hy⟩
  · cases m with
    | nil =>
      obtain ⟨hxy, hbd⟩ := List.cons.inj hx
      exact Or.inl ⟨by simpa using hc.symm, hxy, hbd⟩
    | cons z m => exact Or.inr (Or.inl ⟨m, by rw [hc, (List.cons.inj hx).1]⟩)
  · cases m with
    | nil =>
      obtain ⟨hyx, hdb⟩ := List.cons.inj hy
      exact Or.inl ⟨by simpa using ha, hyx.symm, hdb.symm⟩
    | cons z m => exact Or.inr (Or.inr ⟨m, by rw [ha, (List.cons.inj hy).1]⟩)

/-- An item with an end mark is not within an unbroken list. -/
theorem Unbroken.not_ends {a m : List α} {x : α} (h : Unbroken key ends (a ++ x :: m)) :
    ends x = false := h.1 x (by simp)

/-- Neither is one with another key than an item before it. -/
theorem Unbroken.key_eq {a m : List α} {x : α} (h : Unbroken key ends (a ++ x :: m)) :
    ∀ b ∈ a, key b = key x := fun b hb => h.2 b (by simp [hb]) x (by simp)

/-- **A list has one segmentation.** -/
theorem Segmentation.unique {l rest rest' : List α} {segs segs' : List (Segment α)}
    (h : Segmentation key ends l segs rest) (h' : Segmentation key ends l segs' rest') :
    segs = segs' ∧ rest = rest' := by
  induction h generalizing segs' rest' with
  | rest hr =>
    cases h' with
    | rest _ => exact ⟨rfl, rfl⟩
    | ended _ _ hx _ => exact absurd hr.not_ends (by simp [hx])
    | @broken pre _ _ _ _ hne _ hkey _ =>
      obtain ⟨a, ha⟩ := List.exists_mem_of_ne_nil pre hne
      exact absurd (hr.key_eq a ha) (hkey a ha)
  | @ended pre post r x segs hpre hkey hx hrest ih =>
    generalize hl : pre ++ x :: post = l at h'
    cases h' with
    | rest hr =>
      subst hl
      exact absurd hr.not_ends (by simp [hx])
    | ended hpre' _ hx' hrest' =>
      rcases append_cons_cases hl with ⟨rfl, rfl, rfl⟩ | ⟨m, rfl⟩ | ⟨m, rfl⟩
      · obtain ⟨rfl, rfl⟩ := ih hrest'
        exact ⟨rfl, rfl⟩
      · exact absurd hpre'.not_ends (by simp [hx])
      · exact absurd hpre.not_ends (by simp [hx'])
    | @broken pre' _ _ _ _ hne' hpre' hkey' _ =>
      obtain ⟨a, ha⟩ := List.exists_mem_of_ne_nil pre' hne'
      rcases append_cons_cases hl with ⟨rfl, rfl, rfl⟩ | ⟨m, rfl⟩ | ⟨m, rfl⟩
      · exact absurd (hkey a ha) (hkey' a ha)
      · exact absurd hpre'.not_ends (by simp [hx])
      · exact absurd (hpre.key_eq a ha) (hkey' a ha)
  | @broken pre post r x segs hne hpre hkey hrest ih =>
    obtain ⟨a, ha⟩ := List.exists_mem_of_ne_nil pre hne
    generalize hl : pre ++ x :: post = l at h'
    cases h' with
    | rest hr =>
      subst hl
      exact absurd (hr.key_eq a ha) (hkey a ha)
    | ended hpre' hkey' hx' _ =>
      rcases append_cons_cases hl with ⟨rfl, rfl, rfl⟩ | ⟨m, rfl⟩ | ⟨m, rfl⟩
      · exact absurd (hkey' a ha) (hkey a ha)
      · exact absurd (hpre'.key_eq a ha) (hkey a ha)
      · exact absurd hpre.not_ends (by simp [hx'])
    | @broken pre' _ _ _ _ hne' hpre' hkey' hrest' =>
      obtain ⟨b, hb⟩ := List.exists_mem_of_ne_nil pre' hne'
      rcases append_cons_cases hl with ⟨rfl, rfl, rfl⟩ | ⟨m, rfl⟩ | ⟨m, rfl⟩
      · obtain ⟨rfl, rfl⟩ := ih hrest'
        exact ⟨rfl, rfl⟩
      · exact absurd (hpre'.key_eq a ha) (hkey a ha)
      · exact absurd (hpre.key_eq b hb) (hkey' b hb)

/-! ## The segmenter -/

/-- The items of a segment renamed. -/
def Segment.map {β : Type} (f : α → β) (s : Segment α) : Segment β := ⟨s.items.map f, s.ended⟩

variable [DecidableEq κ]

/-- The item has another key than the segment in the making. -/
def cutsOff (key : α → κ) (s : List α) (x : α) : Bool := s.any fun a => key a ≠ key x

/-- The segment in the making with the item in it; a segment of its own where it cuts that
off. -/
def segmentWith (key : α → κ) (s : List α) (x : α) : List α :=
  if cutsOff key s x then [x] else s ++ [x]

/-- The segment the item cuts off. -/
def segmentLost (key : α → κ) (s : List α) (x : α) : List (Segment α) :=
  if cutsOff key s x then [⟨s, false⟩] else []

/-- One item: it ends the segment in the making where it has another key, and its own segment
where it has an end mark. -/
def segmentStep (key : α → κ) (ends : α → Bool) (s : List α) (x : α) :
    List α × List (Segment α) :=
  if ends x then ([], segmentLost key s x ++ [⟨segmentWith key s x, true⟩])
  else (segmentWith key s x, segmentLost key s x)

/-- Items that are not cut off have the key of the next one. -/
theorem key_of_not_cutsOff {s : List α} {x : α} (h : cutsOff key s x = false) :
    ∀ a ∈ s, key a = key x := by
  intro a ha
  simpa using List.any_eq_false.mp h a ha

/-- Items that are cut off all have another one. -/
theorem key_of_cutsOff {s : List α} (hs : Unbroken key ends s) {x : α}
    (h : cutsOff key s x = true) : s ≠ [] ∧ ∀ a ∈ s, key a ≠ key x := by
  obtain ⟨b, hb, hne⟩ := List.any_eq_true.mp h
  have hne : key b ≠ key x := by simpa using hne
  exact ⟨List.ne_nil_of_mem hb, fun a ha => hs.2 a ha b hb ▸ hne⟩

/-- **The segmenter** cuts a list into its segments. -/
theorem segmentStep_segmentation {s : List α} (hs : Unbroken key ends s) (xs : List α) :
    Segmentation key ends (s ++ xs) (outputs (segmentStep key ends) s xs)
      (finalState (segmentStep key ends) s xs) := by
  induction xs generalizing s with
  | nil =>
    rw [List.append_nil]
    exact Segmentation.rest hs
  | cons x xs ih =>
    have hnil : ∀ a ∈ ([] : List α), key a = key x := fun a ha => absurd ha List.not_mem_nil
    rw [outputs_cons, finalState_cons, segmentStep, segmentLost, segmentWith]
    cases hcut : cutsOff key s x with
    | true =>
      obtain ⟨hne, hkey⟩ := key_of_cutsOff hs hcut
      simp only [if_true]
      cases hend : ends x with
      | true =>
        simp only [if_true]
        have hended := Segmentation.ended unbroken_nil hnil hend (ih unbroken_nil)
        exact Segmentation.broken hne hs hkey hended
      | false =>
        simp only [Bool.false_eq_true, if_false]
        exact Segmentation.broken hne hs hkey (ih (unbroken_nil.concat hnil hend))
    | false =>
      have hkey := key_of_not_cutsOff hcut
      simp only [Bool.false_eq_true, if_false]
      cases hend : ends x with
      | true =>
        simp only [if_true]
        exact Segmentation.ended hs hkey hend (ih unbroken_nil)
      | false =>
        simp only [Bool.false_eq_true, if_false]
        rw [List.append_cons]
        exact ih (hs.concat hkey hend)

/-- **Renaming** the items renames those of the segments. -/
theorem segmentStep_map {β : Type} (f : β → α) (s xs : List β) :
    (finalState (segmentStep (key ∘ f) (ends ∘ f)) s xs).map f =
        finalState (segmentStep key ends) (s.map f) (xs.map f) ∧
      (outputs (segmentStep (key ∘ f) (ends ∘ f)) s xs).map (Segment.map f) =
        outputs (segmentStep key ends) (s.map f) (xs.map f) := by
  have hcut : ∀ s x, cutsOff (key ∘ f) s x = cutsOff key (s.map f) (f x) := by
    intro s x
    rw [cutsOff, cutsOff, List.any_map]
    rfl
  have hone : ∀ s x, (segmentStep (key ∘ f) (ends ∘ f) s x).1.map f =
        (segmentStep key ends (s.map f) (f x)).1 ∧
      (segmentStep (key ∘ f) (ends ∘ f) s x).2.map (Segment.map f) =
        (segmentStep key ends (s.map f) (f x)).2 := by
    intro s x
    simp only [segmentStep, segmentLost, segmentWith, hcut, Function.comp_apply]
    split <;> split <;> simp [Segment.map]
  have hsome : ∀ s x k, some (f x) = some k →
      (segmentStep (key ∘ f) (ends ∘ f) s x).1.map f = (segmentStep key ends (s.map f) k).1 ∧
      (segmentStep (key ∘ f) (ends ∘ f) s x).2.map (Segment.map f) =
        (segmentStep key ends (s.map f) k).2 := by
    intro s x k hk
    cases hk
    exact hone s x
  have hrun := select_run (List.map f) (fun x => some (f x)) (Segment.map f) hsome
    (fun s x hx => by cases hx) s xs
  rwa [List.filterMap_eq_map'] at hrun

end UsbTrace.Library
