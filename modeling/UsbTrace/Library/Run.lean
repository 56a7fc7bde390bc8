import Mathlib.Data.List.Chain
import Mathlib.Data.List.Forall2

/-!
# Runs of a deterministic machine that emits output

A machine is a step function `σ → ι → σ × List ο`: it reads one input and answers
with the next state and what it emitted.  `finalState` and `outputs` fold it over a
list of inputs.

Four rules carry the inductions of a development over such a machine:
`finalState_induct` (an invariant of one step holds after every run),
`history_induct` (a relation between the state and a history kept beside it),
`project_run` (a component that each step either drives or leaves alone is, over a
whole run, the component's own machine run on the inputs that drive it), and `chain_run`
(outputs that each go on from the one before do so over a whole run).  `simulate_run` relates
two machines, and `collect_run` a machine and the list of what it has read.
-/

set_option autoImplicit false

namespace UsbTrace.Library

variable {σ τ ι ο : Type}

/-- The state a machine is in after reading `ops` from `s`. -/
def finalState (step : σ → ι → σ × List ο) (s : σ) (ops : List ι) : σ :=
  ops.foldl (fun s i => (step s i).1) s

/-- Everything the machine emits while it reads `ops` from `s`, in order. -/
def outputs (step : σ → ι → σ × List ο) : σ → List ι → List ο
  | _, [] => []
  | s, i :: is => (step s i).2 ++ outputs step (step s i).1 is

@[simp] theorem finalState_nil (step : σ → ι → σ × List ο) (s : σ) :
    finalState step s [] = s := rfl

@[simp] theorem finalState_cons (step : σ → ι → σ × List ο) (s : σ) (i : ι) (is : List ι) :
    finalState step s (i :: is) = finalState step (step s i).1 is := rfl

@[simp] theorem outputs_nil (step : σ → ι → σ × List ο) (s : σ) : outputs step s [] = [] := rfl

@[simp] theorem outputs_cons (step : σ → ι → σ × List ο) (s : σ) (i : ι) (is : List ι) :
    outputs step s (i :: is) = (step s i).2 ++ outputs step (step s i).1 is := rfl

/-- Running a concatenation is running its halves one after the other. -/
theorem finalState_append (step : σ → ι → σ × List ο) (s : σ) (is js : List ι) :
    finalState step s (is ++ js) = finalState step (finalState step s is) js := by
  simp [finalState, List.foldl_append]

/-- The last input of a run takes its step in the state the others lead to. -/
@[simp] theorem finalState_concat (step : σ → ι → σ × List ο) (s : σ) (is : List ι) (i : ι) :
    finalState step s (is ++ [i]) = (step (finalState step s is) i).1 := by
  rw [finalState_append]
  rfl

/-- The output of a concatenation is the output of its halves. -/
theorem outputs_append (step : σ → ι → σ × List ο) (s : σ) (is js : List ι) :
    outputs step s (is ++ js) =
      outputs step s is ++ outputs step (finalState step s is) js := by
  induction is generalizing s with
  | nil => simp
  | cons i is ih => simp [ih]

/-- The last input of a run appends what its own step emits. -/
@[simp] theorem outputs_concat (step : σ → ι → σ × List ο) (s : σ) (is : List ι) (i : ι) :
    outputs step s (is ++ [i]) =
      outputs step s is ++ (step (finalState step s is) i).2 := by
  rw [outputs_append]
  simp

/-- What a run emits, one of its steps emits, in the state the ones before it lead to. -/
theorem mem_outputs {step : σ → ι → σ × List ο} {s : σ} {is : List ι} {o : ο}
    (h : o ∈ outputs step s is) :
    ∃ pre i post, is = pre ++ i :: post ∧ o ∈ (step (finalState step s pre) i).2 := by
  induction is generalizing s with
  | nil => cases h
  | cons i is ih =>
    rcases List.mem_append.mp h with h | h
    · exact ⟨[], i, is, rfl, h⟩
    · obtain ⟨pre, j, post, rfl, ho⟩ := ih h
      exact ⟨i :: pre, j, post, rfl, ho⟩

/-- **The invariant rule.** What every step preserves holds after every run. -/
theorem finalState_induct {step : σ → ι → σ × List ο} {I : σ → Prop}
    (hstep : ∀ s i, I s → I (step s i).1) {s : σ} (hs : I s) (ops : List ι) :
    I (finalState step s ops) := by
  induction ops generalizing s with
  | nil => exact hs
  | cons i is ih => exact ih (hstep s i hs)

/-- A history kept beside a run: `upd` sees the state each input is read in. -/
def history {γ : Type} (step : σ → ι → σ × List ο) (upd : σ → γ → ι → γ) : σ → γ → List ι → γ
  | _, g, [] => g
  | s, g, i :: is => history step upd (step s i).1 (upd s g i) is

/-- The last input of a run updates the history in the state the others lead to. -/
@[simp] theorem history_concat {γ : Type} (step : σ → ι → σ × List ο) (upd : σ → γ → ι → γ)
    (s : σ) (g : γ) (is : List ι) (i : ι) :
    history step upd s g (is ++ [i]) =
      upd (finalState step s is) (history step upd s g is) i := by
  induction is generalizing s g with
  | nil => rfl
  | cons j is ih => exact ih _ _

/-- **The history rule.** A relation between history and state that every admissible
input preserves holds after every run of admissible inputs. -/
theorem history_induct {γ : Type} {step : σ → ι → σ × List ο} {upd : σ → γ → ι → γ}
    {R : γ → σ → Prop} {P : ι → Prop}
    (hstep : ∀ s g i, P i → R g s → R (upd s g i) (step s i).1) {s : σ} {g : γ} (hs : R g s)
    {ops : List ι} (hP : ∀ i ∈ ops, P i) :
    R (history step upd s g ops) (finalState step s ops) := by
  induction ops generalizing s g with
  | nil => exact hs
  | cons i is ih =>
    exact ih (hstep s g i (hP i (by simp)) hs) fun j hj => hP j (List.mem_cons_of_mem _ hj)

/-- The steps of a run, each with the state it is taken in, all satisfy `P`. -/
def EveryStep (step : σ → ι → σ × List ο) (P : σ → ι → Prop) : σ → List ι → Prop
  | _, [] => True
  | s, i :: is => P s i ∧ EveryStep step P (step s i).1 is

instance EveryStep.decidable {step : σ → ι → σ × List ο} {P : σ → ι → Prop}
    [∀ s i, Decidable (P s i)] : (s : σ) → (is : List ι) → Decidable (EveryStep step P s is)
  | _, [] => inferInstanceAs (Decidable True)
  | s, i :: is =>
    have : Decidable (EveryStep step P (step s i).1 is) := EveryStep.decidable _ is
    inferInstanceAs (Decidable (_ ∧ _))

/-- Every step of a concatenation satisfies `P` iff every step of both halves does. -/
theorem everyStep_append {step : σ → ι → σ × List ο} {P : σ → ι → Prop} {s : σ}
    {is js : List ι} :
    EveryStep step P s (is ++ js) ↔
      EveryStep step P s is ∧ EveryStep step P (finalState step s is) js := by
  induction is generalizing s with
  | nil => simp [EveryStep]
  | cons i is ih => simp [EveryStep, ih, and_assoc]

/-- A run that satisfies `P` at every step does so at its last one. -/
theorem everyStep_concat {step : σ → ι → σ × List ο} {P : σ → ι → Prop} {s : σ}
    {is : List ι} {i : ι} :
    EveryStep step P s (is ++ [i]) ↔
      EveryStep step P s is ∧ P (finalState step s is) i := by
  rw [everyStep_append]
  simp [EveryStep]

/-- Every step satisfies `P` iff each step does in the state the ones before it lead to. -/
theorem everyStep_iff {step : σ → ι → σ × List ο} {P : σ → ι → Prop} {s : σ} {is : List ι} :
    EveryStep step P s is ↔
      ∀ pre i post, is = pre ++ i :: post → P (finalState step s pre) i := by
  constructor
  · rintro h pre i post rfl
    exact (everyStep_append.mp h).2.1
  · intro h
    induction is generalizing s with
    | nil => trivial
    | cons i is ih =>
      refine ⟨h [] i is rfl, ih fun pre j post hj => ?_⟩
      exact h (i :: pre) j post (by rw [hj]; rfl)

/-- What holds at every place of a list: at its head, and at every place of its tail. -/
theorem forall_split_cons {P : List ι → ι → Prop} {i : ι} {is : List ι} :
    (∀ pre j post, i :: is = pre ++ j :: post → P pre j) ↔
      P [] i ∧ ∀ pre j post, is = pre ++ j :: post → P (i :: pre) j := by
  constructor
  · exact fun h => ⟨h [] i is rfl, fun pre j post hj => h (i :: pre) j post (by rw [hj]; rfl)⟩
  · rintro ⟨hhead, htail⟩ pre j post heq
    cases pre with
    | nil =>
      cases heq
      exact hhead
    | cons k pre =>
      obtain ⟨rfl, hrest⟩ := List.cons.inj heq
      exact htail pre j post hrest

/-- The empty list has no place. -/
theorem forall_split_nil {P : List ι → ι → Prop} :
    ∀ pre j post, ([] : List ι) = pre ++ j :: post → P pre j := by
  intro pre j post heq
  simp at heq

/-- **The output rule.**  If, under `P`, every step keeps an invariant and emits only what
satisfies `Q`, so does every run of such steps. -/
theorem run_induct {step : σ → ι → σ × List ο} {I : σ → Prop} {P : σ → ι → Prop}
    {Q : ο → Prop}
    (hstep : ∀ s i, I s → P s i → I (step s i).1 ∧ ∀ o ∈ (step s i).2, Q o)
    {s : σ} (hs : I s) {ops : List ι} (hP : EveryStep step P s ops) :
    I (finalState step s ops) ∧ ∀ o ∈ outputs step s ops, Q o := by
  induction ops generalizing s with
  | nil => exact ⟨hs, fun o ho => absurd ho List.not_mem_nil⟩
  | cons i is ih =>
    obtain ⟨hi, hrest⟩ := hP
    obtain ⟨hnext, hout⟩ := hstep s i hs hi
    obtain ⟨hfinal, houts⟩ := ih hnext hrest
    refine ⟨hfinal, fun o ho => ?_⟩
    rcases List.mem_append.mp ho with ho | ho
    · exact hout o ho
    · exact houts o ho

/-- **The projection rule.** Let `view` read a component of the state and `own` be
that component's machine.  If, under an invariant `I`, every step on an input of
interest drives the component as `own` does and every other step leaves it alone and
emits nothing of interest, then over a whole run the component is `own` run on the
inputs of interest alone. -/
theorem project_run {step : σ → ι → σ × List ο} (view : σ → τ)
    (own : τ → ι → τ × List ο) (visible : ι → Bool) (mine : ο → Bool) {I : σ → Prop}
    {P : σ → ι → Prop}
    (hI : ∀ s i, I s → I (step s i).1)
    (hown : ∀ s i, I s → P s i → visible i = true →
      view (step s i).1 = (own (view s) i).1 ∧
        (step s i).2.filter mine = (own (view s) i).2)
    (hother : ∀ s i, I s → P s i → visible i = false →
      view (step s i).1 = view s ∧ (step s i).2.filter mine = [])
    {s : σ} (hs : I s) {ops : List ι} (hP : EveryStep step P s ops) :
    view (finalState step s ops) = finalState own (view s) (ops.filter visible) ∧
      (outputs step s ops).filter mine = outputs own (view s) (ops.filter visible) := by
  induction ops generalizing s with
  | nil => simp
  | cons i is ih =>
    obtain ⟨hi, hrest⟩ := hP
    obtain ⟨hst, hout⟩ := ih (hI s i hs) hrest
    by_cases hv : visible i = true
    · obtain ⟨hview, hemit⟩ := hown s i hs hi hv
      simp [hv, hst, hout, hview, hemit]
    · have hv' : visible i = false := by simpa using hv
      obtain ⟨hview, hemit⟩ := hother s i hs hi hv'
      simp [hv', hst, hout, hview, hemit]

/-- **The simulation rule.**  Two machines that read the same inputs, in related states,
emit related outputs, one for one, if every step keeps the states and the outputs
related. -/
theorem simulate_run {π : Type} {step : σ → ι → σ × List ο} {step' : τ → ι → τ × List π}
    {R : σ → τ → Prop} {Q : ο → π → Prop}
    (hstep : ∀ s t i, R s t →
      R (step s i).1 (step' t i).1 ∧ List.Forall₂ Q (step s i).2 (step' t i).2)
    {s : σ} {t : τ} (h : R s t) (ops : List ι) :
    R (finalState step s ops) (finalState step' t ops) ∧
      List.Forall₂ Q (outputs step s ops) (outputs step' t ops) := by
  induction ops generalizing s t with
  | nil => exact ⟨h, List.Forall₂.nil⟩
  | cons i is ih =>
    obtain ⟨hnext, hout⟩ := hstep s t i h
    obtain ⟨hfinal, houts⟩ := ih hnext
    exact ⟨hfinal, List.rel_append hout houts⟩

/-- **The collecting rule.**  A machine whose state stands for what it has read, and whose
output depends on what it reads, stands after a run for everything read in it, and has said
what is to be said of each. -/
theorem collect_run {β π : Type} {step : σ → ι → σ × List ο} {R : σ → List β → Prop}
    {Q : ο → π → Prop} {read : ι → List β} {told : ι → List π}
    (hstep : ∀ s seen i, R s seen →
      R (step s i).1 (seen ++ read i) ∧ List.Forall₂ Q (step s i).2 (told i))
    {s : σ} (h : R s []) (ops : List ι) :
    R (finalState step s ops) (ops.flatMap read) ∧
      List.Forall₂ Q (outputs step s ops) (ops.flatMap told) := by
  have key : ∀ (is : List ι) (s : σ) (seen : List β), R s seen →
      R (finalState step s is) (seen ++ is.flatMap read) ∧
        List.Forall₂ Q (outputs step s is) (is.flatMap told) := by
    intro is
    induction is with
    | nil => exact fun s seen hs => ⟨by simpa using hs, List.Forall₂.nil⟩
    | cons i is ih =>
      intro s seen hs
      obtain ⟨hnext, hout⟩ := hstep s seen i hs
      obtain ⟨hfinal, houts⟩ := ih _ _ hnext
      rw [List.append_assoc] at hfinal
      exact ⟨hfinal, List.rel_append hout houts⟩
  exact key ops s [] h

/-- **The chain rule.**  Let `After last s` say that the state remembers the last output.  If
every step goes on from the last output as `R` demands, so does every run. -/
theorem chain_run {step : σ → ι → σ × List ο} {R : ο → ο → Prop} {After : Option ο → σ → Prop}
    (hstep : ∀ last s i, After last s →
      (last.toList ++ (step s i).2).IsChain R ∧
        After ((step s i).2.getLast?.or last) (step s i).1)
    {last : Option ο} {s : σ} (h : After last s) (ops : List ι) :
    (last.toList ++ outputs step s ops).IsChain R := by
  induction ops generalizing last s with
  | nil =>
    rw [outputs_nil, List.append_nil]
    cases last with
    | none => exact List.IsChain.nil
    | some o => exact List.isChain_singleton o
  | cons i is ih =>
    obtain ⟨hchain, hafter⟩ := hstep last s i h
    have hrest := ih hafter
    rw [outputs_cons, ← List.append_assoc]
    refine List.isChain_append.mpr ⟨hchain, (List.isChain_append.mp hrest).2.1, ?_⟩
    intro x hx y hy
    have hlast : (last.toList ++ (step s i).2).getLast? = (step s i).2.getLast?.or last := by
      rw [List.getLast?_append]
      cases last <;> rfl
    refine (List.isChain_append.mp hrest).2.2 x ?_ y hy
    rw [← hlast]
    cases h' : (last.toList ++ (step s i).2).getLast? with
    | none =>
      rw [h'] at hx
      cases hx
    | some z =>
      rw [h'] at hx
      exact hx

/-- **The selection rule.**  Let `f` pick the inputs a component takes notice of.  If every
step drives the component as its own machine does on what `f` picks, and leaves it alone where
`f` picks nothing, then over a whole run it is its own machine run on what `f` picks. -/
theorem select_run {κ π : Type} {step : σ → ι → σ × List ο} {own : τ → κ → τ × List π}
    (view : σ → τ) (f : ι → Option κ) (g : ο → π)
    (hsome : ∀ s i k, f i = some k →
      view (step s i).1 = (own (view s) k).1 ∧ (step s i).2.map g = (own (view s) k).2)
    (hnone : ∀ s i, f i = none → view (step s i).1 = view s ∧ (step s i).2 = [])
    (s : σ) (ops : List ι) :
    view (finalState step s ops) = finalState own (view s) (ops.filterMap f) ∧
      (outputs step s ops).map g = outputs own (view s) (ops.filterMap f) := by
  induction ops generalizing s with
  | nil => exact ⟨rfl, rfl⟩
  | cons i is ih =>
    obtain ⟨hst, hout⟩ := ih (step s i).1
    rw [finalState_cons, outputs_cons, List.map_append, hst, hout]
    cases hi : f i with
    | none =>
      obtain ⟨hview, hemit⟩ := hnone s i hi
      rw [List.filterMap_cons_none hi, hview, hemit]
      exact ⟨rfl, rfl⟩
    | some k =>
      obtain ⟨hview, hemit⟩ := hsome s i k hi
      rw [List.filterMap_cons_some hi, hview, hemit]
      exact ⟨rfl, rfl⟩

/-- The last value `f` has on a list. -/
def lastOf {β : Type} (f : ι → Option β) (l : List ι) : Option β := (l.filterMap f).getLast?

@[simp] theorem lastOf_nil {β : Type} (f : ι → Option β) : lastOf f [] = none := rfl

/-- The last item counts, where `f` has a value on it. -/
theorem lastOf_concat {β : Type} (f : ι → Option β) (l : List ι) (i : ι) :
    lastOf f (l ++ [i]) = (f i).or (lastOf f l) := by
  unfold lastOf
  rw [List.filterMap_append, List.getLast?_append]
  cases h : f i <;> simp [List.filterMap, h]

end UsbTrace.Library
