import UsbTrace.Interface.Device

/-!
# Device isolation

Two runs that agree on one device's events and on the ticks, and differ only in the
events of other devices between them, print the same findings for that device and
leave it the same window, as long as neither run recycles a slot.  The device may live
in different slots in the two runs; both are projected onto its own machine.
-/

set_option autoImplicit false

namespace UsbTrace.Analysis

open UsbTrace.Model UsbTrace.Library UsbTrace.Interface

/-- The operations a device sees: its own events and every tick. -/
def concerns (k : DiagDevkey) : EngineOp → Bool
  | .ingest evt _ => decide (diagEventKey evt = k)
  | .tick _ => true

/-- No event of a device without a window arrives while all 128 slots are used. -/
def NoRecycling (rules : List DiagRule) (ops : List EngineOp) : Prop :=
  EveryStep engineStep (fun e op => ¬Recycles e.devs op) (diagEngineCreate rules) ops

/-- An operation that does not concern a device leaves its machine as it is. -/
theorem deviceStep_other {rules : List DiagRule} {k : DiagDevkey} {op : EngineOp}
    (h : concerns k op = false) (ow : Option Devwin) : deviceStep rules k ow op = (ow, []) := by
  cases op with
  | ingest evt clock =>
    have hk : diagEventKey evt ≠ k := by simpa [concerns] using h
    simp [deviceStep, hk]
  | tick nowNs => simp [concerns] at h

/-- **A device's part of a run** without recycling is its own machine run on the
operations that concern it. -/
theorem engineAfter_project (rules : List DiagRule) (k : DiagDevkey) (ops : List EngineOp)
    (hops : NoRecycling rules ops) :
    devLookup (engineAfter rules ops).devs k =
        finalState (deviceStep rules k) none (ops.filter (concerns k)) ∧
      (engineFindings rules ops).filter (ofDevice k) =
        outputs (deviceStep rules k) none (ops.filter (concerns k)) := by
  let I : DiagEngine → Prop := fun e => KeysUnique e.devs ∧ e.rules = rules
  have hI : ∀ e op, I e → I (engineStep e op).1 := fun e op he =>
    ⟨engineStep_keysUnique e op he.1, by rw [engineStep_rules, he.2]⟩
  have hstep : ∀ e op, I e → ¬Recycles e.devs op →
      devLookup (engineStep e op).1.devs k = (deviceStep rules k (devLookup e.devs k) op).1 ∧
        (engineStep e op).2.filter (ofDevice k) =
          (deviceStep rules k (devLookup e.devs k) op).2 := by
    rintro e op ⟨hu, rfl⟩ hrec
    refine ⟨?_, engineStep_findings hu k op⟩
    rcases engineStep_lookup hu k op with h | ⟨h, -⟩
    · exact h
    · exact absurd h hrec
  have hrun := project_run (fun e => devLookup e.devs k) (deviceStep rules k) (concerns k)
    (ofDevice k) hI (fun e op he hrec _ => hstep e op he hrec)
    (fun e op he hrec hc => by
      have h := hstep e op he hrec
      rw [deviceStep_other hc] at h
      exact h)
    ⟨keysUnique_create rules, rfl⟩ hops
  rw [devLookup_create] at hrun
  exact hrun

/-- **Device isolation.**
SOURCE: engine.c:220-248, 562-661 -/
theorem device_isolation (rules : List DiagRule) (k : DiagDevkey) (ops₁ ops₂ : List EngineOp)
    (h₁ : NoRecycling rules ops₁) (h₂ : NoRecycling rules ops₂)
    (hsame : ops₁.filter (concerns k) = ops₂.filter (concerns k)) :
    (engineFindings rules ops₁).filter (ofDevice k) =
        (engineFindings rules ops₂).filter (ofDevice k) ∧
      devLookup (engineAfter rules ops₁).devs k = devLookup (engineAfter rules ops₂).devs k := by
  obtain ⟨hw₁, hf₁⟩ := engineAfter_project rules k ops₁ h₁
  obtain ⟨hw₂, hf₂⟩ := engineAfter_project rules k ops₂ h₂
  rw [hw₁, hf₁, hw₂, hf₂, hsame]
  exact ⟨rfl, rfl⟩

/-- A device that transfers data while another one disconnects, and alone. -/
theorem device_isolation_sample :
    let rule : DiagRule := { trigger := { kind := some 1 } }
    let own : EngineOp := .ingest { kind := 1, tsNs := 5, busnum := 1, devnum := 2 } fun _ => 9
    let other : EngineOp :=
      .ingest { kind := 4, tsNs := 4, busnum := 1, devnum := 3, action := 1 } fun _ => 8
    (engineFindings [rule] [other, own, .tick 20]).filter (ofDevice ⟨1, 2⟩) =
        (engineFindings [rule] [own, .tick 20]).filter (ofDevice ⟨1, 2⟩) ∧
      devLookup (engineAfter [rule] [other, own, .tick 20]).devs ⟨1, 2⟩ =
        devLookup (engineAfter [rule] [own, .tick 20]).devs ⟨1, 2⟩ := by
  intro rule own other
  refine device_isolation [rule] ⟨1, 2⟩ _ _ ?_ ?_ ?_
  · refine ⟨fun h => ?_, fun h => ?_, fun h => h, trivial⟩
    · exact absurd (h.2 ⟨1, by decide⟩) (by decide)
    · exact absurd (h.2 ⟨1, by decide⟩) (by decide)
  · refine ⟨fun h => ?_, fun h => h, trivial⟩
    exact absurd (h.2 ⟨1, by decide⟩) (by decide)
  · rfl

end UsbTrace.Analysis
