import Mathlib.Data.List.Count
import Mathlib.Data.List.Perm.Basic

/-!
# Interleavings of several sources

A list of tagged items interleaves a family of sources when, for every tag, the items
with that tag are that source's, in its own order.  Two interleavings of the same sources
deliver the same items, in different orders: `Interleaves.perm`.
-/

set_option autoImplicit false

namespace UsbTrace.Library

variable {ι α β : Type} [DecidableEq ι]

/-- `l` interleaves `sources`: the items tagged `s` are those of source `s`, in order. -/
def Interleaves (tag : α → ι) (val : α → β) (sources : ι → List β) (l : List α) : Prop :=
  ∀ s, (l.filter fun x => tag x = s).map val = sources s

/-- How often an item comes from a source is how often the source holds it. -/
theorem Interleaves.count [DecidableEq β] {tag : α → ι} {val : α → β} {sources : ι → List β}
    {l : List α} (h : Interleaves tag val sources l) (s : ι) (b : β) :
    (l.map fun x => (tag x, val x)).count (s, b) = (sources s).count b := by
  rw [← h s, List.count, List.count, List.countP_map, List.countP_map, List.countP_filter]
  refine List.countP_congr fun x _ => ?_
  simp [and_comm]

/-- **Two interleavings of the same sources are permutations of each other.** -/
theorem Interleaves.perm [DecidableEq β] {tag : α → ι} {val : α → β} {sources : ι → List β}
    {l₁ l₂ : List α} (h₁ : Interleaves tag val sources l₁)
    (h₂ : Interleaves tag val sources l₂) : (l₁.map val).Perm (l₂.map val) := by
  have hpairs : (l₁.map fun x => (tag x, val x)).Perm (l₂.map fun x => (tag x, val x)) := by
    refine List.perm_iff_count.mpr fun p => ?_
    rw [h₁.count p.1 p.2, h₂.count p.1 p.2]
  simpa [List.map_map, Function.comp_def] using hpairs.map Prod.snd

end UsbTrace.Library
