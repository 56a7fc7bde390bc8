import Mathlib.Data.List.Nodup
import Mathlib.Data.Finset.Card

/-!
# Maps of bounded size

A finite map with room for `cap` keys, in which an update of a new key fails silently when
all places are taken, as in a preallocated kernel hash map.  The three operations keep the
keys distinct and their number within the capacity by construction.
-/

set_option autoImplicit false

namespace UsbTrace.Library

/-- A map with at most `cap` entries, one for each key. -/
structure BoundedMap (κ ν : Type) (cap : ℕ) where
  entries : List (κ × ν)
  nodup : (entries.map Prod.fst).Nodup
  length_le : entries.length ≤ cap

namespace BoundedMap

variable {κ ν : Type} [DecidableEq κ] {cap : ℕ}

/-- The map with no entry. -/
def empty : BoundedMap κ ν cap := ⟨[], List.nodup_nil, Nat.zero_le _⟩

/-- The value of a key. -/
def lookup (m : BoundedMap κ ν cap) (k : κ) : Option ν :=
  (m.entries.find? fun e => e.1 = k).map Prod.snd

/-- The entries with the value of a key replaced. -/
def replace (k : κ) (v : ν) (es : List (κ × ν)) : List (κ × ν) :=
  es.map fun e => if e.1 = k then (k, v) else e

/-- The entries of the other keys. -/
def others (k : κ) (es : List (κ × ν)) : List (κ × ν) := es.filter fun e => e.1 ≠ k

theorem map_fst_replace (k : κ) (v : ν) (es : List (κ × ν)) :
    (replace k v es).map Prod.fst = es.map Prod.fst := by
  rw [replace, List.map_map]
  refine List.map_congr_left fun e _ => ?_
  by_cases h : e.1 = k <;> simp [h]

/-- Set the value of a key; a new key is left out where there is no place for it. -/
def update (m : BoundedMap κ ν cap) (k : κ) (v : ν) : BoundedMap κ ν cap :=
  if hk : k ∈ m.entries.map Prod.fst then
    { entries := replace k v m.entries
      nodup := by rw [map_fst_replace]; exact m.nodup
      length_le := by rw [replace, List.length_map]; exact m.length_le }
  else if hroom : m.entries.length < cap then
    { entries := (k, v) :: m.entries
      nodup := List.nodup_cons.mpr ⟨hk, m.nodup⟩
      length_le := hroom }
  else m

/-- Remove a key. -/
def delete (m : BoundedMap κ ν cap) (k : κ) : BoundedMap κ ν cap where
  entries := others k m.entries
  nodup := m.nodup.sublist (List.filter_sublist.map Prod.fst)
  length_le := Nat.le_trans (List.length_filter_le _ _) m.length_le

/-- The value of a key, which is first given the value `init` where it has none; nothing
where there is no place for it. -/
def lookupOrInit (m : BoundedMap κ ν cap) (k : κ) (init : ν) : BoundedMap κ ν cap × Option ν :=
  match m.lookup k with
  | some v => (m, some v)
  | none =>
    let m := m.update k init
    (m, m.lookup k)

/-- Rewrite every value. -/
def mapValues (m : BoundedMap κ ν cap) (f : ν → ν) : BoundedMap κ ν cap where
  entries := m.entries.map fun e => (e.1, f e.2)
  nodup := by rw [List.map_map]; exact m.nodup
  length_le := by rw [List.length_map]; exact m.length_le

/-- The key is in the map, or there is a place for it. -/
def HasRoom (m : BoundedMap κ ν cap) (k : κ) : Prop :=
  k ∈ m.entries.map Prod.fst ∨ m.entries.length < cap

instance (m : BoundedMap κ ν cap) (k : κ) : Decidable (m.HasRoom k) :=
  inferInstanceAs (Decidable (_ ∨ _))

@[simp] theorem lookup_empty (k : κ) : (empty : BoundedMap κ ν cap).lookup k = none := rfl

theorem find?_replace_self {k : κ} (v : ν) {es : List (κ × ν)} (h : k ∈ es.map Prod.fst) :
    (replace k v es).find? (fun e => e.1 = k) = some (k, v) := by
  induction es with
  | nil => cases h
  | cons e es ih =>
    by_cases he : e.1 = k
    · simp [replace, he]
    · have hmem : k ∈ es.map Prod.fst := by
        rcases List.mem_cons.mp h with h | h
        · exact absurd h.symm he
        · exact h
      rw [replace, List.map_cons, if_neg he, List.find?_cons_of_neg (by simpa using he)]
      exact ih hmem

theorem find?_replace_of_ne {k k' : κ} (hne : k' ≠ k) (v : ν) (es : List (κ × ν)) :
    (replace k v es).find? (fun e => e.1 = k') = es.find? fun e => e.1 = k' := by
  induction es with
  | nil => rfl
  | cons e es ih =>
    by_cases he : e.1 = k
    · have hk' : ¬e.1 = k' := fun h => hne (h ▸ he)
      rw [replace, List.map_cons, if_pos he, List.find?_cons_of_neg (by simpa using hne.symm),
        List.find?_cons_of_neg (by simpa using hk')]
      exact ih
    · rw [replace, List.map_cons, if_neg he, List.find?_cons, List.find?_cons]
      split
      · rfl
      · exact ih

/-- **An update that finds room** sets the key. -/
theorem lookup_update_self {m : BoundedMap κ ν cap} {k : κ} (h : m.HasRoom k) (v : ν) :
    (m.update k v).lookup k = some v := by
  by_cases hk : k ∈ m.entries.map Prod.fst
  · rw [update, dif_pos hk, lookup, find?_replace_self v hk, Option.map_some]
  · rw [update, dif_neg hk, dif_pos (h.resolve_left hk), lookup, List.find?_cons_of_pos (by simp),
      Option.map_some]

/-- An update leaves the other keys alone. -/
theorem lookup_update_of_ne (m : BoundedMap κ ν cap) {k k' : κ} (hne : k' ≠ k) (v : ν) :
    (m.update k v).lookup k' = m.lookup k' := by
  unfold update
  split
  · rw [lookup, find?_replace_of_ne hne]
    rfl
  · split
    · rw [lookup, List.find?_cons_of_neg (by simpa using hne.symm)]
      rfl
    · rfl

/-- An update that finds no room changes nothing. -/
theorem update_of_not_hasRoom {m : BoundedMap κ ν cap} {k : κ} (h : ¬m.HasRoom k) (v : ν) :
    m.update k v = m := by
  rw [HasRoom, not_or] at h
  rw [update, dif_neg h.1, dif_neg h.2]

/-- A value after an update is the one set, or was there before. -/
theorem lookup_update_cases {m : BoundedMap κ ν cap} {k k' : κ} {v w : ν}
    (h : (m.update k v).lookup k' = some w) : (k' = k ∧ w = v) ∨ m.lookup k' = some w := by
  by_cases hk : k' = k
  · by_cases hroom : m.HasRoom k
    · rw [hk, lookup_update_self hroom, Option.some.injEq] at h
      exact Or.inl ⟨hk, h.symm⟩
    · right
      rwa [update_of_not_hasRoom hroom] at h
  · right
    rwa [lookup_update_of_ne m hk] at h

/-- A key with a value is in the map. -/
theorem hasRoom_of_lookup {m : BoundedMap κ ν cap} {k : κ} {v : ν} (h : m.lookup k = some v) :
    m.HasRoom k := by
  obtain ⟨e, he, -⟩ := Option.map_eq_some_iff.mp h
  have hk : e.1 = k := by simpa using List.find?_some he
  exact Or.inl (hk ▸ List.mem_map_of_mem (List.mem_of_find?_eq_some he))

/-- A value of a key after its update is the one set, also where there was no place. -/
theorem eq_of_lookup_update {m : BoundedMap κ ν cap} {k : κ} {v w : ν}
    (h : (m.update k v).lookup k = some w) : w = v := by
  rcases lookup_update_cases h with ⟨-, hw⟩ | hold
  · exact hw
  · rw [lookup_update_self (hasRoom_of_lookup hold)] at h
    exact (Option.some.inj h).symm

/-- An update with the value a key has already changes nothing. -/
theorem lookup_update_same {m : BoundedMap κ ν cap} {k : κ} {v : ν} (h : m.lookup k = some v)
    (k' : κ) : (m.update k v).lookup k' = m.lookup k' := by
  by_cases hk : k' = k
  · rw [hk, lookup_update_self (hasRoom_of_lookup h), h]
  · exact lookup_update_of_ne m hk v

/-- A key in the map has a value. -/
theorem lookup_of_mem {m : BoundedMap κ ν cap} {k : κ} (h : k ∈ m.entries.map Prod.fst) :
    ∃ v, m.lookup k = some v := by
  obtain ⟨e, he, rfl⟩ := List.mem_map.mp h
  obtain ⟨e', he'⟩ := Option.isSome_iff_exists.mp
    (List.find?_isSome.mpr ⟨e, he, by simp⟩ :
      (m.entries.find? fun x => decide (x.1 = e.1)).isSome = true)
  exact ⟨e'.2, by rw [lookup, he', Option.map_some]⟩

/-- The entries are the keys with their values. -/
theorem mem_entries_iff {m : BoundedMap κ ν cap} {k : κ} {v : ν} :
    (k, v) ∈ m.entries ↔ m.lookup k = some v := by
  constructor
  · intro hmem
    obtain ⟨w, hw⟩ := lookup_of_mem (List.mem_map_of_mem hmem)
    obtain ⟨e, he, rfl⟩ := Option.map_eq_some_iff.mp hw
    have hk : e.1 = k := by simpa using List.find?_some he
    have hsame : e = (k, v) :=
      List.inj_on_of_nodup_map m.nodup (List.mem_of_find?_eq_some he) hmem hk
    rw [hw, hsame]
  · intro hv
    obtain ⟨e, he, rfl⟩ := Option.map_eq_some_iff.mp hv
    have hk : e.1 = k := by simpa using List.find?_some he
    exact hk ▸ List.mem_of_find?_eq_some he

/-- **A map has room** for a key of a set that holds all its keys and is no larger than its
capacity. -/
theorem hasRoom_of_card {m : BoundedMap κ ν cap} {S : Finset κ} (hcard : S.card ≤ cap)
    (hS : ∀ k v, m.lookup k = some v → k ∈ S) {k : κ} (hk : k ∈ S) : m.HasRoom k := by
  by_cases hmem : k ∈ m.entries.map Prod.fst
  · exact Or.inl hmem
  · right
    have hsub : (m.entries.map Prod.fst).toFinset ⊆ S.erase k := by
      intro k' hk'
      rw [List.mem_toFinset] at hk'
      obtain ⟨v, hv⟩ := lookup_of_mem hk'
      exact Finset.mem_erase.mpr ⟨fun heq => hmem (heq ▸ hk'), hS k' v hv⟩
    have hle := Finset.card_le_card hsub
    have hlen : m.entries.length = (m.entries.map Prod.fst).toFinset.card := by
      rw [List.toFinset_card_of_nodup m.nodup, List.length_map]
    have hpos : 0 < S.card := Finset.card_pos.mpr ⟨k, hk⟩
    rw [Finset.card_erase_of_mem hk] at hle
    omega

/-- **No more keys than places** have a value. -/
theorem card_le_of_lookup {m : BoundedMap κ ν cap} {S : Finset κ}
    (hS : ∀ k ∈ S, (m.lookup k).isSome) : S.card ≤ cap := by
  have hsub : S ⊆ (m.entries.map Prod.fst).toFinset := by
    intro k hk
    obtain ⟨v, hv⟩ := Option.isSome_iff_exists.mp (hS k hk)
    obtain ⟨e, he, -⟩ := Option.map_eq_some_iff.mp hv
    have hkey : e.1 = k := by simpa using List.find?_some he
    exact List.mem_toFinset.mpr
      (hkey ▸ List.mem_map_of_mem (List.mem_of_find?_eq_some he))
  calc S.card ≤ (m.entries.map Prod.fst).toFinset.card := Finset.card_le_card hsub
    _ ≤ (m.entries.map Prod.fst).length := List.toFinset_card_le _
    _ = m.entries.length := List.length_map _
    _ ≤ cap := m.length_le

/-- **A key that has room** has a value after the lookup, its own or the initial one. -/
theorem lookupOrInit_of_hasRoom {m : BoundedMap κ ν cap} {k : κ} (h : m.HasRoom k) (init : ν) :
    (m.lookupOrInit k init).2 = some ((m.lookup k).getD init) ∧
      (m.lookupOrInit k init).1.lookup k = some ((m.lookup k).getD init) := by
  unfold lookupOrInit
  split
  · next v hv =>
    rw [hv, Option.getD_some]
    exact ⟨rfl, rfl⟩
  · next hv =>
    rw [hv, Option.getD_none]
    exact ⟨lookup_update_self h init, lookup_update_self h init⟩

/-- **A key without room** has no value, and gets none. -/
theorem lookupOrInit_of_not_hasRoom {m : BoundedMap κ ν cap} {k : κ} (h : ¬m.HasRoom k)
    (init : ν) : m.lookupOrInit k init = (m, none) := by
  have hnone : m.lookup k = none := by
    cases hm : m.lookup k with
    | none => rfl
    | some v => exact absurd (hasRoom_of_lookup hm) h
  unfold lookupOrInit
  rw [hnone]
  dsimp only
  rw [update_of_not_hasRoom h, hnone]

/-- The lookup leaves the other keys alone. -/
theorem lookupOrInit_of_ne (m : BoundedMap κ ν cap) {k k' : κ} (hne : k' ≠ k) (init : ν) :
    (m.lookupOrInit k init).1.lookup k' = m.lookup k' := by
  unfold lookupOrInit
  split
  · rfl
  · exact lookup_update_of_ne m hne init

/-- The value it answers with is the value of the key after it. -/
theorem lookupOrInit_snd (m : BoundedMap κ ν cap) (k : κ) (init : ν) :
    (m.lookupOrInit k init).2 = (m.lookupOrInit k init).1.lookup k := by
  unfold lookupOrInit
  split
  · next v hv => exact hv.symm
  · rfl

/-- The lookup leaves every key alone, or gives a key without a value the initial one. -/
theorem lookupOrInit_cases (m : BoundedMap κ ν cap) (k : κ) (init : ν) (k' : κ) :
    (m.lookupOrInit k init).1.lookup k' = m.lookup k' ∨
      k' = k ∧ m.lookup k = none ∧ (m.lookupOrInit k init).1.lookup k = some init := by
  by_cases hk : k' = k
  · rw [hk]
    unfold lookupOrInit
    cases hm : m.lookup k with
    | some v => exact Or.inl hm
    | none =>
      dsimp only
      cases hnew : (m.update k init).lookup k with
      | none => exact Or.inl rfl
      | some w =>
        rcases lookup_update_cases hnew with ⟨-, hw⟩ | hold
        · exact Or.inr ⟨rfl, rfl, by rw [hw]⟩
        · rw [hm] at hold
          cases hold
  · exact Or.inl (lookupOrInit_of_ne m hk init)

/-- A removed key has no value. -/
theorem lookup_delete_self (m : BoundedMap κ ν cap) (k : κ) : (m.delete k).lookup k = none := by
  have hnone : (others k m.entries).find? (fun e => e.1 = k) = none := by
    refine List.find?_eq_none.mpr fun e he => ?_
    simpa [others] using (List.mem_filter.mp he).2
  rw [lookup, delete, hnone, Option.map_none]

/-- A removal leaves the other keys alone. -/
theorem lookup_delete_of_ne (m : BoundedMap κ ν cap) {k k' : κ} (hne : k' ≠ k) :
    (m.delete k).lookup k' = m.lookup k' := by
  have hfind : (others k m.entries).find? (fun e => e.1 = k') =
      m.entries.find? fun e => e.1 = k' := by
    rw [others, List.find?_filter]
    congr 1
    funext e
    by_cases he : e.1 = k' <;> simp [he, hne]
  rw [lookup, delete, hfind]
  rfl

/-- The keys after a removal. -/
theorem lookup_delete (m : BoundedMap κ ν cap) (k k' : κ) :
    (m.delete k).lookup k' = if k' = k then none else m.lookup k' := by
  split
  · next h => rw [h, lookup_delete_self]
  · next h => rw [lookup_delete_of_ne m h]

/-- Where a key is not there, taking it out changes nothing. -/
theorem lookup_of_lookup_none {m : BoundedMap κ ν cap} {k : κ} (h : m.lookup k = none) (k' : κ) :
    m.lookup k' = if k' = k then none else m.lookup k' := by
  split
  · next heq => rw [heq, h]
  · rfl

@[simp] theorem lookup_mapValues (m : BoundedMap κ ν cap) (f : ν → ν) (k : κ) :
    (m.mapValues f).lookup k = (m.lookup k).map f := by
  rw [lookup, lookup, mapValues, List.find?_map, Option.map_map, Option.map_map]
  rfl

/-! ## Keys -/

/-- The keys, the latest first. -/
def keys (m : BoundedMap κ ν cap) : List κ := m.entries.map Prod.fst

theorem mem_keys_iff {m : BoundedMap κ ν cap} {k : κ} : k ∈ m.keys ↔ (m.lookup k).isSome := by
  constructor
  · intro h
    obtain ⟨v, hv⟩ := lookup_of_mem h
    rw [hv]
    rfl
  · intro h
    obtain ⟨v, hv⟩ := Option.isSome_iff_exists.mp h
    obtain ⟨e, he, -⟩ := Option.map_eq_some_iff.mp hv
    have hk : e.1 = k := by simpa using List.find?_some he
    exact hk ▸ List.mem_map_of_mem (List.mem_of_find?_eq_some he)

omit [DecidableEq κ] in
@[simp] theorem keys_mapValues (m : BoundedMap κ ν cap) (f : ν → ν) :
    (m.mapValues f).keys = m.keys := by
  rw [keys, keys, mapValues, List.map_map]
  rfl

/-- The keys after an update. -/
theorem keys_update (m : BoundedMap κ ν cap) (k : κ) (v : ν) :
    (m.update k v).keys =
      if k ∈ m.keys then m.keys else if m.keys.length < cap then k :: m.keys else m.keys := by
  have hlen : m.keys.length = m.entries.length := List.length_map _
  unfold update
  by_cases hk : k ∈ m.keys
  · rw [dif_pos (show k ∈ m.entries.map Prod.fst from hk), if_pos hk]
    exact map_fst_replace k v m.entries
  · rw [dif_neg (show k ∉ m.entries.map Prod.fst from hk), if_neg hk, hlen]
    split
    · rfl
    · rfl

theorem keys_lookupOrInit (m : BoundedMap κ ν cap) (k : κ) (init : ν) :
    (m.lookupOrInit k init).1.keys = (m.update k init).keys := by
  unfold lookupOrInit
  cases h : m.lookup k with
  | none => rfl
  | some v =>
    rw [keys_update, if_pos (mem_keys_iff.mpr (by rw [h]; rfl))]

/-! ## First come, first served -/

/-- The different keys in the order they came first, as far as there are places. -/
def served (cap : ℕ) (l : List κ) : List κ := l.eraseDups.take cap

theorem eraseDups_concat (l : List κ) (k : κ) :
    (l ++ [k]).eraseDups = l.eraseDups ++ if k ∈ l then [] else [k] := by
  rw [List.eraseDups_append]
  by_cases hk : k ∈ l
  · rw [if_pos hk]
    simp [List.removeAll, hk]
  · rw [if_neg hk]
    simp [List.removeAll, hk, List.eraseDups_cons]

theorem nodup_eraseDups (l : List κ) : l.eraseDups.Nodup := by
  induction l using List.reverseRecOn with
  | nil => exact List.nodup_nil
  | append_singleton l k ih =>
    rw [eraseDups_concat]
    split
    · rw [List.append_nil]
      exact ih
    · next hk =>
      apply List.Nodup.append ih (List.nodup_singleton k)
      intro k' hk' hlast
      rw [List.mem_singleton.mp hlast, List.mem_eraseDups] at hk'
      exact hk hk'

/-- A key that has come is served early or not at all. -/
theorem mem_served_append {l l' : List κ} {k : κ} (hk : k ∈ l) :
    k ∈ served cap (l ++ l') ↔ k ∈ served cap l := by
  have hnodup := nodup_eraseDups (l ++ l')
  unfold served
  rw [List.eraseDups_append] at hnodup ⊢
  rw [List.take_append, List.mem_append]
  apply or_iff_left
  intro hlate
  exact List.disjoint_of_nodup_append hnodup (List.mem_eraseDups.mpr hk) (List.mem_of_mem_take hlate)

/-- The keys of the map are those of `l` that are served. -/
def Serves (m : BoundedMap κ ν cap) (l : List κ) : Prop := m.keys.reverse = served cap l

theorem serves_empty : (empty : BoundedMap κ ν cap).Serves [] := (List.take_nil).symm

theorem Serves.mem_keys {m : BoundedMap κ ν cap} {l : List κ} (h : m.Serves l) {k : κ} :
    k ∈ m.keys ↔ k ∈ served cap l := by
  rw [← List.mem_reverse, h]

/-- **An update** serves its key, if there is a place. -/
theorem Serves.update {m : BoundedMap κ ν cap} {l : List κ} (h : m.Serves l) (k : κ) (v : ν) :
    (m.update k v).Serves (l ++ [k]) := by
  have hlen : m.keys.length = min cap l.eraseDups.length := by
    rw [← List.length_reverse, h, served, List.length_take]
  have hkeys := h
  unfold Serves served at hkeys ⊢
  rw [keys_update, eraseDups_concat]
  by_cases hmem : k ∈ l
  · rw [if_pos hmem, List.append_nil, ← hkeys]
    split
    · rfl
    · next hk =>
      -- the key came when all places were taken
      rw [if_neg]
      intro hroom
      apply hk
      rw [h.mem_keys, served, List.take_of_length_le (by omega)]
      exact List.mem_eraseDups.mpr hmem
  · have hk : k ∉ m.keys := by
      rw [h.mem_keys]
      intro hserved
      exact hmem (List.mem_eraseDups.mp (List.mem_of_mem_take hserved))
    rw [if_neg hmem, if_neg hk]
    by_cases hroom : m.keys.length < cap
    · rw [if_pos hroom, List.reverse_cons, hkeys, List.take_of_length_le (by omega),
        List.take_of_length_le (by rw [List.length_append, List.length_singleton]; omega)]
    · rw [if_neg hroom, hkeys, List.take_append_of_le_length (by omega)]

theorem hasRoom_iff_mem_keys {m : BoundedMap κ ν cap} (k : κ) (v : ν) :
    m.HasRoom k ↔ k ∈ (m.update k v).keys := by
  constructor
  · intro hroom
    rw [mem_keys_iff, lookup_update_self hroom]
    rfl
  · intro hk
    by_contra hroom
    rw [update_of_not_hasRoom hroom] at hk
    exact hroom (Or.inl hk)

/-- There is room for the keys that are served. -/
theorem Serves.hasRoom_iff {m : BoundedMap κ ν cap} {l : List κ} (h : m.Serves l) (k : κ)
    (v : ν) : m.HasRoom k ↔ k ∈ served cap (l ++ [k]) := by
  rw [hasRoom_iff_mem_keys k v]
  exact (h.update k v).mem_keys

end BoundedMap

end UsbTrace.Library
