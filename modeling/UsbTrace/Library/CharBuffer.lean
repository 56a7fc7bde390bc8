import Mathlib.Data.List.Basic

/-!
# Character buffers

A C character array of fixed size, with stores that are checked: `store` fails where the
index is outside the array, so that a result of a run is a proof that the run wrote inside.
`snprintfAt` is `snprintf` at a place of the array, which writes no more than it is told and
answers with the length of the whole text.

`Written` says how far a text has got that is written from the start of the array on: its
characters are there, the place after them may hold anything, and what follows is as before.

`encodeWithin` is what an encoder writes that stops before the first unit without room.
-/

set_option autoImplicit false

namespace UsbTrace.Library

variable {α β : Type}

/-- Store a character. -/
def store (buf : List α) (i : ℕ) (a : α) : Option (List α) :=
  if i < buf.length then some (buf.set i a) else none

/-- Store characters one after the other. -/
def storeAll (buf : List α) (i : ℕ) : List α → Option (List α)
  | [] => some buf
  | a :: as => (store buf i a).bind fun buf => storeAll buf (i + 1) as

/-- `snprintf(buf + i, size, "%s", text)`. -/
def snprintfAt (nul : α) (buf : List α) (i size : ℕ) (text : List α) : Option (List α × ℕ) :=
  if size = 0 then some (buf, text.length)
  else (storeAll buf i (text.take (size - 1) ++ [nul])).map fun buf => (buf, text.length)

/-- The text is written from the start of the array `old` on, with a place left. -/
def Written (old text buf : List α) : Prop :=
  text.length < old.length ∧ ∃ x, buf = text ++ x :: old.drop (text.length + 1)

variable {old text buf : List α}

/-- Nothing is written yet. -/
theorem written_nil (h : 0 < old.length) : Written old [] old := by
  cases old with
  | nil => exact absurd h (Nat.lt_irrefl 0)
  | cons x old => exact ⟨h, x, rfl⟩

/-- A character is stored in the place after the text. -/
theorem Written.store_eq (h : Written old text buf) (a : α) :
    store buf text.length a = some (text ++ a :: old.drop (text.length + 1)) := by
  obtain ⟨-, x, rfl⟩ := h
  have hin : text.length < (text ++ x :: old.drop (text.length + 1)).length := by
    rw [List.length_append, List.length_cons]
    omega
  rw [store, if_pos hin, List.set_append_right _ _ (Nat.le_refl _), Nat.sub_self, List.set_cons_zero]

/-- **A character** is written, where a place is left after it. -/
theorem Written.store (h : Written old text buf) (a : α) (hroom : text.length + 1 < old.length) :
    ∃ buf', store buf text.length a = some buf' ∧ Written old (text ++ [a]) buf' := by
  refine ⟨_, h.store_eq a, ?_, old[text.length + 1], ?_⟩
  · rwa [List.length_append]
  · rw [List.drop_eq_getElem_cons hroom, List.append_cons, List.length_append]
    rfl

/-- **A text** is written after the text. -/
theorem Written.storeAll (h : Written old text buf) (as : List α)
    (hroom : text.length + as.length < old.length) :
    ∃ buf', storeAll buf text.length as = some buf' ∧ Written old (text ++ as) buf' := by
  induction as generalizing text buf with
  | nil =>
    rw [List.append_nil]
    exact ⟨buf, rfl, h⟩
  | cons a as ih =>
    rw [List.length_cons] at hroom
    obtain ⟨buf₁, hstore, h₁⟩ := h.store a (by omega)
    have hlen : (text ++ [a]).length = text.length + 1 := List.length_append
    obtain ⟨buf₂, hrest, h₂⟩ := ih h₁ (by omega)
    rw [hlen] at hrest
    rw [← List.append_cons] at h₂
    exact ⟨buf₂, by rw [Library.storeAll, hstore, Option.bind_some, hrest], h₂⟩

theorem storeAll_append (buf : List α) (i : ℕ) (as bs : List α) :
    storeAll buf i (as ++ bs) =
      (storeAll buf i as).bind fun buf => storeAll buf (i + as.length) bs := by
  induction as generalizing buf i with
  | nil => rfl
  | cons a as ih =>
    rw [List.cons_append, storeAll, storeAll, Option.bind_assoc]
    congr 1
    funext buf
    rw [ih, List.length_cons, Nat.add_right_comm, Nat.add_assoc]

/-- **`snprintf` up to the end of the array** writes what fits, with the terminator in the
place after it. -/
theorem Written.snprintfAt (h : Written old text buf) (nul : α) (t : List α) :
    ∃ buf', snprintfAt nul buf text.length (old.length - text.length) t = some (buf', t.length) ∧
      Written old (text ++ t.take (old.length - text.length - 1)) buf' := by
  have hlt := h.1
  have hlen : (t.take (old.length - text.length - 1)).length ≤ old.length - text.length - 1 := by
    rw [List.length_take]
    omega
  obtain ⟨buf₁, hall, h₁⟩ := h.storeAll (t.take (old.length - text.length - 1)) (by omega)
  refine ⟨_, ?_, h₁.1, nul, rfl⟩
  rw [Library.snprintfAt, if_neg (by omega), storeAll_append, hall, Option.bind_some,
    Library.storeAll, ← List.length_append, h₁.store_eq nul]
  rfl

/-! ## Encoders -/

/-- The codes of the units up to the first without room, from place `o` of `size` on: it
asks for the length of its code, and for `slack` places at least. -/
def encodeWithin (enc : β → List α) (slack size : ℕ) : ℕ → List β → List α
  | _, [] => []
  | o, b :: bs =>
    if o + max slack (enc b).length < size then
      enc b ++ encodeWithin enc slack size (o + (enc b).length) bs
    else []

variable {enc : β → List α} {slack size : ℕ}

/-- No unit is cut. -/
theorem encodeWithin_stops (o : ℕ) (bs : List β) :
    ∃ pre, pre <+: bs ∧ encodeWithin enc slack size o bs = pre.flatMap enc := by
  induction bs generalizing o with
  | nil => exact ⟨[], List.prefix_rfl, rfl⟩
  | cons b bs ih =>
    rw [encodeWithin]
    split_ifs with hroom
    · obtain ⟨pre, hpre, heq⟩ := ih (o + (enc b).length)
      exact ⟨b :: pre, (List.prefix_cons_inj b).mpr hpre, by rw [heq, List.flatMap_cons]⟩
    · exact ⟨[], List.nil_prefix, rfl⟩

/-- Where there is room for all codes and the slack, all are written. -/
theorem encodeWithin_all (hcode : ∀ b, enc b ≠ []) (hslack : 0 < slack) {o : ℕ} {bs : List β}
    (hroom : o + (bs.flatMap enc).length + slack ≤ size) :
    encodeWithin enc slack size o bs = bs.flatMap enc := by
  induction bs generalizing o with
  | nil => rfl
  | cons b bs ih =>
    have hpos : 0 < (enc b).length := List.length_pos_of_ne_nil (hcode b)
    rw [List.flatMap_cons, List.length_append] at hroom
    rw [encodeWithin, if_pos (by omega), ih (by omega), List.flatMap_cons]

end UsbTrace.Library
