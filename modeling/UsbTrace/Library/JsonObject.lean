import UsbTrace.Library.Json

/-!
# Flat JSON objects and a reader for them

A program that writes one object to a line writes its members from left to right:
`objectText` is that text.  `readObject` reads such a text back without knowing its members,
and gets exactly what was written (`readObject_objectText`); and the text is a line of JSON
(`isLine_objectText`).
-/

set_option autoImplicit false

namespace UsbTrace.Library.Json

/-- What a member holds: a text between quotes, escapes and all, or a bare number or literal. -/
inductive Datum where
  | str (body : List Char)
  | bare (text : List Char)
deriving DecidableEq, Repr

abbrev Member := String × Datum

/-- A datum, and what follows it. -/
def Datum.text : Datum → List Char → List Char
  | .str body, t => '"' :: (body ++ '"' :: t)
  | .bare v, t => v ++ t

/-- A member, and what follows it. -/
def memberText (m : Member) (t : List Char) : List Char :=
  '"' :: (m.1.toList ++ '"' :: ':' :: m.2.text t)

/-- Members with commas between them, and what follows them. -/
def membersText : List Member → List Char → List Char
  | [], t => t
  | [m], t => memberText m t
  | m :: ms, t => memberText m (',' :: membersText ms t)

/-- An object, and what follows it. -/
def objectText (ms : List Member) (t : List Char) : List Char := '{' :: membersText ms ('}' :: t)

/-- A bare text that is a value, and ends where the next comma or brace stands. -/
structure IsBare (v : List Char) : Prop where
  value : Derives .value v
  noBreak : '\n' ∉ v
  unquoted : '"' ∉ v
  whole : ∀ c ∈ v, c ≠ ',' ∧ c ≠ '}'

def Datum.Ok : Datum → Prop
  | .str body => StrBody body
  | .bare v => IsBare v

/-- The name and the datum of a member are well formed. -/
structure MemberOk (m : Member) : Prop where
  name : StrBody m.1.toList
  datum : m.2.Ok

/-! ## Reading -/

/-- A text up to its closing quote, and what follows. -/
def readQuoted : List Char → Option (List Char × List Char)
  | [] => none
  | [c] => if c = '"' then some ([], []) else none
  | c :: d :: t =>
    if c = '"' then some ([], d :: t)
    else if c = '\\' then (readQuoted t).map fun r => (c :: d :: r.1, r.2)
    else (readQuoted (d :: t)).map fun r => (c :: r.1, r.2)

/-- A character a bare text goes on with. -/
def inBare (c : Char) : Bool := c ≠ ',' && c ≠ '}'

/-- A datum, and what follows. -/
def readDatum : List Char → Option (Datum × List Char)
  | [] => none
  | c :: t =>
    if c = '"' then (readQuoted t).map fun r => (.str r.1, r.2)
    else some (.bare ((c :: t).takeWhile inBare), (c :: t).dropWhile inBare)

/-- A member, and what follows. -/
def readMember : List Char → Option (Member × List Char)
  | '"' :: t =>
    match readQuoted t with
    | some (name, ':' :: t) => (readDatum t).map fun r => ((String.ofList name, r.1), r.2)
    | _ => none
  | _ => none

/-- Members up to the closing brace, at most `n` of them, and what follows. -/
def readMembers : ℕ → List Char → Option (List Member × List Char)
  | 0, _ => none
  | n + 1, s =>
    match readMember s with
    | some (m, ',' :: t) => (readMembers n t).map fun r => (m :: r.1, r.2)
    | some (m, '}' :: t) => some ([m], t)
    | _ => none

/-- An object, and what follows. -/
def readObject : List Char → Option (List Member × List Char)
  | '{' :: t => readMembers t.length t
  | _ => none

/-! ## Reading what was written -/

theorem readQuoted_plain {c : Char} (hquote : c ≠ '"') (hslash : c ≠ '\\') {s : List Char}
    (hs : s ≠ []) : readQuoted (c :: s) = (readQuoted s).map fun r => (c :: r.1, r.2) := by
  cases s with
  | nil => exact absurd rfl hs
  | cons d t => rw [readQuoted, if_neg hquote, if_neg hslash]

/-- What may stand between quotes is read up to the closing one. -/
theorem readQuoted_body {body : List Char} (h : StrBody body) (t : List Char) :
    readQuoted (body ++ '"' :: t) = some (body, t) := by
  induction h with
  | nil => cases t <;> rfl
  | @plain c s hc _ ih =>
    have hne : c ≠ '"' ∧ c ≠ '\\' := by
      simp only [isPlain, Bool.and_eq_true, decide_eq_true_eq] at hc
      exact ⟨hc.1.2, hc.2⟩
    rw [List.cons_append, readQuoted_plain hne.1 hne.2 (by simp), ih]
    rfl
  | @escape c s _ _ ih =>
    rw [List.cons_append, List.cons_append, readQuoted, if_neg (by decide), if_pos rfl, ih]
    rfl
  | @unicode ds s hlen hhex _ ih =>
    have hplain : ∀ ds : List Char, (∀ c ∈ ds, isHex c = true) →
        readQuoted (ds ++ (s ++ '"' :: t)) = some (ds ++ s, t) := by
      intro ds
      induction ds with
      | nil => exact fun _ => ih
      | cons c ds ihds =>
        intro hds
        have hc := hds c List.mem_cons_self
        have hquote : c ≠ '"' := by
          rintro rfl
          exact absurd hc (by decide)
        have hslash : c ≠ '\\' := by
          rintro rfl
          exact absurd hc (by decide)
        rw [List.cons_append, readQuoted_plain hquote hslash (by simp),
          ihds fun d hd => hds d (List.mem_cons_of_mem c hd)]
        rfl
    rw [List.cons_append, List.cons_append, readQuoted, if_neg (by decide), if_pos rfl,
      List.append_assoc, hplain ds hhex]
    rfl

theorem takeWhile_bare {v : List Char} (h : ∀ c ∈ v, c ≠ ',' ∧ c ≠ '}') {c : Char}
    (hc : c = ',' ∨ c = '}') (t : List Char) :
    (v ++ c :: t).takeWhile inBare = v ∧ (v ++ c :: t).dropWhile inBare = c :: t := by
  have hv : ∀ d ∈ v, inBare d = true := by
    intro d hd
    simp [inBare, h d hd]
  have hend : inBare c = false := by rcases hc with rfl | rfl <;> rfl
  constructor
  · rw [List.takeWhile_append_of_pos hv, List.takeWhile_cons, hend]
    simp
  · rw [List.dropWhile_append_of_pos hv, List.dropWhile_cons, hend]
    simp

/-- A datum is read up to the comma or brace after it. -/
theorem readDatum_text {d : Datum} (h : d.Ok) {c : Char} (hc : c = ',' ∨ c = '}')
    (t : List Char) : readDatum (d.text (c :: t)) = some (d, c :: t) := by
  cases d with
  | str body =>
    rw [Datum.text, readDatum, if_pos rfl, readQuoted_body h]
    rfl
  | bare v =>
    obtain ⟨htake, hdrop⟩ := takeWhile_bare h.whole hc t
    have hhead : ∃ d s, v ++ c :: t = d :: s ∧ d ≠ '"' := by
      cases v with
      | nil => exact ⟨c, t, rfl, by rcases hc with rfl | rfl <;> decide⟩
      | cons d s =>
        refine ⟨d, s ++ c :: t, rfl, ?_⟩
        rintro rfl
        exact h.unquoted List.mem_cons_self
    obtain ⟨d, s, heq, hd⟩ := hhead
    rw [Datum.text, heq, readDatum, if_neg hd, ← heq, htake, hdrop]

theorem readMember_text {m : Member} (h : MemberOk m) {c : Char} (hc : c = ',' ∨ c = '}')
    (t : List Char) : readMember (memberText m (c :: t)) = some (m, c :: t) := by
  rw [memberText, readMember, readQuoted_body h.name]
  simp only [readDatum_text h.datum hc, Option.map_some, String.ofList_toList]

theorem membersText_cons (m m' : Member) (ms : List Member) (t : List Char) :
    membersText (m :: m' :: ms) t = memberText m (',' :: membersText (m' :: ms) t) := rfl

/-- Every member takes a character at least, so the text bounds their number. -/
theorem length_membersText (ms : List Member) (t : List Char) :
    ms.length + t.length ≤ (membersText ms t).length := by
  induction ms with
  | nil => simp [membersText]
  | cons m ms ih =>
    have hmember : ∀ s : List Char, s.length + 1 ≤ (memberText m s).length := by
      intro s
      obtain ⟨name, d⟩ := m
      cases d <;> simp [memberText, Datum.text] <;> omega
    cases ms with
    | nil => simpa [membersText, Nat.add_comm] using hmember t
    | cons m' ms =>
      have := hmember (',' :: membersText (m' :: ms) t)
      rw [membersText_cons]
      simp only [List.length_cons] at this ih ⊢
      omega

theorem readMembers_text {ms : List Member} (hne : ms ≠ []) (h : ∀ m ∈ ms, MemberOk m) {n : ℕ}
    (hn : ms.length ≤ n) (t : List Char) :
    readMembers n (membersText ms ('}' :: t)) = some (ms, t) := by
  induction ms generalizing n with
  | nil => exact absurd rfl hne
  | cons m ms ih =>
    obtain ⟨n, rfl⟩ : ∃ k, n = k + 1 := ⟨n - 1, by simp only [List.length_cons] at hn; omega⟩
    have hm := h m List.mem_cons_self
    cases ms with
    | nil =>
      rw [membersText, readMembers, readMember_text hm (.inr rfl)]
      rfl
    | cons m' ms =>
      have hrest := ih (List.cons_ne_nil m' ms) (fun x hx => h x (List.mem_cons_of_mem m hx))
        (Nat.le_of_succ_le_succ hn)
      rw [membersText_cons, readMembers, readMember_text hm (.inl rfl)]
      simp only [hrest, Option.map_some]

/-- **What was written is read back**, whatever follows it. -/
theorem readObject_objectText {ms : List Member} (hne : ms ≠ []) (h : ∀ m ∈ ms, MemberOk m)
    (t : List Char) : readObject (objectText ms t) = some (ms, t) := by
  have hlen := length_membersText ms ('}' :: t)
  exact readMembers_text hne h (Nat.le_of_add_right_le hlen) t

/-! ## A line of JSON -/

theorem Datum.derives {d : Datum} (h : d.Ok) : Derives .value (d.text []) := by
  cases d with
  | str body => exact .string ⟨body, h, rfl⟩
  | bare v =>
    rw [Datum.text, List.append_nil]
    exact h.value

theorem Datum.text_append (d : Datum) (t : List Char) : d.text t = d.text [] ++ t := by
  cases d <;> simp [Datum.text]

theorem memberText_append (m : Member) (t : List Char) :
    memberText m t = memberText m [] ++ t := by
  rw [memberText, memberText, Datum.text_append]
  simp

theorem memberText_derives {m : Member} (h : MemberOk m) : Derives .member (memberText m []) := by
  have hmember := Derives.member isWs_nil ⟨m.1.toList, h.name, rfl⟩ isWs_nil
    (Datum.derives h.datum).toElement
  simpa [memberText] using hmember

theorem membersText_append (ms : List Member) (t : List Char) :
    membersText ms t = membersText ms [] ++ t := by
  induction ms with
  | nil => rfl
  | cons m ms ih =>
    cases ms with
    | nil => exact memberText_append m t
    | cons m' ms =>
      rw [membersText_cons, membersText_cons, memberText_append, ih,
        memberText_append m (',' :: membersText (m' :: ms) []), List.append_assoc, List.cons_append]

theorem membersText_derives {ms : List Member} (hne : ms ≠ []) (h : ∀ m ∈ ms, MemberOk m) :
    Derives .members (membersText ms []) := by
  induction ms with
  | nil => exact absurd rfl hne
  | cons m ms ih =>
    have hm := memberText_derives (h m List.mem_cons_self)
    cases ms with
    | nil => exact .lastMember hm
    | cons m' ms =>
      have hms := ih (List.cons_ne_nil m' ms) fun x hx => h x (List.mem_cons_of_mem m hx)
      rw [membersText_cons, memberText_append]
      exact .members hm hms

theorem Datum.text_noBreak {d : Datum} (h : d.Ok) : '\n' ∉ d.text [] := by
  cases d with
  | str body =>
    have := strBody_noBreak h
    simp [Datum.text, this]
  | bare v =>
    rw [Datum.text, List.append_nil]
    exact h.noBreak

theorem memberText_noBreak {m : Member} (h : MemberOk m) {t : List Char} (ht : '\n' ∉ t) :
    '\n' ∉ memberText m t := by
  have hname := strBody_noBreak h.name
  have hdatum := Datum.text_noBreak h.datum
  rw [memberText, Datum.text_append]
  simp [hname, hdatum, ht]

theorem membersText_noBreak {ms : List Member} (h : ∀ m ∈ ms, MemberOk m) :
    '\n' ∉ membersText ms [] := by
  induction ms with
  | nil => exact List.not_mem_nil
  | cons m ms ih =>
    have hm := h m List.mem_cons_self
    cases ms with
    | nil => exact memberText_noBreak hm List.not_mem_nil
    | cons m' ms =>
      rw [membersText_cons]
      refine memberText_noBreak hm (List.not_mem_cons_of_ne_of_not_mem (by decide) ?_)
      exact ih fun x hx => h x (List.mem_cons_of_mem m hx)

/-- **An object written to a line is a line of JSON.** -/
theorem isLine_objectText {ms : List Member} (hne : ms ≠ []) (h : ∀ m ∈ ms, MemberOk m) :
    IsLine (objectText ms ['\n']) := by
  have hline : objectText ms ['\n'] = ('{' :: (membersText ms [] ++ ['}'])) ++ ['\n'] := by
    rw [objectText, membersText_append]
    simp
  have hbreak : '\n' ∉ '{' :: (membersText ms [] ++ ['}']) := by
    have := membersText_noBreak h
    simp [this]
  rw [hline, isLine_concat]
  exact ⟨hbreak, _, [], .object (membersText_derives hne h), isWs_nil, by simp⟩

end UsbTrace.Library.Json
