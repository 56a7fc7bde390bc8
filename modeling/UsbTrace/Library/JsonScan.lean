import UsbTrace.Library.Json

/-!
# Scanning JSON texts

A scanner that reads a text character by character, with the collections it is in on a
stack.  It accepts the texts the grammar derives, and no others (`accepts_object_iff`).

What the text still has to bring is a property of the scanner's state (`Due`): every step
keeps it (`due_of_step`), so an accepted text has a derivation.  The other way, a scanner
that is due to read a value and reads one has passed over it (`accepts_derives`).
-/

set_option autoImplicit false

namespace UsbTrace.Library.Json

/-! ## The scanner -/

/-- A collection the scanner is in. -/
inductive Frame where
  | object | array
deriving DecidableEq

/-- Where the scanner is in a string: at a character, after a backslash, or before `n + 1`
hexadecimal digits. -/
inductive StrState where
  | body | escape | hex (n : ℕ)
deriving DecidableEq

/-- What the scanner has read of a number. -/
inductive NumState where
  | minus | zero | int | dot | frac | exp | expSign | expInt
deriving DecidableEq

/-- What the scanner is about to read.  A string is a name (`true`) or a value. -/
inductive Mode where
  | value | firstValue | key | firstKey | colon | after
  | str (name : Bool) (q : StrState)
  | num (q : NumState)
  | lit (l : Literal) (k : ℕ)
deriving DecidableEq

/-- A state of the scanner. -/
abbrev Config := Mode × List Frame

/-- A closing bracket: of the innermost collection, or an error. -/
def close (f : Frame) : List Frame → Option Config
  | [] => none
  | g :: st => if g = f then some (.after, st) else none

def afterStep (st : List Frame) (c : Char) : Option Config :=
  if isWs c then some (.after, st)
  else if c = ',' then
    match st with
    | [] => none
    | .object :: _ => some (.key, st)
    | .array :: _ => some (.value, st)
  else if c = '}' then close .object st
  else if c = ']' then close .array st
  else none

def valueStep (st : List Frame) (c : Char) : Option Config :=
  if isWs c then some (.value, st)
  else if c = '"' then some (.str false .body, st)
  else if c = '{' then some (.firstKey, .object :: st)
  else if c = '[' then some (.firstValue, .array :: st)
  else if c = '-' then some (.num .minus, st)
  else if c = '0' then some (.num .zero, st)
  else if c.isDigit then some (.num .int, st)
  else if c = 't' then some (.lit .true 1, st)
  else if c = 'f' then some (.lit .false 1, st)
  else if c = 'n' then some (.lit .null 1, st)
  else none

def strStep (name : Bool) (st : List Frame) : StrState → Char → Option Config
  | .body, c =>
    if c = '"' then some (if name then .colon else .after, st)
    else if c = '\\' then some (.str name .escape, st)
    else if isPlain c then some (.str name .body, st)
    else none
  | .escape, c =>
    if c = 'u' then some (.str name (.hex 3), st)
    else if isEscape c then some (.str name .body, st)
    else none
  | .hex 0, c => if isHex c then some (.str name .body, st) else none
  | .hex (n + 1), c => if isHex c then some (.str name (.hex n), st) else none

def expStep (c : Char) : Option NumState := if c = 'e' ∨ c = 'E' then some .exp else none

def fracStep (c : Char) : Option NumState := if c = '.' then some .dot else expStep c

def numStep : NumState → Char → Option NumState
  | .minus, c => if c = '0' then some .zero else if c.isDigit then some .int else none
  | .zero, c => fracStep c
  | .int, c => if c.isDigit then some .int else fracStep c
  | .dot, c => if c.isDigit then some .frac else none
  | .frac, c => if c.isDigit then some .frac else expStep c
  | .exp, c =>
    if c.isDigit then some .expInt else if c = '+' ∨ c = '-' then some .expSign else none
  | .expSign, c => if c.isDigit then some .expInt else none
  | .expInt, c => if c.isDigit then some .expInt else none

/-- Whether a number may end here. -/
def NumState.isFinal : NumState → Bool
  | .zero | .int | .frac | .expInt => true
  | .minus | .dot | .exp | .expSign => false

/-- A character of a literal, `k` characters of which have been read. -/
def litStep (l : Literal) (k : ℕ) (st : List Frame) (c : Char) : Option Config :=
  if l.text[k]? = some c then
    some (if k + 1 = l.text.length then .after else .lit l (k + 1), st)
  else none

/-- One character. -/
def step : Config → Char → Option Config
  | (.after, st), c => afterStep st c
  | (.value, st), c => valueStep st c
  | (.firstValue, st), c =>
    if isWs c then some (.firstValue, st)
    else if c = ']' then close .array st
    else valueStep st c
  | (.key, st), c =>
    if isWs c then some (.key, st) else if c = '"' then some (.str true .body, st) else none
  | (.firstKey, st), c =>
    if isWs c then some (.firstKey, st)
    else if c = '}' then close .object st
    else if c = '"' then some (.str true .body, st)
    else none
  | (.colon, st), c =>
    if isWs c then some (.colon, st) else if c = ':' then some (.value, st) else none
  | (.str name q, st), c => strStep name st q c
  | (.num q, st), c =>
    match numStep q c with
    | some q' => some (.num q', st)
    | none => if q.isFinal then afterStep st c else none
  | (.lit l k, st), c => litStep l k st c

/-- Whether the text may end here. -/
def accepting : Config → Bool
  | (.after, []) => true
  | (.num q, []) => q.isFinal
  | _ => false

/-- The state after a text. -/
def scan (cfg : Config) (s : List Char) : Option Config := s.foldlM step cfg

/-- Whether the scanner gets through a text and may end there. -/
def accepts (cfg : Config) (s : List Char) : Bool := (scan cfg s).any accepting

@[simp] theorem accepts_nil (cfg : Config) : accepts cfg [] = accepting cfg := rfl

theorem accepts_cons (cfg : Config) (c : Char) (s : List Char) :
    accepts cfg (c :: s) = (step cfg c).any fun cfg' => accepts cfg' s := by
  unfold accepts scan
  rw [List.foldlM_cons]
  cases step cfg c <;> rfl

/-- The scanner goes on from where it is. -/
theorem accepts_step {cfg : Config} {c : Char} (cfg' : Config) (h : step cfg c = some cfg')
    (s : List Char) : accepts cfg (c :: s) = accepts cfg' s := by
  rw [accepts_cons, h]
  rfl

/-- The scanner stops at a character it has no step for. -/
theorem accepts_stuck {cfg : Config} {c : Char} (h : step cfg c = none) (s : List Char) :
    accepts cfg (c :: s) = false := by
  rw [accepts_cons, h]
  rfl

theorem accepts_append (cfg : Config) (s t : List Char) :
    accepts cfg (s ++ t) = (scan cfg s).any fun cfg' => accepts cfg' t := by
  unfold accepts scan
  rw [List.foldlM_append]
  cases s.foldlM step cfg <;> rfl

/-! ## Accepted texts have derivations -/

/-- What may follow a value in a collection: its end, or a comma, the rest of its items and
its end. -/
def Frame.closer : Frame → Char
  | .object => '}'
  | .array => ']'

def Frame.items : Frame → Sym
  | .object => .members
  | .array => .elements

/-- What is due after a value. -/
def Rest : List Frame → List Char → Prop
  | [], t => IsWs t
  | f :: st, t => ∃ w t', IsWs w ∧ Rest st t' ∧
      (t = w ++ f.closer :: t' ∨
        ∃ m, Derives f.items m ∧ t = w ++ ',' :: (m ++ f.closer :: t'))

/-- What is due before and after a value. -/
def ValueDue (st : List Frame) (t : List Char) : Prop :=
  ∃ w v t', IsWs w ∧ Derives .value v ∧ Rest st t' ∧ t = w ++ (v ++ t')

def ColonDue (st : List Frame) (t : List Char) : Prop :=
  ∃ w t', IsWs w ∧ ValueDue st t' ∧ t = w ++ ':' :: t'

def KeyDue (st : List Frame) (t : List Char) : Prop :=
  ∃ w k t', IsWs w ∧ IsString k ∧ ColonDue st t' ∧ t = w ++ (k ++ t')

/-- The end of the collection just opened. -/
def EndDue (f : Frame) : List Frame → List Char → Prop
  | [], _ => False
  | g :: st, t => g = f ∧ ∃ w t', IsWs w ∧ Rest st t' ∧ t = w ++ f.closer :: t'

/-- What is left of a string. -/
def StrTail : StrState → List Char → Prop
  | .body, b => StrBody b
  | .escape, b => StrBody ('\\' :: b)
  | .hex n, b => ∃ h b', h.length = n + 1 ∧ (∀ c ∈ h, isHex c = true) ∧ StrBody b' ∧ b = h ++ b'

/-- What is left of a number. -/
def NumTail : NumState → List Char → Prop
  | .minus, d => ∃ i f e, IsInt i ∧ IsFrac f ∧ IsExp e ∧ d = i ++ (f ++ e)
  | .zero, d => ∃ f e, IsFrac f ∧ IsExp e ∧ d = f ++ e
  | .int, d => ∃ ds f e, (∀ c ∈ ds, c.isDigit = true) ∧ IsFrac f ∧ IsExp e ∧ d = ds ++ (f ++ e)
  | .dot, d => ∃ ds e, Digits ds ∧ IsExp e ∧ d = ds ++ e
  | .frac, d => ∃ ds e, (∀ c ∈ ds, c.isDigit = true) ∧ IsExp e ∧ d = ds ++ e
  | .exp, d => ∃ sign ds, (sign = [] ∨ sign = ['+'] ∨ sign = ['-']) ∧ Digits ds ∧ d = sign ++ ds
  | .expSign, d => Digits d
  | .expInt, d => ∀ c ∈ d, c.isDigit = true

/-- What is due in a state of the scanner. -/
def Due : Config → List Char → Prop
  | (.after, st), t => Rest st t
  | (.value, st), t => ValueDue st t
  | (.firstValue, st), t => EndDue .array st t ∨ ValueDue st t
  | (.key, st), t => KeyDue st t
  | (.firstKey, st), t => EndDue .object st t ∨ KeyDue st t
  | (.colon, st), t => ColonDue st t
  | (.str name q, st), t => ∃ b t', StrTail q b ∧ (if name then ColonDue st t' else Rest st t') ∧
      t = b ++ '"' :: t'
  | (.num q, st), t => ∃ d t', NumTail q d ∧ Rest st t' ∧ t = d ++ t'
  | (.lit l k, st), t => ∃ t', Rest st t' ∧ t = l.text.drop k ++ t'

/-! ### Steps that leave a character over -/

theorem isWs_cons {c : Char} {w : List Char} (hc : isWs c = true) (hw : IsWs w) :
    IsWs (c :: w) := List.forall_mem_cons.mpr ⟨hc, hw⟩

theorem rest_ws {st : List Frame} {c : Char} {t : List Char} (hc : isWs c = true)
    (h : Rest st t) : Rest st (c :: t) := by
  cases st with
  | nil => exact isWs_cons hc h
  | cons f st =>
    obtain ⟨w, t', hw, hrest, hend | ⟨m, hm, hmore⟩⟩ := h
    · exact ⟨c :: w, t', isWs_cons hc hw, hrest, Or.inl (by rw [hend]; rfl)⟩
    · exact ⟨c :: w, t', isWs_cons hc hw, hrest, Or.inr ⟨m, hm, by rw [hmore]; rfl⟩⟩

theorem valueDue_ws {st : List Frame} {c : Char} {t : List Char} (hc : isWs c = true)
    (h : ValueDue st t) : ValueDue st (c :: t) := by
  obtain ⟨w, v, t', hw, hv, hrest, rfl⟩ := h
  exact ⟨c :: w, v, t', isWs_cons hc hw, hv, hrest, rfl⟩

theorem colonDue_ws {st : List Frame} {c : Char} {t : List Char} (hc : isWs c = true)
    (h : ColonDue st t) : ColonDue st (c :: t) := by
  obtain ⟨w, t', hw, hv, rfl⟩ := h
  exact ⟨c :: w, t', isWs_cons hc hw, hv, rfl⟩

theorem keyDue_ws {st : List Frame} {c : Char} {t : List Char} (hc : isWs c = true)
    (h : KeyDue st t) : KeyDue st (c :: t) := by
  obtain ⟨w, k, t', hw, hk, hcolon, rfl⟩ := h
  exact ⟨c :: w, k, t', isWs_cons hc hw, hk, hcolon, rfl⟩

theorem endDue_ws {f : Frame} {st : List Frame} {c : Char} {t : List Char} (hc : isWs c = true)
    (h : EndDue f st t) : EndDue f st (c :: t) := by
  cases st with
  | nil => exact h
  | cons g st =>
    obtain ⟨hg, w, t', hw, hrest, rfl⟩ := h
    exact ⟨hg, c :: w, t', isWs_cons hc hw, hrest, rfl⟩

/-- A collection that may close here is the innermost one. -/
theorem close_some {f : Frame} {st : List Frame} {cfg : Config} (h : close f st = some cfg) :
    ∃ st', st = f :: st' ∧ cfg = (.after, st') := by
  cases st with
  | nil => cases h
  | cons g st =>
    rw [close] at h
    split at h
    · next hg =>
      cases h
      exact ⟨st, by rw [hg], rfl⟩
    · cases h

/-- The items of an array, from the value that is due. -/
theorem elements_of_valueDue {st : List Frame} {t : List Char} (h : ValueDue (.array :: st) t) :
    ∃ m t', Derives .elements m ∧ Rest st t' ∧ t = m ++ ']' :: t' := by
  obtain ⟨w, v, t₁, hw, hv, ⟨w', t', hw', hrest, hend | ⟨es, hes, hmore⟩⟩, rfl⟩ := h
  · refine ⟨w ++ (v ++ w'), t', .lastElement (.element hw hv hw'), hrest, ?_⟩
    rw [hend]
    simp [Frame.closer]
  · refine ⟨(w ++ (v ++ w')) ++ ',' :: es, t', .elements (.element hw hv hw') hes, hrest, ?_⟩
    rw [hmore]
    simp [Frame.closer]

/-- The members of an object, from the name that is due. -/
theorem members_of_keyDue {st : List Frame} {t : List Char} (h : KeyDue (.object :: st) t) :
    ∃ m t', Derives .members m ∧ Rest st t' ∧ t = m ++ '}' :: t' := by
  obtain ⟨w₁, k, t₁, hw₁, hk, ⟨w₂, t₂, hw₂, hvalue, rfl⟩, rfl⟩ := h
  obtain ⟨w, v, t₃, hw, hv, ⟨w', t', hw', hrest, hend | ⟨ms, hms, hmore⟩⟩, rfl⟩ := hvalue
  · refine ⟨w₁ ++ (k ++ (w₂ ++ ':' :: (w ++ (v ++ w')))), t',
      .lastMember (.member hw₁ hk hw₂ (.element hw hv hw')), hrest, ?_⟩
    rw [hend]
    simp [Frame.closer]
  · refine ⟨(w₁ ++ (k ++ (w₂ ++ ':' :: (w ++ (v ++ w'))))) ++ ',' :: ms, t',
      .members (.member hw₁ hk hw₂ (.element hw hv hw')) hms, hrest, ?_⟩
    rw [hmore]
    simp [Frame.closer]

theorem due_afterStep {st : List Frame} {c : Char} {cfg : Config} {t : List Char}
    (h : afterStep st c = some cfg) (ht : Due cfg t) : Rest st (c :: t) := by
  have hclose {f : Frame} (h : close f st = some cfg) : Rest st (f.closer :: t) := by
    obtain ⟨st', rfl, rfl⟩ := close_some h
    exact ⟨[], t, isWs_nil, ht, Or.inl rfl⟩
  unfold afterStep at h
  split at h
  · next hws =>
    cases h
    exact rest_ws hws ht
  split at h
  · next hcomma =>
    subst hcomma
    split at h
    · cases h
    · cases h
      obtain ⟨m, t', hm, hrest, rfl⟩ := members_of_keyDue ht
      exact ⟨[], t', isWs_nil, hrest, Or.inr ⟨m, hm, rfl⟩⟩
    · cases h
      obtain ⟨m, t', hm, hrest, rfl⟩ := elements_of_valueDue ht
      exact ⟨[], t', isWs_nil, hrest, Or.inr ⟨m, hm, rfl⟩⟩
  split at h
  · next hbrace =>
    subst hbrace
    exact hclose h
  split at h
  · next hbracket =>
    subst hbracket
    exact hclose h
  · cases h

/-! ### Steps in a number -/

theorem isInt_cons {d : Char} {ds : List Char} (hd : d.isDigit = true) (h0 : d ≠ '0')
    (hds : ∀ c ∈ ds, c.isDigit = true) : IsInt (d :: ds) := Or.inr ⟨d, ds, hd, h0, hds, rfl⟩

theorem digits_cons {d : Char} {ds : List Char} (hd : d.isDigit = true)
    (hds : ∀ c ∈ ds, c.isDigit = true) : Digits (d :: ds) :=
  ⟨List.cons_ne_nil d ds, List.forall_mem_cons.mpr ⟨hd, hds⟩⟩

/-- A number that may end is a number. -/
theorem numTail_final {q : NumState} (h : q.isFinal = true) : NumTail q [] := by
  cases q with
  | zero => exact ⟨[], [], Or.inl rfl, Or.inl rfl, rfl⟩
  | int => exact ⟨[], [], [], by simp, Or.inl rfl, Or.inl rfl, rfl⟩
  | frac => exact ⟨[], [], by simp, Or.inl rfl, rfl⟩
  | expInt => exact fun c hc => absurd hc List.not_mem_nil
  | _ => cases h

theorem isExp_of_expStep {c : Char} {q : NumState} {d : List Char} (h : expStep c = some q)
    (hd : NumTail q d) : IsExp (c :: d) := by
  rw [expStep] at h
  split at h
  · next hc =>
    cases h
    obtain ⟨sign, ds, hsign, hds, rfl⟩ := hd
    exact Or.inr ⟨c, sign, ds, hc, hsign, hds, rfl⟩
  · cases h

theorem fraction_of_fracStep {c : Char} {q : NumState} {d : List Char}
    (h : fracStep c = some q) (hd : NumTail q d) :
    ∃ f e, IsFrac f ∧ IsExp e ∧ c :: d = f ++ e := by
  rw [fracStep] at h
  split at h
  · next hdot =>
    cases h
    obtain ⟨ds, e, hds, he, rfl⟩ := hd
    exact ⟨'.' :: ds, e, Or.inr ⟨ds, hds, rfl⟩, he, by rw [hdot]; rfl⟩
  · exact ⟨[], c :: d, Or.inl rfl, isExp_of_expStep h hd, rfl⟩

theorem numTail_step {q q' : NumState} {c : Char} {d : List Char} (h : numStep q c = some q')
    (hd : NumTail q' d) : NumTail q (c :: d) := by
  cases q with
  | minus =>
    rw [numStep] at h
    split at h
    · next h0 =>
      cases h
      obtain ⟨f, e, hf, he, rfl⟩ := hd
      exact ⟨['0'], f, e, Or.inl rfl, hf, he, by rw [h0]; rfl⟩
    · next h0 =>
      split at h
      · next hdigit =>
        cases h
        obtain ⟨ds, f, e, hds, hf, he, rfl⟩ := hd
        exact ⟨c :: ds, f, e, isInt_cons hdigit h0 hds, hf, he, rfl⟩
      · cases h
  | zero => exact fraction_of_fracStep h hd
  | int =>
    rw [numStep] at h
    split at h
    · next hdigit =>
      cases h
      obtain ⟨ds, f, e, hds, hf, he, rfl⟩ := hd
      exact ⟨c :: ds, f, e, List.forall_mem_cons.mpr ⟨hdigit, hds⟩, hf, he, rfl⟩
    · obtain ⟨f, e, hf, he, heq⟩ := fraction_of_fracStep h hd
      exact ⟨[], f, e, by simp, hf, he, heq⟩
  | dot =>
    rw [numStep] at h
    split at h
    · next hdigit =>
      cases h
      obtain ⟨ds, e, hds, he, rfl⟩ := hd
      exact ⟨c :: ds, e, digits_cons hdigit hds, he, rfl⟩
    · cases h
  | frac =>
    rw [numStep] at h
    split at h
    · next hdigit =>
      cases h
      obtain ⟨ds, e, hds, he, rfl⟩ := hd
      exact ⟨c :: ds, e, List.forall_mem_cons.mpr ⟨hdigit, hds⟩, he, rfl⟩
    · exact ⟨[], c :: d, by simp, isExp_of_expStep h hd, rfl⟩
  | exp =>
    rw [numStep] at h
    split at h
    · next hdigit =>
      cases h
      exact ⟨[], c :: d, Or.inl rfl, digits_cons hdigit hd, rfl⟩
    · split at h
      · next hsign =>
        cases h
        exact ⟨[c], d, Or.inr (by simpa using hsign), hd, rfl⟩
      · cases h
  | expSign =>
    rw [numStep] at h
    split at h
    · next hdigit =>
      cases h
      exact digits_cons hdigit hd
    · cases h
  | expInt =>
    rw [numStep] at h
    split at h
    · next hdigit =>
      cases h
      exact List.forall_mem_cons.mpr ⟨hdigit, hd⟩
    · cases h

/-! ### Steps in a string or a literal -/

theorem strTail_step {name : Bool} {st : List Frame} {q : StrState} {c : Char} {cfg : Config}
    {t : List Char} (h : strStep name st q c = some cfg) (ht : Due cfg t) :
    Due (.str name q, st) (c :: t) := by
  cases q with
  | body =>
    rw [strStep] at h
    split at h
    · next hquote =>
      subst hquote
      cases h
      refine ⟨[], t, StrBody.nil, ?_, rfl⟩
      cases name <;> exact ht
    split at h
    · next hslash =>
      subst hslash
      cases h
      obtain ⟨b, t', hb, hnext, rfl⟩ := ht
      exact ⟨'\\' :: b, t', hb, hnext, rfl⟩
    split at h
    · next hplain =>
      cases h
      obtain ⟨b, t', hb, hnext, rfl⟩ := ht
      exact ⟨c :: b, t', .plain hplain hb, hnext, rfl⟩
    · cases h
  | escape =>
    rw [strStep] at h
    split at h
    · next hu =>
      subst hu
      cases h
      obtain ⟨b, t', ⟨hex, b', hlen, hhex, hb', rfl⟩, hnext, rfl⟩ := ht
      exact ⟨'u' :: (hex ++ b'), t', .unicode hlen hhex hb', hnext, rfl⟩
    split at h
    · next hescape =>
      cases h
      obtain ⟨b, t', hb, hnext, rfl⟩ := ht
      exact ⟨c :: b, t', .escape hescape hb, hnext, rfl⟩
    · cases h
  | hex n =>
    cases n with
    | zero =>
      rw [strStep] at h
      split at h
      · next hhex =>
        cases h
        obtain ⟨b, t', hb, hnext, rfl⟩ := ht
        exact ⟨c :: b, t', ⟨[c], b, rfl, by simpa using hhex, hb, rfl⟩, hnext, rfl⟩
      · cases h
    | succ n =>
      rw [strStep] at h
      split at h
      · next hc =>
        cases h
        obtain ⟨b, t', ⟨hex, b', hlen, hhex, hb', rfl⟩, hnext, rfl⟩ := ht
        refine ⟨c :: (hex ++ b'), t', ⟨c :: hex, b', ?_, ?_, hb', rfl⟩, hnext, rfl⟩
        · rw [List.length_cons, hlen]
        · exact List.forall_mem_cons.mpr ⟨hc, hhex⟩
      · cases h

theorem lit_step {l : Literal} {k : ℕ} {st : List Frame} {c : Char} {cfg : Config}
    {t : List Char} (h : litStep l k st c = some cfg) (ht : Due cfg t) :
    Due (.lit l k, st) (c :: t) := by
  rw [litStep] at h
  split at h
  · next hc =>
    obtain ⟨hk, hget⟩ := List.getElem?_eq_some_iff.mp hc
    have hdrop : l.text.drop k = c :: l.text.drop (k + 1) := by
      rw [List.drop_eq_getElem_cons hk, hget]
    cases h
    split at ht
    · next hend =>
      refine ⟨t, ht, ?_⟩
      rw [hdrop, hend, List.drop_length]
      rfl
    · obtain ⟨t', hrest, rfl⟩ := ht
      exact ⟨t', hrest, by rw [hdrop]; rfl⟩
  · cases h

/-! ### All steps -/

theorem due_valueStep {st : List Frame} {c : Char} {cfg : Config} {t : List Char}
    (h : valueStep st c = some cfg) (ht : Due cfg t) : ValueDue st (c :: t) := by
  have hlit {l : Literal} (hl : l.text = c :: l.text.drop 1) (hcfg : cfg = (.lit l 1, st)) :
      ValueDue st (c :: t) := by
    subst hcfg
    obtain ⟨t', hrest, rfl⟩ := ht
    exact ⟨[], l.text, t', isWs_nil, .literal l, hrest, by rw [hl]; rfl⟩
  rw [valueStep] at h
  rcases ite_eq_iff.mp h with ⟨hws, h⟩ | ⟨-, h⟩
  · cases h
    exact valueDue_ws hws ht
  rcases ite_eq_iff.mp h with ⟨rfl, h⟩ | ⟨-, h⟩
  · cases h
    obtain ⟨b, t', hb, hrest, rfl⟩ := ht
    refine ⟨[], '"' :: (b ++ ['"']), t', isWs_nil, .string ⟨b, hb, rfl⟩, hrest, ?_⟩
    simp
  rcases ite_eq_iff.mp h with ⟨rfl, h⟩ | ⟨-, h⟩
  · cases h
    rcases ht with ⟨-, w, t', hw, hrest, rfl⟩ | hkey
    · refine ⟨[], '{' :: (w ++ ['}']), t', isWs_nil, .emptyObject hw, hrest, ?_⟩
      simp [Frame.closer]
    · obtain ⟨m, t', hm, hrest, rfl⟩ := members_of_keyDue hkey
      refine ⟨[], '{' :: (m ++ ['}']), t', isWs_nil, .object hm, hrest, ?_⟩
      simp
  rcases ite_eq_iff.mp h with ⟨rfl, h⟩ | ⟨-, h⟩
  · cases h
    rcases ht with ⟨-, w, t', hw, hrest, rfl⟩ | hvalue
    · refine ⟨[], '[' :: (w ++ [']']), t', isWs_nil, .emptyArray hw, hrest, ?_⟩
      simp [Frame.closer]
    · obtain ⟨m, t', hm, hrest, rfl⟩ := elements_of_valueDue hvalue
      refine ⟨[], '[' :: (m ++ [']']), t', isWs_nil, .array hm, hrest, ?_⟩
      simp
  rcases ite_eq_iff.mp h with ⟨rfl, h⟩ | ⟨-, h⟩
  · cases h
    obtain ⟨d, t', ⟨i, f, e, hi, hf, he, rfl⟩, hrest, rfl⟩ := ht
    exact ⟨[], '-' :: (i ++ (f ++ e)), t', isWs_nil,
      .number ⟨['-'], i, f, e, Or.inr rfl, hi, hf, he, rfl⟩, hrest, rfl⟩
  rcases ite_eq_iff.mp h with ⟨rfl, h⟩ | ⟨hzero, h⟩
  · cases h
    obtain ⟨d, t', ⟨f, e, hf, he, rfl⟩, hrest, rfl⟩ := ht
    exact ⟨[], '0' :: (f ++ e), t', isWs_nil,
      .number ⟨[], ['0'], f, e, Or.inl rfl, Or.inl rfl, hf, he, rfl⟩, hrest, rfl⟩
  rcases ite_eq_iff.mp h with ⟨hdigit, h⟩ | ⟨-, h⟩
  · cases h
    obtain ⟨d, t', ⟨ds, f, e, hds, hf, he, rfl⟩, hrest, rfl⟩ := ht
    refine ⟨[], c :: (ds ++ (f ++ e)), t', isWs_nil,
      .number ⟨[], c :: ds, f, e, Or.inl rfl, ?_, hf, he, rfl⟩, hrest, rfl⟩
    exact isInt_cons hdigit hzero hds
  rcases ite_eq_iff.mp h with ⟨rfl, h⟩ | ⟨-, h⟩
  · exact hlit (l := .true) rfl (Option.some.inj h).symm
  rcases ite_eq_iff.mp h with ⟨rfl, h⟩ | ⟨-, h⟩
  · exact hlit (l := .false) rfl (Option.some.inj h).symm
  rcases ite_eq_iff.mp h with ⟨rfl, h⟩ | ⟨-, h⟩
  · exact hlit (l := .null) rfl (Option.some.inj h).symm
  · cases h

/-- **What is due after a step was due before it**, the character read in front. -/
theorem due_of_step {cfg cfg' : Config} {c : Char} {t : List Char} (h : step cfg c = some cfg')
    (ht : Due cfg' t) : Due cfg (c :: t) := by
  have hend {f : Frame} {st : List Frame} (h : close f st = some cfg') :
      EndDue f st (f.closer :: t) := by
    obtain ⟨st', rfl, rfl⟩ := close_some h
    exact ⟨rfl, [], t, isWs_nil, ht, rfl⟩
  have hname {st : List Frame} (h : some (Mode.str true .body, st) = some cfg') :
      KeyDue st ('"' :: t) := by
    cases h
    obtain ⟨b, t', hb, hcolon, rfl⟩ := ht
    refine ⟨[], '"' :: (b ++ ['"']), t', isWs_nil, ⟨b, hb, rfl⟩, hcolon, ?_⟩
    simp
  obtain ⟨m, st⟩ := cfg
  cases m with
  | after => exact due_afterStep h ht
  | value => exact due_valueStep h ht
  | firstValue =>
    rw [step] at h
    split at h
    · next hws =>
      cases h
      exact ht.imp (endDue_ws hws) (valueDue_ws hws)
    split at h
    · next hbracket =>
      subst hbracket
      exact Or.inl (hend h)
    · exact Or.inr (due_valueStep h ht)
  | key =>
    rw [step] at h
    split at h
    · next hws =>
      cases h
      exact keyDue_ws hws ht
    split at h
    · next hquote =>
      subst hquote
      exact hname h
    · cases h
  | firstKey =>
    rw [step] at h
    split at h
    · next hws =>
      cases h
      exact ht.imp (endDue_ws hws) (keyDue_ws hws)
    split at h
    · next hbrace =>
      subst hbrace
      exact Or.inl (hend h)
    split at h
    · next hquote =>
      subst hquote
      exact Or.inr (hname h)
    · cases h
  | colon =>
    rw [step] at h
    split at h
    · next hws =>
      cases h
      exact colonDue_ws hws ht
    split at h
    · next hcolon =>
      subst hcolon
      cases h
      exact ⟨[], t, isWs_nil, ht, rfl⟩
    · cases h
  | str name q => exact strTail_step h ht
  | num q =>
    cases hq : numStep q c with
    | some q' =>
      simp only [step, hq] at h
      cases h
      obtain ⟨d, t', hd, hrest, rfl⟩ := ht
      exact ⟨c :: d, t', numTail_step hq hd, hrest, rfl⟩
    | none =>
      simp only [step, hq] at h
      split at h
      · next hfinal => exact ⟨[], c :: t, numTail_final hfinal, due_afterStep h ht, rfl⟩
      · cases h
  | lit l k => exact lit_step h ht

/-- **An accepted text brings what was due.** -/
theorem due_of_accepts {cfg : Config} {s : List Char} (h : accepts cfg s = true) : Due cfg s := by
  induction s generalizing cfg with
  | nil =>
    obtain ⟨m, st⟩ := cfg
    rw [accepts_nil] at h
    unfold accepting at h
    split at h
    · next hcfg =>
      cases hcfg
      exact isWs_nil
    · next q hcfg =>
      cases hcfg
      exact ⟨[], [], numTail_final h, isWs_nil, rfl⟩
    · cases h
  | cons c s ih =>
    rw [accepts_cons] at h
    obtain ⟨cfg', hstep, hrest⟩ := (Option.any_eq_true _ _).mp h
    exact due_of_step hstep (ih hrest)

/-! ## Derivations are accepted -/

/-- Characters that do not go on with a number. -/
def Delimits (c : Char) : Prop := c.isDigit = false ∧ c ≠ '.' ∧ c ≠ 'e' ∧ c ≠ 'E'

instance (c : Char) : Decidable (Delimits c) := inferInstanceAs (Decidable (_ ∧ _))

/-- A text that does not go on with a number. -/
def Delimited (t : List Char) : Prop := ∀ c ∈ t.head?, Delimits c

theorem delimited_cons {c : Char} (h : Delimits c) (t : List Char) : Delimited (c :: t) := by
  intro d hd
  cases hd
  exact h

theorem delimited_ws {w t : List Char} (hw : IsWs w) (ht : Delimited t) :
    Delimited (w ++ t) := by
  cases w with
  | nil => exact ht
  | cons c w =>
    refine delimited_cons ?_ _
    have hc := hw c List.mem_cons_self
    simp only [isWs, Bool.or_eq_true, decide_eq_true_eq] at hc
    rcases hc with ((rfl | rfl) | rfl) | rfl <;> decide

/-- White space is skipped where it may stand. -/
theorem accepts_skip {m : Mode} {st : List Frame}
    (hm : ∀ c, isWs c = true → step (m, st) c = some (m, st)) {w : List Char} (hw : IsWs w)
    (t : List Char) : accepts (m, st) (w ++ t) = accepts (m, st) t := by
  induction w with
  | nil => rfl
  | cons c w ih =>
    rw [List.cons_append, accepts_step _ (hm c (hw c List.mem_cons_self))]
    exact ih fun d hd => hw d (List.mem_cons_of_mem c hd)

theorem after_skip {st : List Frame} (c : Char) (hc : isWs c = true) :
    step (.after, st) c = some (.after, st) := by simp [step, afterStep, hc]

theorem value_skip {st : List Frame} (c : Char) (hc : isWs c = true) :
    step (.value, st) c = some (.value, st) := by simp [step, valueStep, hc]

theorem firstValue_skip {st : List Frame} (c : Char) (hc : isWs c = true) :
    step (.firstValue, st) c = some (.firstValue, st) := by simp [step, hc]

theorem key_skip {st : List Frame} (c : Char) (hc : isWs c = true) :
    step (.key, st) c = some (.key, st) := by simp [step, hc]

theorem firstKey_skip {st : List Frame} (c : Char) (hc : isWs c = true) :
    step (.firstKey, st) c = some (.firstKey, st) := by simp [step, hc]

theorem colon_skip {st : List Frame} (c : Char) (hc : isWs c = true) :
    step (.colon, st) c = some (.colon, st) := by simp [step, hc]

/-! ### Strings -/

theorem isPlain_ne {c : Char} (h : isPlain c = true) : c ≠ '"' ∧ c ≠ '\\' := by
  simp only [isPlain, Bool.and_eq_true, decide_eq_true_eq] at h
  exact ⟨h.1.2, h.2⟩

theorem accepts_hex {name : Bool} {st : List Frame} {n : ℕ} {h : List Char}
    (hlen : h.length = n + 1) (hhex : ∀ c ∈ h, isHex c = true) (t : List Char) :
    accepts (.str name (.hex n), st) (h ++ t) = accepts (.str name .body, st) t := by
  induction n generalizing h with
  | zero =>
    obtain ⟨c, rfl⟩ := List.length_eq_one_iff.mp hlen
    exact accepts_step _ (by simp [step, strStep, hhex c List.mem_cons_self]) t
  | succ n ih =>
    cases h with
    | nil => cases hlen
    | cons c h =>
      rw [List.cons_append, accepts_step (.str name (.hex n), st)
        (by simp [step, strStep, hhex c List.mem_cons_self])]
      exact ih (Nat.succ.inj hlen) fun d hd => hhex d (List.mem_cons_of_mem c hd)

/-- The scanner passes over what stands between two quotes, and the closing quote. -/
theorem accepts_body {name : Bool} {st : List Frame} {b : List Char} (hb : StrBody b)
    (t : List Char) : accepts (.str name .body, st) (b ++ '"' :: t) =
      accepts (if name then .colon else .after, st) t := by
  induction hb with
  | nil => exact accepts_step _ (by simp [step, strStep]) t
  | @plain c s hc _ ih =>
    have hne := isPlain_ne hc
    rw [List.cons_append, accepts_step (.str name .body, st)
      (by simp [step, strStep, hne.1, hne.2, hc])]
    exact ih
  | @escape c s hc _ ih =>
    have hne : c ≠ 'u' := by
      rintro rfl
      exact absurd hc (by decide)
    rw [List.cons_append, List.cons_append, accepts_step (.str name .escape, st) rfl,
      accepts_step (.str name .body, st) (by simp [step, strStep, hne, hc])]
    exact ih
  | @unicode h s hlen hhex _ ih =>
    rw [List.cons_append, List.cons_append, accepts_step (.str name .escape, st) rfl,
      accepts_step (.str name (.hex 3), st) rfl, List.append_assoc,
      accepts_hex hlen hhex]
    exact ih

/-! ### Numbers -/

/-- The scanner passes over digits that leave it where it is. -/
theorem accepts_digits {q : NumState} (hq : ∀ c : Char, c.isDigit = true → numStep q c = some q)
    {st : List Frame} {ds : List Char} (hds : ∀ c ∈ ds, c.isDigit = true) (t : List Char) :
    accepts (.num q, st) (ds ++ t) = accepts (.num q, st) t := by
  induction ds with
  | nil => rfl
  | cons c ds ih =>
    rw [List.cons_append, accepts_step (.num q, st)
      (by simp [step, hq c (hds c List.mem_cons_self)])]
    exact ih fun d hd => hds d (List.mem_cons_of_mem c hd)

/-- The first of some digits, then the others. -/
theorem accepts_digits_from {q : NumState} (q' : NumState)
    (hq : ∀ c : Char, c.isDigit = true → numStep q c = some q')
    (hq' : ∀ c : Char, c.isDigit = true → numStep q' c = some q') {st : List Frame}
    {ds : List Char} (hds : Digits ds) (t : List Char) :
    accepts (.num q, st) (ds ++ t) = accepts (.num q', st) t := by
  obtain ⟨hne, hall⟩ := hds
  cases ds with
  | nil => exact absurd rfl hne
  | cons c ds =>
    rw [List.cons_append, accepts_step (.num q', st)
      (by simp [step, hq c (hall c List.mem_cons_self)])]
    exact accepts_digits hq' (fun d hd => hall d (List.mem_cons_of_mem c hd)) t

/-- A number that may end does, where the text does not go on with it. -/
theorem accepts_final {q : NumState} (hq : q.isFinal = true) {st : List Frame} {t : List Char}
    (ht : Delimited t) : accepts (.num q, st) t = accepts (.after, st) t := by
  cases t with
  | nil => cases st <;> simp [accepting, hq]
  | cons c t =>
    obtain ⟨hdigit, hdot, he, hE⟩ := ht c rfl
    have hnone : numStep q c = none := by
      cases q <;> simp_all [numStep, fracStep, expStep, NumState.isFinal]
    have hstep : step (.num q, st) c = step (.after, st) c := by simp [step, hnone, hq]
    rw [accepts_cons, accepts_cons, hstep]

theorem accepts_exp {q : NumState} (hq : q.isFinal = true)
    (he : ∀ c, c = 'e' ∨ c = 'E' → numStep q c = some .exp) {st : List Frame}
    {e t : List Char} (h : IsExp e) (ht : Delimited t) :
    accepts (.num q, st) (e ++ t) = accepts (.after, st) t := by
  rcases h with rfl | ⟨c, sign, ds, hc, hsign, hds, rfl⟩
  · exact accepts_final hq ht
  have hsigned : accepts (.num .exp, st) (sign ++ (ds ++ t)) = accepts (.num .expInt, st) t := by
    rcases hsign with rfl | rfl | rfl
    · exact accepts_digits_from .expInt (by simp +contextual [numStep]) (by simp +contextual [numStep])
        hds t
    · exact (accepts_step _ rfl _).trans (accepts_digits_from .expInt (by simp +contextual [numStep])
        (by simp +contextual [numStep]) hds t)
    · exact (accepts_step _ rfl _).trans (accepts_digits_from .expInt (by simp +contextual [numStep])
        (by simp +contextual [numStep]) hds t)
  rw [List.cons_append, List.append_assoc, accepts_step (.num .exp, st)
    (by simp [step, he c hc]), hsigned]
  exact accepts_final rfl ht

theorem accepts_frac {q : NumState} (hq : q.isFinal = true) (hdot : numStep q '.' = some .dot)
    (he : ∀ c, c = 'e' ∨ c = 'E' → numStep q c = some .exp) {st : List Frame}
    {f e t : List Char} (hf : IsFrac f) (h : IsExp e) (ht : Delimited t) :
    accepts (.num q, st) (f ++ (e ++ t)) = accepts (.after, st) t := by
  rcases hf with rfl | ⟨ds, hds, rfl⟩
  · exact accepts_exp hq he h ht
  rw [List.cons_append, accepts_step (.num .dot, st) (by simp [step, hdot]),
    accepts_digits_from .frac (by simp +contextual [numStep])
      (by simp +contextual [numStep]) hds]
  exact accepts_exp rfl (by rintro c (rfl | rfl) <;> rfl) h ht

/-! ### Values -/

theorem isDigit_ne {c d : Char} (hc : c.isDigit = true) (hd : d.isDigit = false) : c ≠ d := by
  rintro rfl
  rw [hc] at hd
  cases hd

/-- A digit starts a number. -/
theorem valueStep_digit {st : List Frame} {c : Char} (hc : c.isDigit = true) (h0 : c ≠ '0') :
    step (.value, st) c = some (.num .int, st) := by
  have hws : isWs c = false := by
    simp only [isWs, Bool.or_eq_false_iff, decide_eq_false_iff_not]
    exact ⟨⟨⟨isDigit_ne hc rfl, isDigit_ne hc rfl⟩, isDigit_ne hc rfl⟩, isDigit_ne hc rfl⟩
  have h₁ : c ≠ '"' := isDigit_ne hc rfl
  have h₂ : c ≠ '{' := isDigit_ne hc rfl
  have h₃ : c ≠ '[' := isDigit_ne hc rfl
  have h₄ : c ≠ '-' := isDigit_ne hc rfl
  simp [step, valueStep, hws, h₁, h₂, h₃, h₄, h0, hc]

/-- The integer part of a number leads to a state where it may go on or end. -/
theorem accepts_int {m : Mode} {st : List Frame} (h0 : step (m, st) '0' = some (.num .zero, st))
    (hd : ∀ c : Char, c.isDigit = true → c ≠ '0' → step (m, st) c = some (.num .int, st))
    {i f e t : List Char} (hi : IsInt i) (hf : IsFrac f) (he : IsExp e) (ht : Delimited t) :
    accepts (m, st) (i ++ (f ++ (e ++ t))) = accepts (.after, st) t := by
  rcases hi with rfl | ⟨d, ds, hdigit, hne, hds, rfl⟩
  · exact (accepts_step _ h0 _).trans
      (accepts_frac rfl rfl (by rintro c (rfl | rfl) <;> rfl) hf he ht)
  · rw [List.cons_append, accepts_step _ (hd d hdigit hne),
      accepts_digits (by simp +contextual [numStep]) hds]
    exact accepts_frac rfl rfl (by rintro c (rfl | rfl) <;> rfl) hf he ht

theorem accepts_number {st : List Frame} {s t : List Char} (hs : IsNumber s)
    (ht : Delimited t) : accepts (.value, st) (s ++ t) = accepts (.after, st) t := by
  obtain ⟨sign, i, f, e, hsign, hi, hf, he, rfl⟩ := hs
  simp only [List.append_assoc]
  rcases hsign with rfl | rfl
  · exact accepts_int rfl (fun _ => valueStep_digit) hi hf he ht
  · refine (accepts_step (.num .minus, st) rfl _).trans (accepts_int rfl ?_ hi hf he ht)
    intro c hc hne
    simp [step, numStep, hc, hne]

theorem accepts_literal {st : List Frame} (l : Literal) (t : List Char) :
    accepts (.value, st) (l.text ++ t) = accepts (.after, st) t := by
  cases l <;> exact (accepts_append _ _ _).trans rfl

/-- A value starts with a character that neither is white space nor closes an array. -/
theorem value_head {v : List Char} (h : Derives .value v) :
    ∃ c v', v = c :: v' ∧ isWs c = false ∧ c ≠ ']' := by
  cases h with
  | string hs =>
    obtain ⟨b, -, rfl⟩ := hs
    exact ⟨_, _, rfl, by decide, by decide⟩
  | number hn =>
    obtain ⟨sign, i, f, e, rfl | rfl, hi, -, -, rfl⟩ := hn
    · rcases hi with rfl | ⟨d, ds, hd, -, -, rfl⟩
      · exact ⟨_, _, rfl, by decide, by decide⟩
      · refine ⟨d, _, rfl, ?_, isDigit_ne hd rfl⟩
        simp only [isWs, Bool.or_eq_false_iff, decide_eq_false_iff_not]
        exact ⟨⟨⟨isDigit_ne hd rfl, isDigit_ne hd rfl⟩, isDigit_ne hd rfl⟩, isDigit_ne hd rfl⟩
    · exact ⟨_, _, rfl, by decide, by decide⟩
  | literal l => cases l <;> exact ⟨_, _, rfl, by decide, by decide⟩
  | _ => exact ⟨_, _, rfl, by decide, by decide⟩

/-- Where an array may end at once, a value is read as where one has to stand. -/
theorem accepts_firstValue {sym : Sym} {s : List Char} (h : Derives sym s)
    (hsym : sym = .element ∨ sym = .elements) (st : List Frame) (t : List Char) :
    accepts (.firstValue, st) (s ++ t) = accepts (.value, st) (s ++ t) := by
  have helement {e : List Char} (h : Derives .element e) (t : List Char) :
      accepts (.firstValue, st) (e ++ t) = accepts (.value, st) (e ++ t) := by
    cases h with
    | element hw hv hw' =>
      obtain ⟨c, v', rfl, hc, hne⟩ := value_head hv
      have hstep : step (.firstValue, st) c = step (.value, st) c := by simp [step, hc, hne]
      rw [List.append_assoc, accepts_skip firstValue_skip hw, accepts_skip value_skip hw,
        List.append_assoc, List.cons_append, accepts_cons, accepts_cons, hstep]
  cases h with
  | element hw hv hw' => exact helement (.element hw hv hw') t
  | lastElement he => exact helement he t
  | elements he _ =>
    rw [List.append_assoc]
    exact helement he _
  | _ => rcases hsym with h | h <;> cases h

/-- Where an object may end at once, a name is read as where one has to stand. -/
theorem accepts_firstKey {sym : Sym} {s : List Char} (h : Derives sym s)
    (hsym : sym = .member ∨ sym = .members) (st : List Frame) (t : List Char) :
    accepts (.firstKey, st) (s ++ t) = accepts (.key, st) (s ++ t) := by
  have hmember {m : List Char} (h : Derives .member m) (t : List Char) :
      accepts (.firstKey, st) (m ++ t) = accepts (.key, st) (m ++ t) := by
    cases h with
    | member hw hk hw' he =>
      obtain ⟨b, -, rfl⟩ := hk
      rw [List.append_assoc, accepts_skip firstKey_skip hw, accepts_skip key_skip hw]
      exact (accepts_step (.str true .body, st) rfl _).trans
        (accepts_step (.str true .body, st) rfl _).symm
  cases h with
  | member hw hk hw' he => exact hmember (.member hw hk hw' he) t
  | lastMember hm => exact hmember hm t
  | members hm _ =>
    rw [List.append_assoc]
    exact hmember hm _
  | _ => rcases hsym with h | h <;> cases h

/-- Where the scanner is before a nonterminal, and after it. -/
def Sym.entry : Sym → Mode
  | .value | .element | .elements => .value
  | .member | .members => .key

def Sym.frames (st : List Frame) : Sym → List Frame
  | .value | .element => st
  | .elements => .array :: st
  | .member | .members => .object :: st

theorem accepts_string {m : Mode} (name : Bool) {st : List Frame}
    (hm : step (m, st) '"' = some (.str name .body, st)) {s : List Char} (hs : IsString s)
    (t : List Char) :
    accepts (m, st) (s ++ t) = accepts (if name then .colon else .after, st) t := by
  obtain ⟨b, hb, rfl⟩ := hs
  rw [List.cons_append, accepts_step _ hm, List.append_assoc]
  exact accepts_body hb t

/-- **The scanner passes over what it is due to read.** -/
theorem accepts_derives {sym : Sym} {s : List Char} (h : Derives sym s) (st : List Frame)
    {t : List Char} (ht : Delimited t) :
    accepts (sym.entry, sym.frames st) (s ++ t) = accepts (.after, sym.frames st) t := by
  induction h generalizing st t with
  | string hs => exact accepts_string false rfl hs t
  | number hn => exact accepts_number hn ht
  | literal l => exact accepts_literal l t
  | emptyObject hw =>
    rw [List.cons_append, List.append_assoc]
    refine (accepts_step (.firstKey, .object :: st) rfl _).trans ?_
    rw [accepts_skip firstKey_skip hw]
    exact accepts_step _ rfl t
  | @object m hm ih =>
    rw [List.cons_append, List.append_assoc]
    refine (accepts_step (.firstKey, .object :: st) rfl _).trans ?_
    rw [accepts_firstKey hm (Or.inr rfl)]
    exact (ih st (delimited_cons (by decide) t)).trans (accepts_step _ rfl t)
  | emptyArray hw =>
    rw [List.cons_append, List.append_assoc]
    refine (accepts_step (.firstValue, .array :: st) rfl _).trans ?_
    rw [accepts_skip firstValue_skip hw]
    exact accepts_step _ rfl t
  | array he ih =>
    rw [List.cons_append, List.append_assoc]
    refine (accepts_step (.firstValue, .array :: st) rfl _).trans ?_
    rw [accepts_firstValue he (Or.inr rfl)]
    exact (ih st (delimited_cons (by decide) t)).trans (accepts_step _ rfl t)
  | element hw _ hw' ih =>
    rw [List.append_assoc, List.append_assoc]
    refine (accepts_skip value_skip hw _).trans ?_
    exact (ih st (delimited_ws hw' ht)).trans (accepts_skip after_skip hw' t)
  | lastElement _ ih => exact ih (.array :: st) ht
  | elements _ _ ih ihs =>
    rw [List.append_assoc, List.cons_append]
    refine (ih (.array :: st) (delimited_cons (by decide) _)).trans ?_
    exact (accepts_step (.value, .array :: st) rfl _).trans (ihs st ht)
  | member hw hk hw' _ ih =>
    rw [List.append_assoc, List.append_assoc, List.append_assoc, List.cons_append]
    refine (accepts_skip key_skip hw _).trans ?_
    refine (accepts_string true rfl hk _).trans ?_
    refine (accepts_skip colon_skip hw' _).trans ?_
    exact (accepts_step (.value, .object :: st) rfl _).trans (ih (.object :: st) ht)
  | lastMember _ ih => exact ih st ht
  | members _ _ ih ihs =>
    rw [List.append_assoc, List.cons_append]
    refine (ih st (delimited_cons (by decide) _)).trans ?_
    exact (accepts_step (.key, .object :: st) rfl _).trans (ihs st ht)

/-! ## Objects -/

/-- **The scanner accepts the objects.** -/
theorem isObject_iff (s : List Char) :
    IsObject s ↔ ∃ v, s = '{' :: v ∧ accepts (.value, []) s = true := by
  have hend {w : List Char} (hw : IsWs w) : accepts (.after, []) w = true := by
    have h : accepts (.after, []) (w ++ []) = true := accepts_skip after_skip hw []
    rwa [List.append_nil] at h
  constructor
  · rintro ⟨v, w, hv, hw, rfl⟩
    refine ⟨v ++ w, rfl, ?_⟩
    have hdelim : Delimited w := by
      have h := delimited_ws hw (t := []) (by simp [Delimited])
      rwa [List.append_nil] at h
    exact (accepts_derives hv [] hdelim).trans (hend hw)
  · rintro ⟨v, rfl, h⟩
    obtain ⟨w, u, t, hw, hu, ht, heq⟩ := due_of_accepts h
    -- an object starts with no white space
    cases w with
    | cons c w =>
      cases heq
      exact absurd (hw '{' List.mem_cons_self) (by decide)
    | nil =>
      obtain ⟨c, u', rfl, -, -⟩ := value_head hu
      cases heq
      exact ⟨u', t, hu, ht, rfl⟩

instance : DecidablePred IsObject := fun s =>
  decidable_of_iff (s.head? = some '{' ∧ accepts (.value, []) s = true) <| by
    rw [isObject_iff]
    cases s with
    | nil => simp
    | cons c s => simp

theorem isLine_iff (v : List Char) :
    IsLine ('{' :: v ++ ['\n']) ↔ '\n' ∉ '{' :: v ∧ accepts (.value, []) ('{' :: v) = true := by
  rw [isLine_concat, isObject_iff]
  refine and_congr_right fun _ => ⟨fun ⟨u, hu, h⟩ => ?_, fun h => ⟨v, rfl, h⟩⟩
  exact h

instance : DecidablePred IsLine := fun s =>
  decidable_of_iff (s.getLast? = some '\n' ∧ '\n' ∉ s.dropLast ∧ IsObject s.dropLast) <| by
    constructor
    · rintro ⟨hlast, hline⟩
      exact ⟨s.dropLast, (List.dropLast_append_getLast? '\n' hlast).symm, hline⟩
    · rintro ⟨v, rfl, hline⟩
      rw [List.dropLast_concat]
      exact ⟨List.getLast?_concat, hline⟩

/-! ## Quotes left open

What may stand between two quotes of a text depends on what follows.  After a closing quote
a comma and a named member are read in one state only, and so is the end of the object
(`accepts_moreFields`, `accepts_noField`): the scanner is in a string value of an object. -/

theorem step_num_quote (q : NumState) (st : List Frame) : step (.num q, st) '"' = none := by
  cases q <;> rfl

theorem step_lit_quote (l : Literal) (k : ℕ) (st : List Frame) :
    step (.lit l k, st) '"' = none := by
  have hne : l.text[k]? ≠ some '"' := by
    intro h
    have hmem := List.mem_of_getElem? h
    cases l <;> exact absurd hmem (by decide)
  simp only [step, litStep, if_neg hne]

theorem step_hex_quote (name : Bool) (n : ℕ) (st : List Frame) :
    step (.str name (.hex n), st) '"' = none := by cases n <;> rfl

/-- A quote closes a string, if what follows it cannot be read inside of one. -/
theorem accepts_quote {r : List Char}
    (hinside : ∀ name st, accepts (.str name .body, st) r = false) (cfg : Config) :
    accepts cfg ('"' :: r) = true ↔ ∃ name st, cfg = (.str name .body, st) ∧
      accepts (if name then .colon else .after, st) r = true := by
  constructor
  · intro h
    obtain ⟨m, st⟩ := cfg
    have hstuck (hstep : step (m, st) '"' = none) : False := by
      rw [accepts_stuck hstep] at h
      cases h
    have hopened (name : Bool) (hstep : step (m, st) '"' = some (.str name .body, st)) :
        False := by
      rw [accepts_step _ hstep, hinside] at h
      cases h
    cases m with
    | after | colon => exact (hstuck rfl).elim
    | value | firstValue => exact (hopened false rfl).elim
    | key | firstKey => exact (hopened true rfl).elim
    | num q => exact (hstuck (step_num_quote q st)).elim
    | lit l k => exact (hstuck (step_lit_quote l k st)).elim
    | str name q =>
      cases q with
      | body =>
        rw [accepts_step (if name then .colon else .after, st) rfl] at h
        exact ⟨name, st, rfl, h⟩
      | escape => exact (hopened name rfl).elim
      | hex k => exact (hstuck (step_hex_quote name k st)).elim
  · rintro ⟨name, st, rfl, h⟩
    rwa [accepts_step (if name then .colon else .after, st) rfl]

/-- **A named member after a quote.**  The name's first character `a` is one that goes on
neither after a value nor after a name. -/
theorem accepts_moreFields {a : Char} {n u s t : List Char}
    (hs : s = '"' :: ((a :: n) ++ '"' :: ':' :: u)) (hn : StrBody (a :: n))
    (hafter : ∀ st, step (.after, st) a = none) (hcolon : ∀ st, step (.colon, st) a = none)
    (hleaves : Leaves .members s ('}' :: t)) (cfg : Config) :
    accepts cfg ('"' :: ',' :: s) = true ↔
      ∃ st, cfg = (.str false .body, .object :: st) ∧ accepts (.after, st) t = true := by
  have hinside : ∀ name st, accepts (.str name .body, st) (',' :: s) = false := by
    intro name st
    rw [hs, accepts_step (.str name .body, st) rfl,
      accepts_step (if name then .colon else .after, st) rfl]
    cases name
    · exact accepts_stuck (hafter st) _
    · exact accepts_stuck (hcolon st) _
  have hmembers (st : List Frame) :
      accepts (.after, .object :: st) (',' :: s) = accepts (.after, st) t := by
    obtain ⟨d, hd, rfl⟩ := hleaves
    rw [accepts_step (.key, .object :: st) rfl]
    exact (accepts_derives hd st (delimited_cons (by decide) t)).trans (accepts_step _ rfl t)
  rw [accepts_quote hinside]
  constructor
  · rintro ⟨name, st, rfl, h⟩
    cases name with
    | true => exact absurd h (by rw [accepts_stuck rfl]; decide)
    | false =>
      cases st with
      | nil => exact absurd h (by rw [accepts_stuck rfl]; decide)
      | cons f st =>
        cases f with
        | object => exact ⟨st, rfl, (hmembers st).symm.trans h⟩
        | array =>
          -- the name would be a value of the array, and no colon follows a value
          rw [accepts_step (.value, .array :: st) rfl, hs,
            accepts_step (.str false .body, .array :: st) rfl, accepts_body hn,
            accepts_stuck rfl] at h
          cases h
  · rintro ⟨st, rfl, h⟩
    exact ⟨false, .object :: st, rfl, (hmembers st).trans h⟩

/-- **The end of the object after a quote.** -/
theorem accepts_noField {t : List Char}
    (ht : ∀ name st, accepts (.str name .body, st) t = false) (cfg : Config) :
    accepts cfg ('"' :: '}' :: t) = true ↔
      ∃ st, cfg = (.str false .body, .object :: st) ∧ accepts (.after, st) t = true := by
  have hinside : ∀ name st, accepts (.str name .body, st) ('}' :: t) = false := by
    intro name st
    rw [accepts_step (.str name .body, st) rfl, ht]
  rw [accepts_quote hinside]
  constructor
  · rintro ⟨name, st, rfl, h⟩
    cases name with
    | true => exact absurd h (by rw [accepts_stuck rfl]; decide)
    | false =>
      cases st with
      | nil => exact absurd h (by rw [accepts_stuck rfl]; decide)
      | cons f st =>
        cases f with
        | object => exact ⟨st, rfl, h⟩
        | array => exact absurd h (by rw [accepts_stuck rfl]; decide)
  · rintro ⟨st, rfl, h⟩
    exact ⟨false, .object :: st, rfl, h⟩

theorem accepts_scan {cfg cfg' : Config} {s : List Char} (h : scan cfg s = some cfg')
    (t : List Char) : accepts cfg (s ++ t) = accepts cfg' t := by
  rw [accepts_append, h]
  rfl

/-- Texts read alike from every state are read alike after the same beginning. -/
theorem accepts_congr {t t' : List Char} (h : ∀ cfg, accepts cfg t = accepts cfg t')
    (cfg : Config) (s : List Char) : accepts cfg (s ++ t) = accepts cfg (s ++ t') := by
  simp only [accepts_append, h]

end UsbTrace.Library.Json
