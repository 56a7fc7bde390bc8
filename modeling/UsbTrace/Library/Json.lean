import Mathlib.Data.List.Basic

/-!
# JSON texts

The grammar of JSON (RFC 8259) over lists of characters, in the form in which white space
belongs to the elements and members of a collection.  A character outside ASCII is an
ordinary character of a string.
-/

set_option autoImplicit false

namespace UsbTrace.Library.Json

/-! ## Characters -/

def isWs (c : Char) : Bool := c = ' ' || c = '\t' || c = '\n' || c = '\r'

/-- A character that stands for itself in a string. -/
def isPlain (c : Char) : Bool := 0x20 ≤ c.toNat && c ≠ '"' && c ≠ '\\'

/-- A character that may follow a backslash, `u` aside. -/
def isEscape (c : Char) : Bool :=
  c = '"' || c = '\\' || c = '/' || c = 'b' || c = 'f' || c = 'n' || c = 'r' || c = 't'

def isHex (c : Char) : Bool := c.isDigit || ('a' ≤ c && c ≤ 'f') || ('A' ≤ c && c ≤ 'F')

/-! ## Strings, numbers and literals -/

/-- White space. -/
def IsWs (s : List Char) : Prop := ∀ c ∈ s, isWs c = true

/-- What may stand between the quotes of a string. -/
inductive StrBody : List Char → Prop
  | nil : StrBody []
  | plain {c : Char} {s : List Char} : isPlain c = true → StrBody s → StrBody (c :: s)
  | escape {c : Char} {s : List Char} :
      isEscape c = true → StrBody s → StrBody ('\\' :: c :: s)
  | unicode {h s : List Char} : h.length = 4 → (∀ c ∈ h, isHex c = true) → StrBody s →
      StrBody ('\\' :: 'u' :: (h ++ s))

/-- A string with its quotes. -/
def IsString (s : List Char) : Prop := ∃ b, StrBody b ∧ s = '"' :: (b ++ ['"'])

/-- One digit or more. -/
def Digits (s : List Char) : Prop := s ≠ [] ∧ ∀ c ∈ s, c.isDigit = true

/-- The integer part of a number: no zero leads other digits. -/
def IsInt (s : List Char) : Prop :=
  s = ['0'] ∨ ∃ d ds, d.isDigit = true ∧ d ≠ '0' ∧ (∀ c ∈ ds, c.isDigit = true) ∧ s = d :: ds

def IsFrac (s : List Char) : Prop := s = [] ∨ ∃ ds, Digits ds ∧ s = '.' :: ds

def IsExp (s : List Char) : Prop :=
  s = [] ∨ ∃ e sign ds, (e = 'e' ∨ e = 'E') ∧ (sign = [] ∨ sign = ['+'] ∨ sign = ['-']) ∧
    Digits ds ∧ s = e :: (sign ++ ds)

def IsNumber (s : List Char) : Prop :=
  ∃ sign i f e, (sign = [] ∨ sign = ['-']) ∧ IsInt i ∧ IsFrac f ∧ IsExp e ∧
    s = sign ++ (i ++ (f ++ e))

inductive Literal where
  | true | false | null
deriving DecidableEq

def Literal.text : Literal → List Char
  | .true => ['t', 'r', 'u', 'e']
  | .false => ['f', 'a', 'l', 's', 'e']
  | .null => ['n', 'u', 'l', 'l']

/-! ## Values -/

/-- The nonterminals of the grammar. -/
inductive Sym where
  | value | element | elements | member | members

/-- `Derives sym s`: the text `s` is a `sym`. -/
inductive Derives : Sym → List Char → Prop
  | string {s : List Char} : IsString s → Derives .value s
  | number {s : List Char} : IsNumber s → Derives .value s
  | literal (l : Literal) : Derives .value l.text
  | emptyObject {w : List Char} : IsWs w → Derives .value ('{' :: (w ++ ['}']))
  | object {m : List Char} : Derives .members m → Derives .value ('{' :: (m ++ ['}']))
  | emptyArray {w : List Char} : IsWs w → Derives .value ('[' :: (w ++ [']']))
  | array {e : List Char} : Derives .elements e → Derives .value ('[' :: (e ++ [']']))
  | element {w v w' : List Char} :
      IsWs w → Derives .value v → IsWs w' → Derives .element (w ++ (v ++ w'))
  | lastElement {e : List Char} : Derives .element e → Derives .elements e
  | elements {e es : List Char} :
      Derives .element e → Derives .elements es → Derives .elements (e ++ ',' :: es)
  | member {w k w' e : List Char} :
      IsWs w → IsString k → IsWs w' → Derives .element e →
      Derives .member (w ++ (k ++ (w' ++ ':' :: e)))
  | lastMember {m : List Char} : Derives .member m → Derives .members m
  | members {m ms : List Char} :
      Derives .member m → Derives .members ms → Derives .members (m ++ ',' :: ms)

/-- A well-formed JSON object, and nothing else but white space after it. -/
def IsObject (s : List Char) : Prop :=
  ∃ v w, Derives .value ('{' :: v) ∧ IsWs w ∧ s = '{' :: (v ++ w)

/-- A line that is one well-formed JSON object. -/
def IsLine (s : List Char) : Prop := ∃ v, s = v ++ ['\n'] ∧ '\n' ∉ v ∧ IsObject v

theorem isLine_concat (v : List Char) :
    IsLine (v ++ ['\n']) ↔ '\n' ∉ v ∧ IsObject v := by
  constructor
  · rintro ⟨v', heq, hbreak, hobject⟩
    rw [List.append_cancel_right heq]
    exact ⟨hbreak, hobject⟩
  · rintro ⟨hbreak, hobject⟩
    exact ⟨v, rfl, hbreak, hobject⟩

theorem isWs_nil : IsWs [] := fun _ h => absurd h List.not_mem_nil

/-! ## Texts that begin with a derivation -/

/-- The text begins with a `sym`, and `t` is the rest. -/
def Leaves (sym : Sym) (s t : List Char) : Prop := ∃ d, Derives sym d ∧ s = d ++ t

/-- A text of plain characters is the inside of a string. -/
theorem StrBody.ofPlain {b : List Char} (h : b.all isPlain = true) : StrBody b := by
  induction b with
  | nil => exact .nil
  | cons c b ih =>
    rw [List.all_cons, Bool.and_eq_true] at h
    exact .plain h.1 (ih h.2)

/-- Texts between quotes may be put together. -/
theorem StrBody.append {b b' : List Char} (h : StrBody b) (h' : StrBody b') :
    StrBody (b ++ b') := by
  induction h with
  | nil => exact h'
  | plain hc _ ih => exact .plain hc ih
  | escape hc _ ih => exact .escape hc ih
  | unicode hlen hhex _ ih =>
    rw [List.cons_append, List.cons_append, List.append_assoc]
    exact .unicode hlen hhex ih

/-- The inside of a string has no newline. -/
theorem strBody_noBreak {b : List Char} (h : StrBody b) : '\n' ∉ b := by
  induction h with
  | nil => exact List.not_mem_nil
  | plain hc _ ih =>
    refine List.not_mem_cons_of_ne_of_not_mem ?_ ih
    rintro rfl
    exact absurd hc (by decide)
  | escape hc _ ih =>
    refine List.not_mem_cons_of_ne_of_not_mem (by decide)
      (List.not_mem_cons_of_ne_of_not_mem ?_ ih)
    rintro rfl
    exact absurd hc (by decide)
  | unicode _ hhex _ ih =>
    refine List.not_mem_cons_of_ne_of_not_mem (by decide)
      (List.not_mem_cons_of_ne_of_not_mem (by decide) (List.not_mem_append ?_ ih))
    exact fun hmem => absurd (hhex _ hmem) (by decide)

/-- A value is an element. -/
theorem Derives.toElement {v : List Char} (h : Derives .value v) : Derives .element v := by
  have := Derives.element isWs_nil h isWs_nil
  rwa [List.nil_append, List.append_nil] at this

/-- A name and a value make a member. -/
theorem Derives.field {n v : List Char} (hn : StrBody n) (hv : Derives .value v) :
    Derives .member ('"' :: (n ++ '"' :: ':' :: v)) := by
  have h := Derives.member isWs_nil ⟨n, hn, rfl⟩ isWs_nil hv.toElement
  simpa using h

theorem Derives.quoted {b : List Char} (hb : StrBody b) :
    Derives .value ('"' :: (b ++ ['"'])) := .string ⟨b, hb, rfl⟩

/-- A member, a comma and the members after it. -/
theorem Leaves.field {n v s t : List Char} (hn : StrBody n) (hv : Derives .value v)
    (hs : Leaves .members s t) :
    Leaves .members ('"' :: (n ++ '"' :: ':' :: (v ++ ',' :: s))) t := by
  obtain ⟨d, hd, rfl⟩ := hs
  exact ⟨_, .members (.field hn hv) hd, by simp⟩

theorem Leaves.lastField {n v : List Char} (hn : StrBody n) (hv : Derives .value v)
    (t : List Char) : Leaves .members ('"' :: (n ++ '"' :: ':' :: (v ++ t))) t :=
  ⟨_, .lastMember (.field hn hv), by simp⟩

/-- A member whose value is a string. -/
theorem Leaves.strField {n b s t : List Char} (hn : StrBody n) (hb : StrBody b)
    (hs : Leaves .members s t) :
    Leaves .members ('"' :: (n ++ '"' :: ':' :: '"' :: (b ++ '"' :: ',' :: s))) t := by
  have h := Leaves.field hn (.quoted hb) hs
  simpa using h

theorem Leaves.lastStrField {n b : List Char} (hn : StrBody n) (hb : StrBody b)
    (t : List Char) :
    Leaves .members ('"' :: (n ++ '"' :: ':' :: '"' :: (b ++ '"' :: t))) t := by
  have h := Leaves.lastField hn (.quoted hb) t
  simpa using h

theorem Leaves.lastArrayField {n a : List Char} (hn : StrBody n)
    (ha : Derives .value ('[' :: (a ++ [']']))) (t : List Char) :
    Leaves .members ('"' :: (n ++ '"' :: ':' :: '[' :: (a ++ ']' :: t))) t := by
  have h := Leaves.lastField hn ha t
  simpa using h

theorem Leaves.object {s t : List Char} (h : Leaves .members s ('}' :: t)) :
    Leaves .value ('{' :: s) t := by
  obtain ⟨d, hd, rfl⟩ := h
  exact ⟨_, .object hd, by simp⟩

/-- Values with commas between them. -/
theorem derives_elements {v : List Char} {vs : List (List Char)}
    (h : ∀ u ∈ v :: vs, Derives .value u) :
    Derives .elements (v ++ (vs.map fun u => ',' :: u).flatten) := by
  induction vs generalizing v with
  | nil =>
    simpa using Derives.lastElement (h v List.mem_cons_self).toElement
  | cons u vs ih =>
    have hrest := ih fun x hx => h x (List.mem_cons_of_mem v hx)
    simpa using Derives.elements (h v List.mem_cons_self).toElement hrest

end UsbTrace.Library.Json
