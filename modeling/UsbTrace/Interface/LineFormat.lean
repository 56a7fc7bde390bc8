import UsbTrace.Interface.JsonText
import UsbTrace.Library.JsonObject
import UsbTrace.Model.Printf
import Mathlib.Data.List.GetD

/-!
# Formats of JSON lines

The format of a JSON line is an object with conversions in its members.  `formatShape` finds
its members, and `shapePieces` is the format they make; where the two agree, which is checked
once for each format, what `printf` writes is the object whose members hold the arguments
(`render_object`), so that it is a line of JSON and can be read back (`printf_line`).
-/

set_option autoImplicit false

namespace UsbTrace.Interface

open UsbTrace.Model UsbTrace.Library UsbTrace.Library.Json

/-! ## Shapes -/

/-- A member of a format: a quoted text with conversions, or one conversion. -/
inductive Shape where
  | str (ps : List FormatPiece)
  | bare (spec : CStr)
deriving DecidableEq, Repr

abbrev Shapes := List (CStr × Shape)

def Shape.pieces : Shape → List FormatPiece
  | .str ps => .lit '"' :: (ps ++ [.lit '"'])
  | .bare spec => [.conv spec]

/-- The format of some members. -/
def memberPieces : Shapes → List FormatPiece
  | [] => []
  | [(n, s)] => .lit '"' :: (n.map .lit ++ .lit '"' :: .lit ':' :: s.pieces)
  | (n, s) :: rest =>
    .lit '"' :: (n.map .lit ++ .lit '"' :: .lit ':' :: (s.pieces ++ .lit ',' :: memberPieces rest))

/-- The format of a line. -/
def shapePieces (shapes : Shapes) : List FormatPiece :=
  .lit '{' :: (memberPieces shapes ++ [.lit '}', .lit '\n'])

/-- Where the reader of a format is: outside a member, in its name, before its colon, before
what it holds, in a quoted text, or at its end. -/
inductive FormatMode where
  | outside
  | name (n : CStr)
  | colon (n : CStr)
  | datum (n : CStr)
  | body (n : CStr) (ps : List FormatPiece)

/-- The members of a format. -/
def formatShape : FormatMode → List FormatPiece → Shapes
  | .outside, .lit c :: ps => if c = '"' then formatShape (.name []) ps else formatShape .outside ps
  | .name n, .lit c :: ps =>
    if c = '"' then formatShape (.colon n) ps else formatShape (.name (n ++ [c])) ps
  | .colon n, _ :: ps => formatShape (.datum n) ps
  | .datum n, .lit _ :: ps => formatShape (.body n []) ps
  | .datum n, .conv spec :: ps => (n, .bare spec) :: formatShape .outside ps
  | .body n b, .lit c :: ps =>
    if c = '"' then (n, .str b) :: formatShape .outside ps
    else formatShape (.body n (b ++ [.lit c])) ps
  | .body n b, .conv spec :: ps => formatShape (.body n (b ++ [.conv spec])) ps
  | _, _ => []

/-- The characters of a format, which may stand in several literals. -/
def Spells (fmt : String) (cs : CStr) : Prop := fmt.toList = cs

theorem Spells.lit {cs : CStr} : Spells (String.ofList cs) cs := String.toList_ofList

theorem Spells.more {fmt : String} {cs ds : CStr} (h : Spells fmt cs) :
    Spells (fmt ++ String.ofList ds) (cs ++ ds) := by
  rw [Spells, String.toList_append, h, String.toList_ofList]

/-- A format, read into its pieces. -/
theorem printf_eq {fmt : String} {cs : CStr} (h : Spells fmt cs) (args : List PrintfArg) :
    printf fmt args = renderPieces (formatPieces none cs) args := by rw [printf, h]

/-! ## Arguments in their places -/

/-- A quoted text with its arguments, and the arguments after them. -/
def fillBody : List FormatPiece → List PrintfArg → Option (CStr × List PrintfArg)
  | [], as => some ([], as)
  | .lit c :: ps, as => (fillBody ps as).map fun r => (c :: r.1, r.2)
  | [.conv spec], a :: as => some (convText spec a, as)
  | .conv spec :: ps, a :: as => (fillBody ps as).map fun r => (convText spec a ++ r.1, r.2)
  | .conv _ :: _, [] => none

/-- The members with their arguments, all of which are used. -/
def fillShapes : Shapes → List PrintfArg → Option (List Member)
  | [], [] => some []
  | [], _ :: _ => none
  | (n, .str ps) :: rest, as =>
    match fillBody ps as with
    | some (b, as) => (fillShapes rest as).map fun ms => (String.ofList n, .str b) :: ms
    | none => none
  | (n, .bare spec) :: rest, a :: as =>
    (fillShapes rest as).map fun ms => (String.ofList n, .bare (convText spec a)) :: ms
  | (_, .bare _) :: _, [] => none

/-- The number of arguments a format takes. -/
def convCount (ps : List FormatPiece) : ℕ :=
  ps.countP fun p => match p with
    | .conv _ => true
    | .lit _ => false

/-- A line may be written in several calls. -/
theorem renderPieces_append {ps : List FormatPiece} {as : List PrintfArg}
    (h : convCount ps = as.length) (qs : List FormatPiece) (bs : List PrintfArg) :
    renderPieces (ps ++ qs) (as ++ bs) = renderPieces ps as ++ renderPieces qs bs := by
  induction ps generalizing as with
  | nil =>
    obtain rfl := List.length_eq_zero_iff.mp h.symm
    rfl
  | cons p ps ih =>
    cases p with
    | lit c => exact congrArg (c :: ·) (ih h)
    | conv spec =>
      rw [convCount, List.countP_cons_of_pos rfl] at h
      cases as with
      | nil => cases h
      | cons a as =>
        rw [List.cons_append, List.cons_append, renderPieces, ih (Nat.succ.inj h), renderPieces,
          List.append_assoc]

theorem renderPieces_lits (cs : CStr) (ps : List FormatPiece) (as : List PrintfArg) :
    renderPieces (cs.map .lit ++ ps) as = cs ++ renderPieces ps as := by
  induction cs with
  | nil => rfl
  | cons c cs ih => exact congrArg (c :: ·) ih

theorem renderPieces_body {ps : List FormatPiece} {as rest : List PrintfArg} {b : CStr}
    (h : fillBody ps as = some (b, rest)) (qs : List FormatPiece) :
    renderPieces (ps ++ qs) as = b ++ renderPieces qs rest := by
  induction ps generalizing as b with
  | nil =>
    cases h
    rfl
  | cons p ps ih =>
    cases p with
    | lit c =>
      obtain ⟨⟨b', rest'⟩, hrest, heq⟩ := Option.map_eq_some_iff.mp h
      cases heq
      exact congrArg (c :: ·) (ih hrest)
    | conv spec =>
      cases as with
      | nil => cases ps <;> cases h
      | cons a as =>
        cases ps with
        | nil =>
          cases h
          rfl
        | cons q ps =>
          obtain ⟨⟨b', rest'⟩, hrest, heq⟩ := Option.map_eq_some_iff.mp h
          cases heq
          rw [List.cons_append, renderPieces, ih hrest, List.append_assoc]

/-- One member, whatever the format goes on with. -/
theorem renderPieces_member {n : CStr} {s : Shape} {rest : Shapes} {as : List PrintfArg}
    {ms : List Member} (h : fillShapes ((n, s) :: rest) as = some ms) (qs : List FormatPiece) :
    ∃ d as' ms', ms = (String.ofList n, d) :: ms' ∧ fillShapes rest as' = some ms' ∧
      renderPieces (.lit '"' :: (n.map .lit ++ .lit '"' :: .lit ':' :: (s.pieces ++ qs))) as =
        memberText (String.ofList n, d) (renderPieces qs as') := by
  have hname : ∀ (ps : List FormatPiece),
      renderPieces (.lit '"' :: (n.map .lit ++ .lit '"' :: .lit ':' :: ps)) as =
        '"' :: ((String.ofList n).toList ++ '"' :: ':' :: renderPieces ps as) := by
    intro ps
    rw [renderPieces, renderPieces_lits, String.toList_ofList]
    rfl
  cases s with
  | str ps =>
    rw [fillShapes] at h
    split at h
    · next b as' hbody =>
      obtain ⟨ms', hms', rfl⟩ := Option.map_eq_some_iff.mp h
      refine ⟨.str b, as', ms', rfl, hms', ?_⟩
      rw [hname, Shape.pieces, List.cons_append, renderPieces, List.append_assoc,
        renderPieces_body hbody]
      rfl
    · cases h
  | bare spec =>
    cases as with
    | nil => cases h
    | cons a as =>
      obtain ⟨ms', hms', rfl⟩ := Option.map_eq_some_iff.mp h
      exact ⟨_, as, ms', rfl, hms', hname _⟩

theorem memberPieces_cons (m m' : CStr × Shape) (rest : Shapes) (qs : List FormatPiece) :
    memberPieces (m :: m' :: rest) ++ qs =
      .lit '"' :: (m.1.map .lit ++ .lit '"' :: .lit ':' ::
        (m.2.pieces ++ .lit ',' :: (memberPieces (m' :: rest) ++ qs))) := by
  simp [memberPieces]

theorem renderPieces_members {shapes : Shapes} {as : List PrintfArg} {ms : List Member}
    (h : fillShapes shapes as = some ms) (t : CStr) :
    renderPieces (memberPieces shapes ++ t.map .lit) as = membersText ms t := by
  have hlits : ∀ as, renderPieces (t.map FormatPiece.lit) as = t := by
    intro as
    have := renderPieces_lits t [] as
    rwa [List.append_nil, renderPieces, List.append_nil] at this
  induction shapes generalizing as ms with
  | nil =>
    cases as with
    | nil =>
      cases h
      exact hlits []
    | cons a as => cases h
  | cons m rest ih =>
    obtain ⟨n, s⟩ := m
    cases rest with
    | nil =>
      obtain ⟨d, as', ms', rfl, hrest, hrender⟩ := renderPieces_member h (t.map .lit)
      have hms' : ms' = [] := by
        cases as' with
        | nil =>
          cases hrest
          rfl
        | cons a as' => cases hrest
      subst hms'
      rw [hlits] at hrender
      simpa [memberPieces, membersText] using hrender
    | cons m' rest =>
      obtain ⟨d, as', ms', rfl, hrest, hrender⟩ :=
        renderPieces_member h (.lit ',' :: (memberPieces (m' :: rest) ++ t.map .lit))
      have hne : ∃ m'' ms'', ms' = m'' :: ms'' := by
        obtain ⟨d', as'', ms'', rfl, -, -⟩ := renderPieces_member hrest []
        exact ⟨_, _, rfl⟩
      obtain ⟨m'', ms'', rfl⟩ := hne
      rw [memberPieces_cons, hrender, renderPieces, ih hrest, membersText_cons]

/-- **What `printf` writes to a format of members** is the object of the members. -/
theorem render_object {ps : List FormatPiece} {as : List PrintfArg} {ms : List Member}
    (hshape : shapePieces (formatShape .outside ps) = ps)
    (hfill : fillShapes (formatShape .outside ps) as = some ms) :
    renderPieces ps as = objectText ms ['\n'] := by
  rw [← hshape, shapePieces, renderPieces, objectText]
  exact congrArg ('{' :: ·) (renderPieces_members hfill ['}', '\n'])

/-- The names of a format are made of plain characters. -/
def plainNames (shapes : Shapes) : Bool := shapes.all fun s => s.1.all isPlain

theorem fillShapes_names {shapes : Shapes} (hnames : plainNames shapes = true)
    {as : List PrintfArg} {ms : List Member} (h : fillShapes shapes as = some ms) :
    ∀ m ∈ ms, StrBody m.1.toList := by
  induction shapes generalizing as ms with
  | nil =>
    cases as with
    | nil =>
      cases h
      exact fun m hm => absurd hm List.not_mem_nil
    | cons a as => cases h
  | cons s rest ih =>
    obtain ⟨n, s⟩ := s
    rw [plainNames, List.all_cons, Bool.and_eq_true] at hnames
    obtain ⟨d, as', ms', rfl, hrest, -⟩ := renderPieces_member h []
    intro m hm
    rcases List.mem_cons.mp hm with rfl | hm
    · rw [String.toList_ofList]
      exact .ofPlain hnames.1
    · exact ih hnames.2 hrest m hm

/-- What is known of a format once it is checked: it is a line of members with plain names. -/
structure LineFormat (ps : List FormatPiece) : Prop where
  shape : shapePieces (formatShape .outside ps) = ps
  names : plainNames (formatShape .outside ps) = true

/-- **A checked format makes lines of JSON that can be read back**, where what its members hold
is well formed. -/
theorem LineFormat.line {ps : List FormatPiece} (hps : LineFormat ps) {as : List PrintfArg}
    {ms : List Member} (hfill : fillShapes (formatShape .outside ps) as = some ms) (hne : ms ≠ [])
    (hok : ∀ m ∈ ms, m.2.Ok) :
    IsLine (renderPieces ps as) ∧ readObject (renderPieces ps as) = some (ms, ['\n']) := by
  have hms : ∀ m ∈ ms, MemberOk m := fun m hm =>
    ⟨fillShapes_names hps.names hfill m hm, hok m hm⟩
  rw [render_object hps.shape hfill]
  exact ⟨isLine_objectText hne hms, readObject_objectText hne hms ['\n']⟩

/-! ## What members hold -/

/-- An unsigned field. -/
def natDatum (n : ℕ) : Datum := .bare (decimal n)

/-- A signed field. -/
def intDatum (v : ℤ) : Datum := .bare (decimal v)

/-- A vendor or product id. -/
def idDatum (v : UInt16) : Datum := .str ('0' :: 'x' :: hex4 v.toNat)

/-- A text that needed escapes. -/
def escapedDatum (bytes : List UInt8) (size : ℕ) : Datum :=
  .str (usbtraceJsonEscape (commStr bytes) size)

def dirDatum (dirIn : UInt8) : Datum :=
  .str (if dirIn ≠ 0 then "in".toList else "out".toList)

theorem plain_body {s : String} {cs : List Char} (h : s.toList = cs)
    (hplain : cs.all isPlain = true) : StrBody s.toList := by
  rw [h]
  exact .ofPlain hplain

/-- A label is one of its names, or the default. -/
theorem label_body {names : List CStr} {dflt : CStr} (hnames : ∀ n ∈ dflt :: names, StrBody n)
    (v : UInt8) : StrBody (label names dflt v) := by
  obtain ⟨hdflt, hnames⟩ := List.forall_mem_cons.mp hnames
  rw [label]
  by_cases h : v.toNat < names.length
  · rw [List.getD_eq_getElem _ _ h]
    exact hnames _ (List.getElem_mem h)
  · rw [List.getD_eq_default _ _ (by omega)]
    exact hdflt

theorem dirDatum_ok (dirIn : UInt8) : (dirDatum dirIn).Ok := by
  rw [dirDatum]
  split <;> exact plain_body String.toList_ofList rfl

/-- Characters of a number neither quote nor end it. -/
theorem isBare_of_number {v : List Char} (h : Derives .value v ∧ '\n' ∉ v)
    (hchars : ∀ c ∈ v, c.isDigit = true ∨ c = '-' ∨ c = '.') : IsBare v where
  value := h.1
  noBreak := h.2
  unquoted hmem := by
    rcases hchars _ hmem with hc | hc | hc
    · exact absurd hc (by decide)
    · exact absurd hc (by decide)
    · exact absurd hc (by decide)
  whole c hc := by
    rcases hchars c hc with hdigit | rfl | rfl
    · exact ⟨isDigit_ne hdigit rfl, isDigit_ne hdigit rfl⟩
    · decide
    · decide

theorem isBare_decimal (v : ℤ) : IsBare (decimal v) := by
  refine isBare_of_number (decimal_value v) fun c hc => ?_
  unfold decimal at hc
  split at hc
  · rcases List.mem_cons.mp hc with rfl | hc
    · exact .inr (.inl rfl)
    · exact .inl (isDigit_toDigits _ c hc)
  · exact .inl (isDigit_toDigits _ c hc)

theorem isBare_fixed (prec : ℕ) (q : ℚ) : IsBare (fixed prec q) := by
  refine isBare_of_number (fixed_value prec q) fun c hc => ?_
  rw [fixed] at hc
  rcases List.mem_append.mp hc with hc | hc
  · exact .inl (isDigit_toDigits _ c hc)
  · rcases List.mem_cons.mp hc with rfl | hc
    · exact .inr (.inr rfl)
    · exact .inl ((digits_padZero ⟨Nat.toDigits_ne_nil, isDigit_toDigits _⟩).2 c hc)

theorem hex2_body (n : ℕ) : StrBody (hex2 n) := by
  refine .ofPlain (List.all_eq_true.mpr fun c hc => isPlain_of_isHex ?_)
  rcases List.mem_append.mp hc with hc | hc
  · rw [List.eq_of_mem_replicate hc]
    rfl
  · exact isHex_toDigits n c hc

theorem prefixed_body {b : List Char} (h : StrBody b) : StrBody ('0' :: 'x' :: b) :=
  .plain rfl (.plain rfl h)

theorem natDatum_ok (n : ℕ) : (natDatum n).Ok := isBare_decimal n

theorem intDatum_ok (v : ℤ) : (intDatum v).Ok := isBare_decimal v

theorem idDatum_ok (v : UInt16) : (idDatum v).Ok := prefixed_body (hex4_body v.toNat)

theorem escapedDatum_ok (bytes : List UInt8) (size : ℕ) : (escapedDatum bytes size).Ok :=
  usbtraceJsonEscape_body (commStr bytes) size

end UsbTrace.Interface
