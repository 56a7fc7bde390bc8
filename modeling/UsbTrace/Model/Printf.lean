import UsbTrace.Model.Output
import UsbTrace.Model.SetupText

/-!
# printf

The conversions the modules use in their lines.  A format is read once into its pieces, the
characters that stand for themselves and the conversions; each conversion takes the next
argument.
-/

set_option autoImplicit false

namespace UsbTrace.Model

open UsbTrace.Library

/-- An argument, as its conversion sees it: a string, an unsigned or signed integer, or a
`double`. -/
inductive PrintfArg where
  | str (s : CStr)
  | num (n : ℕ)
  | int (v : ℤ)
  | dbl (q : ℚ)
deriving DecidableEq, Repr

/-- A character of a format, or what stands between a `%` and its conversion letter, the
letter included. -/
inductive FormatPiece where
  | lit (c : Char)
  | conv (spec : CStr)
deriving DecidableEq, Repr

/-- The letters that end a conversion. -/
def endsConv (c : Char) : Bool := c = 's' || c = 'u' || c = 'd' || c = 'x' || c = 'f'

/-- The pieces of a format; inside a conversion, what it has so far. -/
def formatPieces : Option CStr → CStr → List FormatPiece
  | _, [] => []
  | none, c :: fmt => if c = '%' then formatPieces (some []) fmt else .lit c :: formatPieces none fmt
  | some spec, c :: fmt =>
    if endsConv c then .conv (spec ++ [c]) :: formatPieces none fmt
    else formatPieces (some (spec ++ [c])) fmt

/-- `%s`, `%u`, `%lu`, `%llu`, `%02x`, `%04x`, `%d`, `%.1f` and `%.2f`. -/
def convText : CStr → PrintfArg → CStr
  | ['s'], .str s => s
  | ['u'], .num n => decimal n
  | ['l', 'u'], .num n => decimal n
  | ['l', 'l', 'u'], .num n => decimal n
  | ['0', '2', 'x'], .num n => hex2 n
  | ['0', '4', 'x'], .num n => hex4 n
  | ['d'], .int v => decimal v
  | ['.', '1', 'f'], .dbl q => fixed 1 q
  | ['.', '2', 'f'], .dbl q => fixed 2 q
  | _, _ => []

/-- The pieces with the arguments in their places. -/
def renderPieces : List FormatPiece → List PrintfArg → CStr
  | [], _ => []
  | .lit c :: ps, as => c :: renderPieces ps as
  | .conv spec :: ps, a :: as => convText spec a ++ renderPieces ps as
  | .conv _ :: _, [] => []

/-- `printf`: what it writes. -/
def printf (fmt : String) (args : List PrintfArg) : CStr :=
  renderPieces (formatPieces none fmt.toList) args

/-- A `switch` over the values from 0 on, with its default. -/
def label (names : List CStr) (dflt : CStr) (v : UInt8) : CStr := names.getD v.toNat dflt

end UsbTrace.Model
