import UsbTrace.Library.CharBuffer
import UsbTrace.Library.JsonString
import UsbTrace.Model.Output

/-!
# Escapes and templates in their buffers

The functions of `Output` that fill a character array once more, with the array and each
store into it: `usbtrace_json_escape` (usbtrace_cli.c:74-117) over bytes, and `expand`
(engine.c:269-320).  A store outside the array leaves the function without a result.
-/

set_option autoImplicit false

namespace UsbTrace.Model

open UsbTrace.Library

/-- The bytes of a string. -/
def bytesOf (s : CStr) : List UInt8 := s.map Char.toUInt8

/-! ## Escapes -/

/-- The loop of `usbtrace_json_escape` (usbtrace_cli.c:81-112), with `o`: `src` is read up to
its terminator. -/
def jsonEscapeLoopChecked (dstsz : ℕ) :
    List UInt8 → ℕ → List UInt8 → Option (List UInt8 × ℕ)
  | [], _, _ => none
  | c :: src, o, dst =>
    if c ≠ 0 ∧ o + 2 < dstsz then
      if c = '"'.toUInt8 ∨ c = '\\'.toUInt8 then
        (storeAll dst o ['\\'.toUInt8, c]).bind (jsonEscapeLoopChecked dstsz src (o + 2))
      else if c = '\n'.toUInt8 then
        (storeAll dst o (bytesOf ['\\', 'n'])).bind (jsonEscapeLoopChecked dstsz src (o + 2))
      else if c = '\t'.toUInt8 then
        (storeAll dst o (bytesOf ['\\', 't'])).bind (jsonEscapeLoopChecked dstsz src (o + 2))
      else if c = '\r'.toUInt8 then
        (storeAll dst o (bytesOf ['\\', 'r'])).bind (jsonEscapeLoopChecked dstsz src (o + 2))
      else if c < 0x20 then
        -- \uXXXX needs 6 bytes plus the NUL
        if o + 6 ≥ dstsz then some (dst, o)
        else (snprintfAt 0 dst o (dstsz - o) (bytesOf ('\\' :: 'u' :: hex4 c.toNat))).bind
          fun p => jsonEscapeLoopChecked dstsz src (o + p.2) p.1
      else (store dst o c).bind (jsonEscapeLoopChecked dstsz src (o + 1))
    else some (dst, o)

/-- `usbtrace_json_escape` (usbtrace_cli.c:74-117): what `dst` holds afterwards. -/
def usbtraceJsonEscapeChecked (src dst : List UInt8) (dstsz : ℕ) : Option (List UInt8) :=
  if dstsz = 0 then some dst
  else (jsonEscapeLoopChecked dstsz src 0 dst).bind fun p => store p.1 p.2 0

/-! ## Templates -/

/-- The loop of `expand` (engine.c:275-318): `skip` characters of the template are behind
`p` already. -/
def expandLoopChecked (f : Finding) (outsz : ℕ) : ℕ → CStr → ℕ → CStr → Option (CStr × ℕ)
  | _, [], o, out => some (out, o)
  | skip + 1, _ :: p, o, out => expandLoopChecked f outsz skip p o out
  | 0, c :: p, o, out =>
    if o + 1 < outsz then
      match if c = '{' then templateKey p else none with
      | some key =>
        (snprintfAt (Char.ofNat 0) out o (outsz - o) (expandKey f key)).bind fun q =>
          expandLoopChecked f outsz (key.length + 1) p (o + q.2) q.1
      | none => (store out o c).bind (expandLoopChecked f outsz 0 p (o + 1))
    else some (out, o)

/-- `expand` (engine.c:269-320): what `out` holds afterwards. -/
def expandChecked (f : Finding) (tmpl : Option CStr) (out : CStr) (outsz : ℕ) : Option CStr :=
  (expandLoopChecked f outsz 0 (tmpl.getD []) 0 out).bind fun q =>
    store q.1 (if q.2 < outsz then q.2 else outsz - 1) (Char.ofNat 0)

end UsbTrace.Model
