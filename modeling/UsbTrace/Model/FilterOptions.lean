import UsbTrace.Model.Probe
import UsbTrace.Library.CLong
import UsbTrace.Library.Strtol

/-!
# The filter options

`--vid` and `--pid` from the command line to the filter of the probes
(usbtrace_cli.c:15-51, urb.c:357-358 and its likes).  An option is what `getopt_long` hands
back: its code, and its argument.
-/

set_option autoImplicit false

namespace UsbTrace.Model

open UsbTrace.Library

/-- `USBTRACE_OPT_VID`, `USBTRACE_OPT_PID` (cli.h:31-32). -/
def usbtraceOptVid : ℕ := 0x1001
def usbtraceOptPid : ℕ := 0x1002

/-- `struct usbtrace_filter` (cli.h:23-26). -/
structure UsbtraceFilter where
  vid : UInt32 := 0
  pid : UInt32 := 0
deriving DecidableEq, Repr

def parseId (long : LongWidth) (arg : List Char) : UInt32 := UInt32.ofNat (strtoul long.bits arg)

/-- `usbtrace_filter_getopt` (usbtrace_cli.c:15-28): whether it takes the option, and the
filter afterwards. -/
def usbtraceFilterGetopt (long : LongWidth) (optchar : ℕ) (arg : List Char)
    (f : UsbtraceFilter) : Bool × UsbtraceFilter :=
  if optchar = usbtraceOptVid then (true, { f with vid := parseId long arg })
  else if optchar = usbtraceOptPid then (true, { f with pid := parseId long arg })
  else (false, f)

/-- The loop of `usbtrace_filter_parse` (usbtrace_cli.c:39-51): 0, 1 for help, or -1. -/
def usbtraceFilterParse (long : LongWidth) :
    List (ℕ × List Char) → UsbtraceFilter → ℤ × UsbtraceFilter
  | [], f => (0, f)
  | (c, arg) :: opts, f =>
    let (taken, f) := usbtraceFilterGetopt long c arg f
    if taken then usbtraceFilterParse long opts f
    else if c = 'h'.toNat then (1, f)
    else (-1, f)

/-- What a module writes into the config of its probes. -/
def UsbtraceFilter.config (f : UsbtraceFilter) : FilterConfig :=
  { filterVid := f.vid.toUInt16, filterPid := f.pid.toUInt16 }

end UsbTrace.Model
