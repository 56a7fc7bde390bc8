import UsbTrace.Model.Records
import UsbTrace.Library.BoundedMap
import UsbTrace.Library.Run

/-!
# The report-rate meter of the hid module

`rate_on_in` and what it calls (hid.c:167-335), with the last flush of `hid_on_stop`.  The
slot array is a map with 16 places from the numbers a slot is found by; its entries are in
the order of their creation, the latest first.  A flush is given with the slots it prints.
-/

set_option autoImplicit false

namespace UsbTrace.Model

open UsbTrace.Library

/-- `USBTRACE_CLASS_HID` (class.h). -/
def usbtraceClassHid : UInt8 := 2

/-- `HID_RATE_GAP_NS` (hid.c:34). -/
def hidRateGapNs : UInt64 := 50 * 1000 * 1000

/-- `enum hid_role` (hid.c:39-43). -/
inductive HidRole where
  | unk | mouse | kbd
deriving DecidableEq, Repr

/-- What a slot is found by (hid.c:172-176). -/
structure RateKey where
  busnum : UInt16
  devnum : UInt16
  ep : UInt8
deriving DecidableEq, Repr

/-- `struct hid_rate_slot` (hid.c:45-74), without its numbers. -/
structure HidRateSlot where
  vid : UInt16
  product : UInt16
  role : HidRole := .unk
  lastTsNs : UInt64 := 0
  winCount : UInt64 := 0
  winIvCount : UInt64 := 0
  winSumIvNs : UInt64 := 0
  winMinIvNs : UInt32 := 0
  winMaxIvNs : UInt32 := 0
  winGaps : UInt64 := 0
  totalCount : UInt64 := 0
  totalIvCount : UInt64 := 0
  totalSumIvNs : UInt64 := 0
  totalMinIvNs : UInt32 := 0
  totalMaxIvNs : UInt32 := 0
  totalGaps : UInt64 := 0
  errUrbs : UInt64 := 0
  lenMouse : UInt32 := 0
  lenKbd : UInt32 := 0
  lenOther : UInt32 := 0
deriving DecidableEq, Repr

/-- `slot_note_len` (hid.c:188-210). -/
def slotNoteLen (s : HidRateSlot) (len : UInt32) : HidRateSlot :=
  let s :=
    if len = 4 then { s with lenMouse := s.lenMouse + 1 }
    else if len = 8 ∨ len = 9 ∨ len = 17 then { s with lenKbd := s.lenKbd + 1 }
    else { s with lenOther := s.lenOther + 1 }
  if s.role ≠ .unk then s
  else if s.lenMouse + s.lenKbd + s.lenOther < 8 then s
  else if s.lenMouse ≥ s.lenKbd ∧ s.lenMouse ≥ s.lenOther then { s with role := .mouse }
  else if s.lenKbd ≥ s.lenOther then { s with role := .kbd }
  else s

/-- The updates of a minimum, for which 0 is none, and of a maximum (hid.c:227-234). -/
def lowerMin (m : UInt32) (iv : UInt64) : UInt32 :=
  if m = 0 ∨ iv < m.toUInt64 then iv.toUInt32 else m
def raiseMax (m : UInt32) (iv : UInt64) : UInt32 :=
  if iv > m.toUInt64 then iv.toUInt32 else m

/-- `slot_note_interval` (hid.c:212-235). -/
def slotNoteInterval (s : HidRateSlot) (iv : UInt64) : HidRateSlot :=
  if iv = 0 then s
  else if iv > hidRateGapNs then
    { s with winGaps := s.winGaps + 1, totalGaps := s.totalGaps + 1 }
  else
    { s with
      winIvCount := s.winIvCount + 1
      totalIvCount := s.totalIvCount + 1
      winSumIvNs := s.winSumIvNs + iv
      totalSumIvNs := s.totalSumIvNs + iv
      winMinIvNs := lowerMin s.winMinIvNs iv
      winMaxIvNs := raiseMax s.winMaxIvNs iv
      totalMinIvNs := lowerMin s.totalMinIvNs iv
      totalMaxIvNs := raiseMax s.totalMaxIvNs iv }

/-- A successful report in its slot (hid.c:322-328). -/
def slotNoteReport (s : HidRateSlot) (ts : UInt64) (len : UInt32) : HidRateSlot :=
  let s := slotNoteLen s len
  let s := if s.lastTsNs ≠ 0 ∧ ts > s.lastTsNs then slotNoteInterval s (ts - s.lastTsNs) else s
  { s with lastTsNs := ts, winCount := s.winCount + 1, totalCount := s.totalCount + 1 }

/-- A slot after a flush (hid.c:291-298). -/
def HidRateSlot.clearWindow (s : HidRateSlot) : HidRateSlot :=
  { s with
    winCount := 0, winIvCount := 0, winSumIvNs := 0, winMinIvNs := 0, winMaxIvNs := 0
    winGaps := 0 }

/-- `g_rate` and `g_rate_sec`, which `hid_parse_args` keeps within 1 and 3600. -/
structure RateConfig where
  rate : Bool := true
  rateSec : ℕ
  inRange : 1 ≤ rateSec ∧ rateSec ≤ 3600

/-- `rate_window_ns` (hid.c:85-88). -/
def RateConfig.windowNs (cfg : RateConfig) : UInt64 :=
  UInt64.ofNat (cfg.rateSec * 1000 * 1000 * 1000)

/-- `g_slots`, `g_nslots` and `g_window_start_ns`. -/
structure RateMeter where
  slots : BoundedMap RateKey HidRateSlot 16
  windowStartNs : UInt64

def RateMeter.empty : RateMeter := ⟨BoundedMap.empty, 0⟩

/-- A window that is flushed: its ends and the slots. -/
structure RateWindow where
  start : UInt64
  stop : UInt64
  slots : BoundedMap RateKey HidRateSlot 16

/-- The slots `print_rate_line` prints (hid.c:242-243). -/
def RateWindow.lines (w : RateWindow) : List (RateKey × HidRateSlot) :=
  w.slots.entries.reverse.filter fun e => e.2.winCount ≠ 0

/-- `rate_flush_window` (hid.c:273-300). -/
def rateFlushWindow (cfg : RateConfig) (m : RateMeter) (nowNs : UInt64) (final : Bool) :
    RateMeter × List RateWindow :=
  if m.windowStartNs = 0 ∨ nowNs ≤ m.windowStartNs then (m, [])
  else if final ∧ 4 * (nowNs - m.windowStartNs).toNat < cfg.rateSec * 10 ^ 9 then (m, [])
  else
    ({ slots := m.slots.mapValues HidRateSlot.clearWindow, windowStartNs := nowNs },
      [⟨m.windowStartNs, nowNs, m.slots⟩])

def rateKey (e : ClassUrbEvent) : RateKey := ⟨e.busnum, e.devnum, e.ep⟩

/-- `rate_on_in` (hid.c:302-335). -/
def rateOnIn (cfg : RateConfig) (m : RateMeter) (e : ClassUrbEvent) :
    RateMeter × List RateWindow :=
  let ts := e.hdr.tsNs
  if !cfg.rate ∨ e.dirIn = 0 then (m, [])
  else
    match m.slots.lookupOrInit (rateKey e) { vid := e.vid, product := e.product } with
    | (_, none) => (m, [])
    | (slots, some s) =>
      if e.status ≠ 0 then
        ({ m with slots := slots.update (rateKey e) { s with errUrbs := s.errUrbs + 1 } }, [])
      else
        let m : RateMeter :=
          { slots := slots.update (rateKey e) (slotNoteReport s ts e.actualLength)
            windowStartNs := if m.windowStartNs = 0 then ts else m.windowStartNs }
        if ts - m.windowStartNs ≥ cfg.windowNs then rateFlushWindow cfg m ts false else (m, [])

/-- What reaches the meter: a class record, or the end of the session. -/
inductive RateOp where
  | record (e : ClassUrbEvent)
  | stop
deriving DecidableEq, Repr

/-- The last report of any slot (hid.c:425-428). -/
def lastReport (m : RateMeter) : UInt64 :=
  m.slots.entries.foldr (fun e now => if e.2.lastTsNs > now then e.2.lastTsNs else now) 0

/-- The meter's part of `hid_on_event` and `hid_on_stop` (hid.c:397-435). -/
def rateStep (cfg : RateConfig) (m : RateMeter) : RateOp → RateMeter × List RateWindow
  | .record e => if e.klass = usbtraceClassHid then rateOnIn cfg m e else (m, [])
  | .stop =>
    if cfg.rate ∧ m.windowStartNs ≠ 0 ∧ lastReport m > m.windowStartNs then
      rateFlushWindow cfg m (lastReport m) true
    else (m, [])

/-- The meter after a run, and the windows it flushed. -/
def meterAfter (cfg : RateConfig) (ops : List RateOp) : RateMeter :=
  finalState (rateStep cfg) RateMeter.empty ops

def windowsOf (cfg : RateConfig) (ops : List RateOp) : List RateWindow :=
  outputs (rateStep cfg) RateMeter.empty ops

end UsbTrace.Model
