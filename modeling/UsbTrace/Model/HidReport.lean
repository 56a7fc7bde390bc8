import UsbTrace.Model.ClassStream
import UsbTrace.Model.HidRate

/-!
# The report of the hid module

The consumer of hid.c in JSON mode: it meters every record of the class before it hands it to
the shared consumer, prints the windows the meter flushes, and sums up when it stops.
-/

set_option autoImplicit false

namespace UsbTrace.Model

open UsbTrace.Library

/-- The numbers of a rate line: `hz`, `avg_us`, `min_us` and `max_us`. -/
structure RateNumbers where
  hz : ℚ
  avgUs : ℚ
  minUs : ℚ
  maxUs : ℚ
deriving DecidableEq, Repr

/-- `(double)sum / (double)count / 1e3`, or 0 without an interval (hid.c:245-247, 349-352). -/
def avgUsOf (sum count : ℕ) : ℚ :=
  if count ≠ 0 then toDouble (toDouble (toDouble sum / toDouble count) / 1000) else 0

/-- `iv_ns / 1e3`. -/
def ivUs (iv : UInt32) : ℚ := toDouble (iv.toNat / 1000)

/-- `win_s` (hid.c:281). -/
def RateWindow.seconds (w : RateWindow) : ℚ := toDouble (toDouble (w.stop - w.start).toNat / 10 ^ 9)

/-- The numbers of a slot in a window (hid.c:244-249). -/
def windowNumbers (winS : ℚ) (s : HidRateSlot) : RateNumbers where
  hz := toDouble (toDouble s.winCount.toNat / winS)
  avgUs := avgUsOf s.winSumIvNs.toNat s.winIvCount.toNat
  minUs := ivUs s.winMinIvNs
  maxUs := ivUs s.winMaxIvNs

/-- The numbers of a slot in the summary (hid.c:347-361). -/
def totalNumbers (s : HidRateSlot) : RateNumbers :=
  let avgUs := avgUsOf s.totalSumIvNs.toNat s.totalIvCount.toNat
  { hz := if avgUs > 0 then toDouble (10 ^ 6 / avgUs) else 0
    avgUs := avgUs
    minUs := ivUs s.totalMinIvNs
    maxUs := ivUs s.totalMaxIvNs }

end UsbTrace.Model
