import UsbTrace.Model.Probe

/-!
# The device filter

`passes` says whether a device passes the filter with the ids it has at the moment; a
device that passes is matched with those ids.
-/

set_option autoImplicit false

namespace UsbTrace.Interface

open UsbTrace.Model

/-- The device passes the filter. -/
def passes (cfg : FilterConfig) (dev : UsbDevice) : Bool :=
  (usbtraceDevMatch dev cfg.filterVid cfg.filterPid).isSome

/-- A device that passes is matched with its own ids. -/
theorem devMatch_of_passes {cfg : FilterConfig} {dev : UsbDevice} (h : passes cfg dev = true) :
    usbtraceDevMatch dev cfg.filterVid cfg.filterPid = some (dev.idVendor, dev.idProduct) := by
  unfold passes usbtraceDevMatch at h
  unfold usbtraceDevMatch
  split at h
  · cases h
  · next hvid =>
    split at h
    · cases h
    · next hpid => rw [if_neg hvid, if_neg hpid]

theorem devMatch_of_not_passes {cfg : FilterConfig} {dev : UsbDevice}
    (h : passes cfg dev = false) :
    usbtraceDevMatch dev cfg.filterVid cfg.filterPid = none := by
  simpa [passes] using h

/-- Without a filter every device passes. -/
theorem passes_any (dev : UsbDevice) : passes {} dev = true := by
  simp [passes, usbtraceDevMatch]

end UsbTrace.Interface
