import UsbTrace.Model.HubPorts
import UsbTrace.Interface.DeviceFilter

/-!
# The device of a port

A hub hook reports the device on its port, and the hub where the port is empty.  The lookup
through the hub's array of ports stops at port 16, and the overcurrent hook, which has the
port itself, reports nothing where it is empty; otherwise a hook names the right device
(`port_action_iff`).
-/

set_option autoImplicit false

namespace UsbTrace.Analysis

open UsbTrace.Model UsbTrace.Interface

/-- A hub with the devices on its ports, each of another address than the hub. -/
structure Hub where
  hdev : UsbDevice
  children : List (Option UsbDevice)
  overCurrentCount : ℕ → UInt32
  maxchild : children.length ≤ 31
  apart : ∀ dev, some dev ∈ children → dev.key ≠ hdev.key

/-- The device on port `p`, counted from 1. -/
def Hub.child (h : Hub) (p : ℕ) : Option UsbDevice := h.children[p - 1]?.join

/-- The device an event of port `p` is about. -/
def Hub.portDevice (h : Hub) (p : ℕ) : UsbDevice := (h.child p).getD h.hdev

/-- The `struct usb_port` of port `p`, and the `struct usb_hub`. -/
def Hub.port (h : Hub) (p : ℕ) : UsbPort :=
  { portnum := UInt8.ofNat p, overCurrentCount := h.overCurrentCount p, child := h.child p }

def Hub.memory (h : Hub) : UsbHub :=
  { hdev := some h.hdev
    ports := some ((List.range h.children.length).map fun i => some (h.port (i + 1))) }

/-- What the kernel does to a port.  A reset passes the device of the port on, or none. -/
inductive PortAction where
  | reset (withDevice : Bool)
  | disable
  | power (set : Int32)
  | overCurrent
deriving DecidableEq, Repr

def PortAction.code : PortAction → UInt8
  | .reset _ => actionReset
  | .disable => actionDisable
  | .power set => if set ≠ 0 then actionPowerOn else actionPowerOff
  | .overCurrent => actionOvercurrent

/-- The call the hook sees. -/
def PortAction.call (h : Hub) (p : ℕ) : PortAction → HubCall
  | .reset withDevice =>
    .portReset (some h.memory) (Int32.ofNat p) (if withDevice then h.child p else none)
  | .disable => .portDisable (some h.memory) (Int32.ofNat p)
  | .power set => .setPortPower (some h.hdev) (some h.memory) (Int32.ofNat p) set
  | .overCurrent => .overCurrent (some (h.port p))

/-- The event is about the action, the port and the device. -/
def IsAbout (e : HubEvent) (a : PortAction) (p : ℕ) (dev : UsbDevice) : Prop :=
  e.action = a.code ∧ e.portnum.toNat = p ∧ e.vid = dev.idVendor ∧ e.product = dev.idProduct ∧
    e.busnum = dev.busnum.toUInt16 ∧ e.devnum = dev.devnum.toUInt16

/-- The action is reported by one event, about the device on the port, or the hub where the
port is empty. -/
def Reported (h : Hub) (p : ℕ) (a : PortAction) : Prop :=
  ∀ now task, ∃ e, (hubStep {} now task (a.call h p)).toList = [e] ∧ IsAbout e a p (h.portDevice p)

/-- The hook looks its device up in the hub's array of ports. -/
def PortAction.LooksUp : PortAction → Prop
  | .reset withDevice => withDevice = false
  | .disable => True
  | .power _ => True
  | .overCurrent => False

/-! ## The device a hook finds -/

/-- The device a hook reports. -/
def hookDevice (h : Hub) (p : ℕ) : PortAction → Option UsbDevice
  | .reset withDevice => if withDevice ∨ p ≤ 16 then some (h.portDevice p) else some h.hdev
  | .disable => if p ≤ 16 then some (h.portDevice p) else some h.hdev
  | .power _ => if p ≤ 16 then some (h.portDevice p) else some h.hdev
  | .overCurrent => h.child p

/-- A port number as the hooks have it. -/
theorem port_number {p : ℕ} (hlo : 1 ≤ p) (hhi : p ≤ 31) :
    (Int32.ofNat p > 0 ∧ (Int32.ofNat p).toInt8.toUInt8 = UInt8.ofNat p ∧
      (UInt8.ofNat p).toUInt32.toInt32 = Int32.ofNat p ∧ (UInt8.ofNat p).toNat = p) ∧
    (Int32.ofNat p < 1 ∨ Int32.ofNat p > 16 ↔ 16 < p) ∧
    (p ≤ 16 → ¬(Int32.ofNat p - 1 < 0 ∨ Int32.ofNat p - 1 > 15) ∧
      (Int32.ofNat p - 1).toNatClampNeg = p - 1) := by
  have hall : ∀ p < 32, 1 ≤ p →
      (Int32.ofNat p > 0 ∧ (Int32.ofNat p).toInt8.toUInt8 = UInt8.ofNat p ∧
        (UInt8.ofNat p).toUInt32.toInt32 = Int32.ofNat p ∧ (UInt8.ofNat p).toNat = p) ∧
      (Int32.ofNat p < 1 ∨ Int32.ofNat p > 16 ↔ 16 < p) ∧
      (p ≤ 16 → ¬(Int32.ofNat p - 1 < 0 ∨ Int32.ofNat p - 1 > 15) ∧
        (Int32.ofNat p - 1).toNatClampNeg = p - 1) := by decide
  exact hall p (by omega) hlo

/-- The lookup through the array finds the device on a port up to 16, and none past it. -/
theorem hubChild_memory (h : Hub) {p : ℕ} (hlo : 1 ≤ p) (hhi : p ≤ h.children.length) :
    hubChild (some h.memory) (Int32.ofNat p) = if p ≤ 16 then h.child p else none := by
  obtain ⟨-, hbound, hidx⟩ := port_number hlo (hhi.trans h.maxchild)
  unfold hubChild
  by_cases hp : p ≤ 16
  · obtain ⟨hin, hat⟩ := hidx hp
    have hport : (h.memory.ports.bind fun ports => ports[p - 1]?.join) = some (h.port p) := by
      have hi : p - 1 < h.children.length := by omega
      show (List.map _ _)[p - 1]?.join = _
      rw [List.getElem?_map, List.getElem?_range hi, show p = p - 1 + 1 by omega]
      rfl
    rw [if_neg fun hout => absurd (hbound.mp hout) (by omega), if_pos hp, Option.bind_some,
      usbtraceKptrIdx, if_neg hin, hat, hport]
    rfl
  · rw [if_pos (hbound.mpr (by omega)), if_neg hp]

/-- The overcurrent count of the event. -/
def ocCountOf (h : Hub) (p : ℕ) : PortAction → UInt32
  | .overCurrent => h.overCurrentCount p
  | _ => 0

/-- **A hook** reports the device it finds. -/
theorem hubStep_call (h : Hub) {p : ℕ} (hlo : 1 ≤ p) (hhi : p ≤ h.children.length)
    (a : PortAction) (cfg : FilterConfig) (now : UInt64) (task : Task) :
    hubStep cfg now task (a.call h p) =
      emitDev cfg (hookDevice h p a) (Int32.ofNat p) a.code 0 (ocCountOf h p a) now task := by
  have hchild := hubChild_memory h hlo hhi
  have hor : ∀ dev : Option UsbDevice, dev.or (some h.hdev) = some (dev.getD h.hdev) := by
    intro dev
    cases dev <;> rfl
  have hlookup : (hubChild (some h.memory) (Int32.ofNat p)).or (some h.hdev) =
      if p ≤ 16 then some (h.portDevice p) else some h.hdev := by
    rw [hchild]
    split_ifs
    · exact hor _
    · rfl
  cases a with
  | reset withDevice =>
    show emitDev cfg (((if withDevice = true then h.child p else none).or
      (hubChild (some h.memory) (Int32.ofNat p))).or (some h.hdev)) _ _ _ _ _ _ = _
    congr 1
    cases withDevice with
    | false => simpa [hookDevice] using hlookup
    | true =>
      have hsame : (h.child p).or (hubChild (some h.memory) (Int32.ofNat p)) = h.child p := by
        rw [hchild]
        cases h.child p <;> simp
      rw [if_pos rfl, hsame, hor, hookDevice, if_pos (.inl rfl)]
      rfl
  | disable =>
    show emitDev cfg ((Option.or none (hubChild (some h.memory) (Int32.ofNat p))).or
      (some h.hdev)) _ _ _ _ _ _ = _
    rw [Option.none_or, hlookup]
    rfl
  | power set =>
    show emitDev cfg ((hubChild (some h.memory) (Int32.ofNat p)).or (some h.hdev)) _ _ _ _ _ _ = _
    rw [hlookup]
    rfl
  | overCurrent =>
    obtain ⟨⟨-, -, hport, -⟩, -, -⟩ := port_number hlo (hhi.trans h.maxchild)
    show ((h.child p).bind fun child => emitDev cfg (some child)
      (UInt8.ofNat p).toUInt32.toInt32 _ _ _ _ _) = emitDev cfg (h.child p) _ _ _ _ _ _
    rw [hport]
    cases h.child p <;> rfl

/-- A hook of the hub module as a session has it: with the device it finds. -/
theorem hubStep_probeStep (h : Hub) {p : ℕ} (hlo : 1 ≤ p) (hhi : p ≤ h.children.length)
    (a : PortAction) (cfg : FilterConfig) (m : ProbeMaps) (ctx : HookCtx) {dev : UsbDevice}
    (hdev : hookDevice h p a = some dev) :
    ((hubStep cfg ctx.now ctx.task (a.call h p)).map Record.hub).toList =
      (probeStep cfg m
        { ctx with dev := dev, call := .hub (Int32.ofNat p) a.code 0 (ocCountOf h p a) }).2 := by
  rw [hubStep_call h hlo hhi, hdev]
  rfl

/-- **The event** is about the device the hook finds. -/
theorem emitDev_about {p : ℕ} (hlo : 1 ≤ p) (hhi : p ≤ 31) (a : PortAction) (dev : UsbDevice)
    (ocCount : UInt32) (now : UInt64) (task : Task) :
    ∃ e, emitDev {} (some dev) (Int32.ofNat p) a.code 0 ocCount now task = some e ∧
      IsAbout e a p dev := by
  obtain ⟨⟨hpos, hbyte, -, hnat⟩, -, -⟩ := port_number hlo hhi
  have hmatch := devMatch_of_passes (passes_any dev)
  show ∃ e, hubEmitDev {} dev (Int32.ofNat p) a.code 0 ocCount now task = some e ∧ _
  unfold hubEmitDev
  rw [hmatch]
  refine ⟨_, rfl, rfl, ?_, rfl, rfl, rfl, rfl⟩
  show (if Int32.ofNat p > 0 then (Int32.ofNat p).toInt8.toUInt8 else dev.portnum).toNat = p
  rw [if_pos hpos, hbyte, hnat]

/-! ## When it is the device of the port -/

theorem portDevice_of_child {h : Hub} {p : ℕ} {dev : UsbDevice} (hchild : h.child p = some dev) :
    h.portDevice p = dev ∧ dev.key ≠ h.hdev.key := by
  refine ⟨by rw [Hub.portDevice, hchild]; rfl, h.apart dev ?_⟩
  exact List.mem_of_getElem? (Option.join_eq_some_iff.mp hchild)

/-- The hub stands for a port if that is empty. -/
theorem hdev_of_key {h : Hub} {p : ℕ} :
    (h.portDevice p).key = h.hdev.key ↔ h.child p = none := by
  cases hchild : h.child p with
  | none => exact iff_of_true (by rw [Hub.portDevice, hchild]; rfl) rfl
  | some dev =>
    obtain ⟨hdev, hkey⟩ := portDevice_of_child hchild
    exact iff_of_false (hdev ▸ hkey) (Option.some_ne_none dev)

theorem hookDevice_cases {h : Hub} {p : ℕ} {a : PortAction} {dev : UsbDevice}
    (hfound : hookDevice h p a = some dev) : dev = h.portDevice p ∨ dev = h.hdev := by
  have hlook : ∀ {c : Prop} [Decidable c],
      (if c then some (h.portDevice p) else some h.hdev) = some dev →
        dev = h.portDevice p ∨ dev = h.hdev := by
    intro c _ hif
    obtain ⟨-, heq⟩ | ⟨-, heq⟩ := ite_eq_iff.mp hif
    · exact .inl (Option.some.inj heq).symm
    · exact .inr (Option.some.inj heq).symm
  cases a with
  | overCurrent => exact .inl (portDevice_of_child hfound).1.symm
  | reset withDevice => exact hlook hfound
  | disable => exact hlook hfound
  | power set => exact hlook hfound

/-- An action is reported if the hook finds a device with the address of the port's. -/
theorem reported_iff (h : Hub) {p : ℕ} (hlo : 1 ≤ p) (hhi : p ≤ h.children.length)
    (a : PortAction) :
    Reported h p a ↔ ∃ dev, hookDevice h p a = some dev ∧ dev.key = (h.portDevice p).key := by
  have hmax := hhi.trans h.maxchild
  constructor
  · intro hreported
    obtain ⟨e, he, habout⟩ := hreported 0 {}
    rw [hubStep_call h hlo hhi] at he
    cases hfound : hookDevice h p a with
    | none =>
      rw [hfound] at he
      cases he
    | some dev =>
      obtain ⟨e', he', habout'⟩ := emitDev_about hlo hmax a dev (ocCountOf h p a) 0 {}
      rw [hfound, he'] at he
      cases he
      obtain ⟨-, -, -, -, hbus, hdevnum⟩ := habout
      obtain ⟨-, -, -, -, hbus', hdevnum'⟩ := habout'
      refine ⟨dev, rfl, ?_⟩
      rw [UsbDevice.key, UsbDevice.key, ← hbus, ← hdevnum, hbus', hdevnum']
  · rintro ⟨dev, hfound, hkey⟩ now task
    have hsame : dev = h.portDevice p := by
      rcases hookDevice_cases hfound with heq | heq
      · exact heq
      · have hempty : h.child p = none := hdev_of_key.mp (by rw [← hkey, heq])
        rw [heq, Hub.portDevice, hempty]
        rfl
    obtain ⟨e, he, habout⟩ := emitDev_about hlo hmax a dev (ocCountOf h p a) now task
    refine ⟨e, ?_, hsame ▸ habout⟩
    rw [hubStep_call h hlo hhi, hfound, he]
    rfl

/-- A lookup that stops at port 16. -/
theorem lookup_iff (h : Hub) (p : ℕ) :
    (∃ dev, (if p ≤ 16 then some (h.portDevice p) else some h.hdev) = some dev ∧
      dev.key = (h.portDevice p).key) ↔ (p ≤ 16 ∨ h.child p = none) := by
  by_cases hp : p ≤ 16
  · rw [if_pos hp]
    exact iff_of_true ⟨_, rfl, rfl⟩ (.inl hp)
  · rw [if_neg hp, ← hdev_of_key]
    constructor
    · rintro ⟨dev, hdev, hkey⟩
      cases hdev
      exact .inr hkey.symm
    · rintro (hle | hkey)
      · exact absurd hle hp
      · exact ⟨h.hdev, rfl, hkey.symm⟩

/-- **A port action is reported** unless it is an overcurrent on an empty port, or on a port
past 16 with a device that the hook would have to look up.
SOURCE: hub.bpf.c:30-148, pt_regs.bpf.h:125-134 -/
theorem port_action_iff (h : Hub) {p : ℕ} (hlo : 1 ≤ p) (hhi : p ≤ h.children.length)
    (a : PortAction) :
    Reported h p a ↔
      (a = .overCurrent → h.child p ≠ none) ∧ (a.LooksUp → p ≤ 16 ∨ h.child p = none) := by
  rw [reported_iff h hlo hhi]
  cases a with
  | overCurrent =>
    have hnever : ¬PortAction.overCurrent.LooksUp := id
    simp only [true_imp_iff, hnever, false_imp_iff, and_true]
    constructor
    · rintro ⟨dev, hfound, -⟩ hempty
      exact Option.some_ne_none dev (hfound.symm.trans hempty)
    · intro hchild
      obtain ⟨dev, hdev⟩ := Option.ne_none_iff_exists'.mp hchild
      exact ⟨dev, hdev, by rw [(portDevice_of_child hdev).1]⟩
  | reset withDevice =>
    cases withDevice with
    | false => simpa [hookDevice, PortAction.LooksUp] using lookup_iff h p
    | true => simp [hookDevice, PortAction.LooksUp]
  | disable => simpa [hookDevice, PortAction.LooksUp] using lookup_iff h p
  | power set => simpa [hookDevice, PortAction.LooksUp] using lookup_iff h p

/-- A hub with a device on its last port. -/
def wideHub : Hub :=
  { hdev := { idVendor := 0x1d6b, busnum := 1, devnum := 1 }
    children := List.replicate 16 none ++ [some { idVendor := 0x0403, busnum := 1, devnum := 2 }]
    overCurrentCount := fun _ => 1
    maxchild := by decide
    apart := by
      intro dev hdev
      rw [List.mem_append, List.mem_replicate, List.mem_singleton] at hdev
      rcases hdev with ⟨-, hdev⟩ | hdev
      · cases hdev
      · cases hdev
        decide }

theorem port_action_sample :
    Reported wideHub 17 .overCurrent ↔
      (PortAction.overCurrent = .overCurrent → wideHub.child 17 ≠ none) ∧
        (PortAction.overCurrent.LooksUp → 17 ≤ 16 ∨ wideHub.child 17 = none) :=
  port_action_iff wideHub (by decide) (by decide) .overCurrent

/-- The device on port 17 goes by the hub's name, and an overcurrent of port 1 is not heard of. -/
theorem wide_port_misreported :
    ¬Reported wideHub 17 .disable ∧ ¬Reported wideHub 1 .overCurrent := by
  constructor
  · intro h
    obtain ⟨e, he, -, -, hvid, -⟩ := h 0 {}
    cases he
    exact absurd hvid (by decide)
  · intro h
    obtain ⟨e, he, -⟩ := h 0 {}
    cases he

end UsbTrace.Analysis
