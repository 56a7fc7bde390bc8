import UsbTrace.Model.Output

/-!
# Setup packets by name

`format_setup` of the urb module, which names the request of a control URB, with the tables
it reads (urb.c:95-267).  The switches are association lists.
-/

set_option autoImplicit false

namespace UsbTrace.Model

open UsbTrace.Library

/-- A `struct usb_ctrlrequest`. -/
abbrev SetupPacket := Fin 8 → UInt8

/-- `setup_le16` (urb.c:95-98). -/
def setupLe16 (s : SetupPacket) (off : Fin 8) : UInt32 :=
  (s off).toUInt32 ||| ((s (off + 1)).toUInt32 <<< 8)

def setFeature : CStr := "SET_FEATURE".toList
def clearFeature : CStr := "CLEAR_FEATURE".toList

/-- The switch of `std_req_name` (urb.c:100-118). -/
def stdReqNames : List (UInt8 × CStr) :=
  [(0x00, "GET_STATUS".toList), (0x01, clearFeature), (0x03, setFeature),
    (0x05, "SET_ADDRESS".toList), (0x06, "GET_DESCRIPTOR".toList),
    (0x07, "SET_DESCRIPTOR".toList), (0x08, "GET_CONFIGURATION".toList),
    (0x09, "SET_CONFIGURATION".toList), (0x0a, "GET_INTERFACE".toList),
    (0x0b, "SET_INTERFACE".toList), (0x0c, "SYNCH_FRAME".toList), (0x30, "SET_SEL".toList),
    (0x31, "SET_ISOCH_DELAY".toList)]

def stdReqName (req : UInt8) : Option CStr := stdReqNames.lookup req

/-- The switch of `desc_type_name` (urb.c:120-137). -/
def descTypeNames : List (UInt8 × CStr) :=
  [(1, "DEVICE".toList), (2, "CONFIG".toList), (3, "STRING".toList), (4, "INTERFACE".toList),
    (5, "ENDPOINT".toList), (6, "DEVICE_QUALIFIER".toList), (7, "OTHER_SPEED".toList),
    (8, "INTERFACE_POWER".toList), (9, "OTG".toList), (15, "BOS".toList), (33, "HID".toList),
    (34, "HID_REPORT".toList)]

def descTypeName (dt : UInt8) : Option CStr := descTypeNames.lookup dt

/-- The switches of `feature_name`: the standard features of a device, and the features of a
hub port and of a hub. -/
def deviceFeatures : List (UInt32 × CStr) :=
  [(1, "DEVICE_REMOTE_WAKEUP".toList), (2, "TEST_MODE".toList), (48, "U1_ENABLE".toList),
    (49, "U2_ENABLE".toList), (50, "LTM_ENABLE".toList)]

def portLinkState : CStr := "PORT_LINK_STATE".toList

def portFeatures : List (UInt32 × CStr) :=
  [(1, "PORT_ENABLE".toList), (2, "PORT_SUSPEND".toList), (4, "PORT_RESET".toList),
    (5, portLinkState), (8, "PORT_POWER".toList)]

def hubFeatures : List (UInt32 × CStr) :=
  [(0, "C_HUB_LOCAL_POWER".toList), (1, "C_HUB_OVER_CURRENT".toList)]

/-- `feature_name` (urb.c:139-170). -/
def featureName (type recip : UInt8) (value : UInt32) : Option CStr :=
  if type = 0 then
    if recip = 0 then deviceFeatures.lookup value
    else if recip = 1 ∧ value = 0 then some "FUNCTION_SUSPEND".toList
    else if recip = 2 ∧ value = 0 then some "ENDPOINT_HALT".toList
    else none
  else if type = 1 ∧ recip = 3 then portFeatures.lookup value
  else if type = 1 ∧ recip = 0 then hubFeatures.lookup value
  else none

/-- `link_state_name` (urb.c:172-182). -/
def linkStateName (wIndex : UInt32) : Option CStr :=
  let pls := (wIndex >>> 8) &&& 0x3
  if pls = 0 then some "U0".toList
  else if pls = 1 then some "U1".toList
  else if pls = 2 then some "U2".toList
  else if pls = 3 then some "U3".toList
  else none

/-- The type and the recipient of a request (urb.c:196-197). -/
def setupType (s : SetupPacket) : UInt8 := (s 0 >>> 5) &&& 0x3
def setupRecip (s : SetupPacket) : UInt8 := s 0 &&& 0x1f

/-- The request number, and the upper byte of `wIndex`. -/
def setupRequest (s : SetupPacket) : UInt8 := s 1
def setupIndexHigh (s : SetupPacket) : UInt8 := s 5

/-- The fields of a request as a line of JSON gives them (urb.c:314-315). -/
def setupRequestType (s : SetupPacket) : UInt8 := s 0
def setupValue (s : SetupPacket) : UInt32 := setupLe16 s 2
def setupIndex (s : SetupPacket) : UInt32 := setupLe16 s 4
def setupLength (s : SetupPacket) : UInt32 := setupLe16 s 6

/-- `%02x`. -/
def hex2 (n : ℕ) : CStr := padZero 2 (Nat.toDigits 16 n)

/-- `rname` (urb.c:198, 203-212). -/
def requestName (s : SetupPacket) : Option CStr :=
  let req := s 1
  let type := setupType s
  let recip := setupRecip s
  if type = 1 ∧ (req = 0x03 ∨ req = 0x01) then
    some (if req = 0x03 then setFeature else clearFeature)
  else if type = 1 ∧ req = 0x00 ∧ recip = 3 then some "GET_PORT_STATUS".toList
  else if type = 1 ∧ recip = 1 ∧ req = 0x09 then some "SET_REPORT".toList
  else if type = 1 ∧ recip = 1 ∧ req = 0x0a then some "SET_IDLE".toList
  else if type = 2 then some "VENDOR".toList
  else if type = 0 then stdReqName req
  else none

/-- What follows the name of a feature request (urb.c:220-242). -/
def featureText (type recip : UInt8) (value index : UInt32) : CStr :=
  match featureName type recip value with
  | some fname =>
    if value = 5 ∧ type = 1 ∧ recip = 3 then
      match linkStateName index with
      | some ls => ' ' :: (fname ++ (' ' :: (ls ++
          (" port".toList ++ decimal (index &&& 0xff).toNat))))
      | none => ' ' :: (fname ++ (" port".toList ++ decimal (index &&& 0xff).toNat))
    else if recip = 1 ∧ value = 0 then
      -- FUNCTION_SUSPEND flags live in wIndex bits 8-9
      ' ' :: (fname ++ ((if index &&& 0x100 ≠ 0 then "+LP".toList else []) ++
        ((if index &&& 0x200 ≠ 0 then "+RW".toList else []) ++
          (" iface".toList ++ decimal (index &&& 0xff).toNat))))
    else ' ' :: fname
  | none => " val=".toList ++ (decimal value.toNat ++ (" idx=".toList ++ decimal index.toNat))

/-- What follows the name of any other request (urb.c:244-267). -/
def requestText (type recip req : UInt8) (value index length : UInt32) : CStr :=
  if type = 0 ∧ (req = 0x06 ∨ req = 0x07) then
    match descTypeName (value >>> 8).toUInt8 with
    | some dname => ' ' :: dname
    | none => " dt=".toList ++ decimal (value >>> 8).toNat
  else if type = 0 ∧ req = 0x09 then ' ' :: decimal value.toNat
  else if type = 0 ∧ req = 0x0b then
    " iface".toList ++ (decimal index.toNat ++ (" alt".toList ++ decimal value.toNat))
  else if type = 0 ∧ req = 0x05 then ' ' :: decimal value.toNat
  else if req = 0x00 ∧ recip = 3 then " port".toList ++ decimal index.toNat
  else if req = 0x00 then " recip=".toList ++ decimal recip.toNat
  else " val=".toList ++ (decimal value.toNat ++ (" idx=".toList ++ (decimal index.toNat ++
    (" len=".toList ++ decimal length.toNat))))

/-- The text `format_setup` prints (urb.c:189-267). -/
def setupText (s : SetupPacket) : CStr :=
  let req := s 1
  let value := setupLe16 s 2
  let index := setupLe16 s 4
  let length := setupLe16 s 6
  match requestName s with
  | none => "rt=0x".toList ++ (hex2 (s 0).toNat ++ (" req=0x".toList ++ (hex2 req.toNat ++
      (" val=".toList ++ (decimal value.toNat ++ (" idx=".toList ++ (decimal index.toNat ++
        (" len=".toList ++ decimal length.toNat))))))))
  | some rname =>
    if req = 0x03 ∨ req = 0x01 then
      rname ++ featureText (setupType s) (setupRecip s) value index
    else rname ++ requestText (setupType s) (setupRecip s) req value index length

/-- `format_setup` (urb.c:189-267) into a buffer of `n` bytes. -/
def formatSetup (s : SetupPacket) (n : ℕ) : CStr := snprintf n (setupText s)

/-- `char req[96]` of its callers (urb.c:271, 294). -/
def reqSize : ℕ := 96

end UsbTrace.Model
