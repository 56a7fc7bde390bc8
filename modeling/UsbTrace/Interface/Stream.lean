import UsbTrace.Model.Uvc
import UsbTrace.Interface.DeviceFilter
import UsbTrace.Library.Layout
import UsbTrace.Library.Run

/-!
# A video stream on its own

What the uvc program does with one stream, apart from the maps it shares with the others:
`streamStep` reads one packet and answers with the frames it completes.  A completion runs
this machine over the packets of its URB (`uvcParseFrames_stream`) and leaves the other
streams alone (`uvcParseFrames_other`).
-/

set_option autoImplicit false

namespace UsbTrace.Interface

open UsbTrace.Model UsbTrace.Library

/-! ## The machine -/

/-- A packet with all the program knows when it comes to it. -/
structure StreamPacket where
  ctx : HookCtx
  src : UvcSource
  tblen : UInt32
  desc : Option IsoPacket

/-- The packet belongs to another frame than the one in the making. -/
def fidToggled (st : UvcStreamState) (fid : UInt8) : Bool :=
  st.active && st.haveFid && fid ≠ st.curFid

/-- The frame in the making, where the packet at hand shows that its end was lost. -/
def lostFrame (ctx : HookCtx) (src : UvcSource) (st : UvcStreamState) (fid : UInt8) :
    List UvcFrameEvent :=
  if fidToggled st fid then [uvcFrameRecord ctx src st false] else []

/-- The stream with the frame the packet at hand belongs to in the making. -/
def placePacket (st : UvcStreamState) (fid : UInt8) (now : UInt64) : UvcStreamState :=
  let st := if fidToggled st fid then uvcResetFrame st now else st
  if st.active then st else uvcStartFrame st fid now

/-- An accepted packet on a stream: the stream with the packet counted. -/
def countPacket (st : UvcStreamState) (d : IsoPacket) (hdr : List UInt8) (now : UInt64) :
    UvcStreamState :=
  uvcCountPacket (placePacket (uvcMarkStatus st d) (hdr.getD 1 0 &&& uvcFid) now) d hdr

/-- One packet on a stream: the stream after it, and the frames it completes. -/
def streamStep (st : UvcStreamState) (p : StreamPacket) : UvcStreamState × List UvcFrameEvent :=
  match p.desc with
  | none => (st, [])
  | some d => match uvcPayloadHeader p.tblen d with
    | none => (uvcMarkStatus st d, [])
    | some hdr =>
      let lost := lostFrame p.ctx p.src (uvcMarkStatus st d) (hdr.getD 1 0 &&& uvcFid)
      let st := countPacket st d hdr p.ctx.now
      if hdr.getD 1 0 &&& uvcEof ≠ 0 then
        (uvcResetFrame st p.ctx.now, lost ++ [uvcFrameRecord p.ctx p.src st true])
      else (st, lost)

/-- The frames among the records of the uvc module. -/
def framesOf (out : List Record) : List UvcFrameEvent :=
  out.filterMap fun r => match r with
    | .uvcFrame e => some e
    | _ => none

@[simp] theorem framesOf_nil : framesOf [] = [] := rfl

@[simp] theorem framesOf_append (a b : List Record) :
    framesOf (a ++ b) = framesOf a ++ framesOf b := List.filterMap_append

@[simp] theorem framesOf_frame (e : UvcFrameEvent) (rs : List Record) :
    framesOf (.uvcFrame e :: rs) = e :: framesOf rs := rfl

@[simp] theorem framesOf_map (es : List UvcFrameEvent) :
    framesOf (es.map .uvcFrame) = es := by
  induction es with
  | nil => rfl
  | cons e es ih => rw [List.map_cons, framesOf_frame, ih]

/-! ## What an emission touches -/

theorem uvcVb2BindDev_streams (m : UvcMaps) (q : UInt64) (bus dev : UInt16) :
    (uvcVb2BindDev m q bus dev).streams = m.streams := by
  unfold uvcVb2BindDev
  split <;> rfl

/-- A vb2 record holds no frame and touches no stream. -/
theorem uvcVb2Submit_frames (ctx : HookCtx) (m : UvcMaps) (q : UInt64) (b : Option Vb2Buffer)
    (op state starved : UInt8) (now : UInt64) (seq : UInt32) (seqGap : UInt8)
    (interval wire : UInt32) :
    framesOf (uvcVb2Submit ctx m q b op state starved now seq seqGap interval wire).2 = [] ∧
      (uvcVb2Submit ctx m q b op state starved now seq seqGap interval wire).1.streams =
        m.streams := by
  refine ⟨rfl, ?_⟩
  simp only [uvcVb2Submit]
  split
  · exact uvcVb2BindDev_streams m q _ _
  · rfl

theorem uvcVb2Qstate_streams (m : UvcMaps) (key : UInt64) :
    (uvcVb2Qstate m key).1.streams = m.streams := rfl

/-- Neither does the starvation check. -/
theorem uvcCheckStarvation_frames (ctx : HookCtx) (m : UvcMaps) (bus dev : UInt16)
    (now : UInt64) :
    framesOf (uvcCheckStarvation ctx m bus dev now).2 = [] ∧
      (uvcCheckStarvation ctx m bus dev now).1.streams = m.streams := by
  unfold uvcCheckStarvation
  split
  · exact ⟨rfl, rfl⟩
  · split
    · exact ⟨rfl, rfl⟩
    · next q _ =>
      split
      · exact ⟨rfl, rfl⟩
      · dsimp only
        split
        · exact ⟨rfl, rfl⟩
        · split
          · next m' hq =>
            have hm : m' = (uvcVb2Qstate m q).1 := by rw [hq]
            exact ⟨rfl, by rw [hm, uvcVb2Qstate_streams]⟩
          · next m' st hq =>
            have hm : m' = (uvcVb2Qstate m q).1 := by rw [hq]
            split
            · exact ⟨rfl, by rw [hm, uvcVb2Qstate_streams]⟩
            · obtain ⟨hout, hstreams⟩ := uvcVb2Submit_frames ctx
                { m' with vb2Queues := m'.vb2Queues.update q { st with lastStarveNs := now } }
                q none uvcVb2Starved 0 1 now 0 0 0 0
              refine ⟨hout, hstreams.trans ?_⟩
              rw [hm, uvcVb2Qstate_streams]

/-- While no queue is bound to a device there is nothing to check. -/
theorem uvcCheckStarvation_unbound (ctx : HookCtx) {m : UvcMaps}
    (hm : m.vb2DevQueue = BoundedMap.empty) (bus dev : UInt16) (now : UInt64) :
    uvcCheckStarvation ctx m bus dev now = (m, []) := by
  unfold uvcCheckStarvation
  rw [hm, BoundedMap.lookup_empty]
  split <;> rfl

/-- **A frame is emitted** once, and its stream reset. -/
theorem uvcEmitFrame_stream (ctx : HookCtx) (src : UvcSource) (s : FrameLoop) (eof : Bool) :
    (uvcEmitFrame ctx src s eof).st = uvcResetFrame s.st ctx.now ∧
      framesOf (uvcEmitFrame ctx src s eof).out =
        framesOf s.out ++ [uvcFrameRecord ctx src s.st eof] ∧
      (uvcEmitFrame ctx src s eof).maps.streams = s.maps.streams := by
  obtain ⟨hout, hstreams⟩ := uvcCheckStarvation_frames ctx
    (uvcNoteWireFrame s.maps src.bus src.devnum src.vid src.pid s.st.curBytes ctx.now)
    src.bus src.devnum ctx.now
  refine ⟨rfl, ?_, hstreams⟩
  simp only [uvcEmitFrame, framesOf_append, framesOf_frame, hout]

/-! ## Keys -/

/-- The key of a stream, where its device number fits a byte. -/
theorem uvcStreamKey_toNat (bus : UInt16) {devnum : UInt16} (h : devnum.toNat < 256) (ep : UInt8) :
    (uvcStreamKey bus devnum ep).toNat = bus.toNat * 65536 + devnum.toNat * 256 + ep.toNat := by
  have hbus := bus.toNat_lt
  have hep := ep.toNat_lt
  have hlow : (ep.toUInt32 ||| devnum.toUInt32 <<< 8).toNat = ep.toNat + devnum.toNat * 2 ^ 8 := by
    rw [toNat_or_shiftLeft (k := 8) (by decide) (by rwa [UInt8.toNat_toUInt32])
      (by rw [UInt16.toNat_toUInt32]; change _ * 2 ^ 8 < _; omega), UInt8.toNat_toUInt32,
      UInt16.toNat_toUInt32]
    rfl
  rw [uvcStreamKey, UInt32.or_assoc, UInt32.or_comm, UInt32.or_comm (devnum.toUInt32 <<< 8),
    toNat_or_shiftLeft (k := 16) (by decide) (by rw [hlow]; change _ < 2 ^ 16; omega)
      (by rw [UInt16.toNat_toUInt32]; change _ * 2 ^ 16 < _; omega), hlow, UInt16.toNat_toUInt32]
  change ep.toNat + devnum.toNat * 2 ^ 8 + bus.toNat * 2 ^ 16 = _
  omega

/-- **Distinct streams have distinct keys.** -/
theorem uvcStreamKey_inj {bus bus' devnum devnum' : UInt16} {ep ep' : UInt8}
    (h : devnum.toNat < 256) (h' : devnum'.toNat < 256)
    (heq : uvcStreamKey bus devnum ep = uvcStreamKey bus' devnum' ep') :
    bus = bus' ∧ devnum = devnum' ∧ ep = ep' := by
  have hnat := congrArg UInt32.toNat heq
  rw [uvcStreamKey_toNat bus h, uvcStreamKey_toNat bus' h'] at hnat
  have hep := ep.toNat_lt
  have hep' := ep'.toNat_lt
  refine ⟨UInt16.toNat_inj.mp ?_, UInt16.toNat_inj.mp ?_, UInt8.toNat_inj.mp ?_⟩ <;> omega

/-! ## The packet loop -/

/-- A packet of an URB, as the stream sees it. -/
def streamPacket (ctx : HookCtx) (src : UvcSource) (tblen : UInt32) (d : Option IsoPacket) :
    StreamPacket := { ctx := ctx, src := src, tblen := tblen, desc := d }

/-- The loop where the packet at hand is counted: a frame it does not belong to is ended,
and a new one begun where none is in the making. -/
def uvcPlace (ctx : HookCtx) (src : UvcSource) (s : FrameLoop) (fid : UInt8) : FrameLoop :=
  let s := if fidToggled s.st fid then uvcEmitFrame ctx src s false else s
  { s with st := if s.st.active then s.st else uvcStartFrame s.st fid ctx.now }

/-- The source's two branches begin the new frame each on its own. -/
theorem uvcPlace_eq (ctx : HookCtx) (src : UvcSource) (s : FrameLoop) (fid : UInt8) :
    (if !s.st.active then { s with st := uvcStartFrame s.st fid ctx.now }
      else if s.st.haveFid ∧ fid ≠ s.st.curFid then
        let s := uvcEmitFrame ctx src s false
        { s with st := uvcStartFrame s.st fid ctx.now }
      else s) = uvcPlace ctx src s fid := by
  unfold uvcPlace
  cases hact : s.st.active with
  | false =>
    have hfid : fidToggled s.st fid = false := by simp [fidToggled, hact]
    simp [hfid, hact]
  | true =>
    by_cases htog : s.st.haveFid = true ∧ fid ≠ s.st.curFid
    · have hfid : fidToggled s.st fid = true := by simp [fidToggled, hact, htog]
      simp [hfid, htog, uvcEmitFrame, uvcResetFrame]
    · have hfid : fidToggled s.st fid = false := by simpa [fidToggled, hact] using htog
      simp [hact, hfid, htog]

/-- The stream and the frames where the packet at hand is counted. -/
theorem uvcPlace_stream (ctx : HookCtx) (src : UvcSource) (s : FrameLoop) (fid : UInt8) :
    (uvcPlace ctx src s fid).st = placePacket s.st fid ctx.now ∧
      framesOf (uvcPlace ctx src s fid).out = framesOf s.out ++ lostFrame ctx src s.st fid ∧
      (uvcPlace ctx src s fid).maps.streams = s.maps.streams := by
  obtain ⟨hst, hout, hstreams⟩ := uvcEmitFrame_stream ctx src s false
  unfold uvcPlace placePacket lostFrame
  cases fidToggled s.st fid with
  | false => exact ⟨rfl, (List.append_nil _).symm, rfl⟩
  | true => exact ⟨by simp only [if_true, hst], hout, hstreams⟩

/-- The loop after an accepted packet has been counted. -/
def uvcCounted (ctx : HookCtx) (src : UvcSource) (s : FrameLoop) (d : IsoPacket)
    (hdr : List UInt8) : FrameLoop :=
  let s := uvcPlace ctx src { s with st := uvcMarkStatus s.st d } (hdr.getD 1 0 &&& uvcFid)
  { s with st := uvcCountPacket s.st d hdr }

/-- A turn of the loop with an accepted packet. -/
theorem uvcPacket_accepted (ctx : HookCtx) (src : UvcSource) {tblen : UInt32} (s : FrameLoop)
    {d : IsoPacket} {hdr : List UInt8} (hhdr : uvcPayloadHeader tblen d = some hdr) :
    uvcPacket ctx src tblen s (some d) =
      if hdr.getD 1 0 &&& uvcEof ≠ 0 then uvcEmitFrame ctx src (uvcCounted ctx src s d hdr) true
      else uvcCounted ctx src s d hdr := by
  simp only [uvcPacket, hhdr, uvcCounted, ← uvcPlace_eq]

/-- A turn of the loop with a packet that is skipped. -/
theorem uvcPacket_skipped (ctx : HookCtx) (src : UvcSource) {tblen : UInt32} (s : FrameLoop)
    {d : IsoPacket} (hhdr : uvcPayloadHeader tblen d = none) :
    uvcPacket ctx src tblen s (some d) = { s with st := uvcMarkStatus s.st d } := by
  simp only [uvcPacket, hhdr]

/-- **One packet** of the loop is one step of its stream. -/
theorem uvcPacket_stream (ctx : HookCtx) (src : UvcSource) (tblen : UInt32) (s : FrameLoop)
    (d : Option IsoPacket) :
    (uvcPacket ctx src tblen s d).st = (streamStep s.st (streamPacket ctx src tblen d)).1 ∧
      framesOf (uvcPacket ctx src tblen s d).out =
        framesOf s.out ++ (streamStep s.st (streamPacket ctx src tblen d)).2 ∧
      (uvcPacket ctx src tblen s d).maps.streams = s.maps.streams := by
  cases d with
  | none => exact ⟨rfl, (List.append_nil _).symm, rfl⟩
  | some d =>
    cases hhdr : uvcPayloadHeader tblen d with
    | none =>
      rw [uvcPacket_skipped ctx src s hhdr]
      simp only [streamStep, streamPacket, hhdr]
      exact ⟨trivial, (List.append_nil _).symm, trivial⟩
    | some hdr =>
      obtain ⟨hst, hout, hstreams⟩ := uvcPlace_stream ctx src
        { s with st := uvcMarkStatus s.st d } (hdr.getD 1 0 &&& uvcFid)
      obtain ⟨hst', hout', hstreams'⟩ := uvcEmitFrame_stream ctx src
        (uvcCounted ctx src s d hdr) true
      have hcount : (uvcCounted ctx src s d hdr).st = countPacket s.st d hdr ctx.now :=
        congrArg (fun st => uvcCountPacket st d hdr) hst
      rw [uvcPacket_accepted ctx src s hhdr]
      simp only [streamStep, streamPacket, hhdr]
      split
      · refine ⟨?_, ?_, hstreams'.trans hstreams⟩
        · rw [hst', hcount]
        · rw [hout', hcount, ← List.append_assoc]
          exact congrArg (· ++ _) hout
      · exact ⟨hcount, hout, hstreams⟩

/-- **The packet loop** runs the stream over the packets. -/
theorem uvcPackets_stream (ctx : HookCtx) (src : UvcSource) (tblen : UInt32) (s : FrameLoop)
    (ds : List (Option IsoPacket)) :
    let ps := ds.map (streamPacket ctx src tblen)
    let s' := ds.foldl (uvcPacket ctx src tblen) s
    s'.st = finalState streamStep s.st ps ∧
      framesOf s'.out = framesOf s.out ++ outputs streamStep s.st ps ∧
      s'.maps.streams = s.maps.streams := by
  induction ds generalizing s with
  | nil => exact ⟨rfl, (List.append_nil _).symm, rfl⟩
  | cons d ds ih =>
    obtain ⟨hst, hout, hstreams⟩ := uvcPacket_stream ctx src tblen s d
    obtain ⟨hst', hout', hstreams'⟩ := ih (uvcPacket ctx src tblen s d)
    refine ⟨?_, ?_, hstreams'.trans hstreams⟩
    · rw [List.foldl_cons, hst', hst, List.map_cons, finalState_cons]
    · rw [List.foldl_cons, hout', hout, hst, List.map_cons, outputs_cons, List.append_assoc]

/-! ## A completion -/

/-- Where the frames of a completion come from. -/
def uvcSource (dev : UsbDevice) (urb : Urb) : UvcSource :=
  { vid := dev.idVendor, pid := dev.idProduct, bus := dev.busnum.toUInt16,
    devnum := dev.devnum.toUInt16, ep := pipeEndpoint urb.pipe }

/-- The packets a completion brings its stream. -/
def completionPackets (ctx : HookCtx) (dev : UsbDevice) (urb : Urb) : List StreamPacket :=
  if urb.transferBuffer = 0 then []
  else (uvcPackets urb).map (streamPacket ctx (uvcSource dev urb) urb.transferBufferLength)

/-- The stream a key stands for, fresh where the map has none. -/
def streamAt (m : UvcMaps) (key : UInt32) : UvcStreamState := (m.streams.lookup key).getD {}

/-- A device that does not pass leaves no trace. -/
theorem uvcParseFrames_dropped {cfg : FilterConfig} {dev : UsbDevice}
    (h : passes cfg dev = false) (ctx : HookCtx) (m : UvcMaps) (urb : Urb) :
    uvcParseFrames cfg ctx m dev urb = (m, []) := by
  unfold uvcParseFrames
  rw [devMatch_of_not_passes h]

/-- What a completion of a device that passes does. -/
theorem uvcParseFrames_passed {cfg : FilterConfig} {dev : UsbDevice} (h : passes cfg dev = true)
    (ctx : HookCtx) (m : UvcMaps) (urb : Urb) :
    let src := uvcSource dev urb
    let m' := { m with streams := (m.streams.lookupOrInit src.key {}).1 }
    uvcParseFrames cfg ctx m dev urb = match (m.streams.lookupOrInit src.key {}).2 with
      | none => (m', [])
      | some st =>
        if urb.transferBuffer = 0 then (m', [])
        else
          let s := (uvcPackets urb).foldl (uvcPacket ctx src urb.transferBufferLength)
            { st := st, maps := m', out := [] }
          ({ s.maps with streams := s.maps.streams.update src.key s.st }, s.out) := by
  intro src m'
  unfold uvcParseFrames
  rw [devMatch_of_passes h]
  rcases hl : m.streams.lookupOrInit src.key {} with ⟨streams, found⟩
  dsimp only [src, uvcSource] at hl
  dsimp only
  rw [hl]
  cases found with
  | none => simp only [m', src, uvcSource, hl]
  | some st =>
    simp only [m', src, uvcSource, hl]

/-- **A completion** of a device that passes runs its stream over its packets, where the
stream has room in the map. -/
theorem uvcParseFrames_stream {cfg : FilterConfig} {dev : UsbDevice} {urb : Urb} {m : UvcMaps}
    (h : passes cfg dev = true) (hroom : m.streams.HasRoom (uvcSource dev urb).key)
    (ctx : HookCtx) :
    let st := streamAt m (uvcSource dev urb).key
    let ps := completionPackets ctx dev urb
    (uvcParseFrames cfg ctx m dev urb).1.streams.lookup (uvcSource dev urb).key =
        some (finalState streamStep st ps) ∧
      framesOf (uvcParseFrames cfg ctx m dev urb).2 = outputs streamStep st ps := by
  intro st ps
  obtain ⟨hval, hself⟩ := BoundedMap.lookupOrInit_of_hasRoom hroom {}
  change _ = some st at hval
  rw [uvcParseFrames_passed h, hval]
  dsimp only
  by_cases hbuf : urb.transferBuffer = 0
  · have hps : ps = [] := if_pos hbuf
    rw [if_pos hbuf, hps]
    exact ⟨hself, rfl⟩
  · have hps : ps = (uvcPackets urb).map
        (streamPacket ctx (uvcSource dev urb) urb.transferBufferLength) := if_neg hbuf
    rw [if_neg hbuf, hps]
    obtain ⟨hst, hout, hstreams⟩ := uvcPackets_stream ctx (uvcSource dev urb)
      urb.transferBufferLength
      { st := st, maps := { m with streams :=
        (m.streams.lookupOrInit (uvcSource dev urb).key {}).1 }, out := [] } (uvcPackets urb)
    refine ⟨?_, hout⟩
    dsimp only
    rw [hstreams, hst, BoundedMap.lookup_update_self (BoundedMap.hasRoom_of_lookup hself)]

/-- A completion of a stream without room in the map leaves no trace. -/
theorem uvcParseFrames_noRoom {cfg : FilterConfig} {dev : UsbDevice} {urb : Urb} {m : UvcMaps}
    (h : passes cfg dev = true) (hroom : ¬m.streams.HasRoom (uvcSource dev urb).key)
    (ctx : HookCtx) : uvcParseFrames cfg ctx m dev urb = (m, []) := by
  rw [uvcParseFrames_passed h, BoundedMap.lookupOrInit_of_not_hasRoom hroom]

/-- **A completion leaves the other streams alone.** -/
theorem uvcParseFrames_other (cfg : FilterConfig) (ctx : HookCtx) (m : UvcMaps)
    (dev : UsbDevice) (urb : Urb) {key : UInt32} (hkey : key ≠ (uvcSource dev urb).key) :
    (uvcParseFrames cfg ctx m dev urb).1.streams.lookup key = m.streams.lookup key := by
  cases h : passes cfg dev with
  | false => rw [uvcParseFrames_dropped h]
  | true =>
    have hinit := BoundedMap.lookupOrInit_of_ne m.streams hkey ({} : UvcStreamState)
    rw [uvcParseFrames_passed h]
    split
    · exact hinit
    · next st _ =>
      split
      · exact hinit
      · obtain ⟨-, -, hstreams⟩ := uvcPackets_stream ctx (uvcSource dev urb)
          urb.transferBufferLength
          { st := st, maps := { m with streams :=
            (m.streams.lookupOrInit (uvcSource dev urb).key {}).1 }, out := [] } (uvcPackets urb)
        dsimp only
        rw [hstreams, BoundedMap.lookup_update_of_ne _ hkey, hinit]

/-! ## What an emission keeps -/

section Emission

variable {ctx : HookCtx} {src : UvcSource} {I : UvcMaps → List Record → Prop}
  (hemit : ∀ s eof, I s.maps s.out → I (uvcEmitFrame ctx src s eof).maps
    (uvcEmitFrame ctx src s eof).out)

include hemit

/-- What an emission keeps, a packet keeps. -/
theorem uvcPacket_induct (tblen : UInt32) {s : FrameLoop} (hs : I s.maps s.out)
    (d : Option IsoPacket) :
    I (uvcPacket ctx src tblen s d).maps (uvcPacket ctx src tblen s d).out := by
  cases d with
  | none => exact hs
  | some d =>
    cases hhdr : uvcPayloadHeader tblen d with
    | none =>
      rw [uvcPacket_skipped ctx src s hhdr]
      exact hs
    | some hdr =>
      have hcount : I (uvcCounted ctx src s d hdr).maps (uvcCounted ctx src s d hdr).out := by
        simp only [uvcCounted, uvcPlace]
        split
        · exact hemit { s with st := uvcMarkStatus s.st d } false hs
        · exact hs
      rw [uvcPacket_accepted ctx src s hhdr]
      split
      · exact hemit _ true hcount
      · exact hcount

/-- **The loop rule.**  What an emission keeps, the packet loop keeps. -/
theorem uvcPackets_induct (tblen : UInt32) (ds : List (Option IsoPacket)) {s : FrameLoop}
    (hs : I s.maps s.out) :
    I (ds.foldl (uvcPacket ctx src tblen) s).maps (ds.foldl (uvcPacket ctx src tblen) s).out := by
  induction ds generalizing s with
  | nil => exact hs
  | cons d ds ih => exact ih (uvcPacket_induct hemit tblen hs d)

end Emission

/-- **The completion rule.**  What neither an emission nor the streams map changes, a
completion keeps. -/
theorem uvcParseFrames_induct {I : UvcMaps → List Record → Prop} (cfg : FilterConfig)
    {ctx : HookCtx} {dev : UsbDevice} {urb : Urb}
    (hemit : ∀ s eof, I s.maps s.out → I (uvcEmitFrame ctx (uvcSource dev urb) s eof).maps
      (uvcEmitFrame ctx (uvcSource dev urb) s eof).out)
    (hstreams : ∀ m out streams, I m out → I { m with streams := streams } out)
    {m : UvcMaps} (hm : I m []) :
    I (uvcParseFrames cfg ctx m dev urb).1 (uvcParseFrames cfg ctx m dev urb).2 := by
  cases h : passes cfg dev with
  | false =>
    rw [uvcParseFrames_dropped h]
    exact hm
  | true =>
    rw [uvcParseFrames_passed h]
    split
    · exact hstreams _ _ _ hm
    · next st _ =>
      split
      · exact hstreams _ _ _ hm
      · exact hstreams _ _ _ (uvcPackets_induct hemit urb.transferBufferLength (uvcPackets urb)
          (s := { st := st, maps := { m with streams :=
            (m.streams.lookupOrInit (uvcSource dev urb).key {}).1 }, out := [] })
          (hstreams _ _ _ hm))

/-! ## With no queue bound -/

/-- No vb2 queue is bound to a device, and the records so far are frames. -/
structure Unbound (m : UvcMaps) (out : List Record) : Prop where
  queue : m.vb2DevQueue = BoundedMap.empty
  frames : out = (framesOf out).map .uvcFrame

theorem uvcEmitFrame_unbound (ctx : HookCtx) (src : UvcSource) {s : FrameLoop}
    (hs : Unbound s.maps s.out) (eof : Bool) :
    Unbound (uvcEmitFrame ctx src s eof).maps (uvcEmitFrame ctx src s eof).out := by
  have hcheck := uvcCheckStarvation_unbound ctx
    (m := uvcNoteWireFrame s.maps src.bus src.devnum src.vid src.pid s.st.curBytes ctx.now)
    hs.queue src.bus src.devnum ctx.now
  refine ⟨?_, ?_⟩
  · simp only [uvcEmitFrame, hcheck]
    exact hs.queue
  · simp only [uvcEmitFrame, hcheck, framesOf_append, framesOf_frame, framesOf_nil,
      List.map_append, List.map_cons, List.map_nil]
    rw [← hs.frames]

/-- **With no queue bound** a completion emits frames only, and binds none. -/
theorem uvcParseFrames_unbound (cfg : FilterConfig) (ctx : HookCtx) {m : UvcMaps}
    (hm : m.vb2DevQueue = BoundedMap.empty) (dev : UsbDevice) (urb : Urb) :
    Unbound (uvcParseFrames cfg ctx m dev urb).1 (uvcParseFrames cfg ctx m dev urb).2 :=
  uvcParseFrames_induct cfg (fun _ eof hs => uvcEmitFrame_unbound ctx _ hs eof)
    (fun _ _ _ h => ⟨h.queue, h.frames⟩) ⟨hm, rfl⟩

/-! ## Where frames come from -/

/-- A frame carries the ids of the completion that ends it. -/
theorem streamStep_source {st : UvcStreamState} {p : StreamPacket} {e : UvcFrameEvent}
    (he : e ∈ (streamStep st p).2) :
    e.vid = p.src.vid ∧ e.product = p.src.pid ∧ e.busnum = p.src.bus ∧
      e.devnum = p.src.devnum ∧ e.ep = p.src.ep := by
  have hrecord : ∃ st' eof, e = uvcFrameRecord p.ctx p.src st' eof := by
    unfold streamStep at he
    split at he
    · cases he
    · split at he
      · cases he
      · have hlost : ∀ st' fid, e ∈ lostFrame p.ctx p.src st' fid →
            ∃ st'' eof, e = uvcFrameRecord p.ctx p.src st'' eof := by
          intro st' fid hmem
          unfold lostFrame at hmem
          split at hmem
          · exact ⟨_, _, List.mem_singleton.mp hmem⟩
          · cases hmem
        dsimp only at he
        split at he
        · rcases List.mem_append.mp he with he | he
          · exact hlost _ _ he
          · exact ⟨_, _, List.mem_singleton.mp he⟩
        · exact hlost _ _ he
  obtain ⟨st', eof, rfl⟩ := hrecord
  exact ⟨rfl, rfl, rfl, rfl, rfl⟩

/-- Every frame of a run comes from one of its packets. -/
theorem outputs_streamStep_source {ps : List StreamPacket} {st : UvcStreamState}
    {e : UvcFrameEvent} (he : e ∈ outputs streamStep st ps) :
    ∃ p ∈ ps, e.vid = p.src.vid ∧ e.product = p.src.pid ∧ e.busnum = p.src.bus ∧
      e.devnum = p.src.devnum ∧ e.ep = p.src.ep := by
  induction ps generalizing st with
  | nil => cases he
  | cons p ps ih =>
    rcases List.mem_append.mp he with he | he
    · exact ⟨p, List.mem_cons_self, streamStep_source he⟩
    · obtain ⟨q, hq, hsrc⟩ := ih he
      exact ⟨q, List.mem_cons_of_mem _ hq, hsrc⟩

/-- **A completion's frames carry its ids.** -/
theorem uvcParseFrames_source {cfg : FilterConfig} {ctx : HookCtx} {m : UvcMaps}
    {dev : UsbDevice} {urb : Urb} {e : UvcFrameEvent}
    (he : e ∈ framesOf (uvcParseFrames cfg ctx m dev urb).2) :
    e.vid = dev.idVendor ∧ e.product = dev.idProduct ∧ e.busnum = dev.busnum.toUInt16 ∧
      e.devnum = dev.devnum.toUInt16 ∧ e.ep = pipeEndpoint urb.pipe := by
  cases h : passes cfg dev with
  | false =>
    rw [uvcParseFrames_dropped h] at he
    cases he
  | true =>
    rw [uvcParseFrames_passed h] at he
    split at he
    · cases he
    · next st _ =>
      split at he
      · cases he
      · have hout := (uvcPackets_stream ctx (uvcSource dev urb) urb.transferBufferLength
          { st := st, maps := { m with streams :=
            (m.streams.lookupOrInit (uvcSource dev urb).key {}).1 }, out := [] }
          (uvcPackets urb)).2.1
        dsimp only at he
        rw [hout] at he
        obtain ⟨p, hp, hsrc⟩ := outputs_streamStep_source he
        obtain ⟨d, -, rfl⟩ := List.mem_map.mp hp
        exact hsrc

/-- **A completion's frames** carry its time. -/
theorem uvcParseFrames_tsNs (cfg : FilterConfig) (ctx : HookCtx) (m : UvcMaps)
    (dev : UsbDevice) (urb : Urb) :
    ∀ e ∈ framesOf (uvcParseFrames cfg ctx m dev urb).2, e.hdr.tsNs = ctx.now := by
  refine uvcParseFrames_induct (I := fun _ out => ∀ e ∈ framesOf out, e.hdr.tsNs = ctx.now) cfg
    (fun s eof hs e he => ?_) (fun _ _ _ h => h) (fun e he => absurd he List.not_mem_nil)
  rw [(uvcEmitFrame_stream ctx (uvcSource dev urb) s eof).2.1, List.mem_append,
    List.mem_singleton] at he
  rcases he with he | rfl
  · exact hs e he
  · rfl

/-! ## The other hooks of the module -/

/-- A videobuf2 tracepoint emits no frame and touches no stream. -/
theorem vb2Step_frames (ctx : HookCtx) (m : UvcMaps) (call : Vb2Hook) :
    framesOf (vb2Step ctx m call).2 = [] ∧ (vb2Step ctx m call).1.streams = m.streams := by
  have hxact : ∀ q b op state, framesOf (uvcEmitVb2Xact ctx m q b op state).2 = [] ∧
      (uvcEmitVb2Xact ctx m q b op state).1.streams = m.streams := by
    intro q b op state
    unfold uvcEmitVb2Xact
    split
    · exact ⟨rfl, rfl⟩
    · exact uvcVb2Submit_frames ..
  cases call with
  | bufDone b =>
    simp only [vb2Step, uvcEmitVb2Done]
    split
    · exact ⟨rfl, rfl⟩
    · split
      · exact ⟨rfl, rfl⟩
      · split
        · exact ⟨rfl, rfl⟩
        · split
          · next m' hq =>
            have hm : m' = (uvcVb2Qstate m b.vb2Queue).1 := by rw [hq]
            exact ⟨rfl, by rw [hm, uvcVb2Qstate_streams]⟩
          · next m' st hq =>
            have hm : m' = (uvcVb2Qstate m b.vb2Queue).1 := by rw [hq]
            refine ⟨(uvcVb2Submit_frames ..).1, (uvcVb2Submit_frames ..).2.trans ?_⟩
            rw [hm, uvcVb2Qstate_streams]
  | bufQueue q b => exact hxact q b _ _
  | qbuf q b => exact hxact q b _ _
  | dqbuf q b => exact hxact q b _ _

/-- A completion's class record is no frame. -/
theorem onVideoComplete_frames (cfg : FilterConfig) (ctx : HookCtx) (m : UvcMaps)
    (dev : UsbDevice) (urb : Urb) :
    framesOf (onVideoComplete cfg ctx m dev urb).2 =
        framesOf (uvcParseFrames cfg ctx m dev urb).2 ∧
      (onVideoComplete cfg ctx m dev urb).1 = (uvcParseFrames cfg ctx m dev urb).1 := by
  refine ⟨?_, rfl⟩
  simp only [onVideoComplete, framesOf_append]
  cases usbtraceClassUrbEmit cfg dev urb usbtraceClassVideo ctx.now ctx.task <;> rfl

end UsbTrace.Interface
