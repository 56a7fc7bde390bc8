import UsbTrace.Interface.Vb2

/-!
# The device of a queue event

A queue event carries no device of its own: the program fills it in from the last wire frame
of any camera, where that is at most 100 ms old, and files the queue under that device for
the starvation check.  So an event names the camera that sent a frame last, which is the
camera that owns the queue exactly when the cameras take turns (`vb2_attribution`), and need
not be when they do not (`attribution_confused`), also where the event is not correlated with
the frame.
-/

set_option autoImplicit false

namespace UsbTrace.Analysis

open UsbTrace.Model UsbTrace.Library UsbTrace.Interface

/-! ## Cameras -/

/-- A camera, by its ids and its address. -/
structure Camera where
  vid : UInt16
  pid : UInt16
  bus : UInt16
  devnum : UInt16
deriving DecidableEq, Repr

/-- No device identity. -/
def Camera.nobody : Camera := ⟨0, 0, 0, 0⟩

def frameCamera (e : UvcFrameEvent) : Camera := ⟨e.vid, e.product, e.busnum, e.devnum⟩
def eventCamera (e : UvcVb2Event) : Camera := ⟨e.vid, e.product, e.busnum, e.devnum⟩
def corrCamera (c : StreamCorr) : Camera := ⟨c.vid, c.pid, c.busnum, c.devnum⟩
def deviceCamera (dev : UsbDevice) : Camera :=
  ⟨dev.idVendor, dev.idProduct, dev.busnum.toUInt16, dev.devnum.toUInt16⟩

/-- The pool an event reports: buffers, queued, owned by the driver. -/
def eventPool (e : UvcVb2Event) : UInt16 × UInt16 × UInt16 := (e.numBuffers, e.queued, e.drvOwned)

/-- The last wire frame of any camera, where it is at most 100 ms old. -/
def wireFrame (out : List Record) (now : UInt64) : Option UvcFrameEvent :=
  (framesOf out).getLast?.filter fun e => e.hdr.tsNs ≠ 0 ∧ now - e.hdr.tsNs ≤ wireVb2MaxNs

/-- The camera of that frame. -/
def wireCamera (out : List Record) (now : UInt64) : Camera :=
  ((wireFrame out now).map frameCamera).getD .nobody

/-! ## The last wire frame -/

/-- The entry a wire frame leaves. -/
def corrOf (e : UvcFrameEvent) : StreamCorr :=
  { lastWireDoneNs := e.hdr.tsNs, lastWireBytes := e.bytes, vid := e.vid, pid := e.product,
    busnum := e.busnum, devnum := e.devnum }

/-- The global entry is that of the last frame emitted. -/
def CorrHolds (m : UvcMaps) (out : List Record) : Prop :=
  match (framesOf out).getLast? with
  | none => m.streamCorr = BoundedMap.empty
  | some e => m.streamCorr.lookup 0 = some (corrOf e)

theorem CorrHolds.of_same {m m' : UvcMaps} {out out' : List Record} (h : CorrHolds m out)
    (hm : m'.streamCorr = m.streamCorr) (hout : framesOf out' = framesOf out) :
    CorrHolds m' out' := by
  unfold CorrHolds at h ⊢
  rwa [hm, hout]

/-- **A record takes its device** from the last wire frame. -/
theorem CorrHolds.fillDevice {m : UvcMaps} {out : List Record} (h : CorrHolds m out)
    (now : UInt64) : uvcVb2FillDevice m now = (wireFrame out now).map corrOf := by
  unfold CorrHolds at h
  unfold uvcVb2FillDevice wireFrame
  cases hlast : (framesOf out).getLast? with
  | none =>
    rw [hlast] at h
    rw [h]
    rfl
  | some e =>
    rw [hlast] at h
    rw [h, Option.filter_some]
    dsimp only
    have hts : (corrOf e).lastWireDoneNs = e.hdr.tsNs := rfl
    rw [hts]
    by_cases h0 : e.hdr.tsNs = 0
    · rw [if_pos h0, if_neg (by simp [h0])]
      rfl
    · rw [if_neg h0]
      by_cases hold : now - e.hdr.tsNs > wireVb2MaxNs
      · rw [if_pos hold, if_neg (by simpa [h0] using hold)]
        rfl
      · rw [if_neg hold, if_pos (by simpa [h0] using hold)]
        rfl

/-- The global entry always has a place: it is the first the map is given. -/
theorem CorrHolds.hasRoom {m : UvcMaps} {out : List Record} (h : CorrHolds m out) :
    m.streamCorr.HasRoom 0 := by
  unfold CorrHolds at h
  split at h
  · rw [h]
    exact Or.inr (by decide)
  · exact BoundedMap.hasRoom_of_lookup h

/-- The key the queue of a camera is filed under. -/
def Camera.key (c : Camera) : UInt32 := uvcDevKey c.bus c.devnum

/-- The maps with a queue filed under the camera a record names. -/
def bindCamera (m : UvcMaps) (c : Camera) (q : UInt64) : UvcMaps :=
  if c.bus = 0 ∧ c.devnum = 0 then m
  else { m with vb2DevQueue := m.vb2DevQueue.update c.key q }

/-- **A submission**: one event, with the pool of its queue and the camera of the last wire
frame, under which the queue is filed. -/
theorem uvcVb2Submit_spec {m : UvcMaps} {out : List Record} (h : CorrHolds m out) (ctx : HookCtx)
    (q : UInt64) (b : Option Vb2Buffer) (op state starved : UInt8) (seq : UInt32)
    (seqGap : UInt8) (interval wire : UInt32) :
    ∃ e, uvcVb2Submit ctx m q b op state starved ctx.now seq seqGap interval wire =
        (bindCamera m (wireCamera out ctx.now) q, [.uvcVb2 e]) ∧
      eventPool e = vb2ReadPool ctx q ∧ eventCamera e = wireCamera out ctx.now := by
  have hcam : corrCamera ((uvcVb2FillDevice m ctx.now).getD {}) = wireCamera out ctx.now := by
    rw [h.fillDevice, wireCamera]
    cases wireFrame out ctx.now <;> rfl
  refine ⟨_, Prod.ext ?_ rfl, rfl, hcam⟩
  rw [← hcam]
  unfold bindCamera uvcVb2Submit uvcVb2BindDev corrCamera
  dsimp only
  by_cases h0 : ((uvcVb2FillDevice m ctx.now).getD {}).busnum = 0 ∧
      ((uvcVb2FillDevice m ctx.now).getD {}).devnum = 0
  · rw [if_neg (by tauto), if_pos h0]
  · rw [if_pos (by tauto), if_neg h0, if_neg h0]
    rfl

/-! ## Frames -/

/-- The camera of a completion. -/
def sourceCamera (src : UvcSource) : Camera := ⟨src.vid, src.pid, src.bus, src.devnum⟩

theorem uvcCorrStore_self {m : BoundedMap UInt32 StreamCorr 64} {key : UInt32}
    (h : m.HasRoom key) (vid pid bus devnum : UInt16) (bytes : UInt32) (now : UInt64) :
    (uvcCorrStore m key vid pid bus devnum bytes now).lookup key =
      some ⟨now, bytes, vid, pid, bus, devnum⟩ := by
  have hinit := BoundedMap.lookup_update_self h ({} : StreamCorr)
  unfold uvcCorrStore
  dsimp only
  rw [hinit]
  exact BoundedMap.lookup_update_self (BoundedMap.hasRoom_of_lookup hinit) _

theorem uvcCorrStore_of_ne (m : BoundedMap UInt32 StreamCorr 64) {key key' : UInt32}
    (hne : key' ≠ key) (vid pid bus devnum : UInt16) (bytes : UInt32) (now : UInt64) :
    (uvcCorrStore m key vid pid bus devnum bytes now).lookup key' = m.lookup key' := by
  unfold uvcCorrStore
  dsimp only
  split
  · exact BoundedMap.lookup_update_of_ne m hne _
  · rw [BoundedMap.lookup_update_of_ne _ hne, BoundedMap.lookup_update_of_ne m hne]

/-- **A wire frame** sets the global entry. -/
theorem uvcNoteWireFrame_lookup {m : UvcMaps} (h : m.streamCorr.HasRoom 0)
    (bus devnum vid pid : UInt16) (bytes : UInt32) (now : UInt64) :
    (uvcNoteWireFrame m bus devnum vid pid bytes now).streamCorr.lookup 0 =
      some ⟨now, bytes, vid, pid, bus, devnum⟩ := by
  have hself := uvcCorrStore_self h vid pid bus devnum bytes now
  unfold uvcNoteWireFrame
  dsimp only
  by_cases hkey : (0 : UInt32) = uvcDevKey bus devnum
  · rw [← hkey]
    exact uvcCorrStore_self (BoundedMap.hasRoom_of_lookup hself) ..
  · rw [uvcCorrStore_of_ne _ hkey, hself]

/-- A frame just emitted is the last wire frame. -/
theorem wireCamera_frame (out : List Record) (e : UvcFrameEvent) (now : UInt64) :
    wireCamera (out ++ [.uvcFrame e]) now = .nobody ∨
      wireCamera (out ++ [.uvcFrame e]) now = frameCamera e := by
  unfold wireCamera wireFrame
  rw [framesOf_append, framesOf_frame, framesOf_nil, List.getLast?_append, List.getLast?_singleton,
    Option.some_or, Option.filter_some]
  split
  · exact Or.inr rfl
  · exact Or.inl rfl

/-- The event is of a starvation check of the camera `c`, on the queue filed under it. -/
def StarvationEvent (ctx : HookCtx) (m : UvcMaps) (c : Camera) (e : UvcVb2Event) : Prop :=
  ∃ q ∈ boundQueue m c.bus c.devnum,
    eventPool e = vb2ReadPool ctx q ∧ (eventCamera e = .nobody ∨ eventCamera e = c)

/-- What a starvation check of the camera `c` keeps: the global entry, and the queues filed;
its events are those of that camera. -/
structure Checked (ctx : HookCtx) (m : UvcMaps) (out : List Record) (c : Camera)
    (r : UvcMaps × List Record) : Prop where
  corr : CorrHolds r.1 (out ++ r.2)
  queues : ∀ key, r.1.vb2DevQueue.lookup key = m.vb2DevQueue.lookup key
  events : ∀ e ∈ vb2Of r.2, StarvationEvent ctx m c e

/-- A check that reports nothing. -/
theorem checked_of_nothing {ctx : HookCtx} {m : UvcMaps} {out : List Record}
    (h : CorrHolds m out) (c : Camera) {r : UvcMaps × List Record} (hout : r.2 = [])
    (hsame : SameDevices m r.1) : Checked ctx m out c r where
  corr := h.of_same hsame.streamCorr (by rw [hout, List.append_nil])
  queues := fun key => by rw [hsame.vb2DevQueue]
  events := by
    rw [hout]
    exact fun e he => absurd he List.not_mem_nil

/-- **A starvation check** after a frame of the camera. -/
theorem uvcCheckStarvation_checked {ctx : HookCtx} {m : UvcMaps} {out : List Record} {c : Camera}
    (h : CorrHolds m out)
    (hcam : wireCamera out ctx.now = .nobody ∨ wireCamera out ctx.now = c) :
    Checked ctx m out c (uvcCheckStarvation ctx m c.bus c.devnum ctx.now) := by
  rcases uvcCheckStarvation_cases ctx m c.bus c.devnum with ⟨hout, hsame⟩ | ⟨q, hq, hsub⟩
  · exact checked_of_nothing h c hout hsame
  · rcases hsub with ⟨hout, hsame⟩ | ⟨m', b, op, state, starved, seq, gap, int, wire, hsame, heq⟩
    · exact checked_of_nothing h c hout hsame
    · obtain ⟨e, hsubmit, hpool, hcamera⟩ := uvcVb2Submit_spec
        (h.of_same hsame.streamCorr rfl) ctx q b op state starved seq gap int wire
      have hbind : ∀ key, (bindCamera m' (wireCamera out ctx.now) q).vb2DevQueue.lookup key =
          m.vb2DevQueue.lookup key := by
        intro key
        unfold bindCamera
        split
        · rw [hsame.vb2DevQueue]
        · next hne =>
          rcases hcam with hcam | hcam
          · rw [hcam] at hne
            exact absurd ⟨rfl, rfl⟩ hne
          · rw [hcam] at hne ⊢
            have hfiled : m.vb2DevQueue.lookup c.key = some q := by
              rwa [boundQueue, if_neg hne] at hq
            dsimp only
            rw [hsame.vb2DevQueue]
            exact BoundedMap.lookup_update_same hfiled key
      rw [heq, hsubmit]
      refine ⟨h.of_same ?_ ?_, hbind, ?_⟩
      · unfold bindCamera
        split <;> exact hsame.streamCorr
      · rw [framesOf_append]
        exact List.append_nil _
      · intro e' he'
        rw [vb2Of_vb2, vb2Of_nil, List.mem_singleton] at he'
        rw [he']
        exact ⟨q, hq, hpool, hcamera ▸ hcam⟩

/-- **The loop** over the packets of a completion, from the maps `m` and the records `out`
before it, keeps what a check keeps. -/
theorem uvcEmitFrame_checked {ctx : HookCtx} (src : UvcSource) {m : UvcMaps} {out : List Record}
    {s : FrameLoop} (h : Checked ctx m out (sourceCamera src) (s.maps, s.out)) (eof : Bool) :
    Checked ctx m out (sourceCamera src)
      ((uvcEmitFrame ctx src s eof).maps, (uvcEmitFrame ctx src s eof).out) := by
  have hcorr : CorrHolds (uvcNoteWireFrame s.maps src.bus src.devnum src.vid src.pid
      s.st.curBytes ctx.now) (out ++ s.out ++ [.uvcFrame (uvcFrameRecord ctx src s.st eof)]) := by
    unfold CorrHolds
    rw [framesOf_append, framesOf_frame, framesOf_nil, List.getLast?_append,
      List.getLast?_singleton, Option.some_or]
    exact uvcNoteWireFrame_lookup h.corr.hasRoom ..
  have hcheck := uvcCheckStarvation_checked (c := sourceCamera src) hcorr
    (wireCamera_frame (out ++ s.out) (uvcFrameRecord ctx src s.st eof) ctx.now)
  have hqueues : ∀ key, (uvcNoteWireFrame s.maps src.bus src.devnum src.vid src.pid
      s.st.curBytes ctx.now).vb2DevQueue.lookup key = m.vb2DevQueue.lookup key := h.queues
  refine ⟨?_, fun key => (hcheck.queues key).trans (hqueues key), ?_⟩
  · refine hcheck.corr.of_same rfl ?_
    simp only [uvcEmitFrame, sourceCamera, framesOf_append, framesOf_frame,
      List.append_assoc, List.cons_append, List.nil_append]
  · intro e he
    simp only [uvcEmitFrame, vb2Of_append, vb2Of_frame, List.mem_append] at he
    rcases he with he | he
    · exact h.events e he
    · obtain ⟨q, hq, hevent⟩ := hcheck.events e he
      refine ⟨q, ?_, hevent⟩
      unfold boundQueue at hq ⊢
      rwa [hqueues] at hq

/-- **A completion** reports the queue filed under its camera. -/
theorem onVideoComplete_checked (cfg : FilterConfig) {ctx : HookCtx} {m : UvcMaps}
    {out : List Record} (h : CorrHolds m out) (dev : UsbDevice) (urb : Urb) :
    Checked ctx m out (deviceCamera dev) (onVideoComplete cfg ctx m dev urb) := by
  have hparse : Checked ctx m out (deviceCamera dev) (uvcParseFrames cfg ctx m dev urb) :=
    uvcParseFrames_induct (I := fun m' out' => Checked ctx m out (deviceCamera dev) (m', out')) cfg
      (fun _ eof hs => uvcEmitFrame_checked (uvcSource dev urb) hs eof)
      (fun _ _ _ h => ⟨h.corr, h.queues, h.events⟩)
      (checked_of_nothing h _ rfl (SameDevices.refl m))
  obtain ⟨hframes, hmaps⟩ := onVideoComplete_frames cfg ctx m dev urb
  have hvb2 : vb2Of (onVideoComplete cfg ctx m dev urb).2 =
      vb2Of (uvcParseFrames cfg ctx m dev urb).2 := by
    simp only [onVideoComplete, vb2Of_append]
    cases usbtraceClassUrbEmit cfg dev urb usbtraceClassVideo ctx.now ctx.task <;> rfl
  refine ⟨hparse.corr.of_same ?_ ?_, ?_, ?_⟩
  · rw [hmaps]
  · rw [framesOf_append, framesOf_append, hframes]
  · rw [hmaps]
    exact hparse.queues
  · rw [hvb2]
    exact hparse.events

/-- **A tracepoint** reports its queue, with the camera of the last wire frame. -/
theorem vb2Step_attributed (ctx : HookCtx) {m : UvcMaps} {out : List Record} (h : CorrHolds m out)
    (call : Vb2Hook) :
    let r := vb2Step ctx m call
    CorrHolds r.1 (out ++ r.2) ∧
      (∀ e ∈ vb2Of r.2, eventPool e = vb2ReadPool ctx (vb2Queue call) ∧
        eventCamera e = wireCamera out ctx.now) ∧
      (r.1.vb2DevQueue = m.vb2DevQueue ∨ vb2Of r.2 ≠ [] ∧
        r.1.vb2DevQueue = (bindCamera m (wireCamera out ctx.now) (vb2Queue call)).vb2DevQueue) := by
  intro r
  obtain ⟨hsub, -⟩ := vb2Step_cases ctx m call
  have hframes : framesOf (out ++ r.2) = framesOf out := by
    rw [framesOf_append, (vb2Step_frames ctx m call).1, List.append_nil]
  rcases hsub with ⟨hout, hsame⟩ | ⟨m', b, op, state, starved, seq, gap, int, wire, hsame, heq⟩
  · refine ⟨h.of_same hsame.streamCorr hframes, ?_, Or.inl hsame.vb2DevQueue⟩
    rw [show r.2 = [] from hout]
    exact fun e he => absurd he List.not_mem_nil
  · obtain ⟨e, hsubmit, hpool, hcamera⟩ := uvcVb2Submit_spec
      (h.of_same hsame.streamCorr rfl) ctx (vb2Queue call) b op state starved seq gap int wire
    have hr : r = (bindCamera m' (wireCamera out ctx.now) (vb2Queue call), [.uvcVb2 e]) :=
      heq.trans hsubmit
    refine ⟨h.of_same ?_ hframes, ?_, ?_⟩
    · rw [hr]
      unfold bindCamera
      split <;> exact hsame.streamCorr
    · intro e' he'
      rw [hr, vb2Of_vb2, vb2Of_nil, List.mem_singleton] at he'
      rw [he']
      exact ⟨hpool, hcamera⟩
    · right
      rw [hr]
      refine ⟨List.cons_ne_nil _ _, ?_⟩
      unfold bindCamera
      split
      · exact hsame.vb2DevQueue
      · dsimp only
        rw [hsame.vb2DevQueue]

/-! ## Runs -/

/-- **In every run** the global entry is that of the last frame. -/
theorem run_corrHolds (cfg : FilterConfig) (ops : List UvcOp) :
    CorrHolds (finalState (uvcStep cfg) UvcMaps.empty ops)
      (outputs (uvcStep cfg) UvcMaps.empty ops) := by
  induction ops using List.reverseRecOn with
  | nil => exact rfl
  | append_singleton ops op ih =>
    rw [finalState_concat, outputs_concat]
    cases op with
    | vb2 ctx call => exact (vb2Step_attributed ctx ih call).1
    | complete ctx dev urb => exact (onVideoComplete_checked cfg ih dev urb).corr

/-- What the events of an operation say, after the records `out`. -/
def AttributedToWire (cfg : FilterConfig) (m : UvcMaps) (out : List Record) : UvcOp → Prop
  | .vb2 ctx call => ∀ e ∈ vb2Of (vb2Step ctx m call).2,
      eventPool e = vb2ReadPool ctx (vb2Queue call) ∧ eventCamera e = wireCamera out ctx.now
  | .complete ctx dev urb => ∀ e ∈ vb2Of (onVideoComplete cfg ctx m dev urb).2,
      StarvationEvent ctx m (deviceCamera dev) e

/-- The events of an operation name the camera that owns their queue, or none, and the
starvation check of a camera reads its own queue; `owner` is the camera a queue is of. -/
def AttributedToOwner (owner : UInt64 → Option Camera) (cfg : FilterConfig) (m : UvcMaps) :
    UvcOp → Prop
  | .vb2 ctx call => ∀ e ∈ vb2Of (vb2Step ctx m call).2,
      eventPool e = vb2ReadPool ctx (vb2Queue call) ∧
        (eventCamera e = .nobody ∨ owner (vb2Queue call) = some (eventCamera e))
  | .complete ctx dev urb =>
      let queue := boundQueue m dev.busnum.toUInt16 dev.devnum.toUInt16
      (∀ q ∈ queue, owner q = some (deviceCamera dev)) ∧
        ∀ e ∈ vb2Of (onVideoComplete cfg ctx m dev urb).2, ∃ q ∈ queue,
          eventPool e = vb2ReadPool ctx q ∧
            (eventCamera e = .nobody ∨ owner q = some (eventCamera e))

/-- At the address of a camera that owns a queue there is that camera. -/
def AtOwnAddress (owner : UInt64 → Option Camera) : UvcOp → Prop
  | .vb2 .. => True
  | .complete _ dev _ => ∀ q c, owner q = some c → c.bus = dev.busnum.toUInt16 →
      c.devnum = dev.devnum.toUInt16 → c = deviceCamera dev

/-- The cameras take turns: when a queue is reported, the last wire frame, if it is at most
100 ms old, is of the camera that owns the queue, or names none. -/
def InTurn (owner : UInt64 → Option Camera) (cfg : FilterConfig) (ops : List UvcOp) : Prop :=
  ∀ pre ctx call post, ops = pre ++ .vb2 ctx call :: post →
    Reported (finalState (uvcStep cfg) UvcMaps.empty pre) call →
    ∀ e ∈ wireFrame (outputs (uvcStep cfg) UvcMaps.empty pre) ctx.now,
      frameCamera e = .nobody ∨ owner (vb2Queue call) = some (frameCamera e)

theorem InTurn.of_append {owner : UInt64 → Option Camera} {cfg : FilterConfig}
    {ops rest : List UvcOp} (h : InTurn owner cfg (ops ++ rest)) : InTurn owner cfg ops :=
  fun pre ctx call post heq => h pre ctx call (post ++ rest) (by rw [heq, List.append_assoc]; rfl)

/-- Each queue is filed under the camera that owns it. -/
def OwnQueues (owner : UInt64 → Option Camera) (m : UvcMaps) : Prop :=
  ∀ key q, m.vb2DevQueue.lookup key = some q → ∃ c, owner q = some c ∧ c.key = key

/-- The camera named is that of the last wire frame. -/
theorem wireCamera_iff {out : List Record} {now : UInt64} {c : Option Camera} :
    (∀ e ∈ wireFrame out now, frameCamera e = .nobody ∨ c = some (frameCamera e)) ↔
      wireCamera out now = .nobody ∨ c = some (wireCamera out now) := by
  unfold wireCamera
  cases wireFrame out now with
  | none => exact iff_of_true (fun e he => by cases he) (Or.inl rfl)
  | some e => simp

/-- **In a run of cameras in turn** each queue is filed under its own. -/
theorem run_ownQueues {owner : UInt64 → Option Camera} {cfg : FilterConfig} {ops : List UvcOp}
    (h : InTurn owner cfg ops) : OwnQueues owner (finalState (uvcStep cfg) UvcMaps.empty ops) := by
  induction ops using List.reverseRecOn with
  | nil => exact fun key q hq => absurd hq (by simp [UvcMaps.empty])
  | append_singleton ops op ih =>
    have ih := ih h.of_append
    have hcorr := run_corrHolds cfg ops
    rw [finalState_concat]
    cases op with
    | complete ctx dev urb =>
      intro key q hq
      exact ih key q (by rwa [← (onVideoComplete_checked cfg hcorr dev urb).queues key])
    | vb2 ctx call =>
      obtain ⟨-, -, hqueue⟩ := vb2Step_attributed ctx hcorr call
      intro key q hq
      rcases hqueue with hqueue | ⟨hrep, hqueue⟩
      · exact ih key q (by rwa [← hqueue])
      · replace hrep := (vb2Step_reported ctx _ call).mp hrep
        change (vb2Step ctx _ call).1.vb2DevQueue.lookup key = some q at hq
        rw [hqueue] at hq
        unfold bindCamera at hq
        split at hq
        · exact ih key q hq
        · next hne =>
          rcases BoundedMap.lookup_update_cases hq with ⟨hkey, hval⟩ | hold
          · rcases wireCamera_iff.mp (h ops ctx call [] rfl hrep) with hnone | hown
            · rw [hnone] at hne
              exact absurd ⟨rfl, rfl⟩ hne
            · exact ⟨_, hval ▸ hown, hkey.symm⟩
          · exact ih key q hold

/-- **A completion's frames** carry its time and its camera. -/
theorem onVideoComplete_frame {cfg : FilterConfig} {ctx : HookCtx} {m : UvcMaps}
    {dev : UsbDevice} {urb : Urb} {e : UvcFrameEvent}
    (he : e ∈ framesOf (onVideoComplete cfg ctx m dev urb).2) :
    e.hdr.tsNs = ctx.now ∧ frameCamera e = deviceCamera dev := by
  rw [(onVideoComplete_frames cfg ctx m dev urb).1] at he
  obtain ⟨hvid, hpid, hbus, hdev, -⟩ := uvcParseFrames_source he
  refine ⟨uvcParseFrames_tsNs cfg ctx m dev urb e he, ?_⟩
  rw [frameCamera, hvid, hpid, hbus, hdev]
  rfl

/-- The cameras are far apart: a completion that comes before a tracepoint is of the camera
that owns the queue, or more than 100 ms earlier. -/
def farApart (owner : UInt64 → Option Camera) : UvcOp → UvcOp → Bool
  | .complete ctx dev _, .vb2 ctx' call =>
    decide (owner (vb2Queue call) = some (deviceCamera dev)) ||
      decide (ctx'.now - ctx.now > wireVb2MaxNs)
  | _, _ => true

/-- **Cameras far apart take turns.** -/
theorem inTurn_of_farApart {owner : UInt64 → Option Camera} (cfg : FilterConfig)
    {ops : List UvcOp} (h : ops.Pairwise fun a b => farApart owner a b) :
    InTurn owner cfg ops := by
  rintro pre ctx call post rfl - e he
  right
  obtain ⟨he, hrecent⟩ := Option.filter_eq_some_iff.mp he
  obtain ⟨r, hr, hre⟩ := List.mem_filterMap.mp (List.mem_of_getLast? he)
  obtain ⟨a, op, b, rfl, hemit⟩ := mem_outputs hr
  have hframe : e ∈ framesOf (uvcStep cfg (finalState (uvcStep cfg) UvcMaps.empty a) op).2 :=
    List.mem_filterMap.mpr ⟨r, hemit, hre⟩
  have hapart := (List.pairwise_append.mp h).2.2 op (by simp) (.vb2 ctx call) (by simp)
  cases op with
  | vb2 ctx' call' =>
    rw [uvcStep, (vb2Step_frames ctx' _ call').1] at hframe
    cases hframe
  | complete ctx' dev urb =>
    obtain ⟨hts, hcam⟩ := onVideoComplete_frame hframe
    rw [hcam]
    rw [hts] at hrecent
    simp only [farApart, Bool.or_eq_true, decide_eq_true_eq] at hapart
    refine hapart.resolve_right fun hold => ?_
    rw [gt_iff_lt, ← UInt64.not_le] at hold
    simp [hold] at hrecent

/-- **Attribution.**  In every run an event names the camera of the last wire frame, if that
is at most 100 ms old, or none, and a starvation check reads the queue filed under its
camera.  Both are the queue's own throughout the run exactly when the cameras take turns.
SOURCE: uvc.bpf.c:149-192, 237-336 -/
theorem vb2_attribution (cfg : FilterConfig) (ops : List UvcOp) :
    (∀ pre op post, ops = pre ++ op :: post →
      AttributedToWire cfg (finalState (uvcStep cfg) UvcMaps.empty pre)
        (outputs (uvcStep cfg) UvcMaps.empty pre) op) ∧
      ∀ owner : UInt64 → Option Camera, (∀ op ∈ ops, AtOwnAddress owner op) →
        (EveryStep (uvcStep cfg) (AttributedToOwner owner cfg) UvcMaps.empty ops ↔
          InTurn owner cfg ops) := by
  refine ⟨fun pre op post _ => ?_, fun owner haddr => ⟨fun hrun => ?_, fun hturn => ?_⟩⟩
  · have hcorr := run_corrHolds cfg pre
    cases op with
    | vb2 ctx call => exact (vb2Step_attributed ctx hcorr call).2.1
    | complete ctx dev urb => exact (onVideoComplete_checked cfg hcorr dev urb).events
  · intro pre ctx call post heq hrep
    have hcorr := run_corrHolds cfg pre
    have hown := everyStep_iff.mp hrun pre (.vb2 ctx call) post heq
    obtain ⟨e, he⟩ := List.exists_mem_of_ne_nil _ ((vb2Step_reported ctx _ call).mpr hrep)
    have hcam := ((vb2Step_attributed ctx hcorr call).2.1 e he).2
    rw [wireCamera_iff, ← hcam]
    exact (hown e he).2
  · refine everyStep_iff.mpr fun pre op post heq => ?_
    have hcorr := run_corrHolds cfg pre
    have hqueues : OwnQueues owner (finalState (uvcStep cfg) UvcMaps.empty pre) :=
      run_ownQueues (InTurn.of_append (heq ▸ hturn))
    cases op with
    | vb2 ctx call =>
      intro e he
      obtain ⟨hpool, hcam⟩ := (vb2Step_attributed ctx hcorr call).2.1 e he
      have hrep := (vb2Step_reported ctx _ call).mp (List.ne_nil_of_mem he)
      refine ⟨hpool, ?_⟩
      rw [hcam]
      exact wireCamera_iff.mp (hturn pre ctx call post heq hrep)
    | complete ctx dev urb =>
      have hat : AtOwnAddress owner (.complete ctx dev urb) := haddr _ (by simp [heq])
      have hown : ∀ q ∈ boundQueue (finalState (uvcStep cfg) UvcMaps.empty pre)
          dev.busnum.toUInt16 dev.devnum.toUInt16, owner q = some (deviceCamera dev) := by
        intro q hq
        unfold boundQueue at hq
        split at hq
        · cases hq
        · obtain ⟨c, hc, hkey⟩ := hqueues _ q hq
          obtain ⟨hbus, hdev⟩ := uvcDevKey_inj hkey
          rw [hc, hat q c hc hbus hdev]
      refine ⟨hown, fun e he => ?_⟩
      obtain ⟨q, hq, hpool, hcam⟩ := (onVideoComplete_checked cfg hcorr dev urb).events e he
      refine ⟨q, hq, hpool, hcam.imp_right fun h => ?_⟩
      rw [hown q hq, h]

/-! ## Two cameras -/

instance (owner : UInt64 → Option Camera) (cfg : FilterConfig) (m : UvcMaps) :
    (op : UvcOp) → Decidable (AttributedToOwner owner cfg m op)
  | .vb2 .. => List.decidableBAll _ _
  | .complete .. =>
    -- the queue is at most one: no search through all addresses
    @instDecidableAnd _ _ (Option.decidableForallMem _)
      (@List.decidableBAll _ _ (fun _ => Option.decidableExistsMem _) _)

/-- A camera sends a frame of one packet. -/
def sampleWireFrame (devnum : UInt32) (now : UInt64) : UvcOp :=
  .complete { now := now } { idVendor := 0x46d, busnum := 1, devnum := devnum }
    { transferBuffer := 0x1000, transferBufferLength := 1024, numberOfPackets := 1,
      isoFrameDesc := [some { actualLength := 12, payload := 2 :: 2 :: List.replicate 10 0 }] }

/-- A buffer of a queue is filled, with no size known. -/
def sampleDone (q : UInt64) (now : UInt64) : UvcOp :=
  .vb2 { now := now } (.bufDone { vb2Queue := q, sequence := some 0 })

/-- Camera 5 owns the queue at `0x50`, camera 6 that at `0x60`. -/
def sampleOwner (q : UInt64) : Option Camera :=
  if q = 0x50 then some ⟨0x46d, 0, 1, 5⟩ else if q = 0x60 then some ⟨0x46d, 0, 1, 6⟩ else none

/-- A camera is the one at its address. -/
theorem sampleOwner_atOwnAddress {devnum : UInt32} (h : devnum = 5 ∨ devnum = 6) (now : UInt64) :
    AtOwnAddress sampleOwner (sampleWireFrame devnum now) := by
  intro q c hc hbus hdev
  unfold sampleOwner at hc
  split_ifs at hc with h5 h6
  · rw [← Option.some.inj hc] at hdev ⊢
    rcases h with rfl | rfl
    · rfl
    · exact absurd hdev (by decide)
  · rw [← Option.some.inj hc] at hdev ⊢
    rcases h with rfl | rfl
    · exact absurd hdev (by decide)
    · rfl

/-- Two cameras in turn: a frame and a buffer of the one, 200 ms later of the other, whose
next frame is checked for starvation. -/
def sampleTurns : List UvcOp :=
  [sampleWireFrame 5 1000, sampleDone 0x50 2000, sampleWireFrame 6 200001000,
    sampleDone 0x60 200002000, sampleWireFrame 6 200003000]

theorem vb2_attribution_sample :
    EveryStep (uvcStep {}) (AttributedToOwner sampleOwner {}) UvcMaps.empty sampleTurns := by
  refine ((vb2_attribution {} sampleTurns).2 sampleOwner ?_).mpr
    (inTurn_of_farApart {} (by decide))
  intro op hop
  simp only [sampleTurns, List.mem_cons, List.not_mem_nil, or_false] at hop
  rcases hop with rfl | rfl | rfl | rfl | rfl
  · exact sampleOwner_atOwnAddress (Or.inl rfl) _
  · trivial
  · exact sampleOwner_atOwnAddress (Or.inr rfl) _
  · trivial
  · exact sampleOwner_atOwnAddress (Or.inr rfl) _

/-- **The wrong camera.**  A frame of camera 6 comes before a buffer of camera 5: the event is
not correlated with the frame, and names camera 6, and from then on the starvation check of
camera 6 reads the other's queue. -/
theorem attribution_confused :
    ¬EveryStep (uvcStep {}) (AttributedToOwner sampleOwner {}) UvcMaps.empty
        [sampleWireFrame 6 1000, sampleDone 0x50 2000] ∧
      (vb2Of (outputs (uvcStep {}) UvcMaps.empty
        [sampleWireFrame 6 1000, sampleDone 0x50 2000])).map
          (fun e => (e.wireToVb2Ns, eventCamera e)) = [(0, ⟨0x46d, 0, 1, 6⟩)] ∧
      boundQueue (finalState (uvcStep {}) UvcMaps.empty
        [sampleWireFrame 6 1000, sampleDone 0x50 2000]) 1 6 = some 0x50 := by
  refine ⟨?_, ?_, ?_⟩ <;> decide +kernel

end UsbTrace.Analysis
