import UsbTrace.Interface.Stream
import Mathlib.Data.Finset.Card

/-!
# Streams of a run

The uvc program keeps all streams in one map of 64 places and goes over the packets of one
URB at a time.  Each stream is still a machine of its own: over any run, its frames are
those of the packets that find a place for it in the map (`streamFrames_assembled`), which
are all of its packets while there are at most 64 streams (`streamFrames_eq`).
-/

set_option autoImplicit false

namespace UsbTrace.Analysis

open UsbTrace.Model UsbTrace.Library UsbTrace.Interface

/-! ## Streams of a run -/

/-- A stream, as the program tells streams apart. -/
structure StreamId where
  bus : UInt16
  devnum : UInt16
  ep : UInt8
deriving DecidableEq, Repr

def StreamId.key (k : StreamId) : UInt32 := uvcStreamKey k.bus k.devnum k.ep

/-- The stream of a completion. -/
def streamOf (dev : UsbDevice) (urb : Urb) : StreamId :=
  ⟨dev.busnum.toUInt16, dev.devnum.toUInt16, pipeEndpoint urb.pipe⟩

/-- The stream a frame names. -/
def frameStream (e : UvcFrameEvent) : StreamId := ⟨e.busnum, e.devnum, e.ep⟩

/-- The stream of an operation: that of a completion whose device passes the filter. -/
def opStream (cfg : FilterConfig) : UvcOp → Option StreamId
  | .complete _ dev urb => if passes cfg dev then some (streamOf dev urb) else none
  | .vb2 .. => none

/-- The packets of an URB: all of its `number_of_packets`, in a buffer that is there. -/
def urbPackets (ctx : HookCtx) (dev : UsbDevice) (urb : Urb) : List StreamPacket :=
  if urb.transferBuffer = 0 then []
  else (urb.isoFrameDesc.take urb.numberOfPackets.toInt.toNat).map
    (streamPacket ctx (uvcSource dev urb) urb.transferBufferLength)

/-- The packets an operation brings a stream. -/
def opPackets (cfg : FilterConfig) (k : StreamId) (op : UvcOp) : List StreamPacket :=
  match op with
  | .complete ctx dev urb => if opStream cfg op = some k then urbPackets ctx dev urb else []
  | .vb2 .. => []

/-- The packets of a stream in a run, across its URBs. -/
def streamPackets (cfg : FilterConfig) (k : StreamId) (ops : List UvcOp) : List StreamPacket :=
  ops.flatMap (opPackets cfg k)

/-- The frames of a stream among the records of a run. -/
def streamFrames (k : StreamId) (out : List Record) : List UvcFrameEvent :=
  (framesOf out).filter fun e => frameStream e = k

/-- A completion of at most 32 packets, of a device whose number fits a byte. -/
def SmallCompletion : UvcOp → Prop
  | .complete _ dev urb => dev.devnum.toUInt16.toNat < 256 ∧ urb.numberOfPackets.toInt ≤ 32
  | .vb2 .. => True

instance : (op : UvcOp) → Decidable (SmallCompletion op)
  | .complete .. => inferInstanceAs (Decidable (_ ∧ _))
  | .vb2 .. => inferInstanceAs (Decidable True)

/-- The streams of a run. -/
def runStreams (cfg : FilterConfig) (ops : List UvcOp) : Finset StreamId :=
  (ops.filterMap (opStream cfg)).toFinset

/-- An URB of at most 32 packets is gone over to its end. -/
theorem completionPackets_eq (ctx : HookCtx) (dev : UsbDevice) {urb : Urb}
    (h : urb.numberOfPackets.toInt ≤ 32) :
    completionPackets ctx dev urb = urbPackets ctx dev urb := by
  have hmin : min uvcMaxIsocPkts urb.numberOfPackets.toInt.toNat =
      urb.numberOfPackets.toInt.toNat := by
    unfold uvcMaxIsocPkts
    omega
  rw [completionPackets, urbPackets, uvcPackets, hmin]

/-! ## The map -/

/-- What the streams map holds belongs to a stream of the run. -/
theorem streams_lookup_mem (cfg : FilterConfig) (ops : List UvcOp) (key : UInt32)
    (st : UvcStreamState)
    (h : (finalState (uvcStep cfg) UvcMaps.empty ops).streams.lookup key = some st) :
    ∃ k ∈ runStreams cfg ops, k.key = key := by
  induction ops using List.reverseRecOn generalizing st with
  | nil => cases h
  | append_singleton ops op ih =>
    have hmono : ∀ k ∈ runStreams cfg ops, k ∈ runStreams cfg (ops ++ [op]) := by
      intro k hk
      simp only [runStreams, List.mem_toFinset, List.filterMap_append, List.mem_append] at hk ⊢
      exact Or.inl hk
    rw [finalState_concat] at h
    cases op with
    | vb2 ctx call =>
      simp only [uvcStep, (vb2Step_frames ctx _ call).2] at h
      obtain ⟨k, hk, hkey⟩ := ih st h
      exact ⟨k, hmono k hk, hkey⟩
    | complete ctx dev urb =>
      simp only [uvcStep, (onVideoComplete_frames cfg ctx _ dev urb).2] at h
      cases hp : passes cfg dev with
      | false =>
        rw [uvcParseFrames_dropped hp] at h
        obtain ⟨k, hk, hkey⟩ := ih st h
        exact ⟨k, hmono k hk, hkey⟩
      | true =>
        by_cases hkey : key = (uvcSource dev urb).key
        · refine ⟨streamOf dev urb, ?_, hkey.symm⟩
          simp [runStreams, opStream, hp]
        · rw [uvcParseFrames_other _ _ _ _ _ hkey] at h
          obtain ⟨k, hk, hkey⟩ := ih st h
          exact ⟨k, hmono k hk, hkey⟩

/-- The streams map has room for the stream of a completion. -/
def StreamHasRoom (cfg : FilterConfig) (m : UvcMaps) : UvcOp → Prop
  | .complete _ dev urb => passes cfg dev = true → m.streams.HasRoom (uvcSource dev urb).key
  | .vb2 .. => True

/-- **With at most 64 streams** there is room for each of them. -/
theorem streams_haveRoom {cfg : FilterConfig} {ops : List UvcOp}
    (h : (runStreams cfg ops).card ≤ 64) :
    EveryStep (uvcStep cfg) (StreamHasRoom cfg) UvcMaps.empty ops := by
  refine everyStep_iff.mpr fun pre op post hops => ?_
  cases op with
  | vb2 ctx call => trivial
  | complete ctx dev urb =>
    intro hp
    have hcard : ((runStreams cfg ops).image StreamId.key).card ≤ 64 :=
      le_trans Finset.card_image_le h
    refine BoundedMap.hasRoom_of_card hcard (fun key st hst => ?_) ?_
    · obtain ⟨k, hk, rfl⟩ := streams_lookup_mem cfg pre key st hst
      refine Finset.mem_image_of_mem _ ?_
      simp only [runStreams, List.mem_toFinset, hops, List.filterMap_append,
        List.mem_append] at hk ⊢
      exact Or.inl hk
    · refine Finset.mem_image.mpr ⟨streamOf dev urb, ?_, rfl⟩
      simp [runStreams, hops, opStream, hp]

/-! ## The packets that are assembled -/

/-- A completion of a device whose number fits a byte, as it has to in the key of a stream. -/
def ByteDevnum : UvcOp → Prop
  | .complete _ dev _ => dev.devnum.toUInt16.toNat < 256
  | .vb2 .. => True

instance : (op : UvcOp) → Decidable (ByteDevnum op)
  | .complete .. => inferInstanceAs (Decidable (_ < _))
  | .vb2 .. => inferInstanceAs (Decidable True)

theorem SmallCompletion.byteDevnum {op : UvcOp} (h : SmallCompletion op) : ByteDevnum op := by
  cases op with
  | complete ctx dev urb => exact h.1
  | vb2 ctx call => trivial

/-- The packets an operation adds to a stream: those of a completion of the stream, where the
stream has a place in the map. -/
def opAssembled (cfg : FilterConfig) (k : StreamId) (m : UvcMaps) (op : UvcOp) :
    List StreamPacket :=
  match op with
  | .complete ctx dev urb =>
      if opStream cfg op = some k ∧ m.streams.HasRoom k.key then completionPackets ctx dev urb
      else []
  | .vb2 .. => []

/-- The packets a run adds to a stream. -/
def assembledPackets (cfg : FilterConfig) (k : StreamId) :
    UvcMaps → List UvcOp → List StreamPacket
  | _, [] => []
  | m, op :: ops => opAssembled cfg k m op ++ assembledPackets cfg k (uvcStep cfg m op).1 ops

theorem streamFrames_append (k : StreamId) (a b : List Record) :
    streamFrames k (a ++ b) = streamFrames k a ++ streamFrames k b := by
  rw [streamFrames, framesOf_append, List.filter_append]
  rfl

/-- A completion names its own stream in its frames, and no other. -/
theorem streamFrames_complete (cfg : FilterConfig) (ctx : HookCtx) (m : UvcMaps)
    (dev : UsbDevice) (urb : Urb) (k : StreamId) :
    streamFrames k (uvcStep cfg m (.complete ctx dev urb)).2 =
      if streamOf dev urb = k then framesOf (uvcParseFrames cfg ctx m dev urb).2 else [] := by
  have hsource : ∀ e ∈ framesOf (uvcParseFrames cfg ctx m dev urb).2,
      frameStream e = streamOf dev urb := by
    intro e he
    obtain ⟨-, -, hbus, hdev, hep⟩ := uvcParseFrames_source he
    rw [frameStream, hbus, hdev, hep]
    rfl
  rw [streamFrames, uvcStep, (onVideoComplete_frames cfg ctx m dev urb).1]
  split
  · next hk =>
    exact List.filter_eq_self.mpr fun e he => decide_eq_true ((hsource e he).trans hk)
  · next hk =>
    exact List.filter_eq_nil_iff.mpr fun e he h =>
      hk ((hsource e he).symm.trans (of_decide_eq_true h))

/-- Streams whose device numbers fit a byte have keys of their own. -/
theorem StreamId.key_inj {k k' : StreamId} (hk : k.devnum.toNat < 256)
    (hk' : k'.devnum.toNat < 256) (heq : k.key = k'.key) : k = k' := by
  obtain ⟨hbus, hdev, hep⟩ := uvcStreamKey_inj hk hk' heq
  cases k
  cases k'
  simp only at hbus hdev hep
  rw [hbus, hdev, hep]

/-- **One operation** runs a stream over the packets it adds to it. -/
theorem uvcStep_stream (cfg : FilterConfig) (m : UvcMaps) {op : UvcOp} (hop : ByteDevnum op)
    {k : StreamId} (hk : k.devnum.toNat < 256) :
    streamAt (uvcStep cfg m op).1 k.key =
        finalState streamStep (streamAt m k.key) (opAssembled cfg k m op) ∧
      streamFrames k (uvcStep cfg m op).2 =
        outputs streamStep (streamAt m k.key) (opAssembled cfg k m op) := by
  cases op with
  | vb2 ctx call =>
    obtain ⟨hout, hstreams⟩ := vb2Step_frames ctx m call
    simp only [uvcStep, streamAt, streamFrames, opAssembled, hstreams, hout]
    exact ⟨rfl, rfl⟩
  | complete ctx dev urb =>
    have hstep : (uvcStep cfg m (.complete ctx dev urb)).1 =
        (uvcParseFrames cfg ctx m dev urb).1 := (onVideoComplete_frames cfg ctx m dev urb).2
    rw [streamFrames_complete, hstep, streamAt]
    cases hp : passes cfg dev with
    | false =>
      have hnil : opAssembled cfg k m (.complete ctx dev urb) = [] := if_neg (by
        simp [opStream, hp])
      rw [hnil, uvcParseFrames_dropped hp]
      exact ⟨rfl, ite_self _⟩
    | true =>
      have hown : opStream cfg (.complete ctx dev urb) = some k ↔ streamOf dev urb = k := by
        simp [opStream, hp]
      by_cases heq : streamOf dev urb = k
      · subst heq
        by_cases hroom : m.streams.HasRoom (uvcSource dev urb).key
        · obtain ⟨hlookup, hframes⟩ := uvcParseFrames_stream hp hroom ctx
          have hps : opAssembled cfg (streamOf dev urb) m (.complete ctx dev urb) =
              completionPackets ctx dev urb := if_pos ⟨hown.mpr rfl, hroom⟩
          rw [hps, if_pos rfl]
          exact ⟨congrArg (fun o : Option UvcStreamState => o.getD {}) hlookup, hframes⟩
        · have hps : opAssembled cfg (streamOf dev urb) m (.complete ctx dev urb) = [] :=
            if_neg fun h => hroom h.2
          rw [hps, uvcParseFrames_noRoom hp hroom]
          exact ⟨rfl, ite_self _⟩
      · have hps : opAssembled cfg k m (.complete ctx dev urb) = [] :=
          if_neg fun h => heq (hown.mp h.1)
        have hkey : k.key ≠ (uvcSource dev urb).key := fun h =>
          heq (@StreamId.key_inj k (streamOf dev urb) hk hop h).symm
        rw [hps, if_neg heq, uvcParseFrames_other _ _ _ _ _ hkey]
        exact ⟨rfl, rfl⟩

/-- **A stream runs on its own packets**, those that find it in the map, whatever the others
do. -/
theorem streamFrames_assembled (cfg : FilterConfig) (m : UvcMaps) {ops : List UvcOp}
    (hops : ∀ op ∈ ops, ByteDevnum op) {k : StreamId} (hk : k.devnum.toNat < 256) :
    streamFrames k (outputs (uvcStep cfg) m ops) =
      outputs streamStep (streamAt m k.key) (assembledPackets cfg k m ops) := by
  induction ops generalizing m with
  | nil => rfl
  | cons op ops ih =>
    obtain ⟨hst, hout⟩ := uvcStep_stream cfg m (hops op (by simp)) hk
    rw [outputs_cons, streamFrames_append, hout,
      ih (uvcStep cfg m op).1 fun op' h => hops op' (List.mem_cons_of_mem _ h),
      assembledPackets, outputs_append, hst]

/-- Where there is room for every stream, all of its packets are added. -/
theorem assembledPackets_eq {cfg : FilterConfig} {m : UvcMaps} {ops : List UvcOp}
    (hops : ∀ op ∈ ops, SmallCompletion op)
    (hroom : EveryStep (uvcStep cfg) (StreamHasRoom cfg) m ops) (k : StreamId) :
    assembledPackets cfg k m ops = streamPackets cfg k ops := by
  induction ops generalizing m with
  | nil => rfl
  | cons op ops ih =>
    obtain ⟨hop, hrest⟩ := hroom
    have heq : opAssembled cfg k m op = opPackets cfg k op := by
      cases op with
      | vb2 ctx call => rfl
      | complete ctx dev urb =>
        by_cases hown : opStream cfg (.complete ctx dev urb) = some k
        · have hp : passes cfg dev = true := by
            by_contra hp
            simp [opStream, hp] at hown
          obtain rfl : streamOf dev urb = k := by simpa [opStream, hp] using hown
          have hsmall := hops (.complete ctx dev urb) (by simp)
          have hall : opAssembled cfg (streamOf dev urb) m (.complete ctx dev urb) =
              completionPackets ctx dev urb := if_pos ⟨hown, hop hp⟩
          rw [hall, completionPackets_eq ctx dev hsmall.2]
          exact (if_pos hown).symm
        · exact (if_neg fun h => hown h.1).trans (if_neg hown).symm
    rw [assembledPackets, heq, ih (fun op' h => hops op' (List.mem_cons_of_mem _ h)) hrest]
    rfl

/-- **With at most 64 streams** a stream runs on all of its packets. -/
theorem streamFrames_eq {cfg : FilterConfig} {ops : List UvcOp}
    (hops : ∀ op ∈ ops, SmallCompletion op) (hcard : (runStreams cfg ops).card ≤ 64)
    {k : StreamId} (hk : k.devnum.toNat < 256) :
    streamFrames k (outputs (uvcStep cfg) UvcMaps.empty ops) =
      outputs streamStep {} (streamPackets cfg k ops) := by
  rw [streamFrames_assembled cfg UvcMaps.empty (fun op h => (hops op h).byteDevnum) hk,
    assembledPackets_eq hops (streams_haveRoom hcard) k]
  rfl

/-! ## Samples -/

/-- A packet of twelve bytes, of which two are its header. -/
def samplePacket (info : UInt8) (status : Int32) : Option IsoPacket :=
  some { actualLength := 12, status := status, payload := 2 :: info :: List.replicate 10 0 }

/-- A completion of camera `devnum` with the packets `ds`. -/
def sampleCompletion (devnum : UInt32) (now : UInt64) (ds : List (Option IsoPacket)) : UvcOp :=
  .complete { now := now } { busnum := 1, devnum := devnum }
    { transferBuffer := 0x1000, transferBufferLength := 1024,
      numberOfPackets := Int32.ofNat ds.length, isoFrameDesc := ds }

end UsbTrace.Analysis
