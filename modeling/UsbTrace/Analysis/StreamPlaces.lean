import UsbTrace.Analysis.StreamRuns

/-!
# Places in the streams map

A stream takes a place in the map with its first completion, and nothing gives a place back:
the program has no hook where a camera is unplugged.  Over a run in which cameras come and go,
every packet is assembled exactly when the run has at most 64 streams in all, those that are
gone included (`assembled_iff`); the 65th camera is not seen, with one camera plugged in at a
time (`stream_without_place`).
-/

set_option autoImplicit false

namespace UsbTrace.Analysis

open UsbTrace.Model UsbTrace.Library UsbTrace.Interface

/-! ## Cameras that come and go -/

/-- What happens to cameras: a stream comes to life, it ends with its camera, or a hook of
the program fires. -/
inductive CameraEvent where
  | plug (k : StreamId)
  | unplug (k : StreamId)
  | hook (op : UvcOp)
deriving DecidableEq, Repr

/-- The maps of the program, and the streams there are. -/
structure CameraState where
  maps : UvcMaps := UvcMaps.empty
  live : Finset StreamId := ∅

/-- Plugging and unplugging a camera fires no hook of the program. -/
def cameraStep (cfg : FilterConfig) (s : CameraState) : CameraEvent → CameraState × List Record
  | .plug k => ({ s with live := insert k s.live }, [])
  | .unplug k => ({ s with live := s.live.erase k }, [])
  | .hook op => ({ s with maps := (uvcStep cfg s.maps op).1 }, (uvcStep cfg s.maps op).2)

/-- At most 64 streams are live, and URBs complete on live streams. -/
def LiveStep (cfg : FilterConfig) (s : CameraState) : CameraEvent → Prop
  | .plug k => (insert k s.live).card ≤ 64
  | .unplug _ => True
  | .hook op => ∀ k ∈ opStream cfg op, k ∈ s.live

instance (cfg : FilterConfig) (s : CameraState) : (e : CameraEvent) → Decidable (LiveStep cfg s e)
  | .plug _ => inferInstanceAs (Decidable (_ ≤ _))
  | .unplug _ => inferInstanceAs (Decidable True)
  | .hook op => Option.decidableForallMem (opStream cfg op)

/-- A run of cameras with at most 64 live streams at any moment. -/
def LiveRun (cfg : FilterConfig) (run : List CameraEvent) : Prop :=
  EveryStep (cameraStep cfg) (LiveStep cfg) {} run

instance (cfg : FilterConfig) (run : List CameraEvent) : Decidable (LiveRun cfg run) :=
  inferInstanceAs (Decidable (EveryStep _ _ _ _))

/-- The hooks that fire in a run. -/
def hookOf : CameraEvent → Option UvcOp
  | .plug _ => none
  | .unplug _ => none
  | .hook op => some op

def firedHooks (run : List CameraEvent) : List UvcOp := run.filterMap hookOf

/-- The packets an operation brings are assembled: its stream is, from then on, the stream
run over them, and the frames it reports are those of that run. -/
def AssemblesPackets (cfg : FilterConfig) (m : UvcMaps) : UvcOp → Prop
  | .complete ctx dev urb => ∀ k ∈ opStream cfg (.complete ctx dev urb),
      (uvcStep cfg m (.complete ctx dev urb)).1.streams.lookup k.key =
          some (finalState streamStep (streamAt m k.key) (completionPackets ctx dev urb)) ∧
        streamFrames k (uvcStep cfg m (.complete ctx dev urb)).2 =
          outputs streamStep (streamAt m k.key) (completionPackets ctx dev urb)
  | .vb2 .. => True

/-- Every packet that comes in is assembled into its stream. -/
def AssemblesStep (cfg : FilterConfig) (s : CameraState) (e : CameraEvent) : Prop :=
  ∀ op ∈ hookOf e, AssemblesPackets cfg s.maps op

/-! ## A place for every stream -/

/-- What a run demands of the program, it demands of the hooks that fire. -/
theorem everyStep_cameraStep {cfg : FilterConfig} {P : UvcMaps → UvcOp → Prop}
    (s : CameraState) (run : List CameraEvent) :
    EveryStep (cameraStep cfg) (fun s e => ∀ op ∈ hookOf e, P s.maps op) s run ↔
      EveryStep (uvcStep cfg) P s.maps (firedHooks run) := by
  induction run generalizing s with
  | nil => exact Iff.rfl
  | cons e run ih =>
    cases e with
    | plug k =>
      have hnone : ∀ op ∈ hookOf (.plug k), P s.maps op := fun op h => by cases h
      exact (and_iff_right hnone).trans (ih _)
    | unplug k =>
      have hnone : ∀ op ∈ hookOf (.unplug k), P s.maps op := fun op h => by cases h
      exact (and_iff_right hnone).trans (ih _)
    | hook op =>
      have hone : (∀ op' ∈ hookOf (.hook op), P s.maps op') ↔ P s.maps op :=
        ⟨fun h => h op rfl, fun h op' h' => Option.some.inj h' ▸ h⟩
      exact and_congr hone (ih _)

/-- **Packets are assembled where there is a place for their stream.** -/
theorem assemblesPackets_iff (cfg : FilterConfig) (m : UvcMaps) {op : UvcOp}
    (hop : ByteDevnum op) : AssemblesPackets cfg m op ↔ StreamHasRoom cfg m op := by
  cases op with
  | vb2 ctx call => exact Iff.rfl
  | complete ctx dev urb =>
    have hstep : (uvcStep cfg m (.complete ctx dev urb)).1 =
        (uvcParseFrames cfg ctx m dev urb).1 := (onVideoComplete_frames cfg ctx m dev urb).2
    cases hp : passes cfg dev with
    | false =>
      have hnone : opStream cfg (.complete ctx dev urb) = none := by simp [opStream, hp]
      refine iff_of_true (fun k hk => ?_) fun h => ?_
      · rw [hnone] at hk
        cases hk
      · rw [hp] at h
        cases h
    | true =>
      have hsome : opStream cfg (.complete ctx dev urb) = some (streamOf dev urb) := by
        simp [opStream, hp]
      constructor
      · intro h _
        by_contra hroom
        have hlookup := (h _ hsome).1
        rw [hstep, uvcParseFrames_noRoom hp hroom] at hlookup
        exact hroom (BoundedMap.hasRoom_of_lookup hlookup)
      · intro hroom k hk
        rw [hsome] at hk
        obtain rfl : streamOf dev urb = k := Option.some.inj hk
        obtain ⟨hlookup, hframes⟩ := uvcParseFrames_stream hp (hroom hp) ctx
        rw [hstep, streamFrames_complete, if_pos rfl]
        exact ⟨hlookup, hframes⟩

/-- A stream that has a place keeps it. -/
theorem uvcStep_keeps_place (cfg : FilterConfig) {m : UvcMaps} (op : UvcOp) {key : UInt32}
    (h : (m.streams.lookup key).isSome) :
    ((uvcStep cfg m op).1.streams.lookup key).isSome := by
  cases op with
  | vb2 ctx call => rwa [uvcStep, (vb2Step_frames ctx m call).2]
  | complete ctx dev urb =>
    rw [uvcStep, (onVideoComplete_frames cfg ctx m dev urb).2]
    cases hp : passes cfg dev with
    | false => rwa [uvcParseFrames_dropped hp]
    | true =>
      by_cases hkey : key = (uvcSource dev urb).key
      · obtain ⟨st, hst⟩ := Option.isSome_iff_exists.mp h
        subst hkey
        rw [(uvcParseFrames_stream hp (BoundedMap.hasRoom_of_lookup hst) ctx).1]
        rfl
      · rwa [uvcParseFrames_other _ _ _ _ _ hkey]

/-- In a run with a place for every stream, each has one from its first completion on. -/
theorem runStreams_lookup {cfg : FilterConfig} {ops : List UvcOp}
    (h : EveryStep (uvcStep cfg) (StreamHasRoom cfg) UvcMaps.empty ops) :
    ∀ k ∈ runStreams cfg ops,
      ((finalState (uvcStep cfg) UvcMaps.empty ops).streams.lookup k.key).isSome := by
  induction ops using List.reverseRecOn with
  | nil => exact fun k hk => absurd hk (Finset.notMem_empty k)
  | append_singleton ops op ih =>
    obtain ⟨hpre, hop⟩ := everyStep_concat.mp h
    intro k hk
    rw [finalState_concat]
    simp only [runStreams, List.mem_toFinset, List.filterMap_append, List.mem_append] at hk
    rcases hk with hk | hk
    · exact uvcStep_keeps_place cfg op (ih hpre k (List.mem_toFinset.mpr hk))
    · obtain ⟨op', hmem, hstream⟩ := List.mem_filterMap.mp hk
      rw [List.mem_singleton.mp hmem] at hstream
      cases op with
      | vb2 ctx call => cases hstream
      | complete ctx dev urb =>
        cases hp : passes cfg dev with
        | false => simp [opStream, hp] at hstream
        | true =>
          obtain rfl : streamOf dev urb = k := by simpa [opStream, hp] using hstream
          rw [uvcStep, (onVideoComplete_frames cfg ctx _ dev urb).2]
          exact Option.isSome_iff_exists.mpr ⟨_, (uvcParseFrames_stream hp (hop hp) ctx).1⟩

/-- The streams of a run have device numbers that fit a byte. -/
theorem runStreams_devnum {cfg : FilterConfig} {ops : List UvcOp}
    (hops : ∀ op ∈ ops, ByteDevnum op) : ∀ k ∈ runStreams cfg ops, k.devnum.toNat < 256 := by
  intro k hk
  obtain ⟨op, hop, hstream⟩ := List.mem_filterMap.mp (List.mem_toFinset.mp hk)
  cases op with
  | vb2 ctx call => cases hstream
  | complete ctx dev urb =>
    cases hp : passes cfg dev with
    | false => simp [opStream, hp] at hstream
    | true =>
      obtain rfl : streamOf dev urb = k := by simpa [opStream, hp] using hstream
      exact hops _ hop

/-- **Places are for 64 streams in all.** -/
theorem streams_haveRoom_iff {cfg : FilterConfig} {ops : List UvcOp}
    (hops : ∀ op ∈ ops, ByteDevnum op) :
    EveryStep (uvcStep cfg) (StreamHasRoom cfg) UvcMaps.empty ops ↔
      (runStreams cfg ops).card ≤ 64 := by
  refine ⟨fun h => ?_, streams_haveRoom⟩
  have hinj : Set.InjOn StreamId.key (runStreams cfg ops) := fun k hk k' hk' heq =>
    StreamId.key_inj (runStreams_devnum hops k hk) (runStreams_devnum hops k' hk') heq
  rw [← Finset.card_image_of_injOn hinj]
  refine BoundedMap.card_le_of_lookup
    (m := (finalState (uvcStep cfg) UvcMaps.empty ops).streams) fun key hkey => ?_
  obtain ⟨k, hk, rfl⟩ := Finset.mem_image.mp hkey
  exact runStreams_lookup h k hk

/-- **Every packet is assembled** where every stream finds a place. -/
theorem assembles_iff_haveRoom {cfg : FilterConfig} {run : List CameraEvent}
    (hbyte : ∀ op ∈ firedHooks run, ByteDevnum op) :
    EveryStep (cameraStep cfg) (AssemblesStep cfg) {} run ↔
      EveryStep (uvcStep cfg) (StreamHasRoom cfg) UvcMaps.empty (firedHooks run) := by
  refine (everyStep_cameraStep {} run).trans ?_
  rw [everyStep_iff, everyStep_iff]
  refine forall_congr' fun pre => forall_congr' fun op => forall_congr' fun post =>
    forall_congr' fun heq => assemblesPackets_iff cfg _ (hbyte op (by simp [heq]))

/-! ## Which runs are assembled -/

/-- **Every packet is assembled exactly in the runs of at most 64 streams in all**, those of
cameras that are gone counted too.
SOURCE: uvc.bpf.c:63-68, 528-540 -/
theorem assembled_iff (cfg : FilterConfig) (run : List CameraEvent)
    (hbyte : ∀ op ∈ firedHooks run, ByteDevnum op) :
    EveryStep (cameraStep cfg) (AssemblesStep cfg) {} run ↔
      (runStreams cfg (firedHooks run)).card ≤ 64 :=
  (assembles_iff_haveRoom hbyte).trans (streams_haveRoom_iff hbyte)

/-- Camera `i` is plugged in, sends a packet and is unplugged. -/
def cameraCycle (i : ℕ) (info : UInt8) : List CameraEvent :=
  [.plug ⟨1, UInt16.ofNat i, 0⟩,
    .hook (sampleCompletion (UInt32.ofNat i) 10 [samplePacket info 0]),
    .unplug ⟨1, UInt16.ofNat i, 0⟩]

theorem assembled_sample :
    EveryStep (cameraStep {}) (AssemblesStep {}) {} (cameraCycle 5 2 ++ cameraCycle 6 2) ↔
      (runStreams {} (firedHooks (cameraCycle 5 2 ++ cameraCycle 6 2))).card ≤ 64 :=
  assembled_iff {} (cameraCycle 5 2 ++ cameraCycle 6 2) (by decide)

/-- **No place for the 65th camera**, with one camera plugged in at a time: its frame is not
reported. -/
theorem stream_without_place :
    let run := ((List.range 64).flatMap fun i => cameraCycle (i + 1) 0) ++ cameraCycle 65 2
    LiveRun {} run ∧ ¬EveryStep (cameraStep {}) (AssemblesStep {}) {} run ∧
      streamFrames ⟨1, 65, 0⟩ (outputs (cameraStep {}) {} run) = [] := by
  intro run
  have hbyte : ∀ op ∈ firedHooks run, ByteDevnum op := by decide +kernel
  have hmany : ¬(runStreams {} (firedHooks run)).card ≤ 64 := by decide +kernel
  refine ⟨by decide +kernel, fun h => hmany ?_, by decide +kernel⟩
  exact (streams_haveRoom_iff hbyte).mp ((assembles_iff_haveRoom hbyte).mp h)

end UsbTrace.Analysis
