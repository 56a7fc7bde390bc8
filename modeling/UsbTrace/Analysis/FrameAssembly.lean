import UsbTrace.Interface.Frames
import UsbTrace.Analysis.StreamRuns

/-!
# Frame assembly

The uvc program keeps all streams in one map and goes over the packets of one URB at a
time.  Its frames are still those of each stream on its own: over any interleaving of
completions and videobuf2 tracepoints, the frames of a stream are the segmentation of the
stream's accepted packets (`frames_segmentation`).  The error fields are not: an error mark
is left on the frame in the making, before the packet is assigned to a frame
(`error_fields_iff`, `error_fields_misplaced`).
-/

set_option autoImplicit false

namespace UsbTrace.Analysis

open UsbTrace.Model UsbTrace.Library UsbTrace.Interface

/-! ## The frames of a stream -/

/-- The frame counts the packets of the segment, and no others. -/
structure HoldsSegment (e : UvcFrameEvent) (s : Segment IsoPacket) : Prop where
  fid : ∀ d ∈ s.items, packetFid d = e.fid
  packets : e.packets.toNat = s.items.length % 2 ^ 32
  bytes : e.bytes.toNat = (s.items.map payloadSize).sum % 2 ^ 32
  eof : e.eof = if s.ended then 1 else 0

theorem holdsSegment_of_logged {e : UvcFrameEvent} {l : FrameLog} (h : Logged e l) :
    HoldsSegment e l.segment where
  fid := h.fid
  packets := by
    rw [h.packets, UInt32.toNat_ofNat']
    rfl
  bytes := by
    rw [h.bytes, UInt32.toNat_ofNat']
    rfl
  eof := h.eof

/-- **Frames are segments.**  Over every interleaving of completions and videobuf2
tracepoints, the frames of a stream are the segments of its own accepted packets, across
URB boundaries and one for one; every accepted packet is in one of them, or in the rest.
SOURCE: uvc.bpf.c:465-622 -/
theorem frames_segmentation (cfg : FilterConfig) (ops : List UvcOp)
    (hops : ∀ op ∈ ops, SmallCompletion op) (hcard : (runStreams cfg ops).card ≤ 64)
    (k : StreamId) (hk : k.devnum.toNat < 256) :
    ∃ segs rest,
      Segmentation packetFid packetEof (acceptedPackets (streamPackets cfg k ops)) segs rest ∧
        acceptedPackets (streamPackets cfg k ops) = segs.flatMap Segment.items ++ rest ∧
        List.Forall₂ HoldsSegment
          (streamFrames k (outputs (uvcStep cfg) UvcMaps.empty ops)) segs := by
  obtain ⟨rest, hseg⟩ := logStep_segmentation (streamPackets cfg k ops) {} unbroken_nil
  refine ⟨_, rest, hseg, hseg.flatten, ?_⟩
  rw [streamFrames_eq hops hcard hk, List.forall₂_map_right_iff]
  exact (frames_logged _).imp fun _ _ h => holdsSegment_of_logged h

/-- Two cameras in turn: a frame of the first runs over two URBs. -/
def sampleCompletions : List UvcOp :=
  [sampleCompletion 5 10 [samplePacket 0 0, samplePacket 0 0],
    sampleCompletion 6 20 [samplePacket 1 0, samplePacket 0 0],
    sampleCompletion 5 30 [samplePacket 2 0]]

theorem frames_segmentation_sample :
    ∃ segs rest,
      Segmentation packetFid packetEof
          (acceptedPackets (streamPackets {} ⟨1, 5, 0⟩ sampleCompletions)) segs rest ∧
        acceptedPackets (streamPackets {} ⟨1, 5, 0⟩ sampleCompletions) =
          segs.flatMap Segment.items ++ rest ∧
        List.Forall₂ HoldsSegment
          (streamFrames ⟨1, 5, 0⟩ (outputs (uvcStep {}) UvcMaps.empty sampleCompletions)) segs :=
  frames_segmentation {} sampleCompletions (by decide) (by decide) ⟨1, 5, 0⟩ (by decide)

example : (streamFrames ⟨1, 5, 0⟩
    (outputs (uvcStep {}) UvcMaps.empty sampleCompletions)).map
      (fun e => (e.packets, e.bytes, e.eof)) = [(3, 30, 1)] := by decide +kernel

/-! ## Error fields -/

/-- The error fields of a frame describe the packets of its segment. -/
structure FrameHonest (e : UvcFrameEvent) (s : Segment IsoPacket) : Prop where
  clean : e.errored = 0 →
    s.ended = true ∧ ∀ d ∈ s.items, statusErr d = false ∧ packetErr d = false
  errPackets : e.errPackets.toNat = s.items.countP statusErr

instance (e : UvcFrameEvent) (s : Segment IsoPacket) : Decidable (FrameHonest e s) :=
  decidable_of_iff
    ((e.errored = 0 → s.ended = true ∧
      ∀ d ∈ s.items, statusErr d = false ∧ packetErr d = false) ∧
      e.errPackets.toNat = s.items.countP statusErr)
    ⟨fun h => ⟨h.1, h.2⟩, fun h => ⟨h.clean, h.errPackets⟩⟩

/-- As many packets with an error status came to the program between the emission of the
frame before and that of this one (modulo `2^32`) as are counted in the frame. -/
def MarksMatch (l : FrameLog) : Prop :=
  l.marked.countP statusErr % 2 ^ 32 = l.counted.countP statusErr

/-- **The error fields of one frame.** -/
theorem frameHonest_iff {e : UvcFrameEvent} {l : FrameLog} (h : Logged e l) :
    FrameHonest e l.segment ↔ MarksMatch l := by
  have herr : e.errPackets.toNat = l.marked.countP statusErr % 2 ^ 32 := by
    rw [h.errPackets, UInt32.toNat_ofNat']
  constructor
  · intro hhonest
    exact herr.symm.trans hhonest.errPackets
  · intro hmatch
    refine ⟨fun hclean => ?_, herr.trans hmatch⟩
    rw [h.errored] at hclean
    have hnone : (!l.ended || l.marked.any statusErr || l.counted.any packetErr) = false := by
      by_contra hne
      rw [Bool.not_eq_false] at hne
      rw [hne] at hclean
      exact absurd hclean (by decide)
    simp only [Bool.or_eq_false_iff, Bool.not_eq_false'] at hnone
    obtain ⟨⟨hended, hmarked⟩, hbits⟩ := hnone
    have hzero : l.marked.countP statusErr = 0 :=
      List.countP_eq_zero.mpr fun d hd => by simpa using List.any_eq_false.mp hmarked d hd
    have hcounted : l.counted.countP statusErr = 0 := by
      rw [← hmatch, hzero, Nat.zero_mod]
    refine ⟨hended, fun d hd => ⟨?_, ?_⟩⟩
    · simpa using List.countP_eq_zero.mp hcounted d hd
    · simpa using List.any_eq_false.mp hbits d hd

/-- A packet with an error status is accepted, and goes on with the frame in the making. -/
def ErrorInPlace (s : FrameParts) (p : StreamPacket) : Prop :=
  ∀ d ∈ p.desc, statusErr d = true → Accepts p.tblen d ∧ breaksOff s d = false

instance (s : FrameParts) (p : StreamPacket) : Decidable (ErrorInPlace s p) :=
  inferInstanceAs (Decidable (∀ d ∈ p.desc, _))

/-- The marks on a frame are those of its own packets. -/
def OwnMarks (marked counted : List IsoPacket) : Prop :=
  marked.countP statusErr = counted.countP statusErr

/-- A packet in order leaves no mark. -/
theorem OwnMarks.concat_left {marked counted : List IsoPacket} (h : OwnMarks marked counted)
    {d : IsoPacket} (hd : statusErr d = false) : OwnMarks (marked ++ [d]) counted := by
  unfold OwnMarks at h ⊢
  rw [List.countP_append, List.countP_singleton, hd, h]
  rfl

/-- A packet may leave a mark where it is counted. -/
theorem OwnMarks.concat {marked counted : List IsoPacket} (h : OwnMarks marked counted)
    (d : IsoPacket) : OwnMarks (marked ++ [d]) (counted ++ [d]) := by
  unfold OwnMarks at h ⊢
  rw [List.countP_append, List.countP_append, h]

theorem ownMarks_nil : OwnMarks [] [] := rfl

/-- A counted packet in place leaves its mark on its own frame. -/
theorem ownMarks_count {s : FrameParts} (hs : OwnMarks s.marked s.counted)
    {d : IsoPacket} (hd : statusErr d = true → breaksOff s d = false) :
    OwnMarks ((s.mark d).count d).marked ((s.mark d).count d).counted ∧
      ∀ l ∈ (s.mark d).lost d, OwnMarks l.marked l.counted := by
  have hmark : breaksOff (s.mark d) d = breaksOff s d := rfl
  unfold FrameParts.count FrameParts.lost
  rw [hmark]
  cases hb : breaksOff s d with
  | true =>
    have hok : statusErr d = false := by
      cases hst : statusErr d with
      | false => rfl
      | true => exact absurd (hd hst) (by simp [hb])
    simp only [if_true, List.mem_singleton, forall_eq]
    refine ⟨?_, hs.concat_left hok⟩
    unfold OwnMarks
    rw [List.countP_singleton, hok]
    rfl
  | false =>
    simp only [Bool.false_eq_true, if_false, List.not_mem_nil, false_imp_iff, implies_true,
      and_true]
    exact hs.concat d

/-- **One packet in place** leaves its mark on its own frame. -/
theorem logStep_ownMarks (s : FrameParts) (p : StreamPacket)
    (hs : OwnMarks s.marked s.counted) (hp : ErrorInPlace s p) :
    OwnMarks (logStep s p).1.marked (logStep s p).1.counted ∧
      ∀ l ∈ (logStep s p).2, OwnMarks l.marked l.counted := by
  unfold logStep
  cases hd : p.desc with
  | none => exact ⟨hs, by simp⟩
  | some d =>
    dsimp only
    by_cases hacc : Accepts p.tblen d
    · obtain ⟨hcount, hlost⟩ := ownMarks_count hs fun hst => (hp d hd hst).2
      rw [if_pos hacc]
      split
      · refine ⟨ownMarks_nil, fun l hl => ?_⟩
        rcases List.mem_append.mp hl with hl | hl
        · exact hlost l hl
        · rw [List.mem_singleton.mp hl]
          exact hcount
      · exact ⟨hcount, hlost⟩
    · have hok : statusErr d = false := by
        cases hst : statusErr d with
        | false => rfl
        | true => exact absurd (hp d hd hst).1 hacc
      rw [if_neg hacc]
      exact ⟨hs.concat_left hok, by simp⟩

/-- The packets counted in a frame are packets of the stream. -/
theorem counted_length_le {ps : List StreamPacket} {segs : List (Segment IsoPacket)}
    {rest : List IsoPacket}
    (h : Segmentation packetFid packetEof (acceptedPackets ps) segs rest) :
    ∀ s ∈ segs, s.items.length ≤ ps.length := by
  intro s hs
  have hitems : s.items.length ≤ (segs.flatMap Segment.items).length := by
    rw [List.flatMap_def]
    exact (List.sublist_flatten_of_mem (List.mem_map_of_mem hs)).length_le
  have hacc : (acceptedPackets ps).length ≤ ps.length := List.length_filterMap_le _ _
  rw [h.flatten, List.length_append] at hacc
  omega

/-- **Which frames are honest.**  Over every run of the module, a frame's error fields
describe its segment exactly when as many error packets came to the program in its stretch
as are counted in it; in particular where every error packet is accepted and goes on with
the frame in the making.
SOURCE: uvc.bpf.c:465-622 -/
theorem error_fields_iff (cfg : FilterConfig) (ops : List UvcOp)
    (hops : ∀ op ∈ ops, SmallCompletion op) (hcard : (runStreams cfg ops).card ≤ 64)
    (k : StreamId) (hk : k.devnum.toNat < 256) :
    let ps := streamPackets cfg k ops
    let frames := streamFrames k (outputs (uvcStep cfg) UvcMaps.empty ops)
    let segs := (frameLogs ps).map FrameLog.segment
    (∃ rest, Segmentation packetFid packetEof (acceptedPackets ps) segs rest) ∧
      List.Forall₂ (fun e l => FrameHonest e l.segment ↔ MarksMatch l) frames (frameLogs ps) ∧
      (EveryStep logStep ErrorInPlace {} ps → ps.length < 2 ^ 32 →
        List.Forall₂ FrameHonest frames segs) := by
  intro ps frames segs
  have hframes : frames = outputs streamStep {} ps := streamFrames_eq hops hcard hk
  obtain ⟨rest, hseg⟩ := logStep_segmentation ps {} unbroken_nil
  have hlogged : List.Forall₂ Logged frames (frameLogs ps) := hframes ▸ frames_logged ps
  refine ⟨⟨rest, hseg⟩, hlogged.imp fun _ _ h => frameHonest_iff h, fun hplace hlen => ?_⟩
  have hmarks := (run_induct (I := fun s => OwnMarks s.marked s.counted)
    (Q := fun l => OwnMarks l.marked l.counted) (fun s p hs hp => logStep_ownMarks s p hs hp)
    ownMarks_nil hplace).2
  rw [List.forall₂_map_right_iff]
  refine List.forall₂_iff_zip.mpr ⟨hlogged.length_eq, fun {e l} hel => ?_⟩
  have hl : l ∈ frameLogs ps := (List.of_mem_zip hel).2
  have hcount : l.counted.countP statusErr ≤ ps.length :=
    le_trans List.countP_le_length (counted_length_le hseg l.segment (List.mem_map_of_mem hl))
  refine (frameHonest_iff (List.forall₂_zip hlogged hel)).mpr ?_
  unfold MarksMatch
  rw [hmarks l hl]
  exact Nat.mod_eq_of_lt (by omega)

/-- A frame with an error packet in its middle. -/
def sampleErrored : List UvcOp :=
  [sampleCompletion 5 10 [samplePacket 0 0, samplePacket 0 (-71), samplePacket 2 0]]

theorem error_fields_sample :
    let ps := streamPackets {} ⟨1, 5, 0⟩ sampleErrored
    let frames := streamFrames ⟨1, 5, 0⟩ (outputs (uvcStep {}) UvcMaps.empty sampleErrored)
    (∃ rest, Segmentation packetFid packetEof (acceptedPackets ps)
        ((frameLogs ps).map FrameLog.segment) rest) ∧
      List.Forall₂ (fun e l => FrameHonest e l.segment ↔ MarksMatch l) frames (frameLogs ps) ∧
      List.Forall₂ FrameHonest frames ((frameLogs ps).map FrameLog.segment) := by
  obtain ⟨hseg, hiff, hhonest⟩ :=
    error_fields_iff {} sampleErrored (by decide) (by decide) ⟨1, 5, 0⟩ (by decide)
  exact ⟨hseg, hiff, hhonest (by decide) (by decide)⟩

/-- A packet with an error status begins, and ends, the second frame of its stream. -/
def sampleMisplaced : List UvcOp := [sampleCompletion 5 10 [samplePacket 0 0, samplePacket 3 (-71)]]

/-- **An error on the wrong frame.**  The frame before is reported with the error packet, and
the frame the packet is counted in is reported clean. -/
theorem error_fields_misplaced :
    ∃ segs rest,
      Segmentation packetFid packetEof
          (acceptedPackets (streamPackets {} ⟨1, 5, 0⟩ sampleMisplaced)) segs rest ∧
        ¬List.Forall₂ FrameHonest
          (streamFrames ⟨1, 5, 0⟩ (outputs (uvcStep {}) UvcMaps.empty sampleMisplaced)) segs := by
  obtain ⟨rest, hseg⟩ := logStep_segmentation
    (streamPackets {} ⟨1, 5, 0⟩ sampleMisplaced) {} unbroken_nil
  exact ⟨_, rest, hseg, by decide +kernel⟩

end UsbTrace.Analysis
