import UsbTrace.Analysis.StreamRuns
import UsbTrace.Interface.Clocks

/-!
# The clocks of frames

A payload header may carry a presentation time (PTS) and a source clock (SCR), the source
clock after the presentation time where there is one, else right after the two flag bytes.
The program takes no notice of a source clock without a presentation time, and it reads two
bytes only of a header that begins in the last twelve bytes of the buffer: a frame has the
clocks of its headers exactly where neither matters (`frame_clock_iff`,
`scr_without_pts`).
-/

set_option autoImplicit false

namespace UsbTrace.Analysis

open UsbTrace.Model UsbTrace.Library UsbTrace.Interface

/-! ## What headers carry -/

/-- The presentation time of a packet: there where the header says so and is long enough. -/
def headerPts (d : IsoPacket) : Option ℕ :=
  if headerInfo d &&& uvcPts ≠ 0 ∧ 6 ≤ headerLength d then
    some (leNat ((d.payload.drop 2).take 4))
  else none

/-- Where the source clock of a header is. -/
def scrPlace (d : IsoPacket) : ℕ := if headerInfo d &&& uvcPts ≠ 0 then 6 else 2

/-- The source clock of a packet, with its SOF token. -/
def headerScr (d : IsoPacket) : Option (ℕ × ℕ) :=
  if headerInfo d &&& uvcScr ≠ 0 ∧ scrPlace d + 6 ≤ headerLength d then
    some (leNat ((d.payload.drop (scrPlace d)).take 4),
      leNat ((d.payload.drop (scrPlace d + 4)).take 2))
  else none

/-- The packets that carry a presentation time, or a source clock. -/
def ptsCarrier (x : SeenPacket) : Option (SeenPacket × ℕ) := (headerPts x.desc).map (Prod.mk x)

def scrCarrier (x : SeenPacket) : Option (SeenPacket × ℕ × ℕ) :=
  (headerScr x.desc).map (Prod.mk x)

/-- The clocks of a frame are those of the last packets that carry them, and 0 where none
does. -/
structure ClockRight (e : UvcFrameEvent) (items : List SeenPacket) : Prop where
  pts : e.pts.toNat = ((lastOf ptsCarrier items).map Prod.snd).getD 0
  scr : (e.scrStc.toNat, e.scrSof.toNat) = ((lastOf scrCarrier items).map Prod.snd).getD (0, 0)

instance (e : UvcFrameEvent) (items : List SeenPacket) : Decidable (ClockRight e items) :=
  decidable_of_iff
    (e.pts.toNat = ((lastOf ptsCarrier items).map Prod.snd).getD 0 ∧
      (e.scrStc.toNat, e.scrSof.toNat) =
        ((lastOf scrCarrier items).map Prod.snd).getD (0, 0))
    ⟨fun h => ⟨h.1, h.2⟩, fun h => ⟨h.pts, h.scr⟩⟩

/-! ## What is read of them -/

/-- The first twelve bytes of the packet are in the buffer. -/
def WholeHeader (x : SeenPacket) : Prop := x.desc.offset + 12 ≤ x.tblen

instance (x : SeenPacket) : Decidable (WholeHeader x) := inferInstanceAs (Decidable (_ ≤ _))

/-- The packet has a presentation time before its source clock. -/
def hasPts (d : IsoPacket) : Bool := headerInfo d &&& uvcPts ≠ 0

/-- The source clock as it is read: only after a presentation time, and as zeros where the
header is not read whole. -/
def readScr (x : SeenPacket) : Option (ℕ × ℕ) :=
  if hasPts x.desc then (headerScr x.desc).map fun v => if WholeHeader x then v else (0, 0)
  else none

/-- The last presentation time of the frame is read whole, or is 0. -/
def PtsRead (items : List SeenPacket) : Prop :=
  ∀ c ∈ lastOf ptsCarrier items, WholeHeader c.1 ∨ c.2 = 0

instance (items : List SeenPacket) : Decidable (PtsRead items) :=
  inferInstanceAs (Decidable (∀ c ∈ lastOf ptsCarrier items, _))

/-- The last source clock of the frame comes after a presentation time and is read whole, or
is that of the last one which does. -/
def ScrRead (items : List SeenPacket) : Prop :=
  ∀ c ∈ lastOf scrCarrier items,
    hasPts c.1.desc ∧ WholeHeader c.1 ∨ c.2 = (lastOf readScr items).getD (0, 0)

instance (items : List SeenPacket) : Decidable (ScrRead items) :=
  inferInstanceAs (Decidable (∀ c ∈ lastOf scrCarrier items, _))

/-- A number the program loads from a header is the packet's where the header is read
whole, and 0 where it is not. -/
def shown (x : SeenPacket) (i n : ℕ) : ℕ :=
  if WholeHeader x then leNat ((x.desc.payload.drop i).take n) else 0

/-- What the program asks for a source clock: both bits, and a header of twelve bytes. -/
theorem readScr_eq (x : SeenPacket) :
    readScr x =
      if headerInfo x.desc &&& uvcPts ≠ 0 ∧ headerInfo x.desc &&& uvcScr ≠ 0 ∧
        12 ≤ headerLength x.desc then some (shown x 6 4, shown x 10 2) else none := by
  unfold readScr hasPts headerScr scrPlace shown
  by_cases hpts : headerInfo x.desc &&& uvcPts ≠ 0
  · rw [if_pos (decide_eq_true hpts), if_pos hpts]
    by_cases hscr : headerInfo x.desc &&& uvcScr ≠ 0 ∧ 12 ≤ headerLength x.desc
    · rw [if_pos hscr, if_pos ⟨hpts, hscr⟩, Option.map_some]
      split <;> rfl
    · rw [if_neg hscr, if_neg fun h => hscr h.2, Option.map_none]
  · rw [if_neg (by simpa using hpts), if_neg fun h => hpts h.1]

/-- A header, where it is read, as the program asks for its fields. -/
theorem noteClock_readHeader (c : FrameClock) (x : SeenPacket) :
    (noteClock c (readHeader x.tblen x.desc)).pts.toNat =
        ((headerPts x.desc).map fun v => if WholeHeader x then v else 0).getD c.pts.toNat ∧
      ((noteClock c (readHeader x.tblen x.desc)).scrStc.toNat,
          (noteClock c (readHeader x.tblen x.desc)).scrSof.toNat) =
        (readScr x).getD (c.scrStc.toNat, c.scrSof.toNat) := by
  have hlen : ∀ n : UInt8, (readHeader x.tblen x.desc).getD 0 0 ≥ n ↔
      n.toNat ≤ headerLength x.desc := by
    intro n
    rw [readHeader_getD x.tblen x.desc (by omega)]
    exact UInt8.le_iff_toNat_le
  have hsix : (readHeader x.tblen x.desc).getD 0 0 ≥ 6 ↔ 6 ≤ headerLength x.desc := hlen 6
  have htwelve : (readHeader x.tblen x.desc).getD 0 0 ≥ 12 ↔ 12 ≤ headerLength x.desc := hlen 12
  have hinfo : (readHeader x.tblen x.desc).getD 1 0 = headerInfo x.desc :=
    readHeader_getD x.tblen x.desc (by omega)
  have hpts : (uvcLoadLe32 (readHeader x.tblen x.desc) 2).toNat = shown x 2 4 := by
    rw [uvcLoadLe32_toNat]
    exact leNat_readHeader x.tblen x.desc (by omega) (by omega)
  have hstc : (uvcLoadLe32 (readHeader x.tblen x.desc) 6).toNat = shown x 6 4 := by
    rw [uvcLoadLe32_toNat]
    exact leNat_readHeader x.tblen x.desc (by omega) (by omega)
  have hsof : (uvcLoadLe16 (readHeader x.tblen x.desc) 10).toNat = shown x 10 2 := by
    rw [uvcLoadLe16_toNat]
    exact leNat_readHeader x.tblen x.desc (by omega) (by omega)
  rw [readScr_eq, headerPts]
  simp only [noteClock, hinfo, hsix, htwelve]
  refine ⟨?_, ?_⟩
  · by_cases h : headerInfo x.desc &&& uvcPts ≠ 0 ∧ 6 ≤ headerLength x.desc
    · rw [if_pos h, if_pos h, Option.map_some, Option.getD_some]
      split <;> exact hpts
    · rw [if_neg h, if_neg h, Option.map_none, Option.getD_none]
      split <;> rfl
  · by_cases h : headerInfo x.desc &&& uvcPts ≠ 0 ∧ headerInfo x.desc &&& uvcScr ≠ 0 ∧
        12 ≤ headerLength x.desc
    · rw [if_pos h, if_pos h, Option.getD_some, hstc, hsof]
    · rw [if_neg h, if_neg h, Option.getD_none]
      split <;> rfl

/-- **The clock that is read**, over the packets of a frame. -/
theorem readClock_eq (items : List SeenPacket) :
    (readClock items).pts.toNat =
        ((lastOf ptsCarrier items).map fun c => if WholeHeader c.1 then c.2 else 0).getD 0 ∧
      ((readClock items).scrStc.toNat, (readClock items).scrSof.toNat) =
        (lastOf readScr items).getD (0, 0) := by
  induction items using List.reverseRecOn with
  | nil => exact ⟨rfl, rfl⟩
  | append_singleton items x ih =>
    obtain ⟨hpts, hscr⟩ := noteClock_readHeader (readClock items) x
    rw [readClock_concat, hpts, hscr, ih.1, ih.2, lastOf_concat, lastOf_concat]
    refine ⟨?_, ?_⟩
    · cases h : headerPts x.desc with
      | none => simp [ptsCarrier, h]
      | some v => simp [ptsCarrier, h]
    · cases readScr x <;> simp

/-- A source clock that is read is the last one of the frame's that is read. -/
theorem lastOf_readScr {items : List SeenPacket} {c : SeenPacket × ℕ × ℕ}
    (h : lastOf scrCarrier items = some c) (hpts : hasPts c.1.desc = true)
    (hwhole : WholeHeader c.1) : lastOf readScr items = some c.2 := by
  induction items using List.reverseRecOn with
  | nil => cases h
  | append_singleton items x ih =>
    rw [lastOf_concat] at h ⊢
    cases hx : headerScr x.desc with
    | none =>
      have hno : scrCarrier x = none := by rw [scrCarrier, hx, Option.map_none]
      have hread : readScr x = none := by
        rw [readScr, hx, Option.map_none, ite_self]
      rw [hno, Option.none_or] at h
      rw [hread, Option.none_or, ih h]
    | some v =>
      have hsome : scrCarrier x = some (x, v) := by rw [scrCarrier, hx, Option.map_some]
      rw [hsome, Option.some_or, Option.some.injEq] at h
      subst h
      have hread : readScr x = some v := by
        rw [readScr, if_pos hpts, hx, Option.map_some, if_pos hwhole]
      rw [hread, Option.some_or]

/-- Where no packet carries a source clock, none is read. -/
theorem lastOf_readScr_none {items : List SeenPacket} (h : lastOf scrCarrier items = none) :
    lastOf readScr items = none := by
  unfold lastOf at h ⊢
  rw [List.getLast?_eq_none_iff, List.filterMap_eq_nil_iff] at h ⊢
  intro x hx
  have hnone : headerScr x.desc = none := by simpa [scrCarrier] using h x hx
  rw [readScr, hnone, Option.map_none, ite_self]

/-! ## Which clocks are right -/

/-- **The clocks of one frame.** -/
theorem clockRight_iff {e : UvcFrameEvent} {items : List SeenPacket}
    (h : frameClock e = readClock items) :
    ClockRight e items ↔ PtsRead items ∧ ScrRead items := by
  obtain ⟨hpts, hscr⟩ := readClock_eq items
  have hepts : e.pts.toNat = (readClock items).pts.toNat :=
    congrArg (fun c => c.pts.toNat) h
  have hescr : (e.scrStc.toNat, e.scrSof.toNat) =
      ((readClock items).scrStc.toNat, (readClock items).scrSof.toNat) :=
    congrArg (fun c => (c.scrStc.toNat, c.scrSof.toNat)) h
  have hboth : ClockRight e items ↔
      e.pts.toNat = ((lastOf ptsCarrier items).map Prod.snd).getD 0 ∧
        (e.scrStc.toNat, e.scrSof.toNat) =
          ((lastOf scrCarrier items).map Prod.snd).getD (0, 0) :=
    ⟨fun h => ⟨h.pts, h.scr⟩, fun h => ⟨h.1, h.2⟩⟩
  rw [hboth, hepts, hescr, hpts, hscr]
  refine and_congr ?_ ?_
  · unfold PtsRead
    cases lastOf ptsCarrier items with
    | none => simp
    | some c =>
      by_cases hw : WholeHeader c.1
      · simp [hw]
      · simp [hw, eq_comm]
  · unfold ScrRead
    cases hlast : lastOf scrCarrier items with
    | none => simp [lastOf_readScr_none hlast]
    | some c =>
      simp only [Option.map_some, Option.getD_some, Option.mem_def, Option.some.injEq,
        forall_eq']
      constructor
      · exact fun heq => Or.inr heq.symm
      · rintro (⟨hbit, hw⟩ | heq)
        · rw [lastOf_readScr hlast hbit hw, Option.getD_some]
        · exact heq.symm

/-- **Which frames have the clocks of their headers.**  Over every run of the module, the
frames of a stream are the segments of the packets assembled for it, and a frame's PTS and SCR
are those of the last packets that carry them exactly when those are read: the last PTS in a
header that is read whole (or 0), the last SCR after a PTS in such a header (or the same as
that of the last packet of which that is so).
SOURCE: uvc.bpf.c:571-617 -/
theorem frame_clock_iff (cfg : FilterConfig) (ops : List UvcOp)
    (hops : ∀ op ∈ ops, ByteDevnum op) (k : StreamId) (hk : k.devnum.toNat < 256) :
    ∃ segs rest,
      Segmentation seenFid seenEof
          (seenPackets (assembledPackets cfg k UvcMaps.empty ops)) segs rest ∧
        List.Forall₂ (fun e s => ClockRight e s.items ↔ PtsRead s.items ∧ ScrRead s.items)
          (streamFrames k (outputs (uvcStep cfg) UvcMaps.empty ops)) segs := by
  obtain ⟨rest, hseg⟩ := frameSegments_segmentation (assembledPackets cfg k UvcMaps.empty ops)
  refine ⟨_, rest, hseg, ?_⟩
  rw [streamFrames_assembled cfg UvcMaps.empty hops hk]
  exact (frames_clock _).imp fun _ _ h => clockRight_iff h

/-- The descriptors of packets in slots of `slot` bytes each, the first at offset `i * slot`. -/
def slotPackets (slot : ℕ) : ℕ → List (List UInt8) → List (Option IsoPacket)
  | _, [] => []
  | i, packet :: packets =>
    some { offset := (i * slot).toUInt32, actualLength := packet.length.toUInt32,
           payload := (packet :: packets).flatMap (·.rightpad slot 0) } ::
      slotPackets slot (i + 1) packets

/-- A completion of camera 5 with these packets, in a buffer of their slots. -/
def clockedFrame (slot : ℕ) (packets : List (List UInt8)) : UvcOp :=
  .complete { now := 10 } { busnum := 1, devnum := 5 }
    { transferBuffer := 0x1000, transferBufferLength := (slot * packets.length).toUInt32
      numberOfPackets := packets.length.toInt32, isoFrameDesc := slotPackets slot 0 packets }

/-- A frame of two packets, with both clocks in the first and a later PTS in the second, and a
frame of one packet without clocks: both have the clocks of their headers. -/
theorem frame_clock_sample :
    let ops := [clockedFrame 16 [[12, 0x0c, 1, 2, 3, 4, 5, 6, 7, 8, 9, 10, 0xff, 0xff],
      [6, 0x06, 2, 2, 3, 4, 0xff, 0xff], [2, 0x03, 0xff, 0xff]]]
    (streamFrames ⟨1, 5, 0⟩ (outputs (uvcStep {}) UvcMaps.empty ops)).map frameClock =
        [⟨0x04030202, 0x08070605, 0x0a09⟩, ⟨0, 0, 0⟩] ∧
      List.Forall₂ (fun e s => ClockRight e s.items)
        (streamFrames ⟨1, 5, 0⟩ (outputs (uvcStep {}) UvcMaps.empty ops))
        (frameSegments (assembledPackets {} ⟨1, 5, 0⟩ UvcMaps.empty ops)) := by
  intro ops
  refine ⟨by decide +kernel, ?_⟩
  obtain ⟨segs, rest, hseg, hclocks⟩ := frame_clock_iff {} ops (by decide) ⟨1, 5, 0⟩ (by decide)
  -- the packets have one segmentation
  obtain ⟨rest', hseg'⟩ := frameSegments_segmentation
    (assembledPackets {} ⟨1, 5, 0⟩ UvcMaps.empty ops)
  obtain ⟨rfl, -⟩ := hseg.unique hseg'
  have hread : ∀ s ∈ frameSegments (assembledPackets {} ⟨1, 5, 0⟩ UvcMaps.empty ops),
      PtsRead s.items ∧ ScrRead s.items := by
    decide +kernel
  rw [List.forall₂_iff_get] at hclocks ⊢
  refine ⟨hclocks.1, fun i hi hi' => ?_⟩
  exact (hclocks.2 i hi hi').mpr (hread _ (List.get_mem _ _))

/-- The frames of camera 5 do not have the clocks of their headers after the one operation. -/
def ClocksWrong (op : UvcOp) : Prop :=
  ∃ segs rest,
    Segmentation seenFid seenEof
        (seenPackets (assembledPackets {} ⟨1, 5, 0⟩ UvcMaps.empty [op])) segs rest ∧
      ¬List.Forall₂ (fun e s => ClockRight e s.items)
        (streamFrames ⟨1, 5, 0⟩ (outputs (uvcStep {}) UvcMaps.empty [op])) segs

theorem clocksWrong_of_frameSegments {op : UvcOp}
    (h : ¬List.Forall₂ (fun e s => ClockRight e s.items)
      (streamFrames ⟨1, 5, 0⟩ (outputs (uvcStep {}) UvcMaps.empty [op]))
      (frameSegments (assembledPackets {} ⟨1, 5, 0⟩ UvcMaps.empty [op]))) : ClocksWrong op := by
  obtain ⟨rest, hseg⟩ := frameSegments_segmentation
    (assembledPackets {} ⟨1, 5, 0⟩ UvcMaps.empty [op])
  exact ⟨_, rest, hseg, h⟩

/-- **A source clock that is not seen**: in a header of eight bytes with no presentation time;
and a presentation time that is read as 0, in the last twelve bytes of a buffer. -/
theorem scr_without_pts :
    ClocksWrong (clockedFrame 1024 [[8, 0x0a, 1, 2, 3, 4, 5, 6, 0xff, 0xff]]) ∧
      ClocksWrong (clockedFrame 10 [[6, 0x06, 1, 2, 3, 4, 0xff, 0xff]]) :=
  ⟨clocksWrong_of_frameSegments (by decide +kernel),
    clocksWrong_of_frameSegments (by decide +kernel)⟩

end UsbTrace.Analysis
