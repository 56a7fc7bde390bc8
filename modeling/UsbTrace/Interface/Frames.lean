import UsbTrace.Interface.Stream
import UsbTrace.Library.Segment

/-!
# What frames are made of

The packets behind each frame, from the packets of the stream alone: those counted in it,
and those that left their error mark on it.  `logStep` keeps both lists, and a frame holds
what its two lists say (`frames_logged`).
-/

set_option autoImplicit false

namespace UsbTrace.Interface

open UsbTrace.Model UsbTrace.Library

/-! ## Packets -/

/-- The bytes of the payload header: its length, and `bmHeaderInfo`. -/
def headerLength (d : IsoPacket) : ℕ := (d.payload.getD 0 0).toNat
def headerInfo (d : IsoPacket) : UInt8 := d.payload.getD 1 0

/-- The frame id, the end-of-frame bit and the error bit of a packet. -/
def packetFid (d : IsoPacket) : UInt8 := headerInfo d &&& uvcFid
def packetEof (d : IsoPacket) : Bool := headerInfo d &&& uvcEof ≠ 0
def packetErr (d : IsoPacket) : Bool := headerInfo d &&& uvcErr ≠ 0

/-- The packet has a nonzero isoc status. -/
def statusErr (d : IsoPacket) : Bool := d.status ≠ 0

/-- The payload of a packet, without its header. -/
def payloadSize (d : IsoPacket) : ℕ := d.actualLength.toNat - headerLength d

/-- A packet is accepted in a buffer of `tblen` bytes: it is not empty, it begins in the
buffer, its header can be read, and the header's length is plausible. -/
def Accepts (tblen : UInt32) (d : IsoPacket) : Prop :=
  0 < d.actualLength.toNat ∧ d.offset + 2 ≤ tblen ∧
    (if d.offset + 12 ≤ tblen then 12 else 2) ≤ d.payload.length ∧
    2 ≤ headerLength d ∧ headerLength d ≤ d.actualLength.toNat

instance (tblen : UInt32) (d : IsoPacket) : Decidable (Accepts tblen d) :=
  inferInstanceAs (Decidable (_ ∧ _ ∧ _ ∧ _ ∧ _))

/-- The header as it is read: twelve bytes, or two and zeros. -/
def readHeader (tblen : UInt32) (d : IsoPacket) : List UInt8 :=
  if d.offset + 12 ≤ tblen then d.payload.take 12 else d.payload.take 2 ++ List.replicate 10 0

/-- The first two bytes of the header are the packet's. -/
theorem readHeader_getD (tblen : UInt32) (d : IsoPacket) {i : ℕ} (hi : i < 2) :
    (readHeader tblen d).getD i 0 = d.payload.getD i 0 := by
  unfold readHeader
  split
  · simp only [List.getD_eq_getElem?_getD, List.getElem?_take]
    rw [if_pos (by omega)]
  · by_cases hlen : i < d.payload.length
    · have hlt : i < (d.payload.take 2).length := by
        rw [List.length_take]
        omega
      simp only [List.getD_eq_getElem?_getD, List.getElem?_append_left hlt, List.getElem?_take]
      rw [if_pos hi]
    · have hle : d.payload.length ≤ i := by omega
      rw [List.take_of_length_le (by omega)]
      simp only [List.getD_eq_getElem?_getD, List.getElem?_append_right hle,
        List.getElem?_eq_none hle, List.getElem?_replicate]
      split <;> rfl

/-- The length of the header, as the program compares it. -/
theorem headerLength_iff (d : IsoPacket) :
    ((d.payload.getD 0 0) < 2 ∨ (d.payload.getD 0 0).toUInt32 > d.actualLength) ↔
      ¬(2 ≤ headerLength d ∧ headerLength d ≤ d.actualLength.toNat) := by
  rw [gt_iff_lt, UInt8.lt_iff_toNat_lt, UInt32.lt_iff_toNat_lt, UInt8.toNat_toUInt32]
  change headerLength d < 2 ∨ d.actualLength.toNat < headerLength d ↔ _
  omega

/-- **The program's skip paths**: it goes on with the packets that are accepted, and with
their header. -/
theorem uvcPayloadHeader_eq (tblen : UInt32) (d : IsoPacket) :
    uvcPayloadHeader tblen d = if Accepts tblen d then some (readHeader tblen d) else none := by
  have hzero : d.actualLength = 0 ↔ d.actualLength.toNat = 0 := UInt32.toNat_inj.symm
  have hread : probeRead (if d.offset + 12 ≤ tblen then 12 else 2) d.payload =
      if (if d.offset + 12 ≤ tblen then 12 else 2) ≤ d.payload.length then
        some (d.payload.take (if d.offset + 12 ≤ tblen then 12 else 2)) else none := rfl
  have hheader : d.payload.take (if d.offset + 12 ≤ tblen then 12 else 2) ++
      List.replicate (12 - if d.offset + 12 ≤ tblen then 12 else 2) 0 = readHeader tblen d := by
    unfold readHeader
    split
    · exact List.append_nil _
    · rfl
  unfold uvcPayloadHeader
  by_cases h0 : d.actualLength = 0
  · rw [if_pos h0, if_neg fun h : Accepts tblen d => h.1.ne' (hzero.mp h0)]
  · rw [if_neg h0]
    by_cases h1 : d.offset + 2 ≤ tblen
    · rw [if_neg (by rwa [gt_iff_lt, UInt32.not_lt])]
      by_cases h2 : (if d.offset + 12 ≤ tblen then 12 else 2) ≤ d.payload.length
      · dsimp only
        rw [hread, if_pos h2]
        dsimp only
        rw [hheader, readHeader_getD tblen d (by omega)]
        by_cases h3 : 2 ≤ headerLength d ∧ headerLength d ≤ d.actualLength.toNat
        · rw [if_neg fun h => (headerLength_iff d).mp h h3,
            if_pos ⟨Nat.pos_of_ne_zero (mt hzero.mpr h0), h1, h2, h3⟩]
        · rw [if_pos ((headerLength_iff d).mpr h3), if_neg fun h : Accepts tblen d => h3 h.2.2.2]
      · dsimp only
        rw [hread, if_neg h2, if_neg fun h : Accepts tblen d => h2 h.2.2.1]
    · rw [if_pos (by rwa [gt_iff_lt, ← UInt32.not_le]), if_neg fun h : Accepts tblen d => h1 h.2.1]

/-! ## Two lists for a frame -/

/-- The packets behind a frame: those that came to the program since the frame before it
was emitted, up to the one it was emitted at, and those counted in it. -/
structure FrameLog where
  marked : List IsoPacket
  counted : List IsoPacket
  ended : Bool

/-- The packets behind the frame in the making. -/
structure FrameParts where
  marked : List IsoPacket := []
  counted : List IsoPacket := []

/-- The packet is of another frame than the packets counted so far. -/
def breaksOff (s : FrameParts) (d : IsoPacket) : Bool :=
  s.counted.any fun a => packetFid a ≠ packetFid d

/-- A packet comes to the program. -/
def FrameParts.mark (s : FrameParts) (d : IsoPacket) : FrameParts :=
  { s with marked := s.marked ++ [d] }

/-- An accepted packet is counted, in a frame of its own where it breaks off the one in the
making. -/
def FrameParts.count (s : FrameParts) (d : IsoPacket) : FrameParts :=
  if breaksOff s d then { counted := [d] } else { s with counted := s.counted ++ [d] }

/-- The frame a packet breaks off. -/
def FrameParts.lost (s : FrameParts) (d : IsoPacket) : List FrameLog :=
  if breaksOff s d then [⟨s.marked, s.counted, false⟩] else []

/-- One packet on the lists: a packet of another frame ends the frame in the making, and
one with an end-of-frame bit its own. -/
def logStep (s : FrameParts) (p : StreamPacket) : FrameParts × List FrameLog :=
  match p.desc with
  | none => (s, [])
  | some d =>
    let s := s.mark d
    if Accepts p.tblen d then
      if packetEof d then
        ({}, s.lost d ++ [⟨(s.count d).marked, (s.count d).counted, true⟩])
      else (s.count d, s.lost d)
    else (s, [])

/-- The packets behind the frames of a stream. -/
def frameLogs (ps : List StreamPacket) : List FrameLog := outputs logStep {} ps

/-- The frame holds what the two lists say. -/
structure Logged (e : UvcFrameEvent) (l : FrameLog) : Prop where
  fid : ∀ d ∈ l.counted, packetFid d = e.fid
  packets : e.packets = UInt32.ofNat l.counted.length
  bytes : e.bytes = UInt32.ofNat (l.counted.map payloadSize).sum
  errPackets : e.errPackets = UInt32.ofNat (l.marked.countP statusErr)
  errored : e.errored = if !l.ended || l.marked.any statusErr || l.counted.any packetErr
    then 1 else 0
  eof : e.eof = if l.ended then 1 else 0

/-- The stream is what the two lists of the frame in the making say. -/
structure InMaking (s : FrameParts) (st : UvcStreamState) : Prop where
  active : st.active = !s.counted.isEmpty
  haveFid : st.active = true → st.haveFid = true
  fid : ∀ d ∈ s.counted, packetFid d = st.curFid
  packets : st.curPackets = UInt32.ofNat s.counted.length
  bytes : st.curBytes = UInt32.ofNat (s.counted.map payloadSize).sum
  errPackets : st.curErrPackets = UInt32.ofNat (s.marked.countP statusErr)
  sawErr : st.sawErr = (s.marked.any statusErr || s.counted.any packetErr)

/-- A fresh stream has no frame in the making. -/
theorem inMaking_fresh : InMaking {} {} := by
  constructor <;> simp

/-- Neither has one that has just emitted its frame. -/
theorem inMaking_reset (st : UvcStreamState) (now : UInt64) :
    InMaking {} (uvcResetFrame st now) := by
  constructor <;> simp [uvcResetFrame]

/-- The record of the frame in the making. -/
theorem InMaking.logged {s : FrameParts} {st : UvcStreamState} (h : InMaking s st)
    (ctx : HookCtx) (src : UvcSource) (eof : Bool) :
    Logged (uvcFrameRecord ctx src st eof) ⟨s.marked, s.counted, eof⟩ where
  fid := h.fid
  packets := h.packets
  bytes := h.bytes
  errPackets := h.errPackets
  errored := by
    simp only [uvcFrameRecord, h.sawErr, Bool.or_assoc]
  eof := rfl

/-- A packet comes to the program. -/
theorem InMaking.mark {s : FrameParts} {st : UvcStreamState} (h : InMaking s st) (d : IsoPacket) :
    InMaking (s.mark d) (uvcMarkStatus st d) := by
  unfold uvcMarkStatus FrameParts.mark
  split
  · next herr =>
    have hs : statusErr d = true := by simpa [statusErr] using herr
    exact { active := h.active, haveFid := h.haveFid, fid := h.fid, packets := h.packets,
            bytes := h.bytes
            errPackets := by
              simp [h.errPackets, hs, UInt32.ofNat_add]
            sawErr := by simp [hs] }
  · next herr =>
    have hs : statusErr d = false := by simpa [statusErr] using herr
    exact { active := h.active, haveFid := h.haveFid, fid := h.fid, packets := h.packets,
            bytes := h.bytes
            errPackets := by simp [h.errPackets, hs]
            sawErr := by simp [h.sawErr, hs] }

/-! ## A packet is counted -/

theorem uvcNoteErr_eq (st : UvcStreamState) (hdr : List UInt8) :
    uvcNoteErr st hdr = { st with sawErr := st.sawErr || hdr.getD 1 0 &&& uvcErr ≠ 0 } := by
  unfold uvcNoteErr
  split
  · next h => rw [decide_eq_true h, Bool.or_true]
  · next h => rw [decide_eq_false h, Bool.or_false]

theorem uvcNotePts_eq (st : UvcStreamState) (hdr : List UInt8) :
    uvcNotePts st hdr = { st with curPts := (uvcNotePts st hdr).curPts } := by
  unfold uvcNotePts
  split <;> rfl

theorem uvcNoteScr_eq (st : UvcStreamState) (hdr : List UInt8) :
    uvcNoteScr st hdr = { st with
      curScrStc := (uvcNoteScr st hdr).curScrStc
      curScrSof := (uvcNoteScr st hdr).curScrSof } := by
  unfold uvcNoteScr
  split <;> rfl

/-- The stream once a packet is counted, but for its time stamps. -/
theorem uvcCountPacket_eq (st : UvcStreamState) (d : IsoPacket) (hdr : List UInt8) :
    uvcCountPacket st d hdr = { st with
      curBytes := st.curBytes + (d.actualLength - (hdr.getD 0 0).toUInt32)
      curPackets := st.curPackets + 1
      sawErr := st.sawErr || hdr.getD 1 0 &&& uvcErr ≠ 0
      curPts := (uvcCountPacket st d hdr).curPts
      curScrStc := (uvcCountPacket st d hdr).curScrStc
      curScrSof := (uvcCountPacket st d hdr).curScrSof } := by
  unfold uvcCountPacket
  rw [uvcNoteScr_eq, uvcNotePts_eq, uvcNoteErr_eq]
  rfl

/-- The frame in the making is the one an accepted packet belongs to. -/
structure Placed (s : FrameParts) (st : UvcStreamState) (d : IsoPacket) : Prop where
  active : st.active = true
  haveFid : st.haveFid = true
  curFid : packetFid d = st.curFid
  fid : ∀ a ∈ s.counted, packetFid a = st.curFid
  packets : st.curPackets = UInt32.ofNat s.counted.length
  bytes : st.curBytes = UInt32.ofNat (s.counted.map payloadSize).sum
  errPackets : st.curErrPackets = UInt32.ofNat (s.marked.countP statusErr)
  sawErr : st.sawErr = (s.marked.any statusErr || s.counted.any packetErr)

/-- The payload, as the program subtracts. -/
theorem payloadSize_ofNat {d : IsoPacket} (h : headerLength d ≤ d.actualLength.toNat) :
    d.actualLength - (d.payload.getD 0 0).toUInt32 = UInt32.ofNat (payloadSize d) := by
  apply UInt32.toNat_inj.mp
  have hle : (d.payload.getD 0 0).toUInt32 ≤ d.actualLength := by
    rwa [UInt32.le_iff_toNat_le, UInt8.toNat_toUInt32]
  have hlt := d.actualLength.toNat_lt
  rw [UInt32.toNat_sub_of_le _ _ hle, UInt8.toNat_toUInt32, UInt32.toNat_ofNat',
    Nat.mod_eq_of_lt (by unfold payloadSize; omega)]
  rfl

/-- **A packet is counted** into its frame. -/
theorem Placed.count {s : FrameParts} {st : UvcStreamState} {d : IsoPacket} (h : Placed s st d)
    {tblen : UInt32} (hacc : Accepts tblen d) :
    InMaking { s with counted := s.counted ++ [d] }
      (uvcCountPacket st d (readHeader tblen d)) := by
  rw [uvcCountPacket_eq, readHeader_getD tblen d (by omega), readHeader_getD tblen d (by omega)]
  constructor
  · simp [h.active]
  · exact fun _ => h.haveFid
  · intro a ha
    rcases List.mem_append.mp ha with ha | ha
    · exact h.fid a ha
    · rw [List.mem_singleton.mp ha]
      exact h.curFid
  · simp [h.packets, UInt32.ofNat_add]
  · simp only [h.bytes, payloadSize_ofNat hacc.2.2.2.2, List.map_append, List.map_cons,
      List.map_nil, List.sum_append, List.sum_cons, List.sum_nil, UInt32.ofNat_add, Nat.add_zero]
  · exact h.errPackets
  · simp [h.sawErr, packetErr, headerInfo, Bool.or_assoc]

/-- The program tells another frame's packet as the lists do. -/
theorem InMaking.breaksOff_eq {s : FrameParts} {st : UvcStreamState} (h : InMaking s st)
    (d : IsoPacket) : fidToggled st (packetFid d) = breaksOff s d := by
  unfold fidToggled breaksOff
  cases hc : s.counted with
  | nil => simp [h.active, hc]
  | cons a as =>
    have hact : st.active = true := by simp [h.active, hc]
    have hall : ∀ b ∈ s.counted, (packetFid b ≠ packetFid d) ↔ st.curFid ≠ packetFid d :=
      fun b hb => by rw [h.fid b hb]
    have hany : (s.counted.any fun b => packetFid b ≠ packetFid d) =
        decide (packetFid d ≠ st.curFid) := by
      by_cases hfid : packetFid d = st.curFid
      · rw [List.any_eq_false.mpr fun b hb => by simp [h.fid b hb, hfid]]
        simp [hfid]
      · rw [List.any_eq_true.mpr ⟨a, by simp [hc], by
          simpa [h.fid a (by simp [hc])] using Ne.symm hfid⟩]
        simp [hfid]
    rw [← hc, hany, hact, h.haveFid hact]
    rfl

/-- An accepted packet is placed: in a frame of its own where it breaks off the one in the
making. -/
theorem InMaking.place {s : FrameParts} {st : UvcStreamState} (h : InMaking s st)
    (d : IsoPacket) (now : UInt64) :
    Placed (if breaksOff s d then {} else s) (placePacket st (packetFid d) now) d := by
  unfold placePacket
  rw [h.breaksOff_eq d]
  cases hb : breaksOff s d with
  | true =>
    constructor <;> simp [uvcResetFrame, uvcStartFrame]
  | false =>
    have hfid := h.breaksOff_eq d
    simp only [if_false, Bool.false_eq_true]
    cases hact : st.active with
    | false =>
      have hnil : s.counted = [] := by simpa [hact] using h.active
      simp only [Bool.false_eq_true, if_false]
      exact { active := rfl, haveFid := rfl, curFid := rfl
              fid := by simp [hnil]
              packets := h.packets, bytes := h.bytes
              errPackets := h.errPackets, sawErr := h.sawErr }
    | true =>
      simp only [if_true]
      have hcur : packetFid d = st.curFid := by
        simpa [hb, fidToggled, hact, h.haveFid hact] using hfid
      exact { active := hact, haveFid := h.haveFid hact, curFid := hcur, fid := h.fid
              packets := h.packets, bytes := h.bytes
              errPackets := h.errPackets, sawErr := h.sawErr }

/-- **An accepted packet is counted.** -/
theorem InMaking.count {s : FrameParts} {st : UvcStreamState} (h : InMaking s st)
    {tblen : UInt32} {d : IsoPacket} (hacc : Accepts tblen d) (now : UInt64) :
    InMaking (s.count d)
      (uvcCountPacket (placePacket st (packetFid d) now) d (readHeader tblen d)) := by
  have hplace := (h.place d now).count hacc
  unfold FrameParts.count
  split at hplace
  · next hb => rwa [if_pos hb]
  · next hb => rwa [if_neg hb]

/-! ## The run -/

/-- The frame a packet breaks off is logged. -/
theorem InMaking.lost {s : FrameParts} {st : UvcStreamState} (h : InMaking s st) (d : IsoPacket)
    (ctx : HookCtx) (src : UvcSource) :
    List.Forall₂ Logged (lostFrame ctx src st (packetFid d)) (s.lost d) := by
  unfold lostFrame FrameParts.lost
  rw [h.breaksOff_eq d]
  split
  · exact List.Forall₂.cons (h.logged ctx src false) List.Forall₂.nil
  · exact List.Forall₂.nil

/-- **One packet** on the stream and on the lists. -/
theorem streamStep_logged (st : UvcStreamState) (s : FrameParts) (p : StreamPacket)
    (h : InMaking s st) :
    InMaking (logStep s p).1 (streamStep st p).1 ∧
      List.Forall₂ Logged (streamStep st p).2 (logStep s p).2 := by
  unfold streamStep logStep
  cases p.desc with
  | none => exact ⟨h, List.Forall₂.nil⟩
  | some d =>
    have hmark := h.mark d
    dsimp only
    rw [uvcPayloadHeader_eq]
    by_cases hacc : Accepts p.tblen d
    · have hbyte : (readHeader p.tblen d).getD 1 0 = headerInfo d := readHeader_getD _ d (by omega)
      have hlost := hmark.lost d p.ctx p.src
      have hcount : InMaking ((s.mark d).count d)
          (countPacket st d (readHeader p.tblen d) p.ctx.now) := by
        unfold countPacket
        rw [hbyte]
        exact hmark.count hacc p.ctx.now
      rw [if_pos hacc, if_pos hacc]
      dsimp only
      rw [hbyte]
      by_cases heof : headerInfo d &&& uvcEof ≠ 0
      · have hend : packetEof d = true := decide_eq_true heof
        rw [if_pos heof, if_pos hend]
        exact ⟨inMaking_reset _ _, List.rel_append hlost
          (List.Forall₂.cons (hcount.logged p.ctx p.src true) List.Forall₂.nil)⟩
      · have hend : ¬packetEof d = true := by simpa [packetEof] using heof
        rw [if_neg heof, if_neg hend]
        exact ⟨hcount, hlost⟩
    · rw [if_neg hacc, if_neg hacc]
      exact ⟨hmark, List.Forall₂.nil⟩

/-- **Every frame is logged.**  The frames of a stream are those of the lists, one for
one.
SOURCE: uvc.bpf.c:465-622 -/
theorem frames_logged (ps : List StreamPacket) :
    List.Forall₂ Logged (outputs streamStep {} ps) (frameLogs ps) :=
  (simulate_run (fun st s p h => streamStep_logged st s p h) inMaking_fresh ps).2

/-! ## The segmentation -/

/-- The accepted packets of a stream. -/
def acceptedPackets (ps : List StreamPacket) : List IsoPacket :=
  ps.filterMap fun p => p.desc.filter fun d => Accepts p.tblen d

/-- The packets counted in a frame, as a segment. -/
def FrameLog.segment (l : FrameLog) : Segment IsoPacket := ⟨l.counted, l.ended⟩

/-- **The lists cut like the segmenter.** -/
theorem logStep_select (s : FrameParts) (ps : List StreamPacket) :
    (finalState logStep s ps).counted =
        finalState (segmentStep packetFid packetEof) s.counted (acceptedPackets ps) ∧
      (outputs logStep s ps).map FrameLog.segment =
        outputs (segmentStep packetFid packetEof) s.counted (acceptedPackets ps) := by
  refine select_run FrameParts.counted (fun p => p.desc.filter fun d => Accepts p.tblen d)
    FrameLog.segment (fun s p d hd => ?_) (fun s p hd => ?_) s ps
  · obtain ⟨hdesc, hacc⟩ := Option.filter_eq_some_iff.mp hd
    have hcut : breaksOff (s.mark d) d = cutsOff packetFid s.counted d := rfl
    simp only [logStep, hdesc, if_pos (of_decide_eq_true hacc), segmentStep, segmentWith,
      segmentLost, FrameParts.count, FrameParts.lost, hcut]
    split <;> split <;> exact ⟨rfl, rfl⟩
  · cases hdesc : p.desc with
    | none => simp only [logStep, hdesc, and_self]
    | some d =>
      have hacc : ¬Accepts p.tblen d := by
        rw [hdesc, Option.filter_eq_none_iff] at hd
        simpa using hd d rfl
      simp only [logStep, hdesc, if_neg hacc]
      exact ⟨rfl, trivial⟩

/-- **The frames cut the accepted packets into segments.** -/
theorem logStep_segmentation (ps : List StreamPacket) (s : FrameParts)
    (hs : Unbroken packetFid packetEof s.counted) :
    ∃ rest, Segmentation packetFid packetEof (s.counted ++ acceptedPackets ps)
      ((outputs logStep s ps).map FrameLog.segment) rest := by
  rw [(logStep_select s ps).2]
  exact ⟨_, segmentStep_segmentation hs (acceptedPackets ps)⟩

end UsbTrace.Interface
