import UsbTrace.Interface.Frames
import UsbTrace.Library.Layout

/-!
# The clocks of a frame

What the program makes of the time stamps in payload headers: the presentation time and the
source clock of a frame are those of the headers it reads of the frame's packets, one after
the other (`frames_clock`), each of them that of the last header which has what the program
asks for (`readClock_pts`, `readClock_scr`).
-/

set_option autoImplicit false

namespace UsbTrace.Interface

open UsbTrace.Model UsbTrace.Library

/-! ## Packets with their buffer -/

/-- A packet, with the size of the buffer it came in. -/
structure SeenPacket where
  tblen : UInt32
  desc : IsoPacket

def seenFid (x : SeenPacket) : UInt8 := packetFid x.desc
def seenEof (x : SeenPacket) : Bool := packetEof x.desc

/-- The packet of a stream, where it is accepted. -/
def seenPacket (p : StreamPacket) : Option SeenPacket :=
  (p.desc.filter fun d => Accepts p.tblen d).map fun d => ⟨p.tblen, d⟩

/-- The accepted packets of a stream. -/
def seenPackets (ps : List StreamPacket) : List SeenPacket := ps.filterMap seenPacket

/-- The accepted packets, cut into frames. -/
def frameSegments (ps : List StreamPacket) : List (Segment SeenPacket) :=
  outputs (segmentStep seenFid seenEof) [] (seenPackets ps)

theorem frameSegments_segmentation (ps : List StreamPacket) :
    ∃ rest, Segmentation seenFid seenEof (seenPackets ps) (frameSegments ps) rest :=
  ⟨_, segmentStep_segmentation unbroken_nil (seenPackets ps)⟩

theorem seenPackets_desc (ps : List StreamPacket) :
    (seenPackets ps).map SeenPacket.desc = acceptedPackets ps := by
  rw [seenPackets, List.map_filterMap, acceptedPackets]
  congr 1
  funext p
  rw [seenPacket, Option.map_map]
  exact Option.map_id'

/-! ## Loads -/

/-- The loads read little-endian numbers. -/
theorem uvcLoadLe32_toNat (p : List UInt8) (i : ℕ) :
    (uvcLoadLe32 p i).toNat = leNat ((p.drop i).take 4) := by
  have h0 := (p.getD i 0).toNat_lt
  have h1 := (p.getD (i + 1) 0).toNat_lt
  have h2 := (p.getD (i + 2) 0).toNat_lt
  have h3 := (p.getD (i + 3) 0).toNat_lt
  have ha : ((p.getD i 0).toUInt32 ||| ((p.getD (i + 1) 0).toUInt32 <<< 8)).toNat =
      (p.getD i 0).toNat + (p.getD (i + 1) 0).toNat * 256 :=
    toNat_or_shiftLeft (k := 8) (by decide) (by simpa using h0) (by
      rw [UInt8.toNat_toUInt32]; change _ * 256 < _; omega)
  have hb : ((p.getD i 0).toUInt32 ||| ((p.getD (i + 1) 0).toUInt32 <<< 8) |||
      ((p.getD (i + 2) 0).toUInt32 <<< 16)).toNat =
      (p.getD i 0).toNat + (p.getD (i + 1) 0).toNat * 256 + (p.getD (i + 2) 0).toNat * 65536 := by
    rw [toNat_or_shiftLeft (k := 16) (by decide) (by rw [ha]; change _ < 65536; omega) (by
      rw [UInt8.toNat_toUInt32]; change _ * 65536 < _; omega), ha]
    rfl
  rw [uvcLoadLe32, toNat_or_shiftLeft (k := 24) (by decide)
    (by rw [hb]; change _ < 16777216; omega) (by
      rw [UInt8.toNat_toUInt32]; change _ * 16777216 < _; omega), hb]
  simp only [leNat_take_succ, List.take_zero, leNat, UInt8.toNat_toUInt32, Nat.add_assoc,
    Nat.reduceAdd]
  change _ + (_ + (_ + _ * 16777216)) = _
  omega

theorem uvcLoadLe16_toNat (p : List UInt8) (i : ℕ) :
    (uvcLoadLe16 p i).toNat = leNat ((p.drop i).take 2) := by
  have h0 := (p.getD i 0).toNat_lt
  have h1 := (p.getD (i + 1) 0).toNat_lt
  have hshift : ((p.getD (i + 1) 0).toUInt16 <<< 8).toNat = (p.getD (i + 1) 0).toNat <<< 8 := by
    rw [UInt16.toNat_shiftLeft, UInt8.toNat_toUInt16]
    change (p.getD (i + 1) 0).toNat <<< 8 % 65536 = _
    rw [Nat.shiftLeft_eq]
    omega
  rw [uvcLoadLe16, UInt16.toNat_or, hshift, UInt8.toNat_toUInt16, Nat.or_comm,
    ← Nat.shiftLeft_add_eq_or_of_lt (by simpa using h0)]
  simp only [leNat_take_succ, List.take_zero, leNat, Nat.shiftLeft_eq]
  omega

/-- What is read of a header that ends in the buffer is the packet's; the rest of one that
does not is zeros. -/
theorem leNat_readHeader (tblen : UInt32) (d : IsoPacket) {i n : ℕ} (hi : 2 ≤ i)
    (hn : i + n ≤ 12) :
    leNat (((readHeader tblen d).drop i).take n) =
      if d.offset + 12 ≤ tblen then leNat ((d.payload.drop i).take n) else 0 := by
  unfold readHeader
  split
  · rw [List.drop_take, List.take_take, Nat.min_eq_left (by omega)]
  · have hzero : ∀ l : List UInt8, (∀ b ∈ l, b = 0) → leNat l = 0 := by
      intro l hl
      induction l with
      | nil => rfl
      | cons b l ih =>
        rw [leNat, hl b List.mem_cons_self, ih fun c hc => hl c (List.mem_cons_of_mem _ hc)]
        rfl
    refine hzero _ fun b hb => ?_
    have hlen : (d.payload.take 2).length ≤ i := by
      rw [List.length_take]
      omega
    rw [List.drop_append, List.drop_of_length_le hlen, List.nil_append] at hb
    exact List.eq_of_mem_replicate (List.mem_of_mem_drop (List.mem_of_mem_take hb))

/-! ## The clock of the frame in the making -/

/-- The time stamps of a frame. -/
structure FrameClock where
  pts : UInt32 := 0
  scrStc : UInt32 := 0
  scrSof : UInt16 := 0
deriving DecidableEq, Repr

def streamClock (st : UvcStreamState) : FrameClock := ⟨st.curPts, st.curScrStc, st.curScrSof⟩

def frameClock (e : UvcFrameEvent) : FrameClock := ⟨e.pts, e.scrStc, e.scrSof⟩

/-- What a header that is read leaves of the clock. -/
def noteClock (c : FrameClock) (hdr : List UInt8) : FrameClock :=
  let c := if hdr.getD 1 0 &&& uvcPts ≠ 0 ∧ hdr.getD 0 0 ≥ 6 then
    { c with pts := uvcLoadLe32 hdr 2 } else c
  if hdr.getD 1 0 &&& uvcPts ≠ 0 ∧ hdr.getD 1 0 &&& uvcScr ≠ 0 ∧ hdr.getD 0 0 ≥ 12 then
    { c with scrStc := uvcLoadLe32 hdr 6, scrSof := uvcLoadLe16 hdr 10 } else c

/-- The clock of a frame of the packets. -/
def readClock (s : List SeenPacket) : FrameClock :=
  s.foldl (fun c x => noteClock c (readHeader x.tblen x.desc)) {}

theorem readClock_concat (s : List SeenPacket) (x : SeenPacket) :
    readClock (s ++ [x]) = noteClock (readClock s) (readHeader x.tblen x.desc) := by
  rw [readClock, List.foldl_append]
  rfl

theorem uvcMarkStatus_clock (st : UvcStreamState) (d : IsoPacket) :
    streamClock (uvcMarkStatus st d) = streamClock st := by
  unfold uvcMarkStatus
  split <;> rfl

theorem uvcCountPacket_clock (st : UvcStreamState) (d : IsoPacket) (hdr : List UInt8) :
    streamClock (uvcCountPacket st d hdr) = noteClock (streamClock st) hdr := by
  unfold uvcCountPacket uvcNoteScr uvcNotePts uvcNoteErr uvcAddPayload noteClock streamClock
  split <;> split <;> split <;> rfl

/-- A frame begun anew has no clock yet. -/
theorem placePacket_clock (st : UvcStreamState) (fid : UInt8) (now : UInt64) :
    streamClock (placePacket st fid now) = if fidToggled st fid then {} else streamClock st := by
  unfold placePacket
  cases fidToggled st fid with
  | false =>
    simp only [Bool.false_eq_true, if_false]
    split <;> rfl
  | true => rfl

/-- The segmenter, over the packets of a stream. -/
def seenStep (s : List SeenPacket) (p : StreamPacket) :
    List SeenPacket × List (Segment SeenPacket) :=
  match seenPacket p with
  | none => (s, [])
  | some x => segmentStep seenFid seenEof s x

theorem seenStep_run (s : List SeenPacket) (ps : List StreamPacket) :
    finalState seenStep s ps = finalState (segmentStep seenFid seenEof) s (seenPackets ps) ∧
      outputs seenStep s ps = outputs (segmentStep seenFid seenEof) s (seenPackets ps) := by
  have hseen : ∀ s p x, seenPacket p = some x →
      id (seenStep s p).1 = (segmentStep seenFid seenEof (id s) x).1 ∧
        (seenStep s p).2.map id = (segmentStep seenFid seenEof (id s) x).2 := by
    intro s p x hx
    simp [seenStep, hx]
  have hrun := select_run id seenPacket id hseen (fun s p hp => by simp [seenStep, hp]) s ps
  rwa [List.map_id] at hrun

/-- The packets of the frame in the making, and its clock. -/
structure Clocked (st : UvcStreamState) (s : List SeenPacket) : Prop where
  parts : ∃ parts, InMaking parts st ∧ parts.counted = s.map SeenPacket.desc
  clock : streamClock st = readClock s

theorem clocked_fresh : Clocked {} [] := ⟨⟨{}, inMaking_fresh, rfl⟩, rfl⟩

/-- The lists of a frame count the packets it is made of. -/
theorem logStep_seen {parts : FrameParts} {s : List SeenPacket}
    (h : parts.counted = s.map SeenPacket.desc) (p : StreamPacket) :
    (logStep parts p).1.counted = (seenStep s p).1.map SeenPacket.desc := by
  have hlog := (logStep_select parts [p]).1
  have hseen := (seenStep_run s [p]).1
  have hmap : (finalState (segmentStep seenFid seenEof) s (seenPackets [p])).map SeenPacket.desc =
      finalState (segmentStep packetFid packetEof) (s.map SeenPacket.desc)
        ((seenPackets [p]).map SeenPacket.desc) :=
    (segmentStep_map SeenPacket.desc s (seenPackets [p])).1
  rw [h, ← seenPackets_desc, ← hmap] at hlog
  exact hlog.trans (congrArg (List.map SeenPacket.desc) hseen.symm)

/-- **One packet** on the stream and on the packets of its frame. -/
theorem streamStep_clock (st : UvcStreamState) (s : List SeenPacket) (p : StreamPacket)
    (h : Clocked st s) :
    Clocked (streamStep st p).1 (seenStep s p).1 ∧
      List.Forall₂ (fun e seg => frameClock e = readClock seg.items) (streamStep st p).2
        (seenStep s p).2 := by
  obtain ⟨⟨parts, hmaking, hcounted⟩, hclock⟩ := h
  have hparts : ∃ parts, InMaking parts (streamStep st p).1 ∧
      parts.counted = (seenStep s p).1.map SeenPacket.desc :=
    ⟨_, (streamStep_logged st parts p hmaking).1, logStep_seen hcounted p⟩
  suffices hboth : streamClock (streamStep st p).1 = readClock (seenStep s p).1 ∧
      List.Forall₂ (fun e seg => frameClock e = readClock seg.items) (streamStep st p).2
        (seenStep s p).2 from ⟨⟨hparts, hboth.1⟩, hboth.2⟩
  clear hparts
  unfold streamStep seenStep seenPacket
  cases p.desc with
  | none => exact ⟨hclock, List.Forall₂.nil⟩
  | some d =>
    have hmark : streamClock (uvcMarkStatus st d) = readClock s :=
      (uvcMarkStatus_clock st d).trans hclock
    dsimp only
    rw [uvcPayloadHeader_eq]
    by_cases hacc : Accepts p.tblen d
    · have hseen : ((some d).filter fun d => decide (Accepts p.tblen d)).map
          (fun d => (⟨p.tblen, d⟩ : SeenPacket)) = some ⟨p.tblen, d⟩ := by
        rw [Option.filter_some, if_pos (decide_eq_true hacc), Option.map_some]
      have hbyte : (readHeader p.tblen d).getD 1 0 = headerInfo d := readHeader_getD _ d (by omega)
      have hcut : fidToggled (uvcMarkStatus st d) (headerInfo d &&& uvcFid) =
          cutsOff seenFid s ⟨p.tblen, d⟩ := by
        refine ((hmaking.mark d).breaksOff_eq d).trans ?_
        rw [breaksOff, FrameParts.mark, hcounted, List.any_map]
        rfl
      have hcount : streamClock (countPacket st d (readHeader p.tblen d) p.ctx.now) =
          readClock (segmentWith seenFid s ⟨p.tblen, d⟩) := by
        rw [countPacket, hbyte, uvcCountPacket_clock, placePacket_clock, hcut, hmark,
          segmentWith]
        split
        · rfl
        · exact (readClock_concat s ⟨p.tblen, d⟩).symm
      have hlost : List.Forall₂ (fun e seg => frameClock e = readClock seg.items)
          (lostFrame p.ctx p.src (uvcMarkStatus st d) (headerInfo d &&& uvcFid))
          (segmentLost seenFid s ⟨p.tblen, d⟩) := by
        rw [lostFrame, segmentLost, hcut]
        split
        · exact List.Forall₂.cons hmark List.Forall₂.nil
        · exact List.Forall₂.nil
      rw [if_pos hacc, hseen]
      dsimp only
      rw [hbyte, segmentStep]
      by_cases heof : headerInfo d &&& uvcEof ≠ 0
      · have hend : seenEof ⟨p.tblen, d⟩ = true := decide_eq_true heof
        rw [if_pos heof, if_pos hend]
        exact ⟨rfl, List.rel_append hlost (List.Forall₂.cons hcount List.Forall₂.nil)⟩
      · have hend : ¬seenEof ⟨p.tblen, d⟩ = true := by simpa [seenEof, packetEof] using heof
        rw [if_neg heof, if_neg hend]
        exact ⟨hcount, hlost⟩
    · have hskip : ((some d).filter fun d => decide (Accepts p.tblen d)).map
          (fun d => (⟨p.tblen, d⟩ : SeenPacket)) = none := by
        rw [Option.filter_some, if_neg (by simpa using hacc), Option.map_none]
      rw [if_neg hacc, hskip]
      exact ⟨hmark, List.Forall₂.nil⟩

/-- **The clock of every frame** is what is read of its packets.
SOURCE: uvc.bpf.c:571-617 -/
theorem frames_clock (ps : List StreamPacket) :
    List.Forall₂ (fun e seg => frameClock e = readClock seg.items) (outputs streamStep {} ps)
      (frameSegments ps) := by
  have hrun := (simulate_run (fun st s p h => streamStep_clock st s p h) clocked_fresh ps).2
  rwa [(seenStep_run [] ps).2] at hrun

end UsbTrace.Interface
