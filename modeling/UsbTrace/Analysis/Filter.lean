import UsbTrace.Analysis.Isolation
import UsbTrace.Interface.Stream
import UsbTrace.Model.Session

/-!
# Filtering by device

The probes drop a hook of a device whose descriptor ids do not match the filter, and the
ids read 0 until the descriptor has been fetched.  So a filtered session reports for a
device what the unfiltered one reports with the dropped hooks of that device left out
(`filter_drops`), and no more than that: an enumeration that stalls before the descriptor
is there goes unreported (`filter_changes_findings`).
-/

set_option autoImplicit false

namespace UsbTrace.Analysis

open UsbTrace.Model UsbTrace.Library UsbTrace.Interface

/-! ## What the filter drops -/

/-- A hook of the device that the filter drops. -/
def filteredOut (cfg : FilterConfig) (k : DiagDevkey) : SessionOp → Bool
  | .hook ev _ => decide (ev.dev.key = k) && !passes cfg ev.dev
  | _ => false

/-- A session without the hooks of one device that the filter drops. -/
def withoutDropped (cfg : FilterConfig) (k : DiagDevkey) (ops : List SessionOp) :
    List SessionOp := ops.filter fun op => !filteredOut cfg k op

/-- The `idVendor` the last hook of a device reads. -/
def lastVendor (k : DiagDevkey) (ops : List SessionOp) : Option UInt16 :=
  ops.foldl (fun v op => match op with
    | .hook ev _ => if ev.dev.key = k then some ev.dev.idVendor else v
    | _ => v) none

/-! ## One hook -/

/-- A hook of a device that does not pass emits nothing. -/
theorem probeStep_dropped {cfg : FilterConfig} {ev : KernelEvent}
    (h : passes cfg ev.dev = false) (m : ProbeMaps) : (probeStep cfg m ev).2 = [] := by
  have hmatch := devMatch_of_not_passes h
  cases hcall : ev.call with
  | videoComplete urb =>
    simp only [probeStep, hcall, onVideoComplete, usbtraceClassUrbEmit, hmatch,
      uvcParseFrames_dropped h]
    rfl
  | _ =>
    simp [probeStep, hcall, emitEnum, lifecycleEmit, powerEmit, hubEmitDev,
      usbtraceClassUrbEmit, onSubmit, onGiveback, hmatch]

/-- The key of the stream a hook's URB belongs to. -/
def hookStream (ev : KernelEvent) (urb : Urb) : UInt32 := (uvcSource ev.dev urb).key

/-- What the probes look up for a hook is the same in both maps. -/
structure SameLookups (m m' : ProbeMaps) (ev : KernelEvent) : Prop where
  giveback : ∀ urb status, ev.call = .giveback urb status →
    m.startTs.lookup urb.ptr = m'.startTs.lookup urb.ptr
  room : ∀ urb, ev.call = .videoComplete urb → m.uvc.streams.HasRoom (hookStream ev urb)
  room' : ∀ urb, ev.call = .videoComplete urb → m'.uvc.streams.HasRoom (hookStream ev urb)
  stream : ∀ urb, ev.call = .videoComplete urb →
    m.uvc.streams.lookup (hookStream ev urb) = m'.uvc.streams.lookup (hookStream ev urb)
  unbound : m.uvc.vb2DevQueue = BoundedMap.empty
  unbound' : m'.uvc.vb2DevQueue = BoundedMap.empty

/-- The frames of a completion, given the same stream. -/
theorem uvcParseFrames_same {cfg : FilterConfig} {m m' : UvcMaps} {dev : UsbDevice} {urb : Urb}
    (h : passes cfg dev = true) (hroom : m.streams.HasRoom (uvcSource dev urb).key)
    (hroom' : m'.streams.HasRoom (uvcSource dev urb).key)
    (hsame : m.streams.lookup (uvcSource dev urb).key = m'.streams.lookup (uvcSource dev urb).key)
    (hq : m.vb2DevQueue = BoundedMap.empty) (hq' : m'.vb2DevQueue = BoundedMap.empty)
    (ctx : HookCtx) :
    (uvcParseFrames cfg ctx m dev urb).2 = (uvcParseFrames {} ctx m' dev urb).2 ∧
      (uvcParseFrames cfg ctx m dev urb).1.streams.lookup (uvcSource dev urb).key =
        (uvcParseFrames {} ctx m' dev urb).1.streams.lookup (uvcSource dev urb).key := by
  obtain ⟨hst, hout⟩ := uvcParseFrames_stream h hroom ctx
  obtain ⟨hst', hout'⟩ := uvcParseFrames_stream (passes_any dev) hroom' ctx
  have hat : streamAt m (uvcSource dev urb).key = streamAt m' (uvcSource dev urb).key := by
    rw [streamAt, streamAt, hsame]
  refine ⟨?_, ?_⟩
  · rw [(uvcParseFrames_unbound cfg ctx hq dev urb).frames,
      (uvcParseFrames_unbound {} ctx hq' dev urb).frames, hout, hout', hat]
  · rw [hst, hst', hat]

/-- A hook of a device that passes emits what it emits without a filter, where the probes
look up the same. -/
theorem probeStep_passed {cfg : FilterConfig} {m m' : ProbeMaps} {ev : KernelEvent}
    (h : passes cfg ev.dev = true) (hs : SameLookups m m' ev) :
    (probeStep cfg m ev).2 = (probeStep {} m' ev).2 := by
  have hmatch := devMatch_of_passes h
  have hany := devMatch_of_passes (passes_any ev.dev)
  cases hcall : ev.call with
  | giveback urb status =>
    simp [probeStep, hcall, onGiveback, hmatch, hany, hs.giveback urb status hcall]
  | videoComplete urb =>
    have hframes := (uvcParseFrames_same h (hs.room urb hcall) (hs.room' urb hcall)
      (hs.stream urb hcall) hs.unbound hs.unbound' ev.toHookCtx).1
    simp only [probeStep, hcall, onVideoComplete, usbtraceClassUrbEmit, hmatch, hany, hframes]
  | _ =>
    simp [probeStep, hcall, emitEnum, lifecycleEmit, powerEmit, hubEmitDev,
      usbtraceClassUrbEmit, onSubmit, hmatch, hany]

/-- A record is filed under the device of its hook. -/
theorem probeStep_key {cfg : FilterConfig} {m : ProbeMaps} {ev : KernelEvent} {r : Record}
    (hm : m.uvc.vb2DevQueue = BoundedMap.empty) (h : r ∈ (probeStep cfg m ev).2) :
    diagEventKey r.event = ev.dev.key := by
  cases hp : passes cfg ev.dev with
  | false =>
    rw [probeStep_dropped hp] at h
    cases h
  | true =>
    have hmatch := devMatch_of_passes hp
    cases hcall : ev.call with
    | newDevice ret =>
      simp only [probeStep, hcall, lifecycleEmit, hmatch] at h
      split at h
      · cases h
      · cases List.mem_singleton.mp h
        rfl
    | submit urb =>
      simp only [probeStep, hcall, onSubmit, hmatch] at h
      cases List.mem_singleton.mp h
      rfl
    | giveback urb status =>
      simp only [probeStep, hcall, onGiveback, hmatch] at h
      cases List.mem_singleton.mp h
      rfl
    | videoComplete urb =>
      simp only [probeStep, hcall, onVideoComplete, usbtraceClassUrbEmit, hmatch] at h
      rcases List.mem_append.mp h with h | h
      · cases List.mem_singleton.mp h
        rfl
      · rw [(uvcParseFrames_unbound cfg ev.toHookCtx hm ev.dev urb).frames] at h
        obtain ⟨e, he, rfl⟩ := List.mem_map.mp h
        obtain ⟨-, -, hbus, hdev, -⟩ := uvcParseFrames_source he
        change (⟨e.busnum, e.devnum⟩ : DiagDevkey) = ev.dev.key
        rw [hbus, hdev]
        rfl
    | _ =>
      simp only [probeStep, hcall, emitEnum, lifecycleEmit, powerEmit, hubEmitDev,
        usbtraceClassUrbEmit, hmatch] at h
      cases List.mem_singleton.mp h
      rfl

/-- The submit times after a hook. -/
theorem probeStep_startTs (cfg : FilterConfig) (m : ProbeMaps) (ev : KernelEvent) :
    (probeStep cfg m ev).1.startTs = match ev.call with
      | .submit urb => if passes cfg ev.dev then m.startTs.update urb.ptr ev.now else m.startTs
      | .giveback urb _ => m.startTs.delete urb.ptr
      | _ => m.startTs := by
  cases hcall : ev.call with
  | submit urb =>
    cases hp : passes cfg ev.dev with
    | false => simp [probeStep, hcall, onSubmit, devMatch_of_not_passes hp]
    | true => simp [probeStep, hcall, onSubmit, devMatch_of_passes hp]
  | giveback urb status =>
    cases hp : passes cfg ev.dev with
    | false => simp [probeStep, hcall, onGiveback, devMatch_of_not_passes hp]
    | true => simp [probeStep, hcall, onGiveback, devMatch_of_passes hp]
  | _ => simp [probeStep, hcall]

/-- The uvc maps after a hook. -/
theorem probeStep_uvc (cfg : FilterConfig) (m : ProbeMaps) (ev : KernelEvent) :
    (probeStep cfg m ev).1.uvc = match ev.call with
      | .videoComplete urb => (uvcParseFrames cfg ev.toHookCtx m.uvc ev.dev urb).1
      | _ => m.uvc := by
  cases hcall : ev.call <;> simp [probeStep, hcall, onVideoComplete]

/-- No hook of a device binds a queue. -/
theorem probeStep_unbound {m : ProbeMaps} (hm : m.uvc.vb2DevQueue = BoundedMap.empty)
    (cfg : FilterConfig) (ev : KernelEvent) :
    (probeStep cfg m ev).1.uvc.vb2DevQueue = BoundedMap.empty := by
  rw [probeStep_uvc]
  split
  · exact (uvcParseFrames_unbound cfg ev.toHookCtx hm ev.dev _).queue
  · exact hm

/-! ## URBs in flight -/

/-- Where an URB stands, from the hooks on its pointer: not seen yet, submitted for a
device that passed or did not pass the filter, or given back. -/
inductive UrbState where
  | unseen
  | inFlight (dev : DiagDevkey) (passed : Bool)
  | done
deriving DecidableEq

/-- The states of the URBs after a step of a session. -/
def urbStep (cfg : FilterConfig) (st : UInt64 → UrbState) : SessionOp → UInt64 → UrbState
  | .hook ev _ => match ev.call with
    | .submit urb => Function.update st urb.ptr (.inFlight ev.dev.key (passes cfg ev.dev))
    | .giveback urb _ => Function.update st urb.ptr .done
    | _ => st
  | _ => st

/-- A giveback of the device ends its own submission, under the same answer of the filter,
or one made before the session began. -/
def EndsSubmission (cfg : FilterConfig) (k : DiagDevkey) (st : UInt64 → UrbState) :
    SessionOp → Prop
  | .hook ev _ => match ev.call with
    | .giveback urb _ => ev.dev.key = k →
      st urb.ptr = .unseen ∨ st urb.ptr = .inFlight k (passes cfg ev.dev)
    | _ => True
  | _ => True

/-- Every giveback of the device ends its own submission. -/
def UrbsPaired (cfg : FilterConfig) (k : DiagDevkey) (ops : List SessionOp) : Prop :=
  EveryStep (fun st op => (urbStep cfg st op, ([] : List Unit))) (EndsSubmission cfg k)
    (fun _ => .unseen) ops

/-- A submission of the device that passes the filter finds room in `start_ts`, and a
completion in `streams`. -/
def FindsRoom (cfg : FilterConfig) (k : DiagDevkey) (s : SessionState) : SessionOp → Prop
  | .hook ev _ => ev.dev.key = k → passes cfg ev.dev = true → match ev.call with
    | .submit urb => s.maps.startTs.HasRoom urb.ptr
    | .videoComplete urb => s.maps.uvc.streams.HasRoom (hookStream ev urb)
    | _ => True
  | _ => True

/-- The maps of the probes have room for the device. -/
def RoomFor (cfg : FilterConfig) (room : ℕ → ℕ → Bool) (k : DiagDevkey) (ops : List SessionOp) :
    Prop :=
  EveryStep (sessionStep cfg room) (FindsRoom cfg k) SessionState.start ops

/-- A hook of the device finds room for its records in the module's `events` map. -/
def KeepsRecords (cfg : FilterConfig) (room : ℕ → ℕ → Bool) (k : DiagDevkey) (s : SessionState) :
    SessionOp → Prop
  | .hook ev _ => ev.dev.key = k →
    ∀ i < (probeStep cfg s.maps ev).2.length, room s.hooks i = true
  | _ => True

/-- No record of the device is dropped at a full map. -/
def NoRecordLost (cfg : FilterConfig) (room : ℕ → ℕ → Bool) (k : DiagDevkey)
    (ops : List SessionOp) : Prop :=
  EveryStep (sessionStep cfg room) (KeepsRecords cfg room k) SessionState.start ops

/-- A hook of a USB device, whose number fits a byte, and not a videobuf2 tracepoint: those
name no device. -/
def NamesDevice : SessionOp → Prop
  | .hook ev _ => ev.dev.key.devnum.toNat < 256
  | .vb2 .. => False
  | _ => True

/-! ## Two sessions -/

/-- The record is filed under the device. -/
def Pending.ofKey (k : DiagDevkey) (p : Pending) : Bool := decide (diagEventKey p.record.event = k)

/-- Two submit-time maps agree on the URBs of the device that passed, and hold nothing of
an URB not seen yet. -/
def StampsAgree (k : DiagDevkey) (st : UInt64 → UrbState) (m m' : StartTs) : Prop :=
  ∀ p, (st p = .unseen → m.lookup p = none ∧ m'.lookup p = none) ∧
    (st p = .inFlight k true → m.lookup p = m'.lookup p)

/-- Two sessions agree on a device: on the submit times of its URBs, on its streams and on
its records still to be drained. -/
structure SessionsAgree (k : DiagDevkey) (st : UInt64 → UrbState) (s s' : SessionState) :
    Prop where
  stamps : StampsAgree k st s.maps.startTs s'.maps.startTs
  streams : ∀ src : UvcSource, (⟨src.bus, src.devnum⟩ : DiagDevkey) = k →
    src.devnum.toNat < 256 →
    s.maps.uvc.streams.lookup src.key = s'.maps.uvc.streams.lookup src.key
  unbound : s.maps.uvc.vb2DevQueue = BoundedMap.empty
  unbound' : s'.maps.uvc.vb2DevQueue = BoundedMap.empty
  pending : s.pending.filter (Pending.ofKey k) = s'.pending.filter (Pending.ofKey k)

/-- Before the session there is nothing to disagree on. -/
theorem sessionsAgree_start (k : DiagDevkey) :
    SessionsAgree k (fun _ => .unseen) SessionState.start SessionState.start where
  stamps _ := ⟨fun _ => ⟨rfl, rfl⟩, fun _ => rfl⟩
  streams _ _ _ := rfl
  unbound := rfl
  unbound' := rfl
  pending := rfl

/-! ### Submit times -/

/-- A hook leaves the submit times of the other URBs alone. -/
theorem startTs_lookup_of_ne {cfg : FilterConfig} {m : ProbeMaps} {ev : KernelEvent}
    {p q : UInt64} (hp : ∀ urb, ev.call = .submit urb → urb.ptr = p)
    (hp' : ∀ urb status, ev.call = .giveback urb status → urb.ptr = p) (hq : q ≠ p) :
    (probeStep cfg m ev).1.startTs.lookup q = m.startTs.lookup q := by
  rw [probeStep_startTs]
  split
  · next urb hcall =>
    split
    · exact BoundedMap.lookup_update_of_ne _ (hp urb hcall ▸ hq) _
    · rfl
  · next urb status hcall =>
    exact BoundedMap.lookup_delete_of_ne _ (hp' urb status hcall ▸ hq)
  · rfl

/-- The maps go on agreeing when one URB changes its state, if they agree on it where the
new state asks for it. -/
theorem StampsAgree.touch {k : DiagDevkey} {st : UInt64 → UrbState} {m m' n n' : StartTs}
    (h : StampsAgree k st m m') {p : UInt64} {u : UrbState}
    (hn : ∀ q, q ≠ p → n.lookup q = m.lookup q)
    (hn' : ∀ q, q ≠ p → n'.lookup q = m'.lookup q) (hu : u ≠ .unseen)
    (hself : u = .inFlight k true → n.lookup p = n'.lookup p) :
    StampsAgree k (Function.update st p u) n n' := by
  intro q
  by_cases hq : q = p
  · subst hq
    rw [Function.update_self]
    exact ⟨fun h => absurd h hu, hself⟩
  · rw [Function.update_of_ne hq, hn q hq, hn' q hq]
    exact h q

/-- A dropped hook of the device, seen by the filtered session only. -/
theorem StampsAgree.dropped {cfg : FilterConfig} {k : DiagDevkey} {st : UInt64 → UrbState}
    {m : ProbeMaps} {n : StartTs} (h : StampsAgree k st m.startTs n) {ev : KernelEvent}
    (clock : ℕ → ℕ → UInt64) (hp : passes cfg ev.dev = false) :
    StampsAgree k (urbStep cfg st (.hook ev clock)) (probeStep cfg m ev).1.startTs n := by
  cases hcall : ev.call with
  | submit urb =>
    simp only [urbStep, hcall]
    refine h.touch (fun q hq => startTs_lookup_of_ne ?_ ?_ hq) (fun _ _ => rfl)
      (by simp) (by simp [hp])
    · simp [hcall]
    · simp [hcall]
  | giveback urb status =>
    simp only [urbStep, hcall]
    refine h.touch (fun q hq => startTs_lookup_of_ne ?_ ?_ hq) (fun _ _ => rfl)
      (by simp) (by simp)
    · simp [hcall]
    · simp [hcall]
  | _ =>
    rw [probeStep_startTs]
    simpa [urbStep, hcall] using h

/-- A hook that both sessions see. -/
theorem StampsAgree.kept {cfg : FilterConfig} {k : DiagDevkey} {st : UInt64 → UrbState}
    {s s' : SessionState} (h : StampsAgree k st s.maps.startTs s'.maps.startTs)
    {ev : KernelEvent} {clock : ℕ → ℕ → UInt64} (hroom : FindsRoom cfg k s (.hook ev clock))
    (hroom' : FindsRoom {} k s' (.hook ev clock)) :
    StampsAgree k (urbStep cfg st (.hook ev clock)) (probeStep cfg s.maps ev).1.startTs
      (probeStep {} s'.maps ev).1.startTs := by
  cases hcall : ev.call with
  | submit urb =>
    simp only [urbStep, hcall]
    refine h.touch (fun q hq => startTs_lookup_of_ne ?_ ?_ hq)
      (fun q hq => startTs_lookup_of_ne ?_ ?_ hq) (by simp) fun hs => ?_
    any_goals simp [hcall]
    obtain ⟨hk, hp⟩ : ev.dev.key = k ∧ passes cfg ev.dev = true := by simpa using hs
    simp only [FindsRoom, hcall] at hroom hroom'
    simp only [probeStep_startTs, hcall, hp, passes_any, if_true]
    rw [BoundedMap.lookup_update_self (hroom hk hp),
      BoundedMap.lookup_update_self (hroom' hk (passes_any ev.dev))]
  | giveback urb status =>
    simp only [urbStep, hcall]
    refine h.touch (fun q hq => startTs_lookup_of_ne ?_ ?_ hq)
      (fun q hq => startTs_lookup_of_ne ?_ ?_ hq) (by simp) (by simp)
    all_goals simp [hcall]
  | _ =>
    rw [probeStep_startTs, probeStep_startTs]
    simpa [urbStep, hcall] using h

/-! ### Streams -/

/-- A hook of another device leaves the device's streams alone. -/
theorem streams_other (cfg : FilterConfig) (m : ProbeMaps) {ev : KernelEvent} {src : UvcSource}
    (hdev : ev.dev.key.devnum.toNat < 256) (hsrc : src.devnum.toNat < 256)
    (hne : ev.dev.key ≠ ⟨src.bus, src.devnum⟩) :
    (probeStep cfg m ev).1.uvc.streams.lookup src.key = m.uvc.streams.lookup src.key := by
  rw [probeStep_uvc]
  split
  · next urb _ =>
    refine uvcParseFrames_other cfg ev.toHookCtx m.uvc ev.dev urb fun hkey => hne ?_
    obtain ⟨hbus, hdevnum, -⟩ := uvcStreamKey_inj hsrc hdev hkey
    rw [hbus, hdevnum]
    rfl
  · rfl

/-- A dropped hook leaves every stream alone. -/
theorem streams_dropped {cfg : FilterConfig} {ev : KernelEvent} (h : passes cfg ev.dev = false)
    (m : ProbeMaps) : (probeStep cfg m ev).1.uvc = m.uvc := by
  rw [probeStep_uvc]
  split
  · rw [uvcParseFrames_dropped h]
  · rfl

/-- A hook of the device that both sessions see. -/
theorem streams_kept {cfg : FilterConfig} {k : DiagDevkey} {st : UInt64 → UrbState}
    {s s' : SessionState} (h : SessionsAgree k st s s') {ev : KernelEvent}
    (hp : passes cfg ev.dev = true) (hs : SameLookups s.maps s'.maps ev) {src : UvcSource}
    (hsrc : (⟨src.bus, src.devnum⟩ : DiagDevkey) = k) (hlt : src.devnum.toNat < 256) :
    (probeStep cfg s.maps ev).1.uvc.streams.lookup src.key =
      (probeStep {} s'.maps ev).1.uvc.streams.lookup src.key := by
  rw [probeStep_uvc, probeStep_uvc]
  split
  · next urb hcall =>
    by_cases hkey : src.key = (uvcSource ev.dev urb).key
    · rw [hkey]
      exact (uvcParseFrames_same hp (hs.room urb hcall) (hs.room' urb hcall)
        (hs.stream urb hcall) hs.unbound hs.unbound' ev.toHookCtx).2
    · rw [uvcParseFrames_other _ _ _ _ _ hkey, uvcParseFrames_other _ _ _ _ _ hkey]
      exact h.streams src hsrc hlt
  · exact h.streams src hsrc hlt

/-! ### Steps -/

/-- In sessions that agree on a device, its hooks look up the same. -/
theorem SessionsAgree.sameLookups {cfg : FilterConfig} {k : DiagDevkey} {st : UInt64 → UrbState}
    {s s' : SessionState} (h : SessionsAgree k st s s') {ev : KernelEvent}
    {clock : ℕ → ℕ → UInt64} (hk : ev.dev.key = k) (hp : passes cfg ev.dev = true)
    (hlt : ev.dev.key.devnum.toNat < 256) (hends : EndsSubmission cfg k st (.hook ev clock))
    (hroom : FindsRoom cfg k s (.hook ev clock))
    (hroom' : FindsRoom {} k s' (.hook ev clock)) : SameLookups s.maps s'.maps ev where
  giveback urb status hcall := by
    simp only [EndsSubmission, hcall] at hends
    rcases hends hk with hst | hst
    · obtain ⟨hm, hm'⟩ := (h.stamps urb.ptr).1 hst
      rw [hm, hm']
    · exact (h.stamps urb.ptr).2 (by rw [hst, hp])
  room urb hcall := by
    have hroom := hroom hk hp
    simpa only [hcall] using hroom
  room' urb hcall := by
    have hroom' := hroom' hk (passes_any ev.dev)
    simpa only [hcall] using hroom'
  stream urb _ := h.streams _ hk hlt
  unbound := h.unbound
  unbound' := h.unbound'

/-- The records a hook of another device adds are not the device's. -/
theorem enqueue_other {k : DiagDevkey} {rs : List Record}
    (h : ∀ r ∈ rs, diagEventKey r.event ≠ k) (room : ℕ → Bool) (source : Source)
    (clock : ℕ → ℕ → UInt64) :
    (enqueue room source clock rs).filter (Pending.ofKey k) = [] := by
  refine List.filter_eq_nil_iff.mpr fun p hp => ?_
  obtain ⟨⟨r, i⟩, hr, rfl⟩ := List.mem_map.mp hp
  simpa [Pending.ofKey] using h r (List.fst_mem_of_mem_zipIdx (List.mem_of_mem_filter hr))

/-- Records that all find room wait in the map. -/
theorem enqueue_kept {room : ℕ → Bool} {rs : List Record} (h : ∀ i < rs.length, room i = true)
    (source : Source) (clock : ℕ → ℕ → UInt64) :
    enqueue room source clock rs = rs.zipIdx.map fun r => ⟨source, r.1, clock r.2⟩ := by
  rw [enqueue, List.filter_eq_self.mpr]
  intro r hr
  have hlt := List.snd_lt_of_mem_zipIdx hr
  exact h r.2 (by omega)

/-- A hook the filter drops changes nothing the sessions agree on. -/
theorem SessionsAgree.dropped {cfg : FilterConfig} {k : DiagDevkey} {st : UInt64 → UrbState}
    {s s' : SessionState} (h : SessionsAgree k st s s') {ev : KernelEvent}
    (room : ℕ → ℕ → Bool) (clock : ℕ → ℕ → UInt64) (hp : passes cfg ev.dev = false) :
    SessionsAgree k (urbStep cfg st (.hook ev clock)) (sessionStep cfg room s (.hook ev clock)).1
      s' where
  stamps := h.stamps.dropped clock hp
  streams src hsrc hlt := by
    simp only [sessionStep, streams_dropped hp]
    exact h.streams src hsrc hlt
  unbound := probeStep_unbound h.unbound cfg ev
  unbound' := h.unbound'
  pending := by
    simp only [sessionStep, probeStep_dropped hp, enqueue, List.zipIdx_nil, List.filter_nil,
      List.map_nil, List.append_nil]
    exact h.pending

/-- A hook both sessions see keeps them in agreement. -/
theorem SessionsAgree.kept {cfg : FilterConfig} {k : DiagDevkey} {st : UInt64 → UrbState}
    {s s' : SessionState} (h : SessionsAgree k st s s') {ev : KernelEvent}
    {clock : ℕ → ℕ → UInt64} (hkept : filteredOut cfg k (.hook ev clock) = false)
    (hlt : ev.dev.key.devnum.toNat < 256) (hends : EndsSubmission cfg k st (.hook ev clock))
    (hroom : FindsRoom cfg k s (.hook ev clock))
    (hroom' : FindsRoom {} k s' (.hook ev clock)) {room room' : ℕ → ℕ → Bool}
    (hrecs : KeepsRecords cfg room k s (.hook ev clock))
    (hrecs' : KeepsRecords {} room' k s' (.hook ev clock)) :
    SessionsAgree k (urbStep cfg st (.hook ev clock)) (sessionStep cfg room s (.hook ev clock)).1
      (sessionStep {} room' s' (.hook ev clock)).1 where
  stamps := h.stamps.kept hroom hroom'
  streams src hsrc hsmall := by
    by_cases hk : ev.dev.key = k
    · have hp : passes cfg ev.dev = true := by simpa [filteredOut, hk] using hkept
      exact streams_kept h hp (h.sameLookups hk hp hlt hends hroom hroom') hsrc hsmall
    · have hne : ev.dev.key ≠ ⟨src.bus, src.devnum⟩ := hsrc ▸ hk
      simp only [sessionStep, streams_other _ _ hlt hsmall hne]
      exact h.streams src hsrc hsmall
  unbound := probeStep_unbound h.unbound cfg ev
  unbound' := probeStep_unbound h.unbound' {} ev
  pending := by
    simp only [sessionStep, List.filter_append, h.pending]
    congr 1
    by_cases hk : ev.dev.key = k
    · have hp : passes cfg ev.dev = true := by simpa [filteredOut, hk] using hkept
      rw [enqueue_kept (hrecs hk), enqueue_kept (hrecs' hk),
        probeStep_passed hp (h.sameLookups hk hp hlt hends hroom hroom')]
    · rw [enqueue_other fun r hr => probeStep_key h.unbound hr ▸ hk,
        enqueue_other fun r hr => probeStep_key h.unbound' hr ▸ hk]

/-- Draining a module's map keeps the sessions in agreement, and tells the engine the same
about the device. -/
theorem SessionsAgree.drain {k : DiagDevkey} {st : UInt64 → UrbState} {s s' : SessionState}
    (h : SessionsAgree k st s s') (cfg cfg' : FilterConfig) (room room' : ℕ → ℕ → Bool)
    (source : Source) :
    SessionsAgree k st (sessionStep cfg room s (.drain source)).1
        (sessionStep cfg' room' s' (.drain source)).1 ∧
      (sessionStep cfg room s (.drain source)).2.filter (concerns k) =
        (sessionStep cfg' room' s' (.drain source)).2.filter (concerns k) := by
  have hcomm : ∀ (ps : List Pending) (f : Pending → Bool),
      (ps.filter f).filter (Pending.ofKey k) = (ps.filter (Pending.ofKey k)).filter f :=
    fun ps f => List.filter_comm _ _ _
  have hingest : ∀ ps : List Pending,
      (ps.map Pending.ingest).filter (concerns k) =
        (ps.filter (Pending.ofKey k)).map Pending.ingest :=
    fun ps => List.filter_map
  refine ⟨⟨h.stamps, h.streams, h.unbound, h.unbound', ?_⟩, ?_⟩
  · simp only [sessionStep, hcomm, h.pending]
  · simp only [sessionStep, hingest, hcomm, h.pending]

/-! ### Runs -/

/-- **The filtered session simulates the unfiltered one** on the device: from sessions that
agree, the engine hears the same about it. -/
theorem outputs_withoutDropped (cfg : FilterConfig) (room room' : ℕ → ℕ → Bool)
    (k : DiagDevkey) (ops : List SessionOp) (hdev : ∀ op ∈ ops, NamesDevice op)
    (st : UInt64 → UrbState) (s s' : SessionState) (h : SessionsAgree k st s s')
    (hends : EveryStep (fun st op => (urbStep cfg st op, ([] : List Unit)))
      (EndsSubmission cfg k) st ops)
    (hroom : EveryStep (sessionStep cfg room) (FindsRoom cfg k) s ops)
    (hroom' : EveryStep (sessionStep {} room') (FindsRoom {} k) s' (withoutDropped cfg k ops))
    (hrecs : EveryStep (sessionStep cfg room) (KeepsRecords cfg room k) s ops)
    (hrecs' : EveryStep (sessionStep {} room') (KeepsRecords {} room' k) s'
      (withoutDropped cfg k ops)) :
    (outputs (sessionStep cfg room) s ops).filter (concerns k) =
      (outputs (sessionStep {} room') s' (withoutDropped cfg k ops)).filter (concerns k) := by
  induction ops generalizing st s s' with
  | nil => rfl
  | cons op ops ih =>
    obtain ⟨hend, hends⟩ := hends
    obtain ⟨hr, hroom⟩ := hroom
    obtain ⟨hq, hrecs⟩ := hrecs
    have hop := hdev op List.mem_cons_self
    replace hdev : ∀ op ∈ ops, NamesDevice op :=
      fun op hop => hdev op (List.mem_cons_of_mem _ hop)
    rw [outputs_cons, List.filter_append]
    cases hdrop : filteredOut cfg k op with
    | true =>
      -- the unfiltered session does not see this hook at all
      have hcons : withoutDropped cfg k (op :: ops) = withoutDropped cfg k ops := by
        simp [withoutDropped, hdrop]
      rw [hcons] at hroom' hrecs' ⊢
      cases op with
      | hook ev clock =>
        have hp : passes cfg ev.dev = false := by
          simp only [filteredOut, Bool.and_eq_true, Bool.not_eq_true'] at hdrop
          exact hdrop.2
        exact ih hdev _ _ s' (h.dropped room clock hp) hends hroom hroom' hrecs hrecs'
      | vb2 ctx call clock => cases hdrop
      | drain source => cases hdrop
      | tick nowNs => cases hdrop
    | false =>
      have hcons : withoutDropped cfg k (op :: ops) = op :: withoutDropped cfg k ops := by
        simp [withoutDropped, hdrop]
      rw [hcons] at hroom' hrecs' ⊢
      obtain ⟨hr', hroom'⟩ := hroom'
      obtain ⟨hq', hrecs'⟩ := hrecs'
      rw [outputs_cons, List.filter_append]
      cases op with
      | hook ev clock =>
        congr 1
        exact ih hdev _ _ _ (h.kept hdrop hop hend hr hr' hq hq') hends hroom hroom' hrecs hrecs'
      | vb2 ctx call clock => exact hop.elim
      | drain source =>
        obtain ⟨hagree, hout⟩ := h.drain cfg {} room room' source
        rw [hout]
        congr 1
        exact ih hdev _ _ _ hagree hends hroom hroom' hrecs hrecs'
      | tick nowNs =>
        congr 1
        exact ih hdev st s s' h hends hroom hroom' hrecs hrecs'

/-! ## Findings -/

/-- **What a filter drops.**  A filtered session reports for a device what the unfiltered
one reports with the hooks of the device that do not match left out; where every hook of
the device matches, that is all the unfiltered session reports for it.  The maps have room
for the device in both sessions, whatever records of other devices each of them loses.
SOURCE: filter.bpf.h:17-31, events.bpf.h:46-55, engine.c:562-661 -/
theorem filter_drops (cfg : FilterConfig) (room room' : ℕ → ℕ → Bool) (rules : List DiagRule)
    (k : DiagDevkey) (ops : List SessionOp) (hdev : ∀ op ∈ ops, NamesDevice op)
    (hurbs : UrbsPaired cfg k ops)
    (hroom : RoomFor cfg room k ops) (hroom' : RoomFor {} room' k (withoutDropped cfg k ops))
    (hrecs : NoRecordLost cfg room k ops)
    (hrecs' : NoRecordLost {} room' k (withoutDropped cfg k ops))
    (hrec : NoRecycling rules (sessionOps cfg room ops))
    (hrec' : NoRecycling rules (sessionOps {} room' (withoutDropped cfg k ops))) :
    (sessionFindings cfg room rules ops).filter (ofDevice k) =
        (sessionFindings {} room' rules (withoutDropped cfg k ops)).filter (ofDevice k) ∧
      ((∀ ev clock, .hook ev clock ∈ ops → ev.dev.key = k → passes cfg ev.dev = true) →
        (sessionFindings cfg room rules ops).filter (ofDevice k) =
          (sessionFindings {} room' rules ops).filter (ofDevice k)) := by
  have hsame := outputs_withoutDropped cfg room room' k ops hdev _ _ _ (sessionsAgree_start k)
    hurbs hroom hroom' hrecs hrecs'
  have hfind : (sessionFindings cfg room rules ops).filter (ofDevice k) =
      (sessionFindings {} room' rules (withoutDropped cfg k ops)).filter (ofDevice k) := by
    rw [sessionFindings, sessionFindings, (engineAfter_project rules k _ hrec).2,
      (engineAfter_project rules k _ hrec').2]
    exact congrArg (outputs (deviceStep rules k) none) hsame
  refine ⟨hfind, fun hall => ?_⟩
  have hops : withoutDropped cfg k ops = ops := by
    refine List.filter_eq_self.mpr fun op hop => ?_
    cases op with
    | hook ev clock =>
      by_cases hk : ev.dev.key = k
      · simp [filteredOut, hk, hall ev clock hop hk]
      · simp [filteredOut, hk]
    | _ => rfl
  rw [hops] at hfind
  exact hfind

/-- ADDRESS without CONFIGURED within three seconds. -/
def stalledRule : DiagRule :=
  { type := .deadline, dlReachedState := 6, dlWithoutState := 7, dlTimeoutMs := 3000 }

/-- A device that reads the vendor from its first hook on, next to one that does not and
whose record the unfiltered session loses. -/
theorem filter_drops_sample :
    let own : KernelEvent :=
      { now := 1, dev := { idVendor := 0x0403, busnum := 1, devnum := 2 }, call := .setState 5 6 }
    let other : KernelEvent :=
      { now := 2, dev := { busnum := 1, devnum := 3 }, call := .disconnect }
    let ops : List SessionOp :=
      [.hook own fun _ _ => 1, .hook other fun _ _ => 2, .drain .enum, .drain .lifecycle,
        .tick 4000000000]
    let all : ℕ → ℕ → Bool := fun _ _ => true
    let butOther : ℕ → ℕ → Bool := fun n _ => n ≠ 1
    (sessionFindings { filterVid := 0x0403 } all [stalledRule] ops).filter (ofDevice ⟨1, 2⟩) =
        (sessionFindings {} butOther [stalledRule] ops).filter (ofDevice ⟨1, 2⟩) ∧
      (sessionFindings { filterVid := 0x0403 } all [stalledRule] ops).map Finding.ridx = [0] ∧
      (sessionOps {} all ops).length = 3 ∧ (sessionOps {} butOther ops).length = 2 := by
  intro own other ops all butOther
  have hall : ∀ ev clock, .hook ev clock ∈ ops → ev.dev.key = ⟨1, 2⟩ →
      passes { filterVid := 0x0403 } ev.dev = true := by
    intro ev clock hop hk
    simp only [ops, List.mem_cons, SessionOp.hook.injEq, reduceCtorEq, List.not_mem_nil,
      or_false] at hop
    rcases hop with ⟨rfl, -⟩ | ⟨rfl, -⟩
    · decide
    · exact absurd hk (by decide)
  refine ⟨(filter_drops { filterVid := 0x0403 } all butOther [stalledRule] ⟨1, 2⟩ ops ?_ ?_ ?_ ?_
    ?_ ?_ ?_ ?_).2 hall, by decide +kernel, rfl, rfl⟩
  · simp [ops, own, other, NamesDevice, UsbDevice.key]
  · exact ⟨trivial, trivial, trivial, trivial, trivial, trivial⟩
  · exact ⟨fun _ _ => trivial, fun _ _ => trivial, trivial, trivial, trivial, trivial⟩
  · exact ⟨fun _ _ => trivial, fun _ _ => trivial, trivial, trivial, trivial, trivial⟩
  · exact ⟨fun _ _ _ => rfl, fun _ _ _ => rfl, trivial, trivial, trivial, trivial⟩
  · exact ⟨fun _ _ _ => rfl, fun h => absurd h (by decide), trivial, trivial, trivial, trivial⟩
  · refine ⟨fun h => ?_, fun h => h, trivial⟩
    exact absurd (h.2 ⟨1, by decide⟩) (by decide)
  · refine ⟨fun h => ?_, fun h => h, trivial⟩
    exact absurd (h.2 ⟨1, by decide⟩) (by decide)

/-! ## A stalled enumeration -/

/-- A device reaches ADDRESS with its descriptor not read yet. -/
def stalledAddress : KernelEvent :=
  { now := 1, dev := { busnum := 1, devnum := 2 }, call := .setState 5 6 }

/-- Its descriptor arrives, and nothing more. -/
def stalledDescriptor : KernelEvent :=
  { now := 2, dev := { idVendor := 0x0403, busnum := 1, devnum := 2 }, call := .enumExit 1 6 18 }

/-- The session of the stalled device, up to a tick four seconds later. -/
def stalledSession : List SessionOp :=
  [.hook stalledAddress fun _ _ => 1, .hook stalledDescriptor fun _ _ => 2, .drain .enum,
    .tick 4000000000]

/-- The only device of the session never needs another's window. -/
theorem stalled_noRecycling (cfg : FilterConfig) (h : cfg = {} ∨ cfg = { filterVid := 0x0403 }) :
    NoRecycling [stalledRule] (sessionOps cfg (fun _ _ => true) stalledSession) := by
  rcases h with rfl | rfl
  · refine ⟨fun h => ?_, fun h => ?_, fun h => h, trivial⟩
    · exact absurd (h.2 ⟨1, by decide⟩) (by decide)
    · exact absurd (h.2 ⟨1, by decide⟩) (by decide)
  · refine ⟨fun h => ?_, fun h => h, trivial⟩
    exact absurd (h.2 ⟨1, by decide⟩) (by decide)

/-- **A filter can hide a stalled enumeration**: the device reaches ADDRESS while its
`idVendor` still reads 0, so the filtered session never sees it there, and reports nothing
where the unfiltered one reports the stall; neither loses a record. -/
theorem filter_changes_findings :
    ¬∀ (v : UInt16) (rules : List DiagRule) (k : DiagDevkey) (ops : List SessionOp),
      lastVendor k ops = some v →
      (sessionFindings { filterVid := v } (fun _ _ => true) rules ops).filter (ofDevice k) =
        (sessionFindings {} (fun _ _ => true) rules ops).filter (ofDevice k) := by
  intro h
  have hsame := h 0x0403 [stalledRule] ⟨1, 2⟩ stalledSession rfl
  have hfiltered := (engineAfter_project [stalledRule] ⟨1, 2⟩ _
    (stalled_noRecycling { filterVid := 0x0403 } (Or.inr rfl))).2
  have hany := (engineAfter_project [stalledRule] ⟨1, 2⟩ _
    (stalled_noRecycling {} (Or.inl rfl))).2
  rw [sessionFindings, sessionFindings, hfiltered, hany] at hsame
  exact absurd (congrArg List.length hsame) (by decide)

end UsbTrace.Analysis
