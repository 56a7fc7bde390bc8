import UsbTrace.Interface.Probing

/-!
# Graceful degradation

Which programs of an object keep their autoload.  What a section name asks for and what a
source lists are said apart from the code (`Asks`, `Listed`); the verdict of the code is
compared with them (`secAvailable_absent_iff`), and from there the whole object.
-/

set_option autoImplicit false

namespace UsbTrace.Analysis

open UsbTrace.Model UsbTrace.Interface UsbTrace.Library

/-! ## Targets and sources -/

/-- What a section name asks for. -/
inductive Target where
  | function (name : CStr)
  | tracepoint (subsys event : CStr)
  | rawTracepoint (event : CStr)

inductive Asks : CStr → Target → Prop where
  | function {kind : CStr} (hkind : kind ∈ functionKinds) (name : CStr) :
      Asks (kind ++ '/' :: name) (.function name)
  | tracepoint {kind subsys : CStr} (hkind : kind ∈ tracepointKinds) (hsubsys : '/' ∉ subsys)
      (event : CStr) : Asks (kind ++ '/' :: (subsys ++ '/' :: event)) (.tracepoint subsys event)
  | rawTracepoint {kind : CStr} (hkind : kind ∈ rawKinds) (event : CStr) :
      Asks (kind ++ '/' :: event) (.rawTracepoint event)

def Target.Nonempty : Target → Prop
  | .function name => name ≠ []
  | .tracepoint subsys event => subsys ≠ [] ∧ event ≠ []
  | .rawTracepoint event => event ≠ []

/-- A state of the sources: the lines of the files fit the reader's buffer, and an events tree
is there as a whole or not at all. -/
structure ProbeState extends FileView where
  lines_short : ∀ source ∈ functionSources, ∀ file, fopen source.1 = some file →
    ∀ line ∈ file.splitOn '\n', line.length < 511
  tree_whole : ∀ dir ∈ tracefs, access (eventsDir dir) = (opendir (eventsDir dir)).isSome
  tree_absent : ∀ dir ∈ tracefs, opendir (eventsDir dir) = none →
    ∀ subsys event, access (eventPath (eventsDir dir) subsys event) = false

/-- The fields of a line, up to its first NUL if it has one. -/
def lineFields (line : List Char) : List CStr :=
  fields isBlank (line.takeWhile fun c => c != '\x00')

/-- Some source for the target can be read. -/
def Readable (s : ProbeState) : Target → Prop
  | .function _ => ∃ source ∈ functionSources, (s.fopen source.1).isSome
  | .tracepoint _ _ => ∃ dir ∈ tracefs, (s.opendir (eventsDir dir)).isSome
  | .rawTracepoint _ => ∃ dir ∈ tracefs, (s.opendir (eventsDir dir)).isSome

/-- Some source lists the target: the symbol of a line, a path under the events, an event of
some subsystem. -/
def Listed (s : ProbeState) : Target → Prop
  | .function name => ∃ source ∈ functionSources, ∃ file, s.fopen source.1 = some file ∧
      ∃ line ∈ file.splitOn '\n', (lineFields line)[source.2]? = some name
  | .tracepoint subsys event =>
      ∃ dir ∈ tracefs, s.access (eventPath (eventsDir dir) subsys event) = true
  | .rawTracepoint event => ∃ dir ∈ tracefs, ∃ names, s.opendir (eventsDir dir) = some names ∧
      ∃ name ∈ names, name.head? ≠ some '.' ∧
        s.access (eventPath (eventsDir dir) name event) = true

/-- The paths that are put together fit their buffers. -/
def Target.Fits (s : ProbeState) : Target → Prop
  | .function _ => True
  | .tracepoint subsys event =>
      ∀ dir ∈ tracefs, (eventPath (eventsDir dir) subsys event).length < 256
  | .rawTracepoint event => ∀ dir ∈ tracefs, ∀ names, s.opendir (eventsDir dir) = some names →
      ∀ name ∈ names, (eventPath (eventsDir dir) name event).length < pathMax

def PathsFit (s : ProbeState) (sec : CStr) : Prop := ∀ t, Asks sec t → t.Fits s

/-- The target is named, a source for it can be read, and none lists it. -/
def ProvablyAbsent (s : ProbeState) (sec : CStr) : Prop :=
  ∃ t, Asks sec t ∧ t.Nonempty ∧ Readable s t ∧ ¬Listed s t

/-- What the code tests of a target before it looks it up. -/
def Target.Tested : Target → Prop
  | .function name => name ≠ []
  | .tracepoint subsys _ => subsys.length < 64
  | .rawTracepoint event => event ≠ []

/-- The target passes these tests, a source for it can be read, and none lists it. -/
def FoundAbsent (s : ProbeState) (sec : CStr) : Prop :=
  ∃ t, Asks sec t ∧ t.Tested ∧ Readable s t ∧ ¬Listed s t

/-- Exactly the programs whose target is provably absent lose their autoload, and the number of
the programs that have it is returned. -/
def FiltersRight (s : ProbeState) (obj : List BpfProgram) : Prop :=
  List.Forall₂
      (fun prog prog' => prog'.sectionName = prog.sectionName ∧
        (prog'.autoload = true ↔ prog.autoload = true ∧ ¬ProvablyAbsent s prog.sectionName))
      obj (usbtraceAutoloadFilter s.toFileView obj).1 ∧
    (usbtraceAutoloadFilter s.toFileView obj).2 =
      (usbtraceAutoloadFilter s.toFileView obj).1.countP BpfProgram.autoload

/-- A tracepoint that no tree has although one can be read, with an empty part, or with a
subsystem that is too long for the buffer it is copied to. -/
def Misjudged (s : ProbeState) (sec : CStr) : Prop :=
  ∃ subsys event, Asks sec (.tracepoint subsys event) ∧
    Readable s (.tracepoint subsys event) ∧ ¬Listed s (.tracepoint subsys event) ∧
    (((subsys = [] ∨ event = []) ∧ subsys.length < 64) ∨
      ((subsys ≠ [] ∧ event ≠ []) ∧ 64 ≤ subsys.length))

/-! ## The verdict of a source -/

theorem judgeFile_readable_iff (s : ProbeState) (name : CStr) (source : CStr × ℕ) :
    judgeFile s.toFileView name source ≠ .unknown ↔ (s.fopen source.1).isSome := by
  rw [judgeFile, symbolInFile]
  cases s.fopen source.1 with
  | none => simp
  | some file =>
    dsimp only
    split <;> simp

theorem judgeFile_present_iff (s : ProbeState) {name : CStr} {source : CStr × ℕ}
    (hsource : source ∈ functionSources) :
    judgeFile s.toFileView name source = .present ↔
      ∃ file, s.fopen source.1 = some file ∧
        ∃ line ∈ file.splitOn '\n', (lineFields line)[source.2]? = some name := by
  rw [judgeFile, symbolInFile]
  cases hfile : s.fopen source.1 with
  | none => simp
  | some file =>
    have hlines := anyLine_iff (symbolInLine_newline name source.2)
      (symbolInLine_nil name source.2) le_rfl
      (s.lines_short source hsource file hfile)
    have htest (line : List Char) : symbolInLine name source.2 line = true ↔
        (lineFields line)[source.2]? = some name := by
      rw [symbolInLine, decide_eq_true_iff, tokenAt_eq, lineFields]
    simp only [htest] at hlines
    simp only [Option.some.injEq, exists_eq_left', ← hlines]
    split <;> simp_all

theorem judgeTree_readable_iff (s : ProbeState) {subsys event dir : CStr} (hdir : dir ∈ tracefs) :
    judgeTree s.toFileView subsys event dir ≠ .unknown ↔ (s.opendir (eventsDir dir)).isSome := by
  have hwhole := s.tree_whole dir hdir
  have habsent := s.tree_absent dir hdir
  rw [judgeTree]
  cases hopen : s.opendir (eventsDir dir) with
  | none =>
    rw [hopen] at hwhole
    rw [habsent hopen subsys event, hwhole]
    simp
  | some names =>
    rw [hopen] at hwhole
    rw [hwhole]
    split <;> simp

theorem judgeTree_present_iff (fs : FileView) (subsys event dir : CStr) :
    judgeTree fs subsys event dir = .present ↔
      fs.access (eventPath (eventsDir dir) subsys event) = true := by
  rw [judgeTree]
  split
  · next h => simp [h]
  · next h =>
    split <;> simp [h]

theorem judgeEvents_readable_iff (fs : FileView) (event dir : CStr) :
    judgeEvents fs event dir ≠ .unknown ↔ (fs.opendir (eventsDir dir)).isSome := by
  rw [judgeEvents]
  cases fs.opendir (eventsDir dir) with
  | none => simp
  | some names =>
    dsimp only
    split <;> simp

theorem judgeEvents_present_iff (fs : FileView) {event dir : CStr}
    (hfit : ∀ names, fs.opendir (eventsDir dir) = some names →
      ∀ name ∈ names, (eventPath (eventsDir dir) name event).length < pathMax) :
    judgeEvents fs event dir = .present ↔
      ∃ names, fs.opendir (eventsDir dir) = some names ∧ ∃ name ∈ names,
        name.head? ≠ some '.' ∧ fs.access (eventPath (eventsDir dir) name event) = true := by
  rw [judgeEvents]
  cases hopen : fs.opendir (eventsDir dir) with
  | none => simp
  | some names =>
    simp only [Option.some.injEq, exists_eq_left', ← anySubsystem_iff fs (hfit names hopen)]
    split <;> simp_all

/-! ## The verdict on a target -/

theorem kfunc_absent_iff (s : ProbeState) (name : CStr) :
    usbtraceKfuncAvailable s.toFileView name = .absent ↔
      name ≠ [] ∧ Readable s (.function name) ∧ ¬Listed s (.function name) := by
  by_cases hname : name = []
  · rw [usbtraceKfuncAvailable, if_pos hname]
    simp [hname]
  · rw [usbtraceKfuncAvailable_eq s.toFileView hname, and_iff_right hname]
    apply unionLoop_absent
    · intro source _
      exact judgeFile_readable_iff s name source
    · intro source hsource
      exact judgeFile_present_iff s hsource

theorem tracepoint_absent_iff (s : ProbeState) {subsys event : CStr}
    (hfit : (Target.tracepoint subsys event).Fits s) :
    usbtraceTracepointAvailable s.toFileView subsys event = .absent ↔
      Readable s (.tracepoint subsys event) ∧ ¬Listed s (.tracepoint subsys event) := by
  rw [usbtraceTracepointAvailable, tracepointLoop_eq s.toFileView (fun _ h => h) hfit]
  apply unionLoop_absent
  · intro dir hdir
    exact judgeTree_readable_iff s hdir
  · intro dir _
    exact judgeTree_present_iff s.toFileView subsys event dir

theorem event_absent_iff (s : ProbeState) {event : CStr}
    (hfit : (Target.rawTracepoint event).Fits s) :
    usbtraceTracepointEventAvailable s.toFileView event = .absent ↔
      event ≠ [] ∧ Readable s (.rawTracepoint event) ∧ ¬Listed s (.rawTracepoint event) := by
  by_cases hevent : event = []
  · rw [usbtraceTracepointEventAvailable, if_pos hevent]
    simp [hevent]
  · rw [usbtraceTracepointEventAvailable, if_neg hevent, and_iff_right hevent,
      eventLoop_eq s.toFileView event fun _ h => h]
    apply unionLoop_absent
    · intro dir _
      exact judgeEvents_readable_iff s.toFileView event dir
    · intro dir hdir
      exact judgeEvents_present_iff s.toFileView (hfit dir hdir)

/-! ## The verdict on a section name -/

theorem kinds_no_slash {kind : CStr}
    (h : kind ∈ functionKinds ∨ kind ∈ tracepointKinds ∨ kind ∈ rawKinds) : '/' ∉ kind := by
  have hall : ∀ kind ∈ functionKinds ++ (tracepointKinds ++ rawKinds), '/' ∉ kind := by decide
  apply hall
  rwa [List.mem_append, List.mem_append]

/-- What a section name with a given kind asks for. -/
theorem asks_slash_iff {kind : CStr} (hkind : '/' ∉ kind) (target : CStr) (t : Target) :
    Asks (kind ++ '/' :: target) t ↔
      (kind ∈ functionKinds ∧ t = .function target) ∨
      (kind ∈ tracepointKinds ∧ ∃ subsys event, '/' ∉ subsys ∧
        target = subsys ++ '/' :: event ∧ t = .tracepoint subsys event) ∨
      (kind ∈ rawKinds ∧ t = .rawTracepoint target) := by
  constructor
  · intro h
    generalize hsec : kind ++ '/' :: target = sec at h
    cases h with
    | function hk name =>
      obtain ⟨rfl, rfl⟩ := slash_inj hkind (kinds_no_slash (.inl hk)) hsec
      exact .inl ⟨hk, rfl⟩
    | tracepoint hk hsubsys event =>
      obtain ⟨rfl, rfl⟩ := slash_inj hkind (kinds_no_slash (.inr (.inl hk))) hsec
      exact .inr (.inl ⟨hk, _, event, hsubsys, rfl, rfl⟩)
    | rawTracepoint hk event =>
      obtain ⟨rfl, rfl⟩ := slash_inj hkind (kinds_no_slash (.inr (.inr hk))) hsec
      exact .inr (.inr ⟨hk, rfl⟩)
  · rintro (⟨hk, rfl⟩ | ⟨hk, subsys, event, hsubsys, rfl, rfl⟩ | ⟨hk, rfl⟩)
    · exact .function hk target
    · exact .tracepoint hk hsubsys event
    · exact .rawTracepoint hk target

/-- No kind is of two forms. -/
theorem kinds_apart {kind : CStr} :
    (kind ∈ functionKinds → kind ∉ tracepointKinds ∧ kind ∉ rawKinds) ∧
      (kind ∈ tracepointKinds → kind ∉ rawKinds) := by
  have hfunction : ∀ kind ∈ functionKinds, kind ∉ tracepointKinds ∧ kind ∉ rawKinds := by decide
  have htracepoint : ∀ kind ∈ tracepointKinds, kind ∉ rawKinds := by decide
  exact ⟨hfunction kind, htracepoint kind⟩

/-- A section name asks for one target. -/
theorem Asks.unique {sec : CStr} {t t' : Target} (h : Asks sec t) (h' : Asks sec t') :
    t = t' := by
  cases h with
  | function hk name =>
    rw [asks_slash_iff (kinds_no_slash (.inl hk))] at h'
    rcases h' with ⟨-, rfl⟩ | ⟨hk', -⟩ | ⟨hk', -⟩
    · rfl
    · exact absurd hk' (kinds_apart.1 hk).1
    · exact absurd hk' (kinds_apart.1 hk).2
  | tracepoint hk hsubsys event =>
    rw [asks_slash_iff (kinds_no_slash (.inr (.inl hk)))] at h'
    rcases h' with ⟨hk', -⟩ | ⟨-, subsys', event', hsubsys', htarget, rfl⟩ | ⟨hk', -⟩
    · exact absurd hk (kinds_apart.1 hk').1
    · obtain ⟨rfl, rfl⟩ := slash_inj hsubsys hsubsys' htarget
      rfl
    · exact absurd hk' (kinds_apart.2 hk)
  | rawTracepoint hk event =>
    rw [asks_slash_iff (kinds_no_slash (.inr (.inr hk)))] at h'
    rcases h' with ⟨hk', -⟩ | ⟨hk', -⟩ | ⟨-, rfl⟩
    · exact absurd hk (kinds_apart.1 hk').2
    · exact absurd hk (kinds_apart.2 hk')
    · rfl

/-- A section name that asks for no target is left to the loader. -/
theorem secAvailable_of_not_asks (fs : FileView) {sec : CStr} (h : ∀ t, ¬Asks sec t) :
    secAvailable fs sec = .unknown := by
  rcases slash_cases sec with hno | ⟨kind, target, hkind, rfl⟩
  · rw [secAvailable, afterSlash_none hno]
  · simp only [asks_slash_iff hkind] at h
    have hfunction : kind ∉ functionKinds := fun hk => h _ (.inl ⟨hk, rfl⟩)
    have hraw : kind ∉ rawKinds := fun hk => h _ (.inr (.inr ⟨hk, rfl⟩))
    rw [secAvailable_slash fs hkind, if_neg hfunction, if_neg hraw]
    split
    · next htracepoint =>
      rcases slash_cases target with hnone | ⟨subsys, event, hsubsys, htarget⟩
      · rw [afterSlash_none hnone]
      · exact absurd (.inr (.inl ⟨htracepoint, subsys, event, hsubsys, htarget, rfl⟩)) (h _)
    · rfl

/-- **The verdict on a target.** -/
theorem Asks.secAvailable_absent_iff {s : ProbeState} {sec : CStr} {t : Target}
    (h : Asks sec t) (hfit : t.Fits s) :
    secAvailable s.toFileView sec = .absent ↔ t.Tested ∧ Readable s t ∧ ¬Listed s t := by
  cases h with
  | function hk name =>
    rw [secAvailable_slash _ (kinds_no_slash (.inl hk)), if_pos hk]
    exact kfunc_absent_iff s name
  | @tracepoint kind subsys hk hsubsys event =>
    have hfunction : kind ∉ functionKinds := fun h => (kinds_apart.1 h).1 hk
    rw [secAvailable_slash _ (kinds_no_slash (.inr (.inl hk))), if_neg hfunction, if_pos hk,
      afterSlash_slash hsubsys, takeWhile_slash hsubsys]
    show (if subsys.length ≥ 64 then Availability.unknown
      else usbtraceTracepointAvailable s.toFileView subsys event) = .absent ↔ subsys.length < 64 ∧ _
    rw [← tracepoint_absent_iff s hfit]
    split
    · next hlong => simp [hlong]
    · next hshort => rw [and_iff_right (Nat.not_le.mp hshort)]
  | @rawTracepoint kind hk event =>
    have hfunction : kind ∉ functionKinds := fun h => (kinds_apart.1 h).2 hk
    have htracepoint : kind ∉ tracepointKinds := fun h => kinds_apart.2 h hk
    rw [secAvailable_slash _ (kinds_no_slash (.inr (.inr hk))), if_neg hfunction,
      if_neg htracepoint, if_pos hk]
    exact event_absent_iff s hfit

/-- **The verdict on a section name.** -/
theorem secAvailable_absent_iff {s : ProbeState} {sec : CStr} (hfit : PathsFit s sec) :
    secAvailable s.toFileView sec = .absent ↔ FoundAbsent s sec := by
  constructor
  · intro habsent
    have hsec : ∃ t, Asks sec t := by
      by_contra hnone
      rw [not_exists] at hnone
      rw [secAvailable_of_not_asks s.toFileView hnone] at habsent
      cases habsent
    obtain ⟨t, hasks⟩ := hsec
    exact ⟨t, hasks, (hasks.secAvailable_absent_iff (hfit t hasks)).mp habsent⟩
  · rintro ⟨t, hasks, habsent⟩
    exact (hasks.secAvailable_absent_iff (hfit t hasks)).mpr habsent

/-- What is misjudged is absent, and tested for something else than it is named by. -/
theorem Asks.misjudged_iff {s : ProbeState} {sec : CStr} {t : Target} (h : Asks sec t) :
    Misjudged s sec ↔ (Readable s t ∧ ¬Listed s t) ∧ ¬(t.Tested ↔ t.Nonempty) := by
  constructor
  · rintro ⟨subsys, event, hasks, hread, hlist, hcase⟩
    cases h.unique hasks
    refine ⟨⟨hread, hlist⟩, ?_⟩
    show ¬(subsys.length < 64 ↔ subsys ≠ [] ∧ event ≠ [])
    intro hsame
    rcases hcase with ⟨hempty, hshort⟩ | ⟨hnamed, hlong⟩
    · obtain ⟨hsubsys, hevent⟩ := hsame.mp hshort
      exact hempty.elim hsubsys hevent
    · have hshort := hsame.mpr hnamed
      omega
  · rintro ⟨⟨hread, hlist⟩, hdiffer⟩
    cases t with
    | function name => exact absurd Iff.rfl hdiffer
    | rawTracepoint event => exact absurd Iff.rfl hdiffer
    | tracepoint subsys event =>
      refine ⟨subsys, event, h, hread, hlist, ?_⟩
      have hiff : ¬(subsys.length < 64 ↔ subsys ≠ [] ∧ event ≠ []) := hdiffer
      by_cases hnamed : subsys ≠ [] ∧ event ≠ []
      · right
        refine ⟨hnamed, ?_⟩
        by_contra hlong
        exact hiff (iff_of_true (Nat.lt_of_not_le hlong) hnamed)
      · left
        refine ⟨?_, ?_⟩
        · rw [not_and_or, not_not, not_not] at hnamed
          exact hnamed
        · by_contra hlong
          exact hiff (iff_of_false hlong hnamed)

/-- **The verdict of the code** is that of the sources, except where it is misjudged. -/
theorem verdict_right_iff {s : ProbeState} {sec : CStr} (hfit : PathsFit s sec) :
    (secAvailable s.toFileView sec = .absent ↔ ProvablyAbsent s sec) ↔ ¬Misjudged s sec := by
  by_cases hsec : ∃ t, Asks sec t
  · obtain ⟨t, hasks⟩ := hsec
    have hsources : ProvablyAbsent s sec ↔ t.Nonempty ∧ Readable s t ∧ ¬Listed s t := by
      constructor
      · rintro ⟨t', hasks', habsent⟩
        rwa [hasks.unique hasks']
      · intro habsent
        exact ⟨t, hasks, habsent⟩
    rw [hasks.secAvailable_absent_iff (hfit t hasks), hsources, hasks.misjudged_iff,
      and_congr_left_iff, not_and, not_not]
  · rw [not_exists] at hsec
    have hcode := secAvailable_of_not_asks s.toFileView hsec
    have hnone : ¬ProvablyAbsent s sec := fun ⟨t, hasks, _⟩ => hsec t hasks
    have hright : ¬Misjudged s sec := fun ⟨_, _, hasks, _⟩ => hsec _ hasks
    rw [hcode]
    exact iff_of_true (iff_of_false (fun h => Availability.noConfusion h) hnone) hright

/-! ## An object -/

/-- A program after the filter. -/
def filtered (fs : FileView) (prog : BpfProgram) : BpfProgram :=
  if secAvailable fs prog.sectionName = .absent then { prog with autoload := false } else prog

theorem usbtraceAutoloadFilter_eq (fs : FileView) (obj : List BpfProgram) :
    usbtraceAutoloadFilter fs obj =
      (obj.map (filtered fs),
        obj.countP fun prog => secAvailable fs prog.sectionName ≠ .absent) := by
  induction obj with
  | nil => rfl
  | cons prog obj ih =>
    rw [usbtraceAutoloadFilter, ih, List.map_cons, filtered, List.countP_cons]
    dsimp only
    by_cases h : secAvailable fs prog.sectionName = .absent
    · simp [h]
    · simp [h]

theorem filtered_autoload_iff (fs : FileView) (prog : BpfProgram) :
    (filtered fs prog).autoload = true ↔
      prog.autoload = true ∧ secAvailable fs prog.sectionName ≠ .absent := by
  unfold filtered
  split
  · next h => simp [h]
  · next h => simp [h]

theorem filtered_sectionName (fs : FileView) (prog : BpfProgram) :
    (filtered fs prog).sectionName = prog.sectionName := by
  unfold filtered
  split <;> rfl

/-- Of two tests of which one is stricter, as many items pass both only where all do. -/
theorem countP_eq_countP_iff {α : Type} {p q : α → Bool} {l : List α}
    (h : ∀ a ∈ l, q a = true → p a = true) :
    l.countP p = l.countP q ↔ ∀ a ∈ l, p a = true → q a = true := by
  induction l with
  | nil => simp
  | cons a l ih =>
    have hrest : ∀ b ∈ l, q b = true → p b = true := fun b hb => h b (List.mem_cons_of_mem _ hb)
    have hle : l.countP q ≤ l.countP p := List.countP_mono_left hrest
    have hhead := h a List.mem_cons_self
    rw [List.countP_cons, List.countP_cons, List.forall_mem_cons, ← ih hrest]
    cases hp : p a with
    | true =>
      cases hq : q a with
      | true => simp
      | false =>
        simp only [if_true, Bool.false_eq_true, if_false, true_imp_iff, false_and, iff_false]
        omega
    | false =>
      cases hq : q a with
      | true => simp [hp, hq] at hhead
      | false => simp

/-- One program of an object. -/
theorem filtered_right_iff {s : ProbeState} {prog : BpfProgram}
    (hfit : PathsFit s prog.sectionName) :
    ((filtered s.toFileView prog).autoload = true ↔
        prog.autoload = true ∧ ¬ProvablyAbsent s prog.sectionName) ↔
      (prog.autoload = true → ¬Misjudged s prog.sectionName) := by
  rw [filtered_autoload_iff, and_congr_right_iff, ← verdict_right_iff hfit, ne_eq, not_iff_not]

/-- **Graceful degradation.**  The filter switches off exactly the programs whose target is
provably absent, and returns the number of those left on, if and only if no program that comes
with autoload is misjudged, and one that comes without it has a target the code finds absent.
SOURCE: probe.c:27-216, architecture.md:106-125 -/
theorem autoload_filter_iff (s : ProbeState) (obj : List BpfProgram)
    (hfit : ∀ prog ∈ obj, PathsFit s prog.sectionName) :
    FiltersRight s obj ↔ ∀ prog ∈ obj,
      (prog.autoload = true → ¬Misjudged s prog.sectionName) ∧
        (prog.autoload = false → FoundAbsent s prog.sectionName) := by
  have hcount : (obj.countP fun prog => secAvailable s.toFileView prog.sectionName ≠ .absent) =
      (obj.map (filtered s.toFileView)).countP BpfProgram.autoload ↔
      ∀ prog ∈ obj, prog.autoload = false →
        secAvailable s.toFileView prog.sectionName = .absent := by
    rw [List.countP_map, countP_eq_countP_iff]
    · apply forall_congr'
      intro prog
      apply imp_congr_right
      intro _
      rw [decide_eq_true_iff, Function.comp_apply, filtered_autoload_iff]
      constructor
      · intro hcounted hoff
        by_contra hpresent
        have hon := (hcounted hpresent).1
        rw [hoff] at hon
        cases hon
      · intro habsent hpresent
        refine ⟨?_, hpresent⟩
        by_contra hoff
        exact hpresent (habsent (Bool.eq_false_iff.mpr hoff))
    · intro prog _ hon
      exact decide_eq_true ((filtered_autoload_iff s.toFileView prog).mp hon).2
  rw [FiltersRight, usbtraceAutoloadFilter_eq, List.forall₂_map_right_iff, List.forall₂_same,
    hcount, ← forall₂_and]
  apply forall_congr'
  intro prog
  apply forall_congr'
  intro hprog
  rw [filtered_right_iff (hfit prog hprog), and_iff_right (filtered_sectionName s.toFileView prog),
    secAvailable_absent_iff (hfit prog hprog)]

/-! ## A machine without the tracepoint -/

/-- A machine whose events tree has one subsystem, with nothing in it. -/
def bareMachine : ProbeState where
  fopen := fun _ => none
  access := fun path => path = eventsDir "/sys/kernel/tracing".toList
  opendir := fun path =>
    if path = eventsDir "/sys/kernel/tracing".toList then some ["vb2".toList] else none
  lines_short := by
    intro source _ file hfile
    cases hfile
  tree_whole := by decide
  tree_absent := by
    intro dir hdir _ subsys event
    apply decide_eq_false
    intro hpath
    have hall : ∀ dir ∈ tracefs, 26 ≤ (eventsDir dir).length := by decide
    have hlen := congrArg List.length hpath
    have hdirLen := hall dir hdir
    have hpathLen : (eventPath (eventsDir dir) subsys event).length =
        (eventsDir dir).length + (subsys.length + (event.length + 1) + 1) := by
      rw [eventPath, List.length_append, List.length_cons, List.length_append, List.length_cons]
    have hbase : (eventsDir "/sys/kernel/tracing".toList).length = 26 := by decide
    omega

def vb2Section : CStr := "tracepoint/vb2/vb2_buf_done".toList
def noSubsysSection : CStr := "tracepoint//vb2_buf_done".toList

theorem vb2Section_asks :
    Asks vb2Section (.tracepoint "vb2".toList "vb2_buf_done".toList) :=
  @Asks.tracepoint "tracepoint".toList "vb2".toList (by decide) (by decide)
    "vb2_buf_done".toList

theorem noSubsysSection_asks : Asks noSubsysSection (.tracepoint [] "vb2_buf_done".toList) :=
  @Asks.tracepoint "tracepoint".toList [] (by decide) (by decide) "vb2_buf_done".toList

/-- The tree of the bare machine does not have the tracepoint. -/
theorem vb2Section_absent : FoundAbsent bareMachine vb2Section := by
  refine ⟨_, vb2Section_asks, ?_, ?_, ?_⟩
  · show "vb2".toList.length < 64
    decide
  · exact ⟨"/sys/kernel/tracing".toList, by decide, by decide⟩
  · have hall : ∀ dir ∈ tracefs, bareMachine.access
        (eventPath (eventsDir dir) "vb2".toList "vb2_buf_done".toList) = false := by decide
    rintro ⟨dir, hdir, hfound⟩
    rw [hall dir hdir] at hfound
    cases hfound

theorem vb2Section_judged : ¬Misjudged bareMachine vb2Section := by
  rw [vb2Section_asks.misjudged_iff]
  rintro ⟨-, hdiffer⟩
  apply hdiffer
  refine iff_of_true ?_ ?_
  · show "vb2".toList.length < 64
    decide
  · show "vb2".toList ≠ [] ∧ "vb2_buf_done".toList ≠ []
    decide

/-- The tracepoint is gone: of two programs for it, the one with autoload is switched off, and
the one without is not counted. -/
theorem autoload_filter_sample :
    FiltersRight bareMachine [⟨vb2Section, true⟩, ⟨vb2Section, false⟩] := by
  have hsec : ∀ prog ∈ [BpfProgram.mk vb2Section true, ⟨vb2Section, false⟩],
      prog.sectionName = vb2Section := by
    intro prog hprog
    simp only [List.mem_cons, List.not_mem_nil, or_false] at hprog
    rcases hprog with rfl | rfl
    · rfl
    · rfl
  apply (autoload_filter_iff bareMachine _ ?_).mpr
  · intro prog hprog
    rw [hsec prog hprog]
    exact ⟨fun _ => vb2Section_judged, fun _ => vb2Section_absent⟩
  · intro prog hprog t hasks
    rw [hsec prog hprog] at hasks
    rw [← vb2Section_asks.unique hasks]
    show ∀ dir ∈ tracefs,
      (eventPath (eventsDir dir) "vb2".toList "vb2_buf_done".toList).length < 256
    decide

/-- **A tracepoint without a subsystem** is switched off, though no target is named. -/
theorem empty_subsystem_skipped :
    (∀ prog ∈ [BpfProgram.mk noSubsysSection true], PathsFit bareMachine prog.sectionName) ∧
      usbtraceAutoloadFilter bareMachine.toFileView [⟨noSubsysSection, true⟩] =
        ([⟨noSubsysSection, false⟩], 0) ∧
      ¬FiltersRight bareMachine [⟨noSubsysSection, true⟩] := by
  have hfilter : usbtraceAutoloadFilter bareMachine.toFileView [⟨noSubsysSection, true⟩] =
      ([⟨noSubsysSection, false⟩], 0) := by decide
  refine ⟨?_, hfilter, ?_⟩
  · intro prog hprog t hasks
    rw [List.mem_singleton.mp hprog] at hasks
    rw [← noSubsysSection_asks.unique hasks]
    show ∀ dir ∈ tracefs, (eventPath (eventsDir dir) [] "vb2_buf_done".toList).length < 256
    decide
  · rintro ⟨hprogs, -⟩
    rw [hfilter] at hprogs
    obtain ⟨⟨-, hon⟩, -⟩ := List.forall₂_cons.mp hprogs
    apply Bool.false_ne_true
    apply hon.mpr
    refine ⟨rfl, ?_⟩
    rintro ⟨t, hasks, hnamed, -⟩
    rw [← noSubsysSection_asks.unique hasks] at hnamed
    exact hnamed.1 rfl

end UsbTrace.Analysis
