import UsbTrace.Library.Segment
import UsbTrace.Model.Autoload

/-!
# The lookup loops

The three loops that look a target up ask their sources one after the other: `unionLoop`.
A target is absent if some source could be read and none has it (`unionLoop_absent_iff`).
-/

set_option autoImplicit false

namespace UsbTrace.Interface

open UsbTrace.Model UsbTrace.Library

/-- Ask the sources until one has the target; `readable` says whether one could be read so
far. -/
def unionLoop {α : Type} (judge : α → Availability) : List α → Bool → Availability
  | [], readable => if readable then .absent else .unknown
  | source :: sources, readable =>
    match judge source with
    | .present => .present
    | .absent => unionLoop judge sources true
    | .unknown => unionLoop judge sources readable

theorem unionLoop_absent_iff {α : Type} (judge : α → Availability) (sources : List α)
    (readable : Bool) :
    unionLoop judge sources readable = .absent ↔
      (readable = true ∨ ∃ source ∈ sources, judge source ≠ .unknown) ∧
        ∀ source ∈ sources, judge source ≠ .present := by
  induction sources generalizing readable with
  | nil => cases readable <;> simp [unionLoop]
  | cons source sources ih =>
    rw [unionLoop]
    cases hjudge : judge source with
    | present => simp [hjudge]
    | absent => simp [hjudge, ih]
    | unknown => simp [hjudge, ih]

/-- **A target is absent** if some source can be read and none lists it. -/
theorem unionLoop_absent {α : Type} {judge : α → Availability} {sources : List α}
    {readable listed : α → Prop}
    (hreadable : ∀ source ∈ sources, (judge source ≠ .unknown ↔ readable source))
    (hlisted : ∀ source ∈ sources, (judge source = .present ↔ listed source)) :
    unionLoop judge sources false = .absent ↔
      (∃ source ∈ sources, readable source) ∧ ¬∃ source ∈ sources, listed source := by
  rw [unionLoop_absent_iff]
  apply and_congr
  · rw [or_iff_right Bool.false_ne_true]
    apply exists_congr
    intro source
    exact and_congr_right fun hsource => hreadable source hsource
  · rw [not_exists]
    apply forall_congr'
    intro source
    rw [not_and]
    exact imp_congr_right fun hsource => not_congr (hlisted source hsource)

theorem snprintf_of_fits {size : ℕ} {text : CStr} (h : text.length < size) :
    snprintf size text = text := List.take_of_length_le (by omega)

theorem tracefs_fits {dir : CStr} (h : dir ∈ tracefs) :
    (eventsDir dir).length < 256 ∧ (availableFilterFunctions dir).length < 256 := by
  have hall : ∀ dir ∈ tracefs,
      (eventsDir dir).length < 256 ∧ (availableFilterFunctions dir).length < 256 := by decide
  exact hall dir h

/-! ## Functions -/

/-- The files that list functions, each with the place of the symbol in a line. -/
def functionSources : List (CStr × ℕ) :=
  (kallsyms, 2) :: tracefs.map fun dir => (availableFilterFunctions dir, 0)

/-- The verdict of a file. -/
def judgeFile (fs : FileView) (name : CStr) (source : CStr × ℕ) : Availability :=
  symbolInFile fs source.1 name source.2

theorem kfuncLoop_eq (fs : FileView) (name : CStr) {dirs : List CStr}
    (hdirs : ∀ dir ∈ dirs, dir ∈ tracefs) (readable : Bool) :
    kfuncLoop fs name dirs readable =
      unionLoop (judgeFile fs name) (dirs.map fun dir => (availableFilterFunctions dir, 0))
        readable := by
  induction dirs generalizing readable with
  | nil => rfl
  | cons dir dirs ih =>
    have hrest := ih fun dir' hdir' => hdirs dir' (List.mem_cons_of_mem _ hdir')
    have hfit := (tracefs_fits (hdirs dir List.mem_cons_self)).2
    rw [kfuncLoop, List.map_cons, unionLoop, judgeFile, snprintf_of_fits hfit]
    cases symbolInFile fs (availableFilterFunctions dir) name 0 with
    | present => rfl
    | absent => exact hrest true
    | unknown => exact hrest readable

theorem usbtraceKfuncAvailable_eq (fs : FileView) {name : CStr} (hname : name ≠ []) :
    usbtraceKfuncAvailable fs name = unionLoop (judgeFile fs name) functionSources false := by
  rw [usbtraceKfuncAvailable, if_neg hname, functionSources, unionLoop, judgeFile]
  cases symbolInFile fs kallsyms name 2 with
  | present => rfl
  | absent => exact kfuncLoop_eq fs name (fun _ h => h) true
  | unknown => exact kfuncLoop_eq fs name (fun _ h => h) false

theorem symbolInLine_nil (name : CStr) (symField : ℕ) : symbolInLine name symField [] = false := by
  rw [symbolInLine, tokenAt_eq]
  rfl

/-- The newline `fgets` leaves in the buffer is no matter. -/
theorem symbolInLine_newline (name : CStr) (symField : ℕ) (line : List Char) :
    symbolInLine name symField (line ++ ['\n']) = symbolInLine name symField line := by
  rw [symbolInLine, symbolInLine, List.takeWhile_append]
  split
  · next hwhole =>
    have hline : line.takeWhile (fun c => c != '\x00') = line :=
      (List.takeWhile_sublist _).eq_of_length hwhole
    rw [hline, tokenAt_eq, tokenAt_eq]
    show decide ((fields isBlank (line ++ ['\n']))[symField]? = some name) = _
    rw [fields_append_delim (by decide)]
  · rfl

/-! ## Tracepoints -/

/-- The verdict of a tree on a tracepoint, and on an event of any subsystem. -/
def judgeTree (fs : FileView) (subsys event dir : CStr) : Availability :=
  if fs.access (eventPath (eventsDir dir) subsys event) then .present
  else if fs.access (eventsDir dir) then .absent else .unknown
def judgeEvents (fs : FileView) (event dir : CStr) : Availability :=
  match fs.opendir (eventsDir dir) with
  | none => .unknown
  | some names => if anySubsystem fs (eventsDir dir) event names then .present else .absent

theorem tracepointLoop_eq (fs : FileView) {subsys event : CStr} {dirs : List CStr}
    (hdirs : ∀ dir ∈ dirs, dir ∈ tracefs)
    (hfit : ∀ dir ∈ dirs, (eventPath (eventsDir dir) subsys event).length < 256)
    (haveBase : Bool) :
    tracepointLoop fs subsys event dirs haveBase =
      unionLoop (judgeTree fs subsys event) dirs haveBase := by
  induction dirs generalizing haveBase with
  | nil => rfl
  | cons dir dirs ih =>
    have hrest := ih (fun dir' hdir' => hdirs dir' (List.mem_cons_of_mem _ hdir'))
      fun dir' hdir' => hfit dir' (List.mem_cons_of_mem _ hdir')
    rw [tracepointLoop, unionLoop, judgeTree, snprintf_of_fits (hfit dir List.mem_cons_self),
      snprintf_of_fits (tracefs_fits (hdirs dir List.mem_cons_self)).1]
    cases fs.access (eventPath (eventsDir dir) subsys event) with
    | true => rfl
    | false =>
      cases fs.access (eventsDir dir) with
      | true => exact hrest true
      | false => exact hrest haveBase

theorem eventLoop_eq (fs : FileView) (event : CStr) {dirs : List CStr}
    (hdirs : ∀ dir ∈ dirs, dir ∈ tracefs) (haveBase : Bool) :
    eventLoop fs event dirs haveBase = unionLoop (judgeEvents fs event) dirs haveBase := by
  induction dirs generalizing haveBase with
  | nil => rfl
  | cons dir dirs ih =>
    have hrest := ih fun dir' hdir' => hdirs dir' (List.mem_cons_of_mem _ hdir')
    rw [eventLoop, unionLoop, judgeEvents,
      snprintf_of_fits (tracefs_fits (hdirs dir List.mem_cons_self)).1]
    cases fs.opendir (eventsDir dir) with
    | none => exact hrest haveBase
    | some names =>
      dsimp only
      cases anySubsystem fs (eventsDir dir) event names with
      | true => rfl
      | false => exact hrest true

theorem anySubsystem_iff (fs : FileView) {events event : CStr} {names : List CStr}
    (hfit : ∀ name ∈ names, (eventPath events name event).length < pathMax) :
    anySubsystem fs events event names = true ↔
      ∃ name ∈ names, name.head? ≠ some '.' ∧ fs.access (eventPath events name event) = true := by
  induction names with
  | nil => simp [anySubsystem]
  | cons name names ih =>
    have hrest := ih fun name' hname' => hfit name' (List.mem_cons_of_mem _ hname')
    have hpath := hfit name List.mem_cons_self
    rw [anySubsystem, if_neg (Nat.not_le.mpr hpath)]
    by_cases hdot : name.head? = some '.'
    · rw [if_pos hdot, hrest]
      simp [hdot]
    · rw [if_neg hdot]
      split
      · next haccess => simp [hdot, haccess]
      · next haccess => simp [hdot, haccess, hrest]

/-! ## Section names -/

/-- The forms of section names. -/
def functionKinds : List CStr :=
  ["kprobe".toList, "kretprobe".toList, "fentry".toList, "fexit".toList, "fmod_ret".toList]
def tracepointKinds : List CStr := ["tracepoint".toList, "tp".toList]
def rawKinds : List CStr := ["raw_tracepoint".toList, "raw_tp".toList, "tp_btf".toList]

theorem slash_inj {a b x y : CStr} (ha : '/' ∉ a) (hb : '/' ∉ b)
    (h : a ++ '/' :: x = b ++ '/' :: y) : a = b ∧ x = y := by
  rcases append_cons_cases h with ⟨hab, -, hxy⟩ | ⟨m, hm⟩ | ⟨m, hm⟩
  · exact ⟨hab, hxy⟩
  · exact absurd (hm ▸ List.mem_append_right _ List.mem_cons_self) hb
  · exact absurd (hm ▸ List.mem_append_right _ List.mem_cons_self) ha

theorem not_slash {a : CStr} (ha : '/' ∉ a) : ∀ c ∈ a, (c != '/') = true := by
  intro c hc
  rw [bne_iff_ne]
  rintro rfl
  exact ha hc

theorem takeWhile_slash {a : CStr} (ha : '/' ∉ a) (x : CStr) :
    (a ++ '/' :: x).takeWhile (fun c => c != '/') = a := by
  rw [List.takeWhile_append_of_pos (not_slash ha)]
  exact List.append_nil a

theorem afterSlash_slash {a : CStr} (ha : '/' ∉ a) (x : CStr) :
    afterSlash (a ++ '/' :: x) = some x := by
  rw [afterSlash, List.dropWhile_append_of_pos (not_slash ha)]
  rfl

theorem afterSlash_none {a : CStr} (ha : '/' ∉ a) : afterSlash a = none := by
  rw [afterSlash, List.dropWhile_eq_nil_iff.mpr (not_slash ha)]

/-- `strncmp` with a kind and its slash. -/
theorem kind_prefix_iff {a b : CStr} (ha : '/' ∉ a) (hb : '/' ∉ b) (x : CStr) :
    a ++ ['/'] <+: b ++ '/' :: x ↔ a = b := by
  constructor
  · rintro ⟨y, hy⟩
    rw [List.append_assoc] at hy
    exact (slash_inj ha hb hy).1
  · rintro rfl
    exact ⟨x, by rw [List.append_assoc]; rfl⟩

/-- A string without a slash, or its part up to the first one and the rest. -/
theorem slash_cases (s : CStr) : '/' ∉ s ∨ ∃ a x, '/' ∉ a ∧ s = a ++ '/' :: x := by
  by_cases h : '/' ∈ s
  · obtain ⟨a, x, hs, ha⟩ := List.eq_append_cons_of_mem h
    exact .inr ⟨a, x, ha, hs⟩
  · exact .inl h

/-- **The verdict on a section name** goes by its kind. -/
theorem secAvailable_slash (fs : FileView) {kind : CStr} (hkind : '/' ∉ kind) (target : CStr) :
    secAvailable fs (kind ++ '/' :: target) =
      if kind ∈ functionKinds then usbtraceKfuncAvailable fs target
      else if kind ∈ tracepointKinds then
        match afterSlash target with
        | none => .unknown
        | some event =>
          if (target.takeWhile fun c => c != '/').length ≥ 64 then .unknown
          else usbtraceTracepointAvailable fs (target.takeWhile fun c => c != '/') event
      else if kind ∈ rawKinds then usbtraceTracepointEventAvailable fs target
      else .unknown := by
  have hform (k : CStr) (hk : '/' ∉ k) : k ++ ['/'] <+: kind ++ '/' :: target ↔ kind = k := by
    rw [kind_prefix_iff hk hkind]
    exact eq_comm
  have hfunction : ("kprobe/".toList <+: kind ++ '/' :: target ∨
      "kretprobe/".toList <+: kind ++ '/' :: target ∨
      "fentry/".toList <+: kind ++ '/' :: target ∨ "fexit/".toList <+: kind ++ '/' :: target ∨
      "fmod_ret/".toList <+: kind ++ '/' :: target) ↔ kind ∈ functionKinds := by
    have h1 := hform "kprobe".toList (by decide)
    have h2 := hform "kretprobe".toList (by decide)
    have h3 := hform "fentry".toList (by decide)
    have h4 := hform "fexit".toList (by decide)
    have h5 := hform "fmod_ret".toList (by decide)
    simp only [functionKinds, List.mem_cons, List.not_mem_nil, or_false, ← h1, ← h2, ← h3, ← h4,
      ← h5]
    rfl
  have htracepoint : ("tracepoint/".toList <+: kind ++ '/' :: target ∨
      "tp/".toList <+: kind ++ '/' :: target) ↔ kind ∈ tracepointKinds := by
    have h1 := hform "tracepoint".toList (by decide)
    have h2 := hform "tp".toList (by decide)
    simp only [tracepointKinds, List.mem_cons, List.not_mem_nil, or_false, ← h1, ← h2]
    rfl
  have hraw : ("raw_tracepoint/".toList <+: kind ++ '/' :: target ∨
      "raw_tp/".toList <+: kind ++ '/' :: target ∨ "tp_btf/".toList <+: kind ++ '/' :: target) ↔
      kind ∈ rawKinds := by
    have h1 := hform "raw_tracepoint".toList (by decide)
    have h2 := hform "raw_tp".toList (by decide)
    have h3 := hform "tp_btf".toList (by decide)
    simp only [rawKinds, List.mem_cons, List.not_mem_nil, or_false, ← h1, ← h2, ← h3]
    rfl
  unfold secAvailable
  rw [afterSlash_slash hkind]
  apply if_congr hfunction rfl
  refine if_congr htracepoint ?_ (if_congr hraw rfl rfl)
  cases afterSlash target <;> rfl

end UsbTrace.Interface
