import UsbTrace.Model.Output
import UsbTrace.Library.LineReader

/-!
# Probing for hooks

`usbtrace_autoload_filter` and what it calls (probe.c), over what the process finds in
`/proc` and in tracefs.
-/

set_option autoImplicit false

namespace UsbTrace.Model

open UsbTrace.Library

/-- What the process finds at a path: the text of a file, whether the path exists, the entries
of a directory. -/
structure FileView where
  fopen : CStr → Option (List Char)
  access : CStr → Bool
  opendir : CStr → Option (List CStr)

/-- The verdicts 1, 0 and -1 on a target. -/
inductive Availability where
  | present | absent | unknown
deriving DecidableEq, Repr

/-- `TRACEFS` (probe.c:15-19). -/
def tracefs : List CStr := ["/sys/kernel/tracing".toList, "/sys/kernel/debug/tracing".toList]

def kallsyms : CStr := "/proc/kallsyms".toList
def availableFilterFunctions (dir : CStr) : CStr := dir ++ "/available_filter_functions".toList
def eventsDir (dir : CStr) : CStr := dir ++ "/events".toList

/-- `<events>/<subsys>/<event>`. -/
def eventPath (events subsys event : CStr) : CStr := events ++ '/' :: (subsys ++ '/' :: event)

/-- The delimiters of `strtok_r(line, " \t\n", &save)`. -/
def isBlank (c : Char) : Bool := c = ' ' || c = '\t' || c = '\n'

/-- Whether the symbol of a line is `name` (probe.c:37-49): the line is a string up to its
first NUL. -/
def symbolInLine (name : CStr) (symField : ℕ) (line : List Char) : Bool :=
  tokenAt isBlank symField (line.takeWhile fun c => c != '\x00') = some name

/-- `symbol_in_file` (probe.c:27-53). -/
def symbolInFile (fs : FileView) (path name : CStr) (symField : ℕ) : Availability :=
  match fs.fopen path with
  | none => .unknown
  | some file =>
    if anyLine 511 (symbolInLine name symField) file.length file then .present else .absent

/-- The loop of `usbtrace_kfunc_available` (probe.c:79-88). -/
def kfuncLoop (fs : FileView) (name : CStr) : List CStr → Bool → Availability
  | [], readable => if readable then .absent else .unknown
  | dir :: dirs, readable =>
    match symbolInFile fs (snprintf 256 (availableFilterFunctions dir)) name 0 with
    | .present => .present
    | .absent => kfuncLoop fs name dirs true
    | .unknown => kfuncLoop fs name dirs readable

/-- `usbtrace_kfunc_available` (probe.c:55-89). -/
def usbtraceKfuncAvailable (fs : FileView) (name : CStr) : Availability :=
  if name = [] then .unknown
  else
    match symbolInFile fs kallsyms name 2 with
    | .present => .present
    | .absent => kfuncLoop fs name tracefs true
    | .unknown => kfuncLoop fs name tracefs false

/-- The loop of `usbtrace_tracepoint_available` (probe.c:99-110). -/
def tracepointLoop (fs : FileView) (subsys event : CStr) : List CStr → Bool → Availability
  | [], haveBase => if haveBase then .absent else .unknown
  | dir :: dirs, haveBase =>
    let haveBase := fs.access (snprintf 256 (eventsDir dir)) || haveBase
    if fs.access (snprintf 256 (eventPath (eventsDir dir) subsys event)) then .present
    else tracepointLoop fs subsys event dirs haveBase

/-- `usbtrace_tracepoint_available` (probe.c:91-111). -/
def usbtraceTracepointAvailable (fs : FileView) (subsys event : CStr) : Availability :=
  tracepointLoop fs subsys event tracefs false

/-- `PATH_MAX`. -/
def pathMax : ℕ := 4096

/-- The loop over the subsystems of a tree (probe.c:134-147). -/
def anySubsystem (fs : FileView) (events event : CStr) : List CStr → Bool
  | [] => false
  | name :: names =>
    if name.head? = some '.' then anySubsystem fs events event names
    else if (eventPath events name event).length ≥ pathMax then
      anySubsystem fs events event names
    else if fs.access (eventPath events name event) then true
    else anySubsystem fs events event names

/-- The loop of `usbtrace_tracepoint_event_available` (probe.c:125-151). -/
def eventLoop (fs : FileView) (event : CStr) : List CStr → Bool → Availability
  | [], haveBase => if haveBase then .absent else .unknown
  | dir :: dirs, haveBase =>
    let events := snprintf 256 (eventsDir dir)
    match fs.opendir events with
    | none => eventLoop fs event dirs haveBase
    | some names =>
      if anySubsystem fs events event names then .present else eventLoop fs event dirs true

/-- `usbtrace_tracepoint_event_available` (probe.c:117-152). -/
def usbtraceTracepointEventAvailable (fs : FileView) (event : CStr) : Availability :=
  if event = [] then .unknown else eventLoop fs event tracefs false

/-- What follows the first slash of a string. -/
def afterSlash (s : CStr) : Option CStr :=
  match s.dropWhile fun c => c != '/' with
  | [] => none
  | _ :: rest => some rest

/-- `sec_available` (probe.c:158-197). -/
def secAvailable (fs : FileView) (sec : CStr) : Availability :=
  match afterSlash sec with
  | none => .unknown
  | some target =>
    if "kprobe/".toList <+: sec ∨ "kretprobe/".toList <+: sec ∨ "fentry/".toList <+: sec ∨
        "fexit/".toList <+: sec ∨ "fmod_ret/".toList <+: sec then
      usbtraceKfuncAvailable fs target
    else if "tracepoint/".toList <+: sec ∨ "tp/".toList <+: sec then
      match afterSlash target with
      | none => .unknown
      | some event =>
        let subsys := target.takeWhile fun c => c != '/'
        if subsys.length ≥ 64 then .unknown else usbtraceTracepointAvailable fs subsys event
    else if "raw_tracepoint/".toList <+: sec ∨ "raw_tp/".toList <+: sec ∨
        "tp_btf/".toList <+: sec then
      usbtraceTracepointEventAvailable fs target
    else .unknown

/-- A `struct bpf_program` of an opened object. -/
structure BpfProgram where
  sectionName : CStr
  autoload : Bool := true
deriving DecidableEq, Repr

/-- `usbtrace_autoload_filter` (probe.c:199-216): the programs of the object afterwards, and
the number returned. -/
def usbtraceAutoloadFilter (fs : FileView) : List BpfProgram → List BpfProgram × ℕ
  | [] => ([], 0)
  | prog :: obj =>
    let (obj, enabled) := usbtraceAutoloadFilter fs obj
    if secAvailable fs prog.sectionName = .absent then
      ({ prog with autoload := false } :: obj, enabled)
    else (prog :: obj, enabled + 1)

end UsbTrace.Model
