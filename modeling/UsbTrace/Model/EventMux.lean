import UsbTrace.Model.Session
import UsbTrace.Library.Ledger
import UsbTrace.Library.Lanes

/-!
# The event consumer

`usbtrace_evmux` (evmux.c): the `events` maps of several modules behind one poll.  The
transport is fixed at build time, a ring buffer or one perf buffer for each module.  What
libbpf and the kernel answer to a call is given with the call; a record waits in its
module's map until the library hands it to the callback, and how records are kept meanwhile is a
parameter (`Buffers`).
-/

set_option autoImplicit false

namespace UsbTrace.Model

open UsbTrace.Library

/-- `errno` values (errno.h). -/
def eintr : ℤ := 4
def eagain : ℤ := 11
def einval : ℤ := 22
def enospc : ℤ := 28

/-- `USBTRACE_EVENTS` (config.mk). -/
inductive Transport where
  | ringbuf | perf
deriving DecidableEq, Repr

/-- What the process allocates or opens and has to give back. -/
inductive Resource where
  | file | fileText | yamlParser | yamlDocument
  | ruleArray
  | ruleText (rule : ℕ) (text : RuleText)
  | engine
  | skeleton (s : Source)
  | mux | epoll | ringBuffer
  | perfBuffer (s : Source)
deriving DecidableEq, Repr

/-- `EVMUX_MAX_SRCS`. -/
def evmuxMaxSrcs : ℕ := 16

/-- `struct usbtrace_evmux`: the sources added so far, in order; with the ring buffer the
first of them creates `rb` and the others join it. -/
structure Evmux where
  transport : Transport
  srcs : List Source
deriving DecidableEq, Repr

/-- `usbtrace_evmux_new` (evmux.c:79-93, 191-200): whether the allocation and, for perf, the
epoll set succeed is given. -/
def usbtraceEvmuxNew (transport : Transport) (alloc epoll : Bool) :
    Option Evmux × List (Use Resource) :=
  if !alloc then (none, [])
  else match transport with
    | .ringbuf => (some ⟨.ringbuf, []⟩, [.acquire .mux])
    | .perf =>
      if !epoll then (none, [.acquire .mux, .release .mux])
      else (some ⟨.perf, []⟩, [.acquire .mux, .acquire .epoll])

/-- What is answered while a source is added: the map's descriptor, 0 or `-errno` of opening
its buffer, and for each CPU of a perf buffer its descriptor and what `epoll_ctl` makes of
it. -/
structure AddAnswer where
  fd : ℤ := 3
  opened : ℤ := 0
  cpus : List (ℤ × ℤ) := []
deriving DecidableEq, Repr

/-- The loop over the CPUs; the slot of one that is offline is skipped (evmux.c:116-131). -/
def addCpus : List (ℤ × ℤ) → ℤ
  | [] => 0
  | (cfd, rc) :: rest =>
    if cfd < 0 then addCpus rest
    else if rc ≠ 0 then rc
    else addCpus rest

/-- `usbtrace_evmux_add` (evmux.c:95-135, 202-217). -/
def usbtraceEvmuxAdd (m : Evmux) (src : Source) (a : AddAnswer) :
    Evmux × ℤ × List (Use Resource) :=
  if a.fd < 0 then (m, -einval, [])
  else match m.transport with
    | .perf =>
      if m.srcs.length ≥ evmuxMaxSrcs then (m, -enospc, [])
      else if a.opened ≠ 0 then (m, a.opened, [])
      else if addCpus a.cpus ≠ 0 then
        (m, addCpus a.cpus, [.acquire (.perfBuffer src), .release (.perfBuffer src)])
      else ({ m with srcs := m.srcs ++ [src] }, 0, [.acquire (.perfBuffer src)])
    | .ringbuf =>
      if a.opened ≠ 0 then (m, a.opened, [])
      else ({ m with srcs := m.srcs ++ [src] }, 0,
        if m.srcs = [] then [.acquire .ringBuffer] else [])

/-- `usbtrace_evmux_free` (evmux.c:170-181, 226-232). -/
def usbtraceEvmuxFree : Option Evmux → List (Use Resource)
  | none => []
  | some m =>
    match m.transport with
    | .perf => m.srcs.map (fun s => .release (.perfBuffer s)) ++ [.release .epoll, .release .mux]
    | .ringbuf => (if m.srcs = [] then [] else [.release .ringBuffer]) ++ [.release .mux]

/-! ## Polling -/

/-- A record in its module's map: the CPU it was made on, and the record with what its ingest
will read. -/
structure Buffered extends Pending where
  cpu : ℕ

/-- A buffer records wait in: a module's ring buffer, or its perf buffer of one CPU. -/
structure Place where
  source : Source
  cpu : ℕ
deriving DecidableEq, Repr

/-- Where a record of a module waits that is made on a CPU (events.bpf.h:19-38). -/
def Transport.place (t : Transport) (s : Source) (cpu : ℕ) : Place :=
  match t with
  | .ringbuf => ⟨s, 0⟩
  | .perf => ⟨s, cpu⟩

def Buffered.place (t : Transport) (w : Buffered) : Place := t.place w.source w.cpu

/-- The records that wait in each buffer, oldest first. -/
abbrev Queues := Lanes Place Buffered

/-- How libbpf and the kernel keep them: what the hooks submit, and what one visit of a buffer
hands on. -/
abbrev Buffers := LaneOps Place Buffered

/-- What is answered to a poll.  Perf: the result of `epoll_wait`, and for each source the CPUs
`perf_buffer__consume` visits with the number of records it hands on, and its result.  Ring
buffer: the rings `ring_buffer__poll` visits with these numbers, and its result. -/
structure PollAnswer where
  ready : ℤ := 0
  consume : Source → List (ℕ × ℕ) × ℤ := fun _ => ([], 0)
  visits : List (Source × ℕ) := []
  result : ℤ := 0

/-- An error that does not end the loop it occurs in. -/
def transient (err : ℤ) : Bool := err = -eintr || err = -eagain

/-- The visits of one source's perf buffers. -/
def perfVisits (s : Source) (cpus : List (ℕ × ℕ)) : List (Place × ℕ) :=
  cpus.map fun c => (⟨s, c.1⟩, c.2)

/-- The loop over the perf buffers (evmux.c:158-166). -/
def perfConsume (buffers : Buffers) (consume : Source → List (ℕ × ℕ) × ℤ) :
    Queues → List Source → Queues × List Buffered × ℤ
  | qs, [] => (qs, [], 0)
  | qs, s :: rest =>
    let (cpus, err) := consume s
    let (qs, out) := takeVisits buffers qs (perfVisits s cpus)
    if err < 0 && !transient err then (qs, out, err)
    else
      let (qs, out', ret) := perfConsume buffers consume qs rest
      (qs, out ++ out', ret)

/-- The visits to the rings that joined. -/
def ringVisits (srcs : List Source) (visits : List (Source × ℕ)) : List (Place × ℕ) :=
  (visits.filter fun v => v.1 ∈ srcs).map fun v => (⟨v.1, 0⟩, v.2)

/-- `usbtrace_evmux_poll` (evmux.c:137-168, 219-224): the records it hands to the callback,
in order, and what it returns. -/
def usbtraceEvmuxPoll (buffers : Buffers) (m : Evmux) (qs : Queues) (a : PollAnswer) :
    Queues × List Buffered × ℤ :=
  if m.srcs = [] then (qs, [], -einval)
  else match m.transport with
    | .perf =>
      if a.ready < 0 then (qs, [], a.ready)
      else
        let (qs, out, err) := perfConsume buffers a.consume qs m.srcs
        (qs, out, if err < 0 then err else out.length)
    | .ringbuf =>
      let (qs, out) := takeVisits buffers qs (ringVisits m.srcs a.visits)
      (qs, out, a.result)

end UsbTrace.Model
