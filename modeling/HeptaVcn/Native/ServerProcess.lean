import HeptaVcn.Native.TunnelServer

/-!
# A server process and the kernel under it

A process is the program it still has to run, or the event loop it is in, together
with what the kernel keeps for it: its UDP socket with the queue of datagrams not
yet received, and a record of the calls that matter later. The kernel lets any
endpoint send datagrams at any time after the bind; a connected socket accepts
new ones only from its peer, but `connect` leaves the queue as it is.
-/

namespace HeptaVcn

open Machine

/-- A thread runs a program or is inside `event_base_dispatch`. -/
inductive Thread (α : Type) where
  | running (p : Program Sys α)
  | dispatching (l : EventLoop) (next : ℤ → Program Sys α)

/-- The thread has entered its relay loop. -/
def Thread.isDispatching {α : Type} : Thread α → Bool
  | .running _ => false
  | .dispatching .. => true

/-- A datagram that arrived at a socket, numbered in the order of arrival. -/
structure Datagram where
  seq : ℕ
  src : SockAddrIn
  payload : List UInt8
  deriving DecidableEq, Repr

/-- What the kernel keeps for one process. -/
structure Kernel where
  /-- The UDP socket is bound to a port. -/
  bound : Bool
  /-- The address the UDP socket is connected to. -/
  peer : Option SockAddrIn
  /-- The datagrams received by the kernel and not yet by the process. -/
  queue : List Datagram
  /-- Every datagram that has arrived since the bind. -/
  arrivals : List Datagram
  /-- What the calls of `read` on the control connection returned. -/
  tcpRead : List (List UInt8)
  /-- The first datagram that `recvfrom` took. -/
  hello : Option Datagram
  deriving DecidableEq, Repr

namespace Kernel

/-- The kernel state of a process without a UDP socket. -/
def fresh : Kernel := ⟨false, none, [], [], [], none⟩

/-- The nonce: the first integer read over the control connection. -/
def nonce (k : Kernel) : Option CInt := k.tcpRead.head?.map intOfBytes

/-- The replies the kernel may give: `recvfrom` takes the first datagram of the queue,
cut off at the length of the buffer, or fails. Every other call may succeed or
fail, except that `event_base_dispatch` does not reply at once. -/
def admits (k : Kernel) : (op : Syscall) → op.Reply → Bool
  | .recvfrom _ len, some (bytes, src) =>
    k.queue.head?.any fun d => bytes = d.payload.take len && src = d.src
  | .eventBaseDispatch _, _ => false
  | _, _ => true

/-- The kernel state after a call with the given reply. -/
def after (k : Kernel) : (op : Syscall) → op.Reply → Kernel
  | .read .., some bytes => { k with tcpRead := k.tcpRead ++ [bytes] }
  | .bind .., r => { k with bound := k.bound || r = (0 : ℤ) }
  | .connect _ addr, r => { k with peer := if r = (0 : ℤ) then some addr else k.peer }
  | .recvfrom .., some _ =>
    { k with queue := k.queue.tail, hello := k.hello.or k.queue.head? }
  | _, _ => k

/-- A datagram arrives: it is queued unless the socket is connected to another source. -/
def arrive (k : Kernel) (src : SockAddrIn) (payload : List UInt8) : Kernel :=
  let d : Datagram := ⟨k.arrivals.length, src, payload⟩
  { k with
    arrivals := k.arrivals ++ [d]
    queue := if k.peer = none ∨ k.peer = some src then k.queue ++ [d] else k.queue }

end Kernel

/-- A process of the server. -/
structure ServerProcess where
  thread : Thread Unit
  kernel : Kernel

/-- What can happen to a process: it makes a call or enters its event loop, the loop
receives a datagram or sees another event, a datagram arrives from the network. -/
inductive Action where
  | call (op : Syscall) (reply : op.Reply)
  | dispatch
  | receive (d : Datagram)
  | relay (e : Event)
  | leave (code : ℤ)
  | arrive (src : SockAddrIn) (payload : List UInt8)

/-- What reading a datagram is for the event loop: an empty one is an end of file. -/
def Datagram.event (d : Datagram) : Event :=
  if d.payload = [] then .fault .udp .readEof else .read .udp d.payload

/-- An event that takes a datagram from the UDP socket. -/
def Event.takesDatagram : Event → Bool
  | .read .udp _ | .fault .udp .readEof => true
  | _ => false

namespace ServerProcess

/-- One step of a process or of the kernel under it. -/
def step (w : ServerProcess) : Action → Option ServerProcess
  | .call op r =>
    match w.thread with
    | .running p =>
      if w.kernel.admits op r then
        (p.resume op r).map fun q => ⟨.running q, w.kernel.after op r⟩
      else none
    | .dispatching .. => none
  | .dispatch =>
    match w.thread with
    | .running (.call (.eventBaseDispatch l) next) => some ⟨.dispatching l next, w.kernel⟩
    | _ => none
  | .receive d =>
    match w.thread with
    | .dispatching l next =>
      if w.kernel.queue.head? = some d then
        (l.step TunnelServer.callbacks d.event).map fun l =>
          ⟨.dispatching l next, { w.kernel with queue := w.kernel.queue.tail }⟩
      else none
    | .running _ => none
  | .relay e =>
    match w.thread with
    | .dispatching l next =>
      if e.takesDatagram then none
      else (l.step TunnelServer.callbacks e).map fun l => ⟨.dispatching l next, w.kernel⟩
    | .running _ => none
  | .leave code =>
    match w.thread with
    | .dispatching l next => if l.returns then some ⟨.running (next code), w.kernel⟩ else none
    | .running _ => none
  | .arrive src payload =>
    if w.kernel.bound then some ⟨w.thread, w.kernel.arrive src payload⟩ else none

variable {w w' : ServerProcess}

/-- A call returns with a reply that the kernel admits, and the kernel changes with it. -/
theorem step_call {op : Syscall} {r : op.Reply} :
    w.step (.call op r) = some w' ↔ ∃ next, w.thread = .running (.call op next) ∧
      w.kernel.admits op r ∧ w' = ⟨.running (next r), w.kernel.after op r⟩ := by
  obtain ⟨thread, k⟩ := w
  cases thread with
  | running p =>
    simp only [step, Option.ite_none_right_eq_some, Option.map_eq_some_iff, Program.resume_eq_some,
      Thread.running.injEq, eq_comm (a := w')]
    constructor
    · rintro ⟨hadmits, _, ⟨next, rfl, rfl⟩, rfl⟩
      exact ⟨next, rfl, hadmits, rfl⟩
    · rintro ⟨next, rfl, hadmits, rfl⟩
      exact ⟨hadmits, _, ⟨next, rfl, rfl⟩, rfl⟩
  | dispatching l next => simp [step]

/-- A thread that waits in `event_base_dispatch` enters the loop. -/
theorem step_dispatch :
    w.step .dispatch = some w' ↔ ∃ l next,
      w.thread = .running (.call (.eventBaseDispatch l) next) ∧
        w' = ⟨.dispatching l next, w.kernel⟩ := by
  simp only [step]
  split
  case h_1 l next heq =>
    simp only [Option.some.injEq, heq, eq_comm (a := w')]
    constructor
    · rintro rfl
      exact ⟨l, next, rfl, rfl⟩
    · rintro ⟨l', next', h, rfl⟩
      cases h
      rfl
  case h_2 h =>
    simp only [reduceCtorEq, false_iff]
    rintro ⟨l, next, heq, _⟩
    exact h l next heq

/-- The loop reads the first datagram in the queue. -/
theorem step_receive {d : Datagram} :
    w.step (.receive d) = some w' ↔ ∃ l next l', w.thread = .dispatching l next ∧
      w.kernel.queue.head? = some d ∧ l.step TunnelServer.callbacks d.event = some l' ∧
        w' = ⟨.dispatching l' next, { w.kernel with queue := w.kernel.queue.tail }⟩ := by
  obtain ⟨thread, k⟩ := w
  cases thread with
  | running p => simp [step]
  | dispatching l next =>
    simp only [step, Option.ite_none_right_eq_some, Option.map_eq_some_iff,
      Thread.dispatching.injEq, eq_comm (a := w')]
    constructor
    · rintro ⟨hqueue, l', hl, rfl⟩
      exact ⟨l, next, l', ⟨rfl, rfl⟩, hqueue, hl, rfl⟩
    · rintro ⟨_, _, l', ⟨rfl, rfl⟩, hqueue, hl, rfl⟩
      exact ⟨hqueue, l', hl, rfl⟩

/-- The loop handles an event that takes no datagram, and the kernel stays as it is. -/
theorem step_relay {e : Event} :
    w.step (.relay e) = some w' ↔ ∃ l next l', w.thread = .dispatching l next ∧
      e.takesDatagram = false ∧ l.step TunnelServer.callbacks e = some l' ∧
        w' = ⟨.dispatching l' next, w.kernel⟩ := by
  obtain ⟨thread, k⟩ := w
  cases thread with
  | running p => simp [step]
  | dispatching l next =>
    simp only [step, Option.ite_none_left_eq_some, Option.map_eq_some_iff,
      Thread.dispatching.injEq, eq_comm (a := w'), Bool.not_eq_true]
    constructor
    · rintro ⟨htakes, l', hl, rfl⟩
      exact ⟨l, next, l', ⟨rfl, rfl⟩, htakes, hl, rfl⟩
    · rintro ⟨_, _, l', ⟨rfl, rfl⟩, htakes, hl, rfl⟩
      exact ⟨htakes, l', hl, rfl⟩

/-- The call of `event_base_dispatch` returns once the loop has nothing more to do. -/
theorem step_leave {code : ℤ} :
    w.step (.leave code) = some w' ↔ ∃ l next, w.thread = .dispatching l next ∧
      l.returns = true ∧ w' = ⟨.running (next code), w.kernel⟩ := by
  obtain ⟨thread, k⟩ := w
  cases thread with
  | running p => simp [step]
  | dispatching l next =>
    simp only [step, Option.ite_none_right_eq_some, Option.some.injEq, Thread.dispatching.injEq,
      eq_comm (a := w')]
    constructor
    · rintro ⟨hreturns, rfl⟩
      exact ⟨l, next, ⟨rfl, rfl⟩, hreturns, rfl⟩
    · rintro ⟨_, _, ⟨rfl, rfl⟩, hreturns, rfl⟩
      exact ⟨hreturns, rfl⟩

/-- A datagram can arrive once the socket is bound. -/
theorem step_arrive {src : SockAddrIn} {payload : List UInt8} :
    w.step (.arrive src payload) = some w' ↔
      w.kernel.bound = true ∧ w' = ⟨w.thread, w.kernel.arrive src payload⟩ := by
  simp only [step, Option.ite_none_right_eq_some, Option.some.injEq, eq_comm (a := w')]

end ServerProcess

end HeptaVcn
