import Mathlib.Data.Int.Notation
import HeptaVcn.Machine.Run

/-!
# The libevent relay loop

Both ends of the IP tunnel run one event loop over two bufferevents, one for the
TUN device and one for the UDP socket, and one event that watches the control
connection. This file models what libevent does with them; the callbacks are a
parameter, since the two ends define their own.
-/

namespace HeptaVcn

/-- The two descriptors a relay moves packets between. -/
inductive Side where
  | tun
  | udp
  deriving DecidableEq, Repr

/-- The opposite descriptor. -/
def Side.other : Side → Side
  | .tun => .udp
  | .udp => .tun

/-- The other of the other side is the side itself. -/
@[simp] theorem Side.other_other (d : Side) : d.other.other = d := by cases d <;> rfl

/-- The other side is a different one. -/
@[simp] theorem Side.other_ne (d : Side) : d.other ≠ d := by cases d <;> decide

/-- A side differs from the other one. -/
@[simp] theorem Side.ne_other (d : Side) : d ≠ d.other := by cases d <;> decide

/-- There are only two sides. -/
theorem Side.eq_or_eq_other (d e : Side) : e = d ∨ e = d.other := by
  cases d <;> cases e <;> simp [Side.other]

/-- One `bufferevent`: its two byte buffers, the directions it is enabled for, the
deferred read callback, and what `bufferevent_setcb` passes to the callbacks. -/
structure Bufferevent where
  fd : ℤ
  /-- `bufferevent_get_input` -/
  input : List UInt8
  /-- `bufferevent_get_output` -/
  output : List UInt8
  /-- `EV_READ` is enabled. -/
  readEnabled : Bool
  /-- `EV_WRITE` is enabled. -/
  writeEnabled : Bool
  /-- `BEV_OPT_DEFER_CALLBACKS`: the read callback is queued to run later. -/
  readcbPending : Bool
  /-- The callback argument, the bufferevent of the opposite descriptor. -/
  ctx : Side
  deriving DecidableEq, Repr

/-- `bufferevent_socket_new(base, fd, BEV_OPT_CLOSE_ON_FREE|BEV_OPT_DEFER_CALLBACKS)`
followed by `bufferevent_setcb(.., ctx)`: writing is enabled, reading is not. -/
def Bufferevent.new (fd : ℤ) (ctx : Side) : Bufferevent :=
  ⟨fd, [], [], false, true, false, ctx⟩

/-- `bufferevent_enable(bev, EV_READ | ..)`; the other flags change nothing here. -/
def Bufferevent.enableRead (b : Bufferevent) : Bufferevent := { b with readEnabled := true }

/-- An event base with the two bufferevents and the control event of a relay,
and what the kernel has done to the descriptors under it. -/
structure EventLoop where
  tunBufEv : Bufferevent
  udpBufEv : Bufferevent
  /-- The non-persistent `EV_CLOSED` event on the control connection is pending. -/
  evTcp : Bool
  /-- `event_base_loopbreak` has been called. -/
  loopbreak : Bool
  /-- The control connection is closed, by the peer or by a shutdown at this end. -/
  tcpClosed : Bool
  /-- The TUN descriptor has been closed under the loop. -/
  tunClosed : Bool
  deriving DecidableEq, Repr

namespace EventLoop

/-- The bufferevent of one descriptor. -/
def bev (l : EventLoop) : Side → Bufferevent
  | .tun => l.tunBufEv
  | .udp => l.udpBufEv

/-- Change the bufferevent of one descriptor. -/
def modify (l : EventLoop) (d : Side) (f : Bufferevent → Bufferevent) : EventLoop :=
  match d with
  | .tun => { l with tunBufEv := f l.tunBufEv }
  | .udp => { l with udpBufEv := f l.udpBufEv }

/-- Modifying one side's bufferevent modifies that bufferevent. -/
@[simp] theorem bev_modify_self (l : EventLoop) (d : Side) (f : Bufferevent → Bufferevent) :
    (l.modify d f).bev d = f (l.bev d) := by cases d <;> rfl

/-- Modifying one side leaves the other alone. -/
@[simp] theorem bev_modify_other (l : EventLoop) (d : Side) (f : Bufferevent → Bufferevent) :
    (l.modify d f).bev d.other = l.bev d.other := by cases d <;> rfl

/-- Modifying the other side leaves this one alone. -/
@[simp] theorem bev_modify_of_other (l : EventLoop) (d : Side) (f : Bufferevent → Bufferevent) :
    (l.modify d.other f).bev d = l.bev d := by cases d <;> rfl

/-- The listening event is no part of a bufferevent. -/
@[simp] theorem bev_evTcp (l : EventLoop) (b : Bool) (d : Side) :
    { l with evTcp := b }.bev d = l.bev d := by cases d <;> rfl

/-- The flag of the closed TCP connection is no part of a bufferevent. -/
@[simp] theorem bev_tcpClosed (l : EventLoop) (b : Bool) (d : Side) :
    { l with tcpClosed := b }.bev d = l.bev d := by cases d <;> rfl

/-- The flag of the closed TUN descriptor is no part of a bufferevent. -/
@[simp] theorem bev_tunClosed (l : EventLoop) (b : Bool) (d : Side) :
    { l with tunClosed := b }.bev d = l.bev d := by cases d <;> rfl

/-- Modifying a bufferevent does not break the loop. -/
@[simp] theorem loopbreak_modify (l : EventLoop) (d : Side) (f : Bufferevent → Bufferevent) :
    (l.modify d f).loopbreak = l.loopbreak := by cases d <;> rfl

/-- Modifying a bufferevent does not close the TCP connection. -/
@[simp] theorem tcpClosed_modify (l : EventLoop) (d : Side) (f : Bufferevent → Bufferevent) :
    (l.modify d f).tcpClosed = l.tcpClosed := by cases d <;> rfl

end EventLoop

/-- What turns a direction of a bufferevent off. -/
inductive Fault where
  | readEof
  | readError
  | writeError
  deriving DecidableEq, Repr

/-- The callbacks an end registers: `__on_recv`, `__on_error` and `__on_tcp_error`. -/
structure Callbacks where
  recv : Side → EventLoop → EventLoop
  error : Side → Fault → EventLoop → EventLoop
  tcpError : EventLoop → EventLoop

/-- What can happen at one end: a descriptor is readable or writable, a deferred
callback runs, the control connection is closed or the event watching it fires. -/
inductive Event where
  | read (d : Side) (packet : List UInt8)
  | readcb (d : Side)
  | write (d : Side) (bytes : List UInt8)
  | fault (d : Side) (f : Fault)
  | tcpClose
  | tunClose
  | tcpEvent
  deriving DecidableEq, Repr

namespace EventLoop

/-- The descriptor of side `d` has not been closed under the loop. -/
def descriptorOpen (l : EventLoop) (d : Side) : Bool := d = .udp || !l.tunClosed

/-- The direction a fault concerns is in use. -/
def canFault (l : EventLoop) (d : Side) : Fault → Bool
  | .readEof | .readError => (l.bev d).readEnabled
  | .writeError => (l.bev d).writeEnabled && (l.bev d).output ≠ []

/-- A fault turns its direction off. -/
def disable : Fault → Bufferevent → Bufferevent
  | .readEof | .readError => fun b => { b with readEnabled := false }
  | .writeError => fun b => { b with writeEnabled := false }

/-- An event can happen: a callback needs the loop to be running and its event to be
active, a `read` returns at least one byte and a `write` is offered the whole output
buffer. The kernel closes descriptors whenever it likes. A packet is assumed to fit the 4096
bytes that libevent reads at once, and the output buffer the 16384 that it writes at once. -/
def enabled (l : EventLoop) : Event → Bool
  | .read d packet =>
    !l.loopbreak && (l.bev d).readEnabled && l.descriptorOpen d && packet ≠ []
  | .readcb d => !l.loopbreak && (l.bev d).readcbPending
  | .write d bytes =>
    !l.loopbreak && (l.bev d).writeEnabled && l.descriptorOpen d &&
      bytes = (l.bev d).output && bytes ≠ []
  | .fault d f => !l.loopbreak && l.canFault d f
  | .tcpClose | .tunClose => true
  | .tcpEvent => !l.loopbreak && l.evTcp && l.tcpClosed

/-- What an event does: a `read` appends one whole packet and queues the read
callback, a `write` empties the output buffer, a fault disables its direction and
calls the event callback, and the control event is no longer pending once it fires. -/
def after (cb : Callbacks) (l : EventLoop) : Event → EventLoop
  | .read d packet =>
    l.modify d fun b => { b with input := b.input ++ packet, readcbPending := true }
  | .readcb d => cb.recv d (l.modify d fun b => { b with readcbPending := false })
  | .write d _ => l.modify d fun b => { b with output := [] }
  | .fault d f => cb.error d f (l.modify d (disable f))
  | .tcpClose => { l with tcpClosed := true }
  | .tunClose => { l with tunClosed := true }
  | .tcpEvent => cb.tcpError { l with evTcp := false }

/-- One step of `event_base_dispatch`, or of the kernel under it. -/
def step (cb : Callbacks) (l : EventLoop) (e : Event) : Option EventLoop :=
  if l.enabled e then some (l.after cb e) else none

/-- A loop takes a step exactly on an enabled event. -/
theorem step_eq_some {cb : Callbacks} {l l' : EventLoop} {e : Event} :
    l.step cb e = some l' ↔ l.enabled e ∧ l' = l.after cb e := by
  simp only [step, Option.ite_none_right_eq_some, Option.some.injEq, eq_comm (a := l')]

/-- Some event is still pending: a bufferevent enabled for reading, output waiting
for an enabled writer, a deferred callback, or the control event. -/
def pending (l : EventLoop) : Bool :=
  l.evTcp || [Side.tun, Side.udp].any fun d =>
    (l.bev d).readEnabled || (l.bev d).readcbPending ||
      ((l.bev d).writeEnabled && (l.bev d).output ≠ [])

/-- `event_base_dispatch` returns only when asked to break or when nothing is pending. -/
def returns (l : EventLoop) : Bool := l.loopbreak || !l.pending

end EventLoop

end HeptaVcn
