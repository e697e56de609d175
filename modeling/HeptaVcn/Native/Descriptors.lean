import Mathlib.Data.Fintype.Basic
import HeptaVcn.Machine.Run
import HeptaVcn.Machine.Sum
import HeptaVcn.Native.Entry

/-!
# The descriptors of a session, `IPreflectorTunnel.java`

The tunnel thread of one session, any number of calls of `stop`, and the descriptor table
that they share with the other threads of the process. The table says what each number
denotes; a number that was freed may be given out again at any moment.
-/

namespace HeptaVcn

open Machine

/-- The descriptors that a session opens. -/
inductive Role where
  | tun
  | udp
  | control
  deriving DecidableEq, Repr

instance : Fintype Role := ⟨{.tun, .udp, .control}, fun role => by cases role <;> simp⟩

/-- What `socket` opens. -/
def SocketType.role : SocketType → Role
  | .stream => .control
  | .dgram => .udp

/-- What a number denotes: a descriptor of the session, or one of another thread. -/
inductive Denoted where
  | session (role : Role)
  | other
  deriving DecidableEq, Repr

/-- The calls of the Java code around the native methods. -/
inductive JavaOp where
  /-- `NetInterface.getFd`, which throws once `NetInterface` is closed. -/
  | getFd
  /-- `updateRunStatus(false)` -/
  | updateRunStatus
  /-- `NetInterface.close`, of which only the first closes the descriptor. -/
  | close
  deriving DecidableEq, Repr

/-- The reply to each call. -/
abbrev JavaOp.Reply : JavaOp → Type
  | .getFd => ℤ
  | .updateRunStatus | .close => Unit

abbrev Java : Interface := ⟨JavaOp, JavaOp.Reply⟩

/-- The system and the Java code together. -/
abbrev Session : Interface := Sys.sum Java

instance : DecidableEq Session.Op := inferInstanceAs (DecidableEq (Syscall ⊕ JavaOp))

/-- Perform one call. -/
def java (op : JavaOp) : Program Session op.Reply := Program.perform (E := Session) (.inr op)

namespace Session

/-- The `run` of the thread that `start` creates. -/
def run (inetAddr : String → BitVec 32) (ipaddr : String) (port : CInt) : Program Session Unit := do
  let fd ← java .getFd
  let _ ← (Entry.nativeStartVpn inetAddr fd ipaddr port).inl
  java .updateRunStatus
  java .close

/-- `stop` -/
def stop : Program Session Unit := do
  Entry.nativeStopVpn.inl
  java .close

end Session

/-- The descriptors of the process and the threads that use them. -/
structure Descriptors where
  /-- The open numbers. -/
  table : ℤ → Option Denoted
  tcpControlSockFd : ℤ
  /-- `NetInterface` has not been closed. -/
  netInterface : Bool
  /-- What the tunnel thread still has to do. -/
  thread : Program Session Unit
  /-- What each call of `stop` still has to do. -/
  stops : List (Program Session Unit)
  /-- The number given to each descriptor of the session, recorded for the proofs. -/
  numbers : Role → Option ℤ
  /-- How often each was closed. -/
  closes : Role → ℕ
  /-- The numbers that `close` or `shutdown` was applied to when they denoted no descriptor of
  the session. -/
  strays : List ℤ

/-- A call of a thread of the session, or what the other threads do to the table. -/
inductive DescriptorLabel where
  | thread (op : Session.Op) (reply : Session.Reply op)
  | stop
  | stopping (i : ℕ) (op : Session.Op) (reply : Session.Reply op)
  | openOther (fd : ℤ)
  | closeOther (fd : ℤ)

namespace Descriptors

/-- The number denotes no descriptor of the session: it was freed, or an earlier session has
left it. A negative number denotes nothing in any table. -/
def Stray (s : Descriptors) (fd : ℤ) : Prop :=
  0 ≤ fd ∧ ∀ role, s.table fd ≠ some (.session role)

instance (s : Descriptors) (fd : ℤ) : Decidable (s.Stray fd) :=
  inferInstanceAs (Decidable (_ ∧ _))

/-- `close` or `shutdown` is applied to a number. -/
def use (s : Descriptors) (fd : ℤ) : Descriptors :=
  { s with strays := if s.Stray fd then s.strays ++ [fd] else s.strays }

/-- What the number denotes is closed. -/
def release (s : Descriptors) (fd : ℤ) : Descriptors :=
  { s with
    table := Function.update s.table fd none
    closes := fun role =>
      if s.table fd = some (.session role) then s.closes role + 1 else s.closes role }

/-- `socket` returns a free number, or fails. -/
def openSocket (s : Descriptors) (type : SocketType) (fd : ℤ) : Descriptors :=
  if fd < 0 then s
  else { s with
    table := Function.update s.table fd (some (.session type.role))
    numbers := Function.update s.numbers type.role (some fd) }

/-- `NetInterface.close` -/
def closeNetInterface (s : Descriptors) : Descriptors :=
  match s.netInterface, s.numbers .tun with
  | true, some fd => { (s.use fd).release fd with netInterface := false }
  | _, _ => s

/-- The replies a call may get. -/
def admits (s : Descriptors) : (op : Session.Op) → Session.Reply op → Bool
  | .inl (.socket _), fd => fd < 0 || (s.table fd).isNone
  | .inl .getControlSock, fd => fd = s.tcpControlSockFd
  | .inr .getFd, fd => s.netInterface && s.numbers .tun = some fd
  | _, _ => true

/-- The state after a call. -/
def after (s : Descriptors) : (op : Session.Op) → Session.Reply op → Descriptors
  | .inl (.socket type), fd => s.openSocket type fd
  | .inl (.setControlSock fd), _ => { s with tcpControlSockFd := fd }
  | .inl (.shutdown fd), _ => s.use fd
  | .inl (.close fd), _ => (s.use fd).release fd
  | .inr .close, _ => s.closeNetInterface
  | _, _ => s

/-- One step of one of the threads. -/
def step (s : Descriptors) : DescriptorLabel → Option Descriptors
  | .thread op r =>
    if s.admits op r then (s.thread.resume op r).map fun q => { s with thread := q }.after op r
    else none
  | .stop => some { s with stops := s.stops ++ [Session.stop] }
  | .stopping i op r =>
    if s.admits op r then
      s.stops[i]?.bind fun p => (p.resume op r).map fun q =>
        { s with stops := s.stops.set i q }.after op r
    else none
  | .openOther fd =>
    if 0 ≤ fd ∧ s.table fd = none then
      some { s with table := Function.update s.table fd (some .other) }
    else none
  | .closeOther fd =>
    if s.table fd = some .other then some { s with table := Function.update s.table fd none }
    else none

/-- `start` has been called on an interface with the given number, beside the given numbers
of others; `tcp_control_sock_fd` is what it was. -/
def start (inetAddr : String → BitVec 32) (ipaddr : String) (port : CInt) (tun : ℕ)
    (others : ℤ → Bool) (tcpControlSockFd : ℤ) : Descriptors where
  table fd :=
    if fd = tun then some (.session .tun)
    else if 0 ≤ fd ∧ others fd then some .other
    else none
  tcpControlSockFd := tcpControlSockFd
  netInterface := true
  thread := Session.run inetAddr ipaddr port
  stops := []
  numbers role := if role = .tun then some (tun : ℤ) else none
  closes _ := 0
  strays := []

/-- The tunnel thread has ended. -/
def ended (s : Descriptors) : Bool :=
  match s.thread with
  | .done _ => true
  | .call .. => false

/-- Every descriptor of the session is closed once, and no number that denotes none of them is
closed or shut down. -/
structure ClosedOnce (s : Descriptors) : Prop where
  noStrays : s.strays = []
  once : s.ended = true → ∀ role, (s.numbers role).isSome → s.closes role = 1

/-- The control socket is not created, and `stop` does not shut down what an earlier session has
left in `tcp_control_sock_fd`, unless it is negative or the number of the session's open TUN. -/
def Harmless (s : Descriptors) : DescriptorLabel → Prop
  | .thread (.inl (.socket .stream)) fd => fd < 0
  | .stopping _ (.inl (.shutdown fd)) _ =>
    0 ≤ fd → s.numbers .tun = some fd ∧ s.netInterface = true
  | _ => True

end Descriptors

end HeptaVcn
