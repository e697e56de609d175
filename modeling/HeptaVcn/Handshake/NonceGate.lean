import HeptaVcn.Handshake.ServerGate

/-!
# The nonce gates the tunnel, when it does

One client runs `ipReflect_start` against one server child that runs `process`.
The server reads what the client has written to the control connection. Whoever
is at the other end of that connection answers the client as it likes, and any
endpoint sends what it likes to the server's UDP port, so the client's own
datagrams may be lost, repeated and reordered.
-/

namespace HeptaVcn

open Machine

/-- The client: its thread, what its gate sees and the global `tcp_control_sock_fd`. -/
structure ClientProcess where
  thread : Thread ℤ
  view : ClientView
  tcpControlSockFd : ℤ

namespace ClientProcess

/-- The replies the client's kernel may give. -/
def admits (w : ClientProcess) : (op : Syscall) → op.Reply → Bool
  | .getControlSock, r => r = w.tcpControlSockFd
  | .eventBaseDispatch _, _ => false
  | _, _ => true

/-- The global after a call. -/
def controlSockAfter (fd : ℤ) : Syscall → ℤ
  | .setControlSock fd => fd
  | _ => fd

/-- One step of the client; datagrams reach it as events of its loop only. -/
def step (w : ClientProcess) : Action → Option ClientProcess
  | .call op r =>
    match w.thread with
    | .running p =>
      if w.admits op r then
        (p.resume op r).map fun q =>
          ⟨.running q, clientGate.after w.view op r, controlSockAfter w.tcpControlSockFd op⟩
      else none
    | .dispatching .. => none
  | .dispatch =>
    match w.thread with
    | .running (.call (.eventBaseDispatch l) next) => some { w with thread := .dispatching l next }
    | _ => none
  | .relay e =>
    match w.thread with
    | .dispatching l next =>
      (l.step IpReflect.callbacks e).map fun l => { w with thread := .dispatching l next }
    | .running _ => none
  | .leave code =>
    match w.thread with
    | .dispatching l next =>
      if l.returns then some { w with thread := .running (next code) } else none
    | .running _ => none
  | .receive _ | .arrive .. => none

/-- The first integer read from the control connection is the nonce. -/
def echoIsNonce (w : ClientProcess) : Action → Bool
  | .call (.read ..) (some bytes) =>
    bytes.length ≠ 4 || w.view.echo.isSome || w.view.nonce = some (intOfBytes bytes)
  | _ => true

/-- The gate of the client: its program obeys the contract, and in the relay loop the
integer that came back is the one sent. -/
structure Gated (w : ClientProcess) : Prop where
  satisfies : w.thread.Satisfies clientGate w.view
  relay : w.thread.isDispatching → ∃ n, w.view.nonce = some n ∧ w.view.echo = some n

variable {w w' : ClientProcess}

/-- An echo that is the nonce is a reply that the gate expects. -/
theorem clientGate_admits {op : Syscall} {r : op.Reply} (hC : w.echoIsNonce (.call op r)) :
    clientGate.admits w.view op r := by
  cases op with
  | read fd len =>
    cases r with
    | none => trivial
    | some bytes =>
      intro hlength hecho
      simpa [echoIsNonce, hlength, hecho] using hC
  | _ => trivial

/-- The gate is kept by every step of a client whose nonce comes back. -/
theorem gated_step {a : Action} (hgated : w.Gated) (hC : w.echoIsNonce a)
    (hstep : w.step a = some w') : w'.Gated := by
  obtain ⟨thread, view, fd⟩ := w
  cases thread with
  | running p =>
    cases a with
    | call op r =>
      simp only [step, Option.ite_none_right_eq_some, Option.map_eq_some_iff] at hstep
      obtain ⟨_, q, hresume, rfl⟩ := hstep
      have hwp := hgated.satisfies
      have hq := Program.wp_resume hwp hresume (clientGate_admits hC)
      exact ⟨hq.2, fun hrelay => Bool.noConfusion hrelay⟩
    | dispatch =>
      simp only [step] at hstep
      split at hstep
      case h_1 l next hthread =>
        cases hthread
        obtain ⟨hdemand, hnext⟩ := hgated.satisfies
        cases hstep
        exact ⟨fun r => hnext r trivial, fun _ => hdemand⟩
      case h_2 => cases hstep
    | _ => simp [step] at hstep
  | dispatching l next =>
    cases a with
    | relay e =>
      obtain ⟨l', _, rfl⟩ := Option.map_eq_some_iff.mp hstep
      exact ⟨hgated.satisfies, fun _ => hgated.relay rfl⟩
    | leave code =>
      simp only [step, Option.ite_none_right_eq_some, Option.some.injEq] at hstep
      obtain ⟨_, rfl⟩ := hstep
      exact ⟨hgated.satisfies code, fun hrelay => Bool.noConfusion hrelay⟩
    | _ => simp [step] at hstep

end ClientProcess

/-- The two parties, and what the client has written to the control connection that
the server has not read yet. -/
structure Handshake where
  client : ClientProcess
  server : ServerProcess
  toServer : List UInt8

namespace Handshake

/-- A step of one of the parties; the server's includes what arrives at its UDP port. -/
inductive Label where
  | client (a : Action)
  | server (a : Action)

/-- What an action of the client adds to the control connection. -/
def sent (w : ClientProcess) : Action → List UInt8
  | .call (.write fd bytes) r => if fd = w.tcpControlSockFd then bytes.take (Int.toNat r) else []
  | _ => []

/-- What an action of the server takes from the control connection. -/
def taken : Action → List UInt8
  | .call (.read ..) (some bytes) => bytes
  | _ => []

/-- One step of the handshake. -/
def step (t : Handshake) : Label → Option Handshake
  | .client a =>
    (t.client.step a).map fun w => { t with client := w, toServer := t.toServer ++ sent t.client a }
  | .server a =>
    if taken a <+: t.toServer then
      (t.server.step a).map fun w =>
        { t with server := w, toServer := t.toServer.drop (taken a).length }
    else none

/-- The step goes well at the party that takes it: the datagram the server receives as
the hello is the nonce and `connect` does not fail; the integer the client reads first
is the nonce. -/
def goesWell (t : Handshake) : Label → Bool
  | .client a => t.client.echoIsNonce a
  | .server a => t.server.helloIsNonce a

/-- The gates of both sides. A server in its relay loop has taken a datagram that is the
nonce it read and is connected to its sender; a client in its relay loop has read back
the nonce it sent. -/
structure NonceGated (t : Handshake) : Prop where
  server : t.server.thread.isDispatching → ∃ n h, t.server.kernel.nonce = some n ∧
    t.server.kernel.hello = some h ∧ h.payload = intBytes n ∧ t.server.kernel.peer = some h.src
  client : t.client.thread.isDispatching →
    ∃ n, t.client.view.nonce = some n ∧ t.client.view.echo = some n

/-- The two parties before their first calls: the client in `ipReflect_start`, the child
of the server in `process`. -/
def start (inetAddr : String → BitVec 32) (clientTun : ℤ) (ipaddrStr : String) (port : CInt)
    (rounds : ℕ) (garbage : TunnelServer.Uninitialized) (sockStatusFd serverTun : ℤ) :
    Handshake where
  client := ⟨.running (IpReflect.ipReflectStart inetAddr clientTun ipaddrStr port), ⟨none, none⟩, 0⟩
  server := .ofProcess rounds garbage sockStatusFd serverTun
  toServer := []

variable {inetAddr : String → BitVec 32} {clientTun : ℤ} {ipaddrStr : String} {port : CInt}
  {rounds : ℕ} {garbage : TunnelServer.Uninitialized} {sockStatusFd serverTun : ℤ}
  {t u : Handshake} {tr : List Label}

/-- A step that goes well keeps both gates. -/
theorem gated_step {a : Label} (hgated : t.client.Gated ∧ t.server.Gated) (hC : t.goesWell a)
    (hstep : t.step a = some u) : u.client.Gated ∧ u.server.Gated := by
  cases a with
  | client a =>
    obtain ⟨w, hw, rfl⟩ := Option.map_eq_some_iff.mp hstep
    exact ⟨ClientProcess.gated_step hgated.1 hC hw, hgated.2⟩
  | server a =>
    simp only [step, Option.ite_none_right_eq_some, Option.map_eq_some_iff] at hstep
    obtain ⟨_, w, hw, rfl⟩ := hstep
    exact ⟨hgated.1, ServerProcess.gated_step hgated.2 hC hw⟩

/-- The nonce gates both relay loops in every state of a run whose steps all go well. -/
theorem nonceGated_of_goesWell
    (hmeets : Meets step (fun t a => t.goesWell a)
      (start inetAddr clientTun ipaddrStr port rounds garbage sockStatusFd serverTun) tr)
    (hrun : run step
      (start inetAddr clientTun ipaddrStr port rounds garbage sockStatusFd serverTun) tr = some t) :
    t.NonceGated := by
  obtain ⟨hclient, hserver⟩ := invariant_of_meets (I := fun t => t.client.Gated ∧ t.server.Gated)
    (fun _ _ _ => gated_step)
    ⟨⟨ipReflectStart_wp inetAddr clientTun ipaddrStr port, fun hrelay => Bool.noConfusion hrelay⟩,
      ServerProcess.gated_ofProcess rounds garbage sockStatusFd serverTun⟩ hmeets hrun
  refine ⟨fun hrelay => ?_, hclient.relay⟩
  obtain ⟨h, hhello, hpeer⟩ := hserver.relay hrelay
  obtain ⟨n, hn, hpayload⟩ := Option.map_eq_some_iff.mp (hserver.hello h hhello).symm
  exact ⟨n, h, hn, hhello, hpayload.symm, hpeer⟩

/-- The server's address, and those of the phone and a stranger as the server sees them. -/
def serverAddr : BitVec 32 := 0xc0a80001
def phone : SockAddrIn := ⟨0xc0a80002, 40000⟩
def stranger : SockAddrIn := ⟨0xc0a80003, 40001⟩

/-- A session in which the uninitialized variables of `process` are zero. -/
def session : Handshake := start (fun _ => serverAddr) 6 "192.168.0.1" 55540 0 ⟨0, ⟨0, 0⟩⟩ 4 3

/-- The client sends the nonce 7 over the control connection, and the server reads it,
echoes it, binds its UDP port and announces that. -/
def announced : List Label :=
  [.client (.call (.socket .stream) (3 : ℤ)), .client (.call (.setControlSock 3) ()),
    .client (.call .getControlSock (3 : ℤ)),
    .client (.call (.connect 3 ⟨serverAddr, 55540⟩) (0 : ℤ)), .client (.call .rand (7 : ℕ)),
    .client (.call .getControlSock (3 : ℤ)), .client (.call (.write 3 [7, 0, 0, 0]) (4 : ℤ)),
    .server (.call (.read 4 4) (some [7, 0, 0, 0])),
    .server (.call (.write 4 [7, 0, 0, 0]) (4 : ℤ)), .server (.call (.socket .dgram) (5 : ℤ)),
    .server (.call (.bind 5 ⟨0, 55550⟩) (0 : ℤ)),
    .server (.call (.write 4 [254, 216, 0, 0]) (4 : ℤ))]

/-- The client reads the port, connects to it, says hello there and starts its relay. -/
def connected : List Label :=
  [.client (.call .getControlSock (3 : ℤ)), .client (.call (.read 3 4) (some [254, 216, 0, 0])),
    .client (.call (.socket .dgram) (5 : ℤ)),
    .client (.call (.connect 5 ⟨serverAddr, 55550⟩) (0 : ℤ)),
    .client (.call (.write 5 [7, 0, 0, 0]) (4 : ℤ)), .client .dispatch]

/-- The nonce comes back to the client, and its hello is the one the server takes. -/
def greeted : List Label :=
  announced ++
    [.client (.call .getControlSock (3 : ℤ)), .client (.call (.read 3 4) (some [7, 0, 0, 0])),
      .client (.call (.log "tcp successful") ())] ++
    connected ++
    [.server (.arrive phone [7, 0, 0, 0]),
      .server (.call (.recvfrom 5 4) (some ([7, 0, 0, 0], phone))),
      .server (.call (.connect 5 phone) (0 : ℤ)),
      .server (.call (.log "udp recvform ip:") ()), .server .dispatch]

/-- Both ends relay after a hello and an echo that are the nonce. -/
theorem nonceGated_greeted : ∃ t, run step session greeted = some t ∧
    t.client.thread.isDispatching ∧ t.server.thread.isDispatching ∧ t.NonceGated :=
  ⟨_, rfl, rfl, rfl, nonceGated_of_goesWell
    (show Meets step (fun t a => t.goesWell a) session greeted by decide) rfl⟩

/-- A stranger's datagram of one byte is the first to arrive at the UDP port. -/
def strangerHello : List Label :=
  announced ++
    [.server (.arrive stranger [0]), .server (.call (.recvfrom 5 4) (some ([0], stranger))),
      .server .dispatch]

/-- The control connection answers the nonce 7 with the integer 8. -/
def wrongEcho : List Label :=
  announced ++
    [.client (.call .getControlSock (3 : ℤ)), .client (.call (.read 3 4) (some [8, 0, 0, 0]))] ++
    connected

/-- Both gates are open: the server relays after a stranger's hello, the client after
a wrong echo. -/
theorem not_nonceGated_strangerHello_wrongEcho :
    (∃ t, run step session strangerHello = some t ∧ ¬t.NonceGated) ∧
      ∃ t, run step session wrongEcho = some t ∧ ¬t.NonceGated := by
  refine ⟨⟨_, rfl, fun h => ?_⟩, ⟨_, rfl, fun h => ?_⟩⟩
  · obtain ⟨n, hello, _, hhello, hpayload, _⟩ := h.server rfl
    obtain rfl : (⟨0, stranger, [0]⟩ : Datagram) = hello := Option.some.inj hhello
    have hlength := congrArg List.length hpayload
    simp at hlength
  · obtain ⟨n, hnonce, hecho⟩ := h.client rfl
    have heq := hnonce.trans hecho.symm
    exact absurd heq (by decide)

end Handshake

end HeptaVcn
