import HeptaVcn.Native.ServerProcess
import HeptaVcn.Relay.Forwarding

/-!
# The gates of the two handshakes

Each half of the handshake is checked against a contract that only sees the nonce,
the hello and the peer. The contracts assume of the replies what the code does not
check itself; under them every path to the event loop passes the gate.
-/

namespace HeptaVcn

open Machine

/-- The calls that no gate looks at. -/
def Syscall.Quiet : Syscall → Prop
  | .rand | .netstat _ | .bind .. | .socket _ | .close _ | .log _ | .exit _ | .spin
  | .setControlSock _ | .getControlSock => True
  | _ => False

section Quiet

variable {σ α : Type} {c : Program.Contract Sys σ} {post : σ → α → Prop}

/-- A contract is quiet on the quiet calls: it asks for nothing and sees nothing. -/
def QuietContract (c : Program.Contract Sys σ) : Prop :=
  ∀ s (op : Syscall), op.Quiet → c.demand s op ∧ ∀ r, c.after s op r = s

/-- A quiet call leaves the state of a quiet contract alone. -/
theorem wp_quiet_call (hc : QuietContract c) {op : Syscall} {s : σ}
    {next : Sys.Reply op → Program Sys α} (h : ∀ r, (next r).wp c post s)
    (hop : op.Quiet := by trivial) :
    (Program.call op next : Program Sys α).wp c post s :=
  ⟨(hc s op hop).1, fun r _ => by rw [(hc s op hop).2 r]; exact h r⟩

/-- A quiet contract allows an exit after an error message. -/
theorem wp_perrorExit (hc : QuietContract c) (m : String) (status : ℤ) (s : σ) :
    (perrorExit m status : Program Sys α).wp c post s :=
  wp_quiet_call hc fun _ => wp_quiet_call hc fun r => nomatch r

/-- `write_int` either ends the process or has written all four bytes. -/
theorem wp_writeInt (hc : QuietContract c) (fd : ℤ) (v : CInt) {post : σ → Unit → Prop} {s : σ}
    (hdemand : c.demand s (.write fd (intBytes v)))
    (h : post (c.after s (.write fd (intBytes v)) (4 : ℤ)) ()) : (writeInt fd v).wp c post s := by
  refine ⟨hdemand, fun r _ => ?_⟩
  simp only [Program.done_bind]
  split
  case isTrue => exact wp_perrorExit hc _ _ _
  case isFalse hr =>
    obtain rfl : r = (4 : ℤ) := by simpa using hr
    exact h

/-- `read_int` either ends the process or yields the integer in four bytes read. -/
theorem wp_readInt (hc : QuietContract c) (fd : ℤ) {post : σ → CInt → Prop} {s : σ}
    (hdemand : c.demand s (.read fd 4))
    (h : ∀ bytes : List UInt8, c.admits s (.read fd 4) (some bytes) → bytes.length = 4 →
      post (c.after s (.read fd 4) (some bytes)) (intOfBytes bytes)) :
    (readInt fd).wp c post s := by
  refine ⟨hdemand, fun r hr => ?_⟩
  match r with
  | none => exact wp_perrorExit hc _ _ _
  | some bytes =>
    simp only [Program.done_bind]
    split
    case isTrue => exact wp_perrorExit hc _ _ _
    case isFalse hlength => exact h bytes hr (by simpa using hlength)

/-- The loop that draws ports makes quiet calls only. -/
theorem wp_drawPort (hc : QuietContract c) (retFd : ℤ) (sinAddr : BitVec 32) (rounds : ℕ)
    {post : σ → CInt → Prop} {s : σ} (h : ∀ port, post s port) :
    (TunnelServer.drawPort retFd sinAddr rounds).wp c post s := by
  induction rounds with
  | zero => exact wp_quiet_call hc fun r => nomatch r
  | succ rounds ih =>
    refine wp_quiet_call hc fun r => wp_quiet_call hc fun grepped => ?_
    simp only [Program.done_bind]
    split
    · refine wp_quiet_call hc fun bound => ?_
      simp only [Program.done_bind]
      split
      · exact h _
      · exact ih
    · exact ih

/-- `create_socket_bind` makes quiet calls only. -/
theorem wp_createSocketBind (hc : QuietContract c) (rounds : ℕ) (retFd : ℤ) (sinAddr : BitVec 32)
    (defaultPort : CInt) {post : σ → CInt → Prop} {s : σ} (h : ∀ port, post s port) :
    (TunnelServer.createSocketBind rounds retFd sinAddr defaultPort).wp c post s := by
  unfold TunnelServer.createSocketBind
  split
  · refine wp_quiet_call hc fun bound => ?_
    simp only [Program.done_bind]
    split
    · exact h _
    · exact wp_drawPort hc retFd sinAddr rounds h
  · exact wp_drawPort hc retFd sinAddr rounds h

end Quiet

/-- An event loop as it is when it is handed to `event_base_dispatch`. -/
def EventLoop.Idle (l : EventLoop) : Prop := l.Wired ∧ ∀ d, l.pipeline d = Pipeline.empty

/-- What the server's gate sees of the kernel. -/
structure ServerView where
  nonce : Option CInt
  /-- The source of the datagram taken as the hello. -/
  greeted : Option SockAddrIn
  peer : Option SockAddrIn

/-- The server's gate: one hello is taken, its source is connected to, and the relay
starts only then. It holds if the hello is the nonce and `connect` does not fail. -/
def serverGate : Program.Contract Sys ServerView where
  demand v
    | .recvfrom _ len => v.greeted = none ∧ len = 4
    | .connect _ addr => v.greeted = some addr
    | .eventBaseDispatch l => (∃ addr, v.greeted = some addr ∧ v.peer = some addr) ∧ l.Idle
    | _ => True
  admits v
    | .recvfrom .., r => ∃ n src, v.nonce = some n ∧ r = some (intBytes n, src)
    | .connect .., r => (0 : ℤ) ≤ r
    | _, _ => True
  after v
    | .read .., some bytes => { v with nonce := v.nonce.or (some (intOfBytes bytes)) }
    | .recvfrom .., some (_, src) => { v with greeted := v.greeted.or (some src) }
    | .connect _ addr, r => { v with peer := if r = (0 : ℤ) then some addr else v.peer }
    | _, _ => v

/-- The gate of the server does not look at quiet calls. -/
theorem serverGate_quiet : QuietContract serverGate := by
  intro v op hop
  cases op <;> first | exact ⟨trivial, fun _ => rfl⟩ | exact hop.elim

/-- The loop of `process` is entered with empty buffers. -/
theorem TunnelServer.eventLoop_idle (udpSockfd tunFd : ℤ) :
    (TunnelServer.eventLoop udpSockfd tunFd).Idle :=
  ⟨End.server.eventLoop_wired udpSockfd tunFd, fun d => by cases d <;> rfl⟩

/-- Every path through `process` passes the server's gate. -/
theorem process_wp (rounds : ℕ) (garbage : TunnelServer.Uninitialized) (sockStatusFd tunFd : ℤ) :
    (TunnelServer.process rounds garbage sockStatusFd tunFd).wp serverGate (fun _ _ => True)
      ⟨none, none, none⟩ := by
  have hc := serverGate_quiet
  simp only [TunnelServer.process, Program.bind_eq, Program.wp_bind]
  refine wp_readInt hc _ trivial fun bytes _ _ => ?_
  refine wp_writeInt hc _ _ trivial ?_
  refine wp_quiet_call hc fun udpSockfd => ?_
  refine wp_createSocketBind hc _ _ _ _ fun port => ?_
  refine wp_writeInt hc _ _ trivial ?_
  refine ⟨⟨rfl, rfl⟩, ?_⟩
  rintro _ ⟨n, src, hnonce, rfl⟩
  obtain rfl : intOfBytes bytes = n := Option.some.inj hnonce
  simp only [Program.wp_done, TunnelServer.afterRecvfrom_intBytes]
  have hdispatch : (Program.call (.eventBaseDispatch (TunnelServer.eventLoop udpSockfd tunFd))
      fun _ => Program.done () : Program Sys Unit).wp serverGate (fun _ _ => True)
      ⟨some (intOfBytes bytes), some src, some src⟩ :=
    ⟨⟨⟨src, rfl, rfl⟩, TunnelServer.eventLoop_idle udpSockfd tunFd⟩, fun _ _ => trivial⟩
  rw [if_pos (by decide)]
  refine ⟨rfl, fun connected hconnected => ?_⟩
  have hnonneg : (0 : ℤ) ≤ connected := hconnected
  -- the refusal branch of the source, for positive replies only
  change Program.wp serverGate (if connected > (0 : ℤ) then _ else _) _ _
  split
  case isTrue =>
    rw [Program.wp_bind]
    exact wp_perrorExit hc _ _ _
  case isFalse hle =>
    obtain rfl : connected = (0 : ℤ) := Int.le_antisymm (Int.not_lt.mp hle) hnonneg
    exact wp_quiet_call hc fun _ => hdispatch

/-- What the client's gate sees: the integer it sent first and the one it read first. -/
structure ClientView where
  nonce : Option CInt
  echo : Option CInt

/-- The client's gate: the relay starts only after the nonce has come back. It holds
if the first integer read, if any, is the nonce. -/
def clientGate : Program.Contract Sys ClientView where
  demand v
    | .eventBaseDispatch _ => ∃ n, v.nonce = some n ∧ v.echo = some n
    | _ => True
  admits v
    | .read .., some bytes => bytes.length = 4 → v.echo = none → v.nonce = some (intOfBytes bytes)
    | _, _ => True
  after v
    | .write _ bytes, _ => { v with nonce := v.nonce.or (some (intOfBytes bytes)) }
    | .read .., some bytes => { v with echo := v.echo.or (some (intOfBytes bytes)) }
    | _, _ => v

/-- The gate of the client does not look at quiet calls. -/
theorem clientGate_quiet : QuietContract clientGate := by
  intro v op hop
  cases op <;> first | exact ⟨trivial, fun _ => rfl⟩ | exact hop.elim

/-- The label `out1` makes quiet calls only. -/
theorem wp_out1 {σ : Type} {c : Program.Contract Sys σ} (hc : QuietContract c) (err : ℤ) (s : σ) :
    (IpReflect.out1 err).wp c (fun _ _ => True) s :=
  wp_quiet_call hc fun _ => wp_quiet_call hc fun _ => trivial

/-- The label `out2` makes quiet calls only. -/
theorem wp_out2 {σ : Type} {c : Program.Contract Sys σ} (hc : QuietContract c) (fd err : ℤ)
    (s : σ) : (IpReflect.out2 fd err).wp c (fun _ _ => True) s :=
  wp_quiet_call hc fun _ => wp_out1 hc err s

/-- After the nonce has come back the client may go on to its relay loop. -/
theorem openTunnel_wp (inetAddr : String → BitVec 32) (tunFd : ℤ) (ipaddrStr : String)
    (flagSrandom : CInt) (err : ℤ) (n : CInt) :
    (IpReflect.openTunnel inetAddr tunFd ipaddrStr flagSrandom err).wp clientGate
      (fun _ _ => True) ⟨some n, some n⟩ := by
  have hc := clientGate_quiet
  simp only [IpReflect.openTunnel, Program.bind_eq, Program.wp_bind]
  refine wp_quiet_call hc fun fd => wp_readInt hc _ trivial fun bytes _ _ => ?_
  refine wp_quiet_call hc fun udpTunnelFd => ⟨trivial, fun failed _ => ?_⟩
  simp only [Program.wp_done]
  split
  · exact wp_quiet_call hc fun _ => wp_out2 hc _ _ _
  · simp only [Program.wp_bind]
    refine wp_writeInt hc _ _ trivial ⟨⟨n, rfl, rfl⟩, fun code _ => ?_⟩
    exact wp_quiet_call hc fun _ => wp_quiet_call hc fun _ => wp_out2 hc _ _ _

/-- Every path through `ipReflect_start` passes the client's gate. -/
theorem ipReflectStart_wp (inetAddr : String → BitVec 32) (tunFd : ℤ) (ipaddrStr : String)
    (tcpPort : CInt) :
    (IpReflect.ipReflectStart inetAddr tunFd ipaddrStr tcpPort).wp clientGate (fun _ _ => True)
      ⟨none, none⟩ := by
  have hc := clientGate_quiet
  simp only [IpReflect.ipReflectStart, Program.bind_eq, Program.wp_bind]
  refine wp_quiet_call hc fun sock => wp_quiet_call hc fun _ => ?_
  simp only [Program.wp_done]
  split
  · exact wp_quiet_call hc fun _ => wp_out1 hc _ _
  simp only [Program.wp_bind]
  refine wp_quiet_call hc fun fd => ⟨trivial, fun err _ => ?_⟩
  simp only [Program.wp_done]
  split
  · exact wp_quiet_call hc fun _ => wp_out1 hc _ _
  simp only [Program.wp_bind]
  refine wp_quiet_call hc fun flagSrandom => wp_quiet_call hc fun fd => ?_
  refine wp_writeInt hc _ _ trivial (wp_quiet_call hc fun fd => ?_)
  refine wp_readInt hc _ trivial fun bytes hadmits hlength => ?_
  have hecho : BitVec.ofNat 32 flagSrandom = intOfBytes bytes := by
    simpa [clientGate] using hadmits hlength rfl
  change Program.wp clientGate _ _ ⟨some (intOfBytes (intBytes _)), some (intOfBytes bytes)⟩
  rw [intOfBytes_intBytes, if_pos hecho, ← hecho]
  exact wp_quiet_call hc fun _ => openTunnel_wp _ _ _ _ _ _

end HeptaVcn
