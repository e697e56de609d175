import HeptaVcn.Native.Descriptors

/-!
# What the threads of a session do

Two contracts, one for the tunnel thread and one for a call of `stop`. The tunnel thread
closes the control socket that it has created and shuts its number down again; without a
control socket it closes and shuts down nothing but a negative number.
-/

namespace HeptaVcn

open Machine

/-- What has become of the control socket: not created, open, closed, or shut down after
its close. -/
inductive ControlPhase where
  | fresh
  | opened (fd : ℤ)
  | shut (fd : ℤ)
  | struck
  deriving DecidableEq

namespace ControlPhase

/-- The phase after a number is closed. -/
def close : ControlPhase → ℤ → ControlPhase
  | .opened c, fd => if fd = c then .shut c else .opened c
  | phase, _ => phase

/-- The phase after a number is shut down. -/
def shutdown : ControlPhase → ℤ → ControlPhase
  | .shut c, fd => if fd = c then .struck else .shut c
  | phase, _ => phase

end ControlPhase

/-- What the tunnel thread knows. -/
structure ThreadView where
  phase : ControlPhase
  tcpControlSockFd : ℤ
  /-- It has closed `NetInterface`. -/
  closed : Bool

/-- The part of the tunnel thread: it opens nothing after it has closed the control socket,
and without one it closes and shuts down no number at all. -/
def sessionThread : Program.Contract Session ThreadView where
  demand v
    | .inl (.socket .stream) => v.phase = .fresh
    | .inl (.socket .dgram) => ∃ fd, v.phase = .opened fd
    | .inl (.close fd) | .inl (.shutdown fd) => v.phase = .fresh → fd < 0
    | _ => True
  admits v
    | .inl .getControlSock, fd => fd = v.tcpControlSockFd
    | _, _ => True
  after v
    | .inl (.socket .stream), fd => if fd < 0 then v else { v with phase := .opened fd }
    | .inl (.setControlSock fd), _ => { v with tcpControlSockFd := fd }
    | .inl (.close fd), _ => { v with phase := v.phase.close fd }
    | .inl (.shutdown fd), _ => { v with phase := v.phase.shutdown fd }
    | .inr .close, _ => { v with closed := true }
    | _, _ => v

namespace ThreadView

/-- The program is what the tunnel thread still has to do. -/
def Runs (v : ThreadView) (p : Program Session Unit) : Prop :=
  p.wp sessionThread (fun v _ => v.closed = true ∧ (v.phase = .fresh ∨ v.phase = .struck)) v

/-- `ipReflect_start` may return: there was no control socket, or it is closed. -/
def Returns (v : ThreadView) (_ : ℤ) : Prop :=
  (v.phase = .fresh ∧ v.tcpControlSockFd < 0) ∨ v.phase = .shut v.tcpControlSockFd

/-- The label `out1` brings every path that reaches it to a proper end. -/
theorem out1_wp {v : ThreadView} (err : ℤ)
    (h : (v.phase = .fresh ∧ v.tcpControlSockFd < 0) ∨ v.phase = .opened v.tcpControlSockFd ∨
      v.phase = .shut v.tcpControlSockFd) :
    (IpReflect.out1 err).wp sessionThread.left Returns v := by
  obtain ⟨phase, tcpControlSockFd, closed⟩ := v
  dsimp only at h
  refine ⟨trivial, fun fd hfd => ?_⟩
  obtain rfl : fd = tcpControlSockFd := hfd
  rcases h with ⟨rfl, hneg⟩ | rfl | rfl
  · exact ⟨fun _ => hneg, fun _ _ => Or.inl ⟨rfl, hneg⟩⟩
  · exact ⟨nofun, fun _ _ => Or.inr (if_pos rfl)⟩
  · exact ⟨nofun, fun _ _ => Or.inr rfl⟩

/-- Closing another number closes the control socket at most. -/
theorem close_wp {v : ThreadView} {fd : ℤ} {next : ℤ → Program Sys ℤ}
    (h : v.phase = .opened v.tcpControlSockFd ∨ v.phase = .shut v.tcpControlSockFd)
    (hnext : ∀ w : ThreadView,
      w.phase = .opened w.tcpControlSockFd ∨ w.phase = .shut w.tcpControlSockFd →
      ∀ r, (next r).wp sessionThread.left Returns w) :
    (Program.call (Syscall.close fd) next : Program Sys ℤ).wp sessionThread.left Returns v := by
  obtain ⟨phase, tcpControlSockFd, closed⟩ := v
  dsimp only at h
  rcases h with rfl | rfl
  · refine ⟨nofun, fun r _ => hnext _ ?_ r⟩
    by_cases hfd : fd = tcpControlSockFd
    · exact Or.inr (if_pos hfd)
    · exact Or.inl (if_neg hfd)
  · exact ⟨nofun, fun r _ => hnext _ (Or.inr rfl) r⟩

/-- The label `out2` closes the UDP socket and goes on to `out1`. -/
theorem out2_wp {v : ThreadView} (udpTunnelFd err : ℤ)
    (h : v.phase = .opened v.tcpControlSockFd ∨ v.phase = .shut v.tcpControlSockFd) :
    (IpReflect.out2 udpTunnelFd err).wp sessionThread.left Returns v :=
  close_wp h fun _ hw _ => out1_wp err (Or.inr hw)

/-- An integer is read, or the process ends. -/
theorem readInt_wp {v : ThreadView} {fd : ℤ} {f : CInt → Program Sys ℤ}
    (hf : ∀ n, (f n).wp sessionThread.left Returns v) :
    ((readInt fd).bind f).wp sessionThread.left Returns v := by
  refine ⟨trivial, fun val _ => ?_⟩
  match val with
  | none => exact ⟨trivial, fun _ _ => ⟨trivial, fun r => nomatch r⟩⟩
  | some bytes =>
    change Program.wp _ (Program.bind (if bytes.length ≠ 4 then _ else _) f) _ _
    split
    · exact ⟨trivial, fun _ _ => ⟨trivial, fun r => nomatch r⟩⟩
    · exact hf _

/-- An integer is written, or the process ends. -/
theorem writeInt_wp {v : ThreadView} {fd : ℤ} {n : CInt} {f : Unit → Program Sys ℤ}
    (hf : (f ()).wp sessionThread.left Returns v) :
    ((writeInt fd n).bind f).wp sessionThread.left Returns v := by
  refine ⟨trivial, fun written _ => ?_⟩
  change Program.wp _ (Program.bind (if written ≠ 4 then _ else _) f) _ _
  split
  · exact ⟨trivial, fun _ _ => ⟨trivial, fun r => nomatch r⟩⟩
  · exact hf

/-- From the open control socket on, the thread keeps the contract of its descriptors. -/
theorem openTunnel_wp {v : ThreadView} (inetAddr : String → BitVec 32) (tunFd : ℤ)
    (ipaddrStr : String) (flagSrandom : CInt) (err : ℤ)
    (h : v.phase = .opened v.tcpControlSockFd) :
    (IpReflect.openTunnel inetAddr tunFd ipaddrStr flagSrandom err).wp sessionThread.left
      Returns v := by
  refine ⟨trivial, fun fd _ => ?_⟩
  apply readInt_wp
  intro port
  refine ⟨⟨_, h⟩, fun udpTunnelFd _ => ⟨trivial, fun failed _ => ?_⟩⟩
  change Program.wp _ (if failed ≠ 0 then _ else _) _ _
  split
  · exact ⟨trivial, fun _ _ => out2_wp udpTunnelFd _ (Or.inl h)⟩
  · apply writeInt_wp
    refine ⟨trivial, fun _ _ => ?_⟩
    apply close_wp (Or.inl h)
    intro w hw _
    apply close_wp hw
    intro w hw _
    exact out2_wp udpTunnelFd err hw

/-- The whole native thread keeps the contract of its descriptors from a fresh phase on. -/
theorem ipReflectStart_wp (inetAddr : String → BitVec 32) (tunFd : ℤ) (ipaddrStr : String)
    (tcpPort : CInt) {v : ThreadView} (hfresh : v.phase = .fresh) :
    (IpReflect.ipReflectStart inetAddr tunFd ipaddrStr tcpPort).wp sessionThread.left
      Returns v := by
  obtain ⟨phase, tcpControlSockFd, closed⟩ := v
  obtain rfl : phase = .fresh := hfresh
  refine ⟨rfl, fun sock _ => ?_⟩
  by_cases hneg : sock < 0
  case pos =>
    have hview : sessionThread.left.after ⟨.fresh, tcpControlSockFd, closed⟩
        (.socket .stream) sock = ⟨.fresh, tcpControlSockFd, closed⟩ := if_pos hneg
    rw [hview]
    refine ⟨trivial, fun _ _ => ?_⟩
    change Program.wp _ (if sock < 0 then _ else _) _ _
    rw [if_pos hneg]
    exact ⟨trivial, fun _ _ => out1_wp _ (Or.inl ⟨rfl, hneg⟩)⟩
  case neg =>
    have hview : sessionThread.left.after ⟨.fresh, tcpControlSockFd, closed⟩
        (.socket .stream) sock = ⟨.opened sock, tcpControlSockFd, closed⟩ := if_neg hneg
    rw [hview]
    refine ⟨trivial, fun _ _ => ?_⟩
    change Program.wp _ (if sock < 0 then _ else _) _ _
    rw [if_neg hneg]
    refine ⟨trivial, fun fd _ => ⟨trivial, fun err _ => ?_⟩⟩
    change Program.wp _ (if err < 0 then _ else _) _ _
    split
    · exact ⟨trivial, fun _ _ => out1_wp _ (Or.inr (Or.inl rfl))⟩
    · refine ⟨trivial, fun nonce _ => ⟨trivial, fun fd _ => ?_⟩⟩
      apply writeInt_wp
      refine ⟨trivial, fun fd _ => ?_⟩
      apply readInt_wp
      intro n
      change Program.wp _ (if BitVec.ofNat 32 nonce = n then _ else _) _ _
      split
      · exact ⟨trivial, fun _ _ => openTunnel_wp _ _ _ _ _ rfl⟩
      · exact openTunnel_wp _ _ _ _ _ rfl

/-- The thread ends after closing `NetInterface`, and after shutting down the number of the
control socket that it has closed, if there was one. -/
theorem run_wp (inetAddr : String → BitVec 32) (ipaddr : String) (port : CInt)
    (tcpControlSockFd : ℤ) :
    Runs ⟨.fresh, tcpControlSockFd, false⟩ (Session.run inetAddr ipaddr port) := by
  refine ⟨trivial, fun fd _ => ?_⟩
  change Program.wp _ (Program.bind (Program.inl _) _) _ _
  rw [Program.wp_bind, Program.wp_inl]
  change Program.wp _ (Program.bind _ _) _ _
  rw [Program.wp_bind]
  refine Program.wp_mono ?_ (ipReflectStart_wp inetAddr fd ipaddr port rfl)
  rintro ⟨phase, number, closed⟩ ret hreturns
  dsimp only [Returns] at hreturns
  refine ⟨trivial, fun shutdownFd hfd => ?_⟩
  obtain rfl : shutdownFd = number := hfd
  rcases hreturns with ⟨rfl, hneg⟩ | rfl
  · exact ⟨fun _ => hneg, fun _ _ => ⟨trivial, fun _ _ => ⟨trivial, fun _ _ => ⟨rfl, Or.inl rfl⟩⟩⟩⟩
  · refine ⟨nofun, fun _ _ => ⟨trivial, fun _ _ => ⟨trivial, fun _ _ => ⟨rfl, Or.inr ?_⟩⟩⟩⟩
    exact if_pos rfl

end ThreadView

/-- The part of a call of `stop`. -/
def stopThread : Program.Contract Session Unit where
  demand _
    | .inl .getControlSock | .inl (.shutdown _) | .inr .close => True
    | _ => False
  admits _ _ _ := True
  after _ _ _ := ()

/-- The program is what a call of `stop` still has to do. -/
def StopRuns (p : Program Session Unit) : Prop := p.wp stopThread (fun _ _ => True) ()

/-- Stopping keeps the contract of the descriptors in every phase of the thread. -/
theorem stop_wp : StopRuns Session.stop :=
  ⟨trivial, fun _ _ => ⟨trivial, fun _ _ => ⟨trivial, fun _ _ => trivial⟩⟩⟩

end HeptaVcn
