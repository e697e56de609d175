import HeptaVcn.Handshake.Agreement

/-!
# Nobody waits in vain

Either end stops in the handshake until the other one has written: the server for the
nonce, the client for the echo and the port, the server again for the hello. They never
stop for each other. The invariant counts the bytes on the two streams at each of the
calls that wait.
-/

namespace HeptaVcn

open Machine

/-- The next call waits for the other end: a `read` of the control connection that has
nothing to read, or the `recvfrom` of the hello. -/
def Party.Waits {α : Type} (incoming : List UInt8) (w : Party α) : Prop :=
  match w.thread with
  | .running (.call (.read fd _) _) => fd = w.progress.control ∧ w.progress.read = incoming
  | .running (.call (.recvfrom ..) _) => True
  | _ => False

/-- Where the client waits it has sent its nonce, and it does not have the port yet. -/
def Progress.ClientTurn (v : Progress) : Syscall → Prop
  | .read .. => 4 ≤ v.written.length ∧ v.read.length ≤ 4
  | .recvfrom .. => False
  | _ => True

/-- Where the server waits it has read nothing, or has announced its port. -/
def Progress.ServerTurn (v : Progress) : Syscall → Prop
  | .read .. => v.read = []
  | .recvfrom .. | .eventBaseDispatch _ => v.written.length = 8
  | _ => True

/-- The turns of the client restrict only the calls that wait. -/
theorem free_clientTurn (v : Progress) : v.Free Progress.ClientTurn := by
  intro op hop
  cases op <;> first | trivial | exact absurd trivial hop

/-- The turns of the server restrict only the calls that wait. -/
theorem free_serverTurn (v : Progress) : v.Free Progress.ServerTurn := by
  intro op hop
  cases op <;> first | trivial | exact absurd trivial hop

/-- `process` waits for the nonce first and for the hello last. -/
theorem process_serverTurn (rounds : ℕ) (garbage : TunnelServer.Uninitialized)
    (sockStatusFd tunFd : ℤ) :
    (TunnelServer.process rounds garbage sockStatusFd tunFd).wp (calling Progress.ServerTurn)
      (fun _ _ => True) (Progress.start sockStatusFd) := by
  have hfree := free_serverTurn
  simp only [TunnelServer.process, Program.bind_eq, Program.wp_bind]
  refine wp_readInt_control (v := Progress.start sockStatusFd) rfl (hfree _) (fun _ => hfree _)
    fun n => ?_
  refine wp_writeInt_control (v := ⟨sockStatusFd, none, intBytes n, [], none, none⟩) (hfree _)
    (fun _ => hfree _) ?_
  refine ⟨trivial, fun udpSockfd _ => ?_⟩
  refine wp_createSocketBind_udp (v := ⟨sockStatusFd, some udpSockfd, intBytes n, intBytes n, none,
    none⟩) rfl (hfree _) fun port _ => ?_
  refine wp_writeInt_control (v := ⟨sockStatusFd, some udpSockfd, intBytes n, intBytes n,
    some (htons port), none⟩) (hfree _) (fun _ => hfree _) ?_
  have hdispatch {v : Progress} (hv : v.written.length = 8) :
      (Program.call (.eventBaseDispatch (TunnelServer.eventLoop udpSockfd tunFd)) fun _ =>
        Program.done () : Program Sys Unit).wp (calling Progress.ServerTurn) (fun _ _ => True) v :=
    ⟨hv, fun _ _ => trivial⟩
  refine ⟨rfl, fun received _ => ?_⟩
  simp only [Program.wp_done]
  split
  case isFalse => exact hdispatch rfl
  case isTrue =>
    refine ⟨trivial, fun connected _ => ?_⟩
    change Program.wp _ (if connected > (0 : ℤ) then _ else _) _ _
    split
    · rw [Program.wp_bind]
      exact wp_exit (hfree _) _ _
    · refine ⟨trivial, fun _ _ => hdispatch ?_⟩
      simp only [calling_after, Progress.after]
      split <;> rfl

/-- `openTunnel` waits for the port only. -/
theorem openTunnel_clientTurn {v : Progress} (inetAddr : String → BitVec 32) (tunFd : ℤ)
    (ipaddrStr : String) (flagSrandom : CInt) (err : ℤ) (hwritten : 4 ≤ v.written.length)
    (hread : v.read.length ≤ 4) :
    (IpReflect.openTunnel inetAddr tunFd ipaddrStr flagSrandom err).wp
      (calling Progress.ClientTurn) (fun _ _ => True) v := by
  have hfree := free_clientTurn
  simp only [IpReflect.openTunnel, Program.bind_eq, Program.wp_bind]
  refine wp_getControlSock trivial (wp_readInt_control ⟨hwritten, hread⟩ (hfree _)
    (fun _ => hfree _) fun port => ?_)
  refine ⟨trivial, fun udpTunnelFd _ => ⟨trivial, fun failed _ => ?_⟩⟩
  change Program.wp _ (if failed ≠ (0 : ℤ) then _ else _) _ _
  split
  · exact ⟨trivial, fun _ _ => wp_out2_calling (hfree _) _ _⟩
  · rw [Program.wp_bind]
    refine ⟨trivial, fun written _ => ?_⟩
    change Program.wp _ (if written ≠ (4 : ℤ) then _ else _) _ _
    split
    · exact wp_exit (hfree _) _ _
    · exact ⟨trivial, fun _ _ => ⟨trivial, fun _ _ => ⟨trivial, fun _ _ =>
        wp_out2_calling (hfree _) _ _⟩⟩⟩

/-- `ipReflect_start` waits for the echo once its nonce is written, and then for the port. -/
theorem ipReflectStart_clientTurn (inetAddr : String → BitVec 32) (tunFd : ℤ) (ipaddrStr : String)
    (tcpPort : CInt) :
    (IpReflect.ipReflectStart inetAddr tunFd ipaddrStr tcpPort).wp (calling Progress.ClientTurn)
      (fun _ _ => True) (Progress.start 0) := by
  have hfree := free_clientTurn
  simp only [IpReflect.ipReflectStart, Program.bind_eq, Program.wp_bind]
  refine ⟨trivial, fun sock _ => ⟨trivial, fun _ _ => ?_⟩⟩
  simp only [Program.wp_done]
  split
  · exact ⟨trivial, fun _ _ => wp_out1_calling (hfree _) _⟩
  rw [Program.wp_bind]
  refine wp_getControlSock trivial ⟨trivial, fun err _ => ?_⟩
  change Program.wp _ (if err < (0 : ℤ) then _ else _) _ _
  split
  · exact ⟨trivial, fun _ _ => wp_out1_calling (hfree _) _⟩
  suffices h : ∀ v : Progress, v.read = [] → Program.wp (calling Progress.ClientTurn) _
      (fun _ _ => True) v from h _ (by simp [Progress.after, Progress.start])
  intro v hread
  simp only [Program.wp_bind]
  refine ⟨trivial, fun r _ => wp_getControlSock trivial ?_⟩
  refine wp_writeInt_control (v := v) (hfree _) (fun _ => hfree _) (wp_getControlSock trivial ?_)
  have hwritten : 4 ≤ (v.written ++ intBytes (BitVec.ofNat 32 r)).length := by simp
  refine wp_readInt_control ⟨hwritten, by simp [hread]⟩ (hfree _) (fun _ => hfree _)
    fun echo => ?_
  have hopen := openTunnel_clientTurn (v := ⟨v.control, v.udp, v.read ++ intBytes echo,
    v.written ++ intBytes (BitVec.ofNat 32 r), v.bound, v.peer⟩) inetAddr tunFd ipaddrStr
    (BitVec.ofNat 32 r) err hwritten (by simp [hread])
  split
  · exact ⟨trivial, fun _ _ => hopen⟩
  · exact hopen

namespace Rendezvous

variable {inetAddr : String → BitVec 32} {clientTun : ℤ} {ipaddrStr : String} {port : CInt}
  {rounds : ℕ} {garbage : TunnelServer.Uninitialized} {sockStatusFd serverTun : ℤ}
  {t u : Rendezvous} {tr : List Handshake.Label}

/-- Both ends wait in turn. -/
structure InTurn (t : Rendezvous) : Prop where
  client : t.client.Follows Progress.ClientTurn fun _ _ => True
  server : t.server.Follows Progress.ServerTurn fun _ _ => True

/-- A step of either end keeps both in turn. -/
theorem inTurn_step {a : Handshake.Label} (h : t.InTurn) (hstep : t.step a = some u) :
    u.InTurn := by
  cases a with
  | client a =>
    obtain ⟨w, hw, rfl⟩ := Option.map_eq_some_iff.mp hstep
    exact ⟨Party.follows_step h.client hw, h.server⟩
  | server a =>
    obtain ⟨w, hw, rfl⟩ := Option.map_eq_some_iff.mp hstep
    exact ⟨h.client, Party.follows_step h.server hw⟩

/-- Before the first call both ends are in turn. -/
theorem inTurn_start : (start inetAddr clientTun ipaddrStr port rounds garbage sockStatusFd
    serverTun).InTurn :=
  ⟨ipReflectStart_clientTurn inetAddr clientTun ipaddrStr port,
    process_serverTurn rounds garbage sockStatusFd serverTun⟩

/-- A client that waits has written its nonce, and the server has not announced its port. -/
theorem InTurn.client_waits (h : t.InTurn) (hwaits : t.client.Waits t.server.progress.written) :
    t.client.progress.written ≠ [] ∧ t.server.progress.written.length ≤ 4 := by
  have hturn := h.client
  unfold Party.Waits at hwaits
  unfold Party.Follows at hturn
  split at hwaits
  case h_1 hthread =>
    rw [hthread] at hturn
    obtain ⟨⟨hwritten, hread⟩, _⟩ := hturn
    refine ⟨List.ne_nil_of_length_pos (by omega), ?_⟩
    rwa [← hwaits.2]
  case h_2 hthread =>
    rw [hthread] at hturn
    exact hturn.1.elim
  case h_3 => exact hwaits.elim

/-- A server that waits has read nothing that was written, or has announced its port. -/
theorem InTurn.server_waits (h : t.InTurn) (hwaits : t.server.Waits t.client.progress.written) :
    t.client.progress.written = [] ∨ t.server.progress.written.length = 8 := by
  have hturn := h.server
  unfold Party.Waits at hwaits
  unfold Party.Follows at hturn
  split at hwaits
  case h_1 hthread =>
    rw [hthread] at hturn
    have hread : t.server.progress.read = [] := hturn.1
    exact Or.inl (by rw [← hwaits.2, hread])
  case h_2 hthread =>
    rw [hthread] at hturn
    exact Or.inr hturn.1
  case h_3 => exact hwaits.elim

/-- A server that relays has announced its port. -/
theorem InTurn.server_dispatching (h : t.InTurn)
    (hdispatching : t.server.thread.isDispatching = true) :
    t.server.progress.written.length = 8 := by
  have hturn := h.server
  unfold Party.Follows at hturn
  split at hturn
  case h_1 hthread =>
    rw [hthread] at hdispatching
    cases hdispatching
  case h_2 =>
    obtain ⟨⟨_, hdemand⟩, _⟩ := hturn
    exact hdemand

/-- However the two programs interleave: while the client waits, the server neither waits
nor relays, so that the ends never wait for each other. -/
theorem not_waits_of_client_waits
    (hrun : run step
      (start inetAddr clientTun ipaddrStr port rounds garbage sockStatusFd serverTun) tr = some t)
    (hwaits : t.client.Waits t.server.progress.written) :
    ¬t.server.Waits t.client.progress.written ∧ t.server.thread.isDispatching = false := by
  have h := invariant (I := InTurn) (fun _ _ _ => inTurn_step) inTurn_start hrun
  obtain ⟨hwritten, hlength⟩ := h.client_waits hwaits
  refine ⟨fun hserver => ?_, ?_⟩
  · rcases h.server_waits hserver with hnil | hannounced
    · exact hwritten hnil
    · omega
  · by_contra hdispatching
    have hannounced := h.server_dispatching (by simpa using hdispatching)
    omega

/-- The client waits for the echo while the server has read the nonce. -/
def nonceRead : List Handshake.Label :=
  [.client (.call (.socket .stream) (3 : ℤ)), .client (.call (.setControlSock 3) ()),
    .client (.call .getControlSock (3 : ℤ)),
    .client (.call (.connect 3 ⟨Handshake.serverAddr, 55540⟩) (0 : ℤ)),
    .client (.call .rand (7 : ℕ)), .client (.call .getControlSock (3 : ℤ)),
    .client (.call (.write 3 [7, 0, 0, 0]) (4 : ℤ)), .client (.call .getControlSock (3 : ℤ)),
    .server (.call (.read 4 4) (some [7, 0, 0, 0]))]

/-- While the client waits for the echo the server does not wait. -/
theorem not_waits_nonceRead : ∃ t, run step session nonceRead = some t ∧
    ¬t.server.Waits t.client.progress.written ∧ t.server.thread.isDispatching = false := by
  have hrun : ∃ t, run step session nonceRead = some t ∧
      t.client.Waits t.server.progress.written := ⟨_, rfl, rfl, rfl⟩
  obtain ⟨t, hrun, hwaits⟩ := hrun
  exact ⟨t, hrun, not_waits_of_client_waits hrun hwaits⟩

end Rendezvous

end HeptaVcn
