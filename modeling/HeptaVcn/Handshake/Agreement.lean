import HeptaVcn.Handshake.NonceGate

/-!
# What the two ends agree on

The control connection now joins the client to one child of the server: each reads,
in pieces of any size, what the other has written. Everything else is left open, the
UDP network included. Whichever way the two programs interleave, a client that relays
sends to the port that the server's UDP socket is bound to.
-/

namespace HeptaVcn

open Machine

/-- What one party has done so far on its control connection and its UDP socket. -/
structure Progress where
  /-- The descriptor of the control connection. -/
  control : ℤ
  /-- What `socket` returned for the UDP socket. -/
  udp : Option ℤ
  read : List UInt8
  written : List UInt8
  /-- The port that the UDP socket is bound to. -/
  bound : Option (BitVec 16)
  /-- The address that the UDP socket is connected to. -/
  peer : Option SockAddrIn
  deriving DecidableEq, Repr

namespace Progress

/-- Before the first call, with `control` as the descriptor of the control connection. -/
def start (control : ℤ) : Progress := ⟨control, none, [], [], none, none⟩

/-- What a call with the given reply adds. A `write` may be taken in part. -/
def after (v : Progress) : (op : Syscall) → op.Reply → Progress
  | .setControlSock fd, _ => { v with control := fd }
  | .socket .dgram, r => { v with udp := some r }
  | .read fd _, some bytes => if fd = v.control then { v with read := v.read ++ bytes } else v
  | .write fd bytes, r =>
    if fd = v.control then { v with written := v.written ++ bytes.take (Int.toNat r) } else v
  | .bind fd addr, r =>
    if v.udp = some fd ∧ r = (0 : ℤ) then { v with bound := some addr.sinPort } else v
  | .connect fd addr, r =>
    if v.udp = some fd ∧ r = (0 : ℤ) then { v with peer := some addr } else v
  | _, _ => v

/-- The replies the kernel may give when `incoming` has been written at the other end.
A negative integer is no descriptor, so it is never bound. -/
def admits (v : Progress) (incoming : List UInt8) : (op : Syscall) → op.Reply → Bool
  | .getControlSock, r => r = v.control
  | .read fd len, some bytes =>
    bytes.length ≤ len && (fd ≠ v.control || v.read ++ bytes <+: incoming)
  | .bind fd _, r => r ≠ (0 : ℤ) || 0 ≤ fd
  | .eventBaseDispatch _, _ => false
  | _, _ => true

/-- Binding the UDP socket is recorded when it succeeds. -/
theorem after_bind {v : Progress} {fd : ℤ} (h : v.udp = some fd) (addr : SockAddrIn) (r : ℤ) :
    v.after (.bind fd addr) r = if r = 0 then { v with bound := some addr.sinPort } else v := by
  simp [after, h]

end Progress

/-- One of the two processes. -/
structure Party (α : Type) where
  thread : Thread α
  progress : Progress

/-- One step of a party. Datagrams reach it as replies of `recvfrom` and as events of its
event loop, which may be any. -/
def Party.step {α : Type} (cb : Callbacks) (incoming : List UInt8) (w : Party α) :
    Action → Option (Party α)
  | .call op r =>
    match w.thread with
    | .running p =>
      if w.progress.admits incoming op r then
        (p.resume op r).map fun q => ⟨.running q, w.progress.after op r⟩
      else none
    | .dispatching .. => none
  | .dispatch =>
    match w.thread with
    | .running (.call (.eventBaseDispatch l) next) => some { w with thread := .dispatching l next }
    | _ => none
  | .relay e =>
    match w.thread with
    | .dispatching l next => (l.step cb e).map fun l => { w with thread := .dispatching l next }
    | .running _ => none
  | .leave code =>
    match w.thread with
    | .dispatching l next =>
      if l.returns then some { w with thread := .running (next code) } else none
    | .running _ => none
  | .receive _ | .arrive .. => none

/-- The contract of a party that makes each of its calls under `D`. -/
def calling (D : Progress → Syscall → Prop) : Program.Contract Sys Progress where
  demand := D
  admits v
    | .getControlSock, r => r = v.control
    | .bind fd _, r => r = (0 : ℤ) → 0 ≤ fd
    | _, _ => True
  after := Progress.after

/-- `I` is kept all along, and the relay loop is entered under `R`. -/
def keeping (I R : Progress → Prop) (v : Progress) : Syscall → Prop
  | .eventBaseDispatch _ => I v ∧ R v
  | _ => I v

/-- The calls that wait for what somebody else does. -/
def Syscall.Waiting : Syscall → Prop
  | .read .. | .recvfrom .. | .eventBaseDispatch _ => True
  | _ => False

/-- Every call that does not wait may be made. -/
def Progress.Free (v : Progress) (D : Progress → Syscall → Prop) : Prop :=
  ∀ op : Syscall, ¬op.Waiting → D v op

section Calling

variable {α : Type} {D : Progress → Syscall → Prop} {I R : Progress → Prop} {v : Progress}

/-- A contract of calls follows the progress of its party. -/
@[simp] theorem calling_after : (calling D).after = Progress.after := rfl

/-- Keeping an invariant that holds forbids no call but those that wait. -/
theorem free_keeping (hI : I v) : v.Free (keeping I R) := by
  intro op hop
  cases op with
  | eventBaseDispatch l => exact absurd trivial hop
  | _ => exact hI

/-- Whatever is called, the invariant holds before it. -/
theorem keeping_demand {op : Syscall} (h : keeping I R v op) : I v := by
  cases op with
  | eventBaseDispatch l => exact h.1
  | _ => exact h

/-- What the kernel may answer is what the contract expects. -/
theorem calling_admits {incoming : List UInt8} {op : Syscall} {r : op.Reply}
    (h : v.admits incoming op r) : (calling D).admits v op r := by
  cases op with
  | getControlSock =>
    show r = v.control
    simpa [Progress.admits] using h
  | bind fd addr =>
    intro hzero
    simpa [Progress.admits, hzero] using h
  | _ => trivial

/-- A party makes its calls under `D`, in its relay loop and outside. -/
def Party.Follows (D : Progress → Syscall → Prop) (post : Progress → α → Prop) (w : Party α) :
    Prop :=
  match w.thread with
  | .running p => p.wp (calling D) post w.progress
  | .dispatching _ next => (∃ l, D w.progress (.eventBaseDispatch l)) ∧
      ∀ r, (next r).wp (calling D) post w.progress

/-- Every step of a party keeps its contract. -/
theorem Party.follows_step {post : Progress → α → Prop} {cb : Callbacks} {incoming : List UInt8}
    {w w' : Party α} {a : Action} (h : w.Follows D post)
    (hstep : w.step cb incoming a = some w') : w'.Follows D post := by
  obtain ⟨thread, v⟩ := w
  cases thread with
  | running p =>
    cases a with
    | call op r =>
      simp only [step, Option.ite_none_right_eq_some, Option.map_eq_some_iff] at hstep
      obtain ⟨hadmits, q, hresume, rfl⟩ := hstep
      exact (Program.wp_resume h hresume (calling_admits hadmits)).2
    | dispatch =>
      simp only [step] at hstep
      split at hstep
      case h_1 l next hthread =>
        cases hthread
        cases hstep
        obtain ⟨hdemand, hnext⟩ := h
        exact ⟨⟨l, hdemand⟩, fun r => hnext r trivial⟩
      case h_2 => cases hstep
    | _ => simp [step] at hstep
  | dispatching l next =>
    cases a with
    | relay e =>
      obtain ⟨l', _, rfl⟩ := Option.map_eq_some_iff.mp hstep
      exact h
    | leave code =>
      simp only [step, Option.ite_none_right_eq_some, Option.some.injEq] at hstep
      obtain ⟨_, rfl⟩ := hstep
      exact h.2 code
    | _ => simp [step] at hstep

/-- A party keeps `I`, and enters its relay loop under `R`. -/
abbrev Party.Keeps (I R : Progress → Prop) (w : Party α) : Prop :=
  w.Follows (keeping I R) fun v _ => I v

/-- The invariant of a party holds of its progress. -/
theorem Party.Keeps.inv {w : Party α} (h : w.Keeps I R) : I w.progress := by
  obtain ⟨thread, v⟩ := w
  cases thread with
  | running p =>
    cases p with
    | done a => exact h
    | call op next => exact keeping_demand h.1
  | dispatching l next =>
    obtain ⟨⟨_, hinv, _⟩, _⟩ := h
    exact hinv

/-- A party that relays has entered its loop under its condition. -/
theorem Party.Keeps.relay {w : Party α} (h : w.Keeps I R)
    (hdispatching : w.thread.isDispatching) : R w.progress := by
  obtain ⟨thread, v⟩ := w
  cases thread with
  | running p => exact Bool.noConfusion hdispatching
  | dispatching l next =>
    obtain ⟨⟨_, _, hrelay⟩, _⟩ := h
    exact hrelay

/-- Exiting after an error message is always allowed. -/
theorem wp_exit (hfree : v.Free D) (m : String) (status : ℤ) {post : Progress → α → Prop} :
    (perrorExit m status : Program Sys α).wp (calling D) post v :=
  ⟨hfree _ id, fun _ _ => ⟨hfree _ id, fun r => nomatch r⟩⟩

/-- `read_int` on the control connection. -/
theorem wp_readInt_control {post : Progress → CInt → Prop} (hdemand : D v (.read v.control 4))
    (hfree : v.Free D) (hread : ∀ bytes, Progress.Free { v with read := v.read ++ bytes } D)
    (h : ∀ n, post { v with read := v.read ++ intBytes n } n) :
    (readInt v.control).wp (calling D) post v := by
  refine ⟨hdemand, fun r _ => ?_⟩
  match r with
  | none => exact wp_exit hfree _ _
  | some bytes =>
    simp only [calling_after, Progress.after, if_true, Program.done_bind]
    split
    case isTrue => exact wp_exit (hread bytes) _ _
    case isFalse hlength =>
      have hbytes : intBytes (intOfBytes bytes) = bytes :=
        intBytes_intOfBytes (Decidable.not_not.mp hlength)
      have hn := h (intOfBytes bytes)
      rwa [hbytes] at hn

/-- `write_int` on the control connection. -/
theorem wp_writeInt_control {n : CInt} {post : Progress → Unit → Prop} (hfree : v.Free D)
    (hwrite : ∀ k, Progress.Free { v with written := v.written ++ (intBytes n).take k } D)
    (h : post { v with written := v.written ++ intBytes n } ()) :
    (writeInt v.control n).wp (calling D) post v := by
  refine ⟨hfree _ id, fun r _ => ?_⟩
  simp only [calling_after, Progress.after, if_true, Program.done_bind]
  split
  case isTrue => exact wp_exit (hwrite _) _ _
  case isFalse hr =>
    obtain rfl : r = (4 : ℤ) := Decidable.not_not.mp hr
    exact h

/-- A call that changes nothing that is kept track of. -/
theorem wp_unseen {op : Syscall} {next : Sys.Reply op → Program Sys α}
    {post : Progress → α → Prop} (hdemand : D v op) (hafter : ∀ r, v.after op r = v)
    (h : ∀ r, (next r).wp (calling D) post v) :
    (Program.call op next).wp (calling D) post v := by
  refine ⟨hdemand, fun r _ => ?_⟩
  rw [calling_after, hafter]
  exact h r

/-- `bind` on the UDP socket. -/
theorem wp_bind_udp {fd : ℤ} {addr : SockAddrIn} {next : ℤ → Program Sys α}
    {post : Progress → α → Prop} (hudp : v.udp = some fd) (hfree : v.Free D)
    (hbound : 0 ≤ fd → (next 0).wp (calling D) post { v with bound := some addr.sinPort })
    (hfailed : ∀ r ≠ 0, (next r).wp (calling D) post v) :
    (Program.call (E := Sys) (.bind fd addr) next).wp (calling D) post v := by
  refine ⟨hfree _ id, fun r hadmits => ?_⟩
  rw [calling_after, Progress.after_bind hudp]
  by_cases hr : r = (0 : ℤ)
  · subst hr
    exact hbound (hadmits rfl)
  · rw [if_neg hr]
    exact hfailed r hr

/-- Use the global `tcp_control_sock_fd`. -/
theorem wp_getControlSock {next : ℤ → Program Sys α} {post : Progress → α → Prop}
    (hdemand : D v .getControlSock) (h : (next v.control).wp (calling D) post v) :
    (Program.call (E := Sys) .getControlSock next).wp (calling D) post v := by
  refine ⟨hdemand, fun r hr => ?_⟩
  obtain rfl : r = v.control := hr
  exact h

/-- The ways out of `ipReflect_start` wait for nobody. -/
theorem wp_out1_calling (hfree : v.Free D) (err : ℤ) :
    (IpReflect.out1 err).wp (calling D) (fun _ _ => True) v :=
  wp_getControlSock (hfree _ id) ⟨hfree _ id, fun _ _ => trivial⟩

/-- The labels at the end of `ipReflect_start` make no call that waits. -/
theorem wp_out2_calling (hfree : v.Free D) (fd err : ℤ) :
    (IpReflect.out2 fd err).wp (calling D) (fun _ _ => True) v :=
  ⟨hfree _ id, fun _ _ => wp_out1_calling hfree err⟩

section PortSearch

variable {fd : ℤ} {sinAddr : BitVec 32} {rounds : ℕ} {defaultPort : CInt}
  {post : Progress → CInt → Prop}

/-- The UDP socket is bound to the port that the loop of `create_socket_bind` ends with. -/
theorem wp_drawPort_udp (hudp : v.udp = some fd) (hfree : v.Free D)
    (h : ∀ port : CInt, 0 ≤ fd → post { v with bound := some (htons port) } port) :
    (TunnelServer.drawPort fd sinAddr rounds).wp (calling D) post v := by
  induction rounds with
  | zero => exact ⟨hfree _ id, fun r => nomatch r⟩
  | succ rounds ih =>
    refine wp_unseen (hfree _ id) (fun _ => rfl) fun r =>
      wp_unseen (hfree _ id) (fun _ => rfl) fun grepped => ?_
    simp only [Program.done_bind]
    split
    · refine wp_bind_udp hudp hfree (fun hfd => ?_) fun r hr => ?_
      · exact h _ hfd
      · simp only [Program.done_bind, if_neg hr]
        exact ih
    · exact ih

/-- Whatever port `create_socket_bind` returns is the one that the UDP socket is bound to. -/
theorem wp_createSocketBind_udp (hudp : v.udp = some fd) (hfree : v.Free D)
    (h : ∀ port : CInt, 0 ≤ fd → post { v with bound := some (htons port) } port) :
    (TunnelServer.createSocketBind rounds fd sinAddr defaultPort).wp (calling D) post v := by
  unfold TunnelServer.createSocketBind
  split
  · refine wp_bind_udp hudp hfree (fun hfd => ?_) fun r hr => ?_
    · exact h _ hfd
    · simp only [Program.done_bind, if_neg hr]
      exact wp_drawPort_udp hudp hfree h
  · exact wp_drawPort_udp hudp hfree h

end PortSearch

end Calling

/-! ## The server -/

/-- The server's UDP socket is bound to `port`. -/
def Progress.BoundTo (v : Progress) (port : CInt) : Prop :=
  v.bound = some (htons port) ∧ ∃ fd, v.udp = some fd ∧ 0 ≤ fd

/-- What a server has written is the nonce it has read, and then a port it has bound. -/
def Progress.Announces (v : Progress) : Prop :=
  v.written = [] ∨ ∃ n, v.read = intBytes n ∧ (v.written <+: intBytes n ∨
    ∃ port, v.BoundTo port ∧ v.written <+: intBytes n ++ intBytes port)

/-- A server that relays has announced its port. -/
def Progress.Announced (v : Progress) : Prop :=
  ∃ n port, v.read = intBytes n ∧ v.written = intBytes n ++ intBytes port ∧ v.BoundTo port

/-- A server that has announced its port is one that announces. -/
theorem Progress.Announced.announces {v : Progress} (h : v.Announced) : v.Announces := by
  obtain ⟨n, port, hread, hwritten, hbound⟩ := h
  exact Or.inr ⟨n, hread, Or.inr ⟨port, hbound, by rw [hwritten]⟩⟩

/-- Connecting the UDP socket does not unbind it. -/
theorem Progress.Announced.connect {v : Progress} (h : v.Announced) (fd : ℤ) (addr : SockAddrIn)
    (r : ℤ) : (v.after (.connect fd addr) r).Announced := by
  simp only [Progress.after]
  split
  · exact h
  · exact h

/-- Every path through `process` announces what it has bound. -/
theorem process_announces (rounds : ℕ) (garbage : TunnelServer.Uninitialized)
    (sockStatusFd tunFd : ℤ) :
    (TunnelServer.process rounds garbage sockStatusFd tunFd).wp
      (calling (keeping Progress.Announces Progress.Announced)) (fun v _ => v.Announces)
      (Progress.start sockStatusFd) := by
  simp only [TunnelServer.process, Program.bind_eq, Program.wp_bind]
  refine wp_readInt_control (v := Progress.start sockStatusFd) (Or.inl rfl)
    (free_keeping (Or.inl rfl)) (fun _ => free_keeping (Or.inl rfl)) fun n => ?_
  refine wp_writeInt_control (v := ⟨sockStatusFd, none, intBytes n, [], none, none⟩)
    (free_keeping (Or.inl rfl))
    (fun k => free_keeping (Or.inr ⟨n, rfl, Or.inl (List.take_prefix _ _)⟩)) ?_
  have hechoed (udp : Option ℤ) :
      Progress.Announces ⟨sockStatusFd, udp, intBytes n, intBytes n, none, none⟩ :=
    Or.inr ⟨n, rfl, Or.inl (List.prefix_refl _)⟩
  refine ⟨hechoed none, fun udpSockfd _ => ?_⟩
  refine wp_createSocketBind_udp (v := ⟨sockStatusFd, some udpSockfd, intBytes n, intBytes n, none,
    none⟩) rfl (free_keeping (hechoed _)) fun port hfd => ?_
  have hbound (written : List UInt8) : Progress.BoundTo ⟨sockStatusFd, some udpSockfd, intBytes n,
      written, some (htons port), none⟩ port := ⟨rfl, udpSockfd, rfl, hfd⟩
  refine wp_writeInt_control (v := ⟨sockStatusFd, some udpSockfd, intBytes n, intBytes n,
    some (htons port), none⟩) (free_keeping (Or.inr ⟨n, rfl, Or.inl (List.prefix_refl _)⟩))
    (fun k => free_keeping ?_) ?_
  · exact Or.inr ⟨n, rfl, Or.inr ⟨port, hbound _, List.prefix_append_right_inj _ |>.mpr
      (List.take_prefix _ _)⟩⟩
  have hannounced : Progress.Announced ⟨sockStatusFd, some udpSockfd, intBytes n,
      intBytes n ++ intBytes port, some (htons port), none⟩ := ⟨n, port, rfl, rfl, hbound _⟩
  have hdispatch {v : Progress} (hv : v.Announced) :
      (Program.call (.eventBaseDispatch (TunnelServer.eventLoop udpSockfd tunFd)) fun _ =>
        Program.done () : Program Sys Unit).wp
        (calling (keeping Progress.Announces Progress.Announced)) (fun v _ => v.Announces) v :=
    ⟨⟨hv.announces, hv⟩, fun _ _ => hv.announces⟩
  refine ⟨hannounced.announces, fun received _ => ?_⟩
  -- whatever came as the hello, and whether or not its source is connected to
  simp only [Program.wp_done]
  split
  case isFalse => exact hdispatch hannounced
  case isTrue =>
    refine ⟨hannounced.announces, fun connected _ => ?_⟩
    have hconnect := hannounced.connect udpSockfd
      (TunnelServer.afterRecvfrom garbage received).2.2 connected
    change Program.wp _ (if connected > (0 : ℤ) then _ else _) _ _
    split
    · rw [Program.wp_bind]
      exact wp_exit (free_keeping hconnect.announces) _ _
    · exact ⟨hconnect.announces, fun _ _ => hdispatch hconnect⟩

/-! ## The client -/

/-- A client that relays has read an echo and a port, and its UDP socket is connected to
that port of the host `ipaddr`. -/
def Progress.ConnectedTo (ipaddr : BitVec 32) (v : Progress) : Prop :=
  ∃ echo port, v.read = intBytes echo ++ intBytes port ∧ v.peer = some ⟨ipaddr, htons port⟩

/-- The contract of the client. -/
abbrev connecting (ipaddr : BitVec 32) : Program.Contract Sys Progress :=
  calling (keeping (fun _ => True) (Progress.ConnectedTo ipaddr))

section Client

variable {α : Type} {ipaddr : BitVec 32} {v : Progress} {post : Progress → α → Prop}

/-- Saying hello changes neither what was read nor where the UDP socket is connected to. -/
theorem Progress.ConnectedTo.write (h : v.ConnectedTo ipaddr) (fd : ℤ) (bytes : List UInt8)
    (r : ℤ) : (v.after (.write fd bytes) r).ConnectedTo ipaddr := by
  simp only [Progress.after]
  split
  · exact h
  · exact h

/-- The second half of `ipReflect_start` connects to the port it reads. -/
theorem openTunnel_connects (inetAddr : String → BitVec 32) (tunFd : ℤ) (ipaddrStr : String)
    (flagSrandom echo : CInt) (err : ℤ) (hread : v.read = intBytes echo) :
    (IpReflect.openTunnel inetAddr tunFd ipaddrStr flagSrandom err).wp
      (connecting (inetAddr ipaddrStr)) (fun _ _ => True) v := by
  simp only [IpReflect.openTunnel, Program.bind_eq, Program.wp_bind]
  refine wp_getControlSock trivial (wp_readInt_control trivial (free_keeping trivial)
    (fun _ => free_keeping trivial) fun port => ?_)
  have hconnected (fd : ℤ) :
      ((({ v with read := v.read ++ intBytes port } : Progress).after (.socket .dgram) fd).after
        (.connect fd ⟨inetAddr ipaddrStr, htons port⟩) (0 : ℤ)).ConnectedTo
          (inetAddr ipaddrStr) := by
    use echo, port
    simp [Progress.after, hread]
  refine ⟨trivial, fun udpTunnelFd _ => ⟨trivial, fun failed _ => ?_⟩⟩
  change Program.wp _ (if failed ≠ (0 : ℤ) then _ else _) _ _
  split
  case isTrue => exact ⟨trivial, fun _ _ => wp_out2_calling (free_keeping trivial) _ _⟩
  case isFalse hfailed =>
    obtain rfl : failed = (0 : ℤ) := Decidable.not_not.mp hfailed
    rw [Program.wp_bind]
    refine ⟨trivial, fun written _ => ?_⟩
    change Program.wp _ (if written ≠ (4 : ℤ) then _ else _) _ _
    split
    · exact wp_exit (free_keeping trivial) _ _
    · have hwrite := (hconnected udpTunnelFd).write udpTunnelFd (intBytes flagSrandom) written
      exact ⟨⟨trivial, hwrite⟩, fun _ _ => ⟨trivial, fun _ _ => ⟨trivial, fun _ _ =>
        wp_out2_calling (free_keeping trivial) _ _⟩⟩⟩

/-- Every path of `ipReflect_start` into its relay loop connects to the port it has read. -/
theorem ipReflectStart_connects (inetAddr : String → BitVec 32) (tunFd : ℤ) (ipaddrStr : String)
    (tcpPort : CInt) :
    (IpReflect.ipReflectStart inetAddr tunFd ipaddrStr tcpPort).wp
      (connecting (inetAddr ipaddrStr)) (fun _ _ => True) (Progress.start 0) := by
  simp only [IpReflect.ipReflectStart, Program.bind_eq, Program.wp_bind]
  refine ⟨trivial, fun sock _ => ⟨trivial, fun _ _ => ?_⟩⟩
  simp only [Program.wp_done]
  split
  · exact ⟨trivial, fun _ _ => wp_out1_calling (free_keeping trivial) _⟩
  rw [Program.wp_bind]
  refine wp_getControlSock trivial ⟨trivial, fun err _ => ?_⟩
  change Program.wp _ (if err < (0 : ℤ) then _ else _) _ _
  split
  · exact ⟨trivial, fun _ _ => wp_out1_calling (free_keeping trivial) _⟩
  -- nothing has been read on the control connection before the echo
  suffices h : ∀ v : Progress, v.read = [] → Program.wp (connecting (inetAddr ipaddrStr)) _
      (fun _ _ => True) v from h _ (by simp [Progress.after, Progress.start])
  intro v hread
  simp only [Program.wp_bind]
  refine ⟨trivial, fun r _ => wp_getControlSock trivial ?_⟩
  refine wp_writeInt_control (v := v) (free_keeping trivial) (fun _ => free_keeping trivial)
    (wp_getControlSock trivial ?_)
  refine wp_readInt_control trivial (free_keeping trivial) (fun _ => free_keeping trivial)
    fun echo => ?_
  have hopen := openTunnel_connects (v := ⟨v.control, v.udp, v.read ++ intBytes echo,
    v.written ++ intBytes (BitVec.ofNat 32 r), v.bound, v.peer⟩) inetAddr tunFd ipaddrStr
    (BitVec.ofNat 32 r) echo err (by simp [hread])
  split
  · exact ⟨trivial, fun _ _ => hopen⟩
  · exact hopen

end Client

/-! ## Both ends -/

/-- A client and the child of the server it is connected to. -/
structure Rendezvous where
  client : Party ℤ
  server : Party Unit

namespace Rendezvous

/-- One step of either end. What the other end has written is what there is to read. -/
def step (t : Rendezvous) : Handshake.Label → Option Rendezvous
  | .client a =>
    (t.client.step IpReflect.callbacks t.server.progress.written a).map
      fun w => { t with client := w }
  | .server a =>
    (t.server.step TunnelServer.callbacks t.client.progress.written a).map
      fun w => { t with server := w }

/-- The two ends before their first calls: the client in `ipReflect_start`, the child of
the server in `process`. -/
def start (inetAddr : String → BitVec 32) (clientTun : ℤ) (ipaddrStr : String) (port : CInt)
    (rounds : ℕ) (garbage : TunnelServer.Uninitialized) (sockStatusFd serverTun : ℤ) :
    Rendezvous where
  client := ⟨.running (IpReflect.ipReflectStart inetAddr clientTun ipaddrStr port),
    Progress.start 0⟩
  server := ⟨.running (TunnelServer.process rounds garbage sockStatusFd serverTun),
    Progress.start sockStatusFd⟩

/-- The ends agree: they have exchanged one nonce, and the client sends to the port of the
server's host that the server's UDP socket is bound to. -/
def Agreed (ipaddr : BitVec 32) (t : Rendezvous) : Prop :=
  ∃ n port, intBytes n <+: t.client.progress.written ∧ t.server.progress.read = intBytes n ∧
    t.server.progress.written = intBytes n ++ intBytes port ∧
    t.client.progress.read = intBytes n ++ intBytes port ∧
    t.server.progress.BoundTo port ∧ t.client.progress.peer = some ⟨ipaddr, htons port⟩

/-- Each end has read the beginning of what the other one has written. -/
def InOrder (t : Rendezvous) : Prop :=
  t.client.progress.read <+: t.server.progress.written ∧
    t.server.progress.read <+: t.client.progress.written

end Rendezvous

/-- What has been written stays written. -/
theorem Progress.written_after (v : Progress) (op : Syscall) (r : op.Reply) :
    v.written <+: (v.after op r).written := by
  unfold after
  split
  case h_3 | h_4 | h_5 | h_6 => split <;> simp
  all_goals exact List.prefix_refl _

/-- Only what the other end has written can be read. -/
theorem Progress.read_after {v : Progress} {incoming : List UInt8} {op : Syscall} {r : op.Reply}
    (hadmits : v.admits incoming op r) (hread : v.read <+: incoming) :
    (v.after op r).read <+: incoming := by
  unfold after
  split
  case h_3 fd len bytes =>
    split
    case isTrue hfd =>
      have hbytes : bytes.length ≤ len ∧ v.read ++ bytes <+: incoming := by
        simpa [admits, hfd] using hadmits
      exact hbytes.2
    case isFalse => exact hread
  case h_4 | h_5 | h_6 =>
    split
    · exact hread
    · exact hread
  all_goals exact hread

/-- A step of a party keeps the order of both streams. -/
theorem Party.inOrder_step {α : Type} {cb : Callbacks} {incoming : List UInt8} {w w' : Party α}
    {a : Action} (hread : w.progress.read <+: incoming) (hstep : w.step cb incoming a = some w') :
    w'.progress.read <+: incoming ∧ w.progress.written <+: w'.progress.written := by
  obtain ⟨thread, v⟩ := w
  cases thread with
  | running p =>
    cases a with
    | call op r =>
      simp only [step, Option.ite_none_right_eq_some, Option.map_eq_some_iff] at hstep
      obtain ⟨hadmits, q, _, rfl⟩ := hstep
      exact ⟨Progress.read_after hadmits hread, v.written_after op r⟩
    | dispatch =>
      simp only [step] at hstep
      split at hstep
      case h_1 =>
        cases hstep
        exact ⟨hread, List.prefix_refl _⟩
      case h_2 => cases hstep
    | _ => simp [step] at hstep
  | dispatching l next =>
    cases a with
    | relay e =>
      obtain ⟨l', _, rfl⟩ := Option.map_eq_some_iff.mp hstep
      exact ⟨hread, List.prefix_refl _⟩
    | leave code =>
      simp only [step, Option.ite_none_right_eq_some, Option.some.injEq] at hstep
      obtain ⟨_, rfl⟩ := hstep
      exact ⟨hread, List.prefix_refl _⟩
    | _ => simp [step] at hstep

namespace Rendezvous

variable {inetAddr : String → BitVec 32} {clientTun : ℤ} {ipaddrStr : String} {port : CInt}
  {rounds : ℕ} {garbage : TunnelServer.Uninitialized} {sockStatusFd serverTun : ℤ}
  {ipaddr : BitVec 32} {t u : Rendezvous} {tr : List Handshake.Label}

/-- Both parties keep their contracts, and both streams are in order. -/
structure Inv (ipaddr : BitVec 32) (t : Rendezvous) : Prop where
  client : t.client.Keeps (fun _ => True) (Progress.ConnectedTo ipaddr)
  server : t.server.Keeps Progress.Announces Progress.Announced
  inOrder : t.InOrder

/-- A step of either end keeps both contracts and the order of both streams. -/
theorem inv_step {a : Handshake.Label} (h : t.Inv ipaddr) (hstep : t.step a = some u) :
    u.Inv ipaddr := by
  obtain ⟨hclient, hserver, hin, hout⟩ := h
  cases a with
  | client a =>
    obtain ⟨w, hw, rfl⟩ := Option.map_eq_some_iff.mp hstep
    obtain ⟨hread, hwritten⟩ := Party.inOrder_step hin hw
    exact ⟨Party.follows_step hclient hw, hserver, hread, hout.trans hwritten⟩
  | server a =>
    obtain ⟨w, hw, rfl⟩ := Option.map_eq_some_iff.mp hstep
    obtain ⟨hread, hwritten⟩ := Party.inOrder_step hout hw
    exact ⟨hclient, Party.follows_step hserver hw, hin.trans hwritten, hread⟩

/-- Before the first call nothing has been written or read. -/
theorem inv_start : (start inetAddr clientTun ipaddrStr port rounds garbage sockStatusFd
    serverTun).Inv (inetAddr ipaddrStr) :=
  ⟨ipReflectStart_connects inetAddr clientTun ipaddrStr port,
    process_announces rounds garbage sockStatusFd serverTun,
    List.prefix_refl _, List.prefix_refl _⟩

/-- Two integers that were read are the ones the server has written. -/
theorem eq_of_announces {v : Progress} {echo port' : CInt} (h : v.Announces)
    (hread : intBytes echo ++ intBytes port' <+: v.written) :
    v.read = intBytes echo ∧ v.written = intBytes echo ++ intBytes port' ∧ v.BoundTo port' := by
  have hlength := hread.length_le
  rcases h with hnil | ⟨n, hn, hshort | ⟨p, hp, hwritten⟩⟩
  · simp [hnil] at hlength
  · have hle := hshort.length_le
    simp at hlength hle
    omega
  · have heq : intBytes echo ++ intBytes port' = intBytes n ++ intBytes p :=
      (hread.trans hwritten).eq_of_length (by simp)
    obtain ⟨hecho, hport⟩ := List.append_inj heq (by simp)
    have hfull : v.written = intBytes n ++ intBytes p := by
      refine hwritten.eq_of_length (le_antisymm hwritten.length_le ?_)
      simpa using hlength
    rw [← intOfBytes_intBytes p, ← hport, intOfBytes_intBytes] at hp
    exact ⟨by rw [hn, hecho], by rw [hfull, hecho, hport], hp⟩

/-- Ends that keep their contracts agree once the client relays. -/
theorem Inv.agreed (h : t.Inv ipaddr) (hdispatching : t.client.thread.isDispatching) :
    t.Agreed ipaddr := by
  obtain ⟨hclient, hserver, hin, hout⟩ := h
  obtain ⟨echo, p, hread, hpeer⟩ := hclient.relay hdispatching
  rw [hread] at hin
  obtain ⟨hnonce, hwritten, hbound⟩ := eq_of_announces hserver.inv hin
  rw [hnonce] at hout
  exact ⟨echo, p, hout, hnonce, hwritten, hread, hbound, hpeer⟩

/-- However the two programs interleave, and whatever the network does with datagrams: a
client that relays agrees with its server on the nonce and on the port, which is bound. -/
theorem agreed_of_dispatching
    (hrun : run step
      (start inetAddr clientTun ipaddrStr port rounds garbage sockStatusFd serverTun) tr = some t)
    (hdispatching : t.client.thread.isDispatching) : t.Agreed (inetAddr ipaddrStr) := by
  have hinv := invariant (I := Inv (inetAddr ipaddrStr)) (fun _ _ _ => inv_step) inv_start hrun
  exact hinv.agreed hdispatching

/-- The client reads the echo in one piece and relays before the server has seen its hello. -/
def clientRelays : List Handshake.Label :=
  Handshake.announced ++
    [.client (.call .getControlSock (3 : ℤ)), .client (.call (.read 3 4) (some [7, 0, 0, 0])),
      .client (.call (.log "tcp successful") ())] ++ Handshake.connected

/-- A session in which the uninitialized variables of `process` are zero. -/
def session : Rendezvous :=
  start (fun _ => Handshake.serverAddr) 6 "192.168.0.1" 55540 0 ⟨0, ⟨0, 0⟩⟩ 4 3

/-- The ends agree as soon as the client relays. -/
theorem agreed_of_dispatching_clientRelays :
    ∃ t, run step session clientRelays = some t ∧ t.Agreed Handshake.serverAddr := by
  have hrun : ∃ t, run step session clientRelays = some t ∧ t.client.thread.isDispatching :=
    ⟨_, rfl, rfl⟩
  obtain ⟨t, hrun, hdispatching⟩ := hrun
  exact ⟨t, hrun, agreed_of_dispatching hrun hdispatching⟩

end Rendezvous

end HeptaVcn
