import HeptaVcn.Handshake.NonceGate

/-!
# All sessions of the server over one TUN device

The server is the process that runs `main` and every process forked from it. They
read packets from one TUN device, each packet going to whoever reads it first. A
child runs `process` once, and nothing ever turns its reading of the TUN device on
again, so a dead session takes no packets exactly when it had stopped reading
before its control connection was seen closed.
-/

namespace HeptaVcn

open Machine

/-- The processes in the order of their creation, and the packets waiting in the TUN device. -/
structure Server where
  processes : List ServerProcess
  tunQueue : List (List UInt8)

namespace Server

/-- A packet is routed to the TUN device, or something happens to a process. -/
inductive Label where
  | tun (packet : List UInt8)
  | proc (i : ℕ) (a : Action)

/-- A read from the TUN device takes its first packet. -/
def tunAfter (t : Server) : Action → Option (List (List UInt8))
  | .relay (.read .tun packet) =>
    if t.tunQueue.head? = some packet then some t.tunQueue.tail else none
  | _ => some t.tunQueue

/-- The child of a successful `fork`: it goes on with the reply `0`, and its record of
the kernel is a new one. A failing `fork` makes no child. -/
def forked (w : ServerProcess) : Action → Option (List ServerProcess)
  | .call .fork r =>
    if r = (0 : ℤ) then none
    else if (0 : ℤ) < r then
      (w.step (.call .fork (0 : ℤ))).map fun child => [⟨child.thread, Kernel.fresh⟩]
    else some []
  | _ => some []

/-- One step of the server. -/
def step (t : Server) : Label → Option Server
  | .tun packet => if packet ≠ [] then some { t with tunQueue := t.tunQueue ++ [packet] } else none
  | .proc i a => do
    let w ← t.processes[i]?
    let tunQueue ← t.tunAfter a
    let children ← forked w a
    let w' ← w.step a
    pure ⟨t.processes.set i w' ++ children, tunQueue⟩

/-- What a step of one process needs and does. -/
theorem step_proc {t u : Server} {i : ℕ} {a : Action} :
    t.step (.proc i a) = some u ↔ ∃ w tunQueue children w', t.processes[i]? = some w ∧
      t.tunAfter a = some tunQueue ∧ forked w a = some children ∧ w.step a = some w' ∧
        u = ⟨t.processes.set i w' ++ children, tunQueue⟩ := by
  simp only [step, Option.bind_eq_bind, Option.bind_eq_some_iff, Option.pure_def,
    Option.some.injEq, eq_comm (a := u)]
  constructor
  · rintro ⟨w, hw, tunQueue, hq, children, hc, w', hw', rfl⟩
    exact ⟨w, tunQueue, children, w', hw, hq, hc, hw', rfl⟩
  · rintro ⟨w, tunQueue, children, w', hw, hq, hc, hw', rfl⟩
    exact ⟨w, hw, tunQueue, hq, children, hc, w', hw', rfl⟩

end Server

/-! ## One session a process -/

/-- A process may enter an event loop once; the state says whether it has. The child of
a `fork` has not. -/
def oneSession : Program.Contract Sys Bool where
  demand entered
    | .eventBaseDispatch _ => entered = false
    | _ => True
  admits _ _ _ := True
  after entered
    | .eventBaseDispatch _, _ => true
    | .fork, r => if r = (0 : ℤ) then false else entered
    | _, _ => entered

/-- A call that neither forks nor accepts a connection nor enters an event loop. -/
def Syscall.Sequential : Syscall → Prop
  | .accept _ | .fork | .eventBaseDispatch _ => False
  | _ => True

/-- The contract asks for nothing and sees nothing of sequential calls. -/
def SequentialContract {σ : Type} (c : Program.Contract Sys σ) : Prop :=
  ∀ s (op : Syscall), op.Sequential → c.demand s op ∧ ∀ r, c.after s op r = s

/-- A contract that takes any sequential call takes any quiet one. -/
theorem SequentialContract.quiet {σ : Type} {c : Program.Contract Sys σ}
    (hc : SequentialContract c) : QuietContract c := by
  intro s op hop
  apply hc s op
  cases op <;> trivial

/-- A sequential call leaves the state of such a contract alone. -/
theorem SequentialContract.wp_call {σ α : Type} {c : Program.Contract Sys σ}
    (hc : SequentialContract c) {op : Syscall} {post : σ → α → Prop} {s : σ}
    {next : Sys.Reply op → Program Sys α} (h : ∀ r, (next r).wp c post s)
    (hop : op.Sequential := by trivial) : (Program.call op next : Program Sys α).wp c post s :=
  ⟨(hc s op hop).1, fun r _ => by rw [(hc s op hop).2 r]; exact h r⟩

/-- `process` is sequential up to its event loop, with which it ends. -/
theorem process_wp_of_dispatch {σ : Type} {c : Program.Contract Sys σ}
    (hc : SequentialContract c) (rounds : ℕ) (garbage : TunnelServer.Uninitialized)
    (sockStatusFd tunFd : ℤ) {post : σ → Unit → Prop} {s : σ}
    (hdispatch : ∀ udpSockfd,
      (Program.call (.eventBaseDispatch (TunnelServer.eventLoop udpSockfd tunFd))
        fun _ => Program.done () : Program Sys Unit).wp c post s) :
    (TunnelServer.process rounds garbage sockStatusFd tunFd).wp c post s := by
  have hquiet := hc.quiet
  have hread (fd : ℤ) (len : ℕ) := hc s (.read fd len) trivial
  have hwrite (fd : ℤ) (bytes : List UInt8) := hc s (.write fd bytes) trivial
  simp only [TunnelServer.process, Program.bind_eq, Program.wp_bind]
  refine wp_readInt hquiet _ (hread _ _).1 fun bytes _ _ => ?_
  rw [(hread _ _).2]
  refine wp_writeInt hquiet _ _ (hwrite _ _).1 ?_
  rw [(hwrite _ _).2]
  refine hc.wp_call fun udpSockfd => ?_
  refine wp_createSocketBind hquiet _ _ _ _ fun port => ?_
  refine wp_writeInt hquiet _ _ (hwrite _ _).1 ?_
  rw [(hwrite _ _).2]
  refine hc.wp_call fun received => ?_
  simp only [Program.wp_done]
  split
  · refine hc.wp_call fun connected => ?_
    change Program.wp c (if connected > (0 : ℤ) then _ else _) _ _
    split
    · rw [Program.wp_bind]
      exact wp_perrorExit hquiet _ _ _
    · exact wp_quiet_call hquiet fun _ => hdispatch _
  · exact hdispatch _

/-- The contract of one session takes any sequential call. -/
theorem oneSession_sequential : SequentialContract oneSession := by
  intro entered op hop
  cases op <;> first | exact ⟨trivial, fun _ => rfl⟩ | exact hop.elim

/-- `process` enters one event loop. -/
theorem process_wp_oneSession (rounds : ℕ) (garbage : TunnelServer.Uninitialized)
    (sockStatusFd tunFd : ℤ) {post : Bool → Unit → Prop} (hpost : ∀ entered, post entered ()) :
    (TunnelServer.process rounds garbage sockStatusFd tunFd).wp oneSession post false :=
  process_wp_of_dispatch oneSession_sequential rounds garbage sockStatusFd tunFd
    fun _ => ⟨rfl, fun _ _ => hpost true⟩

/-- In the accept loop a process enters one event loop at most. -/
theorem acceptLoop_wp (rounds : ℕ) (garbage : TunnelServer.Uninitialized) (sockFd tunFd : ℤ)
    (connections : ℕ) (entered : Bool) :
    (TunnelServer.acceptLoop rounds garbage sockFd tunFd connections).wp oneSession
      (fun _ _ => True) entered := by
  have hc := oneSession_sequential.quiet
  induction connections generalizing entered with
  | zero => exact wp_quiet_call hc fun r => nomatch r
  | succ connections ih =>
    refine ⟨trivial, fun netFd _ => ?_⟩
    change Program.wp oneSession (if netFd < (0 : ℤ) then _ else _) _ _
    split
    · exact wp_perrorExit hc _ _ _
    · refine ⟨trivial, fun pid _ => ?_⟩
      change Program.wp oneSession (if pid = (0 : ℤ) then _ else _) _
        (if pid = (0 : ℤ) then false else entered)
      split
      · rw [Program.bind_eq, Program.wp_bind]
        exact process_wp_oneSession _ _ _ _ ih
      · exact ih entered

/-- `tun_alloc` makes sequential calls only. -/
theorem wp_tunAlloc {σ : Type} {c : Program.Contract Sys σ} (hc : SequentialContract c)
    (dev : String) {post : σ → ℤ → Prop} {s : σ} (hpost : ∀ fd, post s fd) :
    (TunnelServer.tunAlloc dev).wp c post s := by
  refine hc.wp_call fun fd => ?_
  change Program.wp c (if fd < (0 : ℤ) then _ else _) _ _
  split
  · exact hc.wp_call fun _ => hpost fd
  · refine hc.wp_call fun err => ?_
    change Program.wp c (if err < (0 : ℤ) then _ else _) _ _
    split
    · exact hc.wp_call fun _ => hc.wp_call fun _ => hpost err
    · exact hpost fd

/-- Every process that comes from `main` enters at most one event loop. -/
theorem main_wp (rounds connections : ℕ) (garbage : TunnelServer.Uninitialized) :
    (TunnelServer.main rounds connections garbage).wp oneSession (fun _ _ => True) false := by
  have hc := oneSession_sequential.quiet
  rw [TunnelServer.main, Program.bind_eq, Program.wp_bind]
  refine wp_tunAlloc oneSession_sequential _ fun tunFd => ?_
  split
  · exact wp_perrorExit hc _ _ _
  · refine wp_quiet_call hc fun sockFd => ?_
    change Program.wp oneSession (if sockFd < (0 : ℤ) then _ else _) _ _
    split
    · exact wp_perrorExit hc _ _ _
    · rw [Program.bind_eq, Program.wp_bind]
      refine wp_createSocketBind hc _ _ _ _ fun _ => ⟨trivial, fun listening _ => ?_⟩
      change Program.wp oneSession (if listening < (0 : ℤ) then _ else _) _ _
      split
      · exact wp_perrorExit hc _ _ _
      · exact acceptLoop_wp _ _ _ _ _ _

/-- The thread has entered no event loop, or is in the only one it will enter. -/
def Thread.Session : Thread Unit → Prop
  | .running p => ∃ entered, p.wp oneSession (fun _ _ => True) entered
  | .dispatching _ next => ∀ r, (next r).wp oneSession (fun _ _ => True) true

/-- A packet can be read from the TUN device. -/
def EventLoop.tunReadable (l : EventLoop) : Bool :=
  (l.bev .tun).readEnabled && l.descriptorOpen .tun

/-- The thread is in a loop that can read a packet from the TUN device. -/
def Thread.tunReadable : Thread Unit → Bool
  | .running _ => false
  | .dispatching l _ => l.tunReadable

/-- The thread has entered its event loop, if any, and no longer reads from the TUN device. -/
def Thread.Retired : Thread Unit → Prop
  | .running p => p.wp oneSession (fun _ _ => True) true
  | .dispatching l next =>
    l.tunReadable = false ∧ ∀ r, (next r).wp oneSession (fun _ _ => True) true

namespace EventLoop

variable {l l' : EventLoop}

/-- A TUN device that is not read any more is not read after a change that enables nothing. -/
theorem tunReadable_modify (hreadable : l.tunReadable = false) (d : Side)
    {f : Bufferevent → Bufferevent} (hf : ∀ b, (f b).readEnabled = true → b.readEnabled = true) :
    (l.modify d f).tunReadable = false := by
  cases d <;> simp_all [tunReadable, modify, bev, descriptorOpen]

/-- No event turns the reading of the TUN device on again. -/
theorem tunReadable_step {cb : Callbacks} (hcb : cb.OnlyForward) {e : Event}
    (hreadable : l.tunReadable = false) (hstep : l.step cb e = some l') :
    l'.tunReadable = false := by
  obtain ⟨_, rfl⟩ := step_eq_some.mp hstep
  cases e with
  | read d packet => exact tunReadable_modify hreadable d fun _ h => h
  | readcb d =>
    rw [after, hcb.recv, forward]
    have htaken := tunReadable_modify hreadable d
      (f := fun b => { b with readcbPending := false }) fun _ h => h
    have hemptied := tunReadable_modify htaken d (f := fun b => { b with input := [] }) fun _ h => h
    exact tunReadable_modify hemptied _ fun _ h => h
  | write d bytes => exact tunReadable_modify hreadable d fun _ h => h
  | fault d f =>
    rw [after, hcb.error]
    exact tunReadable_modify hreadable d fun b h => by cases f <;> simp_all [disable]
  | tcpClose => exact hreadable
  | tunClose => simp [after, tunReadable, descriptorOpen]
  | tcpEvent =>
    rw [after, hcb.tcpError]
    exact hreadable

/-- The control-closed callback leaves the TUN device as readable as it was. -/
theorem enabled_read_tun_of_tcpEvent {cb : Callbacks} (hcb : cb.OnlyForward)
    (henabled : l.enabled .tcpEvent) (hreadable : l.tunReadable) {packet : List UInt8}
    (hne : packet ≠ []) : (l.after cb .tcpEvent).enabled (.read .tun packet) := by
  rw [after, hcb.tcpError]
  simp only [enabled, Bool.and_eq_true, Bool.not_eq_true', decide_eq_true_eq, bev_evTcp]
    at henabled ⊢
  rw [tunReadable, Bool.and_eq_true] at hreadable
  exact ⟨⟨⟨henabled.1.1, hreadable.1⟩, hreadable.2⟩, hne⟩

end EventLoop

namespace ServerProcess

variable {w w' : ServerProcess} {a : Action}

/-- A process stays in the session that it is in. -/
theorem session_step (hsession : w.thread.Session) (hstep : w.step a = some w') :
    w'.thread.Session := by
  cases a with
  | call op r =>
    obtain ⟨next, hthread, _, rfl⟩ := step_call.mp hstep
    rw [hthread] at hsession
    obtain ⟨entered, _, hnext⟩ := hsession
    exact ⟨_, hnext r trivial⟩
  | dispatch =>
    obtain ⟨l, next, hthread, rfl⟩ := step_dispatch.mp hstep
    rw [hthread] at hsession
    obtain ⟨entered, _, hnext⟩ := hsession
    exact fun r => hnext r trivial
  | receive d =>
    obtain ⟨l, next, l', hthread, _, _, rfl⟩ := step_receive.mp hstep
    rwa [hthread] at hsession
  | relay e =>
    obtain ⟨l, next, l', hthread, _, _, rfl⟩ := step_relay.mp hstep
    rwa [hthread] at hsession
  | leave code =>
    obtain ⟨l, next, hthread, _, rfl⟩ := step_leave.mp hstep
    rw [hthread] at hsession
    exact ⟨true, hsession code⟩
  | arrive src payload =>
    obtain ⟨_, rfl⟩ := step_arrive.mp hstep
    exact hsession

/-- A process that no longer reads from the TUN device never does again. -/
theorem retired_step (hretired : w.thread.Retired) (hfork : ∀ r, a = .call .fork r → r ≠ (0 : ℤ))
    (hstep : w.step a = some w') : w'.thread.Retired := by
  have hcb := TunnelServer.callbacks_onlyForward
  cases a with
  | call op r =>
    obtain ⟨next, hthread, _, rfl⟩ := step_call.mp hstep
    rw [hthread] at hretired
    have hnext := hretired.2 r trivial
    have hafter : oneSession.after true op r = true := by
      cases op with
      | fork => exact if_neg (hfork r rfl)
      | _ => rfl
    rwa [hafter] at hnext
  | dispatch =>
    obtain ⟨l, next, hthread, rfl⟩ := step_dispatch.mp hstep
    rw [hthread] at hretired
    exact Bool.noConfusion hretired.1
  | receive d =>
    obtain ⟨l, next, l', hthread, _, hl, rfl⟩ := step_receive.mp hstep
    rw [hthread] at hretired
    exact ⟨EventLoop.tunReadable_step hcb hretired.1 hl, hretired.2⟩
  | relay e =>
    obtain ⟨l, next, l', hthread, _, hl, rfl⟩ := step_relay.mp hstep
    rw [hthread] at hretired
    exact ⟨EventLoop.tunReadable_step hcb hretired.1 hl, hretired.2⟩
  | leave code =>
    obtain ⟨l, next, hthread, _, rfl⟩ := step_leave.mp hstep
    rw [hthread] at hretired
    exact hretired.2 code
  | arrive src payload =>
    obtain ⟨_, rfl⟩ := step_arrive.mp hstep
    exact hretired

/-- A process whose control connection is closed and whose TUN device is not read has retired. -/
theorem retired_of_session (hsession : w.thread.Session)
    (hstep : w.step (.relay .tcpEvent) = some w') (hreadable : w.thread.tunReadable = false) :
    w.thread.Retired := by
  obtain ⟨l, next, l', hthread, _⟩ := step_relay.mp hstep
  rw [hthread] at hsession hreadable ⊢
  exact ⟨hreadable, hsession⟩

/-- A retired process takes no packet. -/
theorem not_read_of_retired (hretired : w.thread.Retired) (packet : List UInt8) :
    w.step (.relay (.read .tun packet)) ≠ some w' := by
  intro hstep
  obtain ⟨l, next, l', hthread, _, hl, _⟩ := step_relay.mp hstep
  rw [hthread] at hretired
  have henabled := (EventLoop.step_eq_some.mp hl).1
  have hreadable := hretired.1
  simp_all [EventLoop.enabled, EventLoop.tunReadable]

end ServerProcess

namespace Server

open Handshake (phone)

/-- A process that handles the closed event of its control connection no longer reads
from the TUN device. -/
def closedUnreadable (t : Server) : Label → Bool
  | .proc i (.relay .tcpEvent) => (t.processes[i]?.map (·.thread.tunReadable)) ≠ some true
  | _ => true

/-- Once a process has handled the closed event of its control connection, it reads no
packet from the TUN device. -/
def DeadTakeNothing (tr : List Label) : Prop :=
  ∀ i tr₁ tr₂, tr = tr₁ ++ .proc i (.relay .tcpEvent) :: tr₂ →
    ∀ packet, .proc i (.relay (.read .tun packet)) ∉ tr₂

/-- What is known of the processes after the labels `tr`. -/
structure Accounted (tr : List Label) (t : Server) : Prop where
  session : ∀ w ∈ t.processes, w.thread.Session
  retired : ∀ i, .proc i (.relay .tcpEvent) ∈ tr →
    ∃ w, t.processes[i]? = some w ∧ w.thread.Retired

variable {t u : Server} {tr : List Label}

/-- The child of a process enters one event loop at most, like its parent. -/
theorem session_forked {w : ServerProcess} {a : Action} {children : List ServerProcess}
    (hsession : w.thread.Session) (hforked : forked w a = some children) :
    ∀ child ∈ children, child.thread.Session := by
  intro child hchild
  unfold forked at hforked
  split at hforked
  case h_1 r =>
    split at hforked
    · cases hforked
    · split at hforked
      · obtain ⟨child', hstep, rfl⟩ := Option.map_eq_some_iff.mp hforked
        obtain rfl := List.mem_singleton.mp hchild
        have hchild := ServerProcess.session_step hsession hstep
        exact hchild
      · cases hforked
        cases hchild
  case h_2 =>
    cases hforked
    cases hchild

/-- The reply `0` of a fork goes to the child. -/
theorem fork_ne_zero {w : ServerProcess} {a : Action} {children : List ServerProcess}
    (hforked : forked w a = some children) : ∀ r, a = .call .fork r → r ≠ (0 : ℤ) := by
  rintro r rfl rfl
  cases hforked

/-- The session invariants are kept by every step that meets the condition. -/
theorem accounted_step {a : Label} (hI : Accounted tr t) (hC : t.closedUnreadable a)
    (hstep : t.step a = some u) : Accounted (tr ++ [a]) u := by
  cases a with
  | tun packet =>
    simp only [step, Option.ite_none_right_eq_some, Option.some.injEq] at hstep
    obtain ⟨_, rfl⟩ := hstep
    exact ⟨hI.session, fun i hi => hI.retired i (by simpa using hi)⟩
  | proc j a =>
    obtain ⟨w, tunQueue, children, w', hw, _, hforked, hw', rfl⟩ := step_proc.mp hstep
    have hsession := hI.session w (List.mem_of_getElem? hw)
    constructor
    · intro v hv
      rcases List.mem_append.mp hv with hv | hv
      · rcases List.mem_or_eq_of_mem_set hv with hv | rfl
        · exact hI.session v hv
        · exact ServerProcess.session_step hsession hw'
      · exact session_forked hsession hforked v hv
    · intro i hi
      obtain ⟨v, hv, hretired⟩ : ∃ v, t.processes[i]? = some v ∧ v.thread.Retired := by
        rcases List.mem_append.mp hi with hi | hi
        · exact hI.retired i hi
        · obtain ⟨rfl, rfl⟩ : i = j ∧ .relay .tcpEvent = a := by simpa using hi
          have hreadable : w.thread.tunReadable = false := by
            simpa [closedUnreadable, hw] using hC
          exact ⟨w, hw, ServerProcess.retired_of_session hsession hw' hreadable⟩
      have hlt := (List.getElem?_eq_some_iff.mp hv).1
      rw [List.getElem?_append_left (by simpa using hlt), List.getElem?_set]
      split
      case isTrue heq =>
        subst heq
        obtain rfl : w = v := Option.some.inj (hw.symm.trans hv)
        exact ⟨w', if_pos hlt, ServerProcess.retired_step hretired (fork_ne_zero hforked) hw'⟩
      case isFalse => exact ⟨v, hv, hretired⟩

/-- The server before its first call. -/
def start (rounds connections : ℕ) (garbage : TunnelServer.Uninitialized) : Server where
  processes := [⟨.running (TunnelServer.main rounds connections garbage), Kernel.fresh⟩]
  tunQueue := []

variable {rounds connections : ℕ} {garbage : TunnelServer.Uninitialized}

/-- Dead sessions take no packets, in every run of the server in which whoever sees its
control connection closed has stopped reading from the TUN device. -/
theorem deadTakeNothing_of_closedUnreadable
    (hmeets : Meets step (fun t a => t.closedUnreadable a) (start rounds connections garbage) tr)
    (hrun : run step (start rounds connections garbage) tr = some t) : DeadTakeNothing tr := by
  rintro i tr₁ tr₂ rfl packet hread
  obtain ⟨tr₃, tr₄, rfl⟩ := List.append_of_mem hread
  rw [← List.cons_append, ← List.append_assoc] at hmeets hrun
  obtain ⟨v, hv, hrun⟩ := run_append_eq_some.mp hrun
  obtain ⟨u, hu, _⟩ := Option.bind_eq_some_iff.mp hrun
  have hinit : Accounted [] (start rounds connections garbage) := by
    refine ⟨fun w hw => ?_, fun i hi => nomatch hi⟩
    obtain rfl := List.mem_singleton.mp hw
    exact ⟨false, main_wp rounds connections garbage⟩
  have hI := history_of_meets (fun _ _ _ _ => accounted_step) hinit (meets_append.mp hmeets).1 hv
  obtain ⟨w, hw, hretired⟩ := hI.retired i (by simp)
  obtain ⟨w₁, _, _, w₂, hw₁, _, _, hstep, _⟩ := step_proc.mp hu
  obtain rfl : w = w₁ := Option.some.inj (hw.symm.trans hw₁)
  exact ServerProcess.not_read_of_retired hretired packet hstep

/-- What still waits in the TUN device has waited there before. -/
theorem mem_tunQueue_of_tunAfter {a : Action} {tunQueue : List (List UInt8)}
    (hafter : t.tunAfter a = some tunQueue) {packet : List UInt8} (hpacket : packet ∈ tunQueue) :
    packet ∈ t.tunQueue := by
  unfold tunAfter at hafter
  split at hafter
  · split at hafter
    · cases hafter
      exact List.mem_of_mem_tail hpacket
    · cases hafter
  · cases hafter
    exact hpacket

/-- The TUN device holds no empty packet. -/
theorem ne_nil_of_mem_tunQueue (hrun : run step (start rounds connections garbage) tr = some t) :
    ∀ packet ∈ t.tunQueue, packet ≠ [] := by
  refine invariant (I := fun t => ∀ packet ∈ t.tunQueue, packet ≠ []) ?_
    (by simp [start]) hrun
  intro t a u hI hstep packet hpacket
  cases a with
  | tun packet' =>
    simp only [step, Option.ite_none_right_eq_some, Option.some.injEq] at hstep
    obtain ⟨hne, rfl⟩ := hstep
    rcases List.mem_append.mp hpacket with h | h
    · exact hI packet h
    · rwa [List.mem_singleton.mp h]
  | proc i a =>
    obtain ⟨w, tunQueue, children, w', _, hafter, _, _, rfl⟩ := step_proc.mp hstep
    exact hI packet (mem_tunQueue_of_tunAfter hafter hpacket)

/-- A loop that may read the first packet of the TUN device can do so. -/
theorem exists_step_read {processes : List ServerProcess} {i : ℕ} {l : EventLoop}
    {next : ℤ → Program Sys Unit} {k : Kernel} {packet : List UInt8} {rest : List (List UInt8)}
    (hprocess : processes[i]? = some ⟨.dispatching l next, k⟩)
    (henabled : l.enabled (.read .tun packet)) :
    ∃ u, step ⟨processes, packet :: rest⟩ (.proc i (.relay (.read .tun packet))) = some u := by
  have hafter : tunAfter ⟨processes, packet :: rest⟩ (.relay (.read .tun packet)) = some rest :=
    if_pos rfl
  have hstep := ServerProcess.step_relay (w := ⟨.dispatching l next, k⟩).mpr
    ⟨l, next, _, rfl, rfl, EventLoop.step_eq_some.mpr ⟨henabled, rfl⟩, rfl⟩
  exact ⟨_, step_proc.mpr ⟨_, rest, [], _, hprocess, hafter, rfl, hstep, rfl⟩⟩

/-- A process that could still read when it saw its control connection closed takes the
next packet, if it is the first to read. -/
theorem exists_read_of_not_closedUnreadable {i : ℕ}
    (hrun : run step (start rounds connections garbage) tr = some t)
    (hstep : t.step (.proc i (.relay .tcpEvent)) = some u)
    (hC : ¬t.closedUnreadable (.proc i (.relay .tcpEvent))) :
    ∃ tr', (∃ v, run step u tr' = some v) ∧
      ¬DeadTakeNothing (tr ++ .proc i (.relay .tcpEvent) :: tr') := by
  obtain ⟨w, tunQueue, children, w', hw, hqueue, hforked, hw', rfl⟩ := step_proc.mp hstep
  obtain rfl : t.tunQueue = tunQueue := Option.some.inj hqueue
  obtain rfl : [] = children := Option.some.inj hforked
  obtain ⟨l, next, l', hthread, _, hl, rfl⟩ := ServerProcess.step_relay.mp hw'
  obtain ⟨henabled, rfl⟩ := EventLoop.step_eq_some.mp hl
  have hreadable : l.tunReadable = true := by
    simpa [closedUnreadable, hw, hthread, Thread.tunReadable] using hC
  obtain ⟨packet, rest, hqueue', hne⟩ :
      ∃ packet rest, t.tunQueue ++ [[0]] = packet :: rest ∧ packet ≠ [] := by
    have hqueued := ne_nil_of_mem_tunQueue hrun
    cases h : t.tunQueue with
    | nil => exact ⟨[0], [], rfl, by simp⟩
    | cons packet rest => exact ⟨packet, rest ++ [[0]], rfl, hqueued packet (by simp [h])⟩
  refine ⟨[.tun [0], .proc i (.relay (.read .tun packet))], ?_, fun h => ?_⟩
  · have hset : (t.processes.set i ⟨.dispatching (l.after TunnelServer.callbacks .tcpEvent) next,
        w.kernel⟩ ++ [])[i]? =
        some ⟨.dispatching (l.after TunnelServer.callbacks .tcpEvent) next, w.kernel⟩ := by
      rw [List.append_nil, List.getElem?_set_self (List.getElem?_eq_some_iff.mp hw).1]
    have hread := EventLoop.enabled_read_tun_of_tcpEvent TunnelServer.callbacks_onlyForward
      henabled hreadable hne
    have hwait (processes : List ServerProcess) :
        step ⟨processes, t.tunQueue⟩ (.tun [0]) = some ⟨processes, packet :: rest⟩ := by
      rw [← hqueue']
      rfl
    obtain ⟨v, hv⟩ := exists_step_read hset hread
    exact ⟨v, by rw [run_cons, hwait, Option.bind_some, run_cons, hv, Option.bind_some, run_nil]⟩
  · exact h i tr _ rfl packet (by simp)

/-- The server starts up and forks a child for the first connection. -/
def accepted : List Label :=
  [.proc 0 (.call (.open "/dev/net/tun") (3 : ℤ)), .proc 0 (.call (.ioctl 3 "tun111") (0 : ℤ)),
    .proc 0 (.call (.socket .stream) (4 : ℤ)), .proc 0 (.call (.bind 4 ⟨0, 55540⟩) (0 : ℤ)),
    .proc 0 (.call (.listen 4 5) (0 : ℤ)), .proc 0 (.call (.accept 4) (5 : ℤ)),
    .proc 0 (.call .fork (100 : ℤ))]

/-- The child reads the nonce 7, takes the phone's hello and enters its relay loop. -/
def sessionOpened : List Label :=
  [.proc 1 (.call (.read 5 4) (some [7, 0, 0, 0])),
    .proc 1 (.call (.write 5 [7, 0, 0, 0]) (4 : ℤ)), .proc 1 (.call (.socket .dgram) (6 : ℤ)),
    .proc 1 (.call (.bind 6 ⟨0, 55550⟩) (0 : ℤ)),
    .proc 1 (.call (.write 5 [254, 216, 0, 0]) (4 : ℤ)),
    .proc 1 (.arrive phone [7, 0, 0, 0]),
    .proc 1 (.call (.recvfrom 6 4) (some ([7, 0, 0, 0], phone))),
    .proc 1 (.call (.connect 6 phone) (0 : ℤ)), .proc 1 (.call (.log "udp recvform ip:") ()),
    .proc 1 .dispatch]

/-- The TUN device fails before the phone hangs up. -/
def tunFailed : List Label :=
  accepted ++ sessionOpened ++
    [.proc 1 (.relay (.fault .tun .readError)), .proc 1 (.relay .tcpClose),
      .proc 1 (.relay .tcpEvent), .tun [0x45]]

/-- A process whose TUN device has failed before the hangup takes no packet. -/
theorem deadTakeNothing_tunFailed :
    (∃ t, run step (start 0 2 ⟨0, ⟨0, 0⟩⟩) tunFailed = some t) ∧ DeadTakeNothing tunFailed :=
  ⟨⟨_, rfl⟩, deadTakeNothing_of_closedUnreadable
    (show Meets step (fun t a => t.closedUnreadable a) (start 0 2 ⟨0, ⟨0, 0⟩⟩) tunFailed
      by decide) rfl⟩

/-- The phone hangs up, and a packet for the next session is read by the old child. -/
def packetStolen : List Label :=
  accepted ++ sessionOpened ++
    [.proc 1 (.relay .tcpClose), .proc 1 (.relay .tcpEvent), .tun [0x45],
      .proc 1 (.relay (.read .tun [0x45]))]

/-- A process whose phone has hung up takes the next packet. -/
theorem not_deadTakeNothing_packetStolen :
    (∃ t, run step (start 0 2 ⟨0, ⟨0, 0⟩⟩) packetStolen = some t) ∧
      ¬DeadTakeNothing packetStolen := by
  refine ⟨⟨_, rfl⟩, fun h => ?_⟩
  exact h 1 (accepted ++ sessionOpened ++ [.proc 1 (.relay .tcpClose)])
    [.tun [0x45], .proc 1 (.relay (.read .tun [0x45]))] rfl [0x45] (by simp)

end Server

end HeptaVcn
