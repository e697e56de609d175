import HeptaVcn.Handshake.Injection
import HeptaVcn.Handshake.ProcessTree
import HeptaVcn.Machine.Copies
import HeptaVcn.Relay.Integrity

/-!
# What the processes of the server do with the packets

Every process reads from the one TUN device and from a UDP socket of its own. Seen
alone it is one relay, whoever else runs: it enters the event loop of `process` once,
with empty buffers. So a packet that was routed to the TUN device is read by exactly
one process or still waits, and whoever read it keeps it until it is written.
-/

namespace HeptaVcn

open Machine

/-! ## The loop that a process enters -/

/-- A process may enter an event loop once, and it is that of `process`; the state says
whether it has. -/
def relaySession : Program.Contract Sys Bool where
  demand entered
    | .eventBaseDispatch l =>
      entered = false ∧ ∃ udpSockfd tunFd, l = TunnelServer.eventLoop udpSockfd tunFd
    | _ => True
  admits _ _ _ := True
  after entered
    | .eventBaseDispatch _, _ => true
    | .fork, r => if r = (0 : ℤ) then false else entered
    | _, _ => entered

/-- The contract of a relay takes any sequential call. -/
theorem relaySession_sequential : SequentialContract relaySession := by
  intro entered op hop
  cases op <;> first | exact ⟨trivial, fun _ => rfl⟩ | exact hop.elim

section Contracts

variable {σ : Type} {c : Program.Contract Sys σ} {rounds : ℕ}
  {garbage : TunnelServer.Uninitialized} {last : Option ℤ} {p : Program Sys Unit}

/-- A contract of the forked sessions is one of the accept loop, as soon as it does not
mind accepting and forking. -/
theorem acceptLoop_wp_of_process (hc : SequentialContract c)
    (haccept : ∀ s fd, c.demand s (.accept fd)) (hfork : ∀ s, c.demand s .fork)
    (hprocess : ∀ s netFd tunFd (post : σ → Unit → Prop), (∀ s', post s' ()) →
      (TunnelServer.process rounds garbage netFd tunFd).wp c post (c.after s .fork (0 : ℤ)))
    (sockFd tunFd : ℤ) (connections : ℕ) (s : σ) :
    (TunnelServer.acceptLoop rounds garbage sockFd tunFd connections).wp c (fun _ _ => True) s := by
  induction connections generalizing s with
  | zero => exact wp_quiet_call hc.quiet fun r => nomatch r
  | succ connections ih =>
    rw [acceptLoop_succ]
    refine ⟨haccept s sockFd, fun netFd _ => ?_⟩
    change Program.wp c (if netFd < (0 : ℤ) then _ else _) _ _
    split
    · exact wp_perrorExit hc.quiet _ _ _
    · refine ⟨hfork _, fun pid _ => ?_⟩
      change Program.wp c (if pid = (0 : ℤ) then _ else _) _ _
      split
      case isTrue hpid =>
        subst hpid
        rw [Program.wp_bind]
        exact hprocess _ netFd tunFd _ ih
      case isFalse => exact ih _

/-- Such a contract is one of the whole server. -/
theorem Original.wp_of_process (hc : SequentialContract c)
    (haccept : ∀ s fd, c.demand s (.accept fd)) (hfork : ∀ s, c.demand s .fork)
    (hprocess : ∀ s netFd tunFd (post : σ → Unit → Prop), (∀ s', post s' ()) →
      (TunnelServer.process rounds garbage netFd tunFd).wp c post (c.after s .fork (0 : ℤ)))
    (h : Original rounds garbage last p) (s : σ) : p.wp c (fun _ _ => True) s := by
  have hloop := acceptLoop_wp_of_process hc haccept hfork hprocess
  induction h generalizing s with
  | loop sockFd tunFd connections => exact hloop sockFd tunFd connections s
  | sequential hop _ ih => exact hc.wp_call (fun r => ih r s) hop
  | forking netFd sockFd tunFd connections _ hnext =>
    refine ⟨hfork s, fun pid _ => ?_⟩
    rw [hnext]
    split
    case isTrue hpid =>
      subst hpid
      rw [Program.wp_bind]
      exact hprocess _ netFd tunFd _ (hloop sockFd tunFd connections)
    case isFalse => exact hloop sockFd tunFd connections _

end Contracts

/-- The server enters no event loop but that of `process`, and no process enters two. -/
theorem main_wp_relaySession (rounds connections : ℕ) (garbage : TunnelServer.Uninitialized) :
    (TunnelServer.main rounds connections garbage).wp relaySession (fun _ _ => True) false := by
  refine (original_main rounds connections garbage none).wp_of_process relaySession_sequential
    (fun _ _ => trivial) (fun _ => trivial) (fun s netFd tunFd post hpost => ?_) false
  change Program.wp relaySession _ post false
  exact process_wp_of_dispatch relaySession_sequential rounds garbage netFd tunFd
    fun udpSockfd => ⟨⟨rfl, udpSockfd, tunFd, rfl⟩, fun _ _ => hpost true⟩

/-! ## A process by itself -/

/-- What an action is for the event loop of the process. -/
def Action.event? : Action → Option Event
  | .relay e => some e
  | .receive d => some d.event
  | _ => none

namespace ServerProcess

/-- What the event loop of a process sees during a run. -/
def relayEvents : List Action → List Event := List.filterMap Action.event?

/-- Other actions are no event of the loop. -/
theorem relayEvents_of_none {a : Action} (h : a.event? = none) (tr : List Action) :
    relayEvents (tr ++ [a]) = relayEvents tr := by
  simp [relayEvents, h]

/-- An event of the loop comes after those before it. -/
theorem relayEvents_of_some {a : Action} {e : Event} (h : a.event? = some e) (tr : List Action) :
    relayEvents (tr ++ [a]) = relayEvents tr ++ [e] := by
  simp [relayEvents, h]

end ServerProcess

/-- The events are a run of the one loop that the thread has entered, if any. -/
def Thread.Relayed (events : List Event) (thread : Thread Unit) : Prop :=
  ∃ udpSockfd tunFd l,
    run (EventLoop.step TunnelServer.callbacks) (TunnelServer.eventLoop udpSockfd tunFd) events =
      some l ∧
    match thread with
    | .running p => ∃ entered, p.wp relaySession (fun _ _ => True) entered ∧
        (entered = false → events = [])
    | .dispatching l' next => l' = l ∧ ∀ r, (next r).wp relaySession (fun _ _ => True) true

/-- What the loop has read from the UDP socket, then what waits there, has arrived in
this order, and nothing twice. -/
def Kernel.Received (events : List Event) (k : Kernel) : Prop :=
  (EventLoop.packetsRead .udp events ++ k.queue.map (·.payload)).Sublist
    (k.arrivals.map (·.payload))

section Threads

variable {events : List Event} {k : Kernel}

/-- A program that has not begun to relay. -/
theorem relayed_running {p : Program Sys Unit} (hp : p.wp relaySession (fun _ _ => True) false) :
    Thread.Relayed [] (.running p) :=
  ⟨0, 0, _, rfl, false, hp, fun _ => rfl⟩

/-- A call of the thread, but for the fork of a child, leaves its loop as it was. -/
theorem relayed_call {op : Syscall} {next : op.Reply → Program Sys Unit}
    (h : Thread.Relayed events (.running (.call op next))) {r : op.Reply}
    (hfork : ∀ pid, Action.call op r = .call .fork pid → pid ≠ (0 : ℤ)) :
    Thread.Relayed events (.running (next r)) := by
  obtain ⟨udpSockfd, tunFd, l, hrun, entered, ⟨_, hnext⟩, hempty⟩ := h
  refine ⟨udpSockfd, tunFd, l, hrun, _, hnext r trivial, fun hentered => hempty ?_⟩
  cases op with
  | fork =>
    change (if r = (0 : ℤ) then false else entered) = false at hentered
    rwa [if_neg (hfork r rfl)] at hentered
  | eventBaseDispatch l => cases hentered
  | _ => exact hentered

/-- The child of a `fork` has not begun to relay. -/
theorem relayed_child {next : ℤ → Program Sys Unit}
    (h : Thread.Relayed events (.running (.call .fork next))) :
    Thread.Relayed [] (.running (next (0 : ℤ))) := by
  obtain ⟨_, _, _, _, entered, ⟨_, hnext⟩, _⟩ := h
  exact relayed_running (hnext (0 : ℤ) trivial)

/-- A loop is entered before any event. -/
theorem relayed_dispatch {l : EventLoop} {next : ℤ → Program Sys Unit}
    (h : Thread.Relayed events (.running (.call (.eventBaseDispatch l) next))) :
    Thread.Relayed events (.dispatching l next) := by
  obtain ⟨_, _, _, _, entered, ⟨⟨hentered, udpSockfd, tunFd, rfl⟩, hnext⟩, hempty⟩ := h
  obtain rfl := hempty hentered
  exact ⟨udpSockfd, tunFd, _, rfl, rfl, fun r => hnext r trivial⟩

/-- An event of the loop goes on with its run. -/
theorem relayed_event {l l' : EventLoop} {next : ℤ → Program Sys Unit} {e : Event}
    (h : Thread.Relayed events (.dispatching l next))
    (hstep : l.step TunnelServer.callbacks e = some l') :
    Thread.Relayed (events ++ [e]) (.dispatching l' next) := by
  obtain ⟨udpSockfd, tunFd, _, hrun, rfl, hnext⟩ := h
  exact ⟨udpSockfd, tunFd, l', run_concat hrun hstep, rfl, hnext⟩

/-- Leaving the loop ends its run. -/
theorem relayed_leave {l : EventLoop} {next : ℤ → Program Sys Unit} (code : ℤ)
    (h : Thread.Relayed events (.dispatching l next)) :
    Thread.Relayed events (.running (next code)) := by
  obtain ⟨udpSockfd, tunFd, _, hrun, rfl, hnext⟩ := h
  exact ⟨udpSockfd, tunFd, _, hrun, true, hnext code, fun hentered => nomatch hentered⟩

/-- What an event reads comes after what was read before it. -/
theorem packetsRead_append (d : Side) (tr : List Event) (e : Event) :
    EventLoop.packetsRead d (tr ++ [e]) =
      EventLoop.packetsRead d tr ++ EventLoop.packetsRead d [e] :=
  List.filterMap_append

/-- A call takes at most the head of the queue. -/
theorem received_call (h : k.Received events) (op : Syscall) (r : op.Reply) :
    (k.after op r).Received events := by
  rw [Kernel.Received, Kernel.arrivals_after]
  refine List.Sublist.trans (List.Sublist.append_left (List.Sublist.map _ ?_) _) h
  cases op with
  | read fd len => cases r <;> exact List.Sublist.refl _
  | recvfrom fd len =>
    cases r with
    | none => exact List.Sublist.refl _
    | some reply => exact List.tail_sublist _
  | _ => exact List.Sublist.refl _

/-- The loop reads the head of the queue, or nothing of an empty datagram. -/
theorem received_receive (h : k.Received events) {d : Datagram}
    (hhead : k.queue.head? = some d) :
    Kernel.Received (events ++ [d.event]) { k with queue := k.queue.tail } := by
  obtain ⟨rest, hqueue⟩ := List.head?_eq_some_iff.mp hhead
  rw [Kernel.Received, hqueue, List.map_cons] at h
  rw [Kernel.Received, packetsRead_append, hqueue, List.tail_cons, Datagram.event]
  split
  · rw [show EventLoop.packetsRead .udp [.fault .udp .readEof] = [] from rfl, List.append_nil]
    exact (List.Sublist.append_left (List.sublist_cons_self _ _) _).trans h
  · rw [show EventLoop.packetsRead .udp [.read .udp d.payload] = [d.payload] from rfl]
    simpa using h

/-- Another event of the loop takes no datagram. -/
theorem received_relay (h : k.Received events) {e : Event} (htakes : e.takesDatagram = false) :
    k.Received (events ++ [e]) := by
  have hread : EventLoop.packetsRead .udp [e] = [] := by
    rcases e with ⟨_ | _, _⟩ | _ | _ | _ | _ | _ | _ <;> first | rfl | cases htakes
  rw [Kernel.Received, packetsRead_append, hread, List.append_nil]
  exact h

/-- A datagram that arrives comes after those that were received. -/
theorem received_arrive (h : k.Received events) (src : SockAddrIn) (payload : List UInt8) :
    (k.arrive src payload).Received events := by
  simp only [Kernel.Received, Kernel.arrive, List.map_append]
  split
  · rw [List.map_append, ← List.append_assoc]
    exact h.append (List.Sublist.refl _)
  · exact h.trans (List.sublist_append_left _ _)

end Threads

/-- What is known of a process after its actions `tr`. -/
@[mk_iff relays_iff]
structure ServerProcess.Relays (tr : List Action) (w : ServerProcess) : Prop where
  thread : w.thread.Relayed (relayEvents tr)
  kernel : w.kernel.Received (relayEvents tr)

/-- A process goes on by itself, unless it is a child that starts. -/
theorem ServerProcess.Relays.step {tr : List Action} {w w' : ServerProcess} {a : Action}
    (h : Relays tr w) (hfork : ∀ pid, a = .call .fork pid → pid ≠ (0 : ℤ))
    (hstep : w.step a = some w') : Relays (tr ++ [a]) w' := by
  obtain ⟨hthread, hkernel⟩ := h
  cases a with
  | call op r =>
    obtain ⟨next, heq, _, rfl⟩ := step_call.mp hstep
    rw [heq] at hthread
    rw [relays_iff, relayEvents_of_none rfl]
    exact ⟨relayed_call hthread hfork, received_call hkernel op r⟩
  | dispatch =>
    obtain ⟨l, next, heq, rfl⟩ := step_dispatch.mp hstep
    rw [heq] at hthread
    rw [relays_iff, relayEvents_of_none rfl]
    exact ⟨relayed_dispatch hthread, hkernel⟩
  | receive d =>
    obtain ⟨l, next, l', heq, hhead, hl, rfl⟩ := step_receive.mp hstep
    rw [heq] at hthread
    rw [relays_iff, relayEvents_of_some rfl]
    exact ⟨relayed_event hthread hl, received_receive hkernel hhead⟩
  | relay e =>
    obtain ⟨l, next, l', heq, htakes, hl, rfl⟩ := step_relay.mp hstep
    rw [heq] at hthread
    rw [relays_iff, relayEvents_of_some rfl]
    exact ⟨relayed_event hthread hl, received_relay hkernel htakes⟩
  | leave code =>
    obtain ⟨l, next, heq, _, rfl⟩ := step_leave.mp hstep
    rw [heq] at hthread
    rw [relays_iff, relayEvents_of_none rfl]
    exact ⟨relayed_leave code hthread, hkernel⟩
  | arrive src payload =>
    obtain ⟨_, rfl⟩ := step_arrive.mp hstep
    rw [relays_iff, relayEvents_of_none rfl]
    exact ⟨hthread, received_arrive hkernel src payload⟩

/-! ## All processes -/

namespace Server

/-- What process `i` does during a run. -/
def actionsOf (i : ℕ) : List Label → List Action :=
  List.filterMap fun | .proc j a => if j = i then some a else none | .tun _ => none

/-- What the event loop of process `i` sees during a run. -/
def eventsOf (i : ℕ) (tr : List Label) : List Event :=
  ServerProcess.relayEvents (actionsOf i tr)

/-- The packets that were routed to the TUN device. -/
def packetsRouted : List Label → List (List UInt8) :=
  List.filterMap fun | .tun packet => some packet | .proc .. => none

/-- The packets that were read from the TUN device, each with the process that read it. -/
def packetsTaken : List Label → List (ℕ × List UInt8) :=
  List.filterMap fun | .proc i (.relay (.read .tun packet)) => some (i, packet) | _ => none

/-- Where the packets are after the labels `tr`. -/
structure Carried (tr : List Label) (t : Server) : Prop where
  /-- What was routed to the TUN device has been read, in this order, or still waits. -/
  routed : packetsRouted tr = (packetsTaken tr).map Prod.snd ++ t.tunQueue
  /-- What was read has been read by one process. -/
  shared : ((List.range t.processes.length).flatMap fun i =>
    EventLoop.packetsRead .tun (eventsOf i tr)).Perm ((packetsTaken tr).map Prod.snd)
  /-- A process reads from its UDP socket what has arrived there. -/
  received : ∀ (i : ℕ) w, t.processes[i]? = some w →
    (EventLoop.packetsRead .udp (eventsOf i tr)).Sublist (w.kernel.arrivals.map (·.payload))
  /-- What a process writes to one side begins what it has read from the other. -/
  written : ∀ i d, (EventLoop.writes d.other (eventsOf i tr)).flatten <+:
    (EventLoop.packetsRead d (eventsOf i tr)).flatten
  /-- The rest of it is in the buffers of its loop. -/
  kept : ∀ (i : ℕ) l next k, t.processes[i]? = some ⟨.dispatching l next, k⟩ →
    ∀ d, (EventLoop.packetsRead d (eventsOf i tr)).flatten =
      (EventLoop.writes d.other (eventsOf i tr)).flatten ++ (l.bev d.other).output ++
        (l.bev d).input

/-- What is known of all processes after the labels `tr`. -/
structure Traced (tr : List Label) (t : Server) : Prop where
  relays : ∀ (i : ℕ) w, t.processes[i]? = some w → w.Relays (actionsOf i tr)
  idle : ∀ i, t.processes.length ≤ i → actionsOf i tr = []
  routed : packetsRouted tr = (packetsTaken tr).map Prod.snd ++ t.tunQueue

variable {t u : Server} {tr : List Label}

/-- An action of a process comes after its earlier ones. -/
theorem actionsOf_concat_self (i : ℕ) (tr : List Label) (a : Action) :
    actionsOf i (tr ++ [.proc i a]) = actionsOf i tr ++ [a] := by
  simp [actionsOf]

/-- An action of another process is none of its actions. -/
theorem actionsOf_concat_of_ne {i j : ℕ} (hij : i ≠ j) (tr : List Label) (a : Action) :
    actionsOf i (tr ++ [.proc j a]) = actionsOf i tr := by
  simp [actionsOf, Ne.symm hij]

/-- What a process has read is its part of what was read. -/
theorem partOf_packetsTaken (i : ℕ) (tr : List Label) :
    partOf i (packetsTaken tr) = EventLoop.packetsRead .tun (eventsOf i tr) := by
  simp only [partOf, packetsTaken, EventLoop.packetsRead, eventsOf, ServerProcess.relayEvents,
    actionsOf, List.filterMap_filterMap]
  refine List.filterMap_congr fun label _ => ?_
  cases label with
  | tun packet => rfl
  | proc j a =>
    by_cases hj : j = i
    case neg =>
      rcases a with _ | _ | _ | ⟨⟨_ | _, _⟩ | _ | _ | _ | _ | _ | _⟩ | _ | _ <;> simp [hj]
    case pos =>
      subst hj
      cases a with
      | receive d =>
        simp only [↓reduceIte, Option.bind_some, Action.event?, Datagram.event]
        by_cases hpayload : d.payload = [] <;> simp [hpayload]
      | relay e =>
        simp only [↓reduceIte, Option.bind_some, Action.event?]
        rcases e with ⟨_ | _, _⟩ | _ | _ | _ | _ | _ | _ <;> simp
      | call | dispatch | leave | arrive => simp [Action.event?]

/-- Only reading the TUN device takes a packet. -/
theorem packetsTaken_concat_of_ne {i : ℕ} {a : Action}
    (hread : ∀ packet, a ≠ .relay (.read .tun packet)) (tr : List Label) :
    packetsTaken (tr ++ [.proc i a]) = packetsTaken tr := by
  rw [packetsTaken, List.filterMap_append, List.filterMap_cons]
  split
  · simp
  case h_2 x hx =>
    split at hx
    case h_1 heq =>
      obtain ⟨rfl, rfl⟩ := Label.proc.inj heq
      exact absurd rfl (hread _)
    case h_2 => cases hx

/-- A read takes the first packet of the TUN device, and nothing else takes one. -/
theorem tunAfter_cases {a : Action} {tunQueue : List (List UInt8)}
    (hafter : t.tunAfter a = some tunQueue) :
    (∃ packet, a = .relay (.read .tun packet) ∧ t.tunQueue = packet :: tunQueue) ∨
      (tunQueue = t.tunQueue ∧ ∀ packet, a ≠ .relay (.read .tun packet)) := by
  unfold tunAfter at hafter
  split at hafter
  case h_1 packet =>
    split at hafter
    case isTrue hhead =>
      obtain ⟨rest, hqueue⟩ := List.head?_eq_some_iff.mp hhead
      obtain rfl := Option.some.inj hafter
      exact Or.inl ⟨packet, rfl, by rw [hqueue, List.tail_cons]⟩
    case isFalse => cases hafter
  case h_2 hread =>
    obtain rfl := Option.some.inj hafter
    exact Or.inr ⟨rfl, hread⟩

/-- A forked child has not begun to relay. -/
theorem relays_forked {w : ServerProcess} {a : Action} {acts : List Action}
    {children : List ServerProcess} (h : w.Relays acts) (hforked : forked w a = some children) :
    ∀ child ∈ children, child.Relays [] := by
  intro child hchild
  unfold forked at hforked
  split at hforked
  case h_1 r =>
    split at hforked
    · cases hforked
    · split at hforked
      · obtain ⟨child', hstep, rfl⟩ := Option.map_eq_some_iff.mp hforked
        obtain rfl := List.mem_singleton.mp hchild
        obtain ⟨next, hthread, _, rfl⟩ := ServerProcess.step_call.mp hstep
        have hrelayed := h.thread
        rw [hthread] at hrelayed
        exact ⟨relayed_child hrelayed, List.Sublist.refl _⟩
      · cases hforked
        cases hchild
  case h_2 =>
    cases hforked
    cases hchild

/-- Every label of the server leaves its mark on the process that it is about. -/
theorem traced_step {a : Label} (h : Traced tr t) (hstep : t.step a = some u) :
    Traced (tr ++ [a]) u := by
  cases a with
  | tun packet =>
    simp only [step, Option.ite_none_right_eq_some, Option.some.injEq] at hstep
    obtain ⟨_, rfl⟩ := hstep
    have hactions (i : ℕ) : actionsOf i (tr ++ [.tun packet]) = actionsOf i tr := by
      simp [actionsOf]
    refine ⟨fun i w hw => ?_, fun i hi => ?_, ?_⟩
    · rw [hactions]
      exact h.relays i w hw
    · rw [hactions]
      exact h.idle i hi
    · have hrouted := h.routed
      simp_all [packetsRouted, packetsTaken]
  | proc j a =>
    obtain ⟨w, tunQueue, children, w', hw, hafter, hforked, hw', rfl⟩ := step_proc.mp hstep
    have hj := (List.getElem?_eq_some_iff.mp hw).1
    have hrelays := h.relays j w hw
    refine ⟨fun i v hv => ?_, fun i hi => ?_, ?_⟩
    · rw [List.getElem?_append] at hv
      split at hv
      case isTrue =>
        rcases getElem?_set_cases hv with ⟨rfl, rfl⟩ | ⟨hi, hv⟩
        · rw [actionsOf_concat_self]
          exact hrelays.step (fork_ne_zero hforked) hw'
        · rw [actionsOf_concat_of_ne hi]
          exact h.relays i v hv
      case isFalse hi =>
        rw [List.length_set] at hi
        rw [actionsOf_concat_of_ne (by omega), h.idle i (by omega)]
        exact relays_forked hrelays hforked v (List.mem_of_getElem? hv)
    · rw [List.length_append, List.length_set] at hi
      rw [actionsOf_concat_of_ne (by omega), h.idle i (by omega)]
    · have hrouted := h.routed
      rcases tunAfter_cases hafter with ⟨packet, rfl, hqueue⟩ | ⟨rfl, hread⟩
      · simp_all [packetsRouted, packetsTaken]
      · rw [packetsTaken_concat_of_ne hread, ← hrouted]
        simp [packetsRouted]

/-- Before the first call nothing has been read or written. -/
theorem traced_start (rounds connections : ℕ) (garbage : TunnelServer.Uninitialized) :
    Traced [] (start rounds connections garbage) where
  relays i w hw := by
    obtain rfl := List.mem_singleton.mp (List.mem_of_getElem? hw)
    exact ⟨relayed_running (main_wp_relaySession rounds connections garbage),
      List.Sublist.refl _⟩
  idle _ _ := rfl
  routed := rfl

/-- Whoever reads it, a packet that was routed to the TUN device is read once, in its
turn, and is kept by the process that read it until that writes it to its UDP socket;
what a process writes to the TUN device has arrived at that socket. Packets are read and output
buffers written whole: they fit the 4096 bytes that libevent reads and the 16384 that it writes
at once. -/
theorem carried_of_run {rounds connections : ℕ} {garbage : TunnelServer.Uninitialized}
    (hrun : run step (start rounds connections garbage) tr = some t) : Carried tr t := by
  have htraced := history (I := Traced) (fun _ _ _ _ => traced_step)
    (traced_start rounds connections garbage) hrun
  have hloop (i : ℕ) : ∃ udpSockfd tunFd l,
      run (EventLoop.step TunnelServer.callbacks) (TunnelServer.eventLoop udpSockfd tunFd)
        (eventsOf i tr) = some l := by
    cases hw : t.processes[i]? with
    | none =>
      rw [eventsOf, htraced.idle i (List.getElem?_eq_none_iff.mp hw)]
      exact ⟨0, 0, _, rfl⟩
    | some w =>
      obtain ⟨udpSockfd, tunFd, l, hl, _⟩ := (htraced.relays i w hw).thread
      exact ⟨udpSockfd, tunFd, l, hl⟩
  constructor
  case routed => exact htraced.routed
  case shared =>
    simp only [← partOf_packetsTaken]
    refine flatMap_partOf_perm List.nodup_range fun x hx => List.mem_range.mpr ?_
    by_contra hidle
    have hmem := mem_partOf.mpr hx
    rw [partOf_packetsTaken, eventsOf, htraced.idle x.1 (Nat.le_of_not_lt hidle)] at hmem
    cases hmem
  case received =>
    intro i w hw
    exact (List.sublist_append_left _ _).trans (htraced.relays i w hw).kernel
  case written =>
    intro i d
    obtain ⟨udpSockfd, tunFd, l, hl⟩ := hloop i
    rw [EventLoop.conserved_run (e := .server) hl d, List.append_assoc]
    exact List.prefix_append _ _
  case kept =>
    intro i l next k hw d
    obtain ⟨udpSockfd, tunFd, _, hl, rfl, _⟩ := (htraced.relays i _ hw).thread
    exact EventLoop.conserved_run (e := .server) hl d

open Handshake (phone)

/-- One of two packets for the phone is relayed, and one of the phone is on its way. -/
def bothWays : List Label :=
  accepted ++ sessionOpened ++
    [.tun [0x45], .tun [0x46], .proc 1 (.relay (.read .tun [0x45])),
      .proc 1 (.relay (.readcb .tun)), .proc 1 (.arrive phone [0x47]),
      .proc 1 (.relay (.write .udp [0x45])), .proc 1 (.receive ⟨1, phone, [0x47]⟩)]

/-- A packet is on its way in either direction. -/
theorem carried_bothWays :
    ∃ t, run step (start 0 2 ⟨0, ⟨0, 0⟩⟩) bothWays = some t ∧ Carried bothWays t := by
  have hrun : ∃ t, run step (start 0 2 ⟨0, ⟨0, 0⟩⟩) bothWays = some t := ⟨_, rfl⟩
  obtain ⟨t, hrun⟩ := hrun
  exact ⟨t, hrun, carried_of_run hrun⟩

end Server

end HeptaVcn
