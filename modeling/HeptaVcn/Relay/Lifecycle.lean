import HeptaVcn.Relay.Forwarding

/-!
# How a relay ends, and how it does not

The error callback and the control-closed callback of both ends return without
asking the loop to break. A fault therefore leaves a relay half dead while the
control connection is open, and the closing of the control connection leaves it
running. Both are stated for every run, with the runs on which all is well.
-/

namespace HeptaVcn

open Machine

namespace EventLoop

variable {cb : Callbacks} {l l' : EventLoop} {tr : List Event}

/-- No callback that only forwards breaks the loop. -/
theorem loopbreak_step (hcb : cb.OnlyForward) {e : Event} (hstep : l.step cb e = some l') :
    l'.loopbreak = l.loopbreak := by
  obtain ⟨_, rfl⟩ := step_eq_some.mp hstep
  cases e <;> simp [after, hcb.recv, hcb.error, hcb.tcpError, forward]

/-- No run of a relay asks its loop to break. -/
theorem loopbreak_run (hcb : cb.OnlyForward) (hrun : run (step cb) l tr = some l') :
    l'.loopbreak = l.loopbreak :=
  invariant (I := fun t => t.loopbreak = l.loopbreak)
    (fun _ _ _ hI hstep => (loopbreak_step hcb hstep).trans hI) rfl hrun

/-- Only the end of the TCP connection closes it. -/
theorem tcpClosed_step (hcb : cb.OnlyForward) {e : Event} (hstep : l.step cb e = some l') :
    l'.tcpClosed = (l.tcpClosed || e = .tcpClose) := by
  obtain ⟨_, rfl⟩ := step_eq_some.mp hstep
  cases e <;> simp [after, hcb.recv, hcb.error, hcb.tcpError, forward]

/-! ## Faults -/

/-- Both bufferevents are enabled for reading and writing. -/
def FullyEnabled (l : EventLoop) : Prop :=
  ∀ d, (l.bev d).readEnabled = true ∧ (l.bev d).writeEnabled = true

/-- While the control connection is open, the relay works in both directions or
its loop has been told to exit. -/
def NotHalfDead (l : EventLoop) : Prop :=
  l.tcpClosed = false → l.FullyEnabled ∨ l.loopbreak = true

/-- The step is not a fault that comes while the control connection is open. -/
def NoFaultWhileOpen (l : EventLoop) : Event → Prop
  | .fault _ _ => l.tcpClosed = true
  | _ => True

instance (l : EventLoop) : ∀ e, Decidable (NoFaultWhileOpen l e)
  | .fault .. => inferInstanceAs (Decidable (l.tcpClosed = true))
  | .read .. | .readcb _ | .write .. | .tcpClose | .tunClose | .tcpEvent => isTrue trivial

/-- A modification that keeps what is enabled keeps it for either side. -/
theorem enabled_modify (l : EventLoop) (d d' : Side) {f : Bufferevent → Bufferevent}
    (hread : ∀ b, (f b).readEnabled = b.readEnabled)
    (hwrite : ∀ b, (f b).writeEnabled = b.writeEnabled) :
    ((l.modify d f).bev d').readEnabled = (l.bev d').readEnabled ∧
      ((l.modify d f).bev d').writeEnabled = (l.bev d').writeEnabled := by
  rcases d.eq_or_eq_other d' with rfl | rfl <;> simp [hread, hwrite]

/-- Only a fault changes which directions are enabled. -/
theorem fullyEnabled_step (hcb : cb.OnlyForward) {e : Event} (hfault : ∀ d f, e ≠ .fault d f)
    (hstep : l.step cb e = some l') (h : l.FullyEnabled) : l'.FullyEnabled := by
  obtain ⟨_, rfl⟩ := step_eq_some.mp hstep
  intro d
  cases e with
  | read d' packet => simpa [after, enabled_modify] using h d
  | readcb d' => simpa [after, hcb.recv, forward, enabled_modify] using h d
  | write d' bytes => simpa [after, enabled_modify] using h d
  | fault d' f => exact absurd rfl (hfault d' f)
  | tcpClose => simpa [after] using h d
  | tunClose => simpa [after] using h d
  | tcpEvent => simpa [after, hcb.tcpError] using h d

/-- A fault leaves some direction of some bufferevent disabled. -/
theorem not_fullyEnabled_fault (hcb : cb.OnlyForward) {d : Side} {f : Fault}
    (hstep : l.step cb (.fault d f) = some l') : ¬l'.FullyEnabled := by
  obtain ⟨_, rfl⟩ := step_eq_some.mp hstep
  intro h
  have hd := h d
  cases f <;> simp [after, hcb.error, disable] at hd

/-- A relay is never half dead in a run exactly when no fault of the run comes while
the control connection is open: the error callback repairs nothing. -/
theorem always_notHalfDead_iff (e : End) {udpFd tunFd : ℤ}
    (hrun : run (step e.callbacks) (e.eventLoop udpFd tunFd) tr = some l) :
    Always (step e.callbacks) NotHalfDead (e.eventLoop udpFd tunFd) tr ↔
      Meets (step e.callbacks) NoFaultWhileOpen (e.eventLoop udpFd tunFd) tr := by
  have hcb := e.callbacks_onlyForward
  refine always_iff_meets
    (I := fun l => l.loopbreak = false ∧ (l.tcpClosed = false → l.FullyEnabled))
    (fun l hI hopen => Or.inl (hI.2 hopen)) ?_ ?_ ?_ hrun
  · intro l ev l' hI hC hstep
    refine ⟨(loopbreak_step hcb hstep).trans hI.1, fun hopen => ?_⟩
    rw [tcpClosed_step hcb hstep, Bool.or_eq_false_iff] at hopen
    refine fullyEnabled_step hcb (fun d f hev => ?_) hstep (hI.2 hopen.1)
    subst hev
    have hclosed : l.tcpClosed = true := hC
    rw [hopen.1] at hclosed
    exact Bool.false_ne_true hclosed
  · intro l ev l' hI hC hstep hP
    obtain ⟨d, f, rfl⟩ : ∃ d f, ev = .fault d f := by
      cases ev <;> simp_all [NoFaultWhileOpen]
    have hopen : l.tcpClosed = false := by simpa [NoFaultWhileOpen] using hC
    have hopen' : l'.tcpClosed = false := by
      rw [tcpClosed_step hcb hstep, hopen]
      rfl
    rcases hP hopen' with h | h
    · exact not_fullyEnabled_fault hcb hstep h
    · rw [loopbreak_step hcb hstep, hI.1] at h
      exact Bool.false_ne_true h
  · refine ⟨by cases e <;> rfl, fun _ d => ?_⟩
    cases e <;> cases d <;> exact ⟨rfl, rfl⟩

/-- An empty datagram reaches the UDP socket of a fresh relay. -/
def emptyDatagram : List Event := [.fault .udp .readEof]

/-- An instance: an empty datagram ends the reading while the TUN stays open. -/
theorem always_notHalfDead_iff_emptyDatagram :
    Always (step End.client.callbacks) NotHalfDead (End.client.eventLoop 5 4) emptyDatagram ↔
      Meets (step End.client.callbacks) NoFaultWhileOpen (End.client.eventLoop 5 4) emptyDatagram :=
  always_notHalfDead_iff .client rfl

/-- One empty datagram stops either end from ever reading its UDP socket again. -/
theorem halfDead_emptyDatagram :
    ((∃ l, run (step End.client.callbacks) (End.client.eventLoop 5 4) emptyDatagram = some l) ∧
      ¬Always (step End.client.callbacks) NotHalfDead (End.client.eventLoop 5 4) emptyDatagram) ∧
    (∃ l, run (step End.server.callbacks) (End.server.eventLoop 6 3) emptyDatagram = some l) ∧
      ¬Always (step End.server.callbacks) NotHalfDead (End.server.eventLoop 6 3) emptyDatagram := by
  refine ⟨⟨⟨_, rfl⟩, fun h => ?_⟩, ⟨⟨_, rfl⟩, fun h => ?_⟩⟩ <;>
  · rcases h.2 _ rfl rfl with hfull | hbreak
    · exact absurd (hfull .udp).1 (by decide)
    · exact absurd hbreak (by decide)

/-! ## Closing the control connection -/

/-- The event loop forwards bytes: it hands input over or writes output out. -/
def Forwards : Event → Bool
  | .readcb _ | .write .. => true
  | _ => false

/-- After each run of the control-closed callback nothing is forwarded any more, and
at the end of the run the loop has been told to exit. -/
def StopsWhenClosed (tr : List Event) (l : EventLoop) : Prop :=
  ∀ tr₁ tr₂, tr = tr₁ ++ .tcpEvent :: tr₂ → l.loopbreak = true ∧ ∀ e ∈ tr₂, ¬Forwards e

/-- The client stops when its control connection is closed only in the runs in which
the control-closed callback does not run at all. -/
theorem stopsWhenClosed_iff {udpTunnelFd tunFd : ℤ}
    (hrun : run (step IpReflect.callbacks) (IpReflect.eventLoop udpTunnelFd tunFd) tr = some l) :
    StopsWhenClosed tr l ↔ .tcpEvent ∉ tr := by
  have hbreak : l.loopbreak = false := loopbreak_run IpReflect.callbacks_onlyForward hrun
  constructor
  · intro hstops hmem
    obtain ⟨tr₁, tr₂, htr⟩ := List.append_of_mem hmem
    have h := (hstops tr₁ tr₂ htr).1
    rw [hbreak] at h
    exact Bool.false_ne_true h
  · rintro hmem tr₁ tr₂ rfl
    simp at hmem

/-- The server closes the control connection, and one more packet comes through. -/
def packetAfterClose : List Event :=
  [.tcpClose, .tcpEvent, .read .udp [0x45], .readcb .udp, .write .tun [0x45]]

/-- An instance: a packet is read after the TCP connection is closed. -/
theorem stopsWhenClosed_iff_packetAfterClose :
    ∃ l, run (step IpReflect.callbacks) (IpReflect.eventLoop 5 4) packetAfterClose = some l ∧
      (StopsWhenClosed packetAfterClose l ↔ .tcpEvent ∉ packetAfterClose) :=
  ⟨_, rfl, stopsWhenClosed_iff rfl⟩

/-- After its TCP connection is closed the client goes on with its loop. -/
theorem not_stopsWhenClosed_packetAfterClose :
    ∃ l, run (step IpReflect.callbacks) (IpReflect.eventLoop 5 4) packetAfterClose = some l ∧
      l.returns = false ∧ ¬StopsWhenClosed packetAfterClose l := by
  refine ⟨_, rfl, by decide, fun h => ?_⟩
  obtain ⟨hbreak, _⟩ := h [.tcpClose] [.read .udp [0x45], .readcb .udp, .write .tun [0x45]] rfl
  exact absurd hbreak (by decide)

/-- Once the control-closed callback has run, the loop returns only when both
directions are dead: nothing can be read, handed over or written any more. -/
theorem returns_iff_of_closed (hbreak : l.loopbreak = false) (hclosed : l.evTcp = false) :
    l.returns = true ↔ ∀ d, (l.bev d).readEnabled = false ∧ (l.bev d).readcbPending = false ∧
      ((l.bev d).writeEnabled = false ∨ (l.bev d).output = []) := by
  constructor
  · intro h d
    cases d <;> simp_all [returns, pending]
  · intro h
    simp [returns, pending, hbreak, hclosed, h .tun, h .udp]

end EventLoop

end HeptaVcn
