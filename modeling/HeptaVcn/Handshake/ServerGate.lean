import HeptaVcn.Handshake.Gates

/-!
# The gate of a server process

The contract of `process` is carried along the steps of a process and of the kernel
under it: as long as the calls the gate depends on go well, a process in its relay
loop has been greeted with the nonce and is connected to whoever greeted it.
-/

namespace HeptaVcn

open Machine

/-- What the server's gate sees of a kernel. -/
def Kernel.view (k : Kernel) : ServerView := ⟨k.nonce, k.hello.map (·.src), k.peer⟩

/-- A thread satisfies a contract: its program does, or what follows its event loop. -/
def Thread.Satisfies {σ α : Type} (c : Program.Contract Sys σ) (s : σ) : Thread α → Prop
  | .running p => p.wp c (fun _ _ => True) s
  | .dispatching _ next => ∀ r, (next r).wp c (fun _ _ => True) s

/-- The gate sees of a call what the kernel records of it. -/
theorem Kernel.view_after {k : Kernel} {op : Syscall} {r : op.Reply} (h : k.admits op r) :
    (k.after op r).view = serverGate.after k.view op r := by
  cases op with
  | read fd len =>
    cases r with
    | none => rfl
    | some bytes => cases hread : k.tcpRead <;> simp [after, view, nonce, serverGate, hread]
  | recvfrom fd len =>
    cases r with
    | none => rfl
    | some reply =>
      obtain ⟨bytes, src⟩ := reply
      cases hqueue : k.queue with
      | nil => simp [admits, hqueue] at h
      | cons d rest =>
        have hsrc : src = d.src := by simp_all [admits]
        cases hhello : k.hello <;> simp [after, view, nonce, serverGate, hqueue, hhello, hsrc]
  | _ => rfl

/-- The calls of a server process on which its gate depends go well: `recvfrom` takes
a datagram that is exactly the nonce, and `connect` does not fail. -/
def ServerProcess.helloIsNonce (w : ServerProcess) : Action → Bool
  | .call (.recvfrom ..) r =>
    r.isSome && w.kernel.nonce.isSome &&
      w.kernel.queue.head?.map (·.payload) = w.kernel.nonce.map intBytes
  | .call (.connect ..) r => (0 : ℤ) ≤ r
  | _ => true

/-- The gate of a server process: its program obeys the contract, the hello is the
nonce, and in the relay loop its source is the peer. -/
structure ServerProcess.Gated (w : ServerProcess) : Prop where
  satisfies : w.thread.Satisfies serverGate w.kernel.view
  hello : ∀ h, w.kernel.hello = some h → some h.payload = w.kernel.nonce.map intBytes
  relay : w.thread.isDispatching → ∃ h, w.kernel.hello = some h ∧ w.kernel.peer = some h.src

/-- The first integer read stays the nonce. -/
theorem Kernel.nonce_after {k : Kernel} {op : Syscall} {r : op.Reply} {n : CInt}
    (h : k.nonce = some n) : (k.after op r).nonce = some n := by
  cases op with
  | read fd len =>
    cases r with
    | none => exact h
    | some bytes => cases hread : k.tcpRead <;> simp_all [after, nonce]
  | recvfrom fd len => cases r <;> exact h
  | _ => exact h

/-- Only `recvfrom` sets the hello, to the first datagram of the queue. -/
theorem Kernel.hello_after {k : Kernel} {op : Syscall} {r : op.Reply} {h : Datagram}
    (hafter : (k.after op r).hello = some h) :
    k.hello = some h ∨ (k.queue.head? = some h ∧ ∃ fd len, op = .recvfrom fd len) := by
  cases op with
  | read fd len => cases r <;> exact Or.inl hafter
  | recvfrom fd len =>
    cases r with
    | none => exact Or.inl hafter
    | some reply => cases hhello : k.hello <;> simp_all [after]
  | _ => exact Or.inl hafter

namespace ServerProcess

variable {w w' : ServerProcess}

/-- A hello that goes well is the first datagram in the queue, and it holds the nonce. -/
theorem helloIsNonce_recvfrom {fd : ℤ} {len : ℕ} {r : Option (List UInt8 × SockAddrIn)}
    (h : w.helloIsNonce (.call (.recvfrom fd len) r)) : ∃ reply n d, r = some reply ∧
      w.kernel.nonce = some n ∧ w.kernel.queue.head? = some d ∧ d.payload = intBytes n := by
  simp only [helloIsNonce, Bool.and_eq_true, decide_eq_true_eq] at h
  obtain ⟨⟨hsome, hnonce⟩, hhead⟩ := h
  obtain ⟨reply, rfl⟩ := Option.isSome_iff_exists.mp hsome
  obtain ⟨n, hn⟩ := Option.isSome_iff_exists.mp hnonce
  obtain ⟨d, hd, hpayload⟩ : ∃ d, w.kernel.queue.head? = some d ∧ d.payload = intBytes n := by
    simpa [hn] using hhead
  exact ⟨reply, n, d, rfl, hn, hd, hpayload⟩

/-- Calls that go well are calls the gate admits. -/
theorem serverGate_admits {op : Syscall} {r : op.Reply} (hC : w.helloIsNonce (.call op r))
    (hdemand : serverGate.demand w.kernel.view op) (hadmits : w.kernel.admits op r) :
    serverGate.admits w.kernel.view op r := by
  cases op with
  | recvfrom fd len =>
    obtain ⟨⟨bytes, src⟩, n, d, rfl, hn, hd, hpayload⟩ := helloIsNonce_recvfrom hC
    obtain ⟨_, rfl⟩ := hdemand
    have hbytes : bytes = (intBytes n).take 4 ∧ src = d.src := by
      simpa [Kernel.admits, hd, hpayload] using hadmits
    exact ⟨n, src, hn, by rw [hbytes.1]; rfl⟩
  | connect fd addr =>
    have hnonneg : (0 : ℤ) ≤ r := by simpa [helloIsNonce] using hC
    exact hnonneg
  | _ => trivial

/-- Calls that go well keep the gate. -/
theorem gated_call {op : Syscall} {r : op.Reply} (hgated : w.Gated)
    (hC : w.helloIsNonce (.call op r)) (hstep : w.step (.call op r) = some w') : w'.Gated := by
  obtain ⟨next, hthread, hadmits, rfl⟩ := step_call.mp hstep
  have hwp := hgated.satisfies
  rw [hthread] at hwp
  obtain ⟨hdemand, hnext⟩ := hwp
  refine ⟨?_, fun h hafter => ?_, fun hrelay => Bool.noConfusion hrelay⟩
  · have hadmits' := serverGate_admits hC hdemand hadmits
    simpa only [Thread.Satisfies, Kernel.view_after hadmits] using hnext r hadmits'
  · rcases Kernel.hello_after hafter with hhello | ⟨hhead, fd, len, rfl⟩
    · have hpayload := hgated.hello h hhello
      obtain ⟨n, hn, _⟩ := Option.map_eq_some_iff.mp hpayload.symm
      rwa [Kernel.nonce_after hn, ← hn]
    · obtain ⟨_, n, d, _, hn, hd, hpayload⟩ := helloIsNonce_recvfrom hC
      obtain rfl : h = d := Option.some.inj (hhead.symm.trans hd)
      rw [Kernel.nonce_after hn, hpayload]
      rfl

/-- The gate is kept by every step of a process whose calls go well. -/
theorem gated_step {a : Action} (hgated : w.Gated) (hC : w.helloIsNonce a)
    (hstep : w.step a = some w') : w'.Gated := by
  cases a with
  | call op r => exact gated_call hgated hC hstep
  | dispatch =>
    obtain ⟨l, next, hthread, rfl⟩ := step_dispatch.mp hstep
    have hwp := hgated.satisfies
    rw [hthread] at hwp
    obtain ⟨⟨⟨addr, hgreeted, hpeer⟩, _⟩, hnext⟩ := hwp
    obtain ⟨h, hhello, rfl⟩ := Option.map_eq_some_iff.mp hgreeted
    exact ⟨fun r => hnext r trivial, hgated.hello, fun _ => ⟨h, hhello, hpeer⟩⟩
  | receive d =>
    obtain ⟨l, next, l', hthread, _, _, rfl⟩ := step_receive.mp hstep
    have hwp := hgated.satisfies
    rw [hthread] at hwp
    exact ⟨hwp, hgated.hello, fun _ => hgated.relay (by rw [hthread]; rfl)⟩
  | relay e =>
    obtain ⟨l, next, l', hthread, _, _, rfl⟩ := step_relay.mp hstep
    have hwp := hgated.satisfies
    rw [hthread] at hwp
    exact ⟨hwp, hgated.hello, fun _ => hgated.relay (by rw [hthread]; rfl)⟩
  | leave code =>
    obtain ⟨l, next, hthread, _, rfl⟩ := step_leave.mp hstep
    have hwp := hgated.satisfies
    rw [hthread] at hwp
    exact ⟨hwp code, hgated.hello, fun hrelay => Bool.noConfusion hrelay⟩
  | arrive src payload =>
    obtain ⟨_, rfl⟩ := step_arrive.mp hstep
    exact ⟨hgated.satisfies, hgated.hello, hgated.relay⟩

/-- A child that has just been forked to run `process`. -/
def ofProcess (rounds : ℕ) (garbage : TunnelServer.Uninitialized) (sockStatusFd tunFd : ℤ) :
    ServerProcess :=
  ⟨.running (TunnelServer.process rounds garbage sockStatusFd tunFd), Kernel.fresh⟩

/-- Before its first call a process obeys the contract of its gate. -/
theorem gated_ofProcess (rounds : ℕ) (garbage : TunnelServer.Uninitialized)
    (sockStatusFd tunFd : ℤ) : (ofProcess rounds garbage sockStatusFd tunFd).Gated :=
  ⟨process_wp rounds garbage sockStatusFd tunFd, fun _ h => (nomatch h),
    fun hrelay => Bool.noConfusion hrelay⟩

end ServerProcess

end HeptaVcn
