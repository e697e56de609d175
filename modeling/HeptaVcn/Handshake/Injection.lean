import HeptaVcn.Handshake.NonceGate

/-!
# What reaches the TUN device of the server

Everything the server writes to its TUN device comes from datagrams of the endpoint
that presented the nonce, provided the hello was the nonce and no other sender's
datagram was waiting when the socket was connected. The invariant ties the receive
queue, the connected peer and the buffers of the relay to the datagrams that arrived.
-/

namespace HeptaVcn

open Machine

namespace Kernel

/-- The payload of a datagram that came from the sender of `h` and is not `h`; a copy of `h`
that the network delivers again is another datagram. -/
def SentBy (k : Kernel) (h : Datagram) (message : List UInt8) : Prop :=
  ∃ d ∈ k.arrivals, d.payload = message ∧ d.src = h.src ∧ d ≠ h

/-- The bytes come from datagrams of the endpoint that presented the nonce, and the
datagram that did so is not among them. -/
def FromPeer (k : Kernel) (bytes : List UInt8) : Prop :=
  ∃ n h, k.nonce = some n ∧ k.hello = some h ∧ h ∈ k.arrivals ∧ h.payload = intBytes n ∧
    Pipeline.ConcatOf (k.SentBy h) bytes

/-- The receive queue holds arrivals in order, each at most once, and not the hello. -/
structure Tracked (k : Kernel) : Prop where
  queue : k.queue.Sublist k.arrivals
  numbered : ∀ d ∈ k.arrivals, d.seq < k.arrivals.length
  nodup : k.arrivals.Nodup
  hello : ∀ h, k.hello = some h → h ∈ k.arrivals ∧ h ∉ k.queue

variable {k : Kernel}

/-- Taking the first datagram out of the queue keeps it in order. -/
theorem Tracked.tail (hk : k.Tracked) : Tracked { k with queue := k.queue.tail } where
  queue := (List.tail_sublist _).trans hk.queue
  numbered := hk.numbered
  nodup := hk.nodup
  hello h hh := ⟨(hk.hello h hh).1, fun hmem => (hk.hello h hh).2 (List.mem_of_mem_tail hmem)⟩

/-- The head of the queue is not queued a second time. -/
theorem Tracked.head_not_mem_tail (hk : k.Tracked) {d : Datagram} (hd : k.queue.head? = some d) :
    d ∉ k.queue.tail := by
  have hnodup := hk.queue.nodup hk.nodup
  cases hqueue : k.queue with
  | nil => simp [hqueue] at hd
  | cons d' rest =>
    obtain rfl : d' = d := by simpa [hqueue] using hd
    rw [hqueue] at hnodup
    exact (List.nodup_cons.mp hnodup).1

/-- The first datagram of the queue has arrived. -/
theorem Tracked.head_mem (hk : k.Tracked) {d : Datagram} (hd : k.queue.head? = some d) :
    d ∈ k.arrivals := hk.queue.subset (List.mem_of_mem_head? hd)

/-- Calls keep track of the datagrams. -/
theorem Tracked.after (hk : k.Tracked) (op : Syscall) (r : op.Reply) : (k.after op r).Tracked := by
  cases op with
  | read fd len => cases r <;> exact ⟨hk.queue, hk.numbered, hk.nodup, hk.hello⟩
  | recvfrom fd len =>
    cases r with
    | none => exact hk
    | some reply =>
      refine ⟨hk.tail.queue, hk.numbered, hk.nodup, fun h hh => ?_⟩
      rcases Kernel.hello_after hh with hhello | ⟨hhead, _⟩
      · exact hk.tail.hello h hhello
      · exact ⟨hk.head_mem hhead, hk.head_not_mem_tail hhead⟩
  | _ => exact ⟨hk.queue, hk.numbered, hk.nodup, hk.hello⟩

/-- An arriving datagram has a number of its own. -/
theorem Tracked.arrive (hk : k.Tracked) (src : SockAddrIn) (payload : List UInt8) :
    (k.arrive src payload).Tracked := by
  have hnew : (⟨k.arrivals.length, src, payload⟩ : Datagram) ∉ k.arrivals := fun hmem =>
    Nat.lt_irrefl _ (hk.numbered _ hmem)
  constructor
  · simp only [Kernel.arrive]
    split
    · exact hk.queue.append (List.Sublist.refl _)
    · exact hk.queue.trans (List.sublist_append_left _ _)
  · intro d hd
    simp only [Kernel.arrive, List.mem_append, List.mem_singleton, List.length_append,
      List.length_singleton] at hd ⊢
    rcases hd with hd | rfl
    · exact Nat.lt_succ_of_lt (hk.numbered d hd)
    · exact Nat.lt_succ_self _
  · refine List.nodup_append.mpr ⟨hk.nodup, by simp, fun d hd d' hd' => ?_⟩
    obtain rfl := List.mem_singleton.mp hd'
    exact fun heq => hnew (heq ▸ hd)
  · intro h hh
    obtain ⟨hmem, hqueue⟩ := hk.hello h hh
    have hne : h ≠ ⟨k.arrivals.length, src, payload⟩ := fun heq => hnew (heq ▸ hmem)
    refine ⟨List.mem_append_left _ hmem, ?_⟩
    simp only [Kernel.arrive]
    split
    · simpa [hqueue] using hne
    · exact hqueue

/-- A call takes datagrams from the queue and adds none. -/
theorem queue_after (k : Kernel) (op : Syscall) (r : op.Reply) {d : Datagram}
    (hd : d ∈ (k.after op r).queue) : d ∈ k.queue := by
  cases op with
  | read fd len => cases r <;> exact hd
  | recvfrom fd len =>
    cases r with
    | none => exact hd
    | some reply => exact List.mem_of_mem_tail hd
  | _ => exact hd

/-- Only `connect` sets the peer. -/
theorem peer_after {op : Syscall} {r : op.Reply} {addr : SockAddrIn}
    (h : (k.after op r).peer = some addr) : k.peer = some addr ∨ ∃ fd, op = .connect fd addr := by
  cases op with
  | read fd len => cases r <;> exact Or.inl h
  | recvfrom fd len => cases r <;> exact Or.inl h
  | connect fd addr' =>
    have hpeer : (if r = (0 : ℤ) then some addr' else k.peer) = some addr := h
    split at hpeer
    · exact Or.inr ⟨fd, by rw [Option.some.inj hpeer]⟩
    · exact Or.inl hpeer
  | _ => exact Or.inl h

/-- No call of the process makes a datagram arrive. -/
theorem arrivals_after (k : Kernel) (op : Syscall) (r : op.Reply) :
    (k.after op r).arrivals = k.arrivals := by
  cases op with
  | read fd len => cases r <;> rfl
  | recvfrom fd len => cases r <;> rfl
  | _ => rfl

/-- The hello stays what it is. -/
theorem hello_after_of_some {op : Syscall} {r : op.Reply} {h : Datagram}
    (hhello : k.hello = some h) : (k.after op r).hello = some h := by
  cases op with
  | read fd len => cases r <;> exact hhello
  | recvfrom fd len =>
    cases r with
    | none => exact hhello
    | some reply => simp [after, hhello]
  | _ => exact hhello

/-- An arriving datagram joins the queue only if its sender may be the peer. -/
theorem mem_queue_arrive {d : Datagram} {src : SockAddrIn} {payload : List UInt8}
    (hd : d ∈ (k.arrive src payload).queue) :
    d ∈ k.queue ∨ (d.src = src ∧ (k.peer = none ∨ k.peer = some src)) := by
  simp only [Kernel.arrive] at hd
  split at hd
  case isTrue hpeer =>
    rcases List.mem_append.mp hd with hd | hd
    · exact Or.inl hd
    · obtain rfl := List.mem_singleton.mp hd
      exact Or.inr ⟨rfl, hpeer⟩
  case isFalse => exact Or.inl hd

/-- What has been sent stays so when more arrives. -/
theorem SentBy.arrive {h : Datagram} {message : List UInt8} (src : SockAddrIn)
    (payload : List UInt8) (hsent : k.SentBy h message) :
    (k.arrive src payload).SentBy h message := by
  obtain ⟨d, hd, hrest⟩ := hsent
  exact ⟨d, List.mem_append_left _ hd, hrest⟩

end Kernel

/-- A datagram is read as a packet exactly when it is not empty. -/
theorem Datagram.event_eq_read {d : Datagram} {packet : List UInt8} :
    d.event = .read .udp packet ↔ d.payload = packet ∧ d.payload ≠ [] := by
  unfold Datagram.event
  split <;> simp_all

namespace ServerProcess

/-- The hello goes well, and at the `connect` nothing from another sender is waiting
to be received, except empty datagrams. -/
def onlyPeerQueued (w : ServerProcess) (a : Action) : Bool :=
  w.helloIsNonce a &&
    match a with
    | .call (.connect _ addr) _ => w.kernel.queue.all fun d => d.src = addr || d.payload = []
    | _ => true

/-- What the relay of a process knows of the datagrams. -/
structure Guarded (w : ServerProcess) : Prop where
  gated : w.Gated
  tracked : w.kernel.Tracked
  queue : ∀ addr, w.kernel.peer = some addr →
    ∀ d ∈ w.kernel.queue, d.src = addr ∨ d.payload = []
  buffers : ∀ l next, w.thread = .dispatching l next → l.Wired ∧
    ∀ h, w.kernel.hello = some h → (l.pipeline .udp).MadeOf (w.kernel.SentBy h)

variable {w w' : ServerProcess}

/-- What the loop does with an event, given where the packets it reads come from. -/
theorem buffers_step {l l' : EventLoop} {e : Event} {S : List UInt8 → Prop} (hwired : l.Wired)
    (hmade : (l.pipeline .udp).MadeOf S) (hstep : l.step TunnelServer.callbacks e = some l')
    (hread : ∀ packet, e = .read .udp packet → S packet) :
    l'.Wired ∧ (l'.pipeline .udp).MadeOf S ∧
      ∀ bytes, e = .write .tun bytes → Pipeline.ConcatOf S bytes := by
  have hcb := TunnelServer.callbacks_onlyForward
  have hputs : ∀ m ∈ Pipeline.puts (EventLoop.labels .udp e), S m := by
    intro m hm
    cases e with
    | read d packet =>
      cases d with
      | tun => simp [EventLoop.labels, Pipeline.puts] at hm
      | udp =>
        obtain rfl : m = packet := by simpa [EventLoop.labels, Pipeline.puts] using hm
        exact hread m rfl
    | readcb d => cases d <;> simp [EventLoop.labels, Pipeline.puts] at hm
    | write d bytes => cases d <;> simp [EventLoop.labels, Pipeline.puts, Side.other] at hm
    | _ => simp [EventLoop.labels, Pipeline.puts] at hm
  obtain ⟨hmade', hflushes⟩ :=
    Pipeline.madeOf_run hmade hputs (EventLoop.run_labels hcb .udp e hwired hstep)
  refine ⟨hwired.step hcb e hstep, hmade', ?_⟩
  rintro bytes rfl
  exact hflushes bytes (by simp [EventLoop.labels, Pipeline.flushes, Side.other])

/-- A relay that is in a loop has been greeted by its peer. -/
theorem Guarded.greeted {l : EventLoop} {next : ℤ → Program Sys Unit} (hw : w.Guarded)
    (hthread : w.thread = .dispatching l next) :
    ∃ h, w.kernel.hello = some h ∧ w.kernel.peer = some h.src :=
  hw.gated.relay (by rw [hthread]; rfl)

/-- Calls keep the guard; at the `connect` the queue is checked. -/
theorem guarded_call {op : Syscall} {r : op.Reply} (hw : w.Guarded)
    (hC : w.onlyPeerQueued (.call op r)) (hstep : w.step (.call op r) = some w') :
    w'.Guarded := by
  simp only [onlyPeerQueued, Bool.and_eq_true] at hC
  obtain ⟨hhello, hconnect⟩ := hC
  have hgated := gated_step hw.gated hhello hstep
  obtain ⟨next, _, _, rfl⟩ := step_call.mp hstep
  refine ⟨hgated, hw.tracked.after op r, fun addr hpeer d hd => ?_, fun _ _ h => nomatch h⟩
  have hd' := w.kernel.queue_after op r hd
  rcases Kernel.peer_after hpeer with hpeer | ⟨fd, rfl⟩
  · exact hw.queue addr hpeer d hd'
  · simpa using List.all_eq_true.mp hconnect d hd'

/-- A loop is entered with empty buffers. -/
theorem guarded_dispatch (hw : w.Guarded) (hgated : w'.Gated)
    (hstep : w.step .dispatch = some w') : w'.Guarded := by
  obtain ⟨l, next, hthread, rfl⟩ := step_dispatch.mp hstep
  have hwp := hw.gated.satisfies
  rw [hthread] at hwp
  obtain ⟨hwired, hempty⟩ := hwp.1.2
  refine ⟨hgated, hw.tracked, hw.queue, fun _ _ h => ?_⟩
  cases h
  refine ⟨hwired, fun h _ => ?_⟩
  rw [hempty]
  exact ⟨Pipeline.ConcatOf.nil _, Pipeline.ConcatOf.nil _⟩

/-- A datagram that is read comes from the peer and is not the hello. -/
theorem guarded_receive {d : Datagram} (hw : w.Guarded) (hgated : w'.Gated)
    (hstep : w.step (.receive d) = some w') : w'.Guarded := by
  obtain ⟨l, next, l', hthread, hhead, hl, rfl⟩ := step_receive.mp hstep
  obtain ⟨hwired, hmade⟩ := hw.buffers l next hthread
  obtain ⟨h, hh, hpeer⟩ := hw.greeted hthread
  have hqueue : d ∈ w.kernel.queue := List.mem_of_mem_head? hhead
  have hread : ∀ packet, d.event = .read .udp packet → w.kernel.SentBy h packet := by
    intro packet hevent
    obtain ⟨hpayload, hne⟩ := Datagram.event_eq_read.mp hevent
    have hsrc := (hw.queue h.src hpeer d hqueue).resolve_right hne
    have hother : d ≠ h := fun heq => (hw.tracked.hello h hh).2 (heq ▸ hqueue)
    exact ⟨d, hw.tracked.head_mem hhead, hpayload, hsrc, hother⟩
  obtain ⟨hwired', hmade', _⟩ := buffers_step hwired (hmade h hh) hl hread
  refine ⟨hgated, hw.tracked.tail, fun addr hpeer d hd => ?_, fun l next h => ?_⟩
  · exact hw.queue addr hpeer d (List.mem_of_mem_tail hd)
  · cases h
    refine ⟨hwired', fun h' hh' => ?_⟩
    obtain rfl : h = h' := Option.some.inj (hh.symm.trans hh')
    exact hmade'

/-- Other events of the loop read no datagram, and write only what has been read. -/
theorem guarded_relay {e : Event} (hw : w.Guarded) (hgated : w'.Gated)
    (hstep : w.step (.relay e) = some w') :
    w'.Guarded ∧ ∀ bytes, e = .write .tun bytes → w'.kernel.FromPeer bytes := by
  obtain ⟨l, next, l', hthread, htakes, hl, rfl⟩ := step_relay.mp hstep
  obtain ⟨hwired, hmade⟩ := hw.buffers l next hthread
  obtain ⟨h, hh, _⟩ := hw.greeted hthread
  have hread : ∀ packet, e = .read .udp packet → w.kernel.SentBy h packet := by
    rintro packet rfl
    exact Bool.noConfusion htakes
  obtain ⟨hwired', hmade', hwrite⟩ := buffers_step hwired (hmade h hh) hl hread
  refine ⟨⟨hgated, hw.tracked, hw.queue, fun l next h => ?_⟩, fun bytes hbytes => ?_⟩
  · cases h
    refine ⟨hwired', fun h' hh' => ?_⟩
    obtain rfl : h = h' := Option.some.inj (hh.symm.trans hh')
    exact hmade'
  · obtain ⟨n, hn, hpayload⟩ := Option.map_eq_some_iff.mp (hw.gated.hello h hh).symm
    exact ⟨n, h, hn, hh, (hw.tracked.hello h hh).1, hpayload.symm, hwrite bytes hbytes⟩

/-- Once the socket is connected, only the peer's datagrams join the queue. -/
theorem guarded_arrive {src : SockAddrIn} {payload : List UInt8} (hw : w.Guarded)
    (hgated : w'.Gated) (hstep : w.step (.arrive src payload) = some w') : w'.Guarded := by
  obtain ⟨_, rfl⟩ := step_arrive.mp hstep
  refine ⟨hgated, hw.tracked.arrive src payload, fun addr hpeer d hd => ?_, fun l next h => ?_⟩
  · have hpeer' : w.kernel.peer = some addr := hpeer
    rcases Kernel.mem_queue_arrive hd with hd | ⟨hsrc, hjoins⟩
    · exact hw.queue addr hpeer' d hd
    · simp_all
  · obtain ⟨hwired, hmade⟩ := hw.buffers l next h
    refine ⟨hwired, fun h hh => ?_⟩
    have hmono := fun m (hm : w.kernel.SentBy h m) => hm.arrive src payload
    exact ⟨(hmade h hh).1.mono hmono, (hmade h hh).2.mono hmono⟩

/-- A process whose hello went well stays guarded, and what it writes to its TUN device
comes from the peer. -/
theorem guarded_step {a : Action} (hw : w.Guarded) (hC : w.onlyPeerQueued a)
    (hstep : w.step a = some w') :
    w'.Guarded ∧ ∀ bytes, a = .relay (.write .tun bytes) → w'.kernel.FromPeer bytes := by
  have hhello : w.helloIsNonce a := by
    simp only [onlyPeerQueued, Bool.and_eq_true] at hC
    exact hC.1
  have hgated := gated_step hw.gated hhello hstep
  cases a with
  | call op r => exact ⟨guarded_call hw hC hstep, fun _ h => nomatch h⟩
  | dispatch => exact ⟨guarded_dispatch hw hgated hstep, fun _ h => nomatch h⟩
  | receive d => exact ⟨guarded_receive hw hgated hstep, fun _ h => nomatch h⟩
  | relay e =>
    obtain ⟨hguarded, hwrite⟩ := guarded_relay hw hgated hstep
    exact ⟨hguarded, fun bytes hbytes => hwrite bytes (Action.relay.inj hbytes)⟩
  | leave code =>
    obtain ⟨l, next, _, _, rfl⟩ := step_leave.mp hstep
    exact ⟨⟨hgated, hw.tracked, hw.queue, fun _ _ h => nomatch h⟩, fun _ h => nomatch h⟩
  | arrive src payload => exact ⟨guarded_arrive hw hgated hstep, fun _ h => nomatch h⟩

/-- What a step does not change: the origin of the bytes written so far. -/
theorem fromPeer_step {a : Action} {bytes : List UInt8} (h : w.kernel.FromPeer bytes)
    (hstep : w.step a = some w') : w'.kernel.FromPeer bytes := by
  obtain ⟨n, hello, hn, hhello, hmem, hpayload, hconcat⟩ := h
  cases a with
  | call op r =>
    obtain ⟨next, _, _, rfl⟩ := step_call.mp hstep
    refine ⟨n, hello, Kernel.nonce_after hn, Kernel.hello_after_of_some hhello, ?_, hpayload, ?_⟩
    · rwa [Kernel.arrivals_after]
    · exact hconcat.mono fun m hm => by rwa [Kernel.SentBy, Kernel.arrivals_after]
  | dispatch =>
    obtain ⟨l, next, _, rfl⟩ := step_dispatch.mp hstep
    exact ⟨n, hello, hn, hhello, hmem, hpayload, hconcat⟩
  | receive d =>
    obtain ⟨l, next, l', _, _, _, rfl⟩ := step_receive.mp hstep
    exact ⟨n, hello, hn, hhello, hmem, hpayload, hconcat⟩
  | relay e =>
    obtain ⟨l, next, l', _, _, _, rfl⟩ := step_relay.mp hstep
    exact ⟨n, hello, hn, hhello, hmem, hpayload, hconcat⟩
  | leave code =>
    obtain ⟨l, next, _, _, rfl⟩ := step_leave.mp hstep
    exact ⟨n, hello, hn, hhello, hmem, hpayload, hconcat⟩
  | arrive src payload =>
    obtain ⟨_, rfl⟩ := step_arrive.mp hstep
    have hmono := fun m (hm : w.kernel.SentBy hello m) => hm.arrive src payload
    exact ⟨n, hello, hn, hhello, List.mem_append_left _ hmem, hpayload, hconcat.mono hmono⟩

/-- Before its first call a process has written nothing. -/
theorem guarded_ofProcess (rounds : ℕ) (garbage : TunnelServer.Uninitialized)
    (sockStatusFd tunFd : ℤ) : (ofProcess rounds garbage sockStatusFd tunFd).Guarded where
  gated := gated_ofProcess rounds garbage sockStatusFd tunFd
  tracked := ⟨List.Sublist.refl _, fun _ h => (nomatch h), List.nodup_nil, fun _ h => (nomatch h)⟩
  queue := fun _ h => nomatch h
  buffers := fun _ _ h => nomatch h

/-- What a process writes to its TUN device during a run, one byte string a `write`. -/
def tunWrites : List Action → List (List UInt8) :=
  List.filterMap fun | .relay (.write .tun bytes) => some bytes | _ => none

variable {rounds : ℕ} {garbage : TunnelServer.Uninitialized} {sockStatusFd tunFd : ℤ}
  {tr : List Action}

/-- Only the peer injects packets, in every run whose hello goes well and in which
nothing from another sender waits at the `connect`. -/
theorem fromPeer_of_onlyPeerQueued
    (hmeets : Meets step (fun w a => w.onlyPeerQueued a)
      (ofProcess rounds garbage sockStatusFd tunFd) tr)
    (hrun : run step (ofProcess rounds garbage sockStatusFd tunFd) tr = some w) :
    ∀ bytes ∈ tunWrites tr, w.kernel.FromPeer bytes := by
  refine (history_of_meets
    (I := fun tr w => w.Guarded ∧ ∀ bytes ∈ tunWrites tr, w.kernel.FromPeer bytes)
    ?_ ⟨guarded_ofProcess rounds garbage sockStatusFd tunFd, by simp [tunWrites]⟩ hmeets hrun).2
  rintro tr w a w' ⟨hw, hI⟩ hC hstep
  obtain ⟨hw', hwrite⟩ := guarded_step hw hC hstep
  refine ⟨hw', fun bytes hbytes => ?_⟩
  rw [tunWrites, List.filterMap_append, List.mem_append] at hbytes
  rcases hbytes with hbytes | hbytes
  · exact fromPeer_step (hI bytes hbytes) hstep
  · refine hwrite bytes ?_
    rcases a with _ | _ | _ | e | _ | _ <;> try simp at hbytes
    rcases e with _ | _ | ⟨_ | _, _⟩ | _ | _ | _ | _ <;> simp_all

open Handshake (phone stranger)

/-- A child that reads the nonce 7, and takes the phone's hello. -/
def helloTaken : List Action :=
  [.call (.read 4 4) (some [7, 0, 0, 0]), .call (.write 4 [7, 0, 0, 0]) (4 : ℤ),
    .call (.socket .dgram) (5 : ℤ), .call (.bind 5 ⟨0, 55550⟩) (0 : ℤ),
    .call (.write 4 [254, 216, 0, 0]) (4 : ℤ), .arrive phone [7, 0, 0, 0],
    .call (.recvfrom 5 4) (some ([7, 0, 0, 0], phone))]

/-- It connects to the phone and enters its relay loop. -/
def relayEntered : List Action :=
  [.call (.connect 5 phone) (0 : ℤ), .call (.log "udp recvform ip:") (), .dispatch]

/-- One datagram goes through the relay. -/
def relayed (src : SockAddrIn) : List Action :=
  [.receive ⟨1, src, [0x45]⟩, .relay (.readcb .udp), .relay (.write .tun [0x45])]

/-- A packet of the phone arrives once the socket is connected. -/
def phonePacket : List Action :=
  helloTaken ++ relayEntered ++ [.arrive phone [0x45]] ++ relayed phone

/-- A packet of the phone reaches the TUN device. -/
theorem fromPeer_phonePacket :
    ∃ w, run step (ofProcess 0 ⟨0, ⟨0, 0⟩⟩ 4 3) phonePacket = some w ∧
      tunWrites phonePacket = [[0x45]] ∧ ∀ bytes ∈ tunWrites phonePacket, w.kernel.FromPeer bytes :=
  ⟨_, rfl, rfl, fromPeer_of_onlyPeerQueued
    (show Meets step (fun w a => w.onlyPeerQueued a) (ofProcess 0 ⟨0, ⟨0, 0⟩⟩ 4 3) phonePacket
      by decide) rfl⟩

/-- A packet of a stranger arrives between the `recvfrom` and the `connect`. -/
def strangerPacket : List Action :=
  helloTaken ++ [.arrive stranger [0x45]] ++ relayEntered ++ relayed stranger

/-- The stranger's packet is written to the TUN device. -/
theorem not_fromPeer_strangerPacket :
    ∃ w, run step (ofProcess 0 ⟨0, ⟨0, 0⟩⟩ 4 3) strangerPacket = some w ∧
      [0x45] ∈ tunWrites strangerPacket ∧ ¬w.kernel.FromPeer [0x45] := by
  refine ⟨_, rfl, by decide, ?_⟩
  rintro ⟨_, hello, _, hhello, _, _, messages, hflatten, hsent⟩
  obtain rfl : (⟨0, phone, [7, 0, 0, 0]⟩ : Datagram) = hello := Option.some.inj hhello
  cases messages with
  | nil => cases hflatten
  | cons m messages =>
    obtain ⟨d, hd, _, hsrc, hne⟩ := hsent m List.mem_cons_self
    have hd' : d = ⟨0, phone, [7, 0, 0, 0]⟩ ∨ d = ⟨1, stranger, [0x45]⟩ := by
      simpa [Kernel.after, Kernel.arrive, Kernel.fresh, ofProcess] using hd
    rcases hd' with rfl | rfl
    · exact hne rfl
    · exact absurd hsrc (by decide)

end ServerProcess

end HeptaVcn
