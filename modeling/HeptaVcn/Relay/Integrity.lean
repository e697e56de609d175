import HeptaVcn.Relay.Lifecycle
import HeptaVcn.Relay.PacketBoundaries

/-!
# What crosses the tunnel, and what a relay has delivered when it ends

Packets may be glued together on the way, but nothing else happens to them: the far
TUN device sees whole packets that the near one was read from, and the client's hello when
the network repeats it. A relay that `event_base_dispatch` returns from has passed on all it
read, unless a descriptor failed under it.
-/

namespace HeptaVcn

open Machine

namespace EventLoop

/-- A fault has ended the reading of descriptor `d`. -/
def ReadEnded (d : Side) (tr : List Event) : Prop :=
  .fault d .readEof ∈ tr ∨ .fault d .readError ∈ tr

/-- All that was read from descriptor `d` has been written to the opposite one. -/
def Delivered (d : Side) (tr : List Event) : Prop :=
  (writes d.other tr).flatten = (packetsRead d tr).flatten

/-- What the state of a relay says about the events behind it. -/
structure Recorded (tr : List Event) (l : EventLoop) : Prop where
  evTcp : l.evTcp = true ↔ .tcpEvent ∉ tr
  read : ∀ d, (l.bev d).readEnabled = true ↔ ¬ReadEnded d tr
  write : ∀ d, (l.bev d).writeEnabled = true ↔ .fault d .writeError ∉ tr
  /-- No wakeup is lost: bytes wait in an input buffer only for a queued callback. -/
  input : ∀ d, (l.bev d).readcbPending = true ↔ (l.bev d).input ≠ []

variable {cb : Callbacks} {l l' : EventLoop} {tr : List Event}

/-- Reading has ended after one more event if it had before or the event ends it. -/
theorem readEnded_append (d : Side) (tr : List Event) (e : Event) :
    ReadEnded d (tr ++ [e]) ↔ ReadEnded d tr ∨ e = .fault d .readEof ∨ e = .fault d .readError := by
  simp only [ReadEnded, List.mem_append, List.mem_singleton, eq_comm (b := e)]
  tauto

/-- Modifying a bufferevent does not touch the event of the TCP connection. -/
@[simp] theorem evTcp_modify (l : EventLoop) (d : Side) (f : Bufferevent → Bufferevent) :
    (l.modify d f).evTcp = l.evTcp := by cases d <;> rfl

/-- Both ends start with two fresh bufferevents that are enabled for reading. -/
theorem exists_bev_eventLoop (e : End) (udpFd tunFd : ℤ) (d : Side) :
    ∃ fd, (e.eventLoop udpFd tunFd).bev d = (Bufferevent.new fd d.other).enableRead := by
  cases e <;> cases d <;> exact ⟨_, rfl⟩

/-- Nothing has happened at the start, and the loop says so. -/
theorem recorded_start (e : End) (udpFd tunFd : ℤ) : Recorded [] (e.eventLoop udpFd tunFd) := by
  have hevTcp : (e.eventLoop udpFd tunFd).evTcp = true := by cases e <;> rfl
  refine ⟨by simp [hevTcp], fun d => ?_, fun d => ?_, fun d => ?_⟩ <;>
  · obtain ⟨fd, hfd⟩ := exists_bev_eventLoop e udpFd tunFd d
    simp [hfd, Bufferevent.new, Bufferevent.enableRead, ReadEnded]

/-- Every event leaves its mark on the state. -/
theorem Recorded.step (hcb : cb.OnlyForward) {e : Event} (hwired : l.Wired) (h : Recorded tr l)
    (hstep : l.step cb e = some l') : Recorded (tr ++ [e]) l' := by
  obtain ⟨henabled, rfl⟩ := step_eq_some.mp hstep
  obtain ⟨hevTcp, hread, hwrite, hinput⟩ := h
  cases e with
  | read d packet =>
    have hne : packet ≠ [] := by simp_all [enabled]
    refine ⟨by simp [after, hevTcp], fun d' => ?_, fun d' => ?_, fun d' => ?_⟩ <;>
      rcases d.eq_or_eq_other d' with rfl | rfl <;>
      simp [after, readEnded_append, hread, hwrite, hinput, hne]
  | readcb d =>
    have hctx := hwired d
    refine ⟨by simp [after, hcb.recv, forward, hevTcp], fun d' => ?_, fun d' => ?_,
      fun d' => ?_⟩ <;> rcases d.eq_or_eq_other d' with rfl | rfl <;>
      simp [after, hcb.recv, forward, hctx, readEnded_append, hread, hwrite, hinput]
  | write d bytes =>
    refine ⟨by simp [after, hevTcp], fun d' => ?_, fun d' => ?_, fun d' => ?_⟩ <;>
      rcases d.eq_or_eq_other d' with rfl | rfl <;>
      simp [after, readEnded_append, hread, hwrite, hinput]
  | fault d f =>
    refine ⟨by simp [after, hcb.error, hevTcp], fun d' => ?_, fun d' => ?_, fun d' => ?_⟩ <;>
      rcases d.eq_or_eq_other d' with rfl | rfl <;> cases f <;>
      simp [after, hcb.error, disable, readEnded_append, hread, hwrite, hinput]
  | tcpClose =>
    exact ⟨by simp [after, hevTcp], by simp [after, readEnded_append, hread],
      by simp [after, hwrite], by simp [after, hinput]⟩
  | tunClose =>
    exact ⟨by simp [after, hevTcp], by simp [after, readEnded_append, hread],
      by simp [after, hwrite], by simp [after, hinput]⟩
  | tcpEvent =>
    exact ⟨by simp [after, hcb.tcpError], by simp [after, hcb.tcpError, readEnded_append, hread],
      by simp [after, hcb.tcpError, hwrite], by simp [after, hcb.tcpError, hinput]⟩

section FromStart

variable {e : End} {udpFd tunFd : ℤ}

/-- The loop of either end records every run. -/
theorem recorded_run (hrun : run (step e.callbacks) (e.eventLoop udpFd tunFd) tr = some l) :
    Recorded tr l := by
  have hcb := e.callbacks_onlyForward
  refine (history (I := fun tr l => Recorded tr l ∧ l.Wired) ?_
    ⟨recorded_start e udpFd tunFd, e.eventLoop_wired udpFd tunFd⟩ hrun).1
  rintro tr l ev l' ⟨hrecorded, hwired⟩ hstep
  exact ⟨hrecorded.step hcb hwired hstep, hwired.step hcb ev hstep⟩

/-- A relay neither loses nor invents nor reorders bytes: what it has written, then what
waits to be written, then what waits to be handed over, is what it has read. -/
theorem conserved_run (hrun : run (step e.callbacks) (e.eventLoop udpFd tunFd) tr = some l)
    (d : Side) : (packetsRead d tr).flatten =
      (writes d.other tr).flatten ++ (l.bev d.other).output ++ (l.bev d).input := by
  have hstart : (e.eventLoop udpFd tunFd).pipeline d = Pipeline.empty := by
    cases e <;> cases d <;> rfl
  have hpipe := run_pipeline e.callbacks_onlyForward d (e.eventLoop_wired udpFd tunFd) hrun
  rw [hstart] at hpipe
  have h := Pipeline.conservation hpipe
  rwa [puts_labels, flushes_labels] at h

/-- All bytes read have been written exactly if neither buffer holds any. -/
theorem delivered_iff (hrun : run (step e.callbacks) (e.eventLoop udpFd tunFd) tr = some l)
    (d : Side) : Delivered d tr ↔ (l.bev d.other).output = [] ∧ (l.bev d).input = [] := by
  rw [Delivered, conserved_run hrun d, List.append_assoc, List.self_eq_append_right,
    List.append_eq_nil_iff]

/-- `event_base_dispatch` returns from a relay exactly when the control connection has
been seen to close, both descriptors can no longer be read, and in either direction all
bytes have been delivered, or the writer has failed at some time and none waits to be handed
to it. -/
theorem returns_iff_of_run
    (hrun : run (step e.callbacks) (e.eventLoop udpFd tunFd) tr = some l) :
    l.returns = true ↔ .tcpEvent ∈ tr ∧ ∀ d, ReadEnded d tr ∧
      (Delivered d tr ∨ (.fault d.other .writeError ∈ tr ∧ (l.bev d).input = [])) := by
  have hbreak : l.loopbreak = false := by
    rw [loopbreak_run e.callbacks_onlyForward hrun]
    cases e <;> rfl
  obtain ⟨hevTcp, hread, hwrite, hinput⟩ := recorded_run hrun
  by_cases htcp : .tcpEvent ∈ tr
  case neg =>
    have hpending : l.pending = true := by simp [pending, hevTcp.mpr htcp]
    simp [returns, hbreak, hpending, htcp]
  have hclosed : l.evTcp = false := by simp [← Bool.not_eq_true, hevTcp, htcp]
  have hended (d : Side) : (l.bev d).readEnabled = false ↔ ReadEnded d tr := by
    rw [← Bool.not_eq_true, hread, not_not]
  have hfailed (d : Side) : (l.bev d).writeEnabled = false ↔ .fault d .writeError ∈ tr := by
    rw [← Bool.not_eq_true, hwrite, not_not]
  have hhanded (d : Side) : (l.bev d).readcbPending = false ↔ (l.bev d).input = [] := by
    rw [← Bool.not_eq_true, hinput, not_not]
  simp only [returns_iff_of_closed hbreak hclosed, hended, hfailed, hhanded, htcp, true_and,
    delivered_iff hrun]
  constructor
  · intro h d
    have hother := (h d.other).2.2
    exact ⟨(h d).1, hother.symm.imp (fun hout => ⟨hout, (h d).2.1⟩) fun hw => ⟨hw, (h d).2.1⟩⟩
  · intro h d
    have hother := (h d.other).2
    rw [Side.other_other] at hother
    refine ⟨(h d).1, (h d).2.elim And.right And.right, ?_⟩
    exact hother.symm.imp And.left And.left

/-- A packet comes through and both descriptors are closed at the other side. -/
def lastPacket : List Event :=
  [.read .udp [0x45], .tcpClose, .readcb .udp, .tcpEvent, .fault .udp .readEof,
    .write .tun [0x45], .fault .tun .readError]

/-- An instance: the last packet is on its way when the descriptors end. -/
theorem returns_iff_of_run_lastPacket :
    ∃ l, run (step End.client.callbacks) (End.client.eventLoop 5 4) lastPacket = some l ∧
      (l.returns = true ↔ .tcpEvent ∈ lastPacket ∧ ∀ d, ReadEnded d lastPacket ∧
        (Delivered d lastPacket ∨
          (.fault d.other .writeError ∈ lastPacket ∧ (l.bev d).input = []))) :=
  ⟨_, rfl, returns_iff_of_run (e := .client) rfl⟩

end FromStart

end EventLoop

namespace Tunnel

variable {t : Tunnel} {tr : List (End × Event)} {nonce : CInt}
  {clientUdp clientTun serverUdp serverTun : ℤ}

/-- What is written to a descriptor was made of whole packets read from the opposite one. -/
theorem concatOf_packetsRead
    (hrun : run step (start nonce clientUdp clientTun serverUdp serverTun) tr = some t) (e : End)
    (d : Side) {bytes : List UInt8} (hwrite : bytes ∈ writes e d.other tr) :
    Pipeline.ConcatOf (· ∈ packetsRead e d tr) bytes := by
  have hmade : Pipeline.MadeOf (· ∈ packetsRead e d tr) Pipeline.empty :=
    ⟨Pipeline.ConcatOf.nil _, Pipeline.ConcatOf.nil _⟩
  have h := Pipeline.madeOf_run hmade ?_ (run_pipeline e d hrun)
  · rw [EventLoop.flushes_labels] at h
    exact h.2 bytes hwrite
  · rw [EventLoop.puts_labels]
    exact fun m hm => hm

/-- Whatever the network loses, repeats or reorders of datagrams that are read and written
whole: the far TUN device is only written whole packets, one or several at a time, that were
read from the near one before, and at the server the client's hello when it comes again. -/
theorem concatOf_tun_packets
    (hrun : run step (start nonce clientUdp clientTun serverUdp serverTun) tr = some t) (e : End)
    {tr₁ tr₂ : List (End × Event)} {bytes : List UInt8}
    (htr : tr = tr₁ ++ (e, .write .tun bytes) :: tr₂) :
    Pipeline.ConcatOf (fun p => p ∈ packetsRead e.peer .tun tr₁ ∨ p ∈ hello nonce e.peer)
      bytes := by
  rw [htr, List.append_cons, run_append_eq_some] at hrun
  obtain ⟨t', hrun, _⟩ := hrun
  have hread : packetsRead e.peer .tun (tr₁ ++ [(e, .write .tun bytes)]) =
      packetsRead e.peer .tun tr₁ := by
    cases e <;> simp [packetsRead, eventsAt, EventLoop.packetsRead, End.peer]
  have hwritten : bytes ∈ writes e .tun (tr₁ ++ [(e, .write .tun bytes)]) := by
    simp [writes, eventsAt, EventLoop.writes]
  refine (concatOf_packetsRead hrun e .udp hwritten).bind fun datagram hdatagram => ?_
  rcases List.mem_append.mp ((datagrams_of_run hrun e).2 datagram hdatagram) with hhello | hsent
  · exact Pipeline.ConcatOf.single (Or.inr hhello)
  · rw [← hread]
    exact (concatOf_packetsRead hrun e.peer .tun hsent).mono fun packet => Or.inl

/-- The client's hello comes again, and then two packets in one datagram. -/
def helloAgain : List (End × Event) :=
  twoPackets ++ [(.server, .read .udp (intBytes 7)), (.server, .readcb .udp),
    (.server, .read .udp (probe 1 ++ probe 2)), (.server, .readcb .udp)]

/-- An instance: the network repeats the hello between two datagrams. -/
theorem concatOf_tun_packets_helloAgain :
    Pipeline.ConcatOf (fun p => p ∈ packetsRead .client .tun helloAgain ∨ p ∈ hello 7 .client)
      (intBytes 7 ++ probe 1 ++ probe 2) := by
  have hrun : ∃ t, run step (start 7 5 4 6 3)
      (helloAgain ++ [(.server, .write .tun (intBytes 7 ++ probe 1 ++ probe 2))]) = some t :=
    ⟨_, rfl⟩
  obtain ⟨t, hrun⟩ := hrun
  exact concatOf_tun_packets hrun .server rfl

end Tunnel

end HeptaVcn
