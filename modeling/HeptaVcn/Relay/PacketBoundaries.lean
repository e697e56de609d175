import HeptaVcn.Relay.Forwarding
import Mathlib.Logic.Function.Basic

/-!
# Packet boundaries in the IP tunnel

The tunnel is the relay of the phone and the relay of the server child, joined by
a network that may lose, repeat and reorder the datagrams each of them sends. A
descriptor carries packets one by one as long as no packet is appended to a
buffer that still holds an earlier one; nothing in the code provides for that.
-/

namespace HeptaVcn

open Machine

/-- Both relays, and the datagrams each end has sent so far. -/
structure Tunnel where
  loop : End → EventLoop
  sent : End → List (List UInt8)

namespace Tunnel

/-- What each end has sent over its UDP socket before its relay: the client its nonce. -/
def hello (nonce : CInt) : End → List (List UInt8)
  | .client => [intBytes nonce]
  | .server => []

/-- The tunnel when both ends have entered their event loops. -/
def start (nonce : CInt) (clientUdp clientTun serverUdp serverTun : ℤ) : Tunnel where
  loop
    | .client => End.client.eventLoop clientUdp clientTun
    | .server => End.server.eventLoop serverUdp serverTun
  sent := hello nonce

/-- A UDP socket reads only datagrams that the other end has sent, each of them whole: it has
no more than the 4096 bytes that libevent reads at once. -/
def deliverable (t : Tunnel) (e : End) : Event → Bool
  | .read .udp packet => packet ∈ t.sent e.peer
  | _ => true

/-- The datagrams sent by an end after an event at it. -/
def sentAfter (sent : List (List UInt8)) : Event → List (List UInt8)
  | .write .udp bytes => sent ++ [bytes]
  | _ => sent

/-- One event at one end. -/
def step (t : Tunnel) : End × Event → Option Tunnel
  | (e, ev) =>
    if t.deliverable e ev then
      ((t.loop e).step e.callbacks ev).map fun l =>
        ⟨Function.update t.loop e l, Function.update t.sent e (sentAfter (t.sent e) ev)⟩
    else none

/-- A step of the tunnel is a step of one end that the network allows. -/
theorem step_eq_some {t t' : Tunnel} {e : End} {ev : Event} :
    t.step (e, ev) = some t' ↔ t.deliverable e ev ∧ ∃ l, (t.loop e).step e.callbacks ev = some l ∧
      t' = ⟨Function.update t.loop e l, Function.update t.sent e (sentAfter (t.sent e) ev)⟩ := by
  simp only [step, Option.ite_none_right_eq_some, Option.map_eq_some_iff, eq_comm (a := t')]

/-- The events of a run that happen at end `e`. -/
def eventsAt (e : End) (tr : List (End × Event)) : List Event :=
  tr.flatMap fun a => if a.1 = e then [a.2] else []

/-- The packets read from descriptor `d` of end `e`, one for each `read`. -/
def packetsRead (e : End) (d : Side) (tr : List (End × Event)) : List (List UInt8) :=
  EventLoop.packetsRead d (eventsAt e tr)

/-- The byte strings written to descriptor `d` of end `e`, one for each `write`. -/
def writes (e : End) (d : Side) (tr : List (End × Event)) : List (List UInt8) :=
  EventLoop.writes d (eventsAt e tr)

/-- The step appends only to an empty buffer: a packet is read when the input buffer
of its descriptor is empty, and what was read is handed over when the output buffer
opposite is. -/
def AppendsToEmpty (t : Tunnel) : End × Event → Prop
  | (e, .read d _) => ((t.loop e).bev d).input = []
  | (e, .readcb d) => ((t.loop e).bev d.other).output = [] ∨ ((t.loop e).bev d).input = []
  | _ => True

instance (t : Tunnel) : ∀ a, Decidable (AppendsToEmpty t a)
  | (e, .read d _) => inferInstanceAs (Decidable (((t.loop e).bev d).input = []))
  | (e, .readcb d) => inferInstanceAs (Decidable
      (((t.loop e).bev d.other).output = [] ∨ ((t.loop e).bev d).input = []))
  | (_, .write ..) | (_, .fault ..) | (_, .tcpClose) | (_, .tunClose) | (_, .tcpEvent) =>
    isTrue trivial

/-- Every byte string written to a descriptor is one packet read from the opposite
descriptor, and they come in the same order. -/
def KeepsBoundaries (tr : List (End × Event)) : Prop :=
  ∀ e d, writes e d.other tr <+: packetsRead e d tr

variable {t u : Tunnel} {tr : List (End × Event)}

/-- The writes along two traces, one after the other. -/
@[simp] theorem writes_append (e : End) (d : Side) (tr₁ tr₂ : List (End × Event)) :
    writes e d (tr₁ ++ tr₂) = writes e d tr₁ ++ writes e d tr₂ := by
  simp [writes, eventsAt, EventLoop.writes, List.flatMap_append, List.filterMap_append]

/-- The packets read along two traces, one after the other. -/
@[simp] theorem packetsRead_append (e : End) (d : Side) (tr₁ tr₂ : List (End × Event)) :
    packetsRead e d (tr₁ ++ tr₂) = packetsRead e d tr₁ ++ packetsRead e d tr₂ := by
  simp [packetsRead, eventsAt, EventLoop.packetsRead, List.flatMap_append, List.filterMap_append]

/-- The network invents nothing: what an end has sent is what it had sent before and what it
wrote to its UDP socket, and what it reads there is something the other end has sent. -/
theorem datagrams_of_run (hrun : run step t tr = some u) (e : End) :
    u.sent e = t.sent e ++ writes e .udp tr ∧
      ∀ p ∈ packetsRead e .udp tr, p ∈ t.sent e.peer ++ writes e.peer .udp tr := by
  revert e
  refine history (I := fun tr u => ∀ e, u.sent e = t.sent e ++ writes e .udp tr ∧
    ∀ p ∈ packetsRead e .udp tr, p ∈ t.sent e.peer ++ writes e.peer .udp tr) ?_ ?_ hrun
  · rintro tr v ⟨e', ev⟩ u hI hstep e
    obtain ⟨hdeliver, l, hl, rfl⟩ := step_eq_some.mp hstep
    constructor
    · by_cases he : e = e'
      · subst he
        have hsent := (hI e).1
        rcases ev with ⟨d, _⟩ | d | ⟨d, _⟩ | _ | _ | _ | _ <;> try cases d
        all_goals simp [sentAfter, hsent, writes, eventsAt, EventLoop.writes]
      · simp [Function.update_of_ne he, (hI e).1, writes, eventsAt, EventLoop.writes, Ne.symm he]
    · intro p hp
      rw [packetsRead_append, List.mem_append] at hp
      rw [writes_append, ← List.append_assoc]
      apply List.mem_append_left
      rcases hp with hp | hp
      · exact (hI e).2 p hp
      · by_cases he : e' = e
        · subst he
          rcases ev with ⟨d, packet⟩ | d | ⟨d, _⟩ | _ | _ | _ | _ <;> try cases d
          all_goals simp [packetsRead, eventsAt, EventLoop.packetsRead] at hp
          subst hp
          rw [← (hI e'.peer).1]
          simpa [deliverable] using hdeliver
        · simp [packetsRead, eventsAt, EventLoop.packetsRead, he] at hp
  · intro e
    simp [writes, packetsRead, eventsAt, EventLoop.writes, EventLoop.packetsRead]

/-- What an event means for the direction that starts at descriptor `d` of end `e`. -/
def labels (e : End) (d : Side) (a : End × Event) : List (Pipeline.Label UInt8) :=
  if a.1 = e then EventLoop.labels d a.2 else []

/-- What a tunnel trace does to one pipeline are the labels of that end's own events. -/
theorem flatMap_labels (e : End) (d : Side) (tr : List (End × Event)) :
    tr.flatMap (labels e d) = (eventsAt e tr).flatMap (EventLoop.labels d) := by
  rw [eventsAt, List.flatMap_assoc]
  congr 1
  funext a
  by_cases h : a.1 = e <;> simp [labels, h]

/-- A step leaves the contexts of both ends as they are. -/
theorem loop_wired_step (e : End) (a : End × Event) (hwired : (t.loop e).Wired)
    (hstep : t.step a = some u) : (u.loop e).Wired := by
  obtain ⟨e', ev⟩ := a
  obtain ⟨_, l, hl, rfl⟩ := step_eq_some.mp hstep
  by_cases he : e = e'
  · subst he
    simpa using hwired.step e.callbacks_onlyForward ev hl
  · simpa [Function.update_of_ne he] using hwired

/-- One step of the tunnel is a run of each of its four pipelines. -/
theorem run_labels (e : End) (d : Side) (a : End × Event) (hwired : (t.loop e).Wired)
    (hstep : t.step a = some u) :
    run Pipeline.step ((t.loop e).pipeline d) (labels e d a) = some ((u.loop e).pipeline d) := by
  obtain ⟨e', ev⟩ := a
  obtain ⟨_, l, hl, rfl⟩ := step_eq_some.mp hstep
  by_cases he : e = e'
  · subst he
    simpa [labels] using EventLoop.run_labels e.callbacks_onlyForward d ev hwired hl
  · simp [labels, Ne.symm he, Function.update_of_ne he]

/-- The condition on a step of the tunnel is that of the four pipelines. -/
theorem appendsToEmpty_iff (t : Tunnel) (a : End × Event) :
    AppendsToEmpty t a ↔ ∀ e d,
      Meets Pipeline.step Pipeline.AppendsToEmpty ((t.loop e).pipeline d) (labels e d a) := by
  obtain ⟨e', ev⟩ := a
  constructor
  · intro h e d
    by_cases he : e' = e
    · subst he
      cases ev with
      | read d' packet =>
        by_cases hd : d' = d
        · subst hd
          simp only [labels, EventLoop.labels, if_true]
          exact ⟨h, fun _ _ => trivial⟩
        · simp [labels, EventLoop.labels, hd, Meets]
      | readcb d' =>
        by_cases hd : d' = d
        · subst hd
          simp only [labels, EventLoop.labels, if_true]
          exact ⟨h, fun _ _ => trivial⟩
        · simp [labels, EventLoop.labels, hd, Meets]
      | write d' bytes =>
        by_cases hd : d' = d.other <;>
          simp [labels, EventLoop.labels, hd, Meets, Pipeline.AppendsToEmpty]
      | _ => simp [labels, EventLoop.labels, Meets]
    · simp [labels, he, Meets]
  · intro h
    cases ev with
    | read d' packet =>
      have hd := h e' d'
      simp only [labels, EventLoop.labels, if_true] at hd
      exact hd.1
    | readcb d' =>
      have hd := h e' d'
      simp only [labels, EventLoop.labels, if_true] at hd
      exact hd.1
    | _ => trivial

/-- Both ends start with each bufferevent as the other's context. -/
theorem start_wired (nonce : CInt) (clientUdp clientTun serverUdp serverTun : ℤ) (e : End) :
    ((start nonce clientUdp clientTun serverUdp serverTun).loop e).Wired := by
  cases e <;> exact End.eventLoop_wired _ _ _

/-- All four pipelines start empty. -/
theorem start_pipeline (nonce : CInt) (clientUdp clientTun serverUdp serverTun : ℤ) (e : End)
    (d : Side) :
    ((start nonce clientUdp clientTun serverUdp serverTun).loop e).pipeline d = Pipeline.empty := by
  cases e <;> cases d <;> rfl

section FromStart

variable {nonce : CInt} {clientUdp clientTun serverUdp serverTun : ℤ}

/-- A run of the tunnel is a run of each of its four pipelines. -/
theorem run_pipeline (e : End) (d : Side)
    (hrun : run step (start nonce clientUdp clientTun serverUdp serverTun) tr = some t) :
    run Pipeline.step Pipeline.empty ((eventsAt e tr).flatMap (EventLoop.labels d)) =
      some ((t.loop e).pipeline d) := by
  rw [← flatMap_labels, ← start_pipeline nonce clientUdp clientTun serverUdp serverTun e d]
  exact run_project (f := fun t : Tunnel => (t.loop e).pipeline d)
    (I := fun t => (t.loop e).Wired) (fun _ a _ => loop_wired_step e a)
    (fun _ a _ => run_labels e d a) (start_wired _ _ _ _ _ e) hrun

/-- The steps of a run append to empty buffers exactly when those of its pipelines do. -/
theorem meets_iff_forall_pipeline
    (hrun : run step (start nonce clientUdp clientTun serverUdp serverTun) tr = some t) :
    Meets step AppendsToEmpty (start nonce clientUdp clientTun serverUdp serverTun) tr ↔
      ∀ e d, Meets Pipeline.step Pipeline.AppendsToEmpty Pipeline.empty
        ((eventsAt e tr).flatMap (EventLoop.labels d)) := by
  have hproject (e : End) (d : Side) :=
    meets_flatMap (C := Pipeline.AppendsToEmpty) (f := fun t : Tunnel => (t.loop e).pipeline d)
      (I := fun t => (t.loop e).Wired) (fun _ a _ => loop_wired_step e a)
      (fun _ a _ => run_labels e d a) (start_wired _ _ _ _ _ e) hrun
  simp only [flatMap_labels, start_pipeline] at hproject
  simp only [hproject, ← meets_forall_iff, ← appendsToEmpty_iff]

/-- Packet boundaries survive a run all of whose steps append to empty buffers. -/
theorem keepsBoundaries_of_appendsToEmpty
    (hmeets : Meets step AppendsToEmpty (start nonce clientUdp clientTun serverUdp serverTun) tr)
    (hrun : run step (start nonce clientUdp clientTun serverUdp serverTun) tr = some t) :
    KeepsBoundaries tr := by
  intro e d
  have hempty := (meets_iff_forall_pipeline hrun).mp hmeets e d
  have h := Pipeline.puts_eq_of_appendsToEmpty hempty (run_pipeline e d hrun)
  rw [EventLoop.puts_labels, EventLoop.flushes_labels, List.append_assoc] at h
  exact ⟨_, h.symm⟩

/-- An IPv4 header without payload, from the phone to the server. -/
def probe (id : UInt8) : List UInt8 :=
  [0x45, 0, 0, 20, 0, id, 0, 0, 64, 17, 0, 0, 10, 0, 0, 2, 10, 0, 0, 1]

/-- One packet crosses the tunnel. -/
def onePacket : List (End × Event) :=
  [(.client, .read .tun (probe 1)), (.client, .readcb .tun), (.client, .write .udp (probe 1)),
    (.server, .read .udp (probe 1)), (.server, .readcb .udp), (.server, .write .tun (probe 1))]

/-- An instance: one packet from TUN to TUN. -/
theorem keepsBoundaries_onePacket : KeepsBoundaries onePacket :=
  keepsBoundaries_of_appendsToEmpty
    (show Meets step AppendsToEmpty (start 7 5 4 6 3) onePacket by decide) rfl

/-- A second packet is handed over while the socket is not writable. -/
def twoPackets : List (End × Event) :=
  [(.client, .read .tun (probe 1)), (.client, .readcb .tun), (.client, .read .tun (probe 2)),
    (.client, .readcb .tun), (.client, .write .udp (probe 1 ++ probe 2))]

/-- The two packets leave the phone as one datagram. -/
theorem not_keepsBoundaries_twoPackets :
    (∃ t, run step (start 7 5 4 6 3) twoPackets = some t) ∧ ¬KeepsBoundaries twoPackets :=
  ⟨⟨_, rfl⟩, fun h => absurd (h .client .tun) (by decide)⟩

/-- Once everything read has been written out, packet boundaries have survived
exactly when every step of the run appended to an empty buffer. -/
theorem keepsBoundaries_iff_of_drained
    (hdrained : ∀ e d, (t.loop e).pipeline d = Pipeline.empty)
    (hrun : run step (start nonce clientUdp clientTun serverUdp serverTun) tr = some t) :
    KeepsBoundaries tr ↔
      Meets step AppendsToEmpty (start nonce clientUdp clientTun serverUdp serverTun) tr := by
  rw [meets_iff_forall_pipeline hrun]
  refine forall_congr' fun e => forall_congr' fun d => ?_
  have hpipe := run_pipeline e d hrun
  rw [hdrained e d] at hpipe
  rw [← Pipeline.flushes_prefix_iff hpipe, EventLoop.puts_labels, EventLoop.flushes_labels]
  rfl

end FromStart

end Tunnel

end HeptaVcn
