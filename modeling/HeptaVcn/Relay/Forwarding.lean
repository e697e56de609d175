import HeptaVcn.Machine.Pipeline
import HeptaVcn.Native.IpReflect
import HeptaVcn.Native.TunnelServer

/-!
# The relay of either end as two pipelines

The client and the server register callbacks of their own with the same effect:
`__on_recv` moves bytes to the other bufferevent, the two error callbacks do
nothing. Under such callbacks each direction of an event loop is a pipeline of
two byte buffers, from the input of one bufferevent to the output of the other.
-/

namespace HeptaVcn

open Machine

namespace EventLoop

/-- `evbuffer_add_buffer` from the input of one bufferevent to the output of the
bufferevent its callback argument names. -/
def forward (l : EventLoop) (d : Side) : EventLoop :=
  (l.modify d fun b => { b with input := [] }).modify (l.bev d).ctx fun b =>
    { b with output := b.output ++ (l.bev d).input }

/-- The callback argument of each bufferevent is the opposite one. -/
def Wired (l : EventLoop) : Prop := ∀ d, (l.bev d).ctx = d.other

end EventLoop

/-- Callbacks that move packets and otherwise leave the loop as it is. -/
structure Callbacks.OnlyForward (cb : Callbacks) : Prop where
  recv : ∀ d l, cb.recv d l = l.forward d
  error : ∀ d f l, cb.error d f l = l
  tcpError : ∀ l, cb.tcpError l = l

/-- The client's callbacks only move whole buffers. -/
theorem IpReflect.callbacks_onlyForward : IpReflect.callbacks.OnlyForward :=
  ⟨fun _ _ => rfl, fun _ _ _ => rfl, fun _ => rfl⟩

/-- The server's callbacks only move whole buffers. -/
theorem TunnelServer.callbacks_onlyForward : TunnelServer.callbacks.OnlyForward :=
  ⟨fun _ _ => rfl, fun _ _ _ => rfl, fun _ => rfl⟩

/-- The two ends of the tunnel. -/
inductive End where
  | client
  | server
  deriving DecidableEq, Repr

/-- The end at the other side of the network. -/
def End.peer : End → End
  | .client => .server
  | .server => .client

/-- The callbacks of each end: those of `ipReflect_start` and those of `process`. -/
def End.callbacks : End → Callbacks
  | .client => IpReflect.callbacks
  | .server => TunnelServer.callbacks

/-- The callbacks of both ends only move whole buffers. -/
theorem End.callbacks_onlyForward (e : End) : e.callbacks.OnlyForward := by
  cases e with
  | client => exact IpReflect.callbacks_onlyForward
  | server => exact TunnelServer.callbacks_onlyForward

/-- The event loop of each end, as it is handed to `event_base_dispatch`. -/
def End.eventLoop : End → (udpFd tunFd : ℤ) → EventLoop
  | .client => IpReflect.eventLoop
  | .server => TunnelServer.eventLoop

/-- Both ends give each bufferevent the other one as its context. -/
theorem End.eventLoop_wired (e : End) (udpFd tunFd : ℤ) : (e.eventLoop udpFd tunFd).Wired :=
  fun d => by cases e <;> cases d <;> rfl

namespace EventLoop

/-- The direction that starts at descriptor `d`. -/
def pipeline (d : Side) (l : EventLoop) : Pipeline UInt8 :=
  ⟨(l.bev d).input, (l.bev d.other).output⟩

/-- What an event means for the direction that starts at descriptor `d`. -/
def labels (d : Side) : Event → List (Pipeline.Label UInt8)
  | .read e packet => if e = d then [.put packet] else []
  | .readcb e => if e = d then [.shift] else []
  | .write e bytes => if e = d.other then [.flush bytes] else []
  | _ => []

/-- The packets read from descriptor `d` during a run. -/
def packetsRead (d : Side) : List Event → List (List UInt8) :=
  List.filterMap fun | .read e packet => if e = d then some packet else none | _ => none

/-- The byte strings written to descriptor `d` during a run, one for each `write`. -/
def writes (d : Side) : List Event → List (List UInt8) :=
  List.filterMap fun | .write e bytes => if e = d then some bytes else none | _ => none

/-- The pipeline takes in the packets that the events read. -/
theorem puts_labels (d : Side) (tr : List Event) :
    Pipeline.puts (tr.flatMap (labels d)) = packetsRead d tr := by
  induction tr with
  | nil => rfl
  | cons e tr ih =>
    rw [List.flatMap_cons, Pipeline.puts_append, ih]
    cases e <;> simp only [labels, packetsRead, List.filterMap_cons] <;> try rfl
    all_goals split <;> simp_all [Pipeline.puts]

/-- The pipeline gives out the writes of the other side. -/
theorem flushes_labels (d : Side) (tr : List Event) :
    Pipeline.flushes (tr.flatMap (labels d)) = writes d.other tr := by
  induction tr with
  | nil => rfl
  | cons e tr ih =>
    rw [List.flatMap_cons, Pipeline.flushes_append, ih]
    cases e <;> simp only [labels, writes, List.filterMap_cons] <;> try rfl
    all_goals split <;> simp_all [Pipeline.flushes]

variable {cb : Callbacks} {l l' : EventLoop} {tr : List Event}

/-- A modification that keeps the contexts keeps the one of either side. -/
theorem ctx_modify (l : EventLoop) (d d' : Side) {f : Bufferevent → Bufferevent}
    (hf : ∀ b, (f b).ctx = b.ctx) : ((l.modify d f).bev d').ctx = (l.bev d').ctx := by
  rcases d.eq_or_eq_other d' with rfl | rfl <;> simp [hf]

/-- No event rewires the callbacks. -/
theorem Wired.step (hcb : cb.OnlyForward) (e : Event) (hwired : l.Wired)
    (hstep : l.step cb e = some l') : l'.Wired := by
  obtain ⟨_, rfl⟩ := step_eq_some.mp hstep
  intro d
  rw [← hwired d]
  cases e with
  | read => simp [after, ctx_modify]
  | readcb => simp [after, hcb.recv, forward, ctx_modify]
  | write => simp [after, ctx_modify]
  | fault d' f => cases f <;> simp [after, hcb.error, disable, ctx_modify]
  | tcpClose => simp [after]
  | tunClose => simp [after]
  | tcpEvent => simp [after, hcb.tcpError]

/-- Each event of a relay is its labels' worth of steps of either pipeline. -/
theorem run_labels (hcb : cb.OnlyForward) (d : Side) (e : Event) (hwired : l.Wired)
    (hstep : l.step cb e = some l') :
    run Pipeline.step (l.pipeline d) (labels d e) = some (l'.pipeline d) := by
  obtain ⟨henabled, rfl⟩ := step_eq_some.mp hstep
  cases e with
  | read d' packet =>
    simp only [enabled, Bool.and_eq_true, decide_eq_true_eq] at henabled
    have hne : packet ≠ [] := henabled.2
    rcases d.eq_or_eq_other d' with rfl | rfl <;>
      simp [labels, after, pipeline, Pipeline.step, hne]
  | readcb d' =>
    have hctx := hwired d'
    rcases d.eq_or_eq_other d' with rfl | rfl <;>
      simp [labels, after, hcb.recv, forward, hctx, pipeline, Pipeline.step]
  | write d' bytes =>
    simp only [enabled, Bool.and_eq_true, decide_eq_true_eq] at henabled
    obtain ⟨⟨_, rfl⟩, hne⟩ := henabled
    rcases d.eq_or_eq_other d' with rfl | rfl
    · simp [labels, after, pipeline]
    · simp [labels, after, pipeline, Pipeline.step, hne]
  | fault d' f =>
    rcases d.eq_or_eq_other d' with rfl | rfl <;> cases f <;>
      simp [labels, after, hcb.error, disable, pipeline]
  | tcpClose => simp [labels, after, pipeline]
  | tunClose => simp [labels, after, pipeline]
  | tcpEvent => simp [labels, after, hcb.tcpError, pipeline]

/-- A run of a relay is a run of the pipeline in either direction. -/
theorem run_pipeline (hcb : cb.OnlyForward) (d : Side) (hwired : l.Wired)
    (hrun : run (step cb) l tr = some l') :
    run Pipeline.step (l.pipeline d) (tr.flatMap (labels d)) = some (l'.pipeline d) :=
  run_project (fun _ _ _ => Wired.step hcb _) (fun _ e _ => run_labels hcb d e) hwired hrun

end EventLoop

end HeptaVcn
