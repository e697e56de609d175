import HeptaVcn.Relay.Integrity

/-!
# What a relay can still deliver

No byte gets stuck in a relay, even where each `write` takes only a part of the output
buffer: callbacks and writes go on until all that was read on one side has been written to
the other one. Only a writer that has failed, or a TUN descriptor that was closed under the
loop, keeps it back, and that for good.
-/

namespace HeptaVcn

open Machine

namespace EventLoop

/-! ## Writes that take a part of the output -/

/-- Like `enabled`, but a `write` takes any beginning of the output buffer: the descriptor has
room for no more, or libevent offers it no more at once. -/
def enabledPartly (l : EventLoop) : Event → Bool
  | .write d bytes =>
    !l.loopbreak && (l.bev d).writeEnabled && l.descriptorOpen d &&
      bytes.isPrefixOf (l.bev d).output && bytes ≠ []
  | e => l.enabled e

/-- Like `after`, but a `write` leaves what it did not take in the output buffer. -/
def afterPartly (cb : Callbacks) (l : EventLoop) : Event → EventLoop
  | .write d bytes => l.modify d fun b => { b with output := b.output.drop bytes.length }
  | e => l.after cb e

/-- One step of a loop whose writes may be partial. -/
def stepPartly (cb : Callbacks) (l : EventLoop) (e : Event) : Option EventLoop :=
  if l.enabledPartly e then some (l.afterPartly cb e) else none

/-- The writer of descriptor `d` is still in use. -/
def CanWrite (d : Side) (tr : List Event) : Prop :=
  .fault d .writeError ∉ tr ∧ (d = .tun → .tunClose ∉ tr)

/-- An event that carries bytes on from descriptor `d` to the opposite one. -/
def Drains (d : Side) : Event → Prop
  | .readcb d' => d' = d
  | .write d' _ => d' = d.other
  | _ => False

/-- The bytes that have been read from descriptor `d` and still wait. -/
def waiting (d : Side) (l : EventLoop) : ℕ :=
  (l.bev d.other).output.length + (l.bev d).input.length

variable {cb : Callbacks} {l l' : EventLoop} {tr : List Event} {e : Event} {d : Side}

/-- A partial write takes some bytes from the front of the output buffer. -/
theorem stepPartly_write_eq_some {bytes : List UInt8} :
    l.stepPartly cb (.write d bytes) = some l' ↔
      l.loopbreak = false ∧ (l.bev d).writeEnabled = true ∧ l.descriptorOpen d = true ∧
        bytes ≠ [] ∧ ∃ rest, (l.bev d).output = bytes ++ rest ∧
          l' = l.modify d fun b => { b with output := rest } := by
  simp only [stepPartly, enabledPartly, afterPartly, Option.ite_none_right_eq_some,
    Option.some.injEq, Bool.and_eq_true, Bool.not_eq_true', decide_eq_true_eq,
    List.isPrefixOf_iff_prefix]
  constructor
  · rintro ⟨⟨⟨⟨⟨hbreak, hwrite⟩, hopen⟩, rest, hrest⟩, hne⟩, rfl⟩
    refine ⟨hbreak, hwrite, hopen, hne, rest, hrest.symm, ?_⟩
    cases d <;> simp only [bev] at hrest <;> simp [modify, ← hrest]
  · rintro ⟨hbreak, hwrite, hopen, hne, rest, hrest, rfl⟩
    refine ⟨⟨⟨⟨⟨hbreak, hwrite⟩, hopen⟩, rest, hrest.symm⟩, hne⟩, ?_⟩
    cases d <;> simp only [bev] at hrest <;> simp [modify, hrest]

/-- Every other event is the same with and without partial writes. -/
theorem stepPartly_of_ne_write (hne : ∀ d bytes, e ≠ .write d bytes) :
    l.stepPartly cb e = l.step cb e := by
  cases e with
  | write d bytes => exact absurd rfl (hne d bytes)
  | _ => rfl

/-- A queued callback runs. -/
theorem stepPartly_readcb_eq_some :
    l.stepPartly cb (.readcb d) = some l' ↔
      (l.loopbreak = false ∧ (l.bev d).readcbPending = true) ∧ l' = l.after cb (.readcb d) := by
  rw [stepPartly_of_ne_write (by simp), step_eq_some]
  simp [enabled]

/-- A `write` of the whole output buffer is one of the partial ones. -/
theorem stepPartly_of_step (hstep : l.step cb e = some l') : l.stepPartly cb e = some l' := by
  cases e with
  | write d bytes =>
    obtain ⟨henabled, rfl⟩ := step_eq_some.mp hstep
    simp only [enabled, Bool.and_eq_true, Bool.not_eq_true', decide_eq_true_eq] at henabled
    obtain ⟨⟨⟨⟨hbreak, hwrite⟩, hopen⟩, rfl⟩, hne⟩ := henabled
    exact stepPartly_write_eq_some.mpr ⟨hbreak, hwrite, hopen, hne, [], by simp, rfl⟩
  | _ => exact hstep

/-- A run whose writes are whole is a run of the loop with partial ones. -/
theorem run_partly_of_run (hrun : run (step cb) l tr = some l') :
    run (stepPartly cb) l tr = some l' :=
  history (I := fun tr l' => run (stepPartly cb) l tr = some l')
    (fun _ _ _ _ hI hstep => run_concat hI (stepPartly_of_step hstep)) rfl hrun

/-! ## What the state records -/

/-- Modifying a bufferevent does not close the TUN descriptor. -/
@[simp] theorem tunClosed_modify (l : EventLoop) (d : Side) (f : Bufferevent → Bufferevent) :
    (l.modify d f).tunClosed = l.tunClosed := by cases d <;> rfl

/-- The TUN descriptor is closed only by the kernel. -/
theorem tunClosed_step (hcb : cb.OnlyForward) (hstep : l.step cb e = some l') :
    l'.tunClosed = true ↔ l.tunClosed = true ∨ e = .tunClose := by
  obtain ⟨_, rfl⟩ := step_eq_some.mp hstep
  cases e <;> simp [after, hcb.recv, hcb.error, hcb.tcpError, forward]

/-- What waits in the two buffers of a direction grows by what is read, unless some of it is
written. -/
theorem buffers_step (hcb : cb.OnlyForward) (hwired : l.Wired)
    (hne : ∀ d bytes, e ≠ .write d bytes) (hstep : l.step cb e = some l') (d : Side) :
    (l'.bev d.other).output ++ (l'.bev d).input =
      (l.bev d.other).output ++ (l.bev d).input ++ (packetsRead d [e]).flatten := by
  obtain ⟨_, rfl⟩ := step_eq_some.mp hstep
  cases e with
  | read d' packet =>
    rcases d.eq_or_eq_other d' with rfl | rfl <;> simp [after, packetsRead]
  | readcb d' =>
    have hctx := hwired d'
    rcases d.eq_or_eq_other d' with rfl | rfl <;>
      simp [after, hcb.recv, forward, hctx, packetsRead]
  | write d' bytes => exact absurd rfl (hne d' bytes)
  | fault d' f =>
    rcases d.eq_or_eq_other d' with rfl | rfl <;> cases f <;>
      simp [after, hcb.error, disable, packetsRead]
  | tcpClose => simp [after, packetsRead]
  | tunClose => simp [after, packetsRead]
  | tcpEvent => simp [after, hcb.tcpError, packetsRead]

/-- What the state of a relay with partial writes says about the events behind it. -/
structure Relayed (tr : List Event) (l : EventLoop) : Prop where
  wired : l.Wired
  running : l.loopbreak = false
  recorded : Recorded tr l
  tunClosed : l.tunClosed = true ↔ .tunClose ∈ tr
  /-- What was written and what waits is what was read. -/
  conserved : ∀ d, (packetsRead d tr).flatten =
    (writes d.other tr).flatten ++ (l.bev d.other).output ++ (l.bev d).input

/-- A partial write moves bytes from the output buffer to what was written. -/
theorem Relayed.write (h : Relayed tr l) {bytes rest : List UInt8}
    (houtput : (l.bev d).output = bytes ++ rest) :
    Relayed (tr ++ [.write d bytes]) (l.modify d fun b => { b with output := rest }) where
  wired d' := by
    rw [← h.wired d']
    exact ctx_modify l d d' fun _ => rfl
  running := by simpa using h.running
  recorded := by
    obtain ⟨hevTcp, hread, hwrite, hinput⟩ := h.recorded
    refine ⟨by simp [hevTcp], fun d' => ?_, fun d' => ?_, fun d' => ?_⟩ <;>
      rcases d.eq_or_eq_other d' with rfl | rfl <;> simp [readEnded_append, hread, hwrite, hinput]
  tunClosed := by simp [h.tunClosed]
  conserved d' := by
    have hconserved := h.conserved d'
    simp only [packetsRead, writes] at hconserved ⊢
    rcases d.eq_or_eq_other d' with rfl | rfl
    · simp [hconserved]
    · simp [hconserved, houtput]

/-- Every event leaves its mark on the state. -/
theorem Relayed.step (hcb : cb.OnlyForward) (h : Relayed tr l)
    (hstep : l.stepPartly cb e = some l') : Relayed (tr ++ [e]) l' := by
  by_cases hwrite : ∃ d bytes, e = .write d bytes
  case pos =>
    obtain ⟨d, bytes, rfl⟩ := hwrite
    obtain ⟨_, _, _, _, rest, houtput, rfl⟩ := stepPartly_write_eq_some.mp hstep
    exact h.write houtput
  case neg =>
    have hne : ∀ d bytes, e ≠ .write d bytes := fun d bytes he => hwrite ⟨d, bytes, he⟩
    rw [stepPartly_of_ne_write hne] at hstep
    refine ⟨h.wired.step hcb e hstep, (loopbreak_step hcb hstep).trans h.running,
      h.recorded.step hcb h.wired hstep, ?_, fun d => ?_⟩
    · rw [tunClosed_step hcb hstep, h.tunClosed, List.mem_append, List.mem_singleton,
        eq_comm (a := e)]
    · have hread : packetsRead d (tr ++ [e]) = packetsRead d tr ++ packetsRead d [e] :=
        List.filterMap_append
      have hwritten : writes d.other (tr ++ [e]) = writes d.other tr := by
        simp only [writes, List.filterMap_append, List.append_right_eq_self]
        cases e with
        | write d' bytes => exact absurd rfl (hne d' bytes)
        | _ => rfl
      rw [hread, hwritten, List.flatten_append, h.conserved, List.append_assoc _ (bev l' _).output,
        buffers_step hcb h.wired hne hstep d]
      simp

/-- Nothing waits exactly when all that was read has been written. -/
theorem Relayed.delivered_iff (h : Relayed tr l) (d : Side) :
    Delivered d tr ↔ (l.bev d.other).output = [] ∧ (l.bev d).input = [] := by
  rw [Delivered, h.conserved d, List.append_assoc, List.self_eq_append_right,
    List.append_eq_nil_iff]

/-- The state knows whether a writer is in use. -/
theorem Relayed.canWrite_iff (h : Relayed tr l) (d : Side) :
    CanWrite d tr ↔ (l.bev d).writeEnabled = true ∧ l.descriptorOpen d = true := by
  rw [CanWrite, h.recorded.write, ← h.tunClosed]
  cases d <;> simp [descriptorOpen]

/-! ## Draining one direction -/

/-- What callbacks and writes of a direction use up: a write makes the waiting bytes fewer, and
a callback is not pending any more once it has run. -/
def remaining (d : Side) (l : EventLoop) : ℕ :=
  waiting d l + if (l.bev d).readcbPending then 1 else 0

/-- Every event that drains a direction leaves less to do. -/
theorem remaining_step (hcb : cb.OnlyForward) (hwired : l.Wired) (hdrains : Drains d e)
    (hstep : l.stepPartly cb e = some l') : remaining d l' < remaining d l := by
  cases e with
  | readcb d' =>
    obtain rfl : d' = d := hdrains
    obtain ⟨⟨_, hpending⟩, rfl⟩ := stepPartly_readcb_eq_some.mp hstep
    simp [remaining, waiting, after, hcb.recv, forward, hwired d', hpending]
  | write d' bytes =>
    obtain rfl : d' = d.other := hdrains
    obtain ⟨_, _, _, hne, rest, houtput, rfl⟩ := stepPartly_write_eq_some.mp hstep
    have hpos := List.length_pos_iff.mpr hne
    simp only [remaining, waiting, bev_modify_self, bev_modify_of_other, houtput,
      List.length_append]
    omega
  | _ => exact hdrains.elim

/-- While something waits and the writer is in use, a callback or a write is enabled. -/
theorem Relayed.exists_drains (h : Relayed tr l) (hcan : CanWrite d.other tr)
    (hwaiting : ¬Delivered d tr) : ∃ e l', Drains d e ∧ l.stepPartly cb e = some l' := by
  obtain ⟨hwrite, hopen⟩ := (h.canWrite_iff d.other).mp hcan
  by_cases hinput : (l.bev d).input = []
  · have houtput : (l.bev d.other).output ≠ [] := fun houtput =>
      hwaiting ((h.delivered_iff d).mpr ⟨houtput, hinput⟩)
    exact ⟨.write d.other (l.bev d.other).output, _, rfl,
      stepPartly_write_eq_some.mpr ⟨h.running, hwrite, hopen, houtput, [], by simp, rfl⟩⟩
  · have hpending := (h.recorded.input d).mpr hinput
    exact ⟨.readcb d, _, rfl, stepPartly_readcb_eq_some.mpr ⟨⟨h.running, hpending⟩, rfl⟩⟩

/-- Draining a direction neither breaks a writer nor closes a descriptor. -/
theorem CanWrite.append_drains {tr' : List Event} (hcan : CanWrite d.other tr)
    (hdrains : ∀ e ∈ tr', Drains d e) : CanWrite d.other (tr ++ tr') := by
  obtain ⟨hfault, hclose⟩ := hcan
  constructor
  · intro hmem
    rcases List.mem_append.mp hmem with hmem | hmem
    · exact hfault hmem
    · exact hdrains _ hmem
  · intro htun hmem
    rcases List.mem_append.mp hmem with hmem | hmem
    · exact hclose htun hmem
    · exact hdrains _ hmem

/-- Draining a direction takes one event for each byte that waits in it at most, and one more
for the callback. -/
theorem Relayed.length_le_waiting (hcb : cb.OnlyForward) (h : Relayed tr l) {tr' : List Event}
    (hdrains : ∀ ev ∈ tr', Drains d ev) (hrun : run (stepPartly cb) l tr' = some l') :
    tr'.length ≤ waiting d l + 1 := by
  have hlength : tr'.length + remaining d l' ≤ remaining d l := by
    refine length_add_le_of_measure (I := fun l => ∃ tr, Relayed tr l) (L := Drains d) ?_ ?_
      ⟨tr, h⟩ hdrains hrun
    · rintro l ev l' ⟨tr, h⟩ _ hstep
      exact ⟨tr ++ [ev], h.step hcb hstep⟩
    · rintro l ev l' ⟨tr, h⟩ hdrains hstep
      exact remaining_step hcb h.wired hdrains hstep
  have hle : remaining d l ≤ waiting d l + 1 := by
    unfold remaining
    split <;> omega
  omega

/-! ## Whole runs -/

section FromStart

variable {e : End} {udpFd tunFd : ℤ}

/-- The loop of either end keeps track of what it has relayed, in every run. -/
theorem relayed_run (hrun : run (stepPartly e.callbacks) (e.eventLoop udpFd tunFd) tr = some l) :
    Relayed tr l := by
  refine history (I := Relayed) (fun _ _ _ _ h hstep => h.step e.callbacks_onlyForward hstep) ?_
    hrun
  refine ⟨e.eventLoop_wired udpFd tunFd, ?_, recorded_start e udpFd tunFd, ?_, fun d => ?_⟩
  · cases e <;> rfl
  · cases e <;> simp [End.eventLoop, IpReflect.eventLoop, TunnelServer.eventLoop]
  · cases e <;> cases d <;> rfl

/-- A writer that is no longer in use writes nothing more. -/
theorem writes_of_not_canWrite
    (hrun : run (stepPartly e.callbacks) (e.eventLoop udpFd tunFd) tr = some l)
    (hstuck : ¬CanWrite d tr) {tr' : List Event}
    (hrun' : run (stepPartly e.callbacks) l tr' = some l') :
    writes d (tr ++ tr') = writes d tr := by
  have hnone : writes d tr' = [] := by
    refine List.filterMap_eq_nil_iff.mpr fun ev hev => ?_
    cases ev with
    | write d' bytes =>
      refine if_neg ?_
      rintro rfl
      obtain ⟨tr₁, tr₂, rfl⟩ := List.append_of_mem hev
      obtain ⟨l₁, hrun₁, hrun₂⟩ := run_append_eq_some.mp hrun'
      obtain ⟨l₂, hstep, _⟩ := Option.bind_eq_some_iff.mp hrun₂
      have hrelayed := relayed_run (run_append_eq_some.mpr ⟨l, hrun, hrun₁⟩)
      obtain ⟨_, hwrite, hopen, _⟩ := stepPartly_write_eq_some.mp hstep
      obtain ⟨hfault, hclose⟩ := (hrelayed.canWrite_iff d').mpr ⟨hwrite, hopen⟩
      exact hstuck ⟨fun hmem => hfault (List.mem_append_left _ hmem),
        fun htun hmem => hclose htun (List.mem_append_left _ hmem)⟩
    | _ => rfl
  have happend : writes d (tr ++ tr') = writes d tr ++ writes d tr' := List.filterMap_append
  rw [happend, hnone, List.append_nil]

/-- In every state of a relay, and in either direction: as long as the writer is in use,
callbacks and writes deliver all that has been read, whatever part of its output each write
takes; there are at most as many of them as bytes wait, and one more, and one is enabled
until then. Once the writer is not in use, nothing more is written, whatever happens. -/
theorem delivers_or_never
    (hrun : run (stepPartly e.callbacks) (e.eventLoop udpFd tunFd) tr = some l) (d : Side) :
    (CanWrite d.other tr → ∀ tr' l', (∀ ev ∈ tr', Drains d ev) →
      run (stepPartly e.callbacks) l tr' = some l' → tr'.length ≤ waiting d l + 1 ∧
        (¬Delivered d (tr ++ tr') →
          ∃ ev l'', Drains d ev ∧ stepPartly e.callbacks l' ev = some l'')) ∧
    (¬CanWrite d.other tr → ∀ tr' l', run (stepPartly e.callbacks) l tr' = some l' →
      writes d.other (tr ++ tr') = writes d.other tr) := by
  refine ⟨fun hcan tr' l' hdrains hrun' => ⟨?_, fun hwaiting => ?_⟩,
    fun hstuck tr' l' hrun' => writes_of_not_canWrite hrun hstuck hrun'⟩
  · exact (relayed_run hrun).length_le_waiting e.callbacks_onlyForward hdrains hrun'
  · have hrelayed := relayed_run (run_append_eq_some.mpr ⟨l, hrun, hrun'⟩)
    exact hrelayed.exists_drains (hcan.append_drains hdrains) hwaiting

/-- Two packets have been read, and a part of the first one has been written. -/
def partWritten : List Event :=
  [.read .tun [0x45, 0x46], .readcb .tun, .write .udp [0x45], .read .tun [0x47]]

/-- An instance: part of a packet has been written when the next one is read. -/
theorem delivers_or_never_partWritten :
    ∃ l, run (stepPartly End.client.callbacks) (End.client.eventLoop 5 4) partWritten = some l ∧
      ∃ l', run (stepPartly End.client.callbacks) l [.readcb .tun] = some l' ∧
        1 ≤ waiting .tun l + 1 ∧ (¬Delivered .tun (partWritten ++ [.readcb .tun]) →
          ∃ ev l'', Drains .tun ev ∧ stepPartly End.client.callbacks l' ev = some l'') :=
  ⟨_, rfl, _, rfl, (delivers_or_never (e := .client) rfl .tun).1 ⟨by decide, by simp⟩
    [.readcb .tun] _ (by simp [Drains]) rfl⟩

end FromStart

end EventLoop

end HeptaVcn
