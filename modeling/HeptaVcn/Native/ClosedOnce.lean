import HeptaVcn.Native.SessionThreads

/-!
# Who closes the descriptors of a session

Once the control socket has been created, `ipReflect_start` closes it and
`NativeStartVpn` shuts its number down again. A session therefore ends with every
descriptor closed once, and no other number touched, exactly when `socket` failed and no
`stop` has shut down what an earlier session left in `tcp_control_sock_fd`.
-/

namespace HeptaVcn

open Machine

/-! ## The table -/

namespace Descriptors

variable {s : Descriptors} {fd : ℤ}

/-- The only descriptor of the session is the one of the TUN, open until `NetInterface` is
closed. -/
structure OnlyTun (s : Descriptors) : Prop where
  only : ∀ role fd, s.numbers role = some fd → role = .tun ∧ 0 ≤ fd
  table : ∀ fd role, s.table fd = some (.session role) ↔
    role = .tun ∧ s.numbers .tun = some fd ∧ s.netInterface = true
  closes : s.closes .tun = if s.netInterface then 0 else 1

/-- Every number but that of the open TUN denotes no descriptor of the session. -/
theorem OnlyTun.stray_iff (h : s.OnlyTun) :
    s.Stray fd ↔ 0 ≤ fd ∧ ¬(s.numbers .tun = some fd ∧ s.netInterface = true) := by
  refine and_congr_right fun _ => ?_
  constructor
  · intro hnone hopen
    exact hnone .tun ((h.table fd .tun).mpr ⟨rfl, hopen⟩)
  · intro hclosed role htable
    exact hclosed ((h.table fd role).mp htable).2

/-- A number that is used is a stray when it denotes no descriptor of the session. -/
theorem strays_use : (s.use fd).strays = [] ↔ s.strays = [] ∧ ¬s.Stray fd := by
  unfold use
  by_cases h : s.Stray fd <;> simp [h]

end Descriptors

open Descriptors

/-- What the phase of the control socket says about the table. -/
def ControlPhase.Holds (s : Descriptors) : ControlPhase → Prop
  | .fresh => s.OnlyTun
  | .opened fd => 0 ≤ fd
  | .shut fd => s.Stray fd
  | .struck => s.strays ≠ []

namespace ControlPhase.Holds

variable {s : Descriptors} {phase : ControlPhase} {fd : ℤ}

/-- Using a number can only add a stray one, which no phase minds. -/
theorem use (h : phase.Holds s) (fd : ℤ) : phase.Holds (s.use fd) := by
  cases phase with
  | fresh => exact ⟨h.only, h.table, h.closes⟩
  | opened c => exact h
  | shut c => exact h
  | struck =>
    intro hstrays
    exact h (strays_use.mp hstrays).1

/-- A number is closed; without a control socket it is negative. -/
theorem close (h : phase.Holds s) (hneg : phase = .fresh → fd < 0) :
    (phase.close fd).Holds (s.release fd) := by
  cases phase with
  | fresh =>
    have hne : ∀ role, s.table fd ≠ some (.session role) := by
      intro role htable
      have hpos := (h.only .tun fd ((h.table fd role).mp htable).2.1).2
      have hlt := hneg rfl
      omega
    refine ⟨h.only, fun n role => ?_, ?_⟩
    · by_cases hn : n = fd
      · subst hn
        have hclosed := mt (h.table n role).mpr (hne role)
        simpa [release] using hclosed
      · simp only [release, Function.update_of_ne hn]
        exact h.table n role
    · simp only [release, hne, if_false]
      exact h.closes
  | opened c =>
    by_cases hfd : fd = c
    · subst hfd
      simp only [ControlPhase.close, if_true]
      exact ⟨h, by simp [release]⟩
    · simp only [ControlPhase.close, if_neg hfd]
      exact h
  | shut c =>
    refine ⟨h.1, fun role => ?_⟩
    by_cases hfd : c = fd
    · simp [release, hfd]
    · simp only [release, Function.update_of_ne hfd]
      exact h.2 role
  | struck => exact h

/-- A number is shut down; that of a closed control socket denotes nothing of the session. -/
theorem shutdown (h : phase.Holds s) (fd : ℤ) : (phase.shutdown fd).Holds (s.use fd) := by
  cases phase with
  | fresh => exact h.use fd
  | opened c => exact h.use fd
  | shut c =>
    by_cases hfd : fd = c
    · subst hfd
      simp only [ControlPhase.shutdown, if_true]
      intro hstrays
      exact (strays_use.mp hstrays).2 h
    · simp only [ControlPhase.shutdown, if_neg hfd]
      exact h.use fd
  | struck => exact h.use fd

/-- `NetInterface` is closed by whoever comes first. -/
theorem closeNetInterface (h : phase.Holds s) : phase.Holds s.closeNetInterface := by
  unfold Descriptors.closeNetInterface
  split
  case h_2 => exact h
  case h_1 n hopen htun =>
    have hused := h.use n
    cases phase with
    | fresh =>
      refine ⟨hused.only, fun m role => ?_, ?_⟩
      · by_cases hm : m = n
        · simp [release, hm]
        · have htable := hused.table m role
          have hnumber : (s.use n).numbers .tun = some n := htun
          simp only [release, Function.update_of_ne hm, htable, hnumber]
          simp [Ne.symm hm]
      · have hcloses := hused.closes
        have hnumber : (s.use n).table n = some (.session .tun) :=
          (hused.table n .tun).mpr ⟨rfl, htun, hopen⟩
        have hstill : (s.use n).netInterface = true := hopen
        simp [release, hnumber, hcloses, hstill]
    | opened c => exact hused
    | shut c =>
      refine ⟨hused.1, fun role => ?_⟩
      by_cases hm : c = n
      · simp [release, hm]
      · simp only [release, Function.update_of_ne hm]
        exact hused.2 role
    | struck => exact hused

/-- The table changes at a number that denotes, and comes to denote, nothing of the session. -/
theorem update (h : phase.Holds s) {d : Option Denoted}
    (hbefore : ∀ role, s.table fd ≠ some (.session role))
    (hafter : ∀ role, d ≠ some (.session role)) :
    phase.Holds { s with table := Function.update s.table fd d } := by
  have hsame : ∀ n role, Function.update s.table fd d n = some (.session role) ↔
      s.table n = some (.session role) := by
    intro n role
    by_cases hn : n = fd
    · subst hn
      simp [hbefore role, hafter role]
    · rw [Function.update_of_ne hn]
  cases phase with
  | fresh => exact ⟨h.only, fun n role => (hsame n role).trans (h.table n role), h.closes⟩
  | opened c => exact h
  | shut c => exact ⟨h.1, fun role hrole => h.2 role ((hsame c role).mp hrole)⟩
  | struck => exact h

/-- What the threads still have to do is no part of the table. -/
theorem frame (h : phase.Holds s) {t : Descriptors} (htable : t.table = s.table)
    (hnet : t.netInterface = s.netInterface) (hnumbers : t.numbers = s.numbers)
    (hcloses : t.closes = s.closes) (hstrays : t.strays = s.strays) : phase.Holds t := by
  cases phase with
  | fresh =>
    refine ⟨hnumbers ▸ h.only, ?_, ?_⟩
    · rw [htable, hnet, hnumbers]
      exact h.table
    · rw [hcloses, hnet]
      exact h.closes
  | opened c => exact h
  | shut c => exact ⟨h.1, htable ▸ h.2⟩
  | struck => exact fun hnil => h (hstrays ▸ hnil)

end ControlPhase.Holds

/-! ## Runs -/

/-- What the tunnel thread knows is so. -/
structure ThreadView.Agrees (v : ThreadView) (s : Descriptors) : Prop where
  number : v.tcpControlSockFd = s.tcpControlSockFd
  tun : ∃ fd, s.numbers .tun = some fd
  closed : v.closed = true → s.netInterface = false
  phase : v.phase.Holds s

/-- No control socket has been created, and no stray number has been touched. -/
def ThreadView.Calm (v : ThreadView) (s : Descriptors) : Prop :=
  v.phase = .fresh ∧ s.strays = []

namespace ThreadView.Agrees

variable {v : ThreadView} {s : Descriptors}

/-- A view keeps agreeing when the parts of the state that it describes are unchanged. -/
theorem frame (h : v.Agrees s) {t : Descriptors} (hnumber : t.tcpControlSockFd = s.tcpControlSockFd)
    (htable : t.table = s.table) (hnet : t.netInterface = s.netInterface)
    (hnumbers : t.numbers = s.numbers) (hcloses : t.closes = s.closes)
    (hstrays : t.strays = s.strays) : v.Agrees t where
  number := h.number.trans hnumber.symm
  tun := hnumbers ▸ h.tun
  closed hv := hnet.trans (h.closed hv)
  phase := h.phase.frame htable hnet hnumbers hcloses hstrays

/-- Before the control socket is opened the session's only descriptor is the TUN one. -/
theorem onlyTun (h : v.Agrees s) (hfresh : v.phase = .fresh) : s.OnlyTun := by
  have hphase := h.phase
  rwa [hfresh] at hphase

/-- Using a number that denotes a descriptor of the session, or none at all, leaves no stray. -/
theorem calm_use {w : ThreadView} {fd : ℤ} (hphase : w.phase = .fresh ↔ v.phase = .fresh)
    (hstray : v.phase = .fresh → ¬s.Stray fd) : w.Calm (s.use fd) ↔ v.Calm s := by
  unfold Calm
  rw [strays_use, hphase]
  constructor
  · exact fun ⟨hfresh, hnil, _⟩ => ⟨hfresh, hnil⟩
  · exact fun ⟨hfresh, hnil⟩ => ⟨hfresh, hnil, hstray hfresh⟩

/-- Closing does not lead into or out of the phase before the socket. -/
theorem fresh_close (phase : ControlPhase) (fd : ℤ) : phase.close fd = .fresh ↔ phase = .fresh := by
  cases phase with
  | opened c => simp only [ControlPhase.close]; split <;> simp
  | _ => rfl

/-- Shutting down does not lead into or out of the phase before the socket. -/
theorem fresh_shutdown (phase : ControlPhase) (fd : ℤ) :
    phase.shutdown fd = .fresh ↔ phase = .fresh := by
  cases phase with
  | shut c => simp only [ControlPhase.shutdown]; split <;> simp
  | _ => rfl

/-- A negative number is no stray. -/
theorem not_stray_neg {fd : ℤ} (hneg : v.phase = .fresh → fd < 0) (hfresh : v.phase = .fresh) :
    ¬s.Stray fd :=
  fun hstray => absurd hstray.1 (not_le.mpr (hneg hfresh))

/-- A number that is closed first by `NetInterface` still denotes the TUN, as long as no
control socket has been created. -/
theorem closeNetInterface (h : v.Agrees s) : v.Agrees s.closeNetInterface ∧
    s.closeNetInterface.netInterface = false ∧ (v.Calm s.closeNetInterface ↔ v.Calm s) := by
  obtain ⟨n, htun⟩ := h.tun
  cases hopen : s.netInterface with
  | false =>
    have heq : s.closeNetInterface = s := by
      unfold Descriptors.closeNetInterface
      rw [hopen]
    rw [heq]
    exact ⟨h, hopen, Iff.rfl⟩
  | true =>
    have heq : s.closeNetInterface = { (s.use n).release n with netInterface := false } := by
      unfold Descriptors.closeNetInterface
      rw [hopen, htun]
    have hphase := h.phase.closeNetInterface
    rw [heq] at hphase ⊢
    refine ⟨⟨h.number, h.tun, fun _ => rfl, hphase⟩, rfl, ?_⟩
    apply calm_use Iff.rfl
    intro hfresh hstray
    exact ((h.onlyTun hfresh).stray_iff.mp hstray).2 ⟨htun, hopen⟩

/-- A control socket is created, or not; the session stays calm in the second case only. -/
theorem openControl (h : v.Agrees s) (r : ℤ) :
    let w := if r < 0 then v else { v with phase := .opened r }
    w.Agrees (s.openSocket .stream r) ∧ (w.Calm (s.openSocket .stream r) ↔ v.Calm s ∧ r < 0) := by
  unfold Descriptors.openSocket
  by_cases hneg : r < 0
  · simp only [if_pos hneg]
    exact ⟨h, iff_of_eq (and_iff_left hneg).eq.symm⟩
  · simp only [if_neg hneg]
    refine ⟨⟨h.number, ?_, h.closed, ?_⟩, ?_⟩
    · simpa [SocketType.role] using h.tun
    · exact not_lt.mp hneg
    · exact iff_of_false (fun hcalm => nomatch hcalm.1) fun hcalm => hneg hcalm.2

/-- The UDP socket is created once the control socket is there. -/
theorem openUdp (h : v.Agrees s) {c : ℤ} (hopened : v.phase = .opened c) (r : ℤ) :
    v.Agrees (s.openSocket .dgram r) := by
  have hphase := h.phase
  unfold Descriptors.openSocket
  split
  · exact h
  · refine ⟨h.number, by simpa [SocketType.role] using h.tun, h.closed, ?_⟩
    rw [hopened] at hphase ⊢
    exact hphase

/-- A call of the tunnel thread. -/
theorem thread_after (h : v.Agrees s) {op : Session.Op} (r : Session.Reply op)
    (hdemand : sessionThread.demand v op) :
    (sessionThread.after v op r).Agrees (s.after op r) ∧
      ((sessionThread.after v op r).Calm (s.after op r) ↔
        v.Calm s ∧ s.Harmless (.thread op r)) := by
  cases op with
  | inl op =>
    cases op with
    | socket type =>
      cases type with
      | stream => exact h.openControl r
      | dgram =>
        obtain ⟨c, hopened⟩ := hdemand
        have hnotCalm : ∀ t, ¬v.Calm t := by
          intro t hcalm
          rw [hcalm.1] at hopened
          cases hopened
        exact ⟨h.openUdp hopened r, iff_of_false (hnotCalm _) fun hcalm => hnotCalm _ hcalm.1⟩
    | setControlSock fd =>
      refine ⟨⟨rfl, h.tun, h.closed, h.phase.frame rfl rfl rfl rfl rfl⟩, ?_⟩
      exact (and_iff_left trivial).symm
    | shutdown fd =>
      refine ⟨⟨h.number, h.tun, h.closed, h.phase.shutdown fd⟩, ?_⟩
      refine Iff.trans ?_ ((and_iff_left trivial).symm)
      exact calm_use (fresh_shutdown v.phase fd) (not_stray_neg hdemand)
    | close fd =>
      refine ⟨⟨h.number, h.tun, h.closed, (h.phase.use fd).close hdemand⟩, ?_⟩
      refine Iff.trans ?_ ((and_iff_left trivial).symm)
      exact calm_use (fresh_close v.phase fd) (not_stray_neg hdemand)
    | _ => exact ⟨h, (and_iff_left trivial).symm⟩
  | inr op =>
    cases op with
    | close =>
      obtain ⟨hagrees, hclosed, hcalm⟩ := h.closeNetInterface
      refine ⟨⟨hagrees.number, hagrees.tun, fun _ => hclosed, hagrees.phase⟩, ?_⟩
      exact Iff.trans hcalm ((and_iff_left trivial).symm)
    | _ => exact ⟨h, (and_iff_left trivial).symm⟩

/-- A call of a thread that stops the tunnel. -/
theorem stop_after (h : v.Agrees s) {op : Session.Op} (i : ℕ) (r : Session.Reply op)
    (hdemand : stopThread.demand () op) :
    v.Agrees (s.after op r) ∧
      (v.Calm (s.after op r) ↔ v.Calm s ∧ s.Harmless (.stopping i op r)) := by
  cases op with
  | inl op =>
    cases op with
    | getControlSock => exact ⟨h, (and_iff_left trivial).symm⟩
    | shutdown fd =>
      refine ⟨⟨h.number, h.tun, h.closed, h.phase.use fd⟩, ?_⟩
      change v.phase = .fresh ∧ (s.use fd).strays = [] ↔ (v.phase = .fresh ∧ s.strays = []) ∧
        (0 ≤ fd → s.numbers .tun = some fd ∧ s.netInterface = true)
      rw [strays_use, and_assoc]
      refine and_congr_right fun hfresh => and_congr_right fun _ => ?_
      rw [(h.onlyTun hfresh).stray_iff, not_and, not_not]
    | _ => exact hdemand.elim
  | inr op =>
    cases op with
    | close =>
      obtain ⟨hagrees, _, hcalm⟩ := h.closeNetInterface
      exact ⟨hagrees, Iff.trans hcalm ((and_iff_left trivial).symm)⟩
    | _ => exact hdemand.elim

end ThreadView.Agrees

namespace Descriptors

variable {s t : Descriptors}

/-- The state of a session whose tunnel thread knows `v`. -/
structure Follows (v : ThreadView) (s : Descriptors) : Prop where
  runs : v.Runs s.thread
  stops : ∀ p ∈ s.stops, StopRuns p
  agrees : v.Agrees s

/-- Closing the TUN descriptor in Java touches neither the thread nor the stops. -/
theorem thread_closeNetInterface (s : Descriptors) :
    s.closeNetInterface.thread = s.thread ∧ s.closeNetInterface.stops = s.stops := by
  unfold closeNetInterface
  split <;> exact ⟨rfl, rfl⟩

/-- A call changes nothing of what the threads still have to do. -/
theorem threads_after (s : Descriptors) (op : Session.Op) (r : Session.Reply op) :
    (s.after op r).thread = s.thread ∧ (s.after op r).stops = s.stops := by
  cases op with
  | inl op =>
    cases op with
    | socket type =>
      change (s.openSocket type r).thread = _ ∧ (s.openSocket type r).stops = _
      unfold openSocket
      split <;> exact ⟨rfl, rfl⟩
    | _ => exact ⟨rfl, rfl⟩
  | inr op =>
    cases op with
    | close => exact s.thread_closeNetInterface
    | _ => exact ⟨rfl, rfl⟩

/-- What the tunnel thread may be told is what it knows. -/
theorem admits_of_admits {v : ThreadView} (h : v.Agrees s) {op : Session.Op}
    {r : Session.Reply op} (hr : s.admits op r = true) : sessionThread.admits v op r := by
  cases op with
  | inl op =>
    cases op with
    | getControlSock => exact (of_decide_eq_true hr).trans h.number.symm
    | _ => trivial
  | inr op => trivial

/-- What other threads open and close is none of the session's. -/
theorem Follows.other {v : ThreadView} (h : Follows v s) {fd : ℤ} {d : Option Denoted}
    (hbefore : ∀ role, s.table fd ≠ some (.session role))
    (hafter : ∀ role, d ≠ some (.session role)) :
    Follows v { s with table := Function.update s.table fd d } :=
  ⟨h.runs, h.stops, h.agrees.number, h.agrees.tun, h.agrees.closed,
    h.agrees.phase.update hbefore hafter⟩

/-- One step keeps the descriptors and the thread together, and a calm session stays so by
harmless steps only. -/
theorem Follows.step {v : ThreadView} (h : Follows v s) {a : DescriptorLabel}
    (hstep : s.step a = some t) :
    ∃ w, Follows w t ∧ (w.Calm t ↔ v.Calm s ∧ s.Harmless a) := by
  cases a with
  | thread op r =>
    simp only [Descriptors.step] at hstep
    split at hstep
    case isFalse => cases hstep
    case isTrue hr =>
      obtain ⟨q, hresume, rfl⟩ := Option.map_eq_some_iff.mp hstep
      have hadmits := admits_of_admits h.agrees hr
      obtain ⟨hdemand, hq⟩ := Program.wp_resume h.runs hresume hadmits
      have hagrees : v.Agrees { s with thread := q } := h.agrees.frame rfl rfl rfl rfl rfl rfl
      obtain ⟨hafter, hcalm⟩ := hagrees.thread_after r hdemand
      obtain ⟨hthread, hstops⟩ := threads_after { s with thread := q } op r
      refine ⟨_, ⟨?_, ?_, hafter⟩, hcalm⟩
      · rw [hthread]
        exact hq
      · rw [hstops]
        exact h.stops
  | stop =>
    obtain rfl := Option.some.inj hstep
    refine ⟨v, ⟨h.runs, fun p hp => ?_, h.agrees.frame rfl rfl rfl rfl rfl rfl⟩, ?_⟩
    · rcases List.mem_append.mp hp with hold | hnew
      · exact h.stops p hold
      · obtain rfl := List.mem_singleton.mp hnew
        exact stop_wp
    · exact (and_iff_left trivial).symm
  | stopping i op r =>
    simp only [Descriptors.step] at hstep
    split at hstep
    case isFalse => cases hstep
    case isTrue hr =>
      obtain ⟨p, hp, hstep⟩ := Option.bind_eq_some_iff.mp hstep
      obtain ⟨q, hresume, rfl⟩ := Option.map_eq_some_iff.mp hstep
      obtain ⟨hdemand, hq⟩ :=
        Program.wp_resume (h.stops p (List.mem_of_getElem? hp)) hresume trivial
      have hagrees : v.Agrees { s with stops := s.stops.set i q } :=
        h.agrees.frame rfl rfl rfl rfl rfl rfl
      obtain ⟨hafter, hcalm⟩ := hagrees.stop_after i r hdemand
      obtain ⟨hthread, hstops⟩ := threads_after { s with stops := s.stops.set i q } op r
      refine ⟨v, ⟨?_, ?_, hafter⟩, hcalm⟩
      · rw [hthread]
        exact h.runs
      · rw [hstops]
        intro p' hp'
        rcases List.mem_or_eq_of_mem_set hp' with hold | rfl
        · exact h.stops p' hold
        · exact hq
  | openOther fd =>
    simp only [Descriptors.step] at hstep
    split at hstep
    case isFalse => cases hstep
    case isTrue hfree =>
      obtain rfl := Option.some.inj hstep
      exact ⟨v, h.other (by simp [hfree.2]) (by simp), (and_iff_left trivial).symm⟩
  | closeOther fd =>
    simp only [Descriptors.step] at hstep
    split at hstep
    case isFalse => cases hstep
    case isTrue hother =>
      obtain rfl := Option.some.inj hstep
      exact ⟨v, h.other (by simp [hother]) (by simp), (and_iff_left trivial).symm⟩

/-- A session begins with the TUN alone. -/
theorem follows_start (inetAddr : String → BitVec 32) (ipaddr : String) (port : CInt) (tun : ℕ)
    (others : ℤ → Bool) (tcpControlSockFd : ℤ) :
    Follows ⟨.fresh, tcpControlSockFd, false⟩
      (start inetAddr ipaddr port tun others tcpControlSockFd) where
  runs := ThreadView.run_wp inetAddr ipaddr port tcpControlSockFd
  stops := by simp [start]
  agrees := by
    refine ⟨rfl, ⟨tun, rfl⟩, nofun, ?_, ?_, rfl⟩
    · intro role fd hrole
      simp only [start] at hrole
      split at hrole
      case isTrue htun =>
        obtain rfl := Option.some.inj hrole
        exact ⟨htun, Int.natCast_nonneg tun⟩
      case isFalse => cases hrole
    · intro fd role
      simp only [start]
      by_cases hfd : fd = tun
      · simp [hfd, eq_comm]
      · rw [if_neg hfd]
        split <;> simp [Ne.symm hfd]

/-- A session whose steps are all harmless closes every descriptor once and touches no other
number; and of the sessions that end, no other does. -/
theorem closedOnce_of_run {inetAddr : String → BitVec 32} {ipaddr : String} {port : CInt} {tun : ℕ}
    {others : ℤ → Bool} {tcpControlSockFd : ℤ} {tr : List DescriptorLabel}
    (hrun : Machine.run Descriptors.step
      (start inetAddr ipaddr port tun others tcpControlSockFd) tr = some s) :
    (Meets Descriptors.step Harmless (start inetAddr ipaddr port tun others tcpControlSockFd) tr →
        s.ClosedOnce) ∧
      (s.ended = true → s.ClosedOnce →
        Meets Descriptors.step Harmless
          (start inetAddr ipaddr port tun others tcpControlSockFd) tr) := by
  set s₀ := start inetAddr ipaddr port tun others tcpControlSockFd
  have htracked : Machine.run Descriptors.step s₀ tr = some s ∧
      ∃ v, Follows v s ∧ (v.Calm s ↔ Meets Descriptors.step Harmless s₀ tr) := by
    refine history (I := fun tr s => Machine.run Descriptors.step s₀ tr = some s ∧
      ∃ v, Follows v s ∧ (v.Calm s ↔ Meets Descriptors.step Harmless s₀ tr)) ?_ ?_ hrun
    · rintro tr s a t ⟨hpast, v, hfollows, hcalm⟩ hstep
      obtain ⟨w, hfollows', hcalm'⟩ := hfollows.step hstep
      refine ⟨by simp [run_append, hpast, hstep], w, hfollows', ?_⟩
      rw [hcalm', hcalm, meets_append]
      simp [hpast, Meets]
    · refine ⟨rfl, _, follows_start inetAddr ipaddr port tun others tcpControlSockFd, ?_⟩
      exact iff_of_true ⟨rfl, rfl⟩ trivial
  obtain ⟨-, v, hfollows, hcalm⟩ := htracked
  have hpost : s.ended = true → v.closed = true ∧ (v.phase = .fresh ∨ v.phase = .struck) := by
    intro hended
    have hruns := hfollows.runs
    unfold ended at hended
    split at hended
    case h_1 hthread =>
      rw [hthread] at hruns
      exact hruns
    case h_2 => cases hended
  constructor
  · intro hmeets
    obtain ⟨hfresh, hnil⟩ := hcalm.mpr hmeets
    have honly := hfollows.agrees.onlyTun hfresh
    refine ⟨hnil, fun hended role hrole => ?_⟩
    obtain ⟨fd, hfd⟩ := Option.isSome_iff_exists.mp hrole
    obtain ⟨rfl, -⟩ := honly.only role fd hfd
    rw [honly.closes, hfollows.agrees.closed (hpost hended).1]
    rfl
  · intro hended hclosed
    apply hcalm.mp
    rcases (hpost hended).2 with hfresh | hstruck
    · exact ⟨hfresh, hclosed.noStrays⟩
    · have hphase := hfollows.agrees.phase
      rw [hstruck] at hphase
      exact absurd hclosed.noStrays hphase

instance (s : Descriptors) (a : DescriptorLabel) : Decidable (s.Harmless a) := by
  unfold Harmless
  split <;> infer_instance

/-- `socket` fails, and a `stop` comes first. -/
def noSocket : List DescriptorLabel :=
  [.thread (.inr .getFd) (7 : ℤ), .thread (.inl (.socket .stream)) (-1 : ℤ),
    .thread (.inl (.setControlSock (-1))) (), .stop,
    .stopping 0 (.inl .getControlSock) (-1 : ℤ), .stopping 0 (.inl (.shutdown (-1))) (-1 : ℤ),
    .stopping 0 (.inr .close) (), .thread (.inl (.log "socket()")) (),
    .thread (.inl .getControlSock) (-1 : ℤ), .thread (.inl (.close (-1))) (-1 : ℤ),
    .thread (.inl .getControlSock) (-1 : ℤ), .thread (.inl (.shutdown (-1))) (-1 : ℤ),
    .thread (.inr .updateRunStatus) (), .thread (.inr .close) ()]

/-- An instance: `socket` fails, and the session still closes its TUN descriptor once. -/
theorem closedOnce_noSocket : ∃ s,
    Machine.run Descriptors.step (start (fun _ => 0) "10.0.0.1" 55540 7 (fun _ => false) 0)
      noSocket = some s ∧ s.ended = true ∧ s.ClosedOnce :=
  ⟨_, rfl, rfl, (@closedOnce_of_run _ (fun _ => 0) "10.0.0.1" 55540 7 (fun _ => false) 0 noSocket
    rfl).1 (by decide)⟩

/-- `connect` fails, and another thread is given the number of the control socket before it is
shut down again. -/
def refused : List DescriptorLabel :=
  [.thread (.inr .getFd) (7 : ℤ), .thread (.inl (.socket .stream)) (8 : ℤ),
    .thread (.inl (.setControlSock 8)) (), .thread (.inl .getControlSock) (8 : ℤ),
    .thread (.inl (.connect 8 ⟨0, 55540⟩)) (-1 : ℤ), .thread (.inl (.log "connect()")) (),
    .thread (.inl .getControlSock) (8 : ℤ), .thread (.inl (.close 8)) (0 : ℤ), .openOther 8,
    .thread (.inl .getControlSock) (8 : ℤ), .thread (.inl (.shutdown 8)) (0 : ℤ),
    .thread (.inr .updateRunStatus) (), .thread (.inr .close) ()]

/-- The shutdown hits the other thread's descriptor. -/
theorem not_closedOnce_refused : ∃ s,
    Machine.run Descriptors.step (start (fun _ => 0) "10.0.0.1" 55540 7 (fun _ => false) 0)
      refused = some s ∧ s.ended = true ∧ s.strays = [8] ∧ s.table 8 = some .other ∧
      ¬s.ClosedOnce := by
  refine ⟨_, rfl, rfl, rfl, rfl, fun h => ?_⟩
  have hnil := h.noStrays
  cases hnil

end Descriptors

end HeptaVcn
