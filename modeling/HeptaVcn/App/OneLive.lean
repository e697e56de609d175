import HeptaVcn.App.Threads

/-!
# At most one live tunnel

The only guard against a second tunnel is the value of `isRunning`, which is posted. At
most one tunnel is live, and the service refers to it, as long as no tunnel is created
while `true` is the latest value posted. Exactly, what must not happen is the creation
of a tunnel beside a live one.
-/

namespace HeptaVcn

open Machine

/-- Every tunnel satisfies the predicate, given with its number. -/
def EachTunnel (tunnels : List TunnelState) (P : ℕ → TunnelState → Prop) : Prop :=
  ∀ i t, tunnels[i]? = some t → P i t

section EachTunnel

variable {tunnels : List TunnelState} {P P' : ℕ → TunnelState → Prop}

/-- One tunnel changes; the others need the new property as they are. -/
theorem EachTunnel.modify (h : EachTunnel tunnels P) {i : ℕ} {f : TunnelState → TunnelState}
    (hother : ∀ j t, i ≠ j → P j t → P' j t)
    (hf : ∀ t, tunnels[i]? = some t → P i t → P' i (f t)) : EachTunnel (tunnels.modify i f) P' := by
  intro j t ht
  rw [List.getElem?_modify, Option.map_eq_map, Option.map_eq_some_iff] at ht
  obtain ⟨u, hu, rfl⟩ := ht
  split
  case isTrue heq =>
    subst heq
    exact hf u hu (h i u hu)
  case isFalse hne => exact hother j u hne (h j u hu)

/-- A tunnel is created after the others. -/
theorem EachTunnel.concat (h : EachTunnel tunnels P) {t : TunnelState}
    (hold : ∀ j u, P j u → P' j u) (hnew : P' tunnels.length t) :
    EachTunnel (tunnels ++ [t]) P' := by
  intro j u hu
  rw [List.getElem?_append] at hu
  split at hu
  case isTrue => exact hold j u (h j u hu)
  case isFalse hle =>
    obtain ⟨hindex, rfl⟩ : j = tunnels.length ∧ u = t := by
      rw [List.getElem?_singleton] at hu
      split at hu
      case isTrue hzero =>
        exact ⟨by omega, (Option.some.inj hu).symm⟩
      case isFalse => cases hu
    rwa [hindex]

end EachTunnel

/-- The thread of tunnel `i` is in the given phase. Only an IP tunnel has a thread with
something left to do, and while one is live its thread is in the native code. -/
structure TunnelState.InPhase (t : TunnelState) (i : ℕ) (phase : ThreadPhase) : Prop where
  runs : phase.Runs i t.thread
  ip : phase ≠ .posted → t.config.netType = 0
  native : t.live = true → t.config.netType = 0 → phase = .native

/-- The tunnel is not live, and its thread posts nothing any more. -/
structure TunnelState.Over (t : TunnelState) (i : ℕ) : Prop where
  ended : t.live = false
  runs : ThreadPhase.posted.Runs i t.thread

/-- A tunnel that is over is in the phase after the post of its thread. -/
theorem TunnelState.Over.inPhase {t : TunnelState} {i : ℕ} (h : t.Over i) :
    t.InPhase i .posted where
  runs := h.runs
  ip hne := absurd rfl hne
  native hlive := by
    rw [h.ended] at hlive
    cases hlive

namespace VpnApp

/-- Every live tunnel is the one the service refers to; so there is at most one. -/
def OneLive (s : VpnApp) : Prop :=
  ∀ i t, s.tunnels[i]? = some t → t.live = true → s.tunnel = some i

/-- The value of `isRunning` once the waiting post, if there is one, is delivered. -/
def latest (s : VpnApp) : Option Bool := s.pendingPost.or s.isRunning

variable {s t : VpnApp}

/-- Two live tunnels are the same one. -/
theorem OneLive.eq (hs : s.OneLive) {i j : ℕ} {t u : TunnelState} (ht : s.tunnels[i]? = some t)
    (hu : s.tunnels[j]? = some u) (htlive : t.live = true) (hulive : u.live = true) : i = j :=
  Option.some.inj ((hs i t ht htlive).symm.trans (hs j u hu hulive))

/-- The tunnel that the service refers to, with its configuration. -/
theorem current_eq_some {i : ℕ} {config : ServerConfig} :
    s.current = some (i, config) ↔
      s.tunnel = some i ∧ ∃ t, s.tunnels[i]? = some t ∧ t.config = config := by
  simp only [current, Option.bind_eq_some_iff, Option.map_eq_some_iff, Prod.mk.injEq]
  constructor
  · rintro ⟨_, htunnel, t, ht, rfl, hconfig⟩
    exact ⟨htunnel, t, ht, hconfig⟩
  · rintro ⟨htunnel, t, ht, hconfig⟩
    exact ⟨i, htunnel, t, ht, rfl, hconfig⟩

/-- Changing a tunnel but not its configuration is not seen through the service. -/
theorem current_modify (s : VpnApp) (i : ℕ) {f : TunnelState → TunnelState}
    (hf : ∀ t, (f t).config = t.config) :
    current { s with tunnels := s.tunnels.modify i f } = s.current := by
  unfold current
  congr 1
  funext j
  rw [List.getElem?_modify]
  cases s.tunnels[j]? with
  | none => rfl
  | some t =>
    by_cases h : i = j <;> simp [h, hf]

/-- The service refers to the tunnel created last. -/
theorem current_newTunnel {q : Program Vpn Unit} {config : ServerConfig} {r : ℕ}
    (hr : r = s.tunnels.length) :
    current ({ s with main := q }.after (.newTunnel config) r) = some (r, config) := by
  subst hr
  simp [current, after]

/-! ## What a step can be -/

/-- No step follows a crash. -/
theorem not_crashed_of_step {a : VpnLabel} (hstep : s.step a = some t) : s.crashed = false := by
  by_contra hcrashed
  simp [step, hcrashed] at hstep

/-- An operation of the main thread takes its handler one call further. -/
theorem step_main {op : VpnOp} {r : op.Reply} (hstep : s.step (.main op r) = some t) :
    s.admits op r ∧ ∃ q, s.main.resume op r = some q ∧ t = { s with main := q }.after op r := by
  have hcrashed := not_crashed_of_step hstep
  simp only [step, hcrashed, Bool.false_eq_true, if_false, Option.ite_none_right_eq_some,
    Option.map_eq_some_iff] at hstep
  obtain ⟨hadmits, q, hresume, rfl⟩ := hstep
  exact ⟨hadmits, q, hresume, rfl⟩

/-- An operation of a tunnel thread takes that thread one call further. -/
theorem step_thread {i : ℕ} {op : VpnOp} {r : op.Reply}
    (hstep : s.step (.thread i op r) = some t) :
    ∃ u q, s.tunnels[i]? = some u ∧ u.thread.resume op r = some q ∧
      t = { s with tunnels := s.tunnels.modify i fun t => { t with thread := q } }.after op r := by
  have hcrashed := not_crashed_of_step hstep
  simp only [step, hcrashed, Bool.false_eq_true, if_false, Option.ite_none_right_eq_some,
    Option.bind_eq_some_iff, Option.map_eq_some_iff] at hstep
  obtain ⟨_, u, hu, q, hresume, rfl⟩ := hstep
  exact ⟨u, q, hu, hresume, rfl⟩

/-- A step is one of the main thread, one of a tunnel's thread, or a message of the main
loop: that leaves the tunnels as they are, and the handler it may start obeys its contract. -/
theorem step_cases {a : VpnLabel} (hstep : s.step a = some t) :
    (∃ op r, a = .main op r) ∨ (∃ i op r, a = .thread i op r) ∨
      t.tunnels = s.tunnels ∧ t.tunnel = s.tunnel ∧ t.latest = s.latest ∧
        (t.main = s.main ∨ ∀ v : MainView, v.Runs t.main) := by
  have hcrashed := not_crashed_of_step hstep
  cases a with
  | main op r => exact Or.inl ⟨op, r, rfl⟩
  | thread i op r => exact Or.inr (Or.inl ⟨i, op, r, rfl⟩)
  | tap =>
    simp only [step, hcrashed, Bool.false_eq_true, if_false, Option.ite_none_right_eq_some,
      Option.some.injEq] at hstep
    obtain ⟨_, rfl⟩ := hstep
    exact Or.inr (Or.inr ⟨rfl, rfl, rfl, Or.inr onFabClick_wp⟩)
  | deliver =>
    simp only [step, hcrashed, Bool.false_eq_true, if_false, Option.ite_none_right_eq_some,
      Option.some.injEq, Bool.and_eq_true] at hstep
    obtain ⟨⟨_, hpending⟩, rfl⟩ := hstep
    obtain ⟨status, hstatus⟩ := Option.isSome_iff_exists.mp hpending
    exact Or.inr (Or.inr ⟨rfl, rfl, by simp [latest, hstatus], Or.inl rfl⟩)
  | consentResult ok =>
    simp only [step, hcrashed, Bool.false_eq_true, if_false, Option.ite_none_right_eq_some,
      Option.some.injEq] at hstep
    obtain ⟨_, rfl⟩ := hstep
    exact Or.inr (Or.inr ⟨rfl, rfl, rfl, Or.inr (onConsentResult_wp ok)⟩)
  | revoke =>
    simp only [step, hcrashed, Bool.false_eq_true, if_false, Option.ite_none_right_eq_some,
      Option.some.injEq] at hstep
    obtain ⟨_, rfl⟩ := hstep
    exact Or.inr (Or.inr ⟨rfl, rfl, rfl, Or.inr stopTunnel_wp⟩)

/-- What the main thread is told about the current tunnel is so. -/
theorem mainThread_admits {op : VpnOp} {r : op.Reply} {stage : Stage} (h : s.admits op r) :
    mainThread.admits ⟨s.current, stage⟩ op r := by
  cases op with
  | getTunnel =>
    have hr : r = s.current := of_decide_eq_true h
    exact hr
  | _ => trivial

/-! ## While the flag is heeded -/

/-- All tunnels are over. -/
def AllOver (s : VpnApp) : Prop := EachTunnel s.tunnels fun i t => t.Over i

/-- What a handler knows is true. -/
def Fits (s : VpnApp) : Stage → Prop
  | .unknown => True
  | .quiet => s.AllOver
  | .announced => s.AllOver ∧ s.latest = some true

/-- A tunnel is created only while `true` is not the latest value posted. -/
def flagDown (s : VpnApp) : VpnLabel → Bool
  | .main (.newTunnel _) _ => s.latest ≠ some true
  | _ => true

/-- What holds between two steps: all tunnels but the one of the service are over, and
that one is, too, unless `true` is the latest value posted. -/
structure Heeded (s : VpnApp) : Prop where
  phases : EachTunnel s.tunnels fun i t => ∃ phase, t.InPhase i phase
  referred : EachTunnel s.tunnels fun i t => t.Over i ∨ s.tunnel = some i
  latest : s.latest ≠ some true → s.AllOver
  main : ∃ stage, MainView.Runs ⟨s.current, stage⟩ s.main ∧ s.Fits stage

/-- Where the flag is heeded at most one tunnel is live, and it can be reached. -/
theorem Heeded.oneLive (hs : s.Heeded) : s.OneLive := by
  intro i t ht hlive
  refine (hs.referred i t ht).resolve_left fun hover => ?_
  rw [hover.ended] at hlive
  cases hlive

/-- A tunnel that is not over is the one of the service, `true` is the latest value
posted, and no handler is about to post another. -/
theorem Heeded.of_not_over (hs : s.Heeded) {i : ℕ} {u : TunnelState}
    (hu : s.tunnels[i]? = some u) (hover : ¬u.Over i) :
    s.tunnel = some i ∧ s.latest = some true ∧ MainView.Runs ⟨s.current, .unknown⟩ s.main := by
  have hall : ¬s.AllOver := fun h => hover (h i u hu)
  refine ⟨(hs.referred i u hu).resolve_left hover, by_contra fun h => hall (hs.latest h), ?_⟩
  obtain ⟨stage, hruns, hfits⟩ := hs.main
  cases stage with
  | unknown => exact hruns
  | quiet => exact absurd hfits hall
  | announced => exact absurd hfits.1 hall

/-- All tunnels are still over when one of them is changed to one that is. -/
theorem AllOver.modify (h : s.AllOver) {i : ℕ} {f : TunnelState → TunnelState}
    (hf : ∀ t : TunnelState, s.tunnels[i]? = some t → t.Over i → (f t).Over i) :
    AllOver { s with tunnels := s.tunnels.modify i f } :=
  EachTunnel.modify h (fun _ _ _ hover => hover) hf

/-- Changing the state of one tunnel, which stays over if it is. -/
theorem Heeded.modify (hs : s.Heeded) {i : ℕ} {f : TunnelState → TunnelState}
    (hconfig : ∀ t, (f t).config = t.config)
    (hphase : ∀ t, s.tunnels[i]? = some t → ∃ phase, (f t).InPhase i phase)
    (hover : ∀ t : TunnelState, s.tunnels[i]? = some t → t.Over i → (f t).Over i) :
    Heeded { s with tunnels := s.tunnels.modify i f } := by
  refine ⟨?_, ?_, fun h => (hs.latest h).modify hover, ?_⟩
  · exact hs.phases.modify (fun _ _ _ h => h) fun t ht _ => hphase t ht
  · exact hs.referred.modify (fun _ _ _ h => h) fun t ht h => h.imp_left (hover t ht)
  · obtain ⟨stage, hruns, hfits⟩ := hs.main
    refine ⟨stage, by rwa [current_modify s i hconfig], ?_⟩
    cases stage with
    | unknown => trivial
    | quiet => exact AllOver.modify hfits hover
    | announced => exact ⟨AllOver.modify hfits.1 hover, hfits.2⟩

/-- A message that touches neither the tunnels nor the flag keeps it heeded. -/
theorem Heeded.message (hs : s.Heeded) (htunnels : t.tunnels = s.tunnels)
    (htunnel : t.tunnel = s.tunnel) (hlatest : t.latest = s.latest)
    (hmain : t.main = s.main ∨ ∀ v : MainView, v.Runs t.main) : t.Heeded := by
  have hall : t.AllOver ↔ s.AllOver := by rw [AllOver, AllOver, htunnels]
  have hcurrent : t.current = s.current := by rw [current, current, htunnel, htunnels]
  refine ⟨by rw [htunnels]; exact hs.phases, by rw [htunnels, htunnel]; exact hs.referred,
    by rw [hlatest, hall]; exact hs.latest, ?_⟩
  rcases hmain with hmain | hmain
  · obtain ⟨stage, hruns, hfits⟩ := hs.main
    refine ⟨stage, by rwa [hcurrent, hmain], ?_⟩
    cases stage with
    | unknown => trivial
    | quiet => exact hall.mpr hfits
    | announced => exact ⟨hall.mpr hfits.1, hlatest.trans hfits.2⟩
  · exact ⟨.unknown, hmain _, trivial⟩

/-- Where all tunnels are over the flag need not be heeded. -/
theorem Heeded.of_allOver (hall : s.AllOver)
    (hmain : ∃ stage, MainView.Runs ⟨s.current, stage⟩ s.main ∧ s.Fits stage) : s.Heeded where
  phases i u hu := ⟨.posted, (hall i u hu).inPhase⟩
  referred i u hu := Or.inl (hall i u hu)
  latest _ := hall
  main := hmain

/-- When the tunnel of the service ends, none is left. -/
theorem Heeded.allOver_of_end (hs : s.Heeded) {i : ℕ} (htunnel : s.tunnel = some i)
    {f : TunnelState → TunnelState}
    (hf : ∀ u : TunnelState, s.tunnels[i]? = some u → (f u).Over i) :
    AllOver { s with tunnels := s.tunnels.modify i f } := by
  refine hs.referred.modify (fun j u hne hu => ?_) fun u hu _ => hf u hu
  refine hu.resolve_right fun hj => hne ?_
  exact Option.some.inj (htunnel.symm.trans hj)

/-- A handler starts the tunnel it has announced. -/
theorem Heeded.start (hs : s.Heeded) {i : ℕ} {f : TunnelState → TunnelState}
    {q : Program Vpn Unit} (htunnel : s.tunnel = some i) (hlatest : s.latest = some true)
    (hconfig : ∀ t, (f t).config = t.config)
    (hphase : ∀ t, s.tunnels[i]? = some t → ∃ phase, (f t).InPhase i phase)
    (hq : MainView.Runs ⟨s.current, .unknown⟩ q) :
    Heeded { s with main := q, tunnels := s.tunnels.modify i f } where
  phases := hs.phases.modify (fun _ _ _ h => h) fun t ht _ => hphase t ht
  referred := hs.referred.modify (fun _ _ _ h => h) fun _ _ _ => Or.inr htunnel
  latest h := absurd hlatest h
  main := by
    have hcurrent := current_modify s i hconfig
    rw [← hcurrent] at hq
    exact ⟨.unknown, hq, trivial⟩

/-- The native code returns: its thread still has to post the end of the tunnel. -/
theorem Heeded.native_return (hs : s.Heeded) {i : ℕ} {u : TunnelState} {q : Program Vpn Unit}
    (hu : s.tunnels[i]? = some u) (hphase : u.InPhase i .native) (hover : ¬u.Over i)
    (hq : ThreadPhase.returned.Runs i q) :
    Heeded { s with
      tunnels := (s.tunnels.modify i fun t => { t with thread := q }).modify i
        (fun t => { t with live := false }) } := by
  rw [List.modify_modify_eq]
  refine hs.modify (fun _ => rfl) (fun v hv => ⟨.returned, hq, ?_, fun hlive => ?_⟩) ?_
  · obtain rfl : u = v := Option.some.inj (hu.symm.trans hv)
    exact fun _ => hphase.ip ThreadPhase.noConfusion
  · cases hlive
  · rintro v hv hv'
    obtain rfl : u = v := Option.some.inj (hu.symm.trans hv)
    exact absurd hv' hover

/-- A step of a tunnel's thread keeps the flag truthful. -/
theorem Heeded.thread_step (hs : s.Heeded) {i : ℕ} {op : VpnOp} {r : op.Reply}
    (hstep : s.step (.thread i op r) = some t) : t.Heeded := by
  obtain ⟨u, q, hu, hresume, rfl⟩ := step_thread hstep
  obtain ⟨phase, hphase⟩ := hs.phases i u hu
  obtain ⟨hdemand, hq⟩ := Program.wp_resume hphase.runs hresume trivial
  have hposted (hover : u.Over i) := Program.wp_resume hover.runs hresume trivial
  have hsame {v : TunnelState} (hv : s.tunnels[i]? = some v) : u = v :=
    Option.some.inj (hu.symm.trans hv)
  cases op with
  | newTunnel config => exact hdemand.elim
  | startThread j config => exact hdemand.elim
  | engineStart j => exact hdemand.elim
  | engineStop j => exact hdemand.elim
  | nativeStartVpn j config =>
    obtain ⟨rfl, rfl⟩ := hdemand
    have hover : ¬u.Over j := fun hover => ThreadPhase.noConfusion (hposted hover).1.2
    exact hs.native_return hu hphase hover hq
  | postValue status =>
    obtain ⟨rfl, rfl⟩ := hdemand
    have hover : ¬u.Over i := fun hover => ThreadPhase.noConfusion (hposted hover).1.2
    obtain ⟨htunnel, _, hmain⟩ := hs.of_not_over hu hover
    have hended : u.live = false := by
      by_contra hlive
      have hip := hphase.ip ThreadPhase.noConfusion
      exact ThreadPhase.noConfusion (hphase.native (by simpa using hlive) hip)
    have hall := hs.allOver_of_end htunnel (f := fun t => { t with thread := q }) fun v hv => by
      obtain rfl := hsame hv
      exact ⟨hended, hq⟩
    refine .of_allOver hall ⟨.unknown, ?_, trivial⟩
    have hcurrent := current_modify s i (f := fun t => { t with thread := q }) fun _ => rfl
    rwa [← hcurrent] at hmain
  | _ =>
    have h : Heeded { s with tunnels := s.tunnels.modify i fun t => { t with thread := q } } := by
      refine hs.modify (fun _ => rfl) (fun v hv => ?_) fun v hv hover => ?_
      · obtain rfl := hsame hv
        exact ⟨phase, hq, hphase.ip, hphase.native⟩
      · obtain rfl := hsame hv
        exact ⟨hover.ended, (hposted hover).2⟩
    exact ⟨h.phases, h.referred, h.latest, h.main⟩

/-- A handler stops the engine of the service's tunnel. -/
theorem Heeded.stop (hs : s.Heeded) {i : ℕ} {config : ServerConfig} {q : Program Vpn Unit}
    (htunnel : s.current = some (i, config)) (hengine : config.netType ≠ 0)
    (hq : MainView.Runs ⟨s.current, .quiet⟩ q) :
    Heeded { s with
      main := q, tunnels := s.tunnels.modify i fun t => { t with live := false } } := by
  obtain ⟨hi, u, hu, hconfig⟩ := current_eq_some.mp htunnel
  have hall := hs.allOver_of_end hi (f := fun t => { t with live := false }) fun v hv => by
    obtain rfl : u = v := Option.some.inj (hu.symm.trans hv)
    obtain ⟨phase, hphase⟩ := hs.phases i u hu
    -- only a thread of an IP tunnel could have something left to do
    obtain rfl : phase = .posted := by
      by_contra hne
      exact hengine (by rw [← hconfig, hphase.ip hne])
    exact ⟨rfl, hphase.runs⟩
  refine .of_allOver hall ⟨.quiet, ?_, hall⟩
  have hcurrent := current_modify s i (f := fun t => { t with live := false }) fun _ => rfl
  rw [← hcurrent] at hq
  exact hq

/-- A step of the main thread that creates no tunnel while the flag is up keeps it truthful. -/
theorem Heeded.main_step (hs : s.Heeded) {op : VpnOp} {r : op.Reply}
    (hC : s.flagDown (.main op r)) (hstep : s.step (.main op r) = some t) : t.Heeded := by
  obtain ⟨hadmits, q, hresume, rfl⟩ := step_main hstep
  obtain ⟨stage, hruns, hfits⟩ := hs.main
  obtain ⟨hdemand, hq⟩ := Program.wp_resume hruns hresume (mainThread_admits hadmits)
  cases op with
  | newTunnel config =>
    have hr : r = s.tunnels.length := of_decide_eq_true hadmits
    have hdown : s.latest ≠ some true := by simpa [flagDown] using hC
    have hall : AllOver ({ s with main := q }.after (.newTunnel config) r) :=
      EachTunnel.concat (hs.latest hdown) (fun _ _ h => h) ⟨rfl, rfl⟩
    refine .of_allOver hall ⟨.quiet, ?_, hall⟩
    rw [current_newTunnel hr]
    exact hq
  | postValue status =>
    obtain rfl : stage = .quiet := hdemand
    refine ⟨hs.phases, hs.referred, fun _ => hfits, _, hq, ?_⟩
    cases status with
    | true => exact ⟨hfits, rfl⟩
    | false => exact hfits
  | startThread i config =>
    obtain ⟨htunnel, hip, rfl⟩ := hdemand
    obtain ⟨hi, u, hu, hconfig⟩ := current_eq_some.mp htunnel
    refine hs.start hi hfits.2 (fun _ => rfl) (fun v hv => ⟨.native, ?_⟩) hq
    obtain rfl : u = v := Option.some.inj (hu.symm.trans hv)
    exact ⟨run_wp i config, fun _ => by rw [← hip, ← hconfig], fun _ _ => rfl⟩
  | engineStart i =>
    obtain ⟨config, htunnel, hengine, rfl⟩ := hdemand
    obtain ⟨hi, u, hu, hconfig⟩ := current_eq_some.mp htunnel
    refine hs.start hi hfits.2 (fun _ => rfl) (fun v hv => ⟨.posted, ?_⟩) hq
    obtain rfl : u = v := Option.some.inj (hu.symm.trans hv)
    have hover := hfits.1 i u hu
    exact ⟨hover.runs, fun h => absurd rfl h, fun _ hip => absurd hip (by rwa [hconfig])⟩
  | engineStop i =>
    obtain ⟨config, htunnel, hengine⟩ := hdemand
    exact hs.stop htunnel hengine hq
  | nativeStartVpn i config => exact hdemand.elim
  | _ => exact ⟨hs.phases, hs.referred, hs.latest, stage, hq, hfits⟩

/-- Every step that creates no tunnel while the flag is up keeps it truthful. -/
theorem heeded_step {a : VpnLabel} (hs : s.Heeded) (hC : s.flagDown a)
    (hstep : s.step a = some t) : t.Heeded := by
  rcases step_cases hstep with ⟨op, r, rfl⟩ | ⟨i, op, r, rfl⟩ | ⟨htunnels, htunnel, hlatest, hmain⟩
  · exact hs.main_step hC hstep
  · exact hs.thread_step hstep
  · exact hs.message htunnels htunnel hlatest hmain

/-- Before the first tap there is no tunnel. -/
theorem start_heeded : start.Heeded :=
  ⟨fun _ _ h => (nomatch h), fun _ _ h => (nomatch h), fun _ _ _ h => (nomatch h), .unknown,
    trivial, trivial⟩

/-- At most one tunnel is live, and the service refers to it, in every state of a run in
which no tunnel is created while `true` is the latest value posted. -/
theorem oneLive_of_flagDown {tr : List VpnLabel}
    (hmeets : Meets step (fun s a => s.flagDown a) start tr) (hrun : run step start tr = some s) :
    s.OneLive :=
  (invariant_of_meets (I := Heeded) (fun _ _ _ => heeded_step) start_heeded hmeets hrun).oneLive

/-- A server for the IP tunnel. -/
def home : ServerConfig := ⟨"home", "10.0.0.1", 55540, 0, -1⟩

/-- A tap that starts a tunnel for the selected server, tunnel number `i`. -/
def tapStarts (i : ℕ) : List VpnLabel :=
  [.tap, .main .isRunningValue (some false), .main .prepare false,
    .main .decodeSelectedServer (some "a"), .main (.decodeServerConfig "a") (some home),
    .main .setupVPN true, .main (.newTunnel home) i, .main (.postValue true) (),
    .main (.setRunning true) (), .main .getTunnel (some (i, home)), .main (.startThread i home) ()]

/-- The tunnel's thread ends, and the values it and the start posted are delivered. -/
def nativeReturns (i : ℕ) : List VpnLabel :=
  [.deliver, .thread i (.nativeStartVpn i home) 0, .thread i (.postValue false) (),
    .thread i (.setRunning false) (), .thread i (.closeNetInterface i) (), .deliver]

/-- One tunnel after the other. -/
def oneAfterOther : List VpnLabel := tapStarts 0 ++ nativeReturns 0 ++ tapStarts 1

/-- The second tunnel is started when the end of the first has been shown. -/
theorem oneLive_oneAfterOther : ∃ s, run step start oneAfterOther = some s ∧ s.OneLive :=
  ⟨_, rfl, oneLive_of_flagDown
    (show Meets step (fun s a => s.flagDown a) start oneAfterOther by decide) rfl⟩

/-- A second tap comes before the value posted by the first one is delivered. -/
def twoTaps : List VpnLabel := tapStarts 0 ++ tapStarts 1

/-- The second tap finds the flag still down and starts another tunnel. -/
theorem not_oneLive_twoTaps : ∃ t, run step start twoTaps = some t ∧ ¬t.OneLive := by
  refine ⟨_, rfl, fun h => ?_⟩
  have htunnel := h 0 _ rfl rfl
  exact absurd htunnel (by decide)

/-! ## The step that breaks it -/

/-- A tunnel is created only when no earlier one is live. -/
def noneLive (s : VpnApp) : VpnLabel → Bool
  | .main (.newTunnel _) _ => s.tunnels.all fun t => !t.live
  | _ => true

/-- What holds between two steps whatever has been posted. -/
structure Controlled (s : VpnApp) : Prop where
  oneLive : s.OneLive
  main : ∃ stage, MainView.Runs ⟨s.current, stage⟩ s.main
  threads : EachTunnel s.tunnels fun i t => ∃ phase : ThreadPhase, phase.Runs i t.thread

/-- Changing the state of one tunnel, which becomes live only if it is the service's. -/
theorem Controlled.modify (hs : s.Controlled) {i : ℕ} {f : TunnelState → TunnelState}
    (hconfig : ∀ t, (f t).config = t.config)
    (hlive : ∀ t, (f t).live = true → t.live = true ∨ s.tunnel = some i)
    (hthread : ∀ t, s.tunnels[i]? = some t → (∃ phase : ThreadPhase, phase.Runs i t.thread) →
      ∃ phase : ThreadPhase, phase.Runs i (f t).thread) :
    Controlled { s with tunnels := s.tunnels.modify i f } := by
  refine ⟨?_, ?_, hs.threads.modify (fun _ _ _ h => h) hthread⟩
  · refine EachTunnel.modify hs.oneLive (fun _ _ _ h => h) fun t _ h hf => ?_
    rcases hlive t hf with hlive | htunnel
    · exact h hlive
    · exact htunnel
  · obtain ⟨stage, hruns⟩ := hs.main
    exact ⟨stage, by rwa [current_modify s i hconfig]⟩

/-- A step of a tunnel's thread makes no tunnel live. -/
theorem Controlled.thread_step (hs : s.Controlled) {i : ℕ} {op : VpnOp} {r : op.Reply}
    (hstep : s.step (.thread i op r) = some t) : t.Controlled := by
  obtain ⟨u, q, hu, hresume, rfl⟩ := step_thread hstep
  obtain ⟨phase, hruns⟩ := hs.threads i u hu
  obtain ⟨hdemand, hq⟩ := Program.wp_resume hruns hresume trivial
  have h : Controlled { s with tunnels := s.tunnels.modify i fun t => { t with thread := q } } :=
    hs.modify (fun _ => rfl) (fun _ hlive => Or.inl hlive) fun _ _ _ => ⟨_, hq⟩
  cases op with
  | newTunnel config => exact hdemand.elim
  | startThread j config => exact hdemand.elim
  | engineStart j => exact hdemand.elim
  | engineStop j => exact hdemand.elim
  | nativeStartVpn j config =>
    exact h.modify (fun _ => rfl) (fun _ hlive => nomatch hlive) fun _ _ hruns => hruns
  | _ => exact ⟨h.oneLive, h.main, h.threads⟩

/-- A step of the main thread that creates no tunnel beside a live one keeps control. -/
theorem Controlled.main_step (hs : s.Controlled) {op : VpnOp} {r : op.Reply}
    (hC : s.noneLive (.main op r)) (hstep : s.step (.main op r) = some t) : t.Controlled := by
  obtain ⟨hadmits, q, hresume, rfl⟩ := step_main hstep
  obtain ⟨stage, hruns⟩ := hs.main
  obtain ⟨hdemand, hq⟩ := Program.wp_resume hruns hresume (mainThread_admits hadmits)
  cases op with
  | newTunnel config =>
    have hr : r = s.tunnels.length := of_decide_eq_true hadmits
    have hdead : EachTunnel s.tunnels fun _ u => u.live = false := fun j u hu => by
      simpa using List.all_eq_true.mp hC u (List.mem_of_getElem? hu)
    refine ⟨?_, ⟨.quiet, ?_⟩, hs.threads.concat (fun _ _ h => h) ⟨.posted, rfl⟩⟩
    · refine hdead.concat (fun j u hended hlive => ?_) fun hlive => nomatch hlive
      rw [hended] at hlive
      cases hlive
    · rw [current_newTunnel hr]
      exact hq
  | startThread i config =>
    have hi := (current_eq_some.mp hdemand.1).1
    have h : Controlled { s with main := q } := ⟨hs.oneLive, ⟨.unknown, hq⟩, hs.threads⟩
    exact h.modify (fun _ => rfl) (fun _ _ => Or.inr hi) fun _ _ _ => ⟨.native, run_wp i config⟩
  | engineStart i =>
    obtain ⟨config, htunnel, _⟩ := hdemand
    have hi := (current_eq_some.mp htunnel).1
    have h : Controlled { s with main := q } := ⟨hs.oneLive, ⟨.unknown, hq⟩, hs.threads⟩
    exact h.modify (fun _ => rfl) (fun _ _ => Or.inr hi) fun _ _ hruns => hruns
  | engineStop i =>
    have h : Controlled { s with main := q } := ⟨hs.oneLive, ⟨.quiet, hq⟩, hs.threads⟩
    exact h.modify (fun _ => rfl) (fun _ hlive => nomatch hlive) fun _ _ hruns => hruns
  | nativeStartVpn i config => exact hdemand.elim
  | _ => exact ⟨hs.oneLive, ⟨_, hq⟩, hs.threads⟩

/-- A message of the main loop changes nothing about the tunnels. -/
theorem Controlled.message (hs : s.Controlled) (htunnels : t.tunnels = s.tunnels)
    (htunnel : t.tunnel = s.tunnel) (hmain : t.main = s.main ∨ ∀ v : MainView, v.Runs t.main) :
    t.Controlled := by
  have hcurrent : t.current = s.current := by rw [current, current, htunnel, htunnels]
  refine ⟨?_, ?_, by rw [htunnels]; exact hs.threads⟩
  · unfold OneLive
    rw [htunnels, htunnel]
    exact hs.oneLive
  · obtain ⟨stage, hruns⟩ := hs.main
    rcases hmain with hmain | hmain
    · exact ⟨stage, by rwa [hcurrent, hmain]⟩
    · exact ⟨stage, hmain _⟩

/-- Every step that creates no tunnel beside a live one keeps control. -/
theorem controlled_step {a : VpnLabel} (hs : s.Controlled) (hC : s.noneLive a)
    (hstep : s.step a = some t) : t.Controlled := by
  rcases step_cases hstep with ⟨op, r, rfl⟩ | ⟨i, op, r, rfl⟩ | ⟨htunnels, htunnel, _, hmain⟩
  · exact hs.main_step hC hstep
  · exact hs.thread_step hstep
  · exact hs.message htunnels htunnel hmain

/-- A tunnel created beside a live one takes its place in the service at once. -/
theorem not_oneLive_of_step {a : VpnLabel} (hC : ¬s.noneLive a) (hstep : s.step a = some t) :
    ¬t.OneLive := by
  obtain ⟨config, r, rfl⟩ : ∃ config, ∃ r, a = .main (.newTunnel config) r := by
    rcases a with _ | _ | _ | _ | ⟨op, r⟩ | _ <;> try simp [noneLive] at hC
    cases op <;> simp_all
  obtain ⟨hadmits, q, _, rfl⟩ := step_main hstep
  have hr : r = s.tunnels.length := of_decide_eq_true hadmits
  simp only [noneLive, List.all_eq_true, Bool.not_eq_true', not_forall, Bool.not_eq_false] at hC
  obtain ⟨u, hmem, hlive⟩ := hC
  obtain ⟨i, hi⟩ := List.getElem?_of_mem hmem
  have hlt := (List.getElem?_eq_some_iff.mp hi).1
  intro h
  have hkept : (s.tunnels ++ [⟨config, false, .done ()⟩])[i]? = some u := by
    rw [List.getElem?_append_left hlt, hi]
  have htunnel : some r = some i := h i u hkept hlive
  have heq : s.tunnels.length = i := hr.symm.trans (Option.some.inj htunnel)
  omega

/-- Before the first tap no tunnel is out of control. -/
theorem start_controlled : start.Controlled :=
  ⟨fun _ _ h => (nomatch h), ⟨.unknown, trivial⟩, fun _ _ h => (nomatch h)⟩

/-- At most one tunnel is live and the service refers to it throughout a run exactly
when no step of the run creates a tunnel while an earlier one is live. -/
theorem always_oneLive_iff {tr : List VpnLabel} (hrun : run step start tr = some t) :
    Always step OneLive start tr ↔ Meets step (fun s a => s.noneLive a) start tr :=
  always_iff_meets (I := Controlled) (fun _ h => h.oneLive) (fun _ _ _ => controlled_step)
    (fun _ _ _ _ => not_oneLive_of_step) start_controlled hrun

end VpnApp

end HeptaVcn
