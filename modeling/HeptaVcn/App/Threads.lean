import HeptaVcn.App.LocalVpnService

/-!
# What the threads of the app do

Two contracts, one for the handlers on the main thread and one for the thread of a
tunnel. A handler starts a tunnel right after it has created it and posted `true`, and
stops no engine but that of the tunnel the service refers to. The thread of a tunnel
leaves the native code once, and then posts `false` once.
-/

namespace HeptaVcn

open Machine

/-- How far the thread of a tunnel has come: it is in the native code or about to enter
it, it has left it, or it has posted the end of the tunnel. -/
inductive ThreadPhase where
  | native
  | returned
  | posted
  deriving DecidableEq

/-- The part of the thread of tunnel `i`: it creates, starts and stops nothing. -/
def tunnelThread (i : ℕ) : Program.Contract Vpn ThreadPhase where
  demand phase
    | .nativeStartVpn j _ => j = i ∧ phase = .native
    | .postValue status => status = false ∧ phase = .returned
    | .newTunnel _ | .startThread .. | .engineStart _ | .engineStop _ => False
    | _ => True
  admits _ _ _ := True
  after phase
    | .nativeStartVpn .., _ => .returned
    | .postValue _, _ => .posted
    | _, _ => phase

/-- The program is what a tunnel's thread still has to do in the given phase. -/
def ThreadPhase.Runs (phase : ThreadPhase) (i : ℕ) (p : Program Vpn Unit) : Prop :=
  p.wp (tunnelThread i) (fun phase _ => phase = .posted) phase

/-- The thread of an IP tunnel goes through its phases in order. -/
theorem run_wp (i : ℕ) (config : ServerConfig) :
    ThreadPhase.native.Runs i (IPreflectorTunnel.run i config) := by
  refine ⟨⟨rfl, rfl⟩, fun _ _ => ⟨⟨rfl, rfl⟩, fun _ _ => ?_⟩⟩
  exact ⟨trivial, fun _ _ => ⟨trivial, fun _ _ => rfl⟩⟩

/-- What a handler knows: nothing, that all tunnels are over, or that they are and
`true` is the latest value posted. -/
inductive Stage where
  | unknown
  | quiet
  | announced
  deriving DecidableEq

/-- What a handler knows of the app: the tunnel the service refers to, and a stage. -/
structure MainView where
  tunnel : Option (ℕ × ServerConfig)
  stage : Stage

/-- The part of a handler: what it starts and stops is the tunnel of the service, and it
posts a value only when all tunnels are over. -/
def mainThread : Program.Contract Vpn MainView where
  demand v
    | .postValue _ => v.stage = .quiet
    | .startThread i config =>
      v.tunnel = some (i, config) ∧ config.netType = 0 ∧ v.stage = .announced
    | .engineStart i => ∃ config, v.tunnel = some (i, config) ∧ config.netType ≠ 0 ∧
        v.stage = .announced
    | .engineStop i => ∃ config, v.tunnel = some (i, config) ∧ config.netType ≠ 0
    | .nativeStartVpn .. => False
    | _ => True
  admits v
    | .getTunnel, r => r = v.tunnel
    | _, _ => True
  after v
    | .newTunnel config, r => ⟨some (r, config), .quiet⟩
    | .postValue status, _ => { v with stage := if status then .announced else .quiet }
    | .startThread .., _ | .engineStart _, _ => { v with stage := .unknown }
    | .engineStop _, _ => { v with stage := .quiet }
    | _, _ => v

/-- The program is what a handler still has to do, given what it knows. -/
def MainView.Runs (v : MainView) (p : Program Vpn Unit) : Prop :=
  p.wp mainThread (fun _ _ => True) v

/-- `updateRunStatus` posts and sets the flag once. -/
theorem updateRunStatus_wp (status : Bool) (tunnel : Option (ℕ × ServerConfig))
    {post : MainView → Unit → Prop}
    (hpost : post ⟨tunnel, if status then .announced else .quiet⟩ ()) :
    (updateRunStatus status).wp mainThread post ⟨tunnel, .quiet⟩ :=
  ⟨rfl, fun _ _ => ⟨trivial, fun _ _ => hpost⟩⟩

/-- A tunnel that has been announced is started. -/
theorem proxyTunnel_start_wp (i : ℕ) (config : ServerConfig) :
    MainView.Runs ⟨some (i, config), .announced⟩ (ProxyTunnel.start i config) := by
  unfold ProxyTunnel.start
  split
  case isTrue hip => exact ⟨⟨rfl, hip, rfl⟩, fun _ _ => trivial⟩
  case isFalse hengine => exact ⟨⟨config, rfl, hengine, rfl⟩, fun _ _ => trivial⟩

/-- Stopping a tunnel starts none. -/
theorem proxyTunnel_stop_wp (i : ℕ) (config : ServerConfig) (stage : Stage) :
    MainView.Runs ⟨some (i, config), stage⟩ (ProxyTunnel.stop i config) := by
  unfold ProxyTunnel.stop
  split
  case isTrue => exact ⟨trivial, fun _ _ => ⟨trivial, fun _ _ => trivial⟩⟩
  case isFalse hengine =>
    refine ⟨⟨config, rfl, hengine⟩, fun _ _ => ?_⟩
    exact updateRunStatus_wp false (some (i, config)) trivial

/-- An exception starts nothing. -/
theorem throwNullPointer_wp (v : MainView) : v.Runs throwNullPointer :=
  ⟨trivial, fun r => nomatch r⟩

/-- `stopTunnel` starts nothing. -/
theorem stopTunnel_wp (v : MainView) : v.Runs LocalVPNService.stopTunnel := by
  obtain ⟨tunnel, stage⟩ := v
  refine ⟨trivial, fun r hr => ?_⟩
  obtain rfl : r = tunnel := hr
  match r with
  | none => trivial
  | some (i, config) => exact proxyTunnel_stop_wp i config stage

/-- The service creates a tunnel, announces it and starts it, in this order. -/
theorem service_startVpnService_wp (guid : String) (v : MainView) :
    v.Runs (LocalVPNService.startVpnService guid) := by
  refine ⟨trivial, fun config _ => ⟨trivial, fun established _ => ?_⟩⟩
  cases established with
  | false => trivial
  | true =>
    cases config with
    | none => exact throwNullPointer_wp v
    | some config =>
      refine ⟨trivial, fun i _ => ?_⟩
      change Program.wp mainThread (updateRunStatus true >>= _) _ ⟨some (i, config), .quiet⟩
      rw [Program.bind_eq, Program.wp_bind]
      refine updateRunStatus_wp true (some (i, config)) ⟨trivial, fun r hr => ?_⟩
      obtain rfl : r = some (i, config) := hr
      exact proxyTunnel_start_wp i config

/-- The activity leaves the start to the service. -/
theorem activity_startVpnService_wp (v : MainView) : v.Runs MainActivity.startVpnService := by
  refine ⟨trivial, fun guid _ => ?_⟩
  cases guid with
  | none => exact ⟨trivial, fun _ _ => trivial⟩
  | some guid => exact service_startVpnService_wp guid v

/-- A tap on the button stops, starts or asks for consent. -/
theorem onFabClick_wp (v : MainView) : v.Runs MainActivity.onFabClick := by
  refine ⟨trivial, fun value _ => ?_⟩
  match value with
  | none => exact throwNullPointer_wp v
  | some true => exact stopTunnel_wp v
  | some false =>
    refine ⟨trivial, fun consent _ => ?_⟩
    cases consent with
    | true => exact ⟨trivial, fun _ _ => trivial⟩
    | false => exact activity_startVpnService_wp v

/-- A positive consent result starts. -/
theorem onConsentResult_wp (ok : Bool) (v : MainView) :
    v.Runs (MainActivity.onConsentResult ok) := by
  cases ok with
  | true => exact activity_startVpnService_wp v
  | false => trivial

end HeptaVcn
