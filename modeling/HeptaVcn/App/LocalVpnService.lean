import HeptaVcn.App.MmkvManager
import HeptaVcn.Machine.Run

/-!
# Starting and stopping tunnels, `LocalVPNService.kt`

The handlers of the main thread and the `run` of a tunnel thread as programs that
interleave operation by operation. A posted value takes effect in a later message of
the main loop, and only the latest one waits.
-/

namespace HeptaVcn

open Machine

/-- The operations of the app around its tunnels. A tunnel is known by its number in
the order of creation. -/
inductive VpnOp where
  /-- `mainViewModel.isRunning.value` -/
  | isRunningValue
  /-- `VpnService.prepare`; it returns an intent if the user has to consent. -/
  | prepare
  /-- `startForResult.launch` -/
  | launchConsent
  | decodeSelectedServer
  | toast
  | decodeServerConfig (guid : String)
  /-- `setupVPN`; whether it returns a descriptor. -/
  | setupVPN
  /-- `tunnel = getTunnelType(config, it)` -/
  | newTunnel (config : ServerConfig)
  /-- The field `tunnel`, with the configuration its class depends on. -/
  | getTunnel
  /-- `isRunning.postValue` of the view model -/
  | postValue (status : Bool)
  /-- Assignment to `LocalVPNService.Running`. -/
  | setRunning (status : Bool)
  /-- `Thread.start` of a thread that runs `IPreflectorTunnel.run` -/
  | startThread (tunnel : ℕ) (config : ServerConfig)
  | nativeStartVpn (tunnel : ℕ) (config : ServerConfig)
  | nativeStopVpn
  | engineStart (tunnel : ℕ)
  | engineStop (tunnel : ℕ)
  /-- `NetInterface.close` -/
  | closeNetInterface (tunnel : ℕ)
  /-- A `!!` finds `null`. -/
  | throwNullPointer
  deriving DecidableEq, Repr

/-- The reply to each operation. -/
abbrev VpnOp.Reply : VpnOp → Type
  | .isRunningValue => Option Bool
  | .prepare | .setupVPN => Bool
  | .decodeSelectedServer => Option String
  | .decodeServerConfig _ => Option ServerConfig
  | .newTunnel _ => ℕ
  | .getTunnel => Option (ℕ × ServerConfig)
  | .nativeStartVpn .. => ℤ
  | .throwNullPointer => Empty
  | _ => Unit

/-- The interface of the app's threads. -/
abbrev Vpn : Interface := ⟨VpnOp, VpnOp.Reply⟩

instance : DecidableEq Vpn.Op := inferInstanceAs (DecidableEq VpnOp)

/-- Perform one operation. -/
def vpn (op : VpnOp) : Program Vpn op.Reply := Program.perform (E := Vpn) op

/-- A null pointer exception. -/
def throwNullPointer : Program Vpn Unit := do nomatch ← vpn .throwNullPointer

/-- `ProxyBinder.updateRunStatus` -/
def updateRunStatus (status : Bool) : Program Vpn Unit := do
  vpn (.postValue status)
  vpn (.setRunning status)

namespace IPreflectorTunnel

/-- The `run` of the thread that `start` creates. -/
def run (tunnel : ℕ) (config : ServerConfig) : Program Vpn Unit := do
  let _ ← vpn (.nativeStartVpn tunnel config)
  updateRunStatus false
  vpn (.closeNetInterface tunnel)

def start (tunnel : ℕ) (config : ServerConfig) : Program Vpn Unit :=
  vpn (.startThread tunnel config)

def stop (tunnel : ℕ) : Program Vpn Unit := do
  vpn .nativeStopVpn
  vpn (.closeNetInterface tunnel)

end IPreflectorTunnel

namespace Tun2sockTunnel

def start (tunnel : ℕ) : Program Vpn Unit := vpn (.engineStart tunnel)

def stop (tunnel : ℕ) : Program Vpn Unit := do
  vpn (.engineStop tunnel)
  updateRunStatus false

end Tun2sockTunnel

namespace ProxyTunnel

/-- `start`, of the class that `getTunnelType` chooses. -/
def start (tunnel : ℕ) (config : ServerConfig) : Program Vpn Unit :=
  if config.netType = 0 then IPreflectorTunnel.start tunnel config else Tun2sockTunnel.start tunnel

/-- `stop`, of the class that `getTunnelType` chooses. -/
def stop (tunnel : ℕ) (config : ServerConfig) : Program Vpn Unit :=
  if config.netType = 0 then IPreflectorTunnel.stop tunnel else Tun2sockTunnel.stop tunnel

end ProxyTunnel

/-- `LocalVPNService.startVpnService` -/
def LocalVPNService.startVpnService (guid : String) : Program Vpn Unit := do
  let config ← vpn (.decodeServerConfig guid)
  if ← vpn .setupVPN then
    match config with
    | none => throwNullPointer
    | some config =>
      let _ ← vpn (.newTunnel config)
      updateRunStatus true
      match ← vpn .getTunnel with
      | some (tunnel, config) => ProxyTunnel.start tunnel config
      | none => pure ()

/-- `tunnel?.stop()`, the whole of `stopVpnService` and what `onRevoke` does first. -/
def LocalVPNService.stopTunnel : Program Vpn Unit := do
  match ← vpn .getTunnel with
  | some (tunnel, config) => ProxyTunnel.stop tunnel config
  | none => pure ()

namespace MainActivity

/-- `startVpnService` -/
def startVpnService : Program Vpn Unit := do
  match ← vpn .decodeSelectedServer with
  | some guid => LocalVPNService.startVpnService guid
  | none => vpn .toast

/-- The click listener of the button. -/
def onFabClick : Program Vpn Unit := do
  match ← vpn .isRunningValue with
  | none => throwNullPointer
  | some true => LocalVPNService.stopTunnel
  | some false =>
    if ← vpn .prepare then
      vpn .launchConsent
    else
      startVpnService

/-- The callback of `startForResult`. -/
def onConsentResult (ok : Bool) : Program Vpn Unit := do
  if ok then startVpnService

end MainActivity

/-- A tunnel: its configuration, whether it is live (started and not ended), and what
the thread it started still has to do. -/
structure TunnelState where
  config : ServerConfig
  live : Bool
  thread : Program Vpn Unit

/-- The app around its tunnels, with the activity connected to the service. -/
structure VpnApp where
  /-- The value of `isRunning`. -/
  isRunning : Option Bool
  /-- The value posted to it and not delivered yet. -/
  pendingPost : Option Bool
  /-- `LocalVPNService.Running` -/
  running : Bool
  /-- What the handler on the main thread still has to do. -/
  main : Program Vpn Unit
  tunnels : List TunnelState
  /-- `LocalVPNService.tunnel` -/
  tunnel : Option ℕ
  /-- Consent requests that have no result yet. -/
  consents : ℕ

/-- A message of the main loop, or an operation of the main thread or of a tunnel thread. -/
inductive VpnLabel where
  | tap
  | deliver
  | consentResult (ok : Bool)
  | revoke
  | main (op : VpnOp) (reply : op.Reply)
  | thread (tunnel : ℕ) (op : VpnOp) (reply : op.Reply)

namespace VpnApp

/-- The service is connected and nothing has been started. -/
def start : VpnApp := ⟨some false, none, false, .done (), [], none, 0⟩

/-- The main thread waits for a message. -/
def idle (s : VpnApp) : Bool :=
  match s.main with
  | .done _ => true
  | .call .. => false

/-- An exception has ended the process. -/
def crashed (s : VpnApp) : Bool :=
  match s.main with
  | .call op _ => op = .throwNullPointer
  | .done _ => false

/-- The tunnel that the service refers to, with its configuration. -/
def current (s : VpnApp) : Option (ℕ × ServerConfig) :=
  s.tunnel.bind fun i => s.tunnels[i]?.map fun t => (i, t.config)

/-- The replies an operation may get. What the user has stored and chosen, and when the
native code returns, is left open. -/
def admits (s : VpnApp) : (op : VpnOp) → op.Reply → Bool
  | .isRunningValue, r => r = s.isRunning
  | .newTunnel _, r => r = s.tunnels.length
  | .getTunnel, r => r = s.current
  | _, _ => true

/-- The state after an operation: the native code returning ends its tunnel, and so does
stopping the engine. -/
def after (s : VpnApp) : (op : VpnOp) → op.Reply → VpnApp
  | .launchConsent, _ => { s with consents := s.consents + 1 }
  | .newTunnel config, r =>
    { s with tunnels := s.tunnels ++ [⟨config, false, .done ()⟩], tunnel := some r }
  | .postValue status, _ => { s with pendingPost := some status }
  | .setRunning status, _ => { s with running := status }
  | .startThread i config, _ =>
    { s with
      tunnels := s.tunnels.modify i fun t =>
        { t with live := true, thread := IPreflectorTunnel.run i config } }
  | .engineStart i, _ => { s with tunnels := s.tunnels.modify i fun t => { t with live := true } }
  | .nativeStartVpn i _, _ | .engineStop i, _ =>
    { s with tunnels := s.tunnels.modify i fun t => { t with live := false } }
  | _, _ => s

/-- One step; a handler starts only when the main thread is idle. `onRevoke` is taken for a
message of the main loop, though the system may call it on a thread of its own. -/
def step (s : VpnApp) (a : VpnLabel) : Option VpnApp :=
  if s.crashed then none
  else match a with
    | .tap => if s.idle then some { s with main := MainActivity.onFabClick } else none
    | .deliver =>
      if s.idle && s.pendingPost.isSome then
        some { s with isRunning := s.pendingPost, pendingPost := none }
      else none
    | .consentResult ok =>
      if s.idle && 0 < s.consents then
        some { s with main := MainActivity.onConsentResult ok, consents := s.consents - 1 }
      else none
    | .revoke => if s.idle then some { s with main := LocalVPNService.stopTunnel } else none
    | .main op r =>
      if s.admits op r then
        (s.main.resume op r).map fun q => { s with main := q }.after op r
      else none
    | .thread i op r =>
      if s.admits op r then
        s.tunnels[i]?.bind fun t => (t.thread.resume op r).map fun q =>
          { s with tunnels := s.tunnels.modify i fun t => { t with thread := q } }.after op r
      else none

end VpnApp

end HeptaVcn
