import HeptaVcn.Settings.CapturedApps

/-!
# The settings screen, `SettingsActivity.kt`

The check boxes, the lists they unlock and the summaries stand beside the stored settings
and are changed with them, tap by tap. They agree in every state that the user can reach,
so that a tunnel is set up with what the screen shows.
-/

namespace HeptaVcn

open Machine

/-- The check boxes, which the preferences library keeps on its own. -/
structure CheckBoxes where
  proxyNone : Bool
  proxyAllow : Bool
  proxyDisall : Bool
  deriving DecidableEq

/-- The preferences of `SettingsFragment`. -/
structure SettingsFragment extends CheckBoxes where
  /-- `proxy_allow_list?.isEnabled` -/
  proxyAllowList : Bool
  /-- `proxy_disall_list?.isEnabled` -/
  proxyDisallList : Bool
  /-- The summaries of the three text preferences. -/
  vpnAddr : Option String
  vpnNetmask : Option String
  vpnMtu : Option String
  deriving DecidableEq

namespace SettingsFragment

/-- `addPreferencesFromResource`: the boxes are as they were left. -/
def inflate (checkBoxes : CheckBoxes) : SettingsFragment :=
  ⟨checkBoxes, true, true, none, none, none⟩

/-- The five properties that each mode sets, in its listener and when the screen opens. -/
def setMode (f : SettingsFragment) (mode : AppMode) : SettingsFragment :=
  { f with
    proxyNone := mode = .none
    proxyAllow := mode = .allow
    proxyAllowList := mode = .allow
    proxyDisall := mode = .disallow
    proxyDisallList := mode = .disallow }

/-- `onCreatePreferences` -/
def onCreatePreferences (checkBoxes : CheckBoxes) (s : SetModule) : SettingsFragment :=
  let f := inflate checkBoxes
  let type := MmkvManager.getAllowType s
  if type = MmkvManager.keyAppAllwoNone then f.setMode .none
  else if type = MmkvManager.keyAppAddAllow then f.setMode .allow
  else if type = MmkvManager.keyAppAddDisAllow then f.setMode .disallow
  else f

/-- `onStart` -/
def onStart (f : SettingsFragment) (s : SetModule) : SettingsFragment :=
  { f with
    vpnMtu := some (String.ofList (Java.intText (MmkvManager.getMtu s)))
    vpnNetmask := some (MmkvManager.getNetMask s)
    vpnAddr := some (MmkvManager.getAddress s) }

/-- `isChecked` of the check box of a mode. -/
def isChecked (f : SettingsFragment) : AppMode → Bool
  | .none => f.proxyNone
  | .allow => f.proxyAllow
  | .disallow => f.proxyDisall

/-- `setChecked` of the check box of a mode. -/
def setChecked (f : SettingsFragment) (mode : AppMode) (checked : Bool) : SettingsFragment :=
  match mode with
  | .none => { f with proxyNone := checked }
  | .allow => { f with proxyAllow := checked }
  | .disallow => { f with proxyDisall := checked }

/-- The `OnPreferenceChangeListener` of the check box of a mode; `false` is a refusal. -/
def onModeChange (f : SettingsFragment) (s : SetModule) (mode : AppMode) (any : Bool) :
    Bool × SettingsFragment × SetModule :=
  if any then (true, f.setMode mode, MmkvManager.setAllowType s mode.key) else (false, f, s)

/-- A check box is tapped: it changes unless its listener refuses. -/
def tap (f : SettingsFragment) (s : SetModule) (mode : AppMode) : SettingsFragment × SetModule :=
  let newValue := !f.isChecked mode
  let (accepted, f, s) := f.onModeChange s mode newValue
  (if accepted then f.setChecked mode newValue else f, s)

/-- The listener of `vpn_addr`. -/
def onAddrChange (f : SettingsFragment) (s : SetModule) (value : String) :
    SettingsFragment × SetModule :=
  if isBlank value then (f, s)
  else ({ f with vpnAddr := some value }, MmkvManager.setAddress s value)

/-- The listener of `vpn_netmask`. -/
def onNetmaskChange (f : SettingsFragment) (s : SetModule) (value : String) :
    SettingsFragment × SetModule :=
  if isBlank value then (f, s)
  else ({ f with vpnNetmask := some value }, MmkvManager.setNetMask s value)

/-- The listener of `vpn_mtu`; the `NumberFormatException` of `toInt` is `none`. -/
def onMtuChange (f : SettingsFragment) (s : SetModule) (value : String) :
    Option (SettingsFragment × SetModule) :=
  if isBlank value then some (f, s)
  else (Java.parseInt value.toList).map fun mtu =>
    ({ f with vpnMtu := some value }, MmkvManager.setMtu s mtu)

end SettingsFragment

/-- The settings, the settings screen if it is open, and the list opened over it. -/
structure SettingsUi where
  setModule : SetModule
  checkBoxes : CheckBoxes
  fragment : Option SettingsFragment
  appList : Option AppListActivity

/-- What the user does; `resolveInfos` are the launcher activities of the device. -/
inductive SettingsTap where
  | openSettings
  | checkBox (mode : AppMode)
  | addr (value : String)
  | netmask (value : String)
  | mtu (value : String)
  | allowList (resolveInfos : List String)
  | disallList (resolveInfos : List String)
  | switch (row : ℕ)
  | ok
  | back

namespace SettingsUi

/-- The app is started for the first time. -/
def start : SettingsUi := ⟨.empty, ⟨false, false, false⟩, none, none⟩

/-- The screen and the settings after a listener; its boxes are kept. -/
def changed (u : SettingsUi) (fs : SettingsFragment × SetModule) : SettingsUi :=
  { u with fragment := some fs.1, setModule := fs.2, checkBoxes := fs.1.toCheckBoxes }

/-- An exception has ended the process. -/
def crashed (u : SettingsUi) : SettingsUi := { u with fragment := none, appList := none }

/-- The list is closed, and the settings screen below it is started again. -/
def restarted (u : SettingsUi) (f : SettingsFragment) (s : SetModule) : SettingsUi :=
  { u with setModule := s, fragment := some (f.onStart s), appList := none }

/-- One tap; what is not shown or not enabled cannot be tapped. -/
def step (packageName : String) (u : SettingsUi) (a : SettingsTap) : Option SettingsUi :=
  match u.fragment, u.appList with
  | none, _ =>
    match a with
    | .openSettings =>
      let f := SettingsFragment.onCreatePreferences u.checkBoxes u.setModule
      some (u.changed (f.onStart u.setModule, u.setModule))
    | _ => none
  | some f, none =>
    match a with
    | .checkBox mode => some (u.changed (f.tap u.setModule mode))
    | .addr value => some (u.changed (f.onAddrChange u.setModule value))
    | .netmask value => some (u.changed (f.onNetmaskChange u.setModule value))
    | .mtu value => some ((f.onMtuChange u.setModule value).elim u.crashed u.changed)
    | .allowList resolveInfos =>
      if f.proxyAllowList then
        some { u with appList := some (.onCreate packageName resolveInfos u.setModule
          MmkvManager.keyAppAddAllow) }
      else none
    | .disallList resolveInfos =>
      if f.proxyDisallList then
        some { u with appList := some (.onCreate packageName resolveInfos u.setModule
          MmkvManager.keyAppAddDisAllow) }
      else none
    | .back => some { u with fragment := none }
    | _ => none
  | some f, some screen =>
    match a with
    | .switch row => (screen.toggle row).map fun t => { u with appList := some t }
    | .ok => some (u.restarted f (screen.onMenuItemClick u.setModule))
    | .back => some (u.restarted f u.setModule)
    | _ => none

end SettingsUi

/-! ## What the screen shows -/

/-- The screen shows the settings: the box of the stored mode is the only one checked and
its list the only one enabled, and the summaries are the stored parameters. -/
structure SettingsFragment.Shows (f : SettingsFragment) (s : SetModule) (mode : AppMode) :
    Prop where
  stored : MmkvManager.getAllowType s = mode.key
  checked : ∀ mode', f.isChecked mode' = true ↔ mode' = mode
  allowList : f.proxyAllowList = true ↔ mode = .allow
  disallList : f.proxyDisallList = true ↔ mode = .disallow
  addr : f.vpnAddr = some (MmkvManager.getAddress s)
  netmask : f.vpnNetmask = some (MmkvManager.getNetMask s)
  mtu : ∃ text, f.vpnMtu = some text ∧ Java.parseInt text.toList = some (MmkvManager.getMtu s)

namespace SettingsFragment

variable {f : SettingsFragment} {s : SetModule} {mode : AppMode}

/-- A mode is stored together with what it sets on the screen. -/
theorem Shows.setMode (hf : f.Shows s mode) (mode' : AppMode) :
    (f.setMode mode').Shows (MmkvManager.setAllowType s mode'.key) mode' where
  stored := rfl
  checked mode'' := by cases mode'' <;> simp [SettingsFragment.setMode, isChecked, eq_comm]
  allowList := by simp [SettingsFragment.setMode]
  disallList := by simp [SettingsFragment.setMode]
  addr := hf.addr
  netmask := hf.netmask
  mtu := hf.mtu

/-- Checking a box that is already checked changes nothing. -/
@[simp] theorem setChecked_setMode (f : SettingsFragment) (mode : AppMode) :
    (f.setMode mode).setChecked mode true = f.setMode mode := by
  cases mode <;> rfl

/-- The screen opens on the stored mode and parameters. -/
theorem shows_onStart (checkBoxes : CheckBoxes) (hmode : MmkvManager.getAllowType s = mode.key)
    (hmtu : Java.intMin ≤ MmkvManager.getMtu s ∧ MmkvManager.getMtu s ≤ Java.intMax) :
    ((onCreatePreferences checkBoxes s).onStart s).Shows s mode := by
  have hcreate : onCreatePreferences checkBoxes s = (inflate checkBoxes).setMode mode := by
    unfold onCreatePreferences
    cases mode <;> simp [hmode, AppMode.key, MmkvManager.keyAppAllwoNone,
      MmkvManager.keyAppAddAllow, MmkvManager.keyAppAddDisAllow]
  rw [hcreate]
  refine ⟨hmode, fun mode' => ?_, ?_, ?_, rfl, rfl, _, rfl, ?_⟩
  · cases mode' <;> simp [onStart, SettingsFragment.setMode, isChecked, eq_comm]
  · simp [onStart, SettingsFragment.setMode]
  · simp [onStart, SettingsFragment.setMode]
  · rw [String.toList_ofList]
    exact Java.parseInt_intText hmtu.1 hmtu.2

/-- Tapping a box stores its mode, unless it is the mode already. -/
theorem Shows.tap (hf : f.Shows s mode) (mode' : AppMode) :
    ∃ mode'', (f.tap s mode').1.Shows (f.tap s mode').2 mode'' := by
  by_cases h : mode' = mode
  · have hchecked := (hf.checked mode').mpr h
    simp only [SettingsFragment.tap, onModeChange, hchecked]
    exact ⟨mode, hf⟩
  · have hchecked : f.isChecked mode' = false := by
      rw [← Bool.not_eq_true, hf.checked]
      exact h
    refine ⟨mode', ?_⟩
    simpa [SettingsFragment.tap, onModeChange, hchecked] using hf.setMode mode'

/-- The texts are not looked at by the boxes and the lists. -/
theorem Shows.withParameters (hf : f.Shows s mode) {t : SetModule} {g : SettingsFragment}
    (htype : t.type = s.type) (hboxes : g.toCheckBoxes = f.toCheckBoxes)
    (hallow : g.proxyAllowList = f.proxyAllowList)
    (hdisall : g.proxyDisallList = f.proxyDisallList)
    (haddr : g.vpnAddr = some (MmkvManager.getAddress t))
    (hnetmask : g.vpnNetmask = some (MmkvManager.getNetMask t))
    (hmtu : ∃ text, g.vpnMtu = some text ∧
      Java.parseInt text.toList = some (MmkvManager.getMtu t)) : g.Shows t mode where
  stored := by rw [MmkvManager.getAllowType, htype]; exact hf.stored
  checked mode' := by
    have hchecked : g.isChecked mode' = f.isChecked mode' := by
      cases mode' <;> simp [isChecked, hboxes]
    rw [hchecked, hf.checked]
  allowList := by rw [hallow, hf.allowList]
  disallList := by rw [hdisall, hf.disallList]
  addr := haddr
  netmask := hnetmask
  mtu := hmtu

/-- A new address is saved as it is shown. -/
theorem Shows.onAddrChange (hf : f.Shows s mode) (value : String) :
    (f.onAddrChange s value).1.Shows (f.onAddrChange s value).2 mode := by
  unfold SettingsFragment.onAddrChange
  split
  · exact hf
  · exact hf.withParameters rfl rfl rfl rfl rfl hf.netmask hf.mtu

/-- A new netmask is saved as it is shown. -/
theorem Shows.onNetmaskChange (hf : f.Shows s mode) (value : String) :
    (f.onNetmaskChange s value).1.Shows (f.onNetmaskChange s value).2 mode := by
  unfold SettingsFragment.onNetmaskChange
  split
  · exact hf
  · exact hf.withParameters rfl rfl rfl rfl hf.addr rfl hf.mtu

/-- A new MTU is saved as it is shown, unless it is no number. -/
theorem Shows.onMtuChange (hf : f.Shows s mode) {value : String}
    {fs : SettingsFragment × SetModule} (hfs : f.onMtuChange s value = some fs) :
    fs.1.Shows fs.2 mode := by
  unfold SettingsFragment.onMtuChange at hfs
  split at hfs
  · obtain rfl := Option.some.inj hfs
    exact hf
  · obtain ⟨mtu, hmtu, rfl⟩ := Option.map_eq_some_iff.mp hfs
    exact hf.withParameters rfl rfl rfl rfl hf.addr hf.netmask ⟨value, rfl, hmtu⟩

/-- The screen shows the settings again when it is started over a list that was saved. -/
theorem Shows.onStart (hf : f.Shows s mode) {t : SetModule} (htype : t.type = s.type)
    (hmtu : t.mtu = s.mtu) : (f.onStart t).Shows t mode := by
  obtain ⟨text, _, hparse⟩ := hf.mtu
  obtain ⟨hmin, hmax⟩ := Java.range_of_parseInt hparse
  refine hf.withParameters htype rfl rfl rfl rfl rfl ⟨_, rfl, ?_⟩
  rw [String.toList_ofList, MmkvManager.getMtu, hmtu]
  exact Java.parseInt_intText hmin hmax

end SettingsFragment

/-- Saving a list leaves the mode and the MTU. -/
theorem MmkvManager.parameters_encode (s : SetModule) (list : List String) (type : ℤ) :
    (encodeApplicationList s list type).type = s.type ∧
      (encodeApplicationList s list type).mtu = s.mtu := by
  unfold encodeApplicationList
  split <;> exact ⟨rfl, rfl⟩

namespace SettingsUi

/-- One mode is stored; the open screen shows it, and the list opened over it is its own. -/
structure Agrees (u : SettingsUi) (mode : AppMode) : Prop where
  stored : MmkvManager.getAllowType u.setModule = mode.key
  mtu : Java.intMin ≤ MmkvManager.getMtu u.setModule ∧
    MmkvManager.getMtu u.setModule ≤ Java.intMax
  shows : ∀ f, u.fragment = some f → f.Shows u.setModule mode
  appList : ∀ screen, u.appList = some screen → screen.type = mode.key

/-- A screen that shows what is saved agrees with it, and so does the list screen of its mode. -/
theorem Shows.agrees {u : SettingsUi} {f : SettingsFragment} {mode : AppMode}
    (hf : f.Shows u.setModule mode) (hfragment : u.fragment = some f)
    (happList : ∀ screen, u.appList = some screen → screen.type = mode.key) :
    u.Agrees mode := by
  obtain ⟨text, _, hparse⟩ := hf.mtu
  refine ⟨hf.stored, Java.range_of_parseInt hparse, fun g hg => ?_, happList⟩
  obtain rfl := Option.some.inj (hfragment.symm.trans hg)
  exact hf

/-- At first no screen is open and no mode is chosen. -/
theorem agrees_start : start.Agrees .none where
  stored := rfl
  mtu := by decide
  shows _ h := nomatch h
  appList _ h := nomatch h

section Step

variable {packageName : String} {u v : SettingsUi} {f : SettingsFragment} {mode : AppMode}

/-- What a listener leaves on the screen and in the settings is kept. -/
theorem agrees_changed {fs : SettingsFragment × SetModule} (happList : u.appList = none)
    (hfs : fs.1.Shows fs.2 mode) : (u.changed fs).Agrees mode := by
  refine Shows.agrees (u := u.changed fs) hfs rfl fun screen hscreen => ?_
  rw [changed, happList] at hscreen
  cases hscreen

/-- A crash closes the screens and keeps what is saved. -/
theorem Agrees.crashed (h : u.Agrees mode) : u.crashed.Agrees mode :=
  ⟨h.stored, h.mtu, (fun _ hf => nomatch hf), fun _ hscreen => nomatch hscreen⟩

/-- A list that is opened is the one that the mode reads. -/
theorem Agrees.openList (h : u.Agrees mode) (hset : v.setModule = u.setModule)
    (hfragment : v.fragment = u.fragment) {screen : AppListActivity}
    (hscreen : v.appList = some screen) (htype : screen.type = mode.key) : v.Agrees mode := by
  refine ⟨by rw [hset]; exact h.stored, by rw [hset]; exact h.mtu, ?_, fun screen' hscreen' => ?_⟩
  · rw [hset, hfragment]
    exact h.shows
  · obtain rfl := Option.some.inj (hscreen.symm.trans hscreen')
    exact htype

/-- Coming back from a list changes at most what is in it. -/
theorem Agrees.restarted (h : u.Agrees mode) (hf : u.fragment = some f) {s : SetModule}
    (htype : s.type = u.setModule.type) (hmtu : s.mtu = u.setModule.mtu) :
    (u.restarted f s).Agrees mode :=
  Shows.agrees (u := u.restarted f s) ((h.shows f hf).onStart htype hmtu) rfl
    fun _ hscreen => nomatch hscreen

/-- Every tap keeps the screens in agreement with what is saved. -/
theorem Agrees.step (h : u.Agrees mode) {a : SettingsTap}
    (hstep : u.step packageName a = some v) : ∃ mode', v.Agrees mode' := by
  unfold SettingsUi.step at hstep
  cases hfragment : u.fragment with
  | none =>
    rw [hfragment] at hstep
    cases a with
    | openSettings =>
      obtain rfl := Option.some.inj hstep
      have hshows := SettingsFragment.shows_onStart u.checkBoxes h.stored h.mtu
      refine ⟨mode, Shows.agrees hshows rfl fun screen hscreen => ?_⟩
      exact h.appList screen hscreen
    | checkBox | addr | netmask | mtu | allowList | disallList | switch | ok | back => cases hstep
  | some f =>
    have hf := h.shows f hfragment
    rw [hfragment] at hstep
    cases happList : u.appList with
    | none =>
      rw [happList] at hstep
      cases a with
      | checkBox mode' =>
        obtain rfl := Option.some.inj hstep
        obtain ⟨mode'', hshows⟩ := hf.tap mode'
        exact ⟨mode'', agrees_changed happList hshows⟩
      | addr value =>
        obtain rfl := Option.some.inj hstep
        exact ⟨mode, agrees_changed happList (hf.onAddrChange value)⟩
      | netmask value =>
        obtain rfl := Option.some.inj hstep
        exact ⟨mode, agrees_changed happList (hf.onNetmaskChange value)⟩
      | mtu value =>
        obtain rfl := Option.some.inj hstep
        cases hfs : f.onMtuChange u.setModule value with
        | none => exact ⟨mode, h.crashed⟩
        | some fs => exact ⟨mode, agrees_changed happList (hf.onMtuChange hfs)⟩
      | allowList resolveInfos =>
        obtain ⟨henabled, rfl⟩ :=
          Option.ite_none_right_eq_some.mp hstep |>.imp_right Option.some.inj
        refine ⟨mode, h.openList rfl hfragment.symm rfl ?_⟩
        rw [hf.allowList.mp henabled]
        rfl
      | disallList resolveInfos =>
        obtain ⟨henabled, rfl⟩ :=
          Option.ite_none_right_eq_some.mp hstep |>.imp_right Option.some.inj
        refine ⟨mode, h.openList rfl hfragment.symm rfl ?_⟩
        rw [hf.disallList.mp henabled]
        rfl
      | back =>
        obtain rfl := Option.some.inj hstep
        refine ⟨mode, h.stored, h.mtu, (fun _ hf => nomatch hf), fun _ hscreen => ?_⟩
        cases hscreen
      | openSettings | switch | ok => cases hstep
    | some screen =>
      rw [happList] at hstep
      cases a with
      | switch row =>
        obtain ⟨t, htoggle, rfl⟩ := Option.map_eq_some_iff.mp hstep
        obtain ⟨item, _, rfl⟩ := AppListActivity.toggle_eq_some.mp htoggle
        exact ⟨mode, h.openList rfl hfragment.symm rfl (h.appList screen happList)⟩
      | ok =>
        obtain rfl := Option.some.inj hstep
        have hkept := MmkvManager.parameters_encode u.setModule screen.enableList screen.type
        exact ⟨mode, h.restarted hfragment hkept.1 hkept.2⟩
      | back =>
        obtain rfl := Option.some.inj hstep
        exact ⟨mode, h.restarted hfragment rfl rfl⟩
      | openSettings | checkBox | addr | netmask | mtu | allowList | disallList => cases hstep

end Step

/-- In every state that the user can reach, the open screen shows the settings, and the
list opened over it is that of the checked box. -/
theorem agrees_of_run {packageName : String} {tr : List SettingsTap} {u : SettingsUi}
    (hrun : run (step packageName) start tr = some u) : ∃ mode, u.Agrees mode :=
  invariant (I := fun u => ∃ mode, u.Agrees mode) (fun _ _ _ ⟨_, h⟩ hstep => h.step hstep)
    ⟨.none, agrees_start⟩ hrun

end SettingsUi

/-- The interface is built from what the screen shows: the MTU, the address and the netmask
of the summaries, and the applications that the checked box stands for. -/
structure VpnBuilder.BuiltFrom (b : VpnBuilder) (packageName : String) (s : SetModule)
    (f : SettingsFragment) : Prop where
  mtu : ∃ text, f.vpnMtu = some text ∧ b.mtu = Java.parseInt text.toList
  addresses : ∃ address netmask prefixLength, f.vpnAddr = some address ∧
    f.vpnNetmask = some netmask ∧ Utils.netmask2prefix netmask = some prefixLength ∧
    b.addresses = [(address, prefixLength)]
  captured : ∀ mode, f.isChecked mode = true →
    ∀ installed, b.captured installed = mode.chosen packageName s installed

/-- Choosing applications leaves the parameters. -/
theorem LocalVPNService.parameters_addApplications (packageName : String) (s : SetModule)
    (b : VpnBuilder) :
    (addApplications packageName s b).mtu = b.mtu ∧
      (addApplications packageName s b).addresses = b.addresses := by
  unfold addApplications
  split
  · exact ⟨rfl, rfl⟩
  split
  · rw [VpnBuilder.foldl_addAllowed]
    exact ⟨rfl, rfl⟩
  split
  · rw [VpnBuilder.foldl_addDisallowed]
    exact ⟨rfl, rfl⟩
  · exact ⟨rfl, rfl⟩

/-- A screen that shows the settings shows what `setupVPN` builds from them. -/
theorem SettingsFragment.Shows.builtFrom {f : SettingsFragment} {s : SetModule} {mode : AppMode}
    (hf : f.Shows s mode) {packageName : String} {b : VpnBuilder}
    (hsetup : LocalVPNService.setupVPN packageName s = some b) :
    b.BuiltFrom packageName s f := by
  obtain ⟨prefixLength, hprefix, hb⟩ := Option.bind_eq_some_iff.mp hsetup
  obtain rfl := Option.some.inj hb
  obtain ⟨text, htext, hparse⟩ := hf.mtu
  refine ⟨⟨text, htext, ?_⟩, ⟨_, _, prefixLength, hf.addr, hf.netmask, hprefix, ?_⟩,
    fun mode' hchecked installed => ?_⟩
  · rw [(LocalVPNService.parameters_addApplications ..).1, hparse]
    rfl
  · rw [(LocalVPNService.parameters_addApplications ..).2]
    rfl
  · obtain rfl := (hf.checked mode').mp hchecked
    exact LocalVPNService.captured_addApplications packageName hf.stored installed rfl rfl

/-- Whatever the user has tapped in the settings, exactly one box is checked on the open
screen, a list opened over it is that of the box, and `setupVPN` builds the interface from
what the screen shows. -/
theorem SettingsUi.builtFrom_of_run {packageName : String} {tr : List SettingsTap}
    {u : SettingsUi} (hrun : run (step packageName) start tr = some u) {f : SettingsFragment}
    (hfragment : u.fragment = some f) :
    (∃! mode, f.isChecked mode = true) ∧
      (∀ screen, u.appList = some screen →
        ∀ mode, f.isChecked mode = true → screen.type = mode.key) ∧
      ∀ b, LocalVPNService.setupVPN packageName u.setModule = some b →
        b.BuiltFrom packageName u.setModule f := by
  obtain ⟨mode, h⟩ := agrees_of_run hrun
  have hf := h.shows f hfragment
  refine ⟨⟨mode, (hf.checked mode).mpr rfl, fun mode' => (hf.checked mode').mp⟩,
    fun screen hscreen mode' hchecked => ?_, fun b hsetup => hf.builtFrom hsetup⟩
  rw [(hf.checked mode').mp hchecked]
  exact h.appList screen hscreen

/-- The browser is excluded, and the other parameters are set. -/
def SettingsTap.browserExcluded : List SettingsTap :=
  [.openSettings, .checkBox .disallow, .disallList ["vcn", "browser"], .switch 0, .ok,
    .addr "10.8.0.2", .netmask "255.255.255.0", .mtu "+1500"]

/-- An instance: one app is excluded and the tunnel is built. -/
theorem SettingsUi.builtFrom_browserExcluded : ∃ u f,
    run (step "vcn") start SettingsTap.browserExcluded = some u ∧ u.fragment = some f ∧
    (∃! mode, f.isChecked mode = true) ∧
      (∀ screen, u.appList = some screen →
        ∀ mode, f.isChecked mode = true → screen.type = mode.key) ∧
      ∀ b, LocalVPNService.setupVPN "vcn" u.setModule = some b →
        b.BuiltFrom "vcn" u.setModule f :=
  ⟨_, _, rfl, rfl, builtFrom_of_run
    (show run (step "vcn") start SettingsTap.browserExcluded = some _ from rfl) rfl⟩

end HeptaVcn
