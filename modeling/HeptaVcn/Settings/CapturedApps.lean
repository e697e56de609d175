import Mathlib.Data.Set.Basic
import HeptaVcn.Settings.AppList
import HeptaVcn.Settings.Netmask

/-!
# Which applications use the VPN, `LocalVPNService.setupVPN`

The settings screen, the application lists and `setupVPN` together: from the stored mode
and list the builder is told which applications it captures. The own package is never
among them, since no list ever contains it and the other modes exclude it.
-/

namespace HeptaVcn

open Machine

/-! ## The interface builder -/

/-- What `VpnService.Builder` has been told. -/
structure VpnBuilder where
  mtu : Option ℤ
  addresses : List (String × ℤ)
  routes : List (String × ℤ)
  allowed : List String
  disallowed : List String

namespace VpnBuilder

def new : VpnBuilder := ⟨none, [], [], [], []⟩

def setMtu (b : VpnBuilder) (mtu : ℤ) : VpnBuilder := { b with mtu := some mtu }

def addAddress (b : VpnBuilder) (address : String) (prefixLength : ℤ) : VpnBuilder :=
  { b with addresses := b.addresses ++ [(address, prefixLength)] }

def addRoute (b : VpnBuilder) (address : String) (prefixLength : ℤ) : VpnBuilder :=
  { b with routes := b.routes ++ [(address, prefixLength)] }

def addAllowedApplication (b : VpnBuilder) (packageName : String) : VpnBuilder :=
  { b with allowed := b.allowed ++ [packageName] }

def addDisallowedApplication (b : VpnBuilder) (packageName : String) : VpnBuilder :=
  { b with disallowed := b.disallowed ++ [packageName] }

end VpnBuilder

/-- The installed packages; no package has an empty name. -/
structure Installed where
  packages : Set String
  name_ne_empty : "" ∉ packages

/-- The packages a VPN captures. Any allowed name, installed or not, leaves only the
allowed ones; otherwise all but the disallowed ones are captured. -/
def VpnBuilder.captured (b : VpnBuilder) (installed : Installed) : Set String :=
  if b.allowed = [] then {name ∈ installed.packages | name ∉ b.disallowed}
  else {name ∈ installed.packages | name ∈ b.allowed}

namespace LocalVPNService

def vpnRoute : String := "0.0.0.0"

/-- The part of `setupVPN` that chooses applications. -/
def addApplications (packageName : String) (s : SetModule) (builder : VpnBuilder) : VpnBuilder :=
  if MmkvManager.getAllowType s = MmkvManager.keyAppAllwoNone then
    builder.addDisallowedApplication packageName
  else if MmkvManager.getAllowType s = MmkvManager.keyAppAddAllow then
    (MmkvManager.decodeApplicationList s MmkvManager.keyAppAddAllow).foldl
      VpnBuilder.addAllowedApplication (builder.addAllowedApplication "")
  else if MmkvManager.getAllowType s = MmkvManager.keyAppAddDisAllow then
    (MmkvManager.decodeApplicationList s MmkvManager.keyAppAddDisAllow).foldl
      VpnBuilder.addDisallowedApplication (builder.addDisallowedApplication packageName)
  else
    builder

/-- `setupVPN` up to `establish`, which it does not reach if the netmask is not parsed. -/
def setupVPN (packageName : String) (s : SetModule) : Option VpnBuilder := do
  let prefixLength ← Utils.netmask2prefix (MmkvManager.getNetMask s)
  let builder := VpnBuilder.new.setMtu (MmkvManager.getMtu s)
  let builder := builder.addAddress (MmkvManager.getAddress s) prefixLength
  let builder := builder.addRoute vpnRoute 0
  some (addApplications packageName s builder)

end LocalVPNService

/-! ## The screens that change the settings -/

/-- The three check boxes of the settings screen. -/
inductive AppMode where
  | none
  | allow
  | disallow
  deriving DecidableEq

/-- The value stored for each mode. -/
def AppMode.key : AppMode → ℤ
  | .none => MmkvManager.keyAppAllwoNone
  | .allow => MmkvManager.keyAppAddAllow
  | .disallow => MmkvManager.keyAppAddDisAllow

/-- The settings and the application list screens that are open. -/
structure SettingsApp where
  setModule : SetModule
  screens : List AppListActivity

/-- What the user can do in the screens. -/
inductive SettingsLabel where
  | checkBox (mode : AppMode) (checked : Bool)
  | vpnAddr (value : String)
  | vpnNetmask (value : String)
  | vpnMtu (value : String)
  /-- A list is opened when the system knows these launcher activities. -/
  | openList (type : ℤ) (resolveInfos : List String)
  | toggle (screen row : ℕ)
  | ok (screen : ℕ)
  | back (screen : ℕ)

namespace SettingsApp

/-- Nothing has been set. -/
def start : SettingsApp := ⟨.empty, []⟩

/-- One step; a text that is not an integer ends the process when it is set as the MTU. -/
def step (packageName : String) (s : SettingsApp) : SettingsLabel → Option SettingsApp
  | .checkBox mode checked =>
    some (if checked then { s with setModule := MmkvManager.setAllowType s.setModule mode.key }
      else s)
  | .vpnAddr value =>
    some (if isBlank value then s
      else { s with setModule := MmkvManager.setAddress s.setModule value })
  | .vpnNetmask value =>
    some (if isBlank value then s
      else { s with setModule := MmkvManager.setNetMask s.setModule value })
  | .vpnMtu value =>
    if isBlank value then some s
    else (Java.parseInt value.toList).map fun mtu =>
      { s with setModule := MmkvManager.setMtu s.setModule mtu }
  | .openList type resolveInfos =>
    some { s with
      screens := s.screens ++ [.onCreate packageName resolveInfos s.setModule type] }
  | .toggle screen row =>
    s.screens[screen]?.bind fun a => (a.toggle row).map fun t =>
      { s with screens := s.screens.set screen t }
  | .ok screen =>
    s.screens[screen]?.map fun a =>
      ⟨a.onMenuItemClick s.setModule, s.screens.eraseIdx screen⟩
  | .back screen =>
    if screen < s.screens.length then some { s with screens := s.screens.eraseIdx screen }
    else Option.none

end SettingsApp

/-- The installed packages that a mode is meant to capture. -/
def AppMode.chosen (packageName : String) (s : SetModule) (installed : Installed) :
    AppMode → Set String
  | .none => {name ∈ installed.packages | name ≠ packageName}
  | .allow => {name ∈ installed.packages |
      name ∈ MmkvManager.decodeApplicationList s MmkvManager.keyAppAddAllow}
  | .disallow => {name ∈ installed.packages | name ≠ packageName ∧
      name ∉ MmkvManager.decodeApplicationList s MmkvManager.keyAppAddDisAllow}

/-! ## The own package is in no list -/

namespace AppListActivity

variable {a t : AppListActivity} {packageName : String}

/-- The screen neither shows the package nor has it in its list. -/
def Excludes (a : AppListActivity) (name : String) : Prop := name ∉ a.enableList ∧ ¬a.HasRow name

/-- A new screen excludes the app if the saved list does. -/
theorem excludes_onCreate {s : SetModule} {type : ℤ} {resolveInfos : List String}
    (h : packageName ∉ MmkvManager.decodeApplicationList s type) :
    (onCreate packageName resolveInfos s type).Excludes packageName := by
  refine ⟨h, fun hrow => ?_⟩
  have hne := ((rowsOf_onCreate packageName resolveInfos s type).hasRow_iff packageName).mp hrow
  exact hne.2 rfl

/-- A toggle adds only a name with a row, so the app stays excluded. -/
theorem Excludes.toggle {name : String} {row : ℕ} (h : a.Excludes name)
    (htoggle : a.toggle row = some t) : t.Excludes name := by
  obtain ⟨item, hitem, rfl⟩ := toggle_eq_some.mp htoggle
  have hne : item.packageName ≠ name := fun heq => h.2 ⟨item, List.mem_of_getElem? hitem, heq⟩
  refine ⟨fun hmem => ?_, fun hrow => h.2 ((hasRow_onCheckedChanged ..).mp hrow)⟩
  simp only [onCheckedChanged, onListener] at hmem
  split at hmem
  · rcases List.mem_append.mp hmem with hold | hnew
    · exact h.1 hold
    · exact hne (List.mem_singleton.mp hnew).symm
  · exact h.1 (List.mem_of_mem_erase hmem)

end AppListActivity

/-- Saving a list leaves the mode alone. -/
@[simp] theorem MmkvManager.getAllowType_encode (s : SetModule) (list : List String) (type : ℤ) :
    getAllowType (encodeApplicationList s list type) = getAllowType s := by
  unfold encodeApplicationList
  split <;> rfl

namespace SettingsApp

variable {packageName : String} {s t : SettingsApp}

/-- What the screens keep: the stored mode is one of the three, and neither a stored list
nor an open screen has the own package. -/
structure Sound (packageName : String) (s : SettingsApp) : Prop where
  mode : ∃ mode : AppMode, MmkvManager.getAllowType s.setModule = mode.key
  lists : ∀ type, packageName ∉ MmkvManager.decodeApplicationList s.setModule type
  screens : ∀ a ∈ s.screens, a.Excludes packageName

/-- The settings are sound before anything is saved. -/
theorem sound_start (packageName : String) : start.Sound packageName where
  mode := ⟨.none, rfl⟩
  lists type := by simp [start, SetModule.empty, MmkvManager.decodeApplicationList]
  screens := by simp [start]

/-- The texts set in the settings screen are not looked at when applications are chosen. -/
theorem Sound.of_eq (h : s.Sound packageName) (hscreens : t.screens = s.screens)
    (htype : t.setModule.type = s.setModule.type)
    (hallow : t.setModule.keyAppAddAllowList = s.setModule.keyAppAddAllowList)
    (hdisallow : t.setModule.keyAppAddDisAllowList = s.setModule.keyAppAddDisAllowList) :
    t.Sound packageName where
  mode := by
    rw [MmkvManager.getAllowType, htype]
    exact h.mode
  lists type := by
    rw [MmkvManager.decodeApplicationList, hallow, hdisallow]
    exact h.lists type
  screens := by
    rw [hscreens]
    exact h.screens

/-- Every operation on the settings keeps them sound. -/
theorem Sound.step (h : s.Sound packageName) {label : SettingsLabel}
    (hstep : s.step packageName label = some t) : t.Sound packageName := by
  cases label with
  | checkBox mode checked =>
    obtain rfl := Option.some.inj hstep
    cases checked with
    | true => exact ⟨⟨mode, rfl⟩, h.lists, h.screens⟩
    | false => exact h
  | vpnAddr value =>
    obtain rfl := Option.some.inj hstep
    split
    · exact h
    · exact h.of_eq rfl rfl rfl rfl
  | vpnNetmask value =>
    obtain rfl := Option.some.inj hstep
    split
    · exact h
    · exact h.of_eq rfl rfl rfl rfl
  | vpnMtu value =>
    simp only [SettingsApp.step] at hstep
    split at hstep
    · obtain rfl := Option.some.inj hstep
      exact h
    · obtain ⟨mtu, _, rfl⟩ := Option.map_eq_some_iff.mp hstep
      exact h.of_eq rfl rfl rfl rfl
  | openList type resolveInfos =>
    obtain rfl := Option.some.inj hstep
    refine ⟨h.mode, h.lists, fun a ha => ?_⟩
    rcases List.mem_append.mp ha with hold | hnew
    · exact h.screens a hold
    · obtain rfl := List.mem_singleton.mp hnew
      exact AppListActivity.excludes_onCreate (h.lists type)
  | toggle screen row =>
    obtain ⟨a, ha, hstep⟩ := Option.bind_eq_some_iff.mp hstep
    obtain ⟨a', htoggle, rfl⟩ := Option.map_eq_some_iff.mp hstep
    refine ⟨h.mode, h.lists, fun b hb => ?_⟩
    rcases List.mem_or_eq_of_mem_set hb with hold | rfl
    · exact h.screens b hold
    · exact (h.screens a (List.mem_of_getElem? ha)).toggle htoggle
  | ok screen =>
    obtain ⟨a, ha, rfl⟩ := Option.map_eq_some_iff.mp hstep
    refine ⟨?_, fun type => ?_, fun b hb => h.screens b (List.mem_of_mem_eraseIdx hb)⟩
    · simpa [AppListActivity.onMenuItemClick] using h.mode
    · rw [AppListActivity.onMenuItemClick]
      rcases MmkvManager.decodeApplicationList_encode_or s.setModule a.enableList a.type type with
        hsaved | hother
      · rw [hsaved]
        exact (h.screens a (List.mem_of_getElem? ha)).1
      · rw [hother]
        exact h.lists type
  | back screen =>
    simp only [SettingsApp.step] at hstep
    split at hstep
    · obtain rfl := Option.some.inj hstep
      exact ⟨h.mode, h.lists, fun b hb => h.screens b (List.mem_of_mem_eraseIdx hb)⟩
    · cases hstep

end SettingsApp

/-! ## What the builder is told -/

namespace VpnBuilder

/-- Allowing names one by one appends them to the allowed ones. -/
theorem foldl_addAllowed (names : List String) (b : VpnBuilder) :
    names.foldl addAllowedApplication b = { b with allowed := b.allowed ++ names } := by
  induction names generalizing b with
  | nil => simp
  | cons name names ih => simp [ih, addAllowedApplication]

/-- Disallowing names one by one appends them to the disallowed ones. -/
theorem foldl_addDisallowed (names : List String) (b : VpnBuilder) :
    names.foldl addDisallowedApplication b = { b with disallowed := b.disallowed ++ names } := by
  induction names generalizing b with
  | nil => simp
  | cons name names ih => simp [ih, addDisallowedApplication]

end VpnBuilder

/-- In each mode the builder captures the installed packages that the mode is meant to. -/
theorem LocalVPNService.captured_addApplications (packageName : String) {s : SetModule}
    {mode : AppMode} (hmode : MmkvManager.getAllowType s = mode.key) (installed : Installed)
    {b : VpnBuilder} (hallowed : b.allowed = []) (hdisallowed : b.disallowed = []) :
    (addApplications packageName s b).captured installed = mode.chosen packageName s installed := by
  ext name
  cases mode with
  | none =>
    simp [addApplications, hmode, AppMode.key, AppMode.chosen, VpnBuilder.captured,
      VpnBuilder.addDisallowedApplication, hallowed, hdisallowed]
  | allow =>
    have hne : name ∈ installed.packages → name ≠ "" := fun hmem heq =>
      installed.name_ne_empty (heq ▸ hmem)
    have hkeys : MmkvManager.keyAppAddAllow ≠ MmkvManager.keyAppAllwoNone := by decide
    simp +contextual [addApplications, hmode, AppMode.key, AppMode.chosen, VpnBuilder.captured,
      VpnBuilder.foldl_addAllowed, VpnBuilder.addAllowedApplication, hallowed, hkeys, hne]
  | disallow =>
    have hkeys : MmkvManager.keyAppAddDisAllow ≠ MmkvManager.keyAppAllwoNone ∧
        MmkvManager.keyAppAddDisAllow ≠ MmkvManager.keyAppAddAllow := by decide
    simp [addApplications, hmode, AppMode.key, AppMode.chosen, VpnBuilder.captured,
      VpnBuilder.foldl_addDisallowed, VpnBuilder.addDisallowedApplication, hallowed, hdisallowed,
      hkeys]

/-- Whatever the user has done in the settings, `setupVPN` captures the applications of the
stored mode and lists, and never the own package. -/
theorem SettingsApp.captured_setupVPN {packageName : String} {tr : List SettingsLabel}
    {s : SettingsApp} (hrun : run (step packageName) start tr = some s) (installed : Installed)
    {b : VpnBuilder} (hsetup : LocalVPNService.setupVPN packageName s.setModule = some b) :
    (∃ mode : AppMode, MmkvManager.getAllowType s.setModule = mode.key ∧
      b.captured installed = mode.chosen packageName s.setModule installed) ∧
      packageName ∉ b.captured installed := by
  have hsound : s.Sound packageName :=
    invariant (fun _ _ _ hs => hs.step) (sound_start packageName) hrun
  obtain ⟨mode, hmode⟩ := hsound.mode
  obtain ⟨prefixLength, _, hb⟩ := Option.bind_eq_some_iff.mp hsetup
  obtain rfl := Option.some.inj hb
  have hcaptured := LocalVPNService.captured_addApplications packageName hmode installed
    (b := ((VpnBuilder.new.setMtu (MmkvManager.getMtu s.setModule)).addAddress
      (MmkvManager.getAddress s.setModule) prefixLength).addRoute LocalVPNService.vpnRoute 0)
    rfl rfl
  refine ⟨⟨mode, hmode, hcaptured⟩, ?_⟩
  rw [hcaptured]
  cases mode with
  | none => exact fun hmem => hmem.2 rfl
  | allow => exact fun hmem => hsound.lists _ hmem.2
  | disallow => exact fun hmem => hmem.2.1 rfl

/-- The app itself and a browser. -/
def appAndBrowser : Installed := ⟨{"vcn", "browser"}, by simp⟩

/-- The browser is chosen as the only allowed application. -/
theorem SettingsApp.captured_setupVPN_browserOnly : ∃ s b,
    run (step "vcn") start
      [.checkBox .allow true, .openList 1 ["vcn", "browser"], .toggle 0 0, .ok 0] = some s ∧
    LocalVPNService.setupVPN "vcn" s.setModule = some b ∧
    (∃ mode : AppMode, MmkvManager.getAllowType s.setModule = mode.key ∧
      b.captured appAndBrowser = mode.chosen "vcn" s.setModule appAndBrowser) ∧
    "vcn" ∉ b.captured appAndBrowser :=
  ⟨_, _, rfl, rfl, @captured_setupVPN "vcn" [.checkBox .allow true,
    .openList 1 ["vcn", "browser"], .toggle 0 0, .ok 0] _ rfl appAndBrowser _ rfl⟩

end HeptaVcn
