import HeptaVcn.Store.CrashSafety
import HeptaVcn.Store.InStep

/-!
# The configuration of the running server

The edit and remove buttons of a row look at the selected server, but a tunnel runs
with the server that was selected when it was started. The two agree as long as the
buttons of the running server's row are tapped only while that server is selected.
-/

namespace HeptaVcn

open Machine

/-- The main screen, the dialog that confirms a removal, or the configuration screen
with the guid it was opened for (empty for a new server) and its lazy `isRunning`. -/
inductive Screen where
  | main
  | removal (guid : String)
  | config (editGuid : String) (isRunning : Bool)
  deriving DecidableEq, Repr

/-- The app and the tunnel, whose running flag is up to date on the main screen. -/
structure Ui where
  app : App
  screen : Screen
  /-- The guid and the configuration the tunnel was started with, while it runs. -/
  running : Option (String × ServerConfig)

/-- What the user does on a screen; a tunnel may also end by itself. `uuid` is what
`getUuid` returns if it is asked. -/
inductive UserAction where
  | select (guid : String)
  | start (established : Bool)
  | stop
  | tunnelEnds
  | openEdit (guid : String)
  | openNew
  | save (uuid : String) (form : ConfigActivity.Form)
  | back
  | askRemoval (guid : String)
  | confirmRemoval

namespace Ui

/-- The app comes up and shows the main screen. -/
def launch (store : Store) : Ui := ⟨(App.launch store).reload, .main, none⟩

/-- `MainActivity.startVpnService` and `LocalVPNService.startVpnService`; `established`
says whether `setupVPN` yields a descriptor. A failing `config!!` ends the app. -/
def start (u : Ui) (established : Bool) : Ui :=
  match u.app.store.selectedServer with
  | none => u
  | some guid =>
    if established then
      match ((MmkvManager.decodeServerConfig guid).exec storages u.app.store).1 with
      | some config => { u with running := some (guid, config) }
      | none => launch u.app.store
    else u

/-- The edit button of a row; the intent carries the running flag. -/
def openEdit (u : Ui) (guid : String) : Ui :=
  let isRunning := ((ConfigActivity.isRunning u.running.isSome guid).exec storages u.app.store).1
  { u with screen := .config guid isRunning }

/-- The save button: the screen finishes once the server is saved. -/
def save (u : Ui) (uuid editGuid : String) (form : ConfigActivity.Form) : Ui :=
  let app := u.app.save uuid editGuid form
  match ((ConfigActivity.saveServer uuid editGuid form).exec storages u.app.store).1 with
  | .rejected => { u with app := app }
  | .saved => { u with app := app.reload, screen := .main }
  | .numberFormatException => ⟨app.reload, .main, none⟩

/-- The remove button of a row. -/
def askRemoval (u : Ui) (guid : String) : Ui :=
  if ((MainRecyclerAdapter.asksToRemove guid).exec storages u.app.store).1 then
    { u with screen := .removal guid }
  else u

/-- What is shown and visible can be tapped; the save button is not while `isRunning`. -/
def enabled (u : Ui) : UserAction → Bool
  | .select guid | .openEdit guid | .askRemoval guid =>
    u.screen = .main && u.app.viewModel.Shows guid
  | .start _ => u.screen = .main && u.running.isNone
  | .stop => u.screen = .main && u.running.isSome
  | .tunnelEnds => true
  | .openNew => u.screen = .main
  | .save .. =>
    match u.screen with
    | .config _ isRunning => !isRunning
    | _ => false
  | .back => u.screen ≠ .main
  | .confirmRemoval =>
    match u.screen with
    | .removal _ => true
    | _ => false

/-- What an action does. -/
def after (u : Ui) : UserAction → Ui
  | .select guid => { u with app := u.app.selectServer guid }
  | .start established => u.start established
  | .stop | .tunnelEnds => { u with running := none }
  | .openEdit guid => u.openEdit guid
  | .openNew => { u with screen := .config "" false }
  | .save uuid form =>
    match u.screen with
    | .config editGuid _ => u.save uuid editGuid form
    | _ => u
  | .back =>
    match u.screen with
    | .config .. => { u with app := u.app.reload, screen := .main }
    | _ => { u with screen := .main }
  | .askRemoval guid => u.askRemoval guid
  | .confirmRemoval =>
    match u.screen with
    | .removal guid => { u with app := u.app.removeServer guid, screen := .main }
    | _ => u

/-- One action. -/
def step (u : Ui) (a : UserAction) : Option Ui := if u.enabled a then some (u.after a) else none

/-- While a tunnel runs, the configuration it was started with is the one stored for its
server, and the server is listed. -/
def Frozen (u : Ui) : Prop :=
  ∀ guid config, u.running = some (guid, config) →
    u.app.store.config guid = some config ∧ guid ∈ u.app.store.serverList

/-- The edit and remove buttons of the running server are tapped while it is selected,
and no new server is given its guid. -/
def runningSelected (u : Ui) : UserAction → Bool
  | .openEdit guid | .askRemoval guid =>
    u.running.all fun r => r.1 ≠ guid || u.app.store.selectedServer = some guid
  | .save uuid _ =>
    match u.screen with
    | .config editGuid _ => !isBlank editGuid || u.running.all fun r => r.1 ≠ uuid
    | _ => true
  | _ => true

end Ui

/-- The screen cannot touch the server with the guid: it is not about to be removed, and
the configuration screen opened for it hides its save button. -/
def Screen.Spares (guid : String) : Screen → Prop
  | .main => True
  | .removal guid' => guid' ≠ guid
  | .config editGuid isRunning => editGuid = guid → isRunning = true

namespace Store

variable {s : Store}

/-- Saving a server keeps the store consistent. -/
theorem Consistent.put (hs : s.Consistent) (uuid guid : String) (config : ServerConfig) :
    (s.put (if isBlank guid then uuid else guid) config).Consistent := by
  have h := (hs.throughout_encodeServerConfig uuid guid config).exec
  rwa [MmkvManager.exec_encodeServerConfig] at h

/-- Removing a server keeps the store consistent. -/
theorem Consistent.erase (hs : s.Consistent) (guid : String) :
    (if isBlank guid then s else s.erase guid).Consistent := by
  have h := (hs.throughout_removeServer guid).exec
  rwa [MmkvManager.exec_removeServer] at h

/-- A server other than the one written to keeps its configuration. -/
theorem config_put_of_ne {guid key : String} (hne : guid ≠ key) (config : ServerConfig) :
    (s.put key config).config guid = s.config guid := by
  unfold put
  split <;> simp [Store.config, hne]

/-- Nothing is read under a blank guid. -/
theorem isBlank_eq_false_of_config {guid : String} {config : ServerConfig}
    (h : s.config guid = some config) : isBlank guid = false := by
  by_contra hblank
  simp [Store.config, hblank] at h

end Store

namespace Ui

/-- What holds between two actions: the store is consistent, the rows are listed, and
the running server is as it was and out of the screen's reach. -/
structure Safe (u : Ui) : Prop where
  store : u.app.store.Consistent
  rows : u.app.RowsListed
  frozen : u.Frozen
  spared : ∀ guid config, u.running = some (guid, config) → u.screen.Spares guid

variable {u v : Ui}

/-- An app that has just been launched runs no tunnel. -/
theorem launch_safe {s : Store} (hs : s.Consistent) : (launch s).Safe where
  store := by
    rw [launch, App.reload_eq]
    exact hs
  rows := App.rowsListed_reload hs.nodup
  frozen _ _ h := nomatch h
  spared _ _ h := nomatch h

/-- Stopping the tunnel is safe. -/
theorem Safe.stopped (hu : u.Safe) : Safe { u with running := none } :=
  ⟨hu.store, hu.rows, fun _ _ h => (nomatch h), fun _ _ h => (nomatch h)⟩

/-- A screen that spares the running server is safe. -/
theorem Safe.onScreen (hu : u.Safe) {screen : Screen}
    (hspares : ∀ guid config, u.running = some (guid, config) → screen.Spares guid) :
    Safe { u with screen := screen } :=
  ⟨hu.store, hu.rows, hu.frozen, hspares⟩

/-- Going back to the main screen is safe. -/
theorem Safe.reloaded (hu : u.Safe) : Safe { u with app := u.app.reload, screen := .main } := by
  have hrows := App.rowsListed_reload hu.store.nodup
  have hstore : u.app.reload.store = u.app.store := by rw [App.reload_eq]
  refine ⟨?_, hrows, fun guid config h => ?_, fun _ _ _ => trivial⟩
  · rw [hstore]
    exact hu.store
  · rw [hstore]
    exact hu.frozen guid config h

/-- Starting the tunnel freezes the selected server as it is. -/
theorem Safe.start (hu : u.Safe) (hscreen : u.screen = .main) (established : Bool) :
    (u.start established).Safe := by
  unfold Ui.start
  split
  case h_1 => exact hu
  case h_2 guid hselected =>
    split
    case isFalse => exact hu
    case isTrue =>
      rw [MmkvManager.exec_decodeServerConfig]
      split
      case h_2 => exact launch_safe hu.store
      case h_1 config hconfig =>
        refine ⟨hu.store, hu.rows, fun guid' config' h => ?_, fun _ _ _ => ?_⟩
        · cases h
          exact ⟨hconfig, hu.store.selected guid hselected⟩
        · rw [hscreen]
          trivial

/-- The configuration screen of the running server, while it is selected, hides its save
button. -/
theorem exec_isRunning {s : Store} {guid : String} (hblank : isBlank guid = false)
    (hselected : s.selectedServer = some guid) :
    ((ConfigActivity.isRunning true guid).exec storages s).1 = true := by
  have hne : guid ≠ "" := by
    rintro rfl
    exact absurd hblank (by decide)
  rw [ConfigActivity.isRunning, if_pos (by simp [hne])]
  change decide (s.selectedServer = some guid) = true
  simp [hselected]

/-- Opening the configuration of a server is safe while the running one is selected. -/
theorem Safe.openEdit (hu : u.Safe) {guid : String} (hC : u.runningSelected (.openEdit guid)) :
    (u.openEdit guid).Safe := by
  refine hu.onScreen fun guid' config hrunning heq => ?_
  subst heq
  have hselected : u.app.store.selectedServer = some guid := by
    simpa [runningSelected, hrunning] using hC
  have hblank := Store.isBlank_eq_false_of_config (hu.frozen guid config hrunning).1
  rw [hrunning]
  exact exec_isRunning hblank hselected

/-- Asking to remove a server is safe while the running one is selected. -/
theorem Safe.askRemoval (hu : u.Safe) {guid : String} (hC : u.runningSelected (.askRemoval guid)) :
    (u.askRemoval guid).Safe := by
  unfold Ui.askRemoval
  split
  case isFalse => exact hu
  case isTrue hasks =>
    have hselected : u.app.store.selectedServer ≠ some guid := of_decide_eq_true hasks
    refine hu.onScreen fun guid' config hrunning heq => ?_
    subst heq
    have hselected' : u.app.store.selectedServer = some guid := by
      simpa [runningSelected, hrunning] using hC
    exact hselected hselected'

/-- Confirming a removal that was safe to ask for is safe. -/
theorem Safe.confirmRemoval (hu : u.Safe) {guid : String} (hscreen : u.screen = .removal guid) :
    Safe { u with app := u.app.removeServer guid, screen := .main } := by
  refine ⟨?_, hu.rows.removeServer guid, fun guid' config hrunning => ?_, fun _ _ _ => trivial⟩
  · rw [App.removeServer_eq]
    exact hu.store.erase guid
  · obtain ⟨hconfig, hmem⟩ := hu.frozen guid' config hrunning
    have hne : guid ≠ guid' := by
      have hspares := hu.spared guid' config hrunning
      rwa [hscreen] at hspares
    rw [App.removeServer_eq]
    dsimp only
    split
    · exact ⟨hconfig, hmem⟩
    · exact ⟨(Store.config_erase_of_ne hne.symm).trans hconfig,
        (List.mem_erase_of_ne hne.symm).mpr hmem⟩

/-- Saving under a guid other than the running one leaves the running server as it is. -/
theorem Safe.put (hu : u.Safe) (uuid editGuid : String) (config : ServerConfig)
    (hne : ∀ guid config, u.running = some (guid, config) →
      guid ≠ (if isBlank editGuid then uuid else editGuid)) :
    Safe { u with
      app.store := u.app.store.put (if isBlank editGuid then uuid else editGuid) config } := by
  refine ⟨hu.store.put uuid editGuid config,
    ⟨hu.rows.nodup, fun guid hshows => App.mem_serverList_put (hu.rows.listed guid hshows)⟩,
    fun guid config' hrunning => ?_, hu.spared⟩
  obtain ⟨hconfig, hmem⟩ := hu.frozen guid config' hrunning
  exact ⟨(Store.config_put_of_ne (hne guid config' hrunning) config).trans hconfig,
    App.mem_serverList_put hmem⟩

/-- Saving is safe where the save button is shown. -/
theorem Safe.save (hu : u.Safe) {uuid editGuid : String} {isRunning : Bool}
    (form : ConfigActivity.Form) (hscreen : u.screen = .config editGuid isRunning)
    (hvisible : isRunning = false) (hC : u.runningSelected (.save uuid form)) :
    (u.save uuid editGuid form).Safe := by
  have hne (guid : String) (config : ServerConfig) (hrunning : u.running = some (guid, config)) :
      guid ≠ (if isBlank editGuid then uuid else editGuid) := by
    split
    case isTrue hblank =>
      have huuid : ¬guid = uuid := by simpa [runningSelected, hscreen, hblank, hrunning] using hC
      exact huuid
    case isFalse =>
      have hspares := hu.spared guid config hrunning
      rw [hscreen] at hspares
      rintro rfl
      have hrunning := hspares rfl
      rw [hvisible] at hrunning
      cases hrunning
  rw [Ui.save, App.save]
  rcases ConfigActivity.exec_saveServer uuid editGuid form u.app.store with
    ⟨result, hresult, hexec⟩ | ⟨config, hexec⟩
  · rw [hexec]
    cases result with
    | rejected => exact hu
    | saved => exact absurd rfl hresult
    | numberFormatException => exact launch_safe hu.store
  · rw [hexec]
    exact (hu.put uuid editGuid config hne).reloaded

/-- Every action that meets the condition leaves the running server as it is. -/
theorem safe_step {a : UserAction} (hu : u.Safe) (hC : u.runningSelected a)
    (hstep : u.step a = some v) : v.Safe := by
  simp only [step, Option.ite_none_right_eq_some, Option.some.injEq] at hstep
  obtain ⟨henabled, rfl⟩ := hstep
  cases a with
  | select guid =>
    simp only [enabled, Bool.and_eq_true, decide_eq_true_eq] at henabled
    have hmem := hu.rows.listed guid henabled.2
    rw [after, App.selectServer_eq]
    exact ⟨hu.store.select hmem, ⟨hu.rows.nodup, hu.rows.listed⟩, hu.frozen, hu.spared⟩
  | start established =>
    simp only [enabled, Bool.and_eq_true, decide_eq_true_eq] at henabled
    exact hu.start henabled.1 established
  | stop => exact hu.stopped
  | tunnelEnds => exact hu.stopped
  | openEdit guid => exact hu.openEdit hC
  | openNew =>
    refine hu.onScreen fun guid config hrunning heq => ?_
    have hblank := Store.isBlank_eq_false_of_config (hu.frozen guid config hrunning).1
    rw [← heq] at hblank
    exact absurd hblank (by decide)
  | save uuid form =>
    simp only [enabled] at henabled
    cases hscreen : u.screen with
    | main => simp [hscreen] at henabled
    | removal guid => simp [hscreen] at henabled
    | config editGuid isRunning =>
      simp only [hscreen, Bool.not_eq_true'] at henabled
      simp only [after, hscreen]
      exact hu.save form hscreen henabled hC
  | back =>
    cases hscreen : u.screen with
    | main => simp [enabled, hscreen] at henabled
    | removal guid =>
      simp only [after, hscreen]
      exact hu.onScreen fun _ _ _ => trivial
    | config editGuid isRunning =>
      simp only [after, hscreen]
      exact hu.reloaded
  | askRemoval guid => exact hu.askRemoval hC
  | confirmRemoval =>
    cases hscreen : u.screen with
    | main => simp [enabled, hscreen] at henabled
    | removal guid =>
      simp only [after, hscreen]
      exact hu.confirmRemoval hscreen
    | config editGuid isRunning => simp [enabled, hscreen] at henabled

/-- The running server is frozen in every run in which its edit and remove buttons are
tapped only while it is selected. -/
theorem frozen_of_runningSelected {s : Store} {tr : List UserAction} (hs : s.Consistent)
    (hmeets : Meets step (fun u a => u.runningSelected a) (launch s) tr)
    (hrun : run step (launch s) tr = some u) : u.Frozen :=
  (invariant_of_meets (I := Safe) (fun _ _ _ => safe_step) (launch_safe hs) hmeets hrun).frozen

/-- A running server that is not the selected one can be removed from its row. -/
theorem exists_removal_of_not_selected (hu : u.Safe) (hscreen : u.screen = .main) {guid : String}
    {config : ServerConfig} (hrunning : u.running = some (guid, config))
    (hshows : u.app.viewModel.Shows guid) (hselected : u.app.store.selectedServer ≠ some guid) :
    ∃ v, run step u [.askRemoval guid, .confirmRemoval] = some v ∧ ¬v.Frozen := by
  have hask : u.step (.askRemoval guid) = some { u with screen := .removal guid } := by
    have hasks : ((MainRecyclerAdapter.asksToRemove guid).exec storages u.app.store).1 = true :=
      decide_eq_true hselected
    have henabled : u.enabled (.askRemoval guid) = true := by simp [enabled, hscreen, hshows]
    rw [step, if_pos henabled, after, askRemoval, if_pos hasks]
  refine ⟨{ u with app := u.app.removeServer guid, screen := .main }, ?_, fun hfrozen => ?_⟩
  · rw [run_cons, hask]
    rfl
  · obtain ⟨_, hmem⟩ := hfrozen guid config hrunning
    have hblank := Store.isBlank_eq_false_of_config (hu.frozen guid config hrunning).1
    rw [App.removeServer_eq] at hmem
    simp only [hblank, Bool.false_eq_true, if_false] at hmem
    exact (hu.store.nodup.mem_erase_iff.mp hmem).1 rfl

/-- Two servers are added, and a tunnel is started for the first one. -/
def startedFirst : List UserAction :=
  [.openNew, .save "a" ⟨"10.0.0.1", "55540", "home", 0⟩, .openNew,
    .save "b" ⟨"10.0.0.2", "1080", "work", 1⟩, .start true]

/-- The buttons of the running server do nothing, those of the other one work. -/
def otherRemoved : List UserAction :=
  startedFirst ++ [.askRemoval "a", .openEdit "a", .back, .askRemoval "b", .confirmRemoval]

/-- An instance: another server is removed while the tunnel runs. -/
theorem frozen_otherRemoved : ∃ u, run step (launch Store.empty) otherRemoved = some u ∧
    u.running.isSome ∧ u.app.store.serverList = ["a"] ∧ u.Frozen :=
  ⟨_, rfl, rfl, rfl, frozen_of_runningSelected Store.empty_consistent
    (show Meets step (fun u a => u.runningSelected a) (launch Store.empty) otherRemoved by decide)
    rfl⟩

/-- Another server is selected while the tunnel runs, and the running one is removed. -/
def runningRemoved : List UserAction :=
  startedFirst ++ [.select "b", .askRemoval "a", .confirmRemoval]

/-- Another server is selected while the tunnel runs, and the running one is edited. -/
def runningEdited : List UserAction :=
  startedFirst ++ [.select "b", .openEdit "a", .save "c" ⟨"10.0.0.9", "55540", "home", 0⟩]

/-- Once another server is selected, the running one can be removed and edited. -/
theorem not_frozen_runningRemoved_runningEdited :
    (∃ u, run step (launch Store.empty) runningRemoved = some u ∧ ¬u.Frozen) ∧
      ∃ u, run step (launch Store.empty) runningEdited = some u ∧ ¬u.Frozen := by
  refine ⟨⟨_, rfl, fun h => ?_⟩, ⟨_, rfl, fun h => ?_⟩⟩
  · have hmem := (h "a" _ rfl).2
    exact absurd hmem (by decide)
  · have hconfig := (h "a" _ rfl).1
    exact absurd hconfig (by decide)

end Ui

end HeptaVcn
