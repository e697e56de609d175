import HeptaVcn.App.Screens
import HeptaVcn.Machine.Run

/-!
# List, configurations and selection stay in step

Whole user operations on the store and on the view model beside it, from an empty
store. The rows of the main screen may lag behind the store until the next reload,
but they never show a server that is not listed.
-/

namespace HeptaVcn

open Machine

/-- The app as far as the server store is concerned. -/
structure App where
  store : Store
  viewModel : MainViewModel

namespace App

/-- The app comes up with a new view model, after an exception as on its first start. -/
def launch (store : Store) : App :=
  let (viewModel, store) := MainViewModel.create.exec storages store
  ⟨store, viewModel⟩

/-- `saveServer` on the configuration screen; an exception that escapes it ends the app. -/
def save (a : App) (uuid editGuid : String) (form : ConfigActivity.Form) : App :=
  let (result, store) := (ConfigActivity.saveServer uuid editGuid form).exec storages a.store
  if result = .numberFormatException then launch store else { a with store := store }

/-- The removal of a server is confirmed. -/
def removeServer (a : App) (guid : String) : App :=
  let (viewModel, store) := (a.viewModel.removeServer guid).exec storages a.store
  ⟨store, viewModel⟩

/-- The row of a server is tapped. -/
def selectServer (a : App) (guid : String) : App :=
  { a with
    store := ((MainRecyclerAdapter.selectServer a.viewModel guid).exec storages a.store).2 }

/-- The main screen is resumed. -/
def reload (a : App) : App :=
  let (viewModel, store) := MainViewModel.reloadServerList.exec storages a.store
  ⟨store, viewModel⟩

end App

/-- What the user can do; `uuid` is the guid generated if one is needed. -/
inductive UserOperation where
  | saveNew (uuid : String) (form : ConfigActivity.Form)
  | saveEdit (uuid guid : String) (form : ConfigActivity.Form)
  | confirmRemoval (guid : String)
  | selectServer (guid : String)
  | reload

namespace App

/-- A generated guid is not blank; a listed server is edited; a listed server that is
not the selected one is removed; a server shown in a row is selected. -/
def enabled (a : App) : UserOperation → Bool
  | .saveNew uuid _ => !isBlank uuid
  | .saveEdit uuid guid _ => !isBlank uuid && guid ∈ a.store.serverList
  | .confirmRemoval guid => guid ∈ a.store.serverList && a.store.selectedServer ≠ some guid
  | .selectServer guid => a.viewModel.Shows guid
  | .reload => true

/-- What an operation does. -/
def after (a : App) : UserOperation → App
  | .saveNew uuid form => a.save uuid "" form
  | .saveEdit uuid guid form => a.save uuid guid form
  | .confirmRemoval guid => a.removeServer guid
  | .selectServer guid => a.selectServer guid
  | .reload => a.reload

/-- One operation of the user. -/
def step (a : App) (op : UserOperation) : Option App :=
  if a.enabled op then some (a.after op) else none

end App

namespace Store

/-- The list has no duplicates and names exactly the servers that are stored, and one
of them is selected if there are any. -/
structure InStep (s : Store) : Prop where
  nodup : s.serverList.Nodup
  stored : ∀ guid, guid ∈ s.serverList ↔ (s.serverConfig guid).isSome
  selected : s.serverList ≠ [] → ∃ guid ∈ s.serverList, s.selectedServer = some guid

/-- The store is in step, no listed guid is blank and nothing is selected while the
list is empty. -/
structure Sound (s : Store) : Prop extends s.InStep where
  nonblank : ∀ guid ∈ s.serverList, isBlank guid = false
  unselected : s.serverList = [] → s.selectedServer = none

variable {s : Store}

/-- The empty store is in step. -/
theorem empty_sound : Store.empty.Sound where
  nodup := List.nodup_nil
  stored guid := by simp [Store.empty, serverList]
  selected h := absurd rfl h
  nonblank guid h := by simp [Store.empty, serverList] at h
  unselected _ := rfl

/-- A selected guid is listed. -/
theorem Sound.mem_of_selected (hs : s.Sound) {guid : String}
    (hselected : s.selectedServer = some guid) : guid ∈ s.serverList := by
  have hne : s.serverList ≠ [] := by
    intro hnil
    have hnone := hs.unselected hnil
    rw [hselected] at hnone
    cases hnone
  obtain ⟨guid', hmem, hguid'⟩ := hs.selected hne
  rw [hselected] at hguid'
  rwa [Option.some.inj hguid']

/-- Putting a configuration under a key that is not blank keeps the store sound. -/
theorem Sound.put (hs : s.Sound) {key : String} (hkey : isBlank key = false)
    (config : ServerConfig) : (s.put key config).Sound := by
  have hstored (guid : String) : (Function.update s.serverConfig key (some config) guid).isSome ↔
      guid = key ∨ (s.serverConfig guid).isSome := by
    by_cases h : guid = key
    · subst h
      simp
    · simp [h]
  unfold Store.put
  split
  case isTrue hmem =>
    refine ⟨⟨hs.nodup, fun guid => ?_, hs.selected⟩, hs.nonblank, hs.unselected⟩
    rw [hstored, ← hs.stored]
    change guid ∈ s.serverList ↔ _
    constructor
    · exact Or.inr
    · rintro (rfl | h)
      · exact hmem
      · exact h
  case isFalse hnew =>
    have hnodup := List.nodup_cons.mpr ⟨hnew, hs.nodup⟩
    refine ⟨⟨hnodup, fun guid => ?_, fun _ => ?_⟩, fun guid hmem => ?_,
      fun h => absurd h (List.cons_ne_nil key s.serverList)⟩
    · rw [hstored, ← hs.stored]
      exact List.mem_cons
    · change ∃ guid ∈ key :: s.serverList,
        (if isNullOrBlank s.selectedServer then some key else s.selectedServer) = some guid
      by_cases hnil : s.serverList = []
      · have hblank : isNullOrBlank s.selectedServer := by rw [hs.unselected hnil]; rfl
        exact ⟨key, List.mem_cons_self, if_pos hblank⟩
      · obtain ⟨guid, hmem, hselected⟩ := hs.selected hnil
        have hblank : ¬isNullOrBlank s.selectedServer := by
          simp [hselected, isNullOrBlank, hs.nonblank guid hmem]
        exact ⟨guid, List.mem_cons_of_mem _ hmem, by rw [if_neg hblank, hselected]⟩
    · rcases List.mem_cons.mp hmem with rfl | hmem
      · exact hkey
      · exact hs.nonblank guid hmem

/-- Erasing a server that is not the selected one keeps the store sound. -/
theorem Sound.erase (hs : s.Sound) {guid : String} (hmem : guid ∈ s.serverList)
    (hselected : s.selectedServer ≠ some guid) : (s.erase guid).Sound := by
  have hlist : (s.erase guid).serverList = s.serverList.erase guid := rfl
  have hkept : (s.erase guid).selectedServer = s.selectedServer := if_neg hselected
  obtain ⟨other, hother, hsome⟩ := hs.selected (List.ne_nil_of_mem hmem)
  have hne : other ≠ guid := fun heq => hselected (heq ▸ hsome)
  have hother' : other ∈ s.serverList.erase guid := (List.mem_erase_of_ne hne).mpr hother
  refine ⟨⟨hs.nodup.erase guid, fun guid' => ?_, fun _ => ⟨other, hother', hkept.trans hsome⟩⟩,
    fun guid' h => hs.nonblank guid' (List.mem_of_mem_erase h), fun hnil => ?_⟩
  · rw [hlist, hs.nodup.mem_erase_iff, hs.stored]
    by_cases h : guid' = guid
    · subst h
      simp [Store.erase]
    · simp [Store.erase, h]
  · rw [hlist] at hnil
    rw [hnil] at hother'
    cases hother'

/-- Selecting a listed server keeps the store sound. -/
theorem Sound.select (hs : s.Sound) {guid : String} (hmem : guid ∈ s.serverList) :
    Sound { s with selectedServer := some guid } where
  nodup := hs.nodup
  stored := hs.stored
  selected _ := ⟨guid, hmem, rfl⟩
  nonblank := hs.nonblank
  unselected h := absurd h (List.ne_nil_of_mem hmem)

end Store

namespace App

/-- Every row of the main screen shows a listed server, and each of them at most one does. -/
structure RowsListed (a : App) : Prop where
  nodup : (a.viewModel.serversCache.map (·.guid)).Nodup
  listed : ∀ guid, a.viewModel.Shows guid → guid ∈ a.store.serverList

variable {a b : App}

/-- An app that has just been launched shows no row. -/
theorem launch_rowsListed (s : Store) : (launch s).RowsListed :=
  ⟨List.nodup_nil, fun _ ⟨_, hrow, _⟩ => nomatch hrow⟩

/-- Saving a server takes none off the list. -/
theorem mem_serverList_put {s : Store} {key guid : String} {config : ServerConfig}
    (hmem : guid ∈ s.serverList) : guid ∈ (s.put key config).serverList := by
  unfold Store.put
  split
  · exact hmem
  · exact List.mem_cons_of_mem _ hmem

/-- Saving a server either ends the app, or changes nothing, or puts a configuration. -/
theorem save_cases (a : App) (uuid editGuid : String) (form : ConfigActivity.Form) :
    a.save uuid editGuid form = launch a.store ∨ a.save uuid editGuid form = a ∨
      ∃ config, a.save uuid editGuid form =
        { a with store := a.store.put (if isBlank editGuid then uuid else editGuid) config } := by
  unfold App.save
  rcases ConfigActivity.exec_saveServer uuid editGuid form a.store with
    ⟨result, _, hexec⟩ | ⟨config, hexec⟩
  · rw [hexec]
    dsimp only
    split
    · exact Or.inl rfl
    · exact Or.inr (Or.inl rfl)
  · rw [hexec]
    exact Or.inr (Or.inr ⟨config, rfl⟩)

/-- Saving a server keeps every row listed. -/
theorem RowsListed.save (ha : a.RowsListed) (uuid editGuid : String) (form : ConfigActivity.Form) :
    (a.save uuid editGuid form).RowsListed := by
  rcases a.save_cases uuid editGuid form with h | h | ⟨config, h⟩
  · rw [h]
    exact launch_rowsListed a.store
  · rwa [h]
  · rw [h]
    exact ⟨ha.nodup, fun guid hshows => mem_serverList_put (ha.listed guid hshows)⟩

/-- Removing a server erases it from the store, from the list in memory and from the rows. -/
theorem removeServer_eq (a : App) (guid : String) : a.removeServer guid =
    ⟨if isBlank guid then a.store else a.store.erase guid,
      a.viewModel.serverList.erase guid, a.viewModel.serversCache.eraseP (·.guid = guid)⟩ := by
  rw [App.removeServer, MainViewModel.exec_removeServer]

/-- Erasing the row of a guid erases that guid from the guids of the rows. -/
theorem map_guid_eraseP (rows : List ServersCache) (guid : String) :
    (rows.eraseP (·.guid = guid)).map (·.guid) = (rows.map (·.guid)).erase guid := by
  induction rows with
  | nil => rfl
  | cons row rows ih =>
    by_cases h : row.guid = guid
    · simp [h]
    · simp [h, ih]

/-- Removing a server removes its row as well. -/
theorem RowsListed.removeServer (ha : a.RowsListed) (guid : String) :
    (a.removeServer guid).RowsListed := by
  rw [removeServer_eq]
  refine ⟨?_, fun guid' hshows => ?_⟩
  · rw [map_guid_eraseP]
    exact ha.nodup.erase guid
  · obtain ⟨row, hrow, rfl⟩ := hshows
    have hmem : row.guid ∈ (a.viewModel.serversCache.map (·.guid)).erase guid := by
      rw [← map_guid_eraseP]
      exact List.mem_map_of_mem hrow
    have hlisted := ha.listed row.guid ⟨row, List.mem_of_mem_eraseP hrow, rfl⟩
    split
    · exact hlisted
    · exact (List.mem_erase_of_ne (ha.nodup.mem_erase_iff.mp hmem).1).mpr hlisted

/-- Selecting a server changes the selection alone. -/
theorem selectServer_eq (a : App) (guid : String) :
    a.selectServer guid = { a with store := { a.store with selectedServer := some guid } } := by
  rw [App.selectServer, MainRecyclerAdapter.exec_selectServer]

/-- Selecting a server keeps every row listed. -/
theorem RowsListed.selectServer (ha : a.RowsListed) (guid : String) :
    (a.selectServer guid).RowsListed := by
  rw [selectServer_eq]
  exact ⟨ha.nodup, ha.listed⟩

/-- The rows of a reloaded main screen show the listed servers with a configuration. -/
theorem reload_eq (a : App) : a.reload =
    ⟨a.store, a.store.serverList, MainViewModel.cacheOf a.store a.store.serverList⟩ := by
  rw [App.reload, MainViewModel.exec_reloadServerList]

/-- The rows show listed guids in the order of the list. -/
theorem map_guid_cacheOf_sublist (s : Store) (serverList : List String) :
    ((MainViewModel.cacheOf s serverList).map (·.guid)).Sublist serverList := by
  induction serverList with
  | nil => exact List.Sublist.refl _
  | cons guid serverList ih =>
    cases h : s.config guid with
    | none => simpa [MainViewModel.cacheOf, h] using ih.cons guid
    | some config => simpa [MainViewModel.cacheOf, h] using ih

/-- A reload shows listed servers only. -/
theorem rowsListed_reload (hnodup : a.store.serverList.Nodup) : a.reload.RowsListed := by
  rw [reload_eq]
  exact ⟨(map_guid_cacheOf_sublist a.store a.store.serverList).nodup hnodup,
    fun guid hshows => (MainViewModel.shows_cacheOf.mp hshows).1⟩

/-- Every operation of the user keeps the store sound and the rows listed. -/
theorem sound_step {op : UserOperation} (ha : a.store.Sound ∧ a.RowsListed)
    (hstep : a.step op = some b) : b.store.Sound ∧ b.RowsListed := by
  obtain ⟨hstore, hrows⟩ := ha
  simp only [step, Option.ite_none_right_eq_some, Option.some.injEq] at hstep
  obtain ⟨henabled, rfl⟩ := hstep
  have hsave (uuid editGuid : String) (form : ConfigActivity.Form) (huuid : isBlank uuid = false) :
      (a.save uuid editGuid form).store.Sound := by
    have hkey : isBlank (if isBlank editGuid then uuid else editGuid) = false := by
      split <;> simp_all
    rcases a.save_cases uuid editGuid form with h | h | ⟨config, h⟩
    · rwa [h]
    · rwa [h]
    · rw [h]
      exact hstore.put hkey config
  cases op with
  | saveNew uuid form =>
    exact ⟨hsave uuid "" form (by simpa [enabled] using henabled), hrows.save uuid "" form⟩
  | saveEdit uuid guid form =>
    simp only [enabled, Bool.and_eq_true, Bool.not_eq_true'] at henabled
    exact ⟨hsave uuid guid form henabled.1, hrows.save uuid guid form⟩
  | confirmRemoval guid =>
    simp only [enabled, Bool.and_eq_true, decide_eq_true_eq] at henabled
    have hblank : ¬isBlank guid := by simp [hstore.nonblank guid henabled.1]
    refine ⟨?_, hrows.removeServer guid⟩
    rw [after, removeServer_eq, if_neg hblank]
    exact hstore.erase henabled.1 henabled.2
  | selectServer guid =>
    refine ⟨?_, hrows.selectServer guid⟩
    rw [after, selectServer_eq]
    exact hstore.select (hrows.listed guid (of_decide_eq_true henabled))
  | reload =>
    refine ⟨?_, rowsListed_reload hstore.nodup⟩
    rw [after, reload_eq]
    exact hstore

/-- After every sequence of user operations from an empty store, the store is in step;
hence the selected server has a row after a reload, and `startVpnService` finds its
configuration. -/
theorem inStep_of_run {tr : List UserOperation} (hrun : run step (launch Store.empty) tr = some a) :
    a.store.InStep ∧ ∀ guid, a.store.selectedServer = some guid →
      a.reload.viewModel.getPosition guid ≠ -1 ∧
      ((MmkvManager.decodeServerConfig guid).exec storages a.store).1 ≠ none := by
  obtain ⟨hstore, _⟩ := invariant (I := fun a => a.store.Sound ∧ a.RowsListed)
    (fun _ _ _ => sound_step) ⟨Store.empty_sound, launch_rowsListed Store.empty⟩ hrun
  refine ⟨hstore.toInStep, fun guid hselected => ?_⟩
  have hmem := hstore.mem_of_selected hselected
  have hconfig : (a.store.config guid).isSome := by
    rw [Store.config, if_neg (by simp [hstore.nonblank guid hmem])]
    exact (hstore.stored guid).mp hmem
  constructor
  · rw [Ne, MainViewModel.getPosition_eq_neg_one_iff, not_not, reload_eq]
    exact MainViewModel.shows_cacheOf.mpr ⟨hmem, hconfig⟩
  · rw [MmkvManager.exec_decodeServerConfig]
    exact Option.ne_none_iff_isSome.mpr hconfig

/-- Two servers are added, the second one is selected and the first one removed. -/
def twoServers : List UserOperation :=
  [.saveNew "a" ⟨"10.0.0.1", "55540", "home", 0⟩, .saveNew "b" ⟨"10.0.0.2", "1080", "work", 1⟩,
    .reload, .selectServer "b", .confirmRemoval "a"]

/-- An instance: two servers are added and the first one is removed. -/
theorem inStep_twoServers : ∃ a, run step (launch Store.empty) twoServers = some a ∧
    a.store.serverList = ["b"] ∧ a.store.InStep ∧ ∀ guid, a.store.selectedServer = some guid →
      a.reload.viewModel.getPosition guid ≠ -1 ∧
      ((MmkvManager.decodeServerConfig guid).exec storages a.store).1 ≠ none :=
  ⟨_, rfl, rfl, inStep_of_run (show run step (launch Store.empty) twoServers = some _ from rfl)⟩

end App

end HeptaVcn
