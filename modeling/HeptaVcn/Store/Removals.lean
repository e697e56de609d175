import Mathlib.Data.List.Nodup
import HeptaVcn.Store.InStep

/-!
# Removals against a reload

A removal edits the stored list, the list in memory and the cached rows each on its
own. On a list without repetitions all three agree with what a reload would compute,
whatever is removed and however often.
-/

namespace HeptaVcn

open Machine

namespace MainViewModel

variable {s : Store}

/-- The first guid of the list gets a row if it has a configuration. -/
theorem cacheOf_cons (s : Store) (guid : String) (serverList : List String) :
    cacheOf s (guid :: serverList) =
      ((s.config guid).map fun config => ⟨guid, config⟩).toList ++ cacheOf s serverList := by
  cases hconfig : s.config guid <;> simp [cacheOf, hconfig]

/-- What is erased from a store that does not list it leaves the rows alone. -/
theorem cacheOf_erase_of_notMem {guid : String} {serverList : List String}
    (hmem : guid ∉ serverList) : cacheOf (s.erase guid) serverList = cacheOf s serverList := by
  apply List.filterMap_congr
  intro other hother
  have hne : other ≠ guid := fun heq => hmem (heq ▸ hother)
  rw [Store.config_erase_of_ne hne]

/-- No row shows a guid that is not listed. -/
theorem eraseP_cacheOf_of_notMem {guid : String} {serverList : List String}
    (hmem : guid ∉ serverList) :
    (cacheOf s serverList).eraseP (·.guid = guid) = cacheOf s serverList := by
  apply List.eraseP_of_forall_not
  intro row hrow hguid
  have hshows : Shows ⟨serverList, cacheOf s serverList⟩ guid :=
    ⟨row, hrow, of_decide_eq_true hguid⟩
  exact hmem (shows_cacheOf.mp hshows).1

/-- Erasing a guid from the store and from the list is erasing its row, be there one or not. -/
theorem cacheOf_erase (guid : String) {serverList : List String} (hnodup : serverList.Nodup) :
    cacheOf (s.erase guid) (serverList.erase guid) =
      (cacheOf s serverList).eraseP (·.guid = guid) := by
  induction serverList with
  | nil => rfl
  | cons other serverList ih =>
    obtain ⟨hnew, hnodup⟩ := List.nodup_cons.mp hnodup
    by_cases heq : other = guid
    · subst heq
      rw [List.erase_cons_head, cacheOf_erase_of_notMem hnew, cacheOf_cons]
      -- its row heads the rest, unless it has no configuration and never had a row
      cases s.config other with
      | none => exact (eraseP_cacheOf_of_notMem hnew).symm
      | some config => simp
    · have hkept : ¬(other == guid) = true := by simpa using heq
      rw [List.erase_cons_tail hkept, cacheOf_cons, cacheOf_cons, Store.config_erase_of_ne heq,
        ih hnodup]
      cases s.config other with
      | none => rfl
      | some config => simp [heq]

/-- Among rows with distinct guids the position of a guid is the index of its row. -/
theorem getPosition_eq_iff {vm : MainViewModel} (hnodup : (vm.serversCache.map (·.guid)).Nodup)
    {guid : String} {index : ℕ} :
    vm.getPosition guid = index ↔ (vm.serversCache.map (·.guid))[index]? = some guid := by
  have hfound : vm.getPosition guid = index ↔
      vm.serversCache.findIdx? (·.guid = guid) = some index := by
    rw [getPosition]
    split
    case h_1 found h =>
      rw [h, Option.some.injEq]
      omega
    case h_2 h =>
      rw [h]
      constructor
      · intro hneg
        omega
      · rintro ⟨⟩
  rw [hfound, List.findIdx?_eq_some_iff_getElem]
  constructor
  · rintro ⟨hlt, hguid, _⟩
    rw [List.getElem?_eq_getElem (by simpa using hlt)]
    simpa using hguid
  · intro hguid
    obtain ⟨hlt, hguid⟩ := List.getElem?_eq_some_iff.mp hguid
    have hlt' : index < vm.serversCache.length := by simpa using hlt
    refine ⟨hlt', by simpa using hguid, fun j hj hguid' => ?_⟩
    -- an earlier row with the guid would repeat it
    have hj' : j < (vm.serversCache.map (·.guid)).length := by omega
    have heq : (vm.serversCache.map (·.guid))[j] = (vm.serversCache.map (·.guid))[index] := by
      rw [hguid]
      simpa using hguid'
    have hsame := (List.Nodup.getElem_inj_iff hnodup).mp heq
    omega

end MainViewModel

namespace App

/-- The view model is what a reload would make it, over a list without repetitions. -/
structure Reloaded (a : App) : Prop where
  nodup : a.store.serverList.Nodup
  viewModel : a.viewModel =
    ⟨a.store.serverList, MainViewModel.cacheOf a.store a.store.serverList⟩

variable {a : App}

/-- After a reload the view model is what a second one would make it. -/
theorem Reloaded.reload (hnodup : a.store.serverList.Nodup) : a.reload.Reloaded := by
  rw [reload_eq]
  exact ⟨hnodup, rfl⟩

/-- In the store a removal erases the server, unless the guid is blank. -/
theorem store_removeServer (a : App) (guid : String) :
    (a.removeServer guid).store = if isBlank guid then a.store else a.store.erase guid := by
  rw [removeServer_eq]

/-- A removal leaves nothing for a reload to change. A blank guid stays in the store, so
it must not be listed: it would go from the list in memory. -/
theorem Reloaded.removeServer (ha : a.Reloaded) {guid : String}
    (hlisted : guid ∈ a.store.serverList → isBlank guid = false) :
    (a.removeServer guid).Reloaded := by
  rw [removeServer_eq]
  by_cases hblank : isBlank guid
  · have hnew : guid ∉ a.store.serverList := by
      intro hmem
      rw [hlisted hmem] at hblank
      cases hblank
    rw [if_pos hblank, ha.viewModel, List.erase_of_not_mem hnew,
      MainViewModel.eraseP_cacheOf_of_notMem hnew]
    exact ⟨ha.nodup, rfl⟩
  · rw [if_neg hblank, ha.viewModel, ← MainViewModel.cacheOf_erase guid ha.nodup]
    exact ⟨ha.nodup.erase guid, rfl⟩

/-- One removal after another. -/
def removeServers (a : App) (guids : List String) : App := guids.foldl App.removeServer a

/-- A removal leaves no blank guid in a list without one. -/
theorem nonblank_removeServer (hnonblank : ∀ guid ∈ a.store.serverList, isBlank guid = false)
    (guid : String) : ∀ other ∈ (a.removeServer guid).store.serverList, isBlank other = false := by
  intro other hmem
  rw [store_removeServer] at hmem
  split at hmem
  · exact hnonblank other hmem
  · exact hnonblank other (List.mem_of_mem_erase hmem)

/-- Removals leave the view model as a reload would make it. -/
theorem Reloaded.removeServers (ha : a.Reloaded)
    (hnonblank : ∀ guid ∈ a.store.serverList, isBlank guid = false) (guids : List String) :
    (a.removeServers guids).Reloaded := by
  induction guids generalizing a with
  | nil => exact ha
  | cons guid guids ih =>
    exact ih (ha.removeServer (hnonblank guid)) (nonblank_removeServer hnonblank guid)

/-- No two rows show the same server. -/
theorem Reloaded.rows_nodup (ha : a.Reloaded) : (a.viewModel.serversCache.map (·.guid)).Nodup := by
  rw [ha.viewModel]
  exact (map_guid_cacheOf_sublist a.store a.store.serverList).nodup ha.nodup

/-- The list and the rows in memory are what a reload computes from the store; a guid's
position is the index of its row, and `-1` exactly when it has none. -/
structure UpToDate (a : App) : Prop where
  reload : (MainViewModel.reloadServerList.exec storages a.store).1 = a.viewModel
  position : ∀ (guid : String) (index : ℕ), a.viewModel.getPosition guid = index ↔
    (a.viewModel.serversCache.map (·.guid))[index]? = some guid
  unshown : ∀ guid, a.viewModel.getPosition guid = -1 ↔ ¬a.viewModel.Shows guid

/-- What a reload makes is up to date. -/
theorem Reloaded.upToDate (ha : a.Reloaded) : a.UpToDate where
  reload := by rw [MainViewModel.exec_reloadServerList, ha.viewModel]
  position _ _ := MainViewModel.getPosition_eq_iff ha.rows_nodup
  unshown _ := MainViewModel.getPosition_eq_neg_one_iff

/-- After a reload and any removals, of listed and unlisted servers and repeated or not,
the view model is up to date. -/
theorem removeServers_upToDate (a : App) (hnodup : a.store.serverList.Nodup)
    (hnonblank : ∀ guid ∈ a.store.serverList, isBlank guid = false) (guids : List String) :
    (a.reload.removeServers guids).UpToDate := by
  have hstore : a.reload.store = a.store := by rw [App.reload_eq]
  rw [← hstore] at hnonblank
  exact ((Reloaded.reload hnodup).removeServers hnonblank guids).upToDate

/-- Three listed servers, the second without a configuration; the third is selected. -/
def threeListed : Store where
  angConfigs := some ["a", "b", "c"]
  selectedServer := some "c"
  serverConfig guid := if guid = "b" then none else some ServerConfig.create
  serverAff _ := none

/-- An instance: two servers and an unknown one are removed, one of them twice. -/
theorem removeServers_threeListed :
    threeListed.serverList.Nodup ∧ (∀ guid ∈ threeListed.serverList, isBlank guid = false) ∧
      ((launch threeListed).reload.removeServers ["c", "x", "c", "a"]).UpToDate := by
  have hnodup : threeListed.serverList.Nodup := by decide
  have hnonblank : ∀ guid ∈ threeListed.serverList, isBlank guid = false := by
    simp [threeListed, Store.serverList, isBlank, isWhitespace]
  exact ⟨hnodup, hnonblank,
    removeServers_upToDate (launch threeListed) hnodup hnonblank ["c", "x", "c", "a"]⟩

end App

end HeptaVcn
