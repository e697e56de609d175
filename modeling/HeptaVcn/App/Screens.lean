import HeptaVcn.App.Java
import HeptaVcn.App.MmkvManager

/-!
# The screens that work on the server store

The view model caches the server list and the configurations; the rows of the main
screen and the configuration screen read and write the store around it.
-/

namespace HeptaVcn

open Machine

/-- `ServersCache.kt` -/
structure ServersCache where
  guid : String
  config : ServerConfig
  deriving DecidableEq, Repr

/-- The server data of `MainViewModel.kt`. -/
structure MainViewModel where
  serverList : List String
  serversCache : List ServersCache
  deriving DecidableEq, Repr

namespace MainViewModel

/-- A new view model: its list is read, its cache is empty. -/
def create : Program Mmkv MainViewModel := do
  let serverList ← MmkvManager.decodeServerList
  pure ⟨serverList, []⟩

/-- `updateCache`: the configurations of the listed servers, those without one left out. -/
def updateCache : List String → Program Mmkv (List ServersCache)
  | [] => pure []
  | guid :: serverList => do
    let config ← MmkvManager.decodeServerConfig guid
    let serversCache ← updateCache serverList
    match config with
    | some config => pure (⟨guid, config⟩ :: serversCache)
    | none => pure serversCache

/-- `reloadServerList` -/
def reloadServerList : Program Mmkv MainViewModel := do
  let serverList ← MmkvManager.decodeServerList
  let serversCache ← updateCache serverList
  pure ⟨serverList, serversCache⟩

/-- `getPosition`: the first index of the guid in the cache, or `-1`. -/
def getPosition (vm : MainViewModel) (guid : String) : ℤ :=
  match vm.serversCache.findIdx? (·.guid = guid) with
  | some index => index
  | none => -1

/-- `removeServer` -/
def removeServer (vm : MainViewModel) (guid : String) : Program Mmkv MainViewModel := do
  MmkvManager.removeServer guid
  let index := vm.getPosition guid
  pure
    { serverList := vm.serverList.erase guid
      serversCache :=
        if 0 ≤ index then vm.serversCache.eraseIdx index.toNat else vm.serversCache }

end MainViewModel

/-- What the adapter tells its observers about the rows. -/
inductive Notification where
  | itemRemoved (position : ℕ)
  | itemRangeChanged (positionStart : ℤ) (itemCount : ℕ)
  deriving DecidableEq, Repr

namespace MainRecyclerAdapter

/-- A tap on a row (`infoContainer`) selects its server; the result are the positions
passed to `notifyItemChanged`. -/
def selectServer (vm : MainViewModel) (guid : String) : Program Mmkv (List ℤ) := do
  let selected ← mmkv .decodeSelectedServer
  if selected = some guid then
    pure []
  else
    mmkv (.encodeSelectedServer guid)
    pure ((selected.toList.filter (· ≠ "")).map vm.getPosition ++ [vm.getPosition guid])

/-- A tap on `layoutRemove` asks for confirmation unless the row is the selected one. -/
def asksToRemove (guid : String) : Program Mmkv Bool := do
  let selected ← mmkv .decodeSelectedServer
  pure (selected ≠ some guid)

/-- What a row shows. -/
structure RowView where
  tvName : String
  tvStatistics : String
  /-- `layoutIndicator` has the colour of the selected server. -/
  selected : Bool
  deriving DecidableEq, Repr

/-- What `onBindViewHolder` shows in the row of a server. -/
def onBindViewHolder (row : ServersCache) : Program Mmkv RowView := do
  let selected ← mmkv .decodeSelectedServer
  pure
    { tvName := row.config.remarks
      tvStatistics := row.config.ipaddr ++ " : " ++ String.ofList (Java.intText row.config.port)
      selected := selected = some row.guid }

/-- `removeServer`, the confirmed removal, with the notifications it gives. -/
def removeServer (vm : MainViewModel) (guid : String) (position : ℕ) :
    Program Mmkv (MainViewModel × List Notification) := do
  let vm ← vm.removeServer guid
  pure (vm, [.itemRemoved position, .itemRangeChanged position vm.serversCache.length])

end MainRecyclerAdapter

/-- `String.toInt`; the `NumberFormatException` is `none`. -/
def toInt (s : String) : Option ℤ := Java.parseInt s.toList

namespace ConfigActivity

/-- What the input fields of the configuration screen hold. -/
structure Form where
  etAddress : String
  etPort : String
  etRemarks : String
  /-- `spNettype.selectedItemPosition` -/
  spNettype : ℤ
  deriving DecidableEq, Repr

/-- `onCreate`: the fields are empty, or filled with the configuration that is edited. -/
def onCreate (editGuid : String) : Program Mmkv Form := do
  let config ← MmkvManager.decodeServerConfig editGuid
  match config with
  | none => pure ⟨"", "", "", 0⟩
  | some config =>
    pure
      { etAddress := config.ipaddr
        etPort := String.ofList (Java.intText config.port)
        etRemarks := config.remarks
        spNettype := config.netType }

/-- How `saveServer` ends: it returns `false` or `true`, or an exception escapes it. -/
inductive SaveResult where
  | rejected
  | saved
  | numberFormatException
  deriving DecidableEq, Repr

/-- `saveServer`; `editGuid` is empty for a new server. -/
def saveServer (uuid editGuid : String) (form : Form) : Program Mmkv SaveResult := do
  let stored ← MmkvManager.decodeServerConfig editGuid
  let config := stored.getD ServerConfig.create
  if form.etAddress = "" ∨ form.etPort = "" ∨ form.etRemarks = "" then
    pure .rejected
  else
    match toInt form.etPort with
    | none => pure .numberFormatException
    | some port =>
      let _ ← MmkvManager.encodeServerConfig uuid editGuid
        { config with
          ipaddr := form.etAddress
          port := port
          remarks := form.etRemarks
          netType := form.spNettype }
      pure .saved

/-- The lazy `isRunning` of the screen, from the extras of its intent and the selected server. -/
def isRunning (extra : Bool) (editGuid : String) : Program Mmkv Bool := do
  if extra && editGuid ≠ "" then
    let selected ← mmkv .decodeSelectedServer
    pure (selected = some editGuid)
  else
    pure false

end ConfigActivity

/-! ## What the functions do to a store -/

namespace MainViewModel

/-- The cache that matches a server list. -/
def cacheOf (s : Store) (serverList : List String) : List ServersCache :=
  serverList.filterMap fun guid => (s.config guid).map fun config => ⟨guid, config⟩

/-- The cache is filled with what the store holds, and the store is left as it is. -/
theorem exec_updateCache (s : Store) (serverList : List String) :
    (updateCache serverList).exec storages s = (cacheOf s serverList, s) := by
  induction serverList with
  | nil => rfl
  | cons guid serverList ih =>
    simp only [updateCache, Program.bind_eq, Program.exec_bind, ih,
      MmkvManager.exec_decodeServerConfig]
    cases hconfig : s.config guid <;> simp [cacheOf, hconfig]

/-- A reload shows what the store holds, and leaves it as it is. -/
@[simp] theorem exec_reloadServerList (s : Store) :
    reloadServerList.exec storages s = (⟨s.serverList, cacheOf s s.serverList⟩, s) := by
  simp only [reloadServerList, Program.bind_eq, Program.exec_bind, exec_updateCache,
    MmkvManager.exec_decodeServerList, Program.pure_eq, Program.exec_done]

/-- The guid is shown in a row. -/
def Shows (vm : MainViewModel) (guid : String) : Prop := ∃ row ∈ vm.serversCache, row.guid = guid

instance (vm : MainViewModel) (guid : String) : Decidable (vm.Shows guid) :=
  inferInstanceAs (Decidable (∃ row ∈ vm.serversCache, row.guid = guid))

/-- A guid without a row has no position, and only such a guid. -/
theorem getPosition_eq_neg_one_iff {vm : MainViewModel} {guid : String} :
    vm.getPosition guid = -1 ↔ ¬vm.Shows guid := by
  have hany : (vm.serversCache.findIdx? (·.guid = guid)).isSome = true ↔ vm.Shows guid := by
    simp [Shows]
  rw [getPosition, ← hany]
  split
  case h_1 index h =>
    have hnonneg : (0 : ℤ) ≤ index := Int.natCast_nonneg index
    simp only [h, Option.isSome_some, not_true_eq_false, iff_false]
    omega
  case h_2 h => simp [h]

/-- A cache shows the listed guids that have a configuration. -/
theorem shows_cacheOf {s : Store} {serverList : List String} {guid : String} :
    MainViewModel.Shows ⟨serverList, cacheOf s serverList⟩ guid ↔
      guid ∈ serverList ∧ (s.config guid).isSome := by
  simp only [Shows, cacheOf, List.mem_filterMap, Option.map_eq_some_iff]
  constructor
  · rintro ⟨_, ⟨guid', hmem, config, hconfig, rfl⟩, rfl⟩
    exact ⟨hmem, by simp [hconfig]⟩
  · rintro ⟨hmem, hsome⟩
    obtain ⟨config, hconfig⟩ := Option.isSome_iff_exists.mp hsome
    exact ⟨_, ⟨guid, hmem, config, hconfig, rfl⟩, rfl⟩

/-- Removing at the position of a guid removes its first row. -/
theorem eraseIdx_getPosition (vm : MainViewModel) (guid : String) :
    (if 0 ≤ vm.getPosition guid then vm.serversCache.eraseIdx (vm.getPosition guid).toNat
      else vm.serversCache) = vm.serversCache.eraseP (·.guid = guid) := by
  rw [List.eraseP_eq_eraseIdx, getPosition]
  split
  case h_1 index h => simp [h]
  case h_2 h => simp [h]

/-- A removal takes the guid out of the list, out of the rows and out of the store. -/
@[simp] theorem exec_removeServer (vm : MainViewModel) (guid : String) (s : Store) :
    (vm.removeServer guid).exec storages s =
      (⟨vm.serverList.erase guid, vm.serversCache.eraseP (·.guid = guid)⟩,
        if isBlank guid then s else s.erase guid) := by
  simp only [removeServer, Program.bind_eq, Program.exec_bind, MmkvManager.exec_removeServer,
    Program.pure_eq, Program.exec_done, eraseIdx_getPosition]

end MainViewModel

/-- `selectServer` leaves the store with the guid selected. -/
theorem MainRecyclerAdapter.exec_selectServer (vm : MainViewModel) (guid : String) (s : Store) :
    ((selectServer vm guid).exec storages s).2 = { s with selectedServer := some guid } := by
  change (Program.exec storages (if s.selectedServer = some guid then _ else _) s).2 = _
  split
  case isTrue h =>
    rw [← h]
    rfl
  case isFalse => rfl

/-- `saveServer` leaves the store alone unless it returns `true`; then it has put a
configuration under the guid it was opened with, or under the generated one. -/
theorem ConfigActivity.exec_saveServer (uuid editGuid : String) (form : Form) (s : Store) :
    (∃ result, result ≠ .saved ∧ (saveServer uuid editGuid form).exec storages s = (result, s)) ∨
      ∃ config, (saveServer uuid editGuid form).exec storages s =
        (.saved, s.put (if isBlank editGuid then uuid else editGuid) config) := by
  simp only [saveServer, Program.bind_eq, Program.exec_bind, MmkvManager.exec_decodeServerConfig]
  split
  case isTrue => exact Or.inl ⟨.rejected, by decide, rfl⟩
  case isFalse =>
    cases toInt form.etPort with
    | none => exact Or.inl ⟨.numberFormatException, by decide, rfl⟩
    | some port =>
      let config : ServerConfig :=
        { (s.config editGuid).getD ServerConfig.create with
          ipaddr := form.etAddress
          port := port
          remarks := form.etRemarks
          netType := form.spNettype }
      refine Or.inr ⟨config, ?_⟩
      simp only [Program.exec_bind, MmkvManager.exec_encodeServerConfig]
      rfl

end HeptaVcn
