import HeptaVcn.Machine.Catalogue
import HeptaVcn.Store.InStep

/-!
# The servers as a catalogue

What the store, its screens and their many small writes amount to: a catalogue of
server configurations by guid, with a chosen one. Every operation of the user is a
change of the catalogue or none, and what the app reads and shows is the catalogue.
-/

namespace HeptaVcn

open Machine

/-- What the server store is for. -/
abbrev ServerBook := Catalogue String ServerConfig

/-- A change of the catalogue. -/
abbrev BookChange := Catalogue.Change String ServerConfig

/-- The configuration that a form enters, if it is accepted. -/
def ConfigActivity.Form.entered (form : ConfigActivity.Form) : Option ServerConfig :=
  if form.etAddress = "" ∨ form.etPort = "" ∨ form.etRemarks = "" then none
  else (toInt form.etPort).map fun port =>
    { ServerConfig.create with
      ipaddr := form.etAddress
      port := port
      remarks := form.etRemarks
      netType := form.spNettype }

/-- What an operation of the user changes. -/
def UserOperation.asked : UserOperation → List BookChange
  | .saveNew uuid form => (form.entered.map (.put uuid)).toList
  | .saveEdit _ guid form => (form.entered.map (.put guid)).toList
  | .confirmRemoval guid => [.remove guid]
  | .selectServer guid => [.choose guid]
  | .reload => []

/-- The row of an entry. -/
def ServerBook.row (book : ServerBook) (entry : String × ServerConfig) :
    MainRecyclerAdapter.RowView where
  tvName := entry.2.remarks
  tvStatistics := entry.2.ipaddr ++ " : " ++ String.ofList (Java.intText entry.2.port)
  selected := book.chosen = some entry.1

/-- What the app reads from the store, and what the main screen shows once it has been
resumed, is the catalogue. -/
structure App.Presents (a : App) (book : ServerBook) : Prop where
  list : (MmkvManager.decodeServerList.exec storages a.store).1 = book.keys
  config : ∀ guid, ((MmkvManager.decodeServerConfig guid).exec storages a.store).1 = book.get guid
  selected : ((mmkv .decodeSelectedServer).exec storages a.store).1 = book.chosen
  rows : a.reload.viewModel.serversCache.map (fun row =>
      ((MainRecyclerAdapter.onBindViewHolder row).exec storages a.reload.store).1) =
    book.entries.map book.row

/-! ## The store of a catalogue -/

/-- The store keeps the catalogue, whose keys are not blank and whose configurations
differ from new ones only in what a form enters. -/
structure Store.Keeps (s : Store) (book : ServerBook) : Prop where
  list : s.serverList = book.keys
  config : ∀ guid, s.serverConfig guid = book.get guid
  selected : s.selectedServer = book.chosen
  nonblank : ∀ guid ∈ book.keys, isBlank guid = false
  filterType : ∀ guid config, book.get guid = some config →
    config.filterType = ServerConfig.create.filterType

section Keeps

variable {s : Store} {book : ServerBook}

/-- The empty store keeps the empty catalogue. -/
theorem empty_keeps : Store.empty.Keeps Catalogue.empty where
  list := rfl
  config _ := rfl
  selected := rfl
  nonblank _ h := nomatch h
  filterType _ _ h := nomatch h

/-- What is read from the store is what the catalogue has. -/
theorem Store.Keeps.read (hs : s.Keeps book) (guid : String) : s.config guid = book.get guid := by
  unfold Store.config
  split
  case isFalse => exact hs.config guid
  case isTrue hblank =>
    have hnot : guid ∉ book.keys := by
      intro hmem
      rw [hs.nonblank guid hmem] at hblank
      cases hblank
    rw [← Catalogue.get_isSome_iff, Option.not_isSome_iff_eq_none] at hnot
    exact hnot.symm

/-- Saving a server puts it into the catalogue. -/
theorem Store.Keeps.put (hs : s.Keeps book) {key : String} (hkey : isBlank key = false)
    {config : ServerConfig} (hconfig : config.filterType = ServerConfig.create.filterType) :
    (s.put key config).Keeps (book.put key config) := by
  have hget (guid : String) :
      Function.update s.serverConfig key (some config) guid = (book.put key config).get guid := by
    rw [Catalogue.get_put, Function.update_apply, hs.config]
  have hblank : (if isNullOrBlank s.selectedServer then some key else s.selectedServer) =
      some (book.chosen.getD key) := by
    rw [hs.selected]
    cases hchosen : book.chosen with
    | none => rfl
    | some guid =>
      have hguid := hs.nonblank guid (book.chosen_mem guid hchosen)
      simp [isNullOrBlank, hguid]
  refine ⟨?_, fun guid => ?_, ?_, fun guid hmem => ?_, fun guid config' hget' => ?_⟩
  · rw [Catalogue.keys_put, ← hs.list, Store.put]
    split <;> rfl
  · rw [← hget, Store.put]
    split <;> rfl
  · rw [Catalogue.chosen_put, ← hs.list, ← hblank, Store.put, ← hs.selected]
    split <;> rfl
  · rw [Catalogue.keys_put] at hmem
    split at hmem
    · exact hs.nonblank guid hmem
    · rcases List.mem_cons.mp hmem with rfl | hmem
      · exact hkey
      · exact hs.nonblank guid hmem
  · rw [Catalogue.get_put] at hget'
    split at hget'
    · rwa [← Option.some.inj hget']
    · exact hs.filterType guid config' hget'

/-- Erasing a server removes it from the catalogue. -/
theorem Store.Keeps.erase (hs : s.Keeps book) {guid : String} (hchosen : book.chosen ≠ some guid) :
    (s.erase guid).Keeps (book.remove guid hchosen) := by
  refine ⟨?_, fun guid' => ?_, ?_, fun guid' hmem => ?_, fun guid' config hget => ?_⟩
  · rw [Catalogue.keys_remove, ← hs.list]
    rfl
  · rw [Catalogue.get_remove, ← hs.config]
    exact Function.update_apply ..
  · exact (if_neg (hs.selected ▸ hchosen)).trans hs.selected
  · rw [Catalogue.keys_remove] at hmem
    exact hs.nonblank guid' (List.mem_of_mem_erase hmem)
  · rw [Catalogue.get_remove] at hget
    split at hget
    · cases hget
    · exact hs.filterType guid' config hget

/-- Selecting a server chooses it in the catalogue. -/
theorem Store.Keeps.select (hs : s.Keeps book) {guid : String} (hmem : guid ∈ book.keys) :
    Store.Keeps { s with selectedServer := some guid } (book.choose guid hmem) :=
  ⟨hs.list, hs.config, rfl, hs.nonblank, hs.filterType⟩

/-- Saving puts the configuration that the form enters, if it is accepted. -/
theorem exec_saveServer_entered (hs : s.Keeps book) (uuid editGuid : String)
    (form : ConfigActivity.Form) :
    (ConfigActivity.saveServer uuid editGuid form).exec storages s =
      match form.entered with
      | some config => (.saved, s.put (if isBlank editGuid then uuid else editGuid) config)
      | none => (if form.etAddress = "" ∨ form.etPort = "" ∨ form.etRemarks = "" then .rejected
          else .numberFormatException, s) := by
  have hfilter : ((s.config editGuid).getD ServerConfig.create).filterType =
      ServerConfig.create.filterType := by
    rw [hs.read]
    cases hget : book.get editGuid with
    | none => rfl
    | some config => exact hs.filterType editGuid config hget
  simp only [ConfigActivity.saveServer, Program.bind_eq, Program.exec_bind,
    MmkvManager.exec_decodeServerConfig, ConfigActivity.Form.entered]
  split
  case isTrue => rfl
  case isFalse =>
    cases toInt form.etPort with
    | none => rfl
    | some port =>
      simp only [Program.exec_bind, MmkvManager.exec_encodeServerConfig, hfilter]
      rfl

end Keeps

/-! ## The operations of the user -/

namespace App

variable {a b : App} {book : ServerBook}

/-- The app keeps the catalogue, and no row shows a server that is not in it. -/
structure Refines (a : App) (book : ServerBook) : Prop where
  keeps : a.store.Keeps book
  sound : a.store.Sound
  rowsListed : a.RowsListed

/-- Saving a server makes at most one change. -/
theorem Refines.save (ha : a.Refines book) {uuid editGuid key : String}
    {form : ConfigActivity.Form} (hkey : (if isBlank editGuid then uuid else editGuid) = key)
    (hblank : isBlank key = false) :
    ∃ book', run Catalogue.step book (form.entered.map (.put key)).toList = some book' ∧
      (a.save uuid editGuid form).store.Keeps book' := by
  have hexec := exec_saveServer_entered ha.keeps uuid editGuid form
  rw [hkey] at hexec
  cases hentered : form.entered with
  | none =>
    rw [hentered] at hexec
    refine ⟨book, rfl, ?_⟩
    rw [App.save, hexec]
    dsimp only
    split
    · exact ha.keeps
    · exact ha.keeps
  | some config =>
    rw [hentered] at hexec
    have hconfig : config.filterType = ServerConfig.create.filterType := by
      unfold ConfigActivity.Form.entered at hentered
      split at hentered
      · cases hentered
      · obtain ⟨port, _, rfl⟩ := Option.map_eq_some_iff.mp hentered
        rfl
    refine ⟨book.put key config, rfl, ?_⟩
    rw [App.save, hexec]
    exact ha.keeps.put hblank hconfig

/-- Every operation of the user is the change it asks for. -/
theorem refines_step {op : UserOperation} (ha : a.Refines book) (hstep : a.step op = some b) :
    ∃ book', run Catalogue.step book op.asked = some book' ∧ b.Refines book' := by
  obtain ⟨hsound, hrows⟩ := sound_step ⟨ha.sound, ha.rowsListed⟩ hstep
  suffices h : ∃ book', run Catalogue.step book op.asked = some book' ∧ b.store.Keeps book' by
    obtain ⟨book', hbook', hkeeps⟩ := h
    exact ⟨book', hbook', hkeeps, hsound, hrows⟩
  simp only [step, Option.ite_none_right_eq_some, Option.some.injEq] at hstep
  obtain ⟨henabled, rfl⟩ := hstep
  cases op with
  | saveNew uuid form => exact ha.save (if_pos rfl) (by simpa [enabled] using henabled)
  | saveEdit uuid guid form =>
    simp only [enabled, Bool.and_eq_true, decide_eq_true_eq] at henabled
    have hblank := ha.sound.nonblank guid henabled.2
    exact ha.save (if_neg (by simp [hblank])) hblank
  | confirmRemoval guid =>
    simp only [enabled, Bool.and_eq_true, decide_eq_true_eq] at henabled
    obtain ⟨hmem, hselected⟩ := henabled
    have hblank : ¬isBlank guid := by simp [ha.sound.nonblank guid hmem]
    rw [ha.keeps.list] at hmem
    rw [ha.keeps.selected] at hselected
    refine ⟨book.remove guid hselected, ?_, ?_⟩
    · simp [UserOperation.asked, Catalogue.step, hmem, hselected]
    · rw [after, removeServer_eq, if_neg hblank]
      exact ha.keeps.erase hselected
  | selectServer guid =>
    have hmem := ha.rowsListed.listed guid (of_decide_eq_true henabled)
    rw [ha.keeps.list] at hmem
    refine ⟨book.choose guid hmem, ?_, ?_⟩
    · simp [UserOperation.asked, Catalogue.step, hmem]
    · rw [after, selectServer_eq]
      exact ha.keeps.select hmem
  | reload =>
    refine ⟨book, rfl, ?_⟩
    rw [after, reload_eq]
    exact ha.keeps

/-- An app that keeps a catalogue presents it. -/
theorem Refines.presents (ha : a.Refines book) : a.Presents book where
  list := ha.keeps.list
  config guid := by
    rw [MmkvManager.exec_decodeServerConfig]
    exact ha.keeps.read guid
  selected := ha.keeps.selected
  rows := by
    have hcache : MainViewModel.cacheOf a.store a.store.serverList =
        book.entries.map fun entry => ⟨entry.1, entry.2⟩ := by
      conv_rhs => rw [← book.filterMap_get, List.map_filterMap]
      rw [MainViewModel.cacheOf, ha.keeps.list]
      refine List.filterMap_congr fun guid _ => ?_
      rw [ha.keeps.read, Option.map_map]
      rfl
    rw [reload_eq, hcache, List.map_map]
    refine List.map_congr_left fun entry _ => ?_
    have hselected := ha.keeps.selected
    simp only [Function.comp, MainRecyclerAdapter.onBindViewHolder, ServerBook.row, ← hselected]
    rfl

/-- An app launched on an empty store refines the empty catalogue. -/
theorem launch_refines : (launch Store.empty).Refines Catalogue.empty :=
  ⟨empty_keeps, Store.empty_sound, launch_rowsListed Store.empty⟩

/-- A run refines the catalogue that its changes make. -/
theorem refines_of_run {tr : List UserOperation}
    (hrun : run step (launch Store.empty) tr = some a) :
    ∃ book, run Catalogue.step Catalogue.empty (tr.flatMap (·.asked)) = some book ∧
      a.Refines book :=
  run_refine (R := Refines) (fun _ _ _ _ ha hstep => refines_step ha hstep) launch_refines hrun

/-- After every sequence of user operations from an empty store, the app presents the
catalogue that the changes asked for make of an empty one. -/
theorem presents_of_run {tr : List UserOperation}
    (hrun : run step (launch Store.empty) tr = some a) :
    ∃ book, run Catalogue.step Catalogue.empty (tr.flatMap (·.asked)) = some book ∧
      a.Presents book := by
  obtain ⟨book, hbook, ha⟩ := refines_of_run hrun
  exact ⟨book, hbook, ha.presents⟩

/-- An instance: two servers are added and the first one is removed. -/
theorem presents_twoServers : ∃ a, run step (launch Store.empty) twoServers = some a ∧
    ∃ book, run Catalogue.step Catalogue.empty (twoServers.flatMap (·.asked)) = some book ∧
      a.Presents book :=
  ⟨_, rfl, presents_of_run (show run step (launch Store.empty) twoServers = some _ from rfl)⟩

end App

/-! ## Saving what was not edited -/

/-- A configuration asked for by an operation was entered with a form. -/
theorem UserOperation.exists_form {op : UserOperation} {guid : String} {config : ServerConfig}
    (hasked : .put guid config ∈ op.asked) :
    ∃ form : ConfigActivity.Form, form.entered = some config := by
  cases op with
  | saveNew _ form | saveEdit _ _ form =>
    simp only [asked, Option.mem_toList, Option.map_eq_some_iff,
      Catalogue.Change.put.injEq] at hasked
    obtain ⟨_, hform, _, rfl⟩ := hasked
    exact ⟨form, hform⟩
  | confirmRemoval | selectServer | reload => simp [asked] at hasked

/-- What a form enters is shown in the fields of the screen so that it is entered again when
nothing is changed. -/
theorem ConfigActivity.Form.entered_again {form : Form} {config : ServerConfig}
    (hentered : form.entered = some config) :
    Form.entered ⟨config.ipaddr, String.ofList (Java.intText config.port), config.remarks,
      config.netType⟩ = some config := by
  unfold Form.entered at hentered
  split at hentered
  case isTrue => cases hentered
  case isFalse hfilled =>
    obtain ⟨port, hport, rfl⟩ := Option.map_eq_some_iff.mp hentered
    push Not at hfilled
    obtain ⟨haddress, _, hremarks⟩ := hfilled
    obtain ⟨hmin, hmax⟩ := Java.range_of_parseInt hport
    have hagain : toInt (String.ofList (Java.intText port)) = some port := by
      rw [toInt, String.toList_ofList, Java.parseInt_intText hmin hmax]
    have hshown : String.ofList (Java.intText port) ≠ "" := by
      intro hempty
      rw [hempty] at hagain
      cases hagain
    simp [Form.entered, haddress, hremarks, hshown, hagain]

/-- Putting what is there already changes nothing. -/
theorem Store.put_self {s : Store} {guid : String} {config : ServerConfig}
    (hmem : guid ∈ s.serverList) (hconfig : s.serverConfig guid = some config) :
    s.put guid config = s := by
  rw [Store.put, if_pos hmem, ← hconfig, Function.update_eq_self]

/-- In every state the user can reach, a listed server that is opened on the configuration
screen and saved unchanged is accepted, and the store stays as it is. -/
theorem App.saveServer_unchanged {a : App} {tr : List UserOperation}
    (hrun : run App.step (App.launch Store.empty) tr = some a) {guid : String}
    (hmem : guid ∈ a.store.serverList) (uuid : String) :
    (ConfigActivity.onCreate guid >>= ConfigActivity.saveServer uuid guid).exec storages a.store =
      (.saved, a.store) := by
  obtain ⟨book, hbook, ha⟩ := App.refines_of_run hrun
  have hsome := (ha.sound.stored guid).mp hmem
  obtain ⟨config, hconfig⟩ := Option.isSome_iff_exists.mp hsome
  have hget : book.get guid = some config := by rw [← ha.keeps.config, hconfig]
  obtain ⟨op, _, hasked⟩ := List.mem_flatMap.mp (Catalogue.put_mem_of_run hbook hget)
  obtain ⟨form, hentered⟩ := UserOperation.exists_form hasked
  have hread : a.store.config guid = some config := by rw [ha.keeps.read, hget]
  have hblank := ha.sound.nonblank guid hmem
  have hopened : (ConfigActivity.onCreate guid).exec storages a.store =
      (⟨config.ipaddr, String.ofList (Java.intText config.port), config.remarks,
        config.netType⟩, a.store) := by
    simp only [ConfigActivity.onCreate, Program.bind_eq, Program.exec_bind,
      MmkvManager.exec_decodeServerConfig, hread]
    rfl
  rw [Program.bind_eq, Program.exec_bind, hopened, exec_saveServer_entered ha.keeps,
    ConfigActivity.Form.entered_again hentered]
  dsimp only
  rw [if_neg (by simp [hblank]), Store.put_self hmem hconfig]

/-- An instance: the server that is left is opened and saved as it is. -/
theorem App.saveServer_unchanged_twoServers : ∃ a,
    run App.step (App.launch Store.empty) App.twoServers = some a ∧
      (ConfigActivity.onCreate "b" >>= ConfigActivity.saveServer "c" "b").exec storages a.store =
        (.saved, a.store) := by
  have hrun : ∃ a, run App.step (App.launch Store.empty) App.twoServers = some a ∧
      a.store.serverList = ["b"] := ⟨_, rfl, rfl⟩
  obtain ⟨a, hrun, hlist⟩ := hrun
  exact ⟨a, hrun, saveServer_unchanged hrun (by simp [hlist]) "c"⟩

end HeptaVcn
