import Mathlib.Data.List.InsertIdx
import HeptaVcn.Machine.Captured
import HeptaVcn.Store.Removals

/-!
# The rows and what they are told

A row captures its guid and its position when it is bound, and a dialog confirms a
removal with both. The view model looks the guid up again, but the rows are told of
the captured position, which a removal at or above it has made another row's.
-/

namespace HeptaVcn

open Machine

/-- What the listeners of a row captured in `onBindViewHolder`. -/
structure BoundRow where
  guid : String
  position : ℕ
  deriving DecidableEq, Repr

/-- A dialog that asks to confirm the removal of a row. -/
structure Dialog extends BoundRow where
  /-- A removal at its position or above was confirmed since it was opened. -/
  overtaken : Bool
  deriving DecidableEq, Repr

/-- A call of `notifyItemRemoved` and the rows of the view model around it. -/
structure Removal where
  position : ℕ
  before : List ServersCache
  after : List ServersCache
  deriving DecidableEq, Repr

/-- The rows of the main screen. -/
structure RowList where
  app : App
  /-- The rows on the screen, each with what it was last bound to. -/
  bound : List BoundRow
  dialogs : List Dialog
  /-- The number of rows that the notifications imply. -/
  itemCount : ℤ
  /-- The removals since the last full refresh. -/
  removals : List Removal

/-- What can happen to the rows; they and the dialogs are named by their index. -/
inductive RowEvent where
  | tapInfo (row : ℕ)
  | tapRemove (row : ℕ)
  | confirm (dialog : ℕ)
  | dismiss (dialog : ℕ)
  | refresh
  deriving DecidableEq, Repr

/-- A removal at `position` is confirmed while the dialog is open. -/
def Dialog.overtakenBy (d : Dialog) (position : ℕ) : Dialog :=
  { d with overtaken := d.overtaken || position ≤ d.position }

/-- `onBindViewHolder`; there is no such row from the size of the cache on. -/
def MainViewModel.bindRow (vm : MainViewModel) (position : ℕ) : Option BoundRow :=
  vm.serversCache[position]?.map fun row => ⟨row.guid, position⟩

/-- Every row is bound anew. -/
def MainViewModel.bindRows (vm : MainViewModel) : List BoundRow :=
  vm.serversCache.mapIdx fun position row => ⟨row.guid, position⟩

/-- The rows of a range are bound anew. -/
def MainViewModel.rebindRows (vm : MainViewModel) (positionStart : ℤ) (itemCount : ℕ)
    (bound : List BoundRow) : List BoundRow :=
  bound.mapIdx fun position row =>
    if positionStart ≤ position ∧ (position : ℤ) < positionStart + itemCount then
      (vm.bindRow position).getD row
    else row

namespace RowList

/-- What the list does on a notification: a row goes, or a range of rows is bound anew. -/
def notify (s : RowList) : Notification → RowList
  | .itemRemoved position =>
    { s with bound := s.bound.eraseIdx position, itemCount := s.itemCount - 1 }
  | .itemRangeChanged positionStart itemCount =>
    { s with bound := s.app.viewModel.rebindRows positionStart itemCount s.bound }

/-- `reloadServerList` and the `notifyDataSetChanged` of its observer. -/
def refresh (s : RowList) : RowList :=
  let app := s.app.reload
  { s with
    app := app
    bound := app.viewModel.bindRows
    itemCount := app.viewModel.serversCache.length
    removals := [] }

/-- The main screen comes up over a store. -/
def launch (store : Store) : RowList := refresh ⟨App.launch store, [], [], 0, []⟩

/-- A row is tapped; `notifyItemChanged` is a range of one. -/
def tapInfo (s : RowList) (row : BoundRow) : RowList :=
  let (positions, store) :=
    (MainRecyclerAdapter.selectServer s.app.viewModel row.guid).exec storages s.app.store
  (positions.map fun position => .itemRangeChanged position 1).foldl notify
    { s with app := { s.app with store := store } }

/-- The remove button of a row is tapped. -/
def tapRemove (s : RowList) (row : BoundRow) : RowList :=
  if ((MainRecyclerAdapter.asksToRemove row.guid).exec storages s.app.store).1 then
    { s with dialogs := s.dialogs ++ [⟨row, false⟩] }
  else s

/-- A dialog is confirmed, and is gone then. -/
def confirm (s : RowList) (dialog : ℕ) (d : Dialog) : RowList :=
  let ((vm, notifications), store) :=
    (MainRecyclerAdapter.removeServer s.app.viewModel d.guid d.position).exec storages s.app.store
  notifications.foldl notify
    { s with
      app := ⟨store, vm⟩
      dialogs := (s.dialogs.eraseIdx dialog).map (·.overtakenBy d.position)
      removals := s.removals ++ [⟨d.position, s.app.viewModel.serversCache, vm.serversCache⟩] }

/-- One event. -/
def step (s : RowList) : RowEvent → Option RowList
  | .tapInfo row => s.bound[row]?.map s.tapInfo
  | .tapRemove row => s.bound[row]?.map s.tapRemove
  | .confirm dialog => s.dialogs[dialog]?.map (s.confirm dialog)
  | .dismiss dialog =>
    if dialog < s.dialogs.length then
      some { s with dialogs := s.dialogs.eraseIdx dialog }
    else none
  | .refresh => some s.refresh

/-- The number of rows is right, and so is the position of every removal. -/
structure Described (s : RowList) : Prop where
  itemCount : s.itemCount = s.app.viewModel.serversCache.length
  removals : ∀ r ∈ s.removals, r.position < r.before.length ∧ r.after = r.before.eraseIdx r.position

/-- A dialog that is confirmed has not been overtaken. -/
def InTime (s : RowList) (e : RowEvent) : Prop :=
  ∀ dialog d, e = .confirm dialog → s.dialogs[dialog]? = some d → d.overtaken = false

end RowList

namespace MainViewModel

variable {vm vm' : MainViewModel}

/-- Each row is bound to its own position. -/
theorem getElem?_bindRows (vm : MainViewModel) (position : ℕ) :
    vm.bindRows[position]? = vm.bindRow position := by
  rw [bindRows, bindRow, List.getElem?_mapIdx]

/-- A row of the range is bound anew, any other stays as it was. -/
theorem getElem?_rebindRows (vm : MainViewModel) (positionStart : ℤ) (itemCount position : ℕ)
    (bound : List BoundRow) :
    (vm.rebindRows positionStart itemCount bound)[position]? = bound[position]?.map fun row =>
      if positionStart ≤ position ∧ (position : ℤ) < positionStart + itemCount then
        (vm.bindRow position).getD row
      else row := by
  rw [rebindRows, List.getElem?_mapIdx]

/-- Rows that are bound right are bound to the same again. -/
theorem rebindRows_bindRows (vm : MainViewModel) (positionStart : ℤ) (itemCount : ℕ) :
    vm.rebindRows positionStart itemCount vm.bindRows = vm.bindRows := by
  apply List.ext_getElem?
  intro position
  rw [getElem?_rebindRows, getElem?_bindRows]
  cases vm.bindRow position <;> simp

/-- After a row is gone from both, binding the rows from its position on is enough. -/
theorem rebindRows_eraseIdx {position : ℕ}
    (hcache : vm'.serversCache = vm.serversCache.eraseIdx position) :
    vm'.rebindRows position vm'.serversCache.length (vm.bindRows.eraseIdx position) =
      vm'.bindRows := by
  apply List.ext_getElem?
  intro i
  rw [getElem?_rebindRows, getElem?_bindRows]
  by_cases hlt : i < position
  · -- above it the row and its position are unchanged
    have hrow : vm'.bindRow i = vm.bindRow i := by
      rw [bindRow, hcache, List.getElem?_eraseIdx_of_lt hlt, bindRow]
    rw [List.getElem?_eraseIdx_of_lt hlt, getElem?_bindRows, hrow]
    cases vm.bindRow i <;> simp
  · -- from it on a row was one position further down, and is bound anew
    have hold : vm.bindRow (i + 1) = (vm'.bindRow i).map fun row => ⟨row.guid, i + 1⟩ := by
      simp only [bindRow, hcache, List.getElem?_eraseIdx_of_ge (show position ≤ i by omega),
        Option.map_map]
      rfl
    rw [List.getElem?_eraseIdx_of_ge (by omega), getElem?_bindRows, hold, Option.map_map]
    cases hrow : vm'.bindRow i with
    | none => rfl
    | some row =>
      have hlength : i < vm'.serversCache.length := by
        have hsome : (vm'.bindRow i).isSome := by rw [hrow]; rfl
        simpa [bindRow] using hsome
      rw [Option.map_some, Function.comp_apply, if_pos (by omega), Option.getD_some]

end MainViewModel

namespace Dialog

variable {d : Dialog} {guids : List String}

/-- The position of a dialog is its row's, or was until the dialog was overtaken. -/
def Located (d : Dialog) (guids : List String) : Prop :=
  if d.overtaken then Passed guids d.guid d.position else Held guids d.guid d.position

/-- A dialog in time has the position of its row. -/
theorem Located.held (h : d.Located guids) (hintime : d.overtaken = false) :
    Held guids d.guid d.position := by
  rwa [Located, hintime, if_neg (by decide)] at h

/-- The row of an overtaken dialog is no longer at its position. -/
theorem Located.passed (h : d.Located guids) (hlate : d.overtaken = true) :
    Passed guids d.guid d.position := by
  rwa [Located, hlate, if_pos rfl] at h

/-- Another dialog's removal overtakes a dialog exactly when it takes its position away. -/
theorem Located.overtakenBy (h : d.Located guids) (hnodup : guids.Nodup) (position : ℕ) :
    (d.overtakenBy position).Located (guids.eraseIdx position) := by
  cases hovertaken : d.overtaken with
  | true =>
    have hpassed := (h.passed hovertaken).eraseIdx position
    simpa [Located, Dialog.overtakenBy, hovertaken] using hpassed
  | false =>
    have hheld := h.held hovertaken
    by_cases hle : position ≤ d.position
    · simpa [Located, Dialog.overtakenBy, hovertaken, hle] using hheld.passed hnodup hle
    · have hkept := hheld.eraseIdx (not_le.mp hle)
      simpa [Located, Dialog.overtakenBy, hovertaken, hle] using hkept

end Dialog

namespace RowList

variable {s t : RowList}

/-- The guids of the rows, as the view model has them. -/
def guids (s : RowList) : List String := s.app.viewModel.serversCache.map (·.guid)

/-- Rows, count and removals are right, and a dialog's position is still its row's unless
the dialog has been overtaken. -/
structure InOrder (s : RowList) : Prop where
  reloaded : s.app.Reloaded
  bound : s.bound = s.app.viewModel.bindRows
  described : s.Described
  dialogs : ∀ d ∈ s.dialogs, d.Located s.guids

/-- What a confirmed dialog does, before the rows are told. -/
theorem confirm_eq (s : RowList) (dialog : ℕ) (d : Dialog) :
    s.confirm dialog d =
      { app := s.app.removeServer d.guid
        bound := (s.app.removeServer d.guid).viewModel.rebindRows d.position
          (s.app.removeServer d.guid).viewModel.serversCache.length (s.bound.eraseIdx d.position)
        dialogs := (s.dialogs.eraseIdx dialog).map (·.overtakenBy d.position)
        itemCount := s.itemCount - 1
        removals := s.removals ++ [⟨d.position, s.app.viewModel.serversCache,
          (s.app.removeServer d.guid).viewModel.serversCache⟩] } := by
  rw [confirm, MainRecyclerAdapter.removeServer, App.removeServer]
  simp only [Program.bind_eq, Program.exec_bind, Program.pure_eq, Program.exec_done,
    List.foldl_cons, List.foldl_nil, notify]

/-- A tap changes the selected server and binds rows anew, to what they are bound to. -/
theorem tapInfo_eq (hbound : s.bound = s.app.viewModel.bindRows) (row : BoundRow) :
    s.tapInfo row = { s with app := s.app.selectServer row.guid } := by
  have hfold (positions : List ℤ) (store : Store) :
      (positions.map fun position => Notification.itemRangeChanged position 1).foldl notify
        { s with app := { s.app with store := store } } =
        { s with app := { s.app with store := store } } := by
    induction positions with
    | nil => rfl
    | cons position positions ih =>
      rw [List.map_cons, List.foldl_cons, notify, hbound, MainViewModel.rebindRows_bindRows,
        ← hbound]
      exact ih
  rw [tapInfo]
  exact hfold _ _

/-- No two rows show the same server. -/
theorem InOrder.rows_nodup (hs : s.InOrder) : s.guids.Nodup := hs.reloaded.rows_nodup

/-- The full refresh of a list puts it in order. -/
theorem inOrder_refresh (hnodup : s.app.store.serverList.Nodup)
    (hdialogs : ∀ d ∈ s.dialogs, d.Located s.refresh.guids) : s.refresh.InOrder where
  reloaded := App.Reloaded.reload hnodup
  bound := rfl
  described := ⟨rfl, fun _ hr => by cases hr⟩
  dialogs := hdialogs

/-- A list of rows that has just been made is in order. -/
theorem inOrder_launch (store : Store) (hnodup : store.serverList.Nodup) :
    (launch store).InOrder :=
  inOrder_refresh hnodup fun _ hd => by cases hd

/-- A refresh binds all rows anew. -/
theorem InOrder.refresh (hs : s.InOrder) : s.refresh.InOrder := by
  have hguids : s.refresh.guids = s.guids := by
    rw [guids, guids, RowList.refresh]
    simp only [App.reload_eq, hs.reloaded.viewModel]
  apply inOrder_refresh hs.reloaded.nodup
  rw [hguids]
  exact hs.dialogs

/-- A tap on the information keeps the rows in order. -/
theorem InOrder.tapInfo (hs : s.InOrder) (row : BoundRow) : (s.tapInfo row).InOrder := by
  rw [tapInfo_eq hs.bound, App.selectServer_eq]
  exact ⟨⟨hs.reloaded.nodup, hs.reloaded.viewModel⟩, hs.bound,
    ⟨hs.described.itemCount, hs.described.removals⟩, hs.dialogs⟩

/-- A dialog that is opened gets the position of its row. -/
theorem InOrder.tapRemove (hs : s.InOrder) {i : ℕ} {row : BoundRow}
    (hrow : s.bound[i]? = some row) : (s.tapRemove row).InOrder := by
  have hheld : Held s.guids row.guid row.position := by
    rw [hs.bound, MainViewModel.getElem?_bindRows, MainViewModel.bindRow] at hrow
    obtain ⟨cached, hcached, rfl⟩ := Option.map_eq_some_iff.mp hrow
    rw [Held, guids, List.getElem?_map, hcached]
    rfl
  rw [RowList.tapRemove]
  split
  · refine ⟨hs.reloaded, hs.bound, ⟨hs.described.itemCount, hs.described.removals⟩, ?_⟩
    intro d hd
    rcases List.mem_append.mp hd with hd | hd
    · exact hs.dialogs d hd
    · obtain rfl := List.mem_singleton.mp hd
      exact hheld
  · exact hs

/-- Dismissing a dialog leaves the rows alone. -/
theorem InOrder.dismiss (hs : s.InOrder) (dialog : ℕ) :
    InOrder { s with dialogs := s.dialogs.eraseIdx dialog } :=
  ⟨hs.reloaded, hs.bound, ⟨hs.described.itemCount, hs.described.removals⟩,
    fun d hd => hs.dialogs d (List.mem_of_mem_eraseIdx hd)⟩

/-- The row at a guid's position is the one the view model removes. -/
theorem InOrder.removed (hs : s.InOrder) {guid : String} {position : ℕ}
    (hheld : Held s.guids guid position) :
    (s.app.removeServer guid).viewModel.serversCache =
      s.app.viewModel.serversCache.eraseIdx position := by
  have hposition := (MainViewModel.getPosition_eq_iff hs.rows_nodup).mpr hheld
  have herase := s.app.viewModel.eraseIdx_getPosition guid
  rw [hposition, if_pos (Int.natCast_nonneg position), Int.toNat_natCast] at herase
  rw [App.removeServer_eq]
  exact herase.symm

/-- A guid that has a row is not blank. -/
theorem InOrder.nonblank (hs : s.InOrder) {guid : String} (hmem : guid ∈ s.guids) :
    isBlank guid = false := by
  obtain ⟨row, hrow, rfl⟩ := List.mem_map.mp hmem
  have hshows : s.app.viewModel.Shows row.guid := ⟨row, hrow, rfl⟩
  rw [hs.reloaded.viewModel] at hshows
  have hconfig := (MainViewModel.shows_cacheOf.mp hshows).2
  by_contra hblank
  rw [Bool.not_eq_false] at hblank
  simp [Store.config, hblank] at hconfig

/-- A dialog that has not been overtaken removes the row at its position. -/
theorem InOrder.confirm (hs : s.InOrder) {dialog : ℕ} {d : Dialog}
    (hdialog : s.dialogs[dialog]? = some d) (hintime : d.overtaken = false) :
    (s.confirm dialog d).InOrder := by
  have hheld := (hs.dialogs d (List.mem_of_getElem? hdialog)).held hintime
  have hremoved := hs.removed hheld
  have hlt : d.position < s.app.viewModel.serversCache.length := by
    simpa [guids] using (List.getElem?_eq_some_iff.mp hheld).1
  rw [confirm_eq]
  refine ⟨hs.reloaded.removeServer fun _ => hs.nonblank hheld.mem, ?_, ⟨?_, ?_⟩, ?_⟩
  · rw [hs.bound]
    exact MainViewModel.rebindRows_eraseIdx hremoved
  · have hcount := hs.described.itemCount
    simp only [hremoved, List.length_eraseIdx_of_lt hlt]
    omega
  · intro r hr
    rcases List.mem_append.mp hr with hr | hr
    · exact hs.described.removals r hr
    · obtain rfl := List.mem_singleton.mp hr
      exact ⟨hlt, hremoved⟩
  · intro d' hd'
    obtain ⟨other, hother, rfl⟩ := List.mem_map.mp hd'
    rw [guids, hremoved, ← List.eraseIdx_map]
    exact (hs.dialogs other (List.mem_of_mem_eraseIdx hother)).overtakenBy hs.rows_nodup d.position

/-- A dialog that has been overtaken tells the rows of a removal that did not happen there. -/
theorem InOrder.not_described (hs : s.InOrder) {dialog : ℕ} {d : Dialog}
    (hdialog : s.dialogs[dialog]? = some d) (hlate : d.overtaken = true) :
    ¬(s.confirm dialog d).Described := by
  have hpassed := (hs.dialogs d (List.mem_of_getElem? hdialog)).passed hlate
  intro hdescribed
  obtain ⟨hlt, hafter⟩ := hdescribed.removals
    ⟨d.position, s.app.viewModel.serversCache,
      (s.app.removeServer d.guid).viewModel.serversCache⟩ (by simp [confirm_eq])
  have hguids : s.guids.erase d.guid = s.guids.eraseIdx d.position := by
    rw [guids, ← App.map_guid_eraseP, List.eraseIdx_map, ← hafter, App.removeServer_eq]
  by_cases hmem : d.guid ∈ s.guids
  · -- its row has moved up, and is not the one the rows are told of
    have hkept := hpassed.mem_eraseIdx hmem
    rw [← hguids] at hkept
    exact hs.rows_nodup.not_mem_erase hkept
  · -- its row was gone already, and nothing is removed
    rw [List.erase_of_not_mem hmem] at hguids
    have hlength := congrArg List.length hguids
    have hlt' : d.position < s.guids.length := by simpa [guids] using hlt
    rw [List.length_eraseIdx_of_lt hlt'] at hlength
    omega

/-- Every event but the confirmation of a dialog that was overtaken keeps the rows in order. -/
theorem InOrder.step (hs : s.InOrder) {e : RowEvent} (hintime : s.InTime e)
    (hstep : s.step e = some t) : t.InOrder := by
  cases e with
  | tapInfo i =>
    obtain ⟨row, _, rfl⟩ := Option.map_eq_some_iff.mp hstep
    exact hs.tapInfo row
  | tapRemove i =>
    obtain ⟨row, hrow, rfl⟩ := Option.map_eq_some_iff.mp hstep
    exact hs.tapRemove hrow
  | confirm dialog =>
    obtain ⟨d, hdialog, rfl⟩ := Option.map_eq_some_iff.mp hstep
    exact hs.confirm hdialog (hintime dialog d rfl hdialog)
  | dismiss dialog =>
    rw [RowList.step] at hstep
    split at hstep
    · obtain rfl := Option.some.inj hstep
      exact hs.dismiss dialog
    · cases hstep
  | refresh =>
    obtain rfl := Option.some.inj hstep
    exact hs.refresh

/-- A dialog that is confirmed too late describes its removal wrongly. -/
theorem InOrder.not_described_step (hs : s.InOrder) {e : RowEvent} (hlate : ¬s.InTime e)
    (hstep : s.step e = some t) : ¬t.Described := by
  simp only [InTime, not_forall, Bool.not_eq_false] at hlate
  obtain ⟨dialog, d, rfl, hdialog, hlate⟩ := hlate
  rw [RowList.step, hdialog] at hstep
  obtain rfl := Option.some.inj hstep
  exact hs.not_described hdialog hlate

/-- Throughout a run the number of rows and the notified positions are right if and only
if every dialog that is confirmed is confirmed before it is overtaken. -/
theorem described_iff_inTime {store : Store} (hnodup : store.serverList.Nodup)
    {tr : List RowEvent} (hrun : run step (launch store) tr = some t) :
    Always step Described (launch store) tr ↔ Meets step InTime (launch store) tr :=
  always_iff_meets (I := InOrder) (fun _ hs => hs.described) (fun _ _ _ hs => hs.step)
    (fun _ _ _ hs => hs.not_described_step) (inOrder_launch store hnodup) hrun

/-- Two dialogs are opened for the first row, and both are confirmed. -/
def confirmedTwice : List RowEvent := [.tapRemove 0, .tapRemove 0, .confirm 0, .confirm 0]

/-- An instance: one removal and a refresh. -/
theorem described_iff_inTime_threeListed : App.threeListed.serverList.Nodup ∧
    ∃ t, run step (launch App.threeListed) [.tapRemove 0, .confirm 0, .refresh] = some t ∧
      (Always step Described (launch App.threeListed) [.tapRemove 0, .confirm 0, .refresh] ↔
        Meets step InTime (launch App.threeListed) [.tapRemove 0, .confirm 0, .refresh]) :=
  have hnodup : App.threeListed.serverList.Nodup := by decide
  ⟨hnodup, _, rfl, described_iff_inTime hnodup rfl⟩

/-- The second confirmation removes nothing, yet a row is counted off for it. -/
theorem not_described_confirmedTwice : App.threeListed.serverList.Nodup ∧
    ∃ t, run step (launch App.threeListed) confirmedTwice = some t ∧
      t.app.viewModel.serversCache.map (·.guid) = ["c"] ∧ t.itemCount = 0 ∧ ¬t.Described := by
  refine ⟨by decide, _, rfl, rfl, rfl, ?_⟩
  intro hdescribed
  have hcount : (0 : ℤ) = (1 : ℕ) := hdescribed.itemCount
  omega

end RowList

end HeptaVcn
