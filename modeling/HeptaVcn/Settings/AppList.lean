import Mathlib.Data.List.Perm.Basic
import HeptaVcn.Machine.Run
import HeptaVcn.Settings.Storage

/-!
# The application list screen, `appListActivity.java`

Each row is a launcher activity of some package and has its own switch; the list of
chosen packages is changed beside the switches. The two agree as long as no switch is
moved while another row of the same package is on.
-/

namespace HeptaVcn

open Machine

/-- `AppListAdapter.AppInfo` -/
structure AppInfo where
  packageName : String
  enable : Bool
  deriving DecidableEq

/-- The fields of `appListActivity`. -/
structure AppListActivity where
  type : ℤ
  enableList : List String
  launcherIconPackageList : List AppInfo
  deriving DecidableEq

namespace AppListActivity

/-- `getAllLauncherIconPackages`, given the packages of the launcher activities. -/
def getAllLauncherIconPackages (packageName : String) (resolveInfos : List String)
    (enableList : List String) : List AppInfo :=
  (resolveInfos.filter (· ≠ packageName)).map fun name => ⟨name, enableList.contains name⟩

/-- `onCreate` -/
def onCreate (packageName : String) (resolveInfos : List String) (s : SetModule) (type : ℤ) :
    AppListActivity :=
  let enableList := MmkvManager.decodeApplicationList s type
  ⟨type, enableList, getAllLauncherIconPackages packageName resolveInfos enableList⟩

/-- `OnListener`: an element is added at the end, and its first occurrence is removed. -/
def onListener (enableList : List String) (status : Bool) (pKgName : String) : List String :=
  if status then enableList ++ [pKgName] else enableList.erase pKgName

/-- `onCheckedChanged` of the switch of a row. -/
def onCheckedChanged (a : AppListActivity) (row : ℕ) (isChecked : Bool) (pKgName : String) :
    AppListActivity :=
  { a with
    launcherIconPackageList :=
      a.launcherIconPackageList.modify row fun item => { item with enable := isChecked }
    enableList := onListener a.enableList isChecked pKgName }

/-- The user moves the switch of a row. -/
def toggle (a : AppListActivity) (row : ℕ) : Option AppListActivity :=
  a.launcherIconPackageList[row]?.map fun item =>
    a.onCheckedChanged row (!item.enable) item.packageName

/-- The menu item `ok` saves the list. -/
def onMenuItemClick (a : AppListActivity) (s : SetModule) : SetModule :=
  MmkvManager.encodeApplicationList s a.enableList a.type

/-- The package has a row. -/
def HasRow (a : AppListActivity) (name : String) : Prop :=
  ∃ item ∈ a.launcherIconPackageList, item.packageName = name

/-- One of the rows of the package is switched on. -/
def SwitchedOn (a : AppListActivity) (name : String) : Prop :=
  ∃ item ∈ a.launcherIconPackageList, item.packageName = name ∧ item.enable = true

instance (a : AppListActivity) (name : String) : Decidable (a.HasRow name) := by
  unfold HasRow
  infer_instance

instance (a : AppListActivity) (name : String) : Decidable (a.SwitchedOn name) := by
  unfold SwitchedOn
  infer_instance

end AppListActivity

/-- The screen and the saved list agree: a package with a row is chosen exactly when a row
of it is on, no package is chosen twice, saved packages without a row are kept, and the
screen reopened after OK shows the rows as they are. -/
structure AppListActivity.Agrees (packageName : String) (resolveInfos : List String)
    (s : SetModule) (saved : List String) (a : AppListActivity) : Prop where
  chosen : ∀ item ∈ a.launcherIconPackageList,
    item.packageName ∈ a.enableList ↔ a.SwitchedOn item.packageName
  nodup : a.enableList.Nodup
  kept : ∀ name ∈ saved, ¬a.HasRow name → name ∈ a.enableList
  reopened : ∀ item ∈ (onCreate packageName resolveInfos (a.onMenuItemClick s)
      a.type).launcherIconPackageList, item.enable = true ↔ a.SwitchedOn item.packageName

/-- No other row of the package is on. -/
def AppListActivity.OthersOff (a : AppListActivity) (row : ℕ) : Prop :=
  ∀ item ∈ a.launcherIconPackageList[row]?, ∀ other ∈ a.launcherIconPackageList.eraseIdx row,
    other.packageName = item.packageName → other.enable = false

instance (a : AppListActivity) (row : ℕ) : Decidable (a.OthersOff row) := by
  unfold AppListActivity.OthersOff
  infer_instance

/-! ## What a switch changes -/

section Modify

variable {α : Type*} {l : List α} {i : ℕ} {x : α}

/-- The elements of a list are one of them and the rest. -/
theorem mem_iff_of_getElem? (h : l[i]? = some x) (y : α) : y ∈ l ↔ y = x ∨ y ∈ l.eraseIdx i := by
  obtain ⟨hlt, rfl⟩ := List.getElem?_eq_some_iff.mp h
  rw [← (List.getElem_cons_eraseIdx_perm hlt).mem_iff, List.mem_cons]

/-- Changing one element leaves the rest. -/
theorem mem_modify_iff (h : l[i]? = some x) (f : α → α) (y : α) :
    y ∈ l.modify i f ↔ y = f x ∨ y ∈ l.eraseIdx i := by
  have hmodify : (l.modify i f)[i]? = some (f x) := by simp [h]
  rw [mem_iff_of_getElem? hmodify, List.eraseIdx_modify_of_eq]

end Modify

namespace AppListActivity

variable {a t : AppListActivity} {row : ℕ} {item : AppInfo}

/-- Only a shown row can be toggled, and its switch then calls the listener. -/
theorem toggle_eq_some :
    a.toggle row = some t ↔ ∃ item, a.launcherIconPackageList[row]? = some item ∧
      t = a.onCheckedChanged row (!item.enable) item.packageName := by
  simp only [toggle, Option.map_eq_some_iff, @eq_comm _ t]

/-- A switched-on row of a package is the moved one or another. -/
theorem switchedOn_iff (hitem : a.launcherIconPackageList[row]? = some item) (name : String) :
    a.SwitchedOn name ↔ (item.packageName = name ∧ item.enable = true) ∨
      ∃ other ∈ a.launcherIconPackageList.eraseIdx row,
        other.packageName = name ∧ other.enable = true := by
  simp [SwitchedOn, mem_iff_of_getElem? hitem, or_and_right, exists_or]

/-- After a toggle a name is switched on by that row or by one of the others. -/
theorem switchedOn_onCheckedChanged (hitem : a.launcherIconPackageList[row]? = some item)
    (isChecked : Bool) (pKgName name : String) :
    (a.onCheckedChanged row isChecked pKgName).SwitchedOn name ↔
      (item.packageName = name ∧ isChecked = true) ∨
      ∃ other ∈ a.launcherIconPackageList.eraseIdx row,
        other.packageName = name ∧ other.enable = true := by
  simp [SwitchedOn, onCheckedChanged, mem_modify_iff hitem, or_and_right, exists_or]

/-- The packages of the rows stay as they are. -/
theorem names_onCheckedChanged (a : AppListActivity) (row : ℕ) (isChecked : Bool)
    (pKgName : String) :
    (a.onCheckedChanged row isChecked pKgName).launcherIconPackageList.map AppInfo.packageName =
      a.launcherIconPackageList.map AppInfo.packageName := by
  apply List.ext_getElem?
  intro i
  simp only [onCheckedChanged, List.getElem?_map, List.getElem?_modify]
  cases a.launcherIconPackageList[i]? with
  | none => rfl
  | some item => by_cases h : row = i <;> simp [h]

/-- The rows are those of the launcher activities of other packages. -/
def RowsOf (packageName : String) (resolveInfos : List String) (a : AppListActivity) : Prop :=
  a.launcherIconPackageList.map AppInfo.packageName = resolveInfos.filter (· ≠ packageName)

/-- A new screen shows one row for each launcher icon of another app. -/
theorem rowsOf_onCreate (packageName : String) (resolveInfos : List String) (s : SetModule)
    (type : ℤ) : (onCreate packageName resolveInfos s type).RowsOf packageName resolveInfos := by
  simp [RowsOf, onCreate, getAllLauncherIconPackages, Function.comp_def]

section Agrees

variable {packageName : String} {resolveInfos saved : List String} {s : SetModule}

/-- A name has a row exactly if it has a launcher icon and is not the app itself. -/
theorem RowsOf.hasRow_iff (h : a.RowsOf packageName resolveInfos) (name : String) :
    a.HasRow name ↔ name ∈ resolveInfos ∧ name ≠ packageName := by
  have hmem : name ∈ a.launcherIconPackageList.map AppInfo.packageName ↔ a.HasRow name := by
    simp [HasRow]
  rw [← hmem, h]
  simp

/-- The rows after reopening are on for the packages chosen. -/
theorem mem_reopened {a : AppListActivity} (hitem : item ∈ (onCreate packageName resolveInfos
      (a.onMenuItemClick s) a.type).launcherIconPackageList) :
    (item.packageName ∈ resolveInfos ∧ item.packageName ≠ packageName) ∧
      (item.enable = true ↔ item.packageName ∈ a.enableList) := by
  simp only [onCreate, onMenuItemClick, MmkvManager.decodeApplicationList_encode,
    getAllLauncherIconPackages, List.mem_map, List.mem_filter, decide_eq_true_eq] at hitem
  obtain ⟨name, hname, rfl⟩ := hitem
  exact ⟨hname, by simp⟩

/-- The reopened screen shows what was chosen, so it agrees with the rows as they were. -/
theorem agrees_iff (hrows : a.RowsOf packageName resolveInfos) :
    a.Agrees packageName resolveInfos s saved ↔
      (∀ name, a.HasRow name → (name ∈ a.enableList ↔ a.SwitchedOn name)) ∧
        a.enableList.Nodup ∧ ∀ name ∈ saved, ¬a.HasRow name → name ∈ a.enableList := by
  constructor
  · intro h
    refine ⟨?_, h.nodup, h.kept⟩
    rintro _ ⟨item, hitem, rfl⟩
    exact h.chosen item hitem
  · rintro ⟨hchosen, hnodup, hkept⟩
    refine ⟨fun item hitem => hchosen _ ⟨item, hitem, rfl⟩, hnodup, hkept, fun item hitem => ?_⟩
    obtain ⟨hrow, henable⟩ := mem_reopened hitem
    rw [henable, hchosen _ ((hrows.hasRow_iff _).mpr hrow)]

/-- Toggling keeps the names on the screen. -/
theorem hasRow_onCheckedChanged (a : AppListActivity) (row : ℕ) (isChecked : Bool)
    (pKgName name : String) :
    (a.onCheckedChanged row isChecked pKgName).HasRow name ↔ a.HasRow name := by
  have hmem : ∀ a : AppListActivity,
      a.HasRow name ↔ name ∈ a.launcherIconPackageList.map AppInfo.packageName := by simp [HasRow]
  rw [hmem, hmem, names_onCheckedChanged]

/-- A toggle keeps the rows, up to their switches. -/
theorem RowsOf.toggle (h : a.RowsOf packageName resolveInfos) (htoggle : a.toggle row = some t) :
    t.RowsOf packageName resolveInfos := by
  obtain ⟨item, _, rfl⟩ := toggle_eq_some.mp htoggle
  rw [RowsOf, names_onCheckedChanged]
  exact h

/-- With the other rows of its package off, a switch moved in a screen that agrees leaves
one that agrees. -/
theorem Agrees.toggle (hrows : a.RowsOf packageName resolveInfos)
    (h : a.Agrees packageName resolveInfos s saved) (hothers : a.OthersOff row)
    (htoggle : a.toggle row = some t) : t.Agrees packageName resolveInfos s saved := by
  obtain ⟨hchosen, hnodup, hkept⟩ := (agrees_iff hrows).mp h
  refine (agrees_iff (hrows.toggle htoggle)).mpr ?_
  obtain ⟨item, hitem, rfl⟩ := toggle_eq_some.mp htoggle
  have hrow : a.HasRow item.packageName := ⟨item, List.mem_of_getElem? hitem, rfl⟩
  have hnone : ¬∃ other ∈ a.launcherIconPackageList.eraseIdx row,
      other.packageName = item.packageName ∧ other.enable = true := by
    rintro ⟨other, hother, hname, hon⟩
    simp [hothers item hitem other hother hname] at hon
  simp only [switchedOn_iff hitem] at hchosen
  simp only [hasRow_onCheckedChanged, switchedOn_onCheckedChanged hitem]
  have hitem_mem := hchosen _ hrow
  simp only [hnone, or_false, true_and] at hitem_mem
  cases hon : item.enable with
  | false =>
    have hnot : item.packageName ∉ a.enableList := by simp [hitem_mem, hon]
    simp only [onCheckedChanged, onListener, Bool.not_false, if_true, List.mem_append,
      List.mem_singleton]
    refine ⟨fun name hname => ?_, ?_, fun name hsaved hno => Or.inl (hkept name hsaved hno)⟩
    · simp only [hchosen name hname, hon, Bool.false_eq_true, and_false, false_or, and_true]
      rw [or_comm, eq_comm]
    · rw [(List.perm_append_singleton item.packageName a.enableList).nodup_iff, List.nodup_cons]
      exact ⟨hnot, hnodup⟩
  | true =>
    simp only [onCheckedChanged, onListener, Bool.not_true, hnodup.mem_erase_iff,
      Bool.false_eq_true, if_false, and_false, false_or]
    refine ⟨fun name hname => ?_, hnodup.erase _, fun name hsaved hno => ?_⟩
    · rw [hchosen name hname]
      by_cases heq : name = item.packageName
      · simpa [heq] using hnone
      · simp [heq, Ne.symm heq]
    · exact ⟨fun heq => hno (heq ▸ hrow), hkept name hsaved hno⟩

/-- With another row of its package on, a moved switch leaves the package chosen twice or
not at all. -/
theorem Agrees.not_toggle (hrows : a.RowsOf packageName resolveInfos)
    (h : a.Agrees packageName resolveInfos s saved) (hothers : ¬a.OthersOff row)
    (htoggle : a.toggle row = some t) : ¬t.Agrees packageName resolveInfos s saved := by
  intro ht
  obtain ⟨hchosen, hnodup, _⟩ := (agrees_iff hrows).mp h
  obtain ⟨hchosen', hnodup', _⟩ := (agrees_iff (hrows.toggle htoggle)).mp ht
  obtain ⟨item, hitem, rfl⟩ := toggle_eq_some.mp htoggle
  have hrow : a.HasRow item.packageName := ⟨item, List.mem_of_getElem? hitem, rfl⟩
  have hon : ∃ other ∈ a.launcherIconPackageList.eraseIdx row,
      other.packageName = item.packageName ∧ other.enable = true := by
    simpa [OthersOff, hitem] using hothers
  have hmem : item.packageName ∈ a.enableList :=
    (hchosen _ hrow).mpr ((switchedOn_iff hitem _).mpr (Or.inr hon))
  have hmem' := (hchosen' _ ((hasRow_onCheckedChanged ..).mpr hrow)).mpr
    ((switchedOn_onCheckedChanged hitem ..).mpr (Or.inr hon))
  cases henable : item.enable with
  | false =>
    simp only [onCheckedChanged, onListener, henable, Bool.not_false, if_true] at hnodup'
    rw [List.nodup_append] at hnodup'
    exact hnodup'.2.2 _ hmem _ (List.mem_singleton_self _) rfl
  | true =>
    simp [onCheckedChanged, onListener, henable, hnodup.mem_erase_iff] at hmem'

/-- A new screen agrees with the saved list. -/
theorem agrees_onCreate (packageName : String) (resolveInfos : List String) (s : SetModule)
    (type : ℤ) (hnodup : (MmkvManager.decodeApplicationList s type).Nodup) :
    (onCreate packageName resolveInfos s type).Agrees packageName resolveInfos s
      (MmkvManager.decodeApplicationList s type) := by
  refine (agrees_iff (rowsOf_onCreate packageName resolveInfos s type)).mpr
    ⟨fun name hname => ?_, hnodup, fun name hsaved _ => hsaved⟩
  obtain ⟨hresolve, hne⟩ := ((rowsOf_onCreate packageName resolveInfos s type).hasRow_iff name).mp
    hname
  simp [SwitchedOn, onCreate, getAllLauncherIconPackages, hresolve, hne]

/-- The screen agrees with the saved list at every moment exactly when no switch is ever
moved while another row of its package is on. -/
theorem always_agrees_iff {type : ℤ} {toggles : List ℕ}
    (hnodup : (MmkvManager.decodeApplicationList s type).Nodup)
    (hrun : run toggle (onCreate packageName resolveInfos s type) toggles = some t) :
    Always toggle
        (Agrees packageName resolveInfos s (MmkvManager.decodeApplicationList s type))
        (onCreate packageName resolveInfos s type) toggles ↔
      Meets toggle OthersOff (onCreate packageName resolveInfos s type) toggles := by
  refine always_iff_meets (I := fun a => a.RowsOf packageName resolveInfos ∧
    a.Agrees packageName resolveInfos s (MmkvManager.decodeApplicationList s type))
    (fun a ha => ha.2) ?_ ?_ ⟨rowsOf_onCreate .., agrees_onCreate packageName _ s type hnodup⟩ hrun
  · rintro a row t ⟨hrows, ha⟩ hothers htoggle
    exact ⟨hrows.toggle htoggle, ha.toggle hrows hothers htoggle⟩
  · rintro a row t ⟨hrows, ha⟩ hothers htoggle
    exact ha.not_toggle hrows hothers htoggle

/-- One launcher activity has no other row to disagree with: when no other package than
the own one has two, every sequence of switches is fine. -/
theorem meets_othersOff_of_nodup (h : (resolveInfos.filter (· ≠ packageName)).Nodup) (type : ℤ)
    (toggles : List ℕ) :
    Meets toggle OthersOff (onCreate packageName resolveInfos s type) toggles := by
  refine meets_of_invariant (I := RowsOf packageName resolveInfos)
    (fun a row t ha => ha.toggle) ?_ (rowsOf_onCreate packageName resolveInfos s type) toggles
  intro a row hrows item hitem other hother hname
  obtain ⟨hlt, rfl⟩ := List.getElem?_eq_some_iff.mp hitem
  have hperm := (List.getElem_cons_eraseIdx_perm hlt).map AppInfo.packageName
  rw [← hrows, ← hperm.nodup_iff, List.map_cons, List.nodup_cons] at h
  exact absurd (List.mem_map.mpr ⟨other, hother, hname⟩) h.1

end Agrees

/-- The storage after one package has been chosen among the allowed ones. -/
def oneAllowed : SetModule := MmkvManager.encodeApplicationList .empty ["browser"] 1

/-- Switching one row of a browser on and a row of a chat program off. -/
theorem always_agrees_oneRowEach :
    Always toggle (Agrees "vcn" ["vcn", "chat", "browser"] oneAllowed ["browser"])
      (onCreate "vcn" ["vcn", "chat", "browser"] oneAllowed 1) [0, 1] :=
  (@always_agrees_iff _ _ _ oneAllowed 1 _ (by decide) rfl).mpr (by decide)

/-- Of two rows of a chosen package one is switched off. -/
theorem not_always_agrees_twoRows :
    ¬Always toggle (Agrees "vcn" ["browser", "browser"] oneAllowed ["browser"])
      (onCreate "vcn" ["browser", "browser"] oneAllowed 1) [0] := by
  intro h
  have hchosen := (h.2 _ rfl).chosen ⟨"browser", true⟩ (by decide)
  exact absurd (hchosen.mpr (by decide)) (by decide)

end AppListActivity

end HeptaVcn
