import HeptaVcn.App.Screens
import HeptaVcn.Machine.Run

/-!
# Crash safety of the server store

The process may be killed between any two writes, and what runs next finds whatever
the last kill left. The order of the writes is what keeps the store consistent: a
configuration is stored before its guid is listed and dropped after, and a guid is
selected only while it is listed.
-/

namespace HeptaVcn

open Machine

/-- Every listed guid has a configuration, none is listed twice, and the selected guid,
if there is one, is listed. -/
structure Store.Consistent (s : Store) : Prop where
  configured : ∀ guid ∈ s.serverList, (s.serverConfig guid).isSome
  nodup : s.serverList.Nodup
  selected : ∀ guid, s.selectedServer = some guid → guid ∈ s.serverList

/-- The calls that change the store. -/
inductive StoreCall where
  | encodeServerConfig (uuid guid : String) (config : ServerConfig)
  | removeServer (guid : String)
  | selectServer (vm : MainViewModel) (guid : String)

namespace StoreCall

/-- The program of a call. -/
def program : StoreCall → Program Mmkv Unit
  | .encodeServerConfig uuid guid config => do
    let _ ← MmkvManager.encodeServerConfig uuid guid config
  | .removeServer guid => MmkvManager.removeServer guid
  | .selectServer vm guid => do
    let _ ← MainRecyclerAdapter.selectServer vm guid

/-- A generated guid is not blank, and only a listed guid is selected. -/
def enabled (s : Store) : StoreCall → Bool
  | .encodeServerConfig uuid _ _ => !isBlank uuid
  | .removeServer _ => true
  | .selectServer _ guid => guid ∈ s.serverList

end StoreCall

namespace Store

/-- A call is made and killed after the given number of operations, if it gets that far. -/
def step (s : Store) : StoreCall × ℕ → Option Store
  | (c, n) => if c.enabled s then some (c.program.killed storages n s) else none

variable {s t : Store}

/-- Storing a configuration keeps the store consistent. -/
theorem Consistent.configure (hs : s.Consistent) (guid : String) (config : ServerConfig) :
    (s.after (.encodeConfig guid config)).Consistent where
  configured guid' hmem := by
    by_cases h : guid' = guid
    · subst h
      simp [after]
    · simpa [after, Function.update_of_ne h] using hs.configured guid' hmem
  nodup := hs.nodup
  selected := hs.selected

/-- A new guid may be listed once it has a configuration. -/
theorem Consistent.list (hs : s.Consistent) {guid : String} (hnew : guid ∉ s.serverList)
    (hconfig : (s.serverConfig guid).isSome) :
    (s.after (.encodeAngConfigs (guid :: s.serverList))).Consistent where
  configured guid' hmem := by
    rcases List.mem_cons.mp hmem with rfl | hmem
    · exact hconfig
    · exact hs.configured guid' hmem
  nodup := List.nodup_cons.mpr ⟨hnew, hs.nodup⟩
  selected guid' h := List.mem_cons_of_mem _ (hs.selected guid' h)

/-- A listed guid may be selected. -/
theorem Consistent.select (hs : s.Consistent) {guid : String} (hmem : guid ∈ s.serverList) :
    (s.after (.encodeSelectedServer guid)).Consistent where
  configured := hs.configured
  nodup := hs.nodup
  selected guid' h := by rwa [← Option.some.inj h]

/-- The selection may be dropped at any time. -/
theorem Consistent.unselect (hs : s.Consistent) : (s.after .removeSelectedServer).Consistent where
  configured := hs.configured
  nodup := hs.nodup
  selected _ h := nomatch h

/-- A guid that is not selected may leave the list. -/
theorem Consistent.unlist (hs : s.Consistent) {guid : String}
    (hselected : s.selectedServer ≠ some guid) :
    (s.after (.encodeAngConfigs (s.serverList.erase guid))).Consistent where
  configured guid' hmem := hs.configured guid' (List.mem_of_mem_erase hmem)
  nodup := hs.nodup.erase guid
  selected guid' h := by
    have hne : guid' ≠ guid := fun heq => hselected (heq ▸ h)
    exact (List.mem_erase_of_ne hne).mpr (hs.selected guid' h)

/-- The configuration of a guid that is not listed may be removed. -/
theorem Consistent.unconfigure (hs : s.Consistent) {guid : String}
    (hunlisted : guid ∉ s.serverList) :
    (s.after (.removeConfig guid)).Consistent where
  configured guid' hmem := by
    have hne : guid' ≠ guid := fun heq => hunlisted (heq ▸ hmem)
    simpa [after, Function.update_of_ne hne] using hs.configured guid' hmem
  nodup := hs.nodup
  selected := hs.selected

/-- `encodeServerConfig` keeps the store consistent at each of its writes. -/
theorem Consistent.throughout_encodeServerConfig (hs : s.Consistent) (uuid guid : String)
    (config : ServerConfig) :
    (MmkvManager.encodeServerConfig uuid guid config).Throughout storages Consistent s := by
  simp only [MmkvManager.encodeServerConfig, mmkv_eq, Program.bind_eq, Program.pure_eq,
    Program.call_bind, Program.done_bind, Program.throughout_call, Program.throughout_bind]
  generalize (if isBlank guid then uuid else guid) = key
  have hconfigured := hs.configure key config
  refine ⟨hs, ⟨hconfigured, hconfigured⟩, ?_⟩
  change Program.Throughout storages Consistent (if key ∉ s.serverList then _ else _)
    (s.after (.encodeConfig key config))
  split
  case isFalse => exact hconfigured
  case isTrue hnew =>
    have hstored : ((s.after (.encodeConfig key config)).serverConfig key).isSome := by
      simp [after]
    have hlisted := hconfigured.list hnew hstored
    refine ⟨hconfigured, hlisted, ?_⟩
    change Program.Throughout storages Consistent (if isNullOrBlank s.selectedServer then _ else _)
      (Store.after _ (.encodeAngConfigs (key :: s.serverList)))
    split
    · exact ⟨hlisted, hlisted.select List.mem_cons_self⟩
    · exact hlisted

/-- Consistency says nothing of what is stored beside the configurations. -/
theorem Consistent.dropAff (hs : s.Consistent) (guid : String) :
    (s.after (.removeAff guid)).Consistent := ⟨hs.configured, hs.nodup, hs.selected⟩

/-- `removeServer` keeps the store consistent at each of its writes. -/
theorem Consistent.throughout_removeServer (hs : s.Consistent) (guid : String) :
    (MmkvManager.removeServer guid).Throughout storages Consistent s := by
  rw [MmkvManager.removeServer]
  split
  case isTrue => exact hs
  case isFalse =>
    -- all that follows the removal of the selection, which is gone or another one
    have hdrop (t : Store) (ht : t.Consistent) (hselected : t.selectedServer ≠ some guid) :
        Program.Throughout storages Consistent (do
          let serverList ← MmkvManager.decodeServerList
          mmkv (.encodeAngConfigs (serverList.erase guid))
          mmkv (.removeConfig guid)
          mmkv (.removeAff guid)) t := by
      have hunlisted := ht.unlist hselected
      have habsent : guid ∉ t.serverList.erase guid := fun hmem =>
        (ht.nodup.mem_erase_iff.mp hmem).1 rfl
      have hunconfigured := hunlisted.unconfigure habsent
      exact ⟨ht, ht, hunlisted, hunconfigured, hunconfigured.dropAff guid⟩
    simp only [mmkv_eq, Program.bind_eq, Program.call_bind, Program.done_bind,
      Program.throughout_call]
    refine ⟨hs, ?_⟩
    change Program.Throughout storages Consistent (if s.selectedServer = some guid then _ else _) s
    split
    case isTrue => exact ⟨hs, hdrop _ hs.unselect (Option.some_ne_none guid).symm⟩
    case isFalse hselected => exact hdrop s hs hselected

/-- Selecting a listed server is consistent at each of its writes. -/
theorem Consistent.throughout_selectServer (hs : s.Consistent) (vm : MainViewModel) {guid : String}
    (hmem : guid ∈ s.serverList) :
    (MainRecyclerAdapter.selectServer vm guid).Throughout storages Consistent s := by
  refine ⟨hs, ?_⟩
  change Program.Throughout storages Consistent (if s.selectedServer = some guid then _ else _) s
  split
  · exact hs
  · exact ⟨hs, hs.select hmem⟩

/-- A call keeps the store consistent at each of its writes. -/
theorem Consistent.throughout_program (hs : s.Consistent) {c : StoreCall} (henabled : c.enabled s) :
    c.program.Throughout storages Consistent s := by
  cases c with
  | encodeServerConfig uuid guid config =>
    have h := hs.throughout_encodeServerConfig uuid guid config
    exact (Program.throughout_bind _ _ _).mpr ⟨h, h.exec⟩
  | removeServer guid => exact hs.throughout_removeServer guid
  | selectServer vm guid =>
    have h := hs.throughout_selectServer vm (of_decide_eq_true henabled)
    exact (Program.throughout_bind _ _ _).mpr ⟨h, h.exec⟩

/-- The empty store is consistent. -/
theorem empty_consistent : Store.empty.Consistent :=
  ⟨fun _ h => (nomatch h), List.nodup_nil, fun _ h => (nomatch h)⟩

/-- The store is consistent in every state reached from an empty one by calls each of
which may be killed between any two of its operations. -/
theorem consistent_of_killed {tr : List (StoreCall × ℕ)} (hrun : run step Store.empty tr = some s) :
    s.Consistent := by
  refine invariant (I := Consistent) ?_ empty_consistent hrun
  rintro s ⟨c, n⟩ t hs hstep
  simp only [step, Option.ite_none_right_eq_some, Option.some.injEq] at hstep
  obtain ⟨henabled, rfl⟩ := hstep
  exact (hs.throughout_program henabled).killed n

/-- A server is added, adding a second one is killed once its configuration is stored,
and removing the first one once the selection is dropped. -/
def interrupted : List (StoreCall × ℕ) :=
  [(.encodeServerConfig "a" "" ServerConfig.create, 5),
    (.encodeServerConfig "b" "" ServerConfig.create, 1), (.removeServer "a", 2)]

/-- An instance: two calls are killed between their writes. -/
theorem consistent_interrupted : ∃ s, run step Store.empty interrupted = some s ∧
    s.serverList = ["a"] ∧ s.selectedServer = none ∧ s.Consistent :=
  ⟨_, rfl, rfl, rfl, consistent_of_killed (show run step Store.empty interrupted = some _ from rfl)⟩

end Store

end HeptaVcn
