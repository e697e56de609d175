import Mathlib.Data.Int.Notation
import Mathlib.Data.List.Infix
import Mathlib.Logic.Function.Basic
import HeptaVcn.Machine.Handler

/-!
# The server store, `MmkvManager.kt`

The list of servers, the selected server and the configurations live under three
keys in MMKV storages, each write being a `encode` or a `remove` of its own. A value
stored as JSON is kept as what its text decodes to; such a text is never blank.
-/

namespace HeptaVcn

open Machine

/-- `Char.isWhitespace` of Kotlin. -/
def isWhitespace (c : Char) : Bool :=
  let n := c.toNat
  (0x09 ≤ n && n ≤ 0x0d) || (0x1c ≤ n && n ≤ 0x20) || n = 0xa0 || n = 0x1680 ||
    (0x2000 ≤ n && n ≤ 0x200a) || n = 0x2028 || n = 0x2029 || n = 0x202f || n = 0x205f || n = 0x3000

/-- `CharSequence.isBlank` -/
def isBlank (s : String) : Bool := s.toList.all isWhitespace

/-- `CharSequence?.isNullOrBlank` -/
def isNullOrBlank (s : Option String) : Bool := s.all isBlank

/-- `ServerConfig.kt` -/
structure ServerConfig where
  remarks : String
  ipaddr : String
  port : ℤ
  netType : ℤ
  filterType : ℤ
  deriving DecidableEq, Repr

/-- `ServerConfig.create` -/
def ServerConfig.create : ServerConfig := ⟨"", "", -1, -1, -1⟩

/-- The contents of the storages `MAIN`, `SERVER_CONFIG` and `SERVER_AFF`. -/
structure Store where
  /-- The list under `ANG_CONFIGS`. -/
  angConfigs : Option (List String)
  /-- The guid under `SELECTED_SERVER`. -/
  selectedServer : Option String
  serverConfig : String → Option ServerConfig
  serverAff : String → Option String

/-- A store to which nothing has been written. -/
def Store.empty : Store := ⟨none, none, fun _ => none, fun _ => none⟩

/-- The single reads and writes of the storages. -/
inductive MmkvOp where
  | decodeAngConfigs
  | encodeAngConfigs (serverList : List String)
  | decodeSelectedServer
  | encodeSelectedServer (guid : String)
  | removeSelectedServer
  | decodeConfig (guid : String)
  | encodeConfig (guid : String) (config : ServerConfig)
  | removeConfig (guid : String)
  | removeAff (guid : String)

/-- What each operation returns; the results of writes are ignored. -/
abbrev MmkvOp.Reply : MmkvOp → Type
  | .decodeAngConfigs => Option (List String)
  | .decodeSelectedServer => Option String
  | .decodeConfig _ => Option ServerConfig
  | _ => Unit

/-- The interface of the storages. -/
abbrev Mmkv : Interface := ⟨MmkvOp, MmkvOp.Reply⟩

/-- Perform one operation. -/
def mmkv (op : MmkvOp) : Program Mmkv op.Reply := Program.perform (E := Mmkv) op

/-- Performing an operation is a program of one call. -/
@[simp] theorem mmkv_eq (op : MmkvOp) : mmkv op = Program.call (E := Mmkv) op .done := rfl

/-- What an operation returns. -/
def Store.reply (s : Store) : (op : MmkvOp) → op.Reply
  | .decodeAngConfigs => s.angConfigs
  | .decodeSelectedServer => s.selectedServer
  | .decodeConfig guid => s.serverConfig guid
  | .encodeAngConfigs _ | .encodeSelectedServer _ | .removeSelectedServer | .encodeConfig ..
  | .removeConfig _ | .removeAff _ => ()

/-- What an operation writes. -/
def Store.after (s : Store) : MmkvOp → Store
  | .decodeAngConfigs | .decodeSelectedServer | .decodeConfig _ => s
  | .encodeAngConfigs serverList => { s with angConfigs := some serverList }
  | .encodeSelectedServer guid => { s with selectedServer := some guid }
  | .removeSelectedServer => { s with selectedServer := none }
  | .encodeConfig guid config =>
    { s with serverConfig := Function.update s.serverConfig guid (some config) }
  | .removeConfig guid => { s with serverConfig := Function.update s.serverConfig guid none }
  | .removeAff guid => { s with serverAff := Function.update s.serverAff guid none }

/-- The storages as a handler: every write is atomic and durable. -/
def storages : Handler Mmkv Store := ⟨Store.reply, Store.after⟩

namespace MmkvManager

/-- `decodeServerList` -/
def decodeServerList : Program Mmkv (List String) := do
  let json ← mmkv .decodeAngConfigs
  pure (json.getD [])

/-- `decodeServerConfig` -/
def decodeServerConfig (guid : String) : Program Mmkv (Option ServerConfig) :=
  if isBlank guid then pure none else mmkv (.decodeConfig guid)

/-- `encodeServerConfig`; `uuid` is what `getUuid` returns if it is asked. -/
def encodeServerConfig (uuid guid : String) (config : ServerConfig) : Program Mmkv String := do
  let key := if isBlank guid then uuid else guid
  mmkv (.encodeConfig key config)
  let serverList ← decodeServerList
  if key ∉ serverList then
    mmkv (.encodeAngConfigs (key :: serverList))
    if isNullOrBlank (← mmkv .decodeSelectedServer) then
      mmkv (.encodeSelectedServer key)
  pure key

/-- `removeServer` -/
def removeServer (guid : String) : Program Mmkv Unit := do
  if isBlank guid then
    pure ()
  else
    if (← mmkv .decodeSelectedServer) = some guid then
      mmkv .removeSelectedServer
    let serverList ← decodeServerList
    mmkv (.encodeAngConfigs (serverList.erase guid))
    mmkv (.removeConfig guid)
    mmkv (.removeAff guid)

end MmkvManager

/-! ## What the functions do to a store -/

namespace Store

/-- The server list as `decodeServerList` reads it. -/
def serverList (s : Store) : List String := s.angConfigs.getD []

/-- The configuration of a guid as `decodeServerConfig` reads it. -/
def config (s : Store) (guid : String) : Option ServerConfig :=
  if isBlank guid then none else s.serverConfig guid

/-- A configuration is stored under its key, and a new key heads the list and becomes
the selected one if there is none. -/
def put (s : Store) (key : String) (config : ServerConfig) : Store :=
  let stored := { s with serverConfig := Function.update s.serverConfig key (some config) }
  if key ∈ s.serverList then
    stored
  else
    { stored with
      angConfigs := some (key :: s.serverList)
      selectedServer := if isNullOrBlank s.selectedServer then some key else s.selectedServer }

/-- Everything stored about a guid is dropped. -/
def erase (s : Store) (guid : String) : Store where
  angConfigs := some (s.serverList.erase guid)
  selectedServer := if s.selectedServer = some guid then none else s.selectedServer
  serverConfig := Function.update s.serverConfig guid none
  serverAff := Function.update s.serverAff guid none

/-- Erasing a server leaves the configurations of the others alone. -/
theorem config_erase_of_ne {s : Store} {guid other : String} (hne : other ≠ guid) :
    (s.erase guid).config other = s.config other := by
  simp [config, erase, hne]

end Store

namespace MmkvManager

/-- Reading the server list leaves the store as it is. -/
@[simp] theorem exec_decodeServerList (s : Store) :
    decodeServerList.exec storages s = (s.serverList, s) := rfl

/-- Reading a configuration leaves the store as it is. -/
@[simp] theorem exec_decodeServerConfig (guid : String) (s : Store) :
    (decodeServerConfig guid).exec storages s = (s.config guid, s) := by
  rw [decodeServerConfig, Store.config]
  split <;> rfl

/-- Whatever `encodeServerConfig` does to the store is a `put`. -/
theorem exec_encodeServerConfig (uuid guid : String) (config : ServerConfig) (s : Store) :
    (encodeServerConfig uuid guid config).exec storages s =
      (if isBlank guid then uuid else guid,
        s.put (if isBlank guid then uuid else guid) config) := by
  simp only [encodeServerConfig, mmkv_eq, Program.bind_eq, Program.pure_eq, Program.call_bind,
    Program.done_bind, Program.exec_call, Program.exec_bind, exec_decodeServerList]
  generalize (if isBlank guid then uuid else guid) = key
  have hlist : (storages.after s (.encodeConfig key config)).serverList = s.serverList := rfl
  by_cases hmem : key ∈ s.serverList
  · simp only [hlist, hmem, not_true_eq_false, if_false, Program.exec_done, Store.put, if_true]
    rfl
  · simp only [hlist, hmem, not_false_eq_true, if_true, Program.exec_call, Store.put, if_false]
    change Program.exec storages (if isNullOrBlank s.selectedServer then _ else _) _ = _
    by_cases hselected : isNullOrBlank s.selectedServer
    · rw [if_pos hselected, if_pos hselected]
      rfl
    · rw [if_neg hselected, if_neg hselected]
      rfl

/-- Whatever `removeServer` does to the store is an `erase`. -/
theorem exec_removeServer (guid : String) (s : Store) :
    (removeServer guid).exec storages s = ((), if isBlank guid then s else s.erase guid) := by
  rw [removeServer]
  split
  · rfl
  · simp only [mmkv_eq, Program.bind_eq, Program.call_bind, Program.done_bind, Program.exec_call]
    change Program.exec storages (if s.selectedServer = some guid then _ else _) _ = _
    rw [Store.erase]
    by_cases hselected : s.selectedServer = some guid
    · rw [if_pos hselected, if_pos hselected]
      rfl
    · rw [if_neg hselected, if_neg hselected]
      rfl

end MmkvManager

end HeptaVcn
