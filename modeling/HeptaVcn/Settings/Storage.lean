import HeptaVcn.App.MmkvManager

/-!
# The settings storage of `MmkvManager.kt`

The storage `MODULE` keeps how applications are chosen, the two lists of applications
and the parameters of the interface. A key that was never written has a default.
-/

namespace HeptaVcn

/-- The contents of the storage `MODULE`; a list is kept as what its JSON decodes to. -/
structure SetModule where
  type : Option ℤ
  keyAppAddAllowList : Option (List String)
  keyAppAddDisAllowList : Option (List String)
  address : Option String
  netmask : Option String
  mtu : Option ℤ

/-- A storage to which nothing has been written. -/
def SetModule.empty : SetModule := ⟨none, none, none, none, none, none⟩

namespace MmkvManager

def keyAppAllwoNone : ℤ := 0
def keyAppAddAllow : ℤ := 1
def keyAppAddDisAllow : ℤ := 2

/-- `decodeApplicationList` -/
def decodeApplicationList (s : SetModule) (type : ℤ) : List String :=
  let json := if type = keyAppAddAllow then s.keyAppAddAllowList else s.keyAppAddDisAllowList
  json.getD []

/-- `encodeApplicationList` -/
def encodeApplicationList (s : SetModule) (list : List String) (type : ℤ) : SetModule :=
  if type = keyAppAddAllow then { s with keyAppAddAllowList := some list }
  else { s with keyAppAddDisAllowList := some list }

def getAllowType (s : SetModule) : ℤ := s.type.getD 0

def setAllowType (s : SetModule) (type : ℤ) : SetModule := { s with type := some type }

def getAddress (s : SetModule) : String := s.address.getD "10.0.0.2"

def setAddress (s : SetModule) (address : String) : SetModule := { s with address := some address }

/-- `getnetMask` -/
def getNetMask (s : SetModule) : String := s.netmask.getD "255.255.255.252"

/-- `setnetMask` -/
def setNetMask (s : SetModule) (address : String) : SetModule := { s with netmask := some address }

def getMtu (s : SetModule) : ℤ := s.mtu.getD 1400

def setMtu (s : SetModule) (mtu : ℤ) : SetModule := { s with mtu := some mtu }

/-- A saved list is read back as it was saved. -/
@[simp] theorem decodeApplicationList_encode (s : SetModule) (list : List String) (type : ℤ) :
    decodeApplicationList (encodeApplicationList s list type) type = list := by
  by_cases h : type = keyAppAddAllow <;> simp [encodeApplicationList, decodeApplicationList, h]

/-- Each list read is the saved one or the one that was there before. -/
theorem decodeApplicationList_encode_or (s : SetModule) (list : List String) (type type' : ℤ) :
    decodeApplicationList (encodeApplicationList s list type) type' = list ∨
      decodeApplicationList (encodeApplicationList s list type) type' =
        decodeApplicationList s type' := by
  by_cases h : type = keyAppAddAllow <;> by_cases h' : type' = keyAppAddAllow <;>
    simp [encodeApplicationList, decodeApplicationList, h, h']

end MmkvManager

end HeptaVcn
